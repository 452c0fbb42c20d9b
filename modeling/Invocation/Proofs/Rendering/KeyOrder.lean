import Invocation.Proofs.Job.Encoding
import Invocation.Proofs.Rendering.Surroundings

/-!
# The order of keys in records

Where a type has a record, the order of the entries of a value does not matter: for an evaluator that ignores
the order of keys the rendering differs in the order of warnings about undeclared fields alone
(`Rendering.rearranged_of_reorders`), at any depth of lists and records.  Elsewhere it does matter, since a
mapping that is no record is written as text with its entries in their order.
-/

namespace Invocation

/-! ## Values up to the order of keys -/

namespace JobValue

variable {value other : JobValue}

/-- The order of keys does not matter for whether a value is null. -/
theorem Same.isNull_eq (h : Same value other) : value.isNull = other.isNull := by
  cases h <;> rfl

/-- The order of keys does not matter for the kind of a value. -/
theorem Same.kindName_eq (h : Same value other) : value.kindName = other.kindName := by
  cases h <;> rfl

/-- The elements of values up to the order of keys are elements up to that order. -/
theorem Same.elements (h : Same value other) : List.Forall₂ Same value.elements other.elements := by
  cases h with
  | refl => exact List.forall₂_same.2 fun element _ ↦ .refl element
  | list hitems => exact hitems
  | mapping hentries => exact .cons (.mapping hentries) .nil
  | file kind path location hextra => exact .cons (.file kind path location hextra) .nil

/-- The identity of a file reference is no matter of order. -/
theorem Same.unwrapFile (h : Same value other) : Same value.unwrapFile other.unwrapFile := by
  cases h with
  | refl => exact .refl _
  | list hitems => exact .list hitems
  | mapping hentries => exact .mapping hentries
  | file kind path location hextra => exact .refl _

/-- A type accepts a value with its entries in any order. -/
theorem Same.accepts_eq (h : Same value other) (type : InputType) :
    type.accepts value = type.accepts other := by
  induction type using InputType.induction generalizing value other with
  | primitive kind =>
      cases h with
      | refl | list | mapping => cases kind <;> rfl
      | file fileClass => cases kind <;> cases fileClass <;> rfl
  | boolean | record | enum | unresolved => cases h <;> rfl
  | array items itemBinding ih =>
      cases h with
      | refl | mapping | file => rfl
      | list hitems =>
          unfold InputType.accepts
          induction hitems with
          | nil => rfl
          | cons hitem _ ihrest => rw [List.all_cons, List.all_cons, ih hitem, ihrest]

/-- A type is mismatched by a value with its entries in any order. -/
theorem Same.mismatch_eq (h : Same value other) (type : InputType) (id location : String) :
    type.mismatch id location value = type.mismatch id location other := by
  unfold InputType.mismatch InputType.admits
  simp only [h.accepts_eq, h.kindName_eq]

end JobValue

/-! ## Scopes up to the order of keys -/

/-- The scopes differ in the order of keys only, at any depth of their values. -/
structure Scope.Same (scope other : Scope) : Prop where
  inputs : JobValue.Same scope.inputs other.inputs
  job : JobValue.Same scope.job other.job
  self : Option.Rel JobValue.Same scope.self other.self
  runtime : scope.runtime = other.runtime

/-- The scopes of elements or fields differ like what they are taken from. -/
theorem Scope.Same.within {scope other : Scope} (h : Scope.Same scope other) {job another own part : JobValue}
    (hjob : JobValue.Same job another) (hown : JobValue.Same own part) :
    Scope.Same (scope.within job own) (other.within another part) :=
  ⟨h.inputs, hjob, .some hown, h.runtime⟩

/-- The evaluator does not distinguish scopes that differ in the order of keys only. -/
def IgnoresOrder (evaluator : Evaluator) : Prop :=
  ∀ (expression : Expression) {scope other : Scope}, Scope.Same scope other →
    evaluator ⟨expression, scope⟩ = evaluator ⟨expression, other⟩

/-! ## Findings up to the order of warnings -/

/-- The finding, unless it is about an undeclared field. -/
def Finding.lasting? (finding : Finding) : Option Finding :=
  if finding.issue = .undeclaredField then none else some finding

namespace Findings

/-- The findings are the same, but those about undeclared fields may have changed places with each other. -/
structure Rearranged (first second : Findings) : Prop where
  errors : first.errors = second.errors
  perm : first.warnings.Perm second.warnings
  lasting : first.warnings.map Finding.lasting? = second.warnings.map Finding.lasting?

theorem Rearranged.refl (findings : Findings) : Rearranged findings findings :=
  ⟨rfl, .refl _, rfl⟩

theorem Rearranged.of_eq {first second : Findings} (h : first = second) : Rearranged first second :=
  h ▸ .refl first

/-- The parts are rearranged by themselves. -/
theorem Rearranged.append {first second third fourth : Findings} (h : Rearranged first second)
    (hrest : Rearranged third fourth) : Rearranged (first ++ third) (second ++ fourth) where
  errors := by rw [errors_append, errors_append, h.errors, hrest.errors]
  perm := h.perm.append hrest.perm
  lasting := by
    rw [warnings_append, warnings_append, List.map_append, List.map_append, h.lasting, hrest.lasting]

/-- Each of several parts is rearranged by itself. -/
theorem Rearranged.concat {parts others : List Findings} (h : List.Forall₂ Rearranged parts others) :
    Rearranged (.concat parts) (.concat others) := by
  induction h with
  | nil => exact .refl _
  | cons hpart _ ih => exact hpart.append ih

end Findings

/-- The order of the entries of a record is the order of the warnings about those that are undeclared. -/
theorem rearranged_undeclared {entries others : Entries JobValue} (h : entries.keys.Perm others.keys)
    (fields : List Input) (id location : String) :
    (undeclared fields id location entries).Rearranged (undeclared fields id location others) where
  errors := rfl
  perm := (h.filter _).map _
  lasting := by
    unfold undeclared
    simp only [List.map_map, Function.comp_def, Finding.lasting?, if_true, List.map_const',
      (h.filter _).length_eq]

/-- The results have the same fragment, and rearranged findings. -/
structure Rendered.Rearranged (first second : Rendered) : Prop where
  fragment : first.fragment = second.fragment
  findings : first.findings.Rearranged second.findings

theorem Rendered.Rearranged.refl (result : Rendered) : Rearranged result result :=
  ⟨rfl, .refl _⟩

/-! ## Records in another order -/

/-- `type.Reorders value other` says that the values differ in the order of keys only, and only in mappings
that the type renders as records. -/
inductive InputType.Reorders : InputType → JobValue → JobValue → Prop where
  | refl (type : InputType) (value : JobValue) : Reorders type value value
  | array {items : InputType} {itemBinding : Option Binding} {value other : JobValue} :
      JobValue.Same value other →
      (∀ index, ∀ hvalue : index < value.elements.length, ∀ hother : index < other.elements.length,
        Reorders items value.elements[index] other.elements[index]) →
      Reorders (.array items itemBinding) value other
  | record {fields : List Input} {entries others : Entries JobValue} :
      entries.keys.Nodup → Entries.Alike JobValue.Same entries others →
      (∀ field ∈ fields, ∀ value other, entries.lookup field.id = some value →
        others.lookup field.id = some other → Reorders field.type value other) →
      Reorders (.record fields) (.mapping entries) (.mapping others)

namespace InputType

variable {type : InputType} {value other : JobValue}

/-- The order of keys is all that differs. -/
theorem Reorders.same (h : type.Reorders value other) : JobValue.Same value other := by
  cases h with
  | refl => exact .refl value
  | array hsame => exact hsame
  | record _ halike => exact .mapping halike

/-- The same entries in another order are a reordered record. -/
theorem reorders_of_perm {entries others : Entries JobValue} (hkeys : entries.keys.Nodup)
    (h : entries.Perm others) (fields : List Input) :
    (record fields).Reorders (.mapping entries) (.mapping others) := by
  refine .record hkeys (Entries.alike_of_perm .refl h) fun field _ value other hvalue hother ↦ ?_
  rw [Entries.lookup_eq_of_perm hkeys h, hother] at hvalue
  cases hvalue
  exact .refl field.type value

/-- A value is there in any order. -/
theorem Reorders.present? (h : type.Reorders value other) :
    Option.Rel type.Reorders value.present? other.present? := by
  unfold JobValue.present?
  rw [← h.same.isNull_eq]
  split
  · exact .none
  · exact .some h

end InputType

namespace InputType

variable {evaluator : Evaluator} {scope around : Scope} {type : InputType} {value other : JobValue}
  {id location : String} {binding : Binding} {job another : JobValue} {given own : Option JobValue}

/-- The remarks about a value are rearranged with its entries. -/
theorem Reorders.remarks (h : type.Reorders value other) (id location : String) :
    (type.remarks id location value).Rearranged (type.remarks id location other) := by
  have hmismatch := Findings.Rearranged.of_eq (h.same.mismatch_eq type id location)
  cases h with
  | refl => exact .refl _
  | array => exact hmismatch
  | record _ halike => exact hmismatch.append (rearranged_undeclared halike.perm_keys _ id location)

end InputType

/-! ## Components -/

namespace Component

variable {evaluator : Evaluator} {scope around : Scope}

/-- The components have rearranged results, each in its scope, or both have none. -/
def Rearranged (evaluator : Evaluator) (scope around : Scope) (first second : Component) : Prop :=
  Option.Rel Rendered.Rearranged (first.result? evaluator scope) (second.result? evaluator around)

/-- Rearranged components put the same text between the others. -/
theorem Rearranged.token?_eq {first second : Component} (h : Rearranged evaluator scope around first second) :
    first.token? evaluator scope = second.token? evaluator around := by
  unfold Rearranged at h
  unfold token?
  generalize first.result? evaluator scope = result, second.result? evaluator around = other at h
  cases h with
  | none => rfl
  | some hresult => exact congrArg (Option.map Fragment.text) hresult.fragment

/-- Rearranged components have rearranged findings. -/
theorem Rearranged.findings {first second : Component} (h : Rearranged evaluator scope around first second) :
    (first.findings evaluator scope).Rearranged (second.findings evaluator around) := by
  unfold Rearranged at h
  unfold Component.findings
  generalize first.result? evaluator scope = result, second.result? evaluator around = other at h
  cases h with
  | none => exact .refl _
  | some hresult => exact hresult.findings

/-- Rearranged components put the same texts side by side. -/
theorem filterMap_token?_eq {components others : List Component}
    (h : List.Forall₂ (Rearranged evaluator scope around) components others) :
    components.filterMap (token? evaluator scope) = others.filterMap (token? evaluator around) := by
  induction h with
  | nil => rfl
  | cons hcomponent _ ih => rw [List.filterMap_cons, List.filterMap_cons, hcomponent.token?_eq, ih]

end Component

namespace InputType

variable {evaluator : Evaluator} {scope around : Scope} {type : InputType} {value other : JobValue}
  {id location : String} {binding : Binding} {job another : JobValue} {given own : Option JobValue}

/-- A list or a record whose components are rearranged has a rearranged result. -/
theorem rearranged_of_components (hvalue : resolveValue id job given = some value)
    (hother : resolveValue id another own = some other) (hcomposite : type.isComposite = true)
    (hvalues : type.Reorders value other)
    (hcomponents : List.Forall₂ (Component.Rearranged evaluator scope around)
      (type.components location value) (type.components location other)) :
    Rendered.Rearranged ((type.render id binding location job given scope).run evaluator)
      ((type.render id binding location another own around).run evaluator) := by
  rw [run_render_of_components evaluator hvalue hcomposite,
    run_render_of_components evaluator hother hcomposite]
  have hfindings : List.Forall₂ Findings.Rearranged
      ((type.components location value).map (Component.findings evaluator scope))
      ((type.components location other).map (Component.findings evaluator around)) := by
    rw [List.forall₂_map_left_iff, List.forall₂_map_right_iff]
    exact hcomponents.imp fun _ _ h ↦ h.findings
  refine ⟨?_, (hvalues.remarks id location).append (.concat hfindings)⟩
  unfold tokens
  rw [Component.filterMap_token?_eq hcomponents]

/-- Values that the type reorders have rearranged results, in scopes up to the order of keys. -/
def RendersRearranged (evaluator : Evaluator) (type : InputType) : Prop :=
  ∀ {scope around : Scope} {id location : String} {binding : Binding} {job another : JobValue}
    {given own : Option JobValue}, Scope.Same scope around →
    Option.Rel type.Reorders (resolveValue id job given) (resolveValue id another own) →
    Rendered.Rearranged ((type.render id binding location job given scope).run evaluator)
      ((type.render id binding location another own around).run evaluator)

/-- Only values that are there matter, unless the type has no meaning. -/
theorem rendersRearranged_of_values (htype : ∀ tag, type ≠ .unresolved tag)
    (h : ∀ {scope around : Scope} {id location : String} {binding : Binding}
      {job another value other : JobValue} {given own : Option JobValue}, Scope.Same scope around → resolveValue id job given = some value →
      resolveValue id another own = some other → type.Reorders value other →
      Rendered.Rearranged ((type.render id binding location job given scope).run evaluator)
        ((type.render id binding location another own around).run evaluator)) :
    RendersRearranged evaluator type := by
  intro scope around id location binding job another given own hscope hvalues
  rcases rel_iff.1 hvalues with ⟨hvalue, hother⟩ | ⟨value, other, hvalue, hother, hvalues⟩
  · rw [render_of_none htype hvalue, render_of_none htype hother]
    exact .refl _
  · exact h hscope hvalue hother hvalues

/-- A component with another value and in another whole, each up to the order of keys, is rearranged. -/
theorem RendersRearranged.component {input : Input} (h : RendersRearranged evaluator input.type)
    (hscope : Scope.Same scope around) {first second : Component} {whole wholes part piece : JobValue}
    (hfirst : first = ⟨input, whole, some part⟩) (hsecond : second = ⟨input, wholes, some piece⟩)
    (hwhole : JobValue.Same whole wholes) (hparts : input.type.Reorders part piece)
    (hpart : resolveValue input.id whole (some part) = part.present?)
    (hpiece : resolveValue input.id wholes (some piece) = piece.present?) :
    Component.Rearranged evaluator scope around first second := by
  subst hfirst hsecond
  refine .some (h (hscope.within hwhole hparts.same) ?_)
  rw [hpart, hpiece]
  exact hparts.present?

/-- The elements of reordered lists are reordered. -/
theorem Reorders.element {items : InputType} {itemBinding : Option Binding}
    (h : (InputType.array items itemBinding).Reorders value other) {index : Nat}
    (hvalue : index < value.elements.length) (hother : index < other.elements.length) :
    items.Reorders value.elements[index] other.elements[index] := by
  cases h with
  | refl => exact .refl items _
  | array _ helements => exact helements index hvalue hother

/-- The elements of reordered lists are rearranged. -/
theorem forall₂_elements {items : InputType} {itemBinding : Option Binding}
    (hitems : RendersRearranged evaluator items) (hscope : Scope.Same scope around)
    (h : (array items itemBinding).Reorders value other) :
    List.Forall₂ (Component.Rearranged evaluator scope around)
      ((array items itemBinding).components location value)
      ((array items itemBinding).components location other) := by
  have hsiblings : JobValue.Same (.list (value.elements.map JobValue.unwrapFile))
      (.list (other.elements.map JobValue.unwrapFile)) := by
    refine .list ?_
    rw [List.forall₂_map_left_iff, List.forall₂_map_right_iff]
    exact h.same.elements.imp fun _ _ h ↦ h.unwrapFile
  have hlength (whole : JobValue) :
      ((array items itemBinding).components location whole).length = whole.elements.length :=
    List.length_mapIdx
  have hcomponent (whole : JobValue) (index : Nat) (hindex : index < whole.elements.length)
      (h : index < ((array items itemBinding).components location whole).length) :
      ((array items itemBinding).components location whole)[index] =
        ⟨⟨toString index, items, itemBinding.getD .plain, elementLocation location index⟩,
          .list (whole.elements.map JobValue.unwrapFile), some whole.elements[index]⟩ :=
    List.getElem_mapIdx
  refine List.forall₂_iff_get.2 ⟨?_, fun index hfirst hsecond ↦ ?_⟩
  · rw [hlength, hlength, h.same.elements.length_eq]
  · have hvalue : index < value.elements.length := hlength value ▸ hfirst
    have hother : index < other.elements.length := hlength other ▸ hsecond
    exact RendersRearranged.component hitems hscope (hcomponent value index hvalue hfirst)
      (hcomponent other index hother hsecond) hsiblings (h.element hvalue hother)
      (resolveValue_element hvalue) (resolveValue_element hother)

/-- The fields of a reordered record have reordered values. -/
theorem Reorders.rel_lookup {fields : List Input} (h : (InputType.record fields).Reorders value other)
    {field : Input} (hmem : field ∈ fields) :
    Option.Rel field.type.Reorders (value.entries.lookup field.id) (other.entries.lookup field.id) := by
  cases h with
  | refl =>
      cases value.entries.lookup field.id with
      | none => exact .none
      | some own => exact .some (.refl field.type own)
  | @record _ entries others hkeys halike hfields =>
      show Option.Rel _ (entries.lookup field.id) (others.lookup field.id)
      rcases rel_iff.1 (halike.rel_lookup hkeys field.id) with
        ⟨hvalue, hother⟩ | ⟨own, part, hvalue, hother, -⟩
      · rw [hvalue, hother]
        exact .none
      · rw [hvalue, hother]
        exact .some (hfields field hmem own part hvalue hother)

/-- The fields of reordered records are rearranged. -/
theorem forall₂_fields {fields : List Input}
    (hfields : ∀ field ∈ fields, RendersRearranged evaluator field.type)
    (hscope : Scope.Same scope around) (h : (record fields).Reorders value other) :
    List.Forall₂ (Component.Rearranged evaluator scope around) ((record fields).components location value)
      ((record fields).components location other) := by
  have hwhole : JobValue.Same (.mapping value.entries) (.mapping other.entries) := by
    cases h with
    | refl => exact .refl _
    | record _ halike => exact .mapping halike
  unfold components
  refine forall₂_map_map fun field hmem ↦ ?_
  rcases rel_iff.1 (h.rel_lookup hmem) with ⟨hvalue, hother⟩ | ⟨own, part, hvalue, hother, hparts⟩
  · rw [hvalue, hother]
    exact .none
  · rw [hvalue, hother]
    exact RendersRearranged.component (hfields field hmem) hscope rfl rfl hwhole hparts
      (resolveValue_field hvalue) (resolveValue_field hother)

/-- For an evaluator that ignores the order of keys, reordered values have rearranged results, in scopes that
differ in the order of keys only. -/
theorem rearranged_of_reorders (hevaluator : IgnoresOrder evaluator) (type : InputType) :
    RendersRearranged evaluator type := by
  induction type using InputType.induction with
  | unresolved tag => exact fun _ _ ↦ .refl _
  | primitive | enum =>
      refine rendersRearranged_of_values (by simp) fun _ hvalue hother hvalues ↦ ?_
      cases hvalues
      unfold render
      rw [hvalue, hother]
      exact .refl _
  | boolean itemsContext =>
      refine rendersRearranged_of_values (by simp) fun hscope hvalue hother hvalues ↦ ?_
      cases hvalues
      unfold render
      rw [hvalue, hother]
      dsimp only
      rw [Rendering.run_map, Rendering.run_map, Rendering.run_flag_congr fun expression ↦
        hevaluator expression (hscope.within hscope.job (.refl _))]
      exact .refl _
  | array items itemBinding ih =>
      refine rendersRearranged_of_values (by simp) fun hscope hvalue hother hvalues ↦ ?_
      exact rearranged_of_components hvalue hother rfl hvalues (forall₂_elements ih hscope hvalues)
  | record fields ih =>
      refine rendersRearranged_of_values (by simp) fun hscope hvalue hother hvalues ↦ ?_
      exact rearranged_of_components hvalue hother rfl hvalues (forall₂_fields ih hscope hvalues)

end InputType

end Invocation
