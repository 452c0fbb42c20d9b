import Invocation.Proofs.Rendering.Flags
import Invocation.Proofs.Rendering.InferredTypes
import Invocation.Proofs.Rendering.Unresolved

/-!
# Where findings stand

A finding stands at the place of what it is about: at the place of an input, below it for an element, and at
the place of its declaration for a field.  When the fields of a type are declared below a place, so are all
findings of a value that is rendered there (`below_render`).  A type that is inferred for a value has no
declaration, and the place of its fields is their name alone, so that findings stand below the place only if
nothing is out of place in an entry (`below_render_infer`).
-/

namespace Invocation

/-! ## Places -/

/-- A location begins with a place when it is the place or one below it. -/
def Begins (place location : String) : Prop :=
  place.toList <+: location.toList

instance (place location : String) : Decidable (Begins place location) :=
  inferInstanceAs (Decidable (place.toList <+: location.toList))

/-- A location begins with itself. -/
theorem Begins.refl (place : String) : Begins place place :=
  List.prefix_refl _

/-- What begins with a place below another one begins with the other one. -/
theorem Begins.trans {place inner location : String} (h : Begins place inner)
    (hinner : Begins inner location) : Begins place location :=
  List.IsPrefix.trans h hinner

/-- The places of elements begin with that of their list. -/
theorem begins_elementLocation (location : String) (index : Nat) :
    Begins location (elementLocation location index) := by
  unfold Begins elementLocation
  simp only [String.toList_append, List.append_assoc]
  exact List.prefix_append _ _

/-- All findings stand at the place or below. -/
def Findings.Below (place : String) (findings : Findings) : Prop :=
  findings.All fun finding ↦ Begins place finding.location

/-- What stands at a place below another one stands below the other one. -/
theorem Findings.below_of_all {place location : String} {findings : Findings} (h : Begins place location)
    (hfindings : findings.All fun finding ↦ finding.location = location) : findings.Below place :=
  hfindings.mono fun _ hfinding ↦ hfinding ▸ h

/-! ## The place of one value -/

/-- What is found of a flag stands at its place. -/
theorem Rendering.all_location_flag (evaluator : Evaluator) (itemsContext : Option Binding)
    (binding : Binding) (location : String) (value : JobValue) (scope : Scope) :
    ((flag itemsContext binding location value scope).run evaluator).findings.All
      fun finding ↦ finding.location = location := by
  have hflag : Every (fun findings ↦ findings.All fun finding ↦ finding.location = location)
      (flag itemsContext binding location value scope) :=
    every_flag Findings.all_none (fun _ ↦ Findings.all_error rfl) itemsContext binding value scope
  exact hflag.run evaluator

namespace InputType

variable {evaluator : Evaluator} {id location place : String} {binding : Binding} {job value : JobValue}
  {given : Option JobValue} {scope : Scope} {type : InputType}

/-- A mismatch stands at the place of the value. -/
theorem all_location_mismatch (type : InputType) (id location : String) (value : JobValue) :
    (type.mismatch id location value).All fun finding ↦ finding.location = location := by
  unfold mismatch
  split
  · exact Findings.all_none
  · exact Findings.all_warning rfl

/-- What is found about a value as a whole stands at its place. -/
theorem all_location_remarks (type : InputType) (id location : String) (value : JobValue) :
    (type.remarks id location value).All fun finding ↦ finding.location = location := by
  cases type with
  | primitive | enum | boolean | array | unresolved => exact all_location_mismatch _ id location value
  | record fields =>
      refine (all_location_mismatch _ id location value).append fun finding hmem ↦ ?_
      obtain ⟨key, -, rfl⟩ := List.mem_map.1 hmem
      rfl

/-- Without components everything is found at the place of the value. -/
theorem all_location_render_of_leaf (evaluator : Evaluator) (hleaf : type.isComposite = false) :
    ((type.render id binding location job given scope).run evaluator).findings.All
      fun finding ↦ finding.location = location := by
  unfold render
  cases type with
  | array | record => cases hleaf
  | unresolved tag => exact Findings.all_warning rfl
  | primitive | enum =>
      dsimp only
      split
      · exact Findings.all_none
      · exact (all_location_mismatch _ id location _).append Findings.all_none
  | boolean itemsContext =>
      dsimp only
      split
      · exact Findings.all_none
      · rw [Rendering.run_map]
        exact (all_location_mismatch _ id location _).append (Rendering.all_location_flag evaluator _ _ _ _ _)

/-- The findings of a list or a record stand below a place when those of its components do. -/
theorem below_render_of_components (hplace : Begins place location) (hcomposite : type.isComposite = true)
    (hcomponents : ∀ value, resolveValue id job given = some value →
      ∀ component ∈ type.components location value, (component.findings evaluator scope).Below place) :
    ((type.render id binding location job given scope).run evaluator).findings.Below place := by
  cases hvalue : resolveValue id job given with
  | none =>
      have htype (tag : String) : type ≠ .unresolved tag := by
        rintro rfl
        cases hcomposite
      rw [render_of_none htype hvalue]
      exact Findings.all_none
  | some value =>
      rw [run_render_of_components evaluator hvalue hcomposite]
      refine (Findings.below_of_all hplace (all_location_remarks type id location value)).append ?_
      exact Findings.all_concat (List.forall_mem_map.2 (hcomponents value hvalue))

end InputType

namespace Component

variable {evaluator : Evaluator} {scope : Scope} {component : Component}

/-- The findings of a component with a value are those of rendering the value. -/
theorem findings_of_given {own : JobValue} (h : component.given = some own) :
    component.findings evaluator scope =
      ((Input.render component.input component.whole (some own)
        (scope.within component.whole own)).run evaluator).findings := by
  unfold findings result? rendering?
  rw [h]
  rfl

/-- The findings of a component have what those of its own value have. -/
theorem all_findings {P : Finding → Prop} (h : ∀ own, component.given = some own →
      ((Input.render component.input component.whole (some own)
        (scope.within component.whole own)).run evaluator).findings.All P) :
    (component.findings evaluator scope).All P := by
  cases hgiven : component.given with
  | none =>
      unfold findings result? rendering?
      rw [hgiven]
      exact Findings.all_none
  | some own =>
      rw [findings_of_given hgiven]
      exact h own hgiven

end Component

/-! ## Declared types -/

namespace InputType

/-- Every field inside of the type, at any depth, is declared at the place or below. -/
inductive FieldsBelow (place : String) : InputType → Prop where
  | primitive (kind : Primitive) : FieldsBelow place (.primitive kind)
  | boolean (itemsContext : Option Binding) : FieldsBelow place (.boolean itemsContext)
  | enum (symbols : List String) : FieldsBelow place (.enum symbols)
  | unresolved (tag : String) : FieldsBelow place (.unresolved tag)
  | array {items : InputType} (itemBinding : Option Binding) :
      FieldsBelow place items → FieldsBelow place (.array items itemBinding)
  | record {fields : List Input} :
      (∀ field ∈ fields, Begins place field.location) → (∀ field ∈ fields, FieldsBelow place field.type) →
      FieldsBelow place (.record fields)

variable {evaluator : Evaluator} {id location place : String} {binding : Binding} {job : JobValue}
  {given : Option JobValue} {scope : Scope} {type : InputType}

/-- Fields that are declared below a place that is below another one are declared below the other one. -/
theorem FieldsBelow.mono {inner : String} (h : type.FieldsBelow inner) (hplace : Begins place inner) :
    type.FieldsBelow place := by
  induction h with
  | primitive kind => exact .primitive kind
  | boolean itemsContext => exact .boolean itemsContext
  | enum symbols => exact .enum symbols
  | unresolved tag => exact .unresolved tag
  | array itemBinding _ ih => exact .array itemBinding ih
  | record hfields _ ih => exact .record (fun field hmem ↦ hplace.trans (hfields field hmem)) ih

/-- A value is rendered with findings below a place when it stands there and the fields of its type are
declared there. -/
theorem below_render (h : type.FieldsBelow place) (hplace : Begins place location) :
    ((type.render id binding location job given scope).run evaluator).findings.Below place := by
  induction h generalizing id location binding job given scope with
  | primitive | boolean | enum | unresolved =>
      exact Findings.below_of_all hplace (all_location_render_of_leaf evaluator rfl)
  | array itemBinding _ ih =>
      refine below_render_of_components hplace rfl fun value _ component hmem ↦ ?_
      obtain ⟨index, _, rfl⟩ := List.mem_mapIdx.1 hmem
      exact Component.all_findings fun own _ ↦ ih (hplace.trans (begins_elementLocation location index))
  | record hfields _ ih =>
      refine below_render_of_components hplace rfl fun value _ component hmem ↦ ?_
      obtain ⟨field, hfield, rfl⟩ := List.mem_map.1 hmem
      exact Component.all_findings fun own _ ↦ ih field hfield (hfields field hfield)

end InputType

/-! ## Inferred types -/

namespace JobValue

/-- `EntriesPass value first` says that every mapping in `value` that is rendered with the type of a mapping in
`first` has entries that can stand for those of this mapping, or null.  A list is rendered with the type of its
first item, so that its items are compared with that one. -/
inductive EntriesPass : JobValue → JobValue → Prop where
  | leaf (value : JobValue) {first : JobValue} : first.isNested = false → EntriesPass value first
  | empty (value : JobValue) : EntriesPass value (.list [])
  | list {value first : JobValue} (rest : List JobValue) :
      (∀ element ∈ value.elements, element.isNull = false → EntriesPass element first) →
      EntriesPass value (.list (first :: rest))
  | mapping {value : JobValue} {entries : Entries JobValue} :
      (∀ entry ∈ entries, ∀ own, value.entries.lookup entry.1 = some own → own.isNull = false →
        Passes own entry.2) → EntriesPass value (.mapping entries)

end JobValue

namespace Findings

/-- Several parts are mild when each is. -/
theorem mild_concat {parts : List Findings} (h : ∀ part ∈ parts, part.Mild) : (concat parts).Mild where
  errors := List.flatMap_eq_nil_iff.2 fun part hpart ↦ (h part hpart).errors
  warnings warning hmem := by
    obtain ⟨part, hpart, hwarning⟩ := List.mem_flatMap.1 hmem
    exact (h part hpart).warnings warning hwarning

/-- There are no mild findings when nothing is out of place. -/
theorem Mild.eq_none {findings : Findings} (h : findings.Mild) (hfit : findings.Fit) : findings = .none := by
  refine (isEmpty_iff findings).1 ?_
  have hwarnings : findings.warnings = [] := by
    refine List.eq_nil_iff_forall_not_mem.2 fun warning hmem ↦ ?_
    rcases h.warnings warning hmem with hissue | hissue
    · exact hfit.1 ⟨warning, hmem, hissue⟩
    · exact hfit.2 ⟨warning, hmem, hissue⟩
  rw [isEmpty, h.errors, hwarnings]
  rfl

end Findings

/-- The findings of an input are mild when there are no errors and no type without a meaning is met. -/
theorem Rendering.Shaped.mild_of_errors {rendering : Rendering} (h : Shaped False rendering) :
    Every (fun findings ↦ findings.errors = [] → findings.Mild) rendering := by
  refine Shaped.every ?_ ?_ ?_ ?_ h
  · exact fun findings hmild _ ↦ hmild
  · exact fun error location herrors ↦ absurd herrors (List.cons_ne_nil _ _)
  · intro first second hfirst hsecond herrors
    obtain ⟨herrors, hothers⟩ := List.append_eq_nil_iff.1 herrors
    exact (hfirst herrors).append (hsecond hothers)
  · intro parts hparts herrors
    exact Findings.mild_concat fun part hpart ↦
      hparts part hpart (List.flatMap_eq_nil_iff.1 herrors part hpart)

namespace InputType

open JobValue (EntriesPass Passes)

variable {evaluator : Evaluator} {id location place : String} {binding : Binding} {job value first : JobValue}
  {given : Option JobValue} {scope : Scope}

/-- No evaluation is asked for with an inferred type, so that none fails. -/
theorem errors_render_infer (hbinding : binding.valueFrom = none) :
    (((infer first).render id binding location job given scope).run evaluator).findings.errors = [] := by
  have htrace : Rendering.trace evaluator ((infer first).render id binding location job given scope) = [] := by
    rw [(Rendering.static_input _ _ _ _ _ _ _).trace_eq]
    exact Rendering.pending_eq_nil_of_mute (mute_infer first) hbinding _ _ _ _ _
  have hreports := (Rendering.contained_input (infer first) id binding location job given scope).errors evaluator
  rw [htrace] at hreports
  exact List.forall₂_nil_right_iff.1 hreports

/-- Nothing is found of a value that is rendered with an inferred type when nothing is out of place in it. -/
theorem all_render_infer_of_fit {P : Finding → Prop} (hbinding : binding.valueFrom = none)
    (hfit : (((infer first).render id binding location job given scope).run evaluator).findings.Fit) :
    (((infer first).render id binding location job given scope).run evaluator).findings.All P := by
  have hmeaning : ((infer first).unresolvedWithin id location).warnings = [] :=
    congrArg Findings.warnings (unresolvedWithin_infer first id location)
  have hshaped := Rendering.shaped_input (infer first) (fun hne ↦ hne hmeaning) id binding location job given scope
  rw [(hshaped.mild_of_errors.run evaluator (errors_render_infer hbinding)).eq_none hfit]
  exact Findings.all_none

/-- Nothing is found of an entry that can stand for that of the mapping whose type is inferred. -/
theorem all_findings_inferredComponent {P : Finding → Prop} {entries : Entries JobValue}
    {entry : String × JobValue} (hentry : entry ∈ entries)
    (hpasses : ∀ own, value.entries.lookup entry.1 = some own → own.isNull = false → Passes own entry.2) :
    ((inferredComponent value entry).findings evaluator scope).All P := by
  have hmem : inferredComponent value entry ∈ (infer (.mapping entries)).components "" value := by
    rw [components_infer_mapping]
    exact List.mem_map_of_mem hentry
  have hfit : ((inferredComponent value entry).findings evaluator scope).Fit :=
    (Component.fit_findings_iff hmem (fitIff_infer evaluator entry.2)).2 hpasses
  refine Component.all_findings fun own hgiven ↦ all_render_infer_of_fit rfl ?_
  rw [Component.findings_of_given hgiven] at hfit
  exact hfit

/-- A value is rendered with the type of another one so that all findings stand below its place, provided that
the entries inside of it can stand for those of the other value. -/
theorem below_render_infer (h : EntriesPass value first) (hvalue : resolveValue id job given = some value)
    (hplace : Begins place location) :
    (((infer first).render id binding location job given scope).run evaluator).findings.Below place := by
  induction h generalizing id location binding job given scope with
  | leaf value hleaf =>
      refine Findings.below_of_all hplace (all_location_render_of_leaf evaluator ?_)
      rw [isComposite_infer, hleaf]
  | empty value => exact below_render (.array none (.primitive .any)) hplace
  | @list value _ _ _ ih =>
      refine below_render_of_components hplace rfl fun found hfound component hmem ↦ ?_
      cases hvalue.symm.trans hfound
      refine Component.all_findings fun own hgiven ↦ ?_
      have hown := Component.resolveValue_eq hmem hgiven
      obtain ⟨index, hindex, rfl⟩ := List.mem_mapIdx.1 hmem
      cases hgiven
      cases hnull : value.elements[index].isNull with
      | true =>
          have hnone := hown.trans (JobValue.present?_eq_none hnull)
          exact all_render_infer_of_fit rfl (fit_render_of_none evaluator hnone)
      | false =>
          exact ih _ (List.getElem_mem hindex) hnull (hown.trans (JobValue.present?_eq_some hnull))
            (hplace.trans (begins_elementLocation location index))
  | @mapping value entries hentries =>
      refine below_render_of_components hplace rfl fun found hfound component hmem ↦ ?_
      cases hvalue.symm.trans hfound
      rw [components_infer_mapping] at hmem
      obtain ⟨entry, hentry, rfl⟩ := List.mem_map.1 hmem
      exact all_findings_inferredComponent hentry (hentries entry hentry)

end InputType

/-! ## Targets -/

namespace Target

/-- Where an argument has a value, the entries inside of the value can stand for those whose types are inferred
from it. -/
def EntriesPass (evaluator : Evaluator) (scope : Scope) : Target → Prop
  | .argument declared => declared.literal = none → ∀ expression ∈ declared.binding.valueFrom,
    ∀ value, evaluator ⟨expression, scope⟩ = .ok value → value.EntriesPass value
  | _ => True

variable {evaluator : Evaluator} {scope : Scope} {job : JobValue}

/-- The findings of a value of an argument stand at its place or below, if the entries in it pass. -/
theorem below_renderValue (argument : Argument) {value : JobValue} (h : value.EntriesPass value) :
    ((argument.renderValue job scope value).run evaluator).findings.Below argument.location := by
  rw [Argument.findings_renderValue]
  cases value with
  | null =>
      -- null may be replaced by a value of the job, which has the same place
      exact Findings.below_of_all (.refl _) (InputType.all_location_render_of_leaf evaluator rfl)
  | bool | number | string | file | list | mapping =>
      exact InputType.below_render_infer h (resolveValue_given rfl _ _) (.refl _)

/-- The findings of a target stand at its place or below, if the fields of an input are declared there and the
entries in the value of an argument pass. -/
theorem below_render {target : Target} {given : Option JobValue}
    (htype : ∀ input : Input, target = .input input → input.type.FieldsBelow input.location)
    (hentries : target.EntriesPass evaluator scope) :
    ((target.render job given scope).run evaluator).findings.Below target.location := by
  cases target with
  | input input => exact InputType.below_render (htype input rfl) (.refl _)
  | argument argument =>
      show ((argument.render job scope).run evaluator).findings.Below argument.location
      cases hliteral : argument.literal with
      | some text =>
          unfold Argument.render
          rw [hliteral]
          exact Findings.all_none
      | none =>
          cases hexpression : argument.binding.valueFrom with
          | none =>
              unfold Argument.render
              rw [hliteral, hexpression]
              exact Findings.all_none
          | some expression =>
              rw [Argument.run_render_of_expression hliteral hexpression]
              cases hvalue : evaluator ⟨expression, scope⟩ with
              | error error => exact Findings.all_error (.refl _)
              | ok value => exact below_renderValue argument (hentries hliteral expression hexpression value hvalue)
  | stream stream =>
      have hstream : Rendering.Every (Findings.Below stream.location) (stream.render scope) :=
        Rendering.every_evaluate (fun _ ↦ Findings.all_error (.refl _)) fun value ↦ by
          unfold Stream.rendered
          split
          · exact .done Findings.all_none
          · exact .done Findings.all_none
      exact hstream.run evaluator

end Target

end Invocation
