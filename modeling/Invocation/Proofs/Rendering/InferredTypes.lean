import Invocation.Proofs.Rendering.Arguments
import Invocation.Proofs.Rendering.Resemblance

/-!
# Inferred types

The type that is inferred for a value need not fit the value, since a list takes the type of its first item.
It fits exactly when the value resembles itself: then the type accepts the value, and nothing is out of place
at any depth when the value is rendered (`Argument.fits_inferred_iff`).
-/

namespace Invocation

namespace Findings

/-- Nothing is out of place: no value has a mismatch, and no entry is undeclared. -/
def Fit (findings : Findings) : Prop :=
  ¬ findings.Warns .typeMismatch ∧ ¬ findings.Warns .undeclaredField

/-- Nothing is out of place without findings. -/
theorem fit_none : Fit .none :=
  ⟨not_warns_none, not_warns_none⟩

/-- Nothing is out of place in two parts when this is so in each of them. -/
theorem fit_append_iff {first second : Findings} : (first ++ second).Fit ↔ first.Fit ∧ second.Fit := by
  unfold Fit
  rw [warns_append_iff, warns_append_iff, not_or, not_or, and_and_and_comm]

end Findings

namespace InputType

variable {id location : String} {binding : Binding} {job value : JobValue} {given : Option JobValue}
  {scope : Scope} {type : InputType}

/-- Nothing is out of place in an input without a value. -/
theorem fit_render_of_none (evaluator : Evaluator) (hvalue : resolveValue id job given = none) :
    ((type.render id binding location job given scope).run evaluator).findings.Fit :=
  ⟨not_warns_render_of_none (by decide) evaluator hvalue,
    not_warns_render_of_none (by decide) evaluator hvalue⟩

/-- Nothing is out of place in a value when this is so as a whole and for each component. -/
theorem fit_render_iff (evaluator : Evaluator) (hvalue : resolveValue id job given = some value) :
    ((type.render id binding location job given scope).run evaluator).findings.Fit ↔
      (type.remarks id location value).Fit ∧
        ∀ component ∈ type.components location value, (component.findings evaluator scope).Fit := by
  unfold Findings.Fit
  rw [warns_render_iff (by decide) evaluator hvalue, warns_render_iff (by decide) evaluator hvalue]
  simp only [not_or, not_exists, not_and]
  constructor
  · rintro ⟨⟨hmismatch, hmismatches⟩, hundeclared, hundeclareds⟩
    exact ⟨⟨hmismatch, hundeclared⟩, fun component hmem ↦
      ⟨hmismatches component hmem, hundeclareds component hmem⟩⟩
  · rintro ⟨⟨hmismatch, hundeclared⟩, hcomponents⟩
    exact ⟨⟨hmismatch, fun component hmem ↦ (hcomponents component hmem).1⟩, hundeclared,
      fun component hmem ↦ (hcomponents component hmem).2⟩

/-- A value is in place when the type admits it. -/
theorem fit_mismatch_iff : (type.mismatch id location value).Fit ↔ type.admits value = true := by
  have hundeclared : ¬ (type.mismatch id location value).Warns .undeclaredField := by
    unfold mismatch
    split
    · exact Findings.not_warns_none
    · rintro ⟨warning, hmem, hissue⟩
      rw [List.mem_singleton.1 hmem] at hissue
      cases hissue
  unfold Findings.Fit
  rw [and_iff_left hundeclared, warns_mismatch_iff, Bool.not_eq_false]

/-- Entries are in place when their keys are the ids of fields. -/
theorem fit_undeclared_iff {fields : List Input} {entries : Entries JobValue} :
    (undeclared fields id location entries).Fit ↔
      ∀ key ∈ entries.keys, ∃ field ∈ fields, field.id = key := by
  have hissue {warning : Finding} (hmem : warning ∈ (undeclared fields id location entries).warnings) :
      warning.issue = .undeclaredField := by
    obtain ⟨key, -, rfl⟩ := List.mem_map.1 hmem
    rfl
  have hmismatch : ¬ (undeclared fields id location entries).Warns .typeMismatch := by
    rintro ⟨warning, hmem, hwarning⟩
    cases (hissue hmem).symm.trans hwarning
  have hundeclared : (undeclared fields id location entries).Warns .undeclaredField ↔
      (undeclared fields id location entries).warnings ≠ [] := by
    constructor
    · rintro ⟨warning, hmem, -⟩
      exact List.ne_nil_of_mem hmem
    · intro h
      obtain ⟨warning, hmem⟩ := List.exists_mem_of_ne_nil _ h
      exact ⟨warning, hmem, hissue hmem⟩
  unfold Findings.Fit
  rw [and_iff_right hmismatch, hundeclared, not_not]
  simp [undeclared]

/-- A value that is rendered as a record is in place when it is a mapping whose keys are the ids of
fields. -/
theorem fit_remarks_record_iff {fields : List Input} :
    ((record fields).remarks id location value).Fit ↔ ∃ entries : Entries JobValue,
      value = .mapping entries ∧ ∀ key ∈ entries.keys, ∃ field ∈ fields, field.id = key := by
  unfold remarks
  rw [Findings.fit_append_iff, fit_mismatch_iff, fit_undeclared_iff]
  cases value with
  | mapping entries => simp [admits, accepts, JobValue.entries]
  | null | bool | number | string | file | list => simp [admits, accepts, items?]

/-- The values that are in place when they are rendered with the type are those with the property `P`. -/
def FitIff (type : InputType) (evaluator : Evaluator) (P : JobValue → Prop) : Prop :=
  ∀ ⦃id : String⦄ ⦃binding : Binding⦄ ⦃location : String⦄ ⦃job : JobValue⦄ ⦃given : Option JobValue⦄
    ⦃scope : Scope⦄ ⦃value : JobValue⦄, resolveValue id job given = some value →
    (((type.render id binding location job given scope).run evaluator).findings.Fit ↔ P value)

end InputType

namespace Component

variable {evaluator : Evaluator} {scope : Scope} {component : Component}

/-- A component is in place when it has no value, or null, or when its value is in place. -/
theorem fit_findings_iff {type : InputType} {location : String} {value : JobValue}
    (hmem : component ∈ type.components location value) {P : JobValue → Prop}
    (htype : component.input.type.FitIff evaluator P) :
    (component.findings evaluator scope).Fit ↔
      ∀ own, component.given = some own → own.isNull = false → P own := by
  have hown (own : JobValue) (hgiven : component.given = some own) := resolveValue_eq hmem hgiven
  unfold findings result? rendering?
  cases hgiven : component.given with
  | none =>
      refine iff_of_true Findings.fit_none ?_
      exact nofun
  | some own =>
      cases hnull : own.isNull with
      | true =>
          have hvalue := (hown own hgiven).trans (JobValue.present?_eq_none hnull)
          refine iff_of_true (InputType.fit_render_of_none evaluator hvalue) ?_
          intro other hother hpresent
          cases hother
          cases hnull.symm.trans hpresent
      | false =>
          have hvalue := (hown own hgiven).trans (JobValue.present?_eq_some hnull)
          refine (htype hvalue).trans ⟨fun h other hother _ ↦ ?_, fun h ↦ h own rfl hnull⟩
          cases hother
          exact h

end Component

namespace InputType

open JobValue (Resembles Passes)

variable {evaluator : Evaluator} {type items : InputType} {P Q : JobValue → Prop}

/-- Values other than null are in place for one property or for an equal one. -/
theorem FitIff.congr (h : type.FitIff evaluator P)
    (hiff : ∀ value : JobValue, value.isNull = false → (P value ↔ Q value)) : type.FitIff evaluator Q := by
  intro id binding location job given scope value hvalue
  exact (h hvalue).trans (hiff value (isNull_of_resolveValue hvalue))

/-- Without components a value is in place when the type accepts it. -/
theorem fitIff_of_leaf (hleaf : type.isComposite = false) :
    type.FitIff evaluator fun value ↦ type.accepts value = true := by
  intro id binding location job given scope value hvalue
  rw [fit_render_iff evaluator hvalue]
  cases type with
  | array | record => cases hleaf
  | primitive | enum | boolean | unresolved =>
      show (mismatch _ id location value).Fit ∧ _ ↔ _
      rw [fit_mismatch_iff]
      simp [admits, items?, components]

/-- Every element of a list is the value of a component. -/
theorem exists_component_of_mem_elements {value element : JobValue} (hmem : element ∈ value.elements)
    (items : InputType) (itemBinding : Option Binding) (location : String) :
    ∃ component ∈ (array items itemBinding).components location value,
      component.input.type = items ∧ component.given = some element := by
  unfold components
  obtain ⟨index, hindex, rfl⟩ := List.mem_iff_getElem.1 hmem
  exact ⟨_, List.mem_mapIdx.2 ⟨index, hindex, rfl⟩, rfl, rfl⟩

/-- A value that is rendered as a list is in place when the type admits it and its elements are in place. -/
theorem FitIff.array (hitems : items.FitIff evaluator P) (itemBinding : Option Binding) :
    (array items itemBinding).FitIff evaluator fun value ↦
      (InputType.array items itemBinding).admits value = true ∧
        ∀ element ∈ value.elements, element.isNull = false → P element := by
  intro id binding location job given scope value hvalue
  rw [fit_render_iff evaluator hvalue]
  refine and_congr fit_mismatch_iff ⟨fun h element hmem hpresent ↦ ?_, fun h component hcomponent ↦ ?_⟩
  · obtain ⟨component, hcomponent, rfl, hgiven⟩ :=
      exists_component_of_mem_elements hmem items itemBinding location
    exact (component.fit_findings_iff hcomponent hitems).1 (h component hcomponent) element hgiven hpresent
  · obtain ⟨index, hindex, rfl⟩ := List.mem_mapIdx.1 hcomponent
    refine (Component.fit_findings_iff hcomponent hitems).2 fun own hgiven hpresent ↦ ?_
    cases hgiven
    exact h _ (List.getElem_mem hindex) hpresent

/-- The fields of an inferred record are the entries of the mapping. -/
theorem inferFields_eq (entries : Entries JobValue) :
    inferFields entries = entries.map fun entry ↦ .inferred entry.1 (infer entry.2) := by
  induction entries with
  | nil => rfl
  | cons entry rest ih =>
      unfold inferFields
      rw [ih]
      rfl

/-- The component that an entry of a mapping becomes when another value is rendered with the type of the
mapping. -/
def inferredComponent (value : JobValue) (entry : String × JobValue) : Component :=
  ⟨.inferred entry.1 (infer entry.2), .mapping value.entries, value.entries.lookup entry.1⟩

/-- A value that is rendered with the type of a mapping has a component for each entry. -/
theorem components_infer_mapping (entries : Entries JobValue) (location : String) (value : JobValue) :
    (infer (.mapping entries)).components location value = entries.map (inferredComponent value) := by
  show (inferFields entries).map _ = _
  rw [inferFields_eq, List.map_map]
  rfl

/-- A value that is rendered with the type of a mapping is in place as a whole when it is a mapping without
other keys. -/
theorem fit_remarks_infer_mapping_iff {entries : Entries JobValue} {id location : String}
    {value : JobValue} :
    ((infer (.mapping entries)).remarks id location value).Fit ↔ ∃ others : Entries JobValue,
      value = .mapping others ∧ ∀ key ∈ others.keys, key ∈ entries.keys := by
  unfold infer
  rw [fit_remarks_record_iff, inferFields_eq]
  simp [Entries.keys, Parameter.inferred]

/-- A value that is rendered with the type of a mapping is in place when it can stand for the mapping,
provided that this is so for the values of the entries. -/
theorem fitIff_infer_mapping {entries : Entries JobValue}
    (hentries : ∀ entry ∈ entries, (infer entry.2).FitIff evaluator (Passes · entry.2)) :
    (infer (.mapping entries)).FitIff evaluator (Passes · (.mapping entries)) := by
  intro id binding location job given scope value hvalue
  have hcomponents : (∀ component ∈ (infer (.mapping entries)).components location value,
        (component.findings evaluator scope).Fit) ↔
      ∀ entry ∈ entries, ∀ own, value.entries.lookup entry.1 = some own → own.isNull = false →
        Passes own entry.2 := by
    have hfit (entry : String × JobValue) (hmem : entry ∈ entries) :
        ((inferredComponent value entry).findings evaluator scope).Fit ↔
          ∀ own, value.entries.lookup entry.1 = some own → own.isNull = false → Passes own entry.2 := by
      have hcomponent : inferredComponent value entry ∈
          (infer (.mapping entries)).components location value := by
        rw [components_infer_mapping]
        exact List.mem_map_of_mem hmem
      exact Component.fit_findings_iff hcomponent (hentries entry hmem)
    rw [components_infer_mapping, List.forall_mem_map]
    exact forall₂_congr hfit
  rw [fit_render_iff evaluator hvalue, fit_remarks_infer_mapping_iff, hcomponents]
  constructor
  · rintro ⟨⟨others, rfl, hothers⟩, hpasses⟩
    exact .whole (.mapping hothers hpasses)
  · intro h
    cases h with
    | whole h =>
        cases h with
        | mapping hothers hpasses => exact ⟨⟨_, rfl, hothers⟩, hpasses⟩

/-- Nothing is out of place in a value that is rendered with the type of another one exactly when it can stand
in an entry for that. -/
theorem fitIff_infer (evaluator : Evaluator) (first : JobValue) :
    (infer first).FitIff evaluator (Passes · first) := by
  induction first using JobValue.induction with
  | null | bool | number | string | file =>
      exact (fitIff_of_leaf (by rw [isComposite_infer]; rfl)).congr fun value _ ↦ accepts_iff_passes rfl
  | list items ih =>
      cases items with
      | nil =>
          -- every value has the type of the items of an empty list
          have hany : (InputType.primitive .any).FitIff evaluator fun _ ↦ True :=
            FitIff.congr (fitIff_of_leaf rfl) fun value _ ↦ iff_true_intro rfl
          refine (hany.array none).congr fun value _ ↦ iff_of_true ⟨?_, fun _ _ _ ↦ trivial⟩ (.any value)
          exact admits_array_iff.2 (.inr rfl)
      | cons item rest =>
          exact ((ih item List.mem_cons_self).array none).congr fun value hpresent ↦
            (passes_list_iff hpresent rest).symm
  | mapping entries ih => exact fitIff_infer_mapping ih

end InputType

namespace Argument

open JobValue (Resembles)

/-- The findings of an argument are those of rendering its value with the type that is inferred for it. -/
theorem findings_renderValue (argument : Argument) (evaluator : Evaluator) (job : JobValue) (scope : Scope)
    (value : JobValue) :
    ((argument.renderValue job scope value).run evaluator).findings =
      (((InputType.infer value).render argument.location { argument.binding with valueFrom := none }
        argument.location job (some value) scope).run evaluator).findings := by
  unfold renderValue
  rw [Rendering.run_map]
  rfl

/-- The type that is inferred for the value of an argument accepts the value, and nothing is out of place in
it at any depth, exactly when the value resembles itself.  For null the job must have no value at the place
of the argument. -/
theorem fits_inferred_iff {argument : Argument} {expression : Expression} {evaluator : Evaluator}
    {job value : JobValue} {scope : Scope} (hliteral : argument.literal = none)
    (hexpression : argument.binding.valueFrom = some expression)
    (hvalue : evaluator ⟨expression, scope⟩ = .ok value)
    (hnull : value = .null → ¬ job.HasValueAt argument.location) :
    ((InputType.infer value).accepts value = true ∧
      ¬ ((argument.render job scope).run evaluator).findings.Warns .typeMismatch ∧
      ¬ ((argument.render job scope).run evaluator).findings.Warns .undeclaredField) ↔
    Resembles value value := by
  show (_ ∧ ((argument.render job scope).run evaluator).findings.Fit) ↔ _
  rw [run_render_of_expression hliteral hexpression, hvalue]
  show (_ ∧ ((argument.renderValue job scope value).run evaluator).findings.Fit) ↔ _
  rw [findings_renderValue]
  cases value with
  | null =>
      have hnone : resolveValue argument.location job (some .null) = none :=
        resolveValue_null_eq_none_iff.2 (hnull rfl)
      exact iff_of_true ⟨rfl, InputType.fit_render_of_none evaluator hnone⟩ .null
  | bool | number | string | file | list | mapping =>
      rw [InputType.fitIff_infer evaluator _ (resolveValue_given rfl argument.location job)]
      exact InputType.resembles_iff.symm

/-- What the argument that names `n` becomes for a value of `n`. -/
def placed (value : JobValue) : Rendered :=
  (counted.render .null (.top (.mapping [("n", value)]) {})).run answerN

/-- A sample with all entries. -/
def sample : Entries JobValue :=
  [("name", .string "a"), ("reads", .list []), ("tags", .list [.string "x"])]

/-- Samples of which some lack entries, and weights. -/
def samples : Entries JobValue :=
  [("samples", .list [.mapping sample,
      .mapping [("tags", .string "y"), ("reads", .list [.number (.int 1), .null])],
      .mapping [("name", .null)]]),
    ("weights", .list [.number (.double ⟨0x3FF8000000000000⟩), .number (.int 2)])]

/-- Two mappings that have no key in common. -/
def uneven : JobValue :=
  .list [.mapping [("left", .number (.int 1))], .mapping [("right", .number (.int 2))]]

/-- A sample with all entries resembles itself. -/
theorem resembles_sample : Resembles (.mapping sample) (.mapping sample) := by
  refine .mapping (fun key hkey ↦ hkey) ?_
  unfold sample
  simp only [List.forall_mem_cons]
  refine ⟨?_, fun value _ _ ↦ .any value, ?_, nofun⟩
  · intro value hvalue _
    cases hvalue
    exact .whole (.string "a" "a")
  · intro value hvalue _
    cases hvalue
    exact .whole (.list [] (List.forall_mem_singleton.2 (.string "x" "x")))

/-- A single text can stand for a list of texts, and every list for an empty one. -/
theorem resembles_sample_of_tag : Resembles
    (.mapping [("tags", .string "y"), ("reads", .list [.number (.int 1), .null])])
    (.mapping sample) := by
  refine .mapping (by decide) ?_
  unfold sample
  simp only [List.forall_mem_cons]
  refine ⟨nofun, fun value _ _ ↦ .any value, ?_, nofun⟩
  intro value hvalue _
  cases hvalue
  exact .item [] (.string "y" "x")

/-- Null can stand for a text. -/
theorem resembles_sample_of_null : Resembles (.mapping [("name", .null)]) (.mapping sample) := by
  refine .mapping (by decide) ?_
  unfold sample
  simp only [List.forall_mem_cons]
  refine ⟨?_, nofun, nofun, nofun⟩
  intro value hvalue hpresent
  cases hvalue
  cases hpresent

/-- The type that is inferred for the samples accepts them, and nothing is out of place in them. -/
theorem fits_inferred_iff_samples :
    (InputType.infer (.mapping samples)).accepts (.mapping samples) = true ∧
      ¬ (placed (.mapping samples)).findings.Warns .typeMismatch ∧
      ¬ (placed (.mapping samples)).findings.Warns .undeclaredField := by
  refine Iff.mpr (fits_inferred_iff rfl rfl rfl nofun) (.mapping (fun key hkey ↦ hkey) ?_)
  unfold samples
  simp only [List.forall_mem_cons]
  refine ⟨?_, ?_, nofun⟩
  · intro value hvalue _
    cases hvalue
    refine .whole (.list _ ?_)
    simp only [List.forall_mem_cons]
    exact ⟨resembles_sample, resembles_sample_of_tag, resembles_sample_of_null, nofun⟩
  · intro value hvalue _
    cases hvalue
    refine .whole (.list _ ?_)
    simp only [List.forall_mem_cons]
    exact ⟨.double _ _, .double _ _, nofun⟩

/-- An inferred type need not fit: a list of a number and a text is not accepted, and a mismatch is found.  A
list of two mappings is accepted, but the key that only the second one has is undeclared, and its value is
left out. -/
theorem not_fits_inferred :
    (InputType.infer (.list [.number (.int 1), .string "a"])).accepts
        (.list [.number (.int 1), .string "a"]) = false ∧
      (placed (.list [.number (.int 1), .string "a"])).findings.Warns .typeMismatch ∧
      (InputType.infer uneven).accepts uneven = true ∧
      (placed uneven).findings.Warns .undeclaredField ∧ (placed uneven).text? = some "-n 1 " := by
  unfold Findings.Warns
  decide

end Argument

end Invocation
