import Invocation.Proofs.Rendering.OwnValues

/-!
# Mismatches at every level

A value that does not fit the type of a list is let through when it fits the type of the items, and the
elements are looked at in the same way again.  Where no records are inside of a type this never leads to a
second opinion: a mismatch is found somewhere in a value exactly when the value as a whole does not fit
(`Input.warns_typeMismatch_iff`).
-/

namespace Invocation

variable {issue : Issue}

/-! ## Warnings of results -/

/-- No findings warn of nothing. -/
theorem Findings.not_warns_none : ¬ Warns issue .none := by
  rintro ⟨warning, hmem, -⟩
  cases hmem

namespace Rendered

/-- A result without warnings has those that are put in front of it. -/
theorem warns_after_iff {result : Rendered} (h : ¬ result.findings.Warns issue) (earlier : Findings) :
    (result.after earlier).findings.Warns issue ↔ earlier.Warns issue := by
  show (earlier ++ result.findings).Warns issue ↔ _
  rw [Findings.warns_append_iff, or_iff_left h]

/-- A type without a meaning is the only thing that is warned of where it stands. -/
theorem not_warns_unresolved (h : issue ≠ .unresolvedType) (id location tag : String) :
    ¬ (unresolved id location tag).findings.Warns issue := by
  rintro ⟨warning, hmem, rfl⟩
  rw [List.mem_singleton.1 hmem] at h
  exact h rfl

end Rendered

/-- Nothing is warned of while a flag is rendered: only its evaluation is found, when that fails. -/
theorem Rendering.not_warns_flag (evaluator : Evaluator) (itemsContext : Option Binding)
    (binding : Binding) (location : String) (value : JobValue) (scope : Scope) :
    ¬ ((flag itemsContext binding location value scope).run evaluator).findings.Warns issue := by
  have hflag : Every (fun findings ↦ ¬ findings.Warns issue)
      (flag itemsContext binding location value scope) :=
    every_flag Findings.not_warns_none (fun _ ↦ Findings.not_warns_none) itemsContext binding value scope
  exact hflag.run evaluator

/-- The warnings of a component are those of rendering its own value. -/
theorem Component.exists_given_of_warns {evaluator : Evaluator} {scope : Scope} {component : Component}
    (h : (component.findings evaluator scope).Warns issue) :
    ∃ own, component.given = some own ∧
      ((Input.render component.input component.whole (some own)
        (scope.within component.whole own)).run evaluator).findings.Warns issue := by
  unfold findings result? rendering? at h
  cases hgiven : component.given with
  | none =>
      rw [hgiven] at h
      exact absurd h Findings.not_warns_none
  | some own =>
      rw [hgiven] at h
      exact ⟨own, rfl, h⟩

namespace InputType

variable {id location : String} {binding : Binding} {job value : JobValue} {given : Option JobValue}
  {scope : Scope} {type : InputType}

/-! ## Warnings of an input -/

/-- An input without a value has no warnings, unless its type has no meaning. -/
theorem not_warns_render_of_none (hissue : issue ≠ .unresolvedType) (evaluator : Evaluator)
    (hvalue : resolveValue id job given = none) :
    ¬ ((type.render id binding location job given scope).run evaluator).findings.Warns issue := by
  cases type with
  | unresolved tag =>
      unfold render
      exact Rendered.not_warns_unresolved hissue id location tag
  | primitive | enum | boolean | array | record =>
      rw [render_of_none (fun tag h ↦ by cases h) hvalue]
      exact Findings.not_warns_none

/-- An input has the warnings about its value and those of its components, types without a meaning left
aside. -/
theorem warns_render_iff (hissue : issue ≠ .unresolvedType) (evaluator : Evaluator)
    (hvalue : resolveValue id job given = some value) :
    ((type.render id binding location job given scope).run evaluator).findings.Warns issue ↔
      (type.remarks id location value).Warns issue ∨
        ∃ component ∈ type.components location value,
          (component.findings evaluator scope).Warns issue := by
  -- only lists and records have components
  have hnone : ¬ ∃ component ∈ ([] : List Component),
      (component.findings evaluator scope).Warns issue := by
    rintro ⟨component, hmem, -⟩
    cases hmem
  cases type with
  | array | record =>
      rw [run_render_of_components evaluator hvalue rfl, Findings.warns_append_iff,
        Findings.warns_concat_iff]
      simp only [List.mem_map, exists_exists_and_eq_and]
  | unresolved tag =>
      exact iff_of_false (Rendered.not_warns_unresolved hissue id location tag)
        (not_or.2 ⟨Findings.not_warns_none, hnone⟩)
  | primitive | enum =>
      refine Iff.trans ?_ (or_iff_left hnone).symm
      unfold render
      rw [hvalue]
      exact Rendered.warns_after_iff Findings.not_warns_none _
  | boolean itemsContext =>
      refine Iff.trans ?_ (or_iff_left hnone).symm
      unfold render
      rw [hvalue]
      dsimp only
      rw [Rendering.run_map]
      exact Rendered.warns_after_iff (Rendering.not_warns_flag evaluator _ _ _ _ _) _

/-! ## What a type admits -/

/-- A type does not admit what neither it nor the type of its items accepts. -/
theorem admits_eq_false_iff : type.admits value = false ↔
    type.accepts value = false ∧ ∀ items, type.items? = some items → items.accepts value = false := by
  unfold admits
  cases type.items? with
  | none => simp
  | some items => simp

/-- The type of a list admits what it or the type of the items accepts. -/
theorem admits_array_iff {items : InputType} {itemBinding : Option Binding} :
    (array items itemBinding).admits value = true ↔
      (array items itemBinding).accepts value = true ∨ items.accepts value = true := by
  simp [admits, items?]

/-- A mismatch is found where the type does not admit the value. -/
theorem warns_mismatch_iff :
    (type.mismatch id location value).Warns .typeMismatch ↔ type.admits value = false := by
  unfold mismatch
  cases type.admits value with
  | true => exact iff_of_false Findings.not_warns_none nofun
  | false => exact iff_of_true ⟨_, List.mem_singleton_self _, rfl⟩ rfl

/-- The type of the items admits every element that is rendered for a value that the type of the list
admits. -/
theorem admits_of_mem_elements {items : InputType} {itemBinding : Option Binding} {element : JobValue}
    (h : (array items itemBinding).admits value = true) (hmem : element ∈ value.elements) :
    items.admits element = true := by
  have hcases := admits_array_iff.1 h
  cases value with
  | list values =>
      have hmem : element ∈ values := hmem
      rcases hcases with haccepts | hitems
      · have haccepts : ∀ value ∈ values, items.accepts value = true := by
          simpa [accepts] using haccepts
        simp [admits, haccepts element hmem]
      · -- the list stands for an item: its elements are one level deeper than the type of the items
        cases items with
        | primitive kind =>
            cases kind with
            | any => rfl
            | string | int | long | float | double | file | directory | null => cases hitems
        | boolean | enum | record => cases hitems
        | unresolved tag => rfl
        | array inner innerBinding =>
            have hinner : ∀ value ∈ values, inner.accepts value = true := by
              simpa [accepts] using hitems
            simp [admits, items?, hinner element hmem]
  | null | bool | number | string | file | mapping =>
      -- a value that is no list is its only element
      rw [List.mem_singleton.1 hmem]
      rcases hcases with haccepts | hitems
      · cases haccepts
      · simp [admits, hitems]

/-! ## Types without records -/

/-- There is a record inside of the type. -/
def hasRecord : InputType → Bool
  | .array items _ => items.hasRecord
  | .record _ => true
  | _ => false

/-- Without a record the value as a whole is checked against the type, and nothing else. -/
theorem remarks_of_hasRecord (h : type.hasRecord = false) :
    type.remarks id location value = type.mismatch id location value := by
  cases type with
  | record => cases h
  | primitive | enum | boolean | array | unresolved => rfl

/-- A value that the type admits has no mismatch when no component has one. -/
theorem not_warns_of_components (evaluator : Evaluator) (hrecord : type.hasRecord = false)
    (hadmits : ∀ value, resolveValue id job given = some value → type.admits value = true)
    (hcomponents : ∀ value, resolveValue id job given = some value →
      ∀ component ∈ type.components location value,
        ¬ (component.findings evaluator scope).Warns .typeMismatch) :
    ¬ ((type.render id binding location job given scope).run evaluator).findings.Warns
      .typeMismatch := by
  intro hwarns
  cases hvalue : resolveValue id job given with
  | none => exact not_warns_render_of_none (by decide) evaluator hvalue hwarns
  | some value =>
      rw [warns_render_iff (by decide) evaluator hvalue, remarks_of_hasRecord hrecord,
        warns_mismatch_iff, hadmits value hvalue] at hwarns
      rcases hwarns with hmismatch | ⟨component, hmem, hcomponent⟩
      · cases hmismatch
      · exact hcomponents value hvalue component hmem hcomponent

/-- A value that a type without records admits has no mismatch, neither as a whole nor at an element. -/
theorem not_warns_typeMismatch (evaluator : Evaluator) (type : InputType)
    (hrecord : type.hasRecord = false) {id : String} {binding : Binding} {location : String}
    {job : JobValue} {given : Option JobValue} {scope : Scope}
    (hadmits : ∀ value, resolveValue id job given = some value → type.admits value = true) :
    ¬ ((type.render id binding location job given scope).run evaluator).findings.Warns
      .typeMismatch := by
  refine not_warns_of_components evaluator hrecord hadmits fun value hvalue component hmem hwarns ↦ ?_
  match type with
  | .primitive _ | .boolean _ | .enum _ | .unresolved _ => cases hmem
  | .record _ => cases hrecord
  | .array items itemBinding =>
    obtain ⟨own, hgiven, hwarns⟩ := Component.exists_given_of_warns hwarns
    have hown := Component.resolveValue_eq hmem hgiven
    obtain ⟨index, hindex, rfl⟩ := List.mem_mapIdx.1 hmem
    cases hgiven
    refine not_warns_typeMismatch evaluator items hrecord (fun found hfound ↦ ?_) hwarns
    -- an element that has a value is that value, and the type of the items admits it
    have hfound : value.elements[index].present? = some found := hown.symm.trans hfound
    rw [JobValue.eq_of_present?_eq_some hfound]
    exact admits_of_mem_elements (hadmits value hvalue) (List.getElem_mem hindex)

end InputType

/-- A value that is rendered by a type without records has a mismatch, as a whole or at an element at any
depth, exactly when neither the type nor the type of its items accepts the value as a whole. -/
theorem Input.warns_typeMismatch_iff {input : Input} {job value : JobValue} {given : Option JobValue}
    (hrecord : input.type.hasRecord = false) (hvalue : resolveValue input.id job given = some value)
    (evaluator : Evaluator) (scope : Scope) :
    ((Input.render input job given scope).run evaluator).findings.Warns .typeMismatch ↔
      input.type.accepts value = false ∧
        ∀ items, input.type.items? = some items → items.accepts value = false := by
  rw [← InputType.admits_eq_false_iff]
  constructor
  · intro hwarns
    by_contra hadmits
    refine InputType.not_warns_typeMismatch evaluator input.type hrecord (fun found hfound ↦ ?_) hwarns
    cases hvalue.symm.trans hfound
    exact Bool.of_not_eq_false hadmits
  · intro hadmits
    unfold Input.render
    rw [InputType.warns_render_iff (by decide) evaluator hvalue, InputType.remarks_of_hasRecord hrecord]
    exact .inl (InputType.warns_mismatch_iff.2 hadmits)

/-- An input for lists of lists of modes. -/
def modeTable : Input :=
  ⟨"modes", .array (.array (.enum ["fast", "slow"]) none) none, .plain, "document.inputs[0]"⟩

/-- A job that gives a flat list of modes. -/
def flatModes : JobValue :=
  .mapping [("modes", .list [.string "fast", .string "slow"])]

/-- A job whose second list of modes has a null in it. -/
def brokenModes : JobValue :=
  .mapping [("modes", .list [.list [.string "fast"], .list [.string "slow", .null]])]

/-- A flat list passes for a list of lists, and none of its elements has a mismatch; a null among the modes
is found for the table as a whole. -/
theorem Input.warns_typeMismatch_iff_modeTable :
    modeTable.type.hasRecord = false ∧
    (∀ evaluator scope, ¬ ((Input.render modeTable flatModes none scope).run
      evaluator).findings.Warns .typeMismatch) ∧
    ∀ evaluator scope, ((Input.render modeTable brokenModes none scope).run
      evaluator).findings.Warns .typeMismatch := by
  have hflat : resolveValue modeTable.id flatModes none =
      some (.list [.string "fast", .string "slow"]) := rfl
  have hbroken : resolveValue modeTable.id brokenModes none =
      some (.list [.list [.string "fast"], .list [.string "slow", .null]]) := rfl
  refine ⟨rfl, fun evaluator scope hwarns ↦ ?_, fun evaluator scope ↦ ?_⟩
  · have hitems := ((Input.warns_typeMismatch_iff rfl hflat evaluator scope).1 hwarns).2 _ rfl
    cases hitems
  · refine (Input.warns_typeMismatch_iff rfl hbroken evaluator scope).2 ⟨rfl, fun items hitems ↦ ?_⟩
    cases hitems
    rfl

end Invocation
