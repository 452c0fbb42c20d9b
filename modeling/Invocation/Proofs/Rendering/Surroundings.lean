import Invocation.Proofs.Rendering.Flags
import Invocation.Proofs.Rendering.OwnValues

/-!
# What is around a flag

The expression of a flag sees the nearest list or record around the flag as the job.  `HoldsFlag` finds the
flags inside of a value together with the lists and records around them, without a word of scopes, and
`InputType.mem_calls_iff` says that an input asks for the expressions of those that are on, each in the scope
that its surroundings give (`Scope.inside`).
-/

namespace Invocation

/-- A value that is rendered as a list, or a mapping that is rendered as a record. -/
inductive Enclosure where
  | list (value : JobValue)
  | record (entries : Entries JobValue)

/-- What expressions inside see as the job: the elements of the list, file references replaced by their
identities, or the record as it is. -/
def Enclosure.job : Enclosure → JobValue
  | .list value => .list (value.elements.map JobValue.unwrapFile)
  | .record entries => .mapping entries

/-- The scope of a flag with its own value inside of lists and records, the innermost of which comes last. -/
def Scope.inside (scope : Scope) (around : List Enclosure) (own : JobValue) : Scope where
  inputs := scope.inputs
  job := (around.getLast?.map Enclosure.job).getD scope.job
  self := some own
  runtime := scope.runtime

/-- A list or a record further inside hides those around it, and the value at hand is replaced. -/
theorem Scope.inside_cons (scope : Scope) (enclosure : Enclosure) (around : List Enclosure)
    (part own : JobValue) :
    (scope.within enclosure.job part).inside around own = scope.inside (enclosure :: around) own := by
  unfold inside within
  rw [List.getLast?_cons]
  cases around.getLast? <;> rfl

/-- `HoldsFlag type binding value around own flag` says that `value`, rendered by a parameter with this type
and binding, has a flag with the binding `own` and the value `flag` inside of the lists and records `around`,
the outermost of which comes first. -/
inductive HoldsFlag :
    InputType → Binding → JobValue → List Enclosure → Binding → JobValue → Prop where
  | here (itemsContext : Option Binding) (binding : Binding) (value : JobValue) :
      HoldsFlag (.boolean itemsContext) binding value [] binding value
  | element {items : InputType} {itemBinding : Option Binding} {value element flag : JobValue}
      {around : List Enclosure} {own : Binding} (binding : Binding) :
      element ∈ value.elements → element.isNull = false →
      HoldsFlag items (itemBinding.getD .plain) element around own flag →
      HoldsFlag (.array items itemBinding) binding value (.list value :: around) own flag
  | field {fields : List Input} {entries : Entries JobValue} {field : Input} {value flag : JobValue}
      {around : List Enclosure} {own : Binding} (binding : Binding) :
      field ∈ fields → entries.lookup field.id = some value → value.isNull = false →
      HoldsFlag field.type field.binding value around own flag →
      HoldsFlag (.record fields) binding (.mapping entries) (.record entries :: around) own flag

/-! ## Own values -/

/-- An element is rendered from its own value, and not at all when that is null. -/
theorem resolveValue_element {value : JobValue} {index : Nat} (hindex : index < value.elements.length) :
    resolveValue (toString index) (Enclosure.list value).job (some value.elements[index]) =
      value.elements[index].present? := by
  have hmem : ⟨⟨toString index, .primitive .any, .plain, elementLocation "" index⟩,
      (Enclosure.list value).job, some value.elements[index]⟩ ∈
        (InputType.array (.primitive .any) none).components "" value :=
    List.mem_mapIdx.2 ⟨index, hindex, rfl⟩
  exact Component.resolveValue_eq hmem rfl

/-- A field is rendered from its own value, and not at all when that is null. -/
theorem resolveValue_field {entries : Entries JobValue} {id : String} {value : JobValue}
    (h : entries.lookup id = some value) :
    resolveValue id (Enclosure.record entries).job (some value) = value.present? := by
  refine resolveValue_own fun hvalue found hfound ↦ ?_
  cases h.symm.trans hfound
  exact hvalue

/-- A value that is there is not null. -/
theorem JobValue.present?_eq_some_iff {value found : JobValue} :
    value.present? = some found ↔ found = value ∧ value.isNull = false := by
  unfold present?
  cases value.isNull <;> simp [eq_comm]

/-- Only a mapping has entries. -/
theorem JobValue.eq_mapping_of_lookup {value found : JobValue} {key : String}
    (h : value.entries.lookup key = some found) : value = .mapping value.entries := by
  cases value with
  | mapping => rfl
  | null | bool | number | string | file | list => cases h

/-! ## Flags of an input -/

namespace InputType

variable {type : InputType} {id : String} {binding own : Binding} {job value flagValue : JobValue}
  {given : Option JobValue} {scope : Scope} {flag : Flag}

/-- There are no flags without a value. -/
theorem exists_value_of_mem_flags (hmem : flag ∈ type.flags id binding job given scope) :
    ∃ value, resolveValue id job given = some value := by
  cases hvalue : resolveValue id job given with
  | none => cases type <;> simp [flags, hvalue] at hmem
  | some value => exact ⟨value, rfl⟩

/-- The flags of a list are those of its elements. -/
theorem mem_flags_array_iff {items : InputType} {itemBinding : Option Binding}
    (hvalue : resolveValue id job given = some value) :
    flag ∈ (array items itemBinding).flags id binding job given scope ↔
      ∃ index, ∃ hindex : index < value.elements.length,
        flag ∈ items.flags (toString index) (itemBinding.getD .plain) (Enclosure.list value).job
          (some value.elements[index])
          (scope.within (Enclosure.list value).job value.elements[index]) := by
  rw [flags, hvalue]
  simp only [List.mem_flatten, List.mem_mapIdx]
  constructor
  · rintro ⟨_, ⟨index, hindex, rfl⟩, hflag⟩
    exact ⟨index, hindex, hflag⟩
  · rintro ⟨index, hindex, hflag⟩
    exact ⟨_, ⟨index, hindex, rfl⟩, hflag⟩

/-- The flags of a record are those of its fields. -/
theorem mem_flags_record_iff {fields : List Input} (hvalue : resolveValue id job given = some value) :
    flag ∈ (record fields).flags id binding job given scope ↔
      ∃ field ∈ fields, ∃ own, value.entries.lookup field.id = some own ∧
        flag ∈ field.type.flags field.id field.binding (Enclosure.record value.entries).job (some own)
          (scope.within (Enclosure.record value.entries).job own) := by
  rw [flags, hvalue]
  exact mem_fieldFlags_iff

/-- Every flag of an input is one that its value holds, and its surroundings give its scope. -/
theorem exists_holdsFlag_of_mem (hvalue : resolveValue id job given = some value)
    (hmem : flag ∈ type.flags id binding job given scope) :
    ∃ around, HoldsFlag type binding value around flag.binding flag.value ∧
      flag.scope.withSelf flag.value = scope.inside around flag.value := by
  induction type using InputType.induction generalizing id binding job given scope value with
  | primitive | enum | unresolved =>
      unfold flags at hmem
      cases hmem
  | boolean itemsContext =>
      unfold flags at hmem
      rw [hvalue] at hmem
      rw [List.mem_singleton.1 hmem]
      exact ⟨[], .here itemsContext binding value, rfl⟩
  | array items itemBinding ih =>
      obtain ⟨index, hindex, hflag⟩ := (mem_flags_array_iff hvalue).1 hmem
      obtain ⟨element, helement⟩ := exists_value_of_mem_flags hflag
      obtain ⟨around, hholds, hscope⟩ := ih helement hflag
      rw [resolveValue_element hindex, JobValue.present?_eq_some_iff] at helement
      obtain ⟨rfl, hnull⟩ := helement
      exact ⟨_, .element binding (List.getElem_mem hindex) hnull hholds,
        hscope.trans (scope.inside_cons _ _ _ _)⟩
  | record fields ih =>
      obtain ⟨field, hfield, own, hown, hflag⟩ := (mem_flags_record_iff hvalue).1 hmem
      obtain ⟨found, hfound⟩ := exists_value_of_mem_flags hflag
      obtain ⟨around, hholds, hscope⟩ := ih field hfield hfound hflag
      rw [resolveValue_field hown, JobValue.present?_eq_some_iff] at hfound
      obtain ⟨rfl, hnull⟩ := hfound
      rw [JobValue.eq_mapping_of_lookup hown]
      exact ⟨_, .field binding hfield hown hnull hholds, hscope.trans (scope.inside_cons _ _ _ _)⟩

/-- Every flag that the value of an input holds is one of its flags, and its surroundings give its scope. -/
theorem exists_mem_of_holdsFlag {around : List Enclosure}
    (h : HoldsFlag type binding value around own flagValue)
    (hvalue : resolveValue id job given = some value) (scope : Scope) :
    ∃ flag ∈ type.flags id binding job given scope, flag.binding = own ∧ flag.value = flagValue ∧
      flag.scope.withSelf flagValue = scope.inside around flagValue := by
  induction h generalizing id job given scope with
  | here itemsContext binding value =>
      refine ⟨⟨binding, value, scope⟩, ?_, rfl, rfl, rfl⟩
      rw [flags, hvalue]
      exact List.mem_singleton_self _
  | element binding helement hnull hholds ih =>
      obtain ⟨index, hindex, rfl⟩ := List.mem_iff_getElem.1 helement
      have hown := (resolveValue_element hindex).trans (JobValue.present?_eq_some hnull)
      obtain ⟨flag, hflag, hbinding, hflagValue, hscope⟩ := ih hown _
      exact ⟨flag, (mem_flags_array_iff hvalue).2 ⟨index, hindex, hflag⟩, hbinding, hflagValue,
        hscope.trans (scope.inside_cons _ _ _ _)⟩
  | field binding hfield hlookup hnull hholds ih =>
      have hown := (resolveValue_field hlookup).trans (JobValue.present?_eq_some hnull)
      obtain ⟨flag, hflag, hbinding, hflagValue, hscope⟩ := ih hown _
      exact ⟨flag, (mem_flags_record_iff hvalue).2 ⟨_, hfield, _, hlookup, hflag⟩, hbinding, hflagValue,
        hscope.trans (scope.inside_cons _ _ _ _)⟩

/-- An input asks for the expressions of the flags that its value holds and that are on, each in the scope
that its surroundings give. -/
theorem mem_calls_iff {call : Call} :
    call ∈ (type.flags id binding job given scope).filterMap Flag.call? ↔
      ∃ value around own flagValue, resolveValue id job given = some value ∧
        HoldsFlag type binding value around own flagValue ∧ flagValue.isTruthy = true ∧
        own.valueFrom = some call.expression ∧ call.scope = scope.inside around flagValue := by
  rw [List.mem_filterMap]
  constructor
  · rintro ⟨flag, hmem, hcall⟩
    obtain ⟨value, hvalue⟩ := exists_value_of_mem_flags hmem
    obtain ⟨around, hholds, hscope⟩ := exists_holdsFlag_of_mem hvalue hmem
    unfold Flag.call? at hcall
    split at hcall
    · next htruthy =>
      obtain ⟨expression, hexpression, rfl⟩ := Option.map_eq_some_iff.1 hcall
      exact ⟨value, around, _, _, hvalue, hholds, htruthy, hexpression, hscope⟩
    · cases hcall
  · rintro ⟨value, around, own, flagValue, hvalue, hholds, htruthy, hexpression, hscope⟩
    obtain ⟨flag, hmem, rfl, rfl, hflag⟩ := exists_mem_of_holdsFlag hholds hvalue scope
    refine ⟨flag, hmem, ?_⟩
    rw [Flag.call?, if_pos htruthy, hexpression, Option.map_some, hflag, ← hscope]

end InputType

end Invocation
