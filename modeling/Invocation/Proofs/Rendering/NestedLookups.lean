import Invocation.Proofs.Document.DeclaredTypes
import Invocation.Proofs.Rendering.InferredTypes
import Mathlib.Logic.Relation

/-!
# Look-ups inside of lists and records

An input without a value of its own is looked up in the job by its id.  Its elements and fields are rendered by
the same function, so that a null among them is looked up as well: an element by its index in the list of its
siblings, a field by its id in the record.  At any depth such a look-up comes back to the null that it started
from (`Component.resolves_own_of_calls`), whatever the jobs further outside have under the same keys.
-/

namespace Invocation

namespace Component

/-- What the component is rendered from: its own value, unless it is null or missing, else what is found under
its id. -/
def resolved? (component : Component) : Option JobValue :=
  resolveValue component.input.id component.whole component.given

/-- While the outer input, element or field is rendered, the inner element or field is rendered as a part of
its value. -/
inductive Calls (outer : Component) : Component → Prop where
  | element {items : InputType} {itemBinding : Option Binding} {value : JobValue}
      (htype : outer.input.type = .array items itemBinding) (hvalue : outer.resolved? = some value)
      (index : Nat) (hindex : index < value.elements.length) :
      Calls outer ⟨⟨toString index, items, itemBinding.getD .plain,
          elementLocation outer.input.location index⟩,
        .list (value.elements.map JobValue.unwrapFile), some value.elements[index]⟩
  | field {fields : List Input} {value own : JobValue} {field : Input}
      (htype : outer.input.type = .record fields) (hvalue : outer.resolved? = some value)
      (hfield : field ∈ fields) (hown : value.entries.lookup field.id = some own) :
      Calls outer ⟨field, .mapping value.entries, some own⟩

/-- The parts that are rendered are the components of the value that have a value of their own. -/
theorem calls_iff {outer inner : Component} :
    outer.Calls inner ↔ ∃ value own, outer.resolved? = some value ∧ inner.given = some own ∧
      inner ∈ outer.input.type.components outer.input.location value := by
  constructor
  · rintro (⟨htype, hvalue, index, hindex⟩ | ⟨htype, hvalue, hfield, hown⟩)
    · exact ⟨_, _, hvalue, rfl, htype ▸ List.mem_mapIdx.2 ⟨index, hindex, rfl⟩⟩
    · exact ⟨_, _, hvalue, rfl, htype ▸ List.mem_map.2 ⟨_, hfield, by rw [hown]⟩⟩
  · rintro ⟨value, own, hvalue, hown, hmem⟩
    cases htype : outer.input.type with
    | primitive | enum | boolean | unresolved =>
        rw [htype] at hmem
        cases hmem
    | array items itemBinding =>
        rw [htype] at hmem
        obtain ⟨index, hindex, rfl⟩ := List.mem_mapIdx.1 hmem
        exact .element htype hvalue index hindex
    | record fields =>
        rw [htype] at hmem
        obtain ⟨field, hfield, rfl⟩ := List.mem_map.1 hmem
        have hlookup : value.entries.lookup field.id = some own := hown
        rw [hlookup]
        exact .field htype hvalue hfield hlookup

/-- A part is rendered from its own value. -/
theorem Calls.resolved?_eq {outer inner : Component} (h : outer.Calls inner) :
    ∃ own, inner.given = some own ∧ inner.resolved? = own.present? := by
  obtain ⟨value, own, -, hown, hmem⟩ := calls_iff.1 h
  refine ⟨own, hown, ?_⟩
  rw [resolved?, hown]
  exact resolveValue_eq hmem hown

/-- There is no text between the others exactly when nothing is found to render and the type has a meaning. -/
theorem token?_eq_none_iff {component : Component} (h : component.given.isSome = true) (evaluator : Evaluator)
    (scope : Scope) : component.token? evaluator scope = none ↔
      component.resolved? = none ∧ ∀ tag, component.input.type ≠ .unresolved tag := by
  obtain ⟨⟨id, type, binding, location⟩, whole, given⟩ := component
  obtain ⟨own, rfl⟩ := Option.isSome_iff_exists.1 h
  have htext := isSome_token? evaluator scope ⟨⟨id, type, binding, location⟩, whole, some own⟩
  rw [← Option.not_isSome_iff_eq_none, htext]
  unfold Input.hasText resolved?
  cases type with
  | unresolved tag => simp
  | primitive | enum | boolean | array | record => simp

end Component

/-- A value is absent exactly when it is null. -/
theorem JobValue.present?_eq_none_iff {value : JobValue} : value.present? = none ↔ value.isNull = true := by
  unfold present?
  cases value.isNull <;> simp

/-- A record type keeps each field that is read under the id of the field. -/
theorem Document.map_id_recordType (declared : List Input) :
    ∃ fields, recordType declared = .record fields ∧
      fields.map Parameter.id = (Entries.ofList (declared.map fun field ↦ (field.id, field))).keys := by
  refine ⟨_, rfl, ?_⟩
  rw [List.map_map]
  refine List.map_congr_left fun entry hentry ↦ ?_
  obtain ⟨field, -, rfl⟩ := List.mem_map.1 ((Entries.subperm_ofList _).subset hentry)
  rfl

/-- The type of a mapping has a field for each key. -/
theorem InputType.map_id_infer (entries : Entries JobValue) :
    ∃ fields, infer (.mapping entries) = .record fields ∧ fields.map Parameter.id = entries.keys := by
  refine ⟨_, rfl, ?_⟩
  rw [inferFields_eq, List.map_map]
  rfl

/-- At any depth inside of an input, an element or a field is rendered from its own value and from nothing else:
its look-up finds no other element, no other field and nothing outside.  It has no text exactly when its value
is null and its type has a meaning.  The ids by which the fields of a record type are looked up are the keys
under which the type keeps them, when it is read from a document and when it is that of a mapping. -/
theorem Component.resolves_own_of_calls :
    (∀ {top component : Component}, Relation.TransGen Calls top component →
      ∃ own, component.given = some own ∧ component.resolved? = own.present? ∧
        ∀ evaluator scope, component.token? evaluator scope = none ↔
          own.isNull = true ∧ ∀ tag, component.input.type ≠ .unresolved tag) ∧
    (∀ declared : List Input, ∃ fields, Document.recordType declared = .record fields ∧
      fields.map Parameter.id = (Entries.ofList (declared.map fun field ↦ (field.id, field))).keys) ∧
    (∀ entries : Entries JobValue, ∃ fields, InputType.infer (.mapping entries) = .record fields ∧
      fields.map Parameter.id = entries.keys) := by
  refine ⟨fun {top component} h ↦ ?_, Document.map_id_recordType, InputType.map_id_infer⟩
  obtain ⟨outer, -, hcall⟩ := Relation.TransGen.tail'_iff.1 h
  obtain ⟨own, hown, hresolved⟩ := hcall.resolved?_eq
  refine ⟨own, hown, hresolved, fun evaluator scope ↦ ?_⟩
  rw [token?_eq_none_iff (hown ▸ rfl), hresolved, JobValue.present?_eq_none_iff]

/-- A list of records, one field of which has a type without a meaning. -/
def lotsInput : Input :=
  ⟨"lots", .array (.record [⟨"bid", .primitive .string, .plain, "lots.fields[0]"⟩,
    ⟨"hammer", .unresolved "Wood", .plain, "lots.fields[1]"⟩]) none, .plain, "lots"⟩

/-- A job that has values beside the list under the names of its fields and under an index. -/
def lotsJob : JobValue :=
  .mapping [("bid", .string "high"), ("hammer", .string "oak"), ("1", .string "one"),
    ("lots", .list [.mapping [("bid", .null), ("hammer", .null)], .null])]

/-- The list is looked up in the job, but neither the null in the list is, nor the null in the record: the first
has no text, although the job has a value under its index, and the second has none, although the job has one
under its name.  A null of an unknown type has an empty text. -/
theorem Component.resolves_own_of_calls_lots :
    (Component.mk lotsInput lotsJob none).resolved? = lotsJob.get? "lots" ∧
    ∃ element first second : Component,
      Relation.TransGen Calls ⟨lotsInput, lotsJob, none⟩ element ∧ element.given = some .null ∧
      Relation.TransGen Calls ⟨lotsInput, lotsJob, none⟩ first ∧ first.given = some .null ∧
      Relation.TransGen Calls ⟨lotsInput, lotsJob, none⟩ second ∧ second.given = some .null ∧
      element.resolved? = none ∧ first.resolved? = none ∧
      first.token? answerBoom (.top lotsJob {}) = none ∧
      second.token? answerBoom (.top lotsJob {}) = some "" := by
  have helement := @Calls.element ⟨lotsInput, lotsJob, none⟩ _ _ _ rfl rfl 1 (by decide)
  have hrecord := @Calls.element ⟨lotsInput, lotsJob, none⟩ _ _ _ rfl rfl 0 (by decide)
  have hfirst := (Relation.TransGen.single hrecord).tail (.field rfl rfl List.mem_cons_self rfl)
  have hsecond := (Relation.TransGen.single hrecord).tail
    (.field rfl rfl (List.mem_cons_of_mem _ List.mem_cons_self) rfl)
  obtain ⟨own, hown, hresolved, -⟩ := resolves_own_of_calls.1 (.single helement)
  obtain ⟨other, hother, hlookup, htoken⟩ := resolves_own_of_calls.1 hfirst
  cases hown
  cases hother
  exact ⟨rfl, _, _, _, .single helement, rfl, hfirst, rfl, hsecond, rfl, hresolved, hlookup,
    (htoken _ _).2 ⟨rfl, nofun⟩, rfl⟩

end Invocation
