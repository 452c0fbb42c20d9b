import Invocation.Json.Schema
import Invocation.Proofs.Json.Members

/-!
# Accepted values

A value keeps a schema when it breaks none of its rules.  What that means for each kind of rule.
-/

namespace Invocation.Schema

/-- The faults of a value for several schemas are those for each of them. -/
theorem allFaults_eq_map (schemas : List Schema) (value : Json) :
    allFaults schemas value = schemas.map fun schema ↦ faults schema value := by
  induction schemas with
  | nil => rfl
  | cons schema rest ih => rw [allFaults, ih, List.map_cons]

/-- A value has one of the types of a rule. -/
theorem accepts_type_iff {types : List JsonType} {value : Json} :
    accepts (.type types) value = true ↔ ∃ type ∈ types, type.accepts value = true := by
  unfold accepts
  rw [faults, ← List.any_eq_true]
  split <;> simp_all

/-- A value keeps all the schemas of a rule. -/
theorem accepts_all_iff {schemas : List Schema} {value : Json} :
    accepts (.all schemas) value = true ↔ ∀ schema ∈ schemas, schema.accepts value = true := by
  unfold accepts
  rw [faults, allFaults_eq_map]
  simp

/-- A value keeps exactly one of the schemas of a rule. -/
theorem accepts_oneOf_iff {schemas : List Schema} {value : Json} :
    accepts (.oneOf schemas) value = true ↔
      (schemas.countP fun schema ↦ schema.accepts value) = 1 := by
  show ((Schema.oneOf schemas).faults value).isEmpty = true ↔ _
  have hcount : (allFaults schemas value).countP List.isEmpty =
      schemas.countP fun schema ↦ schema.accepts value := by
    rw [allFaults_eq_map, List.countP_map]
    rfl
  rw [faults, hcount]
  generalize (schemas.countP fun schema ↦ schema.accepts value) = count
  obtain _ | _ | count := count <;> simp

/-- A value keeps one of the schemas of a rule. -/
theorem exists_accepts_of_oneOf {schemas : List Schema} {value : Json}
    (h : accepts (.oneOf schemas) value = true) : ∃ schema ∈ schemas, schema.accepts value = true := by
  have hcount := accepts_oneOf_iff.1 h
  exact List.countP_pos_iff.1 (by omega)

/-- The items of an array keep the schema of a rule. -/
theorem accepts_items_iff {schema : Schema} {items : List Json} :
    accepts (.items schema) (.array items) = true ↔ ∀ item ∈ items, schema.accepts item = true := by
  unfold accepts
  rw [faults]
  simp

/-- The members of an object keep the schemas of a rule. -/
theorem accepts_properties_iff {schemas : List (String × Schema)} {members : Entries Json} :
    accepts (.properties schemas) (.object members) = true ↔
      ∀ entry ∈ schemas, ∀ value, members.lookup entry.1 = some value →
        entry.2.accepts value = true := by
  unfold accepts
  rw [faults, show (Json.object members).members?.getD [] = members from rfl]
  induction schemas with
  | nil => simp [memberFaults]
  | cons entry rest ih =>
      rw [List.forall_mem_cons, ← ih, memberFaults]
      cases members.lookup entry.1 <;> simp

/-- The member of an object keeps the schema that a rule has for its name. -/
theorem accepts_of_properties {schemas : List (String × Schema)} {members : Entries Json}
    (h : accepts (.properties schemas) (.object members) = true) {name : String} {schema : Schema}
    {value : Json} (hschema : schemas.lookup name = some schema)
    (hvalue : members.lookup name = some value) : schema.accepts value = true :=
  accepts_properties_iff.1 h _ (Entries.mem_of_lookup_eq_some hschema) value hvalue

/-- An object has the members that a rule requires. -/
theorem accepts_required_iff {names : List String} {members : Entries Json} :
    accepts (.required names) (.object members) = true ↔
      ∀ name ∈ names, ∃ value, members.lookup name = some value := by
  unfold accepts
  rw [faults, List.isEmpty_iff, List.map_eq_nil_iff, List.filter_eq_nil_iff]
  refine forall₂_congr fun name _ ↦ ?_
  rw [Bool.not_eq_true, Bool.not_eq_false', Entries.hasKey, Option.isSome_iff_exists]

/-- A value that has to be a certain text is this text. -/
theorem accepts_const_iff {text : String} {raw : Json} :
    accepts (.const text) raw = true ↔ raw = .string text := by
  unfold accepts
  rw [faults]
  cases raw <;> simp [Json.isString]

/-- A value that is accepted as an object is one, and its members keep their schemas. -/
theorem exists_members_of_accepts {schemas : List (String × Schema)} {rest : List Schema} {raw : Json}
    (h : accepts (.all (.type [.object] :: .properties schemas :: rest)) raw = true) :
    ∃ members, raw = .object members ∧ ∀ {name schema value}, schemas.lookup name = some schema →
      members.lookup name = some value → schema.accepts value = true := by
  have hall := accepts_all_iff.1 h
  cases raw with
  | object members =>
      exact ⟨members, rfl, fun hschema hvalue ↦
        accepts_of_properties (hall _ (.tail _ (.head _))) hschema hvalue⟩
  | null | bool | number | string | array => cases hall _ (.head _)

/-- A value that is accepted as an array is one, and its items keep their schema. -/
theorem exists_items_of_accepts {schema : Schema} {raw : Json}
    (h : accepts (.all [.type [.array], .items schema]) raw = true) :
    ∃ items, raw = .array items ∧ ∀ item ∈ items, schema.accepts item = true := by
  have hall := accepts_all_iff.1 h
  cases raw with
  | array items => exact ⟨items, rfl, accepts_items_iff.1 (hall _ (.tail _ (.head _)))⟩
  | null | bool | number | string | object => cases hall _ (.head _)

/-- A value that is accepted as a string is one. -/
theorem exists_string_of_accepts {raw : Json} (h : accepts (.type [.string]) raw = true) :
    ∃ text, raw = .string text := by
  cases raw with
  | string text => exact ⟨text, rfl⟩
  | null | bool | number | array | object => cases h

end Invocation.Schema
