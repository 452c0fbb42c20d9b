import Invocation.Proofs.Rendering.KeyOrder
import Mathlib.Data.List.Count

/-!
# Records follow their declaration

The fields of a record stand on the command line in the order of their declaration, whatever the order of the
entries of the value.  Every entry is a declared field, which is rendered once, or leaves one warning.
-/

namespace Invocation

/-- The declared fields that a mapping has entries for, in the order of their declaration. -/
def InputType.presentFields (fields : List Input) (entries : Entries JobValue) : List Input :=
  fields.filter fun field ↦ entries.hasKey field.id

/-- How a field of a record is rendered from the entries of a mapping. -/
def Input.dispatch (field : Input) (entries : Entries JobValue) (scope : Scope) : Rendering :=
  let own := entries.lookup field.id
  field.render (.mapping entries) own (scope.within (.mapping entries) (own.getD .null))

/-- The warning for a key that is no field of a record. -/
def undeclaredField (id location key : String) : Finding :=
  ⟨location, "field '" ++ key ++ "' is not declared by " ++ id, .undeclaredField⟩

/-- The warning names the key. -/
theorem undeclaredField_injective (id location : String) :
    Function.Injective (undeclaredField id location) := by
  intro first second h
  unfold undeclaredField at h
  simpa using h

/-- A field is the only one with its id. -/
theorem Input.filter_id_eq {fields : List Input} (h : (fields.map Parameter.id).Nodup) {field : Input}
    (hmem : field ∈ fields) : (fields.filter fun other ↦ other.id == field.id) = [field] := by
  induction fields with
  | nil => cases hmem
  | cons first rest ih =>
      obtain ⟨hnew, hrest⟩ := List.nodup_cons.1 h
      rcases List.mem_cons.1 hmem with rfl | hmem
      · have hothers : (rest.filter fun other ↦ other.id == field.id) = [] := by
          refine List.filter_eq_nil_iff.2 fun other hother hid ↦ hnew ?_
          exact (beq_iff_eq.1 hid) ▸ List.mem_map_of_mem hother
        simp only [List.filter_cons, beq_self_eq_true, if_true, hothers]
      · have hne : (first.id == field.id) = false :=
          beq_false_of_ne fun hid ↦ hnew (hid ▸ List.mem_map_of_mem hmem)
        simp only [List.filter_cons, hne, Bool.false_eq_true, if_false, ih hrest hmem]

namespace InputType

variable {fields : List Input} {entries : Entries JobValue} {key : String}

/-- The fields that are rendered are those that the mapping has entries for. -/
theorem renderFields_eq_map_dispatch (fields : List Input) (entries : Entries JobValue) (scope : Scope) :
    renderFields fields entries scope =
      (presentFields fields entries).map fun field ↦ field.dispatch entries scope := by
  unfold presentFields
  induction fields with
  | nil => rfl
  | cons field rest ih =>
      obtain ⟨id, type, binding, location⟩ := field
      unfold renderFields
      cases hlookup : entries.lookup id with
      | none =>
          have habsent : entries.hasKey id = false := by rw [Entries.hasKey, hlookup, Option.isSome_none]
          simp only [List.filter_cons, habsent, Bool.false_eq_true, if_false, ih]
      | some value =>
          have hpresent : entries.hasKey id = true := by rw [Entries.hasKey, hlookup, Option.isSome_some]
          simp only [List.filter_cons, hpresent, if_true, List.map_cons, ih, Input.dispatch, hlookup]
          rfl

/-- A mapping is rendered as a record from one part for each field that it has an entry for, in the order of
declaration. -/
theorem render_record_mapping {id location : String} {binding : Binding} {job : JobValue}
    {given : Option JobValue} {scope : Scope}
    (hvalue : resolveValue id job given = some (.mapping entries)) :
    (record fields).render id binding location job given scope =
      .join ((presentFields fields entries).map fun field ↦ field.dispatch entries scope) fun results ↦
        (Rendered.composite binding location " " results).after
          (undeclared fields id location entries) := by
  unfold render
  rw [hvalue]
  dsimp only [JobValue.entries]
  rw [renderFields_eq_map_dispatch]
  rfl

/-- A declared field that the mapping has an entry for is rendered once. -/
theorem presentFields_of_declared (hfields : (fields.map Parameter.id).Nodup) (hkey : key ∈ entries.keys)
    {field : Input} (hmem : field ∈ fields) (hid : field.id = key) :
    ((presentFields fields entries).filter fun other ↦ other.id == key) = [field] := by
  subst hid
  unfold presentFields
  rw [List.filter_filter, ← Input.filter_id_eq hfields hmem]
  refine List.filter_congr fun other _ ↦ ?_
  by_cases hother : other.id = field.id
  · rw [hother, Entries.hasKey_iff.2 hkey, Bool.and_true]
  · simp [hother]

/-- No field is rendered for a key that is not declared. -/
theorem presentFields_of_undeclared (hkey : key ∉ fields.map Parameter.id) :
    ((presentFields fields entries).filter fun other ↦ other.id == key) = [] := by
  refine List.filter_eq_nil_iff.2 fun other hother hid ↦ hkey ?_
  exact (beq_iff_eq.1 hid) ▸ List.mem_map_of_mem (List.mem_of_mem_filter hother)

/-- A record warns once of each key that is not declared, and never of one that is. -/
theorem count_undeclared (hkeys : entries.keys.Nodup) (hkey : key ∈ entries.keys) (id location : String) :
    (undeclared fields id location entries).warnings.count (undeclaredField id location key) =
      if key ∈ fields.map Parameter.id then 0 else 1 := by
  have hwarnings : (undeclared fields id location entries).warnings =
      (entries.keys.filter fun key ↦ !fields.any fun field ↦ field.id == key).map
        (undeclaredField id location) := rfl
  have hdeclared : (fields.any fun field ↦ field.id == key) = true ↔ key ∈ fields.map Parameter.id := by
    simp
  rw [hwarnings, List.count_map_of_injective _ _ (undeclaredField_injective id location)]
  split
  · next hmem =>
    refine List.count_eq_zero.2 fun hundeclared ↦ ?_
    simpa [hdeclared.2 hmem] using (List.mem_filter.1 hundeclared).2
  · next hmem =>
    refine List.count_eq_one_of_mem (hkeys.filter _) (List.mem_filter.2 ⟨hkey, ?_⟩)
    rw [Bool.not_eq_true', Bool.eq_false_iff]
    exact fun hany ↦ hmem (hdeclared.1 hany)

/-- A record follows its declaration, not the order of the entries of its value.  Values with the same
entries in another order, also inside of fields that are records again, have the same fragment and the same
errors for every evaluator that ignores the order of keys, and their warnings differ in the order of those
about undeclared fields alone.  A mapping is rendered from one part for each field that it has an entry for,
in the order of declaration; each of its keys is declared and has one part, or is undeclared and has none
but one warning. -/
theorem record_follows_declaration (fields : List Input) (id : String) (binding : Binding)
    (location : String) :
    (∀ {evaluator : Evaluator} {scope around : Scope} {job another value other : JobValue}
        {given own : Option JobValue}, IgnoresOrder evaluator → Scope.Same scope around →
      resolveValue id job given = some value → resolveValue id another own = some other →
      (record fields).Reorders value other →
      Rendered.Rearranged (((record fields).render id binding location job given scope).run evaluator)
        (((record fields).render id binding location another own around).run evaluator)) ∧
    (∀ {entries others : Entries JobValue}, entries.keys.Nodup → entries.Perm others →
      (record fields).Reorders (.mapping entries) (.mapping others)) ∧
    (∀ {entries : Entries JobValue} {job : JobValue} {given : Option JobValue} (scope : Scope),
      (fields.map Parameter.id).Nodup → entries.keys.Nodup →
      resolveValue id job given = some (.mapping entries) →
      (record fields).render id binding location job given scope =
        .join ((presentFields fields entries).map fun field ↦ field.dispatch entries scope) (fun results ↦
          (Rendered.composite binding location " " results).after
            (undeclared fields id location entries)) ∧
      (presentFields fields entries).Sublist fields ∧
      ∀ key ∈ entries.keys,
        (∃ field ∈ fields, field.id = key ∧
          ((presentFields fields entries).filter fun other ↦ other.id == key) = [field] ∧
          (undeclared fields id location entries).warnings.count (undeclaredField id location key) = 0) ∨
        (key ∉ fields.map Parameter.id ∧
          ((presentFields fields entries).filter fun other ↦ other.id == key) = [] ∧
          (undeclared fields id location entries).warnings.count (undeclaredField id location key) = 1)) := by
  refine ⟨fun hevaluator hscope hvalue hother hvalues ↦ ?_,
    fun hkeys hperm ↦ reorders_of_perm hkeys hperm fields,
    fun scope hfields hkeys hvalue ↦ ⟨render_record_mapping hvalue, List.filter_sublist, fun key hkey ↦ ?_⟩⟩
  · refine rearranged_of_reorders hevaluator (record fields) hscope ?_
    rw [hvalue, hother]
    exact .some hvalues
  · by_cases hdeclared : key ∈ fields.map Parameter.id
    · obtain ⟨field, hmem, hid⟩ := List.mem_map.1 hdeclared
      refine .inl ⟨field, hmem, hid, presentFields_of_declared hfields hkey hmem hid, ?_⟩
      rw [count_undeclared hkeys hkey, if_pos hdeclared]
    · refine .inr ⟨hdeclared, presentFields_of_undeclared hdeclared, ?_⟩
      rw [count_undeclared hkeys hkey, if_neg hdeclared]

end InputType

/-- Entries for the record of a drum, two of which it does not declare. -/
def drumGear : Entries JobValue :=
  [("strap", .null), ("beats", .list [.bool true]), ("case", .string "x"), ("loud", .bool true)]

/-- The entries from the last to the first give the same text, behind two warnings in the other order; the
flag is rendered once, before the list, and the strap is warned of once. -/
theorem record_follows_declaration_drumGear :
    Rendered.Rearranged
      (((InputType.record drumFields).render "drum" .plain "drum" .null (some (.mapping drumGear))
        (.top .null {})).run answerBoom)
      (((InputType.record drumFields).render "drum" .plain "drum" .null (some (.mapping drumGear.reverse))
        (.top .null {})).run answerBoom) ∧
    (((InputType.record drumFields).render "drum" .plain "drum" .null (some (.mapping drumGear))
      (.top .null {})).run answerBoom).findings.warnings =
        ["strap", "case"].map (undeclaredField "drum" "drum") ∧
    (((InputType.record drumFields).render "drum" .plain "drum" .null (some (.mapping drumGear.reverse))
      (.top .null {})).run answerBoom).findings.warnings =
        ["case", "strap"].map (undeclaredField "drum" "drum") ∧
    (InputType.presentFields drumFields drumGear).Sublist drumFields ∧
    (∃ field ∈ drumFields, field.id = "loud" ∧
      ((InputType.presentFields drumFields drumGear).filter fun other ↦ other.id == "loud") = [field]) ∧
    (undeclared drumFields "drum" "drum" drumGear).warnings.count
      (undeclaredField "drum" "drum" "strap") = 1 := by
  obtain ⟨hreordered, hperm, hkeys⟩ :=
    InputType.record_follows_declaration drumFields "drum" .plain "drum"
  have hnodup : drumGear.keys.Nodup := by decide
  have hids : (drumFields.map Parameter.id).Nodup := by decide
  have hvalue : resolveValue "drum" .null (some (.mapping drumGear)) = some (.mapping drumGear) := rfl
  obtain ⟨-, hsublist, hfates⟩ := hkeys (.top .null {}) hids hnodup hvalue
  refine ⟨hreordered (fun _ _ _ _ ↦ rfl) ⟨.refl _, .refl _, .none, rfl⟩ rfl rfl
    (hperm hnodup (List.reverse_perm drumGear).symm), by decide, by decide, hsublist, ?_, ?_⟩
  · obtain ⟨field, hmem, hid, hfilter, -⟩ | ⟨hundeclared, -⟩ := hfates "loud" (by decide)
    · exact ⟨field, hmem, hid, hfilter⟩
    · exact absurd (by decide) hundeclared
  · obtain ⟨field, hmem, hid, -⟩ | ⟨-, -, hcount⟩ := hfates "strap" (by decide)
    · have hdeclared : "strap" ∈ drumFields.map Parameter.id := hid ▸ List.mem_map_of_mem hmem
      exact absurd hdeclared (by decide)
    · exact hcount

end Invocation
