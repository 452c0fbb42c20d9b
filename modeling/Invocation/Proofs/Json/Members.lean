import Invocation.Json.Basic
import Mathlib.Data.List.Nodup
import Mathlib.Data.List.Perm.Basic

/-!
# Members of objects

The order of the members of an object carries no meaning: `Json.Same` says that two values are equal up to
it, at any depth.  Where no key is repeated, a member is found by its key, and erasing a key leaves the
members with other keys.
-/

namespace Invocation

/-- Related values are both missing or both there. -/
theorem rel_iff {α β : Type} {R : α → β → Prop} {first : Option α} {second : Option β} :
    Option.Rel R first second ↔
      (first = none ∧ second = none) ∨ ∃ a b, first = some a ∧ second = some b ∧ R a b := by
  cases first <;> cases second <;> simp

/-- Lists are related when each item has been changed in two related ways. -/
theorem forall₂_map_map {α β γ : Type} {R : α → β → Prop} {f : γ → α} {g : γ → β} {items : List γ}
    (h : ∀ item ∈ items, R (f item) (g item)) : List.Forall₂ R (items.map f) (items.map g) := by
  rw [List.forall₂_map_left_iff, List.forall₂_map_right_iff]
  exact List.forall₂_same.2 h

namespace Entries

variable {α β : Type}

/-- What is found at a key is an entry. -/
theorem mem_of_lookup_eq_some {entries : Entries α} {key : String} {value : α}
    (h : entries.lookup key = some value) : (key, value) ∈ entries := by
  obtain ⟨before, after, rfl, -⟩ := List.lookup_eq_some_iff.1 h
  exact List.mem_append_right before List.mem_cons_self

/-! ## Entries without repeated keys -/

/-- Where no key is repeated, what is found at a key is its entry. -/
theorem lookup_eq_some_iff_mem {entries : Entries α} (h : entries.keys.Nodup) {key : String}
    {value : α} : entries.lookup key = some value ↔ (key, value) ∈ entries := by
  induction entries with
  | nil => simp
  | cons entry rest ih =>
      obtain ⟨hnew, hrest⟩ := List.nodup_cons.1 h
      by_cases hk : entry.1 = key
      · -- the key is not found again behind its entry
        have hmem : (key, value) ∉ rest := by
          intro hmem
          exact hnew (hk ▸ List.mem_map_of_mem hmem)
        obtain ⟨name, found⟩ := entry
        subst hk
        simp [hmem, eq_comm]
      · rw [lookup_cons_of_ne hk, ih hrest]
        have hne : (key, value) ≠ entry := by
          rintro rfl
          exact hk rfl
        simp [hne]

/-- Where no key is repeated, erasing a key leaves the entries with other keys. -/
theorem eraseP_eq_filter {entries : Entries α} (h : entries.keys.Nodup) (key : String) :
    (entries.eraseP fun entry ↦ entry.1 = key) = entries.filter fun entry ↦ entry.1 ≠ key := by
  induction entries with
  | nil => rfl
  | cons entry rest ih =>
      obtain ⟨hnew, hrest⟩ := List.nodup_cons.1 h
      by_cases hk : entry.1 = key
      · have hall : rest.filter (fun entry ↦ entry.1 ≠ key) = rest := by
          refine List.filter_eq_self.2 fun other hmem ↦ decide_eq_true ?_
          intro hother
          exact hnew (by rw [hk, ← hother]; exact List.mem_map_of_mem hmem)
        simp only [List.eraseP_cons, hk, decide_true, cond_true, List.filter_cons, ne_eq,
          not_true_eq_false, decide_false, Bool.false_eq_true, if_false]
        exact hall.symm
      · simpa [List.eraseP_cons, hk] using ih hrest

/-- No key is repeated when some entries are left out. -/
theorem nodup_keys_filter {entries : Entries α} (h : entries.keys.Nodup) (keep : String × α → Bool) :
    (keys (entries.filter keep)).Nodup :=
  h.sublist (List.filter_sublist.map Prod.fst)

/-- Entries without repeated keys are not repeated. -/
theorem nodup_of_keys {entries : Entries α} (h : entries.keys.Nodup) : entries.Nodup :=
  List.Nodup.of_map _ h

/-- The entries with another value at each key. -/
def mapValues (f : α → β) (entries : Entries α) : Entries β :=
  entries.map fun entry ↦ (entry.1, f entry.2)

@[simp]
theorem keys_mapValues (f : α → β) (entries : Entries α) : (entries.mapValues f).keys = entries.keys := by
  simp [keys, mapValues]

@[simp]
theorem mapValues_mapValues {γ : Type} (f : α → β) (g : β → γ) (entries : Entries α) :
    (entries.mapValues f).mapValues g = entries.mapValues fun value ↦ g (f value) :=
  List.map_map

@[simp]
theorem mapValues_id (entries : Entries α) : (entries.mapValues fun value ↦ value) = entries :=
  List.map_id entries

/-- A value that is changed by its key is found at this key. -/
theorem lookup_map (f : String → α → β) (entries : Entries α) (key : String) :
    List.lookup key (entries.map fun entry ↦ (entry.1, f entry.1 entry.2)) =
      (entries.lookup key).map (f key) := by
  induction entries with
  | nil => rfl
  | cons entry rest ih =>
      obtain ⟨name, value⟩ := entry
      by_cases hk : name = key
      · subst hk
        simp
      · rw [List.map_cons, lookup_cons_of_ne hk, lookup_cons_of_ne hk, ih]

/-- A changed value is found at the key of the value. -/
theorem lookup_mapValues (f : α → β) (entries : Entries α) (key : String) :
    (entries.mapValues f).lookup key = (entries.lookup key).map f :=
  lookup_map (fun _ ↦ f) entries key

/-! ## Entries up to their order -/

/-- `Alike R first second` says that the entries have the same keys in some order, and related values at
each of them. -/
inductive Alike (R : α → β → Prop) : Entries α → Entries β → Prop where
  | nil : Alike R [] []
  | cons (key : String) {first : α} {second : β} {others : Entries α} {rest : Entries β} :
      R first second → Alike R others rest → Alike R ((key, first) :: others) ((key, second) :: rest)
  | perm {entries others : Entries α} {rest : Entries β} :
      entries.Perm others → Alike R others rest → Alike R entries rest

/-- Entries are alike when each value has been changed in two related ways. -/
theorem alike_mapValues {γ : Type} {R : α → β → Prop} {f : γ → α} {g : γ → β} {entries : Entries γ}
    (h : ∀ entry ∈ entries, R (f entry.2) (g entry.2)) :
    Alike R (entries.mapValues f) (entries.mapValues g) := by
  induction entries with
  | nil => exact .nil
  | cons entry rest ih =>
      exact .cons entry.1 (h entry List.mem_cons_self) (ih fun other hmem ↦ h other (.tail _ hmem))

/-- Entries that are alike have the same keys in some order. -/
theorem Alike.perm_keys {R : α → β → Prop} {entries : Entries α} {others : Entries β}
    (h : Alike R entries others) : entries.keys.Perm others.keys := by
  induction h with
  | nil => exact .refl _
  | cons key _ _ ih => exact ih.cons key
  | perm hperm _ ih => exact (hperm.map Prod.fst).trans ih

/-- Where no key is repeated, the order of the entries does not matter for what is found. -/
theorem lookup_eq_of_perm {entries others : Entries α} (hkeys : entries.keys.Nodup)
    (h : entries.Perm others) (key : String) : entries.lookup key = others.lookup key := by
  have hothers : others.keys.Nodup := (h.map Prod.fst).nodup_iff.1 hkeys
  refine Option.ext fun value ↦ ?_
  rw [lookup_eq_some_iff_mem hkeys, lookup_eq_some_iff_mem hothers]
  exact h.mem_iff

/-- Where no key is repeated, entries that are alike have related values at each key. -/
theorem Alike.rel_lookup {R : α → β → Prop} {entries : Entries α} {others : Entries β}
    (hkeys : entries.keys.Nodup) (h : Alike R entries others) (key : String) :
    Option.Rel R (entries.lookup key) (others.lookup key) := by
  induction h with
  | nil => exact .none
  | cons name hvalue _ ih =>
      by_cases hname : name = key
      · subst hname
        simpa using Option.Rel.some hvalue
      · rw [lookup_cons_of_ne hname, lookup_cons_of_ne hname]
        exact ih (List.nodup_cons.1 hkeys).2
  | perm hperm _ ih =>
      rw [lookup_eq_of_perm hkeys hperm]
      exact ih ((hperm.map Prod.fst).nodup_iff.1 hkeys)

/-- Where no key is repeated, entries that are alike have related values in the entries of a key. -/
theorem Alike.rel_of_mem {R : α → β → Prop} {entries : Entries α} {others : Entries β}
    (hkeys : entries.keys.Nodup) (h : Alike R entries others) {key : String} {value : α} {found : β}
    (hmem : (key, value) ∈ entries) (hfound : (key, found) ∈ others) : R value found := by
  have hothers : others.keys.Nodup := h.perm_keys.nodup_iff.1 hkeys
  have hrel := h.rel_lookup hkeys key
  rw [(lookup_eq_some_iff_mem hkeys).2 hmem, (lookup_eq_some_iff_mem hothers).2 hfound] at hrel
  simpa using hrel

/-- Entries in another order are alike. -/
theorem alike_of_perm {R : α → α → Prop} (hR : ∀ value, R value value) {entries others : Entries α}
    (h : entries.Perm others) : Alike R entries others := by
  refine .perm h ?_
  clear h
  induction others with
  | nil => exact .nil
  | cons entry rest ih => exact .cons entry.1 (hR entry.2) ih

end Entries

namespace Json

/-- The values are equal up to the order of the members of objects. -/
inductive Same : Json → Json → Prop where
  | refl (value : Json) : Same value value
  | array {items others : List Json} : List.Forall₂ Same items others → Same (.array items) (.array others)
  | object {members others : Entries Json} :
      Entries.Alike Same members others → Same (.object members) (.object others)

/-- What holds of a value when it holds of its items or members holds of every value. -/
@[elab_as_elim]
theorem induction {motive : Json → Prop} (null : motive .null) (bool : ∀ b, motive (.bool b))
    (number : ∀ n, motive (.number n)) (string : ∀ s, motive (.string s))
    (array : ∀ items, (∀ item ∈ items, motive item) → motive (.array items))
    (object : ∀ members : Entries Json, (∀ member ∈ members, motive member.2) → motive (.object members))
    (value : Json) : motive value := by
  match value with
  | .null => exact null
  | .bool b => exact bool b
  | .number n => exact number n
  | .string s => exact string s
  | .array items =>
      exact array items fun item hmem ↦ induction null bool number string array object item
  | .object members =>
      exact object members fun member hmem ↦
        induction null bool number string array object member.2
termination_by value
decreasing_by
  · have := List.sizeOf_lt_of_mem hmem
    simp only [Json.array.sizeOf_spec]
    omega
  · have hmember := List.sizeOf_lt_of_mem hmem
    have hvalue : sizeOf member.2 < sizeOf member := by
      obtain ⟨key, value⟩ := member
      simp only [Prod.mk.sizeOf_spec]
      omega
    simp only [Json.object.sizeOf_spec]
    omega

/-- No object in an item has a key twice. -/
theorem HasUniqueKeys.of_mem_items {items : List Json} (h : (Json.array items).HasUniqueKeys)
    {item : Json} (hmem : item ∈ items) : item.HasUniqueKeys := by
  unfold HasUniqueKeys at h
  induction items with
  | nil => cases hmem
  | cons first rest ih =>
      unfold ItemsHaveUniqueKeys at h
      rcases List.mem_cons.1 hmem with rfl | hmem
      · exact h.1
      · exact ih hmem h.2

/-- An object has no key twice. -/
theorem HasUniqueKeys.nodup {members : Entries Json} (h : (Json.object members).HasUniqueKeys) :
    members.keys.Nodup := by
  unfold HasUniqueKeys at h
  exact h.1

/-- No object in the value of a member has a key twice. -/
theorem HasUniqueKeys.of_mem_members {members : Entries Json} (h : (Json.object members).HasUniqueKeys)
    {member : String × Json} (hmem : member ∈ members) : member.2.HasUniqueKeys := by
  have hall : MembersHaveUniqueKeys members := by
    unfold HasUniqueKeys at h
    exact h.2
  clear h
  induction members with
  | nil => cases hmem
  | cons first rest ih =>
      unfold MembersHaveUniqueKeys at hall
      rcases List.mem_cons.1 hmem with rfl | hmem
      · exact hall.1
      · exact ih hmem hall.2

/-- No object in an array has a key twice when none in its items has. -/
theorem hasUniqueKeys_array {items : List Json} (h : ∀ item ∈ items, item.HasUniqueKeys) :
    (Json.array items).HasUniqueKeys := by
  unfold HasUniqueKeys
  induction items with
  | nil => simp [ItemsHaveUniqueKeys]
  | cons item rest ih =>
      unfold ItemsHaveUniqueKeys
      exact ⟨h item List.mem_cons_self, ih fun other hmem ↦ h other (.tail _ hmem)⟩

/-- No object in an object has a key twice when it has none twice and none in its values has. -/
theorem hasUniqueKeys_object {members : Entries Json} (hkeys : members.keys.Nodup)
    (h : ∀ member ∈ members, member.2.HasUniqueKeys) : (Json.object members).HasUniqueKeys := by
  unfold HasUniqueKeys
  refine ⟨hkeys, ?_⟩
  clear hkeys
  induction members with
  | nil => simp [MembersHaveUniqueKeys]
  | cons member rest ih =>
      unfold MembersHaveUniqueKeys
      exact ⟨h member List.mem_cons_self, ih fun other hmem ↦ h other (.tail _ hmem)⟩

end Json

end Invocation
