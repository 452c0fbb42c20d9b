/-!
# Ordered entries

Objects, mappings and records keep their entries in the order in which they were written.  `put` leaves
a known key where it stands; `swapErase` fills the place of an erased entry with the last one.
-/

namespace Invocation

/-- Keys with their values, in order. -/
abbrev Entries (α : Type) := List (String × α)

namespace Entries

variable {α : Type}

/-- The keys, in order. -/
def keys (entries : Entries α) : List String :=
  entries.map Prod.fst

/-- Some entry has the key. -/
def hasKey (entries : Entries α) (key : String) : Bool :=
  (entries.lookup key).isSome

/-- The entries with a value for the key: a known key keeps its place and takes the new value, a new key
comes last. -/
def put (key : String) (value : α) : Entries α → Entries α
  | [] => [(key, value)]
  | entry :: rest => if entry.1 = key then (key, value) :: rest else entry :: put key value rest

/-- The entries without the key, whose place is filled with the last entry. -/
def swapErase (key : String) : Entries α → Entries α
  | [] => []
  | entry :: rest =>
    if entry.1 = key then
      match rest.getLast? with
      | none => []
      | some last => last :: rest.dropLast
    else entry :: swapErase key rest

/-- The entries of a list in which a later value of a key replaces an earlier one. -/
def ofList (pairs : List (String × α)) : Entries α :=
  pairs.foldl (fun entries pair ↦ put pair.1 pair.2 entries) []

/-! ## Keys and values -/

/-- An entry with another key is passed over. -/
theorem lookup_cons_of_ne {key : String} {entry : String × α} (h : entry.1 ≠ key) (rest : Entries α) :
    List.lookup key (entry :: rest) = List.lookup key rest := by
  obtain ⟨name, value⟩ := entry
  have : (key == name) = false := by simpa using Ne.symm h
  simp [List.lookup_cons, this]

/-- A key is found exactly when it is one of the keys. -/
theorem hasKey_iff {entries : Entries α} {key : String} :
    entries.hasKey key = true ↔ key ∈ entries.keys := by
  induction entries with
  | nil => simp [hasKey, keys]
  | cons entry rest ih =>
    by_cases h : entry.1 = key
    · subst h
      simp [hasKey, keys]
    · simp only [hasKey, keys] at ih
      simp [hasKey, keys, lookup_cons_of_ne h, Ne.symm h, ih]

/-- The new value is found at its key, and every other key keeps its value. -/
theorem lookup_put (key other : String) (value : α) (entries : Entries α) :
    (put key value entries).lookup other =
      if other = key then some value else entries.lookup other := by
  have hnew (h : other ≠ key) (rest : Entries α) :
      List.lookup other ((key, value) :: rest) = List.lookup other rest :=
    lookup_cons_of_ne (Ne.symm h : (key, value).1 ≠ other) rest
  induction entries with
  | nil =>
    by_cases h : other = key
    · simp [put, h]
    · simp [put, h, hnew h]
  | cons entry rest ih =>
    by_cases hk : entry.1 = key
    · by_cases h : other = key
      · simp [put, hk, h]
      · simp only [put, hk, if_true, h, if_false, hnew h]
        exact (lookup_cons_of_ne (hk ▸ Ne.symm h) rest).symm
    · simp only [put, hk, if_false]
      by_cases ho : entry.1 = other
      · obtain ⟨name, old⟩ := entry
        subst ho
        simp [hk]
      · rw [lookup_cons_of_ne ho, lookup_cons_of_ne ho, ih]

/-- A known key keeps its place and a new one comes last. -/
theorem keys_put (key : String) (value : α) (entries : Entries α) :
    (put key value entries).keys =
      if key ∈ entries.keys then entries.keys else entries.keys ++ [key] := by
  induction entries with
  | nil => simp [put, keys]
  | cons entry rest ih =>
    simp only [keys] at ih ⊢
    by_cases hk : entry.1 = key
    · simp [put, hk]
    · by_cases hm : key ∈ rest.map Prod.fst
      · simp only [put, hk, if_false, List.map_cons, ih, hm, if_true, List.mem_cons, or_true]
      · simp only [put, hk, if_false, List.map_cons, ih, hm, List.mem_cons, Ne.symm hk, or_self,
          List.cons_append]

/-- No key is repeated when a value is put into entries without repetitions. -/
theorem nodup_keys_put {entries : Entries α} (h : entries.keys.Nodup) (key : String) (value : α) :
    (put key value entries).keys.Nodup := by
  rw [keys_put]
  split
  · exact h
  · next hm =>
    refine List.nodup_append.2 ⟨h, by simp, fun a ha b hb hab ↦ hm ?_⟩
    rwa [← List.mem_singleton.1 hb, ← hab]

/-- No key is repeated in the entries of a list. -/
theorem nodup_keys_ofList (pairs : List (String × α)) : (ofList pairs).keys.Nodup := by
  have keep : ∀ entries : Entries α, entries.keys.Nodup →
      (pairs.foldl (fun entries pair ↦ put pair.1 pair.2 entries) entries).keys.Nodup := by
    induction pairs with
    | nil => exact fun _ h ↦ h
    | cons pair rest ih => exact fun entries h ↦ ih _ (nodup_keys_put h _ _)
  exact keep [] List.nodup_nil

/-- Nothing but the first entry with the key is lost. -/
theorem perm_swapErase (key : String) (entries : Entries α) :
    (swapErase key entries).Perm (entries.eraseP fun entry ↦ entry.1 = key) := by
  induction entries with
  | nil => exact .nil
  | cons entry rest ih =>
    by_cases hk : entry.1 = key
    · simp only [swapErase, hk, if_true, List.eraseP_cons]
      cases hl : rest.getLast? with
      | none => simp [List.getLast?_eq_none_iff.1 hl]
      | some last =>
        obtain ⟨front, rfl⟩ := List.getLast?_eq_some_iff.1 hl
        simpa using (List.perm_append_singleton last front).symm
    · simpa [swapErase, hk, List.eraseP_cons] using ih

end Entries

end Invocation
