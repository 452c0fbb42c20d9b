import Invocation.Proofs.Job.Encoding
import Invocation.Proofs.Json.CompactText
import Mathlib.Logic.Function.Iterate

/-!
# Encoding again

A value that is passed on is decoded and encoded again (`reencode`).  The first time, the attributes of a file
reference are put behind its path and its location; from then on every round moves the last of them to the
front (`head?_keys_extraEntries_recoded`).  So the text of an encoded value stays as it is exactly when no
file reference in the value has more than one attribute (`compact_reencode_iff`).
-/

namespace Invocation

/-- A list without repetitions that ends as it starts has one item at most. -/
theorem length_le_one_of_head?_eq_getLast? {α : Type} {items : List α} (h : items.Nodup)
    (hends : items.head? = items.getLast?) : items.length ≤ 1 := by
  match items with
  | [] | [_] => simp
  | first :: second :: rest =>
      have hmem : first ∈ second :: rest := by
        rw [List.head?_cons, List.getLast?_cons_cons] at hends
        exact List.mem_of_getLast? hends.symm
      exact absurd hmem (List.nodup_cons.1 h).1

/-! ## Erasing by swapping -/

namespace Entries

variable {α β : Type}

/-- Values may be changed before or after a key is erased. -/
theorem swapErase_mapValues (f : α → β) (key : String) (entries : Entries α) :
    swapErase key (entries.mapValues f) = (swapErase key entries).mapValues f := by
  induction entries with
  | nil => rfl
  | cons entry rest ih =>
      by_cases hk : entry.1 = key
      · cases hlast : rest.getLast? <;> simp [swapErase, mapValues, hk, hlast, List.map_dropLast]
      · simp only [mapValues] at ih
        simp [swapErase, mapValues, hk, ih]

/-- Another key is passed over. -/
theorem swapErase_cons_of_ne {key : String} {entry : String × α} (h : entry.1 ≠ key) (rest : Entries α) :
    swapErase key (entry :: rest) = entry :: swapErase key rest := by
  rw [swapErase, if_neg h]

/-- The last entry takes the place of the first. -/
theorem swapErase_cons_concat (key : String) (value : α) (front : Entries α) (last : String × α) :
    swapErase key ((key, value) :: (front ++ [last])) = last :: front := by
  simp [swapErase]

/-- Values are changed in the same way exactly when they are at each key. -/
theorem mapValues_inj_left {f g : α → β} {entries : Entries α} :
    entries.mapValues f = entries.mapValues g ↔ ∀ entry ∈ entries, f entry.2 = g entry.2 := by
  simp [mapValues, List.map_inj_left]

end Entries

namespace JobValue

/-- Values may be changed before or after what a file reference refers to is erased. -/
theorem extraEntries_mapValues {α β : Type} (f : α → β) (entries : Entries α) :
    extraEntries (entries.mapValues f) = (extraEntries entries).mapValues f := by
  simp only [extraEntries, Entries.swapErase_mapValues]

/-- The last attribute comes first when the class stands in front. -/
theorem extraEntries_cons_concat {α : Type} (value : α) (front : Entries α) {last : String × α}
    (h : isAttribute last = true) :
    extraEntries (("class", value) :: (front ++ [last])) =
      last :: Entries.swapErase "location" (Entries.swapErase "path" front) := by
  obtain ⟨-, hpath, hlocation⟩ := of_decide_eq_true h
  rw [extraEntries, Entries.swapErase_cons_concat, Entries.swapErase_cons_of_ne hpath,
    Entries.swapErase_cons_of_ne hlocation]

/-- An attribute of a file reference is a member of its object. -/
theorem mem_of_mem_extraEntries {α : Type} {entries : Entries α} (h : entries.keys.Nodup)
    {entry : String × α} (hmem : entry ∈ extraEntries entries) :
    entry ∈ entries ∧ isAttribute entry = true :=
  List.mem_filter.1 ((perm_extraEntries h).mem_iff.1 hmem)

/-- No attribute is repeated. -/
theorem nodup_keys_extraEntries {α : Type} {entries : Entries α} (h : entries.keys.Nodup) :
    (extraEntries entries).keys.Nodup :=
  ((perm_extraEntries h).map Prod.fst).nodup_iff.2 (Entries.nodup_keys_filter h isAttribute)

/-! ## Values with few attributes -/

mutual

/-- No file reference in the value has more than one attribute. -/
def HasFewAttributes : JobValue → Prop
  | .file _ _ _ extra => extra.length ≤ 1 ∧ EntriesHaveFewAttributes extra
  | .list items => ItemsHaveFewAttributes items
  | .mapping entries => EntriesHaveFewAttributes entries
  | _ => True

/-- No file reference in the items has more than one attribute. -/
def ItemsHaveFewAttributes : List JobValue → Prop
  | [] => True
  | item :: rest => HasFewAttributes item ∧ ItemsHaveFewAttributes rest

/-- No file reference in the values of the entries has more than one attribute. -/
def EntriesHaveFewAttributes : List (String × JobValue) → Prop
  | [] => True
  | entry :: rest => HasFewAttributes entry.2 ∧ EntriesHaveFewAttributes rest

end

theorem itemsHaveFewAttributes_iff {items : List JobValue} :
    ItemsHaveFewAttributes items ↔ ∀ item ∈ items, item.HasFewAttributes := by
  induction items with
  | nil => simp [ItemsHaveFewAttributes]
  | cons item rest ih => simp [ItemsHaveFewAttributes, ih]

theorem entriesHaveFewAttributes_iff {entries : Entries JobValue} :
    EntriesHaveFewAttributes entries ↔ ∀ entry ∈ entries, entry.2.HasFewAttributes := by
  induction entries with
  | nil => simp [EntriesHaveFewAttributes]
  | cons entry rest ih => simp [EntriesHaveFewAttributes, ih]

/-! ## One round -/

variable {members : Entries Json} {kind : FileClass}

/-- An encoded file reference has the encoded attributes behind what it refers to. -/
theorem recoded_eq_append (kind : FileClass) (members : Entries Json) :
    recoded kind members = fileMembers kind (members.string? "path") (members.string? "location")
      ++ Entries.mapValues reencode (extraEntries members) := by
  rw [recoded, entriesOfJson_eq_mapValues, extraEntries_mapValues, entriesToJson_eq_mapValues,
    Entries.mapValues_mapValues]
  rfl

/-- The attributes of an encoded file reference are its encoded attributes, in some order. -/
theorem perm_extraEntries_recoded (h : members.keys.Nodup) (hkind : fileClassOf? members = some kind) :
    (extraEntries (recoded kind members)).Perm (Entries.mapValues reencode (extraEntries members)) := by
  have hperm := perm_extraEntries (nodup_keys_recoded h hkind)
  rwa [filter_isAttribute_recoded h, entriesOfJson_eq_mapValues, extraEntries_mapValues,
    entriesToJson_eq_mapValues, Entries.mapValues_mapValues] at hperm

/-- The last attribute of a file reference becomes the first when it is encoded and decoded. -/
theorem head?_keys_extraEntries_recoded (h : members.keys.Nodup) (hkind : fileClassOf? members = some kind) :
    (extraEntries (recoded kind members)).keys.head? = (extraEntries members).keys.getLast? := by
  rcases List.eq_nil_or_concat (extraEntries members) with hnone | ⟨front, last, hextra⟩
  · have hperm := perm_extraEntries_recoded h hkind
    rw [hnone] at hperm ⊢
    rw [List.perm_nil.1 hperm]
    rfl
  · have hlast : isAttribute (last.1, reencode last.2) = true := by
      have hmem : last ∈ extraEntries members := by simp [hextra]
      exact (mem_of_mem_extraEntries h hmem).2
    have hrecoded : recoded kind members = ("class", .string kind.name)
        :: ((((members.string? "path").map fun p ↦ ("path", Json.string p)).toList
          ++ ((members.string? "location").map fun l ↦ ("location", Json.string l)).toList
          ++ Entries.mapValues reencode front) ++ [(last.1, reencode last.2)]) := by
      rw [recoded_eq_append, hextra, fileMembers]
      simp [Entries.mapValues]
    rw [hrecoded, extraEntries_cons_concat _ _ hlast, hextra]
    simp [Entries.keys]

/-- A single attribute stays where it is. -/
theorem extraEntries_recoded_of_length_le_one (h : members.keys.Nodup)
    (hkind : fileClassOf? members = some kind) (hone : (extraEntries members).length ≤ 1) :
    extraEntries (recoded kind members) = Entries.mapValues reencode (extraEntries members) := by
  have hperm := perm_extraEntries_recoded h hkind
  match hextra : extraEntries members with
  | [] =>
      rw [hextra] at hperm
      exact List.perm_nil.1 hperm
  | [entry] =>
      rw [hextra] at hperm
      exact List.perm_singleton.1 hperm
  | _ :: _ :: _ =>
      rw [hextra] at hone
      simp at hone

/-- Encoding a file reference again changes nothing exactly when it has one attribute at most, whose value
does not change either. -/
theorem recoded_recoded_iff (h : members.keys.Nodup) (hkind : fileClassOf? members = some kind) :
    recoded kind (recoded kind members) = recoded kind members ↔
      (extraEntries members).length ≤ 1 ∧
        ∀ entry ∈ extraEntries members, reencode (reencode entry.2) = reencode entry.2 := by
  have hagain : recoded kind (recoded kind members) =
      fileMembers kind (members.string? "path") (members.string? "location")
        ++ Entries.mapValues reencode (extraEntries (recoded kind members)) := by
    rw [recoded_eq_append, string?_recoded h hkind, string?_recoded h hkind]
  constructor
  · intro heq
    -- the keys would be the same ones in the same order, but their last one has come first
    have hextra : Entries.mapValues reencode (extraEntries (recoded kind members)) =
        Entries.mapValues reencode (extraEntries members) :=
      List.append_cancel_left (hagain.symm.trans (heq.trans (recoded_eq_append kind members)))
    have hkeys : (extraEntries (recoded kind members)).keys = (extraEntries members).keys := by
      simpa using congrArg Entries.keys hextra
    have hends := head?_keys_extraEntries_recoded h hkind
    rw [hkeys] at hends
    have hone : (extraEntries members).length ≤ 1 := by
      simpa [Entries.keys] using length_le_one_of_head?_eq_getLast? (nodup_keys_extraEntries h) hends
    rw [extraEntries_recoded_of_length_le_one h hkind hone, Entries.mapValues_mapValues] at hextra
    exact ⟨hone, Entries.mapValues_inj_left.1 hextra⟩
  · rintro ⟨hone, hvalues⟩
    rw [hagain, extraEntries_recoded_of_length_le_one h hkind hone, Entries.mapValues_mapValues,
      Entries.mapValues_inj_left.2 hvalues, ← recoded_eq_append]

/-- The values of an encoded file reference are encoded values of its object. -/
theorem exists_of_mem_recoded (h : members.keys.Nodup) (hkind : fileClassOf? members = some kind)
    {member : String × Json} (hmem : member ∈ recoded kind members) :
    ∃ original ∈ members, member.2 = reencode original.2 := by
  obtain ⟨original, horiginal, rfl⟩ := List.mem_map.1 ((perm_recoded h hkind).mem_iff.1 hmem)
  exact ⟨original, (List.mem_filter.1 horiginal).1, rfl⟩

/-- All members of an encoded file reference are kept. -/
theorem filter_isKeptMember_recoded (h : members.keys.Nodup) (hkind : fileClassOf? members = some kind) :
    (recoded kind members).filter Json.isKeptMember = recoded kind members := by
  refine List.filter_eq_self.2 fun member hmem ↦ ?_
  obtain ⟨original, horiginal, rfl⟩ := List.mem_map.1 ((perm_recoded h hkind).mem_iff.1 hmem)
  simpa [Json.isKeptMember, string?_reencode] using (List.mem_filter.1 horiginal).2

/-! ## Every round -/

/-- No object in an encoded value has a key twice. -/
theorem hasUniqueKeys_reencode {value : Json} (h : value.HasUniqueKeys) :
    (reencode value).HasUniqueKeys := by
  induction value using Json.induction with
  | array items ih =>
      rw [reencode_array]
      refine Json.hasUniqueKeys_array fun item hitem ↦ ?_
      obtain ⟨original, horiginal, rfl⟩ := List.mem_map.1 hitem
      exact ih original horiginal (h.of_mem_items horiginal)
  | object members ih =>
      have hvalues : ∀ member ∈ members, (reencode member.2).HasUniqueKeys :=
        fun member hmember ↦ ih member hmember (h.of_mem_members hmember)
      cases hkind : fileClassOf? members with
      | none =>
          rw [reencode_mapping hkind]
          refine Json.hasUniqueKeys_object ?_ fun member hmember ↦ ?_
          · rw [Entries.keys_mapValues]
            exact h.nodup
          · obtain ⟨original, horiginal, rfl⟩ := List.mem_map.1 hmember
            exact hvalues original horiginal
      | some kind =>
          rw [reencode_file hkind]
          refine Json.hasUniqueKeys_object (nodup_keys_recoded h.nodup hkind) fun member hmember ↦ ?_
          obtain ⟨original, horiginal, hvalue⟩ := exists_of_mem_recoded h.nodup hkind hmember
          rw [hvalue]
          exact hvalues original horiginal
  | _ => exact h

/-- Encoding a value again changes the order of members only. -/
theorem same_reencode {value : Json} (h : value.HasUniqueKeys) :
    Json.Same (reencode (reencode value)) (reencode value) := by
  induction value using Json.induction with
  | array items ih =>
      rw [reencode_array, reencode_array, List.map_map]
      exact .array (forall₂_map_map fun item hitem ↦ ih item hitem (h.of_mem_items hitem))
  | object members ih =>
      have hvalues : ∀ member ∈ members, Json.Same (reencode (reencode member.2)) (reencode member.2) :=
        fun member hmember ↦ ih member hmember (h.of_mem_members hmember)
      cases hkind : fileClassOf? members with
      | none =>
          have hagain := hkind
          rw [← fileClassOf?_mapValues_reencode] at hagain
          rw [reencode_mapping hkind, reencode_mapping hagain, Entries.mapValues_mapValues]
          exact .object (Entries.alike_mapValues hvalues)
      | some kind =>
          have hkeys := nodup_keys_recoded h.nodup hkind
          have hagain := fileClassOf?_recoded h.nodup hkind
          have hperm := perm_recoded hkeys hagain
          rw [filter_isKeptMember_recoded h.nodup hkind] at hperm
          have halike : Entries.Alike Json.Same (Entries.mapValues reencode (recoded kind members))
              (Entries.mapValues (fun value ↦ value) (recoded kind members)) := by
            refine Entries.alike_mapValues fun member hmember ↦ ?_
            obtain ⟨original, horiginal, hvalue⟩ := exists_of_mem_recoded h.nodup hkind hmember
            rw [hvalue]
            exact hvalues original horiginal
          rw [Entries.mapValues_id] at halike
          rw [reencode_file hkind, reencode_file hagain]
          exact .object (.perm hperm halike)
  | _ => exact .refl _

/-- Encoding a value again changes nothing exactly when no file reference in it has more than one
attribute. -/
theorem reencode_reencode_iff {value : Json} (h : value.HasUniqueKeys) :
    reencode (reencode value) = reencode value ↔ (ofJson value).HasFewAttributes := by
  induction value using Json.induction with
  | array items ih =>
      rw [reencode_array, reencode_array, List.map_map, ofJson, HasFewAttributes,
        itemsHaveFewAttributes_iff, itemsOfJson_eq_map, Json.array.injEq, List.map_inj_left,
        List.forall_mem_map]
      exact forall₂_congr fun item hitem ↦ ih item hitem (h.of_mem_items hitem)
  | object members ih =>
      have hvalues (member : String × Json) (hmember : member ∈ members) :
          reencode (reencode member.2) = reencode member.2 ↔ (ofJson member.2).HasFewAttributes :=
        ih member hmember (h.of_mem_members hmember)
      rw [ofJson, ofMembers, entriesOfJson_eq_mapValues, extraEntries_mapValues]
      cases hkind : fileClassOf? members with
      | none =>
          have hagain := hkind
          rw [← fileClassOf?_mapValues_reencode] at hagain
          rw [reencode_mapping hkind, reencode_mapping hagain, Entries.mapValues_mapValues,
            Json.object.injEq, Entries.mapValues_inj_left, HasFewAttributes, entriesHaveFewAttributes_iff,
            Entries.mapValues, List.forall_mem_map]
          exact forall₂_congr hvalues
      | some kind =>
          rw [reencode_file hkind, reencode_file (fileClassOf?_recoded h.nodup hkind), Json.object.injEq,
            recoded_recoded_iff h.nodup hkind]
          dsimp only
          rw [HasFewAttributes, entriesHaveFewAttributes_iff, Entries.mapValues, List.length_map,
            List.forall_mem_map]
          exact and_congr_right fun _ ↦ forall₂_congr fun entry hentry ↦
            hvalues entry (mem_of_mem_extraEntries h.nodup hentry).1
  | _ => simp [reencode, ofJson, toJson, HasFewAttributes]

/-- Encoding a value again does not change its text exactly when no file reference in it has more than one
attribute, and then no number of rounds changes the value. -/
theorem compact_reencode_iff (value : Json) (h : value.HasUniqueKeys) :
    ((reencode (reencode value)).compact = (reencode value).compact ↔ (ofJson value).HasFewAttributes) ∧
    ((ofJson value).HasFewAttributes → ∀ rounds, reencode^[rounds] (reencode value) = reencode value) := by
  have hkeys := hasUniqueKeys_reencode (hasUniqueKeys_reencode h)
  refine ⟨⟨fun htext ↦ ?_, fun hfew ↦ ?_⟩, fun hfew rounds ↦ ?_⟩
  · exact (reencode_reencode_iff h).1 ((same_reencode h).eq_of_compact hkeys htext)
  · rw [(reencode_reencode_iff h).2 hfew]
  · exact Function.iterate_fixed ((reencode_reencode_iff h).2 hfew) rounds

/-- Reads with an index as their only attribute. -/
def indexedReads : Json :=
  .array [.object [("secondaryFiles", .array [.object [("class", .string "File"),
    ("location", .string "s3://a.bai")]]), ("class", .string "File"), ("path", .string "a.bam")]]

/-- The index is put behind the path and stays there. -/
theorem compact_reencode_iff_indexedReads :
    indexedReads.HasUniqueKeys ∧ (ofJson indexedReads).HasFewAttributes ∧
    (reencode indexedReads).compact ≠ indexedReads.compact ∧
    (reencode (reencode indexedReads)).compact = (reencode indexedReads).compact ∧
    ∀ rounds, reencode^[rounds] (reencode indexedReads) = reencode indexedReads := by
  have hkeys : indexedReads.HasUniqueKeys := by
    simp [indexedReads, Json.HasUniqueKeys, Json.MembersHaveUniqueKeys, Json.ItemsHaveUniqueKeys]
  have hdecoded : ofJson indexedReads = .list [.file .file (some "a.bam") none
      [("secondaryFiles", .list [.file .file none (some "s3://a.bai") []])]] := rfl
  have hfew : (ofJson indexedReads).HasFewAttributes := by
    simp [hdecoded, HasFewAttributes, ItemsHaveFewAttributes, EntriesHaveFewAttributes]
  obtain ⟨htext, hrounds⟩ := compact_reencode_iff indexedReads hkeys
  exact ⟨hkeys, hfew, by decide, htext.2 hfew, hrounds hfew⟩

/-- A file with two attributes. -/
def taggedFile : Json :=
  .object [("class", .string "File"), ("path", .string "a"), ("basename", .string "a"),
    ("format", .string "bam")]

/-- The text of an encoded value is not always what it is encoded as again: the attributes change places. -/
theorem not_compact_reencode_eq :
    ¬ ∀ value : Json, value.HasUniqueKeys →
      (reencode (reencode value)).compact = (reencode value).compact := by
  intro h
  have hkeys : taggedFile.HasUniqueKeys := by
    simp [taggedFile, Json.HasUniqueKeys, Json.MembersHaveUniqueKeys]
  have htext := h taggedFile hkeys
  revert htext
  decide

end JobValue

end Invocation
