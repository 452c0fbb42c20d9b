import Invocation.Proofs.Document.Reading
import Mathlib.Data.Prod.Lex
import Mathlib.Order.Lex

/-!
# Values in the order of a document

A value of a document may stand at several places.  `Enumerates before holds values` says that a list has
the values in the order of their places, each once for every place that it stands at.  Lists that are read
item by item keep the order of the items (`exists_enumerates_readItems`).
-/

namespace Invocation.Document

variable {κ μ α β : Type} {before : κ → κ → Prop} {holds : κ → α → Prop} {values : List α}

/-- The values are those that hold at some key, each once for every such key, in the order of the keys. -/
def Enumerates (before : κ → κ → Prop) (holds : κ → α → Prop) (values : List α) : Prop :=
  ∃ found : List (κ × α), found.map Prod.snd = values ∧
    (found.Pairwise fun first second ↦ before first.1 second.1) ∧
    ∀ key value, (key, value) ∈ found ↔ holds key value

namespace Enumerates

/-- What holds can be said in another way. -/
theorem congr {other : κ → α → Prop} (h : Enumerates before holds values)
    (hiff : ∀ key value, holds key value ↔ other key value) : Enumerates before other values := by
  obtain ⟨found, hvalues, hordered, hmem⟩ := h
  exact ⟨found, hvalues, hordered, fun key value ↦ (hmem key value).trans (hiff key value)⟩

/-- A value is in the list when it holds at some key. -/
theorem mem_iff (h : Enumerates before holds values) {value : α} :
    value ∈ values ↔ ∃ key, holds key value := by
  obtain ⟨found, rfl, -, hmem⟩ := h
  simp [← hmem]

/-- Nothing holds at any key. -/
theorem nil (h : ∀ key value, ¬ holds key value) : Enumerates before holds [] :=
  ⟨[], rfl, .nil, fun key value ↦ iff_of_false List.not_mem_nil (h key value)⟩

/-- The values of a list hold at their indices. -/
theorem of_getElem? (values : List α) :
    Enumerates (· < ·) (fun (index : Nat) value ↦ values[index]? = some value) values := by
  refine ⟨values.zipIdx.map Prod.swap, ?_, ?_, fun index value ↦ ?_⟩
  · rw [List.map_map]
    exact List.zipIdx_map_fst _ _
  · rw [List.pairwise_map]
    have hindices : (values.zipIdx.map Prod.snd).Pairwise (· < ·) := by
      rw [List.zipIdx_map_snd]
      exact List.pairwise_lt_range'
    exact List.pairwise_map.1 hindices
  · dsimp only
    rw [← List.mk_mem_zipIdx_iff_getElem?]
    simp

/-- Values that are made of others stand where these do. -/
theorem filterMap (h : Enumerates before holds values) (make : α → Option β) :
    Enumerates before (fun key made ↦ ∃ value, holds key value ∧ make value = some made)
      (values.filterMap make) := by
  obtain ⟨found, rfl, hordered, hmem⟩ := h
  refine ⟨found.filterMap fun entry ↦ (make entry.2).map fun made ↦ (entry.1, made), ?_, ?_,
    fun key made ↦ ?_⟩
  · rw [List.map_filterMap, List.filterMap_map]
    simp [Function.comp_def]
  · refine hordered.filterMap _ fun first second hbefore made hmade other hother ↦ ?_
    obtain ⟨_, -, rfl⟩ := Option.map_eq_some_iff.1 hmade
    obtain ⟨_, -, rfl⟩ := Option.map_eq_some_iff.1 hother
    exact hbefore
  · simp [← hmem]

/-- Values that are chosen stand where they did. -/
theorem filter (h : Enumerates before holds values) (choose : α → Bool) :
    Enumerates before (fun key value ↦ holds key value ∧ choose value = true) (values.filter choose) := by
  obtain ⟨found, rfl, hordered, hmem⟩ := h
  refine ⟨found.filter fun entry ↦ choose entry.2, ?_, hordered.filter _, fun key value ↦ ?_⟩
  · rw [List.filter_map]
    rfl
  · rw [List.mem_filter, hmem]

/-- The values of a list that hold at its first item come before those that hold at later items. -/
theorem cons {first others : List α} {later : Nat × κ → α → Prop} (index : Nat)
    (h : Enumerates before holds first) (hothers : Enumerates (Prod.Lex (· < ·) before) later others)
    (hlater : ∀ key value, later key value → index < key.1) :
    Enumerates (Prod.Lex (· < ·) before)
      (fun key value ↦ (key.1 = index ∧ holds key.2 value) ∨ later key value) (first ++ others) := by
  obtain ⟨found, rfl, hordered, hmem⟩ := h
  obtain ⟨foundLater, rfl, horderedLater, hmemLater⟩ := hothers
  refine ⟨found.map (fun entry ↦ ((index, entry.1), entry.2)) ++ foundLater, ?_, ?_,
    fun key value ↦ ?_⟩
  · rw [List.map_append, List.map_map]
    rfl
  · refine List.pairwise_append.2 ⟨?_, horderedLater, fun entry hentry other hother ↦ ?_⟩
    · exact List.pairwise_map.2 (hordered.imp fun hbefore ↦ .right _ hbefore)
    · obtain ⟨original, -, rfl⟩ := List.mem_map.1 hentry
      exact .left _ _ (hlater _ _ ((hmemLater other.1 other.2).1 hother))
  · rw [List.mem_append, hmemLater]
    dsimp only
    rw [← hmem, List.mem_map]
    refine or_congr_left ⟨?_, ?_⟩
    · rintro ⟨entry, hentry, hends⟩
      cases hends
      exact ⟨rfl, hentry⟩
    · obtain ⟨position, name⟩ := key
      rintro ⟨rfl, hentry⟩
      exact ⟨(name, value), hentry, rfl⟩

/-- Values of two kinds stand one behind the other. -/
theorem append {after : μ → μ → Prop} {other : μ → α → Prop} {others : List α}
    (h : Enumerates before holds values) (hothers : Enumerates after other others) :
    Enumerates (Sum.Lex before after) (fun key value ↦ Sum.elim (holds · value) (other · value) key)
      (values ++ others) := by
  obtain ⟨found, rfl, hordered, hmem⟩ := h
  obtain ⟨foundOthers, rfl, horderedOthers, hmemOthers⟩ := hothers
  refine ⟨found.map (Prod.map .inl id) ++ foundOthers.map (Prod.map .inr id), ?_, ?_,
    fun key value ↦ ?_⟩
  · rw [List.map_append, List.map_map, List.map_map]
    rfl
  · refine List.pairwise_append.2 ⟨List.pairwise_map.2 (hordered.imp .inl),
      List.pairwise_map.2 (horderedOthers.imp .inr), fun entry hentry other hother ↦ ?_⟩
    obtain ⟨_, -, rfl⟩ := List.mem_map.1 hentry
    obtain ⟨_, -, rfl⟩ := List.mem_map.1 hother
    exact .sep _ _
  · cases key with
    | inl key => simp [← hmem]
    | inr key => simp [← hmemOthers]

end Enumerates

/-- The items of a list are read in their order, whatever index the first one has. -/
theorem enumerates_readItems_from {read : String → Json → Reading β} {part : β → List α}
    {holds : String → Json → κ → α → Prop} {location : String}
    (hread : ∀ {place item value}, read place item = .ok value →
      Enumerates before (holds place item) (part value))
    {items : List Json} {index : Nat} {values : List β}
    (h : readItems read location index items = .ok values) :
    Enumerates (Prod.Lex (· < ·) before)
      (fun key value ↦ ∃ i item, key.1 = index + i ∧ items[i]? = some item ∧
        holds (elementAt location key.1) item key.2 value)
      (values.flatMap part) := by
  induction items generalizing index values with
  | nil =>
      cases h
      exact .nil fun _ _ ⟨_, _, _, hitem, _⟩ ↦ by cases hitem
  | cons item rest ih =>
      obtain ⟨first, hfirst, h⟩ := bind_eq_ok_iff.1 h
      obtain ⟨others, hothers, h⟩ := bind_eq_ok_iff.1 h
      cases h
      -- the item in front has the given index, and all others have larger ones
      refine ((hread hfirst).cons index (ih hothers) ?_).congr fun key value ↦ ?_
      · rintro key value ⟨i, _, hkey, _⟩
        omega
      constructor
      · rintro (⟨hkey, hholds⟩ | ⟨i, found, hkey, hitem, hholds⟩)
        · exact ⟨0, item, hkey, rfl, hkey ▸ hholds⟩
        · exact ⟨i + 1, found, by omega, hitem, hholds⟩
      · rintro ⟨_ | i, found, hkey, hitem, hholds⟩
        · cases hitem
          rw [Nat.add_zero] at hkey
          exact .inl ⟨hkey, hkey ▸ hholds⟩
        · exact .inr ⟨i, found, by omega, hitem, hholds⟩

/-- The items of a list are read in their order. -/
theorem enumerates_readItems {read : String → Json → Reading β} {part : β → List α}
    {holds : String → Json → κ → α → Prop} {location : String}
    (hread : ∀ {place item value}, read place item = .ok value →
      Enumerates before (holds place item) (part value))
    {items : List Json} {values : List β} (h : readItems read location 0 items = .ok values) :
    Enumerates (Prod.Lex (· < ·) before)
      (fun key value ↦ ∃ item, items[key.1]? = some item ∧
        holds (elementAt location key.1) item key.2 value)
      (values.flatMap part) := by
  refine (enumerates_readItems_from hread h).congr fun key value ↦ ?_
  constructor
  · rintro ⟨i, item, hkey, hitem, hholds⟩
    rw [Nat.zero_add] at hkey
    exact ⟨item, hkey ▸ hitem, hholds⟩
  · rintro ⟨item, hitem, hholds⟩
    exact ⟨key.1, item, (Nat.zero_add _).symm, hitem, hholds⟩

/-- Items that are read without a fault have one value each. -/
theorem readItems_ok (value : String → Json → β) (location : String) (index : Nat) (items : List Json) :
    readItems (fun place item ↦ .ok (value place item)) location index items =
      .ok (items.mapIdx fun i item ↦ value (elementAt location (index + i)) item) := by
  induction items generalizing index with
  | nil => rfl
  | cons item rest ih =>
      rw [readItems, ih, List.mapIdx_cons]
      simp only [bind, Except.bind, pure, Except.pure, Nat.add_zero, Nat.add_assoc, Nat.add_comm 1]

end Invocation.Document
