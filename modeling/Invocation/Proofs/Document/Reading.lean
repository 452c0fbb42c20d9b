import Invocation.Document.Reading
import Mathlib.Data.List.Forall2

/-!
# Documents that can be read

A document is read part after part.  When the whole is read so is every part: `bind_eq_ok_iff` takes one
part off, and `forall₂_readItems` gives the result of each item of a list.  A name is read without the
number signs in front, so none is left (`head?_withoutSigns`).
-/

namespace Invocation.Document

/-- What is read in two parts can be read when the first part is, and then the second. -/
theorem bind_eq_ok_iff {α β : Type} {first : Reading α} {next : α → Reading β} {result : β} :
    (first >>= next) = .ok result ↔ ∃ value, first = .ok value ∧ next value = .ok result := by
  cases first <;> simp [bind, Except.bind]

/-- Every item that is read has its own result, at an index of the list. -/
theorem forall₂_readItems {α : Type} {read : String → Json → Reading α} {location : String}
    {index : Nat} {items : List Json} {values : List α}
    (h : readItems read location index items = .ok values) :
    List.Forall₂ (fun item value ↦ ∃ i, read (elementAt location i) item = .ok value) items values := by
  induction items generalizing index values with
  | nil =>
      cases h
      exact .nil
  | cons item rest ih =>
      obtain ⟨first, hfirst, h⟩ := bind_eq_ok_iff.1 h
      obtain ⟨others, hothers, h⟩ := bind_eq_ok_iff.1 h
      cases h
      exact .cons ⟨_, hfirst⟩ (ih hothers)

/-- The items of a list can be read when each of them can be read, wherever that depends on the item
alone. -/
theorem exists_readItems_iff {α : Type} {read : String → Json → Reading α} {readable : Json → Prop}
    (hread : ∀ place item, (∃ value, read place item = .ok value) ↔ readable item) (location : String)
    (index : Nat) (items : List Json) :
    (∃ values, readItems read location index items = .ok values) ↔ ∀ item ∈ items, readable item := by
  induction items generalizing index with
  | nil => exact iff_of_true ⟨[], rfl⟩ nofun
  | cons item rest ih =>
      rw [List.forall_mem_cons, ← hread (elementAt location index), ← ih (index + 1)]
      simp only [readItems, bind_eq_ok_iff]
      constructor
      · rintro ⟨_, first, hfirst, others, hothers, -⟩
        exact ⟨⟨first, hfirst⟩, others, hothers⟩
      · rintro ⟨⟨first, hfirst⟩, others, hothers⟩
        exact ⟨first :: others, first, hfirst, others, hothers, rfl⟩

/-- The values with a text are the strings. -/
theorem string?_eq_some_iff {raw : Json} {text : String} :
    raw.string? = some text ↔ raw = .string text := by
  cases raw <;> simp [Json.string?]

/-! ## Names -/

/-- A name that is read has no number sign in front. -/
theorem head?_withoutSigns (name : String) : (withoutSigns name).toList.head? ≠ some '#' := by
  have hfirst := List.head?_dropWhile_not (· == '#') name.toList
  unfold withoutSigns
  rw [String.toList_ofList]
  intro hsign
  rw [hsign] at hfirst
  cases hfirst

/-- A name without a number sign in front is read as it is. -/
theorem withoutSigns_of_head?_ne {name : String} (h : name.toList.head? ≠ some '#') :
    withoutSigns name = name := by
  have hplain : name.toList.dropWhile (· == '#') = name.toList := by
    cases hchars : name.toList with
    | nil => rfl
    | cons c rest =>
        refine List.dropWhile_cons_of_neg ?_
        simpa [hchars] using h
  unfold withoutSigns
  rw [hplain, String.ofList_toList]

end Invocation.Document
