import Invocation.Proofs.Document.Reading
import Mathlib.Data.List.Perm.Basic

/-!
# Lists in another order

The items of a list may be put in another order, and each of them may be changed as a relation allows
(`PermBy`).  A document whose lists are rearranged (`Rearranges`) has the same items under other indices, so
the places of what is read from it differ in their digits only (`withoutDigits_elementAt`).
-/

namespace Invocation

/-- The second list has the items of the first one in another order, each with a related one for it. -/
def PermBy {α β : Type} (R : α → β → Prop) (xs : List α) (ys : List β) : Prop :=
  ∃ middle, xs.Perm middle ∧ List.Forall₂ R middle ys

namespace PermBy

variable {α β γ δ : Type} {R : α → β → Prop} {xs : List α} {ys : List β}

/-- Every list can be put for itself when every item can. -/
theorem refl {R : α → α → Prop} (hrefl : ∀ x, R x x) (xs : List α) : PermBy R xs xs :=
  ⟨xs, .refl xs, List.forall₂_same.2 fun x _ ↦ hrefl x⟩

/-- What is put for items may be anything that is related to them. -/
theorem mono {S : α → β → Prop} (h : PermBy R xs ys) (himp : ∀ x y, R x y → S x y) : PermBy S xs ys := by
  obtain ⟨middle, hperm, hitems⟩ := h
  exact ⟨middle, hperm, hitems.imp himp⟩

/-- With equal items the lists differ in order only. -/
theorem perm {xs ys : List α} (h : PermBy Eq xs ys) : xs.Perm ys := by
  obtain ⟨middle, hperm, hitems⟩ := h
  rw [List.forall₂_eq_eq_eq] at hitems
  exact hitems ▸ hperm

/-- All items of one list have a property when all items of the other have the one that goes with it. -/
theorem forall_mem_iff (h : PermBy R xs ys) {p : α → Prop} {q : β → Prop}
    (hiff : ∀ x y, R x y → (p x ↔ q y)) : (∀ x ∈ xs, p x) ↔ ∀ y ∈ ys, q y := by
  obtain ⟨middle, hperm, hitems⟩ := h
  have hmiddle : (∀ x ∈ middle, p x) ↔ ∀ y ∈ ys, q y := by
    clear hperm
    induction hitems with
    | nil => simp
    | cons hitem _ ih => rw [List.forall_mem_cons, List.forall_mem_cons, hiff _ _ hitem, ih]
  rw [← hmiddle]
  exact forall_congr' fun x ↦ imp_congr_left hperm.mem_iff

/-- What related items are made of is the same up to order when it is for each of them. -/
theorem flatMap_perm (h : PermBy R xs ys) {f : α → List γ} {g : β → List γ}
    (hparts : ∀ x y, R x y → (f x).Perm (g y)) : (xs.flatMap f).Perm (ys.flatMap g) := by
  obtain ⟨middle, hperm, hitems⟩ := h
  refine (hperm.flatMap_right f).trans ?_
  clear hperm
  induction hitems with
  | nil => exact .nil
  | cons hitem _ ih => exact (hparts _ _ hitem).append ih

/-- What related items have in common is the same up to order. -/
theorem map_perm (h : PermBy R xs ys) {f : α → γ} {g : β → γ} (heq : ∀ x y, R x y → f x = g y) :
    (xs.map f).Perm (ys.map g) := by
  rw [List.map_eq_flatMap, List.map_eq_flatMap]
  exact h.flatMap_perm fun x y hitem ↦ by rw [heq x y hitem]

/-- Values of the items of both lists are rearranged with the items. -/
theorem of_forall₂ (h : PermBy R xs ys) {S : α → γ → Prop} {T : β → δ → Prop} {us : List γ}
    {vs : List δ} (hxs : List.Forall₂ S xs us) (hys : List.Forall₂ T ys vs) :
    PermBy (fun u v ↦ ∃ x y, R x y ∧ S x u ∧ T y v) us vs := by
  obtain ⟨middle, hperm, hitems⟩ := h
  obtain ⟨values, hvalues, horder⟩ := List.perm_comp_forall₂ hperm.symm hxs
  refine ⟨values, horder.symm, ?_⟩
  clear horder hperm
  induction hitems generalizing values vs with
  | nil =>
      cases hvalues
      cases hys
      exact .nil
  | cons hitem _ ih =>
      cases hvalues with
      | cons hvalue hvalues =>
          cases hys with
          | cons hother hys => exact .cons ⟨_, _, hitem, hvalue, hother⟩ (ih hys _ hvalues)

end PermBy

namespace Document

/-! ## Values -/

/-- The items of a list are put in another order, and each of them in another way that is allowed.  Other
values stay as they are. -/
inductive Rearranges (R : Json → Json → Prop) : Json → Json → Prop
  | items {items others : List Json} : PermBy R items others → Rearranges R (.array items) (.array others)
  | same (raw : Json) : Rearranges R raw raw

/-- A rearranged list has its items in another order, and what is no list has the same items. -/
theorem permBy_listForm {R : Json → Json → Prop} (hrefl : ∀ item, R item item) {raw other : Option Json}
    (h : Option.Rel (Rearranges R) raw other) (naming shorthand : String) :
    PermBy R (listForm naming shorthand raw) (listForm naming shorthand other) := by
  cases h with
  | none => exact .refl hrefl []
  | some h =>
      cases h with
      | items hitems => exact hitems
      | same raw => exact .refl hrefl _

/-! ## Places -/

/-- A place without the digits in it, which are those of indices. -/
def withoutDigits (place : String) : String :=
  String.ofList (place.toList.filter fun c ↦ !c.isDigit)

/-- The digits of two parts are left out in each of them. -/
theorem withoutDigits_append (first second : String) :
    withoutDigits (first ++ second) = withoutDigits first ++ withoutDigits second := by
  unfold withoutDigits
  rw [String.toList_append, List.filter_append, String.ofList_append]

/-- A number consists of digits. -/
theorem withoutDigits_toString (n : Nat) : withoutDigits (toString n) = "" := by
  unfold withoutDigits
  rw [Nat.toString_eq_repr, Nat.toList_repr, List.filter_eq_nil_iff.2, String.ofList_nil]
  intro c hmem
  simp [Nat.isDigit_of_mem_toDigits (by decide) (by decide) hmem]

/-- The places of the items of a list differ in their digits only. -/
theorem withoutDigits_elementAt (location : String) (index : Nat) :
    withoutDigits (elementAt location index) = withoutDigits location ++ "[]" := by
  unfold elementAt
  rw [withoutDigits_append, withoutDigits_append, withoutDigits_append, withoutDigits_toString,
    String.append_empty, String.append_assoc]
  rfl

/-- The places of a member of two things differ as the places of the things do. -/
theorem withoutDigits_child {location other : String} (h : withoutDigits location = withoutDigits other)
    (name : String) : withoutDigits (child location name) = withoutDigits (child other name) := by
  unfold child
  rw [withoutDigits_append, withoutDigits_append, withoutDigits_append, withoutDigits_append, h]

/-! ## Reading -/

/-- What is read of a rearranged list is rearranged. -/
theorem permBy_readItems {α : Type} {R : Json → Json → Prop} {read : String → Json → Reading α}
    {location : String} {items others : List Json} {values results : List α}
    (h : PermBy R items others) (hvalues : readItems read location 0 items = .ok values)
    (hresults : readItems read location 0 others = .ok results) :
    PermBy (fun value result ↦ ∃ item other, R item other ∧
      (∃ i, read (elementAt location i) item = .ok value) ∧
      ∃ j, read (elementAt location j) other = .ok result) values results :=
  h.of_forall₂ (forall₂_readItems hvalues) (forall₂_readItems hresults)

end Document

end Invocation
