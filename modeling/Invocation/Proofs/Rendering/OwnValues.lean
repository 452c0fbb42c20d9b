import Invocation.Proofs.Rendering.Components
import Invocation.Proofs.Rendering.Lookup

/-!
# The values of components

An element of a list is looked up by its index among its siblings and a field of a record by its id in the
record, but neither look-up finds anything new: a component has its own value, and none when that is null
(`Component.resolveValue_eq`).
-/

namespace Invocation

/-! ## Indices -/

/-- The decimal digits of a number write the number. -/
theorem digitsValue_toDigits (n : Nat) : digitsValue (Nat.toDigits 10 n) = n := by
  have hstep : (fun sofar (c : Char) ↦ sofar * 10 + (c.toNat - '0'.toNat)) =
      fun sofar c ↦ 10 * sofar + (c.toNat - '0'.toNat) := by
    funext sofar c
    rw [Nat.mul_comm]
  unfold digitsValue
  rw [hstep]
  exact Nat.ofDigitChars_ten_toDigits

namespace JobValue

/-- Digits write the index that is their number, if it is small enough for an index. -/
theorem indexOfKey?_ofList {digits : List Char} (hne : digits ≠ [])
    (hall : ∀ c ∈ digits, c.isDigit = true) :
    indexOfKey? (String.ofList digits) =
      if digitsValue digits < 2 ^ 64 then some (digitsValue digits) else none := by
  unfold indexOfKey?
  rw [String.toList_ofList]
  dsimp only
  split
  · -- no digit is a plus sign
    cases hall '+' List.mem_cons_self
  · rw [if_neg]
    simpa [hne] using hall

/-- A number is the index that its text writes, if it is small enough for an index. -/
theorem indexOfKey?_toString (n : Nat) :
    indexOfKey? (toString n) = if n < 2 ^ 64 then some n else none := by
  have hall : ∀ c ∈ Nat.toDigits 10 n, c.isDigit = true := fun c hmem ↦
    Nat.isDigit_of_mem_toDigits (by decide) (by decide) hmem
  have hindex := indexOfKey?_ofList Nat.toDigits_ne_nil hall
  rwa [digitsValue_toDigits, ← Nat.toString_eq_ofList_toDigits] at hindex

/-- What a list has at the text of an index stands at the index. -/
theorem get?_toString {items : List JobValue} {index : Nat} {value : JobValue}
    (h : get? (toString index) (.list items) = some value) : items[index]? = some value := by
  have hindex : (indexOfKey? (toString index)).bind (fun i ↦ items[i]?) = some value := h
  rw [indexOfKey?_toString] at hindex
  split at hindex
  · exact hindex
  · cases hindex

/-- The value itself, unless it is null. -/
def present? (value : JobValue) : Option JobValue :=
  if value.isNull then none else some value

/-- A value other than null is there. -/
theorem present?_eq_some {value : JobValue} (h : value.isNull = false) : value.present? = some value := by
  rw [present?, h]
  rfl

/-- Null is not there. -/
theorem present?_eq_none {value : JobValue} (h : value.isNull = true) : value.present? = none := by
  rw [present?, h]
  rfl

/-- A value that is there is the value itself. -/
theorem eq_of_present?_eq_some {value found : JobValue} (h : value.present? = some found) :
    found = value := by
  unfold present? at h
  split at h
  · cases h
  · exact (Option.some.inj h).symm

end JobValue

/-! ## Components -/

/-- A component that stands for null has no value if none is found for it. -/
theorem resolveValue_own {id : String} {whole own : JobValue}
    (h : own.isNull = true → ∀ found, whole.get? id = some found → found.isNull = true) :
    resolveValue id whole (some own) = own.present? := by
  cases hown : own.isNull with
  | false => rw [resolveValue_given hown, JobValue.present?_eq_some hown]
  | true =>
      rw [JobValue.present?_eq_none hown]
      unfold resolveValue
      rw [Option.filter_some, hown]
      cases hfound : whole.get? id with
      | none => rfl
      | some found => simp [h hown found hfound]

/-- A component has its own value, and none when that is null: what its look-up finds is the component
itself. -/
theorem Component.resolveValue_eq {type : InputType} {location : String} {value : JobValue}
    {component : Component} (hmem : component ∈ type.components location value) {own : JobValue}
    (hgiven : component.given = some own) :
    resolveValue component.input.id component.whole (some own) = own.present? := by
  cases type with
  | primitive | enum | boolean | unresolved => cases hmem
  | array items itemBinding =>
      obtain ⟨index, hindex, rfl⟩ := List.mem_mapIdx.1 hmem
      refine resolveValue_own fun hown found hfound ↦ ?_
      -- the element stands at its own index, and null is no file reference
      have hitem := JobValue.get?_toString hfound
      rw [List.getElem?_map, List.getElem?_eq_getElem hindex, Option.some.inj hgiven] at hitem
      cases own with
      | null =>
          cases hitem
          rfl
      | bool | number | string | file | list | mapping => cases hown
  | record fields =>
      obtain ⟨field, -, rfl⟩ := List.mem_map.1 hmem
      refine resolveValue_own fun hown found hfound ↦ ?_
      cases hgiven.symm.trans hfound
      exact hown

end Invocation
