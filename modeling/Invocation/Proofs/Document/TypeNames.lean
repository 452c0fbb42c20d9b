import Invocation.Document.Types
import Mathlib.Data.List.Induction
import Mathlib.Logic.Function.Iterate

/-!
# Names of types with suffixes

A name with suffixes is read from its end: each `[]` is an array around what stands before it, and a `?` admits
null, of which only the last suffix counts (`namedType_suffixes`).
-/

namespace Invocation

/-- What a name of a type may end in. -/
inductive TypeSuffix where
  | optional
  | list
  deriving DecidableEq

/-- How the suffix is written. -/
def TypeSuffix.text : TypeSuffix → String
  | .optional => "?"
  | .list => "[]"

/-- Arrays inside of each other, with items of the type in the innermost one. -/
def InputType.nested (depth : Nat) (type : InputType) : InputType :=
  (fun items ↦ .array items none)^[depth] type

/-- One more array is around the others. -/
theorem InputType.nested_succ (depth : Nat) (type : InputType) :
    nested (depth + 1) type = .array (nested depth type) none :=
  Function.iterate_succ_apply' _ _ _

namespace Document

/-- An array without a binding passes none to its items. -/
theorem arrayType_none (items : InputType) : arrayType none items = .array items none := by
  cases items <;> rfl

/-- A question mark admits null. -/
theorem namedType_optional (name : String) : namedType (name ++ "?") = ((namedType name).1, true) := by
  unfold namedType
  rw [String.toList_append, List.reverse_append]
  rfl

/-- Brackets make an array. -/
theorem namedType_list (name : String) :
    namedType (name ++ "[]") = (.array (namedType name).1 none, false) := by
  unfold namedType
  rw [String.toList_append, List.reverse_append]
  rfl

/-- A name that ends in no suffix is the name of a type. -/
theorem namedType_base {base : String} (h : ∀ suffix : TypeSuffix, ¬suffix.text.toList <:+ base.toList) :
    namedType base = (typeOfName base, false) := by
  have hend (suffix : TypeSuffix) (rest : List Char) :
      base.toList.reverse ≠ suffix.text.toList.reverse ++ rest := by
    intro heq
    refine h suffix ⟨rest.reverse, ?_⟩
    rw [← List.reverse_reverse base.toList, heq, List.reverse_append, List.reverse_reverse]
  have hname : base = String.ofList base.toList.reverse.reverse := by
    rw [List.reverse_reverse, String.ofList_toList]
  unfold namedType
  generalize base.toList.reverse = chars at hend hname ⊢
  fun_cases typeOfReversedName chars with
  | case1 rest => exact absurd rfl (hend .optional rest)
  | case2 rest => exact absurd rfl (hend .list rest)
  | case3 name => rw [hname]

/-- A name with suffixes means as many arrays inside of each other as it has brackets, around the type of the
name without suffixes, and admits null exactly when its last suffix is a question mark. -/
theorem namedType_suffixes {base : String} (h : ∀ suffix : TypeSuffix, ¬suffix.text.toList <:+ base.toList)
    (suffixes : List TypeSuffix) :
    namedType (base ++ String.join (suffixes.map TypeSuffix.text)) =
      (.nested (suffixes.count .list) (typeOfName base), suffixes.getLast? == some .optional) := by
  induction suffixes using List.reverseRecOn with
  | nil =>
      rw [List.map_nil, String.join_nil, String.append_empty, namedType_base h]
      rfl
  | append_singleton rest suffix ih =>
      have hjoin : base ++ String.join ((rest ++ [suffix]).map TypeSuffix.text) =
          base ++ String.join (rest.map TypeSuffix.text) ++ suffix.text := by
        simp [String.append_assoc]
      rw [hjoin, List.getLast?_concat, List.count_append]
      cases suffix with
      | optional =>
          rw [TypeSuffix.text, namedType_optional, ih]
          rfl
      | list =>
          rw [TypeSuffix.text, namedType_list, ih, List.count_singleton_self, InputType.nested_succ]
          rfl

end Document

end Invocation
