import Invocation.Document.Fault
import Invocation.Document.ListForm

/-!
# Reading documents

The result of reading a part of a document is its meaning or the first fault in it.
-/

namespace Invocation.Document

/-- The result of reading a part of a document. -/
abbrev Reading (α : Type) := Except DocumentError α

/-- Reads the items of a list at a place in order, the first of which has the given index. -/
def readItems {α : Type} (read : String → Json → Reading α) (location : String) (index : Nat) :
    List Json → Reading (List α)
  | [] => .ok []
  | item :: rest => do
    let first ← read (elementAt location index) item
    let others ← readItems read location (index + 1) rest
    return first :: others

/-- A name without the number signs in front. -/
def withoutSigns (name : String) : String :=
  String.ofList (name.toList.dropWhile (· == '#'))

end Invocation.Document
