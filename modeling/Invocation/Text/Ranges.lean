/-!
# Character classes given by ranges

A class of characters is a list of inclusive code point ranges.  The classes that the readers and
writers of this library use are tables of this form in the neighbouring modules.
-/

namespace Invocation.Text

/-- An inclusive range of code points. -/
abbrev CodeRange := Nat × Nat

/-- The character's code point lies in one of the ranges. -/
def inRanges (ranges : List CodeRange) (c : Char) : Bool :=
  ranges.any fun range ↦ range.1 ≤ c.toNat && c.toNat ≤ range.2

end Invocation.Text
