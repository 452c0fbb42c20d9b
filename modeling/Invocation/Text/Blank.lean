import Invocation.Text.Ranges

/-!
# Blank characters and trimming

A blank is a character with the Unicode property `White_Space`.  `trim` removes blanks at both ends;
a text is blank when nothing else is in it.
-/

namespace Invocation.Text

/-- The code points with the property `White_Space`. -/
def blankRanges : List CodeRange :=
  [(0x09, 0x0D), (0x20, 0x20), (0x85, 0x85), (0xA0, 0xA0), (0x1680, 0x1680), (0x2000, 0x200A),
   (0x2028, 0x2029), (0x202F, 0x202F), (0x205F, 0x205F), (0x3000, 0x3000)]

/-- The character is a Unicode white space character. -/
def isBlank (c : Char) : Bool :=
  inRanges blankRanges c

/-- The characters without the blanks in front. -/
def trimFront (cs : List Char) : List Char :=
  cs.dropWhile isBlank

/-- The characters without the blanks at either end. -/
def trimChars (cs : List Char) : List Char :=
  (trimFront (trimFront cs).reverse).reverse

/-- The text without the blanks at either end. -/
def trim (text : String) : String :=
  String.ofList (trimChars text.toList)

/-- Every character of the text is a blank. -/
def isBlankText (text : String) : Bool :=
  text.toList.all isBlank

/-- White space of the basic Latin alphabet is blank. -/
theorem isBlank_of_isWhitespace {c : Char} (h : c.isWhitespace = true) : isBlank c = true := by
  simp only [Char.isWhitespace, Bool.or_eq_true, decide_eq_true_eq] at h
  rcases h with ((rfl | rfl) | rfl) | rfl <;> decide

end Invocation.Text
