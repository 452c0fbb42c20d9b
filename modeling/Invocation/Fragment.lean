import Invocation.Text.Blank

/-!
# Fragments of a command line

A fragment is text for the command line together with a tag for what produced it and the place in the
document that it belongs to.  A failed evaluation leaves a token `<Kind at Location>` in its place.
-/

namespace Invocation

/-- Text for a command line. -/
structure Fragment where
  text : String
  tag : String
  location : String
  deriving DecidableEq, Inhabited

namespace Fragment

/-- The tag of text that comes from an input. -/
def inputTag : String := "input"

/-- The tag of text that comes from an argument of the tool. -/
def argumentTag : String := "argument"

/-- The tag of the empty text of an unresolved type. -/
def nullTag : String := "null"

/-- The token for a failure of the given kind at the given place. -/
def token (kind failedAt : String) : String :=
  "<" ++ kind ++ " at " ++ failedAt ++ ">"

/-- The fragment that stands for a failure, tagged with the failure's kind. -/
def diagnostic (kind failedAt location : String) : Fragment :=
  ⟨token kind failedAt, kind, location⟩

/-- The text is blank, so that nothing of it is placed on the command line. -/
def isBlank (fragment : Fragment) : Bool :=
  Text.isBlankText fragment.text

/-- The text that is placed on the command line. -/
def word (fragment : Fragment) : String :=
  Text.trim fragment.text

end Fragment

end Invocation
