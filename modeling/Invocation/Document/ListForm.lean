import Invocation.Json.Basic

/-!
# Lists written as objects

A list of named things may be written as an object that maps the names to the things.  An entry of it is
an object, or the value of one member of that object; either way the name becomes a member unless the
object has one.
-/

namespace Invocation.Document

/-- The entries with a further one behind them, unless the key is known. -/
def addMissing (key : String) (value : Json) (members : Entries Json) : Entries Json :=
  if members.hasKey key then members else members ++ [(key, value)]

/-- The members of an entry with a name.  A value that is no object stands for the member `shorthand`;
`naming` is the member that holds the name. -/
def entryMembers (naming shorthand name : String) (value : Json) : Entries Json :=
  addMissing naming (.string name) (value.members?.getD [(shorthand, value)])

/-- The items of a list, or of an object that stands for one; nothing else has items. -/
def listForm (naming shorthand : String) : Option Json → List Json
  | some (.array items) => items
  | some (.object members) =>
    members.map fun member ↦ .object (entryMembers naming shorthand member.1 member.2)
  | _ => []

end Invocation.Document
