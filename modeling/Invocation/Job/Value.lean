import Invocation.Entries
import Invocation.Json.Writer
import Invocation.Number.Reading

/-!
# Job values

A job gives values to the inputs of a tool.  A job value is a JSON value in which objects that denote a
file or a directory stand apart: they have an identity (a path or a storage location) that is placed on
the command line, and further attributes that only expressions see.
-/

namespace Invocation

/-- What a file reference refers to. -/
inductive FileClass where
  | file
  | directory
  deriving DecidableEq, Inhabited

namespace FileClass

/-- The name of the class in documents. -/
def name : FileClass → String
  | .file => "File"
  | .directory => "Directory"

/-- The class with the given name. -/
def ofName? (name : String) : Option FileClass :=
  if name = "File" then some .file
  else if name = "Directory" then some .directory
  else none

end FileClass

/-- A value of a job. -/
inductive JobValue where
  | null
  | bool (value : Bool)
  | number (value : Number)
  | string (value : String)
  | file (kind : FileClass) (path location : Option String) (extra : List (String × JobValue))
  | list (items : List JobValue)
  | mapping (entries : List (String × JobValue))
  deriving Inhabited

namespace JobValue

/-- The value is null. -/
def isNull : JobValue → Bool
  | .null => true
  | _ => false

/-- The index that a key writes: decimal digits, with an optional plus sign, of a number below `2 ^ 64`. -/
def indexOfKey? (key : String) : Option Nat :=
  let digits :=
    match key.toList with
    | '+' :: rest => rest
    | cs => cs
  if digits.isEmpty || !digits.all Char.isDigit then none
  else
    let n := digitsValue digits
    if n < 2 ^ 64 then some n else none

/-- The value of a mapping at a key, or of a list at the index that the key writes. -/
def get? (key : String) : JobValue → Option JobValue
  | .mapping entries => entries.lookup key
  | .list items => (indexOfKey? key).bind fun index ↦ items[index]?
  | _ => none

/-- The path of a file reference, else its location. -/
def identity (path location : Option String) : String :=
  (path.or location).getD ""

/-- A file reference is replaced by its identity; values inside lists and mappings stay as they are. -/
def unwrapFile : JobValue → JobValue
  | .file _ path location _ => .string (identity path location)
  | value => value

/-- Null, false, zero and the empty string turn a flag or a redirection off; every other value turns it
on. -/
def isTruthy : JobValue → Bool
  | .null => false
  | .bool b => b
  | .string s => !s.isEmpty
  | .number (.int n) => n != 0
  | .number (.double x) => !x.isZero
  | .file .. => true
  | .list _ => true
  | .mapping _ => true

/-- The name of the value's kind in findings. -/
def kindName : JobValue → String
  | .null => "null"
  | .bool _ => "boolean"
  | .number _ => "number"
  | .string _ => "string"
  | .file kind .. => kind.name
  | .list _ => "array"
  | .mapping _ => "object"

/-- The members that state what a file reference refers to. -/
def fileMembers (kind : FileClass) (path location : Option String) : Entries Json :=
  ("class", .string kind.name)
    :: ((path.map fun p ↦ ("path", Json.string p)).toList
      ++ (location.map fun l ↦ ("location", Json.string l)).toList)

mutual

/-- The JSON form of a value. -/
def toJson : JobValue → Json
  | .null => .null
  | .bool b => .bool b
  | .number n => .number n
  | .string s => .string s
  | .file kind path location extra =>
    .object (fileMembers kind path location ++ entriesToJson extra)
  | .list items => .array (itemsToJson items)
  | .mapping entries => .object (entriesToJson entries)

/-- The JSON forms of the items. -/
def itemsToJson : List JobValue → List Json
  | [] => []
  | item :: rest => toJson item :: itemsToJson rest

/-- The JSON forms of the entries. -/
def entriesToJson : List (String × JobValue) → List (String × Json)
  | [] => []
  | entry :: rest => (entry.1, toJson entry.2) :: entriesToJson rest

end

/-- What an object refers to, when its class says so and its path or its location is a string. -/
def fileClassOf? (members : Entries Json) : Option FileClass :=
  match (members.string? "class").bind FileClass.ofName? with
  | some kind =>
    if (members.string? "path").isSome || (members.string? "location").isSome then some kind else none
  | none => none

/-- The attributes of a file reference that do not state what it refers to. -/
def extraEntries {α : Type} (entries : Entries α) : Entries α :=
  Entries.swapErase "location" (Entries.swapErase "path" (Entries.swapErase "class" entries))

/-- The value of an object, given the values of its members. -/
def ofMembers (members : Entries Json) (entries : Entries JobValue) : JobValue :=
  match fileClassOf? members with
  | some kind =>
    .file kind (members.string? "path") (members.string? "location") (extraEntries entries)
  | none => .mapping entries

mutual

/-- The job value that a JSON value denotes. -/
def ofJson : Json → JobValue
  | .null => .null
  | .bool b => .bool b
  | .number n => .number n
  | .string s => .string s
  | .array items => .list (itemsOfJson items)
  | .object members => ofMembers members (entriesOfJson members)

/-- The job values of the items. -/
def itemsOfJson : List Json → List JobValue
  | [] => []
  | item :: rest => ofJson item :: itemsOfJson rest

/-- The job values of the members. -/
def entriesOfJson : List (String × Json) → List (String × JobValue)
  | [] => []
  | member :: rest => (member.1, ofJson member.2) :: entriesOfJson rest

end

end JobValue

namespace Number

/-- The text of a number on a command line: an integral double below `10 ^ 21` has no fraction. -/
def argumentText : Number → String
  | .int n => toString n
  | .double x =>
    if x.isIntegral && x.wholePart < 10 ^ 21 then toString x.toInt
    else (Number.double x).text

end Number

namespace JobValue

mutual

/-- The text of a value on a command line. -/
def text : JobValue → String
  | .null => "null"
  | .bool true => "true"
  | .bool false => "false"
  | .number n => n.argumentText
  | .string s => s
  | .file _ path location _ => identity path location
  | .list items => String.intercalate "," (itemTexts items)
  | .mapping entries => (Json.object (entriesToJson entries)).compact

/-- The texts of the items. -/
def itemTexts : List JobValue → List String
  | [] => []
  | item :: rest => text item :: itemTexts rest

end

end JobValue

end Invocation
