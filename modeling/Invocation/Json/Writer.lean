import Invocation.Json.Basic
import Invocation.Number.Layout

/-!
# JSON text of a value

`compact` writes a value without blanks, `pretty` with one item or member a line, indented by two spaces.
-/

namespace Invocation

/-- Doubles are written positionally when the leading digit has a power from −5 to 15, and with a signed
exponent otherwise. -/
def Layout.json : Layout :=
  ⟨fun power ↦ -5 ≤ power && power ≤ 15, true⟩

namespace Number

/-- The JSON text of a number. -/
def text : Number → String
  | .int n => toString n
  | .double x => Layout.json.write x

end Number

namespace Json

/-- Four hexadecimal digits. -/
def hexFour (n : Nat) : List Char :=
  let digits := Nat.toDigits 16 n
  List.replicate (4 - digits.length) '0' ++ digits

/-- The characters that stand for one character in a JSON string. -/
def escapeChar (c : Char) : List Char :=
  if c = '"' then ['\\', '"']
  else if c = '\\' then ['\\', '\\']
  else if c = '\n' then ['\\', 'n']
  else if c = '\r' then ['\\', 'r']
  else if c = '\t' then ['\\', 't']
  else if c = '\x08' then ['\\', 'b']
  else if c = '\x0c' then ['\\', 'f']
  else if c.toNat < 32 then ['\\', 'u'] ++ hexFour c.toNat
  else [c]

/-- The JSON text of a string. -/
def stringText (s : String) : String :=
  String.ofList ('"' :: s.toList.flatMap escapeChar ++ ['"'])

mutual

/-- The text of a value without blanks. -/
def compact : Json → String
  | .null => "null"
  | .bool true => "true"
  | .bool false => "false"
  | .number n => n.text
  | .string s => stringText s
  | .array items => "[" ++ String.intercalate "," (compactItems items) ++ "]"
  | .object members => "\x7b" ++ String.intercalate "," (compactMembers members) ++ "\x7d"

/-- The texts of the items. -/
def compactItems : List Json → List String
  | [] => []
  | item :: rest => compact item :: compactItems rest

/-- The texts of the members, each with its key. -/
def compactMembers : List (String × Json) → List String
  | [] => []
  | member :: rest => (stringText member.1 ++ ":" ++ compact member.2) :: compactMembers rest

end

/-- A line break and the indentation of a nesting depth. -/
def newline (depth : Nat) : String :=
  "\n" ++ String.ofList (List.replicate (2 * depth) ' ')

/-- Lines between brackets; nothing but the brackets when there are none. -/
def block (opening closing : String) (depth : Nat) (lines : List String) : String :=
  if lines.isEmpty then opening ++ closing
  else
    opening ++ newline (depth + 1) ++ String.intercalate ("," ++ newline (depth + 1)) lines
      ++ newline depth ++ closing

mutual

/-- The indented text of a value that stands at a nesting depth. -/
def prettyAt (depth : Nat) : Json → String
  | .array items => block "[" "]" depth (prettyItems (depth + 1) items)
  | .object members => block "\x7b" "\x7d" depth (prettyMembers (depth + 1) members)
  | value => compact value

/-- The indented texts of the items. -/
def prettyItems (depth : Nat) : List Json → List String
  | [] => []
  | item :: rest => prettyAt depth item :: prettyItems depth rest

/-- The indented texts of the members, each with its key. -/
def prettyMembers (depth : Nat) : List (String × Json) → List String
  | [] => []
  | member :: rest =>
    (stringText member.1 ++ ": " ++ prettyAt depth member.2) :: prettyMembers depth rest

end

/-- The text of a value with one item or member a line. -/
def pretty (value : Json) : String :=
  prettyAt 0 value

end Json

end Invocation
