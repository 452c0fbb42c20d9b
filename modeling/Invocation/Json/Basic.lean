import Invocation.Entries
import Invocation.Number.Double

/-!
# JSON values

An object keeps its members in order and has each key once (`Json.HasUniqueKeys`).  A number is an
integer when it is written without a fraction and fits 64 bits, and a double otherwise.
-/

namespace Invocation

/-- A JSON number. -/
inductive Number where
  | int (value : Int)
  | double (value : Double)
  deriving DecidableEq, Inhabited

namespace Number

/-- The number as a double. -/
def toDouble : Number → Double
  | .int n => Double.ofInt n
  | .double x => x

/-- The number as a signed 64-bit integer, which a double never is. -/
def toInt64? : Number → Option Int
  | .int n => if -2 ^ 63 ≤ n ∧ n < 2 ^ 63 then some n else none
  | .double _ => none

/-- An integer, or a double without a fraction. -/
def isIntegral : Number → Bool
  | .int _ => true
  | .double x => x.isIntegral

end Number

/-- A JSON value. -/
inductive Json where
  | null
  | bool (value : Bool)
  | number (value : Number)
  | string (value : String)
  | array (items : List Json)
  | object (members : List (String × Json))
  deriving Inhabited

namespace Json

mutual

/-- No object in the value has a key twice. -/
def HasUniqueKeys : Json → Prop
  | .array items => ItemsHaveUniqueKeys items
  | .object members => (members.map Prod.fst).Nodup ∧ MembersHaveUniqueKeys members
  | _ => True

/-- No object in the items has a key twice. -/
def ItemsHaveUniqueKeys : List Json → Prop
  | [] => True
  | item :: rest => HasUniqueKeys item ∧ ItemsHaveUniqueKeys rest

/-- No object in the members' values has a key twice. -/
def MembersHaveUniqueKeys : List (String × Json) → Prop
  | [] => True
  | member :: rest => HasUniqueKeys member.2 ∧ MembersHaveUniqueKeys rest

end

/-- The text of a string. -/
def string? : Json → Option String
  | .string s => some s
  | _ => none

/-- The truth value. -/
def bool? : Json → Option Bool
  | .bool b => some b
  | _ => none

/-- The members of an object. -/
def members? : Json → Option (Entries Json)
  | .object members => some members
  | _ => none

/-- The member of an object with the given key. -/
def get? (key : String) : Json → Option Json
  | .object members => members.lookup key
  | _ => none

/-- The integer, when it fits 64 bits with a sign. -/
def int64? : Json → Option Int
  | .number n => n.toInt64?
  | _ => none

/-- The value is this string. -/
def isString (text : String) : Json → Bool
  | .string s => s == text
  | _ => false

end Json

/-- The text of the string member with the given key. -/
def Entries.string? (members : Entries Json) (key : String) : Option String :=
  (members.lookup key).bind Json.string?

end Invocation
