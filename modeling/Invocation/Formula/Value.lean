import Invocation.Formula.Fault
import Invocation.Json.Writer
import Invocation.Number.Word
import Invocation.Text.Quoted

/-!
# Values of formulas

The values that formulas compute with: those of JSON with whole numbers of up to 128 bits, undefined
values, functions, and maps with keys of every kind, ordered by the keys.  Here are their kinds, texts,
order and equality.
-/

namespace Invocation

/-- Doubles are written positionally at every power. -/
def Layout.plainText : Layout :=
  ⟨fun _ ↦ true, false⟩

/-- Doubles inside lists and maps are written positionally for powers from −4 to 15. -/
def Layout.nestedText : Layout :=
  ⟨fun power ↦ -4 ≤ power && power < 16, false⟩

namespace Formula

/-- How a list came about: computed lists are of another kind than stored ones. -/
inductive ListForm where
  | stored
  | computed
  deriving DecidableEq, Inhabited

/-- Why there is no value: nothing stands at a name or a place, or a conditional without a second branch
was not taken. -/
inductive Absence where
  | missing
  | untaken
  deriving DecidableEq, Inhabited

/-- The functions that formulas can call. -/
inductive Callable where
  | range
  | dict
  | fields
  | inspect
  deriving DecidableEq, Inhabited

namespace Callable

/-- The name of the function. -/
def name : Callable → String
  | range => "range"
  | dict => "dict"
  | fields => "namespace"
  | inspect => "debug"

/-- The function of a name. -/
def ofName? (text : String) : Option Callable :=
  [range, dict, fields, inspect].find? (·.name == text)

end Callable

/-- A value of a formula. -/
inductive Value where
  | undefined (absence : Absence)
  | none
  | bool (value : Bool)
  | int (word : Word) (value : Int)
  | double (value : Double)
  | string (value : String)
  | list (form : ListForm) (items : List Value)
  /-- The entries are ordered by their keys, each key once. -/
  | map (entries : List (Value × Value))
  | function (callable : Callable)
  deriving Inhabited

/-- The kinds of values, in the order in which values of different kinds are sorted. -/
inductive Kind where
  | undefined
  | none
  | bool
  | number
  | string
  | sequence
  | map
  | iterable
  | function
  deriving DecidableEq, Inhabited

namespace Kind

/-- The name of the kind in messages. -/
def name : Kind → String
  | undefined => "undefined"
  | none => "none"
  | bool => "bool"
  | number => "number"
  | string => "string"
  | sequence => "sequence"
  | map => "map"
  | iterable => "iterator"
  | function => "plain object"

end Kind

namespace Value

/-- The kind of a value. -/
def kind : Value → Kind
  | undefined _ => .undefined
  | none => .none
  | bool _ => .bool
  | int _ _ => .number
  | double _ => .number
  | string _ => .string
  | list .stored _ => .sequence
  | list .computed _ => .iterable
  | map _ => .map
  | function _ => .function

/-- Nothing stands where the value should be; most uses of it are faults. -/
def missing : Value :=
  undefined .missing

/-- The value is undefined. -/
def isUndefined : Value → Bool
  | undefined _ => true
  | _ => false

/-- Nothing stands where the value should be. -/
def isMissing : Value → Bool
  | undefined .missing => true
  | _ => false

/-- The text of a string. -/
def string? : Value → Option String
  | string s => some s
  | _ => Option.none

/-- A computed whole number. -/
def ofInt (n : Int) : Value :=
  int (Word.ofSigned n) n

/-- A counted or written whole number. -/
def ofNat (n : Nat) : Value :=
  int (Word.ofUnsigned n) n

/-- A list with stored items. -/
def ofItems (items : List Value) : Value :=
  list .stored items

/-- A list with computed items. -/
def ofComputed (items : List Value) : Value :=
  list .computed items

/-- The strings of single characters. -/
def characters (text : String) : List Value :=
  text.toList.map fun c ↦ string (String.singleton c)

/-- Undefined values and none, false, zero and everything empty are false. -/
def isTrue : Value → Bool
  | undefined _ => false
  | none => false
  | bool b => b
  | int _ n => n != 0
  | double x => !x.isZero
  | string s => !s.isEmpty
  | list _ items => !items.isEmpty
  | map entries => !entries.isEmpty
  | function _ => true

/-- The number of characters, items or entries. -/
def length? : Value → Option Nat
  | string s => some s.length
  | list _ items => some items.length
  | map entries => some entries.length
  | _ => Option.none

/-- What iterating gives: characters, items or keys.  Undefined values and none have nothing to give. -/
def iterate? : Value → Option (List Value)
  | undefined _ => some []
  | none => some []
  | string s => some (characters s)
  | list _ items => some items
  | map entries => some (entries.map Prod.fst)
  | _ => Option.none

/-- The text of a double; `layout` decides where an exponent is written. -/
def doubleText (layout : Layout) (x : Double) : String :=
  if x.isNaN then "NaN"
  else if !x.isFinite then (if x.isNegative then "-inf" else "inf")
  else layout.write x

mutual

/-- The text of a value inside a list or a map. -/
def nestedText : Value → String
  | undefined _ => "undefined"
  | none => "None"
  | bool b => if b then "True" else "False"
  | int _ n => toString n
  | double x => doubleText .nestedText x
  | string s => Text.quoted s
  | list _ items => "[" ++ String.intercalate ", " (itemTexts items) ++ "]"
  | map entries => "\x7b" ++ String.intercalate ", " (entryTexts entries) ++ "\x7d"
  | function callable => "<function " ++ callable.name ++ ">"

/-- The texts of the items. -/
def itemTexts : List Value → List String
  | [] => []
  | item :: rest => nestedText item :: itemTexts rest

/-- The texts of the entries. -/
def entryTexts : List (Value × Value) → List String
  | [] => []
  | entry :: rest => (nestedText entry.1 ++ ": " ++ nestedText entry.2) :: entryTexts rest

end

/-- The text of a value. -/
def text : Value → String
  | undefined _ => ""
  | double x => doubleText .plainText x
  | string s => s
  | value => value.nestedText

/-! ## Numbers -/

/-- The whole number of 128 bits with a sign that a number or a truth value is; a double is one when the
nearest number of 64 bits with a sign is the same double. -/
def toInt? : Value → Option Int
  | bool b => some (if b then 1 else 0)
  | int _ n => if Word.signed128.holds n then some n else Option.none
  | double x =>
    let n := Word.signed64.clamp x.toInt
    if (Double.ofInt n).numEq x then some n else Option.none
  | _ => Option.none

/-- The double nearest to a number or a truth value. -/
def toDouble? : Value → Option Double
  | bool b => some (Double.ofInt (if b then 1 else 0))
  | int _ n => some (Double.ofInt n)
  | double x => some x
  | _ => Option.none

/-- The double that stands for a number, if the number is what the double gives back in the number's
word. -/
def toExactDouble? : Value → Option Double
  | int word n => if word.clamp (Double.ofInt n).toInt = n then some (Double.ofInt n) else Option.none
  | value => value.toDouble?

/-- Two operands brought to one type. -/
inductive Matched where
  | ints (first second : Int)
  | doubles (first second : Double)
  | strings (first second : String)

/-- Brings two operands to one type: a double draws the other number along, truth values count as whole
numbers, and two words of 128 bits without a sign are read as words with one.  `convert` makes a double of
a number. -/
def matched? (convert : Value → Option Double) : Value → Value → Option Matched
  | string a, string b => some (.strings a b)
  | int .unsigned128 a, int .unsigned128 b => some (.ints (a.bmod (2 ^ 128)) (b.bmod (2 ^ 128)))
  | double a, b => (convert b).map fun b ↦ .doubles a b
  | a, double b => (convert a).map fun a ↦ .doubles a b
  | a, b =>
    match a.toInt?, b.toInt? with
    | some a, some b => some (.ints a b)
    | _, _ => Option.none

/-! ## Order and equality -/

/-- The order of two operands of one type. -/
def Matched.compare : Matched → Ordering
  | .ints a b => Ord.compare a b
  | .doubles a b => Ord.compare a.orderKey b.orderKey
  | .strings a b => Ord.compare a b

/-- Two operands of one type are equal. -/
def Matched.equal : Matched → Bool
  | .ints a b => a == b
  | .doubles a b => a.numEq b
  | .strings a b => a == b

/-- The order of a whole number and a double by their exact sizes. -/
def compareIntDouble (n : Int) (x : Double) : Ordering :=
  if !x.isFinite then (if x.isNegative then .gt else .lt)
  else if n ≠ x.toInt then Ord.compare n x.toInt
  else if x.isIntegral then .eq
  else if x.isNegative then .gt
  else .lt

/-- The order of numbers that cannot be brought to one type, and of functions. -/
def compareApart : Value → Value → Ordering
  | int _ a, int _ b => Ord.compare a b
  | int _ a, double b => compareIntDouble a b
  | double a, int _ b => (compareIntDouble b a).swap
  | function f, function g => Ord.compare f.name g.name
  | _, _ => .eq

/-- The order of values of one kind that have no parts. -/
def compareWhole (first second : Value) : Ordering :=
  match matched? toExactDouble? first second with
  | some operands => operands.compare
  | Option.none => compareApart first second

/-- The order of kinds. -/
def compareKinds (first second : Value) : Ordering :=
  Ord.compare first.kind.ctorIdx second.kind.ctorIdx

mutual

/-- The order of values: first by their kinds, then numbers by size, strings by their characters, lists and
maps by their parts. -/
def compare : Value → Value → Ordering
  | list form items, other =>
    match other with
    | list _ others =>
      (compareKinds (list form []) other).then (compareItems items others)
    | _ => compareKinds (list form []) other
  | map entries, other =>
    match other with
    | map others => compareEntries entries others
    | _ => compareKinds (map []) other
  | value, other => (compareKinds value other).then (compareWhole value other)

/-- The order of lists by their items. -/
def compareItems : List Value → List Value → Ordering
  | [], [] => .eq
  | [], _ :: _ => .lt
  | _ :: _, [] => .gt
  | item :: rest, other :: others => (compare item other).then (compareItems rest others)

/-- The order of maps by their entries. -/
def compareEntries : List (Value × Value) → List (Value × Value) → Ordering
  | [], [] => .eq
  | [], _ :: _ => .lt
  | _ :: _, [] => .gt
  | entry :: rest, other :: others =>
    ((compare entry.1 other.1).then (compare entry.2 other.2)).then (compareEntries rest others)

end

mutual

/-- Equality of values: numbers and truth values by size, lists item by item whatever their form, maps
entry by entry. -/
def equal : Value → Value → Bool
  | undefined _, undefined _ => true
  | none, none => true
  | function f, function g => f == g
  | list _ items, list _ others => equalItems items others
  | map entries, map others => equalEntries entries others
  | value, other => ((matched? toExactDouble? value other).map Matched.equal).getD false

/-- Equality of lists. -/
def equalItems : List Value → List Value → Bool
  | [], [] => true
  | item :: rest, other :: others => equal item other && equalItems rest others
  | _, _ => false

/-- Equality of maps. -/
def equalEntries : List (Value × Value) → List (Value × Value) → Bool
  | [], [] => true
  | entry :: rest, other :: others =>
    (compare entry.1 other.1).isEq && equal entry.2 other.2 && equalEntries rest others
  | _, _ => false

end

/-! ## Maps and lists -/

/-- The entries with a value for a key, in the order of the keys; a known key takes the new value. -/
def insertEntry (key value : Value) : List (Value × Value) → List (Value × Value)
  | [] => [(key, value)]
  | entry :: rest =>
    match compare key entry.1 with
    | .lt => (key, value) :: entry :: rest
    | .eq => (entry.1, value) :: rest
    | .gt => entry :: insertEntry key value rest

/-- The map with the given entries, of which the later ones replace the earlier. -/
def ofEntries (entries : List (Value × Value)) : Value :=
  map (entries.foldl (fun sorted entry ↦ insertEntry entry.1 entry.2 sorted) [])

/-- The value at a key of a map. -/
def lookup? (key : Value) (entries : List (Value × Value)) : Option Value :=
  (entries.find? fun entry ↦ (compare entry.1 key).isEq).map Prod.snd

/-- The position that an index means among this many items; a negative one counts from the end. -/
def position? (count : Nat) (index : Int) : Option Nat :=
  if 0 ≤ index then some index.toNat
  else if index.natAbs ≤ count then some (count - index.natAbs)
  else Option.none

/-- The value at a key or an index, where there is one. -/
def item? (value key : Value) : Option Value :=
  match value with
  | map entries => lookup? key entries
  | list _ items =>
    (key.toInt?.bind (position? items.length)).bind fun position ↦ items[position]?
  | string s =>
    (key.toInt?.bind (position? s.length)).bind fun position ↦
      (s.toList[position]?).map fun c ↦ string (String.singleton c)
  | _ => Option.none

/-- The value at a key or an index, if there is one.  An undefined value has no items. -/
def item (value key : Value) : Except Fault Value :=
  if value.isUndefined then .error .undefinedValue
  else .ok ((value.item? key).getD missing)

/-- The value at a name. -/
def member (value : Value) (name : String) : Except Fault Value :=
  match value with
  | undefined _ => .error .undefinedValue
  | map entries => .ok ((lookup? (string name) entries).getD missing)
  | _ => .ok missing

/-! ## JSON -/

mutual

/-- The value of a JSON value. -/
def ofJson : Json → Value
  | .null => none
  | .bool b => bool b
  | .number (.int n) => int (if 0 ≤ n then .unsigned64 else .signed64) n
  | .number (.double x) => double x
  | .string s => string s
  | .array items => list .stored (itemsOfJson items)
  | .object members => ofEntries (entriesOfJson members)

/-- The values of the items. -/
def itemsOfJson : List Json → List Value
  | [] => []
  | item :: rest => ofJson item :: itemsOfJson rest

/-- The entries of the members. -/
def entriesOfJson : List (String × Json) → List (Value × Value)
  | [] => []
  | member :: rest => (string member.1, ofJson member.2) :: entriesOfJson rest

end

/-- The key of an object that a key of a map is written as. -/
def keyText? : Value → Option String
  | bool b => some (if b then "true" else "false")
  | int _ n => some (toString n)
  | double x => if x.isFinite then some (Number.double x).text else Option.none
  | string s => some s
  | _ => Option.none

/-- A whole number fits a JSON number. -/
def fitsJson (n : Int) : Bool :=
  -2 ^ 63 ≤ n && n < 2 ^ 64

/-- The fault of a value that JSON has no form for. -/
def noJson : Fault := .invalid "the value cannot be written as JSON"

mutual

/-- The JSON form of a value: nothing and infinities become null. -/
def toJson : Value → Except Fault Json
  | undefined _ => .ok .null
  | none => .ok .null
  | bool b => .ok (.bool b)
  | int _ n => if fitsJson n then .ok (.number (.int n)) else .error noJson
  | double x => .ok (if x.isFinite then .number (.double x) else .null)
  | string s => .ok (.string s)
  | list _ items => (itemsToJson items).map Json.array
  | map entries => (entriesToJson entries).map fun members ↦ .object (Entries.ofList members)
  | function callable => .ok (.string (nestedText (function callable)))

/-- The JSON forms of the items. -/
def itemsToJson : List Value → Except Fault (List Json)
  | [] => .ok []
  | item :: rest => do
    let first ← toJson item
    let others ← itemsToJson rest
    return first :: others

/-- The members of the entries. -/
def entriesToJson : List (Value × Value) → Except Fault (List (String × Json))
  | [] => .ok []
  | entry :: rest => do
    match keyText? entry.1 with
    | Option.none => .error noJson
    | some key =>
      let value ← toJson entry.2
      let others ← entriesToJson rest
      return (key, value) :: others

end

end Value

end Formula

end Invocation
