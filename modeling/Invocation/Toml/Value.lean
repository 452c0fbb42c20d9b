import Invocation.Entries
import Invocation.Number.Double

/-!
# TOML values and tables

A document is a table of tables.  While it is read, a table knows how it was declared, because that
decides whether later lines may add to it: `Table.assign` sets a key, `Table.openTable` and
`Table.openElement` follow the path of a header.
-/

namespace Invocation.Toml

/-- Why a text is no TOML document. -/
inductive Fault where
  | unexpectedEnd
  | unexpected (found : Char)
  | controlCharacter
  | badEscape
  | badNumber
  | badDate
  | badValue
  | tooDeep
  | duplicateKey (key : String)
  | notATable (key : String)
  deriving DecidableEq, Inhabited

namespace Fault

/-- The fault in words. -/
def message : Fault → String
  | unexpectedEnd => "unexpected end of the document"
  | unexpected found => "unexpected character " ++ String.singleton found
  | controlCharacter => "control character"
  | badEscape => "invalid escape"
  | badNumber => "invalid number"
  | badDate => "invalid date or time"
  | badValue => "invalid value"
  | tooDeep => "nested too deeply"
  | duplicateKey key => "duplicate key " ++ key
  | notATable key => "cannot extend the value of " ++ key

end Fault

/-- A value.  Dates and times are kept as they are written. -/
inductive Value where
  | string (value : String)
  | int (value : Int)
  | double (value : Double)
  | bool (value : Bool)
  | date (text : String)
  | array (items : List Value)
  | table (entries : List (String × Value))
  deriving Inhabited

/-- How a table was declared. -/
inductive Declaration where
  /-- By its own header, or as an element of an array. -/
  | header
  /-- As a part of the path of another header. -/
  | path
  /-- As a part of a dotted key. -/
  | dotted
  deriving DecidableEq, Inhabited

/-- What a key of a table that is being read stands for. -/
inductive Node where
  | value (value : Value)
  | table (declared : Declaration) (entries : List (String × Node))
  /-- The elements that headers have opened, the latest first. -/
  | elements (tables : List (List (String × Node)))
  deriving Inhabited

/-- A table that is being read. -/
abbrev Table := Entries Node

namespace Table

/-- Changes the table that the path of a header leads to.  Missing tables are declared on the way; an array
stands for its latest element. -/
def atPath (change : Table → Except Fault Table) : List String → Table → Except Fault Table
  | [], table => change table
  | key :: path, table =>
    match table.lookup key with
    | none => do
      let inner ← atPath change path []
      return table.put key (.table .path inner)
    | some (.table declared inner) => do
      let inner ← atPath change path inner
      return table.put key (.table declared inner)
    | some (.elements (inner :: others)) => do
      let inner ← atPath change path inner
      return table.put key (.elements (inner :: others))
    | some _ => .error (.notATable key)

/-- Sets a dotted key to a value.  The tables on the way are new or belong to dotted keys only. -/
def assign (value : Value) : List String → Table → Except Fault Table
  | [], table => .ok table
  | [key], table =>
    match table.lookup key with
    | none => .ok (table.put key (.value value))
    | some _ => .error (.duplicateKey key)
  | key :: path, table =>
    match table.lookup key with
    | none => do
      let inner ← assign value path []
      return table.put key (.table .dotted inner)
    | some (.table .dotted inner) => do
      let inner ← assign value path inner
      return table.put key (.table .dotted inner)
    | some (.table .path inner) =>
      match path with
      | [_] => .error (.duplicateKey key)
      | path => do
        let inner ← assign value path inner
        return table.put key (.table .path inner)
    | some (.elements (inner :: others)) =>
      match path with
      | [_] => .error (.duplicateKey key)
      | path => do
        let inner ← assign value path inner
        return table.put key (.elements (inner :: others))
    | some (.table .header _) => .error (.duplicateKey key)
    | some _ => .error (.notATable key)

/-- Opens the table of a header; only one that no other line has declared may be opened. -/
def openTable (key : String) (table : Table) : Except Fault Table :=
  match table.lookup key with
  | none => .ok (table.put key (.table .header []))
  | some (.table .path inner) => .ok (table.put key (.table .header inner))
  | some _ => .error (.duplicateKey key)

/-- Opens a further element of an array. -/
def openElement (key : String) (table : Table) : Except Fault Table :=
  match table.lookup key with
  | none => .ok (table.put key (.elements [[]]))
  | some (.elements tables) => .ok (table.put key (.elements ([] :: tables)))
  | some _ => .error (.duplicateKey key)

mutual

/-- The value of a node. -/
def finish : Node → Value
  | .value value => value
  | .table _ entries => .table (finishEntries entries)
  | .elements tables => .array (finishTables tables).reverse

/-- The values of the entries. -/
def finishEntries : List (String × Node) → List (String × Value)
  | [] => []
  | entry :: rest => (entry.1, finish entry.2) :: finishEntries rest

/-- The values of the elements. -/
def finishTables : List (List (String × Node)) → List Value
  | [] => []
  | entries :: rest => .table (finishEntries entries) :: finishTables rest

end

end Table

end Invocation.Toml
