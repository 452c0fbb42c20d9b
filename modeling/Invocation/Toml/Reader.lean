import Invocation.Toml.Scalar

/-!
# Reading TOML documents

A document is a sequence of lines, each of which sets a key or opens a table.  `read` gives the top
table.  Arrays and inline tables may go over several lines, have comments inside and a comma at the end.
-/

namespace Invocation.Toml

/-- The text behind a comment in front; a line break or the end of the text ends it. -/
def skipComment : List Char → Except Fault (List Char)
  | [] => .ok []
  | c :: rest =>
    if (lineBreak? (c :: rest)).isSome then .ok (c :: rest)
    else if isControl c then .error .controlCharacter
    else skipComment rest

/-- The text behind blanks, line breaks and comments. -/
def skipBetween (fuel : Nat) (cs : List Char) : Except Fault (List Char) :=
  match fuel with
  | 0 => .error .unexpectedEnd
  | fuel + 1 =>
    match skipLines cs with
    | '#' :: rest => do
      let rest ← skipComment rest
      skipBetween fuel rest
    | rest => .ok rest

mutual

/-- Reads a value; `depth` levels of nesting are left. -/
def readValue (fuel depth : Nat) (cs : List Char) : Except Fault (Value × List Char) :=
  match fuel with
  | 0 => .error .unexpectedEnd
  | fuel + 1 =>
    match readString? cs with
    | some string => string.map fun (text, rest) ↦ (.string text, rest)
    | none =>
      match cs, depth with
      | '[' :: _, 0 | '\x7b' :: _, 0 => .error .tooDeep
      | '[' :: rest, depth + 1 => do
        let rest ← skipBetween (rest.length + 1) rest
        let (items, rest) ← readItems fuel depth [] rest
        return (.array items, rest)
      | '\x7b' :: rest, depth + 1 => do
        let rest ← skipBetween (rest.length + 1) rest
        let (entries, rest) ← readEntries fuel depth [] rest
        return (.table (Table.finishEntries entries), rest)
      | cs, _ => do
        let (scalar, rest) := spanScalar cs
        if scalar.isEmpty then .error (.atRest cs)
        else
          let value ← scalarOf scalar
          return (value, rest)

/-- Reads the items of an array up to its closing bracket; `done` holds those read, the latest first. -/
def readItems (fuel depth : Nat) (done : List Value) (cs : List Char) :
    Except Fault (List Value × List Char) :=
  match fuel with
  | 0 => .error .unexpectedEnd
  | fuel + 1 =>
    match cs with
    | ']' :: rest => .ok (done.reverse, rest)
    | cs => do
      let (item, rest) ← readValue fuel depth cs
      let rest ← skipBetween (rest.length + 1) rest
      match rest with
      | ',' :: rest => do
        let rest ← skipBetween (rest.length + 1) rest
        readItems fuel depth (item :: done) rest
      | ']' :: rest => return ((item :: done).reverse, rest)
      | rest => .error (.atRest rest)

/-- Reads the entries of an inline table up to its closing brace. -/
def readEntries (fuel depth : Nat) (table : Table) (cs : List Char) :
    Except Fault (Table × List Char) :=
  match fuel with
  | 0 => .error .unexpectedEnd
  | fuel + 1 =>
    match cs with
    | '\x7d' :: rest => .ok (table, rest)
    | cs => do
      let (key, rest) ← readKey (cs.length + 1) cs
      match rest with
      | '=' :: rest => do
        let (value, rest) ← readValue fuel depth (skipSpace rest)
        let table ← Table.assign value key table
        let rest ← skipBetween (rest.length + 1) rest
        match rest with
        | ',' :: rest => do
          let rest ← skipBetween (rest.length + 1) rest
          readEntries fuel depth table rest
        | '\x7d' :: rest => return (table, rest)
        | rest => .error (.atRest rest)
      | rest => .error (.atRest rest)

end

/-- The levels of nesting that a value may have. -/
def depthLimit : Nat := 80

/-- The text behind the end of a line, which may have a comment. -/
def endLine (cs : List Char) : Except Fault (List Char) := do
  let rest ←
    match skipSpace cs with
    | '#' :: rest => skipComment rest
    | rest => .ok rest
  match rest, lineBreak? rest with
  | [], _ => return []
  | _, some rest => return rest
  | rest, none => .error (.atRest rest)

/-- A document that is being read: its top table, and the path of the table that is open. -/
structure Progress where
  table : Table
  path : List String

/-- Opens the table, or a further element of the array, that a header names. -/
def Progress.openPath (progress : Progress) (change : String → Table → Except Fault Table)
    (path : List String) : Except Fault Progress := do
  match path.getLast? with
  | none => return progress
  | some key => do
    let table ← Table.atPath (change key) path.dropLast progress.table
    return ⟨table, path⟩

/-- Sets a key of the open table. -/
def Progress.assign (progress : Progress) (key : List String) (value : Value) :
    Except Fault Progress := do
  let table ← Table.atPath (Table.assign value key) progress.path progress.table
  return { progress with table }

/-- Reads a header behind its opening bracket. -/
def readHeader (progress : Progress) (cs : List Char) : Except Fault (Progress × List Char) :=
  match cs with
  | '[' :: rest => do
    let (path, rest) ← readKey (rest.length + 1) rest
    match rest with
    | ']' :: ']' :: rest => do
      let progress ← progress.openPath Table.openElement path
      return (progress, rest)
    | rest => .error (.atRest rest)
  | rest => do
    let (path, rest) ← readKey (rest.length + 1) rest
    match rest with
    | ']' :: rest => do
      let progress ← progress.openPath Table.openTable path
      return (progress, rest)
    | rest => .error (.atRest rest)

/-- Reads a key and its value. -/
def readAssignment (progress : Progress) (cs : List Char) : Except Fault (Progress × List Char) := do
  let (key, rest) ← readKey (cs.length + 1) cs
  match rest with
  | '=' :: rest => do
    let (value, rest) ← readValue (2 * rest.length + 2) depthLimit (skipSpace rest)
    let progress ← progress.assign key value
    return (progress, rest)
  | rest => .error (.atRest rest)

/-- Reads lines up to the end of the text. -/
def readLines (fuel : Nat) (progress : Progress) (cs : List Char) : Except Fault Progress :=
  match fuel with
  | 0 => .error .unexpectedEnd
  | fuel + 1 => do
    let (progress, rest) ←
      match skipSpace cs with
      | '[' :: rest => readHeader progress rest
      | rest =>
        if rest.isEmpty || rest.head? = some '#' || (lineBreak? rest).isSome then
          .ok (progress, rest)
        else readAssignment progress rest
    let rest ← endLine rest
    if rest.isEmpty then return progress else readLines fuel progress rest

/-- The top table of a document; a mark of the byte order in front is skipped. -/
def read (text : String) : Except Fault (Entries Value) := do
  let cs :=
    match text.toList with
    | '\ufeff' :: rest => rest
    | cs => cs
  let progress ← readLines (cs.length + 1) ⟨[], []⟩ cs
  return Table.finishEntries progress.table

end Invocation.Toml
