import Invocation.Document.Types

/-!
# Reading tool documents

`readTool` reads a tool from a JSON value.  The first fault in the order version, base command, inputs,
arguments, standard input, standard output is the one that is reported.
-/

namespace Invocation.Document

/-- Reads the version that a document states. -/
def readVersion (members : Entries Json) : Reading DocumentVersion :=
  let name := members.string? "cwlVersion"
  match DocumentVersion.ofName? name with
  | some version => .ok version
  | none => .error ⟨child root "cwlVersion", .unsupportedVersion (name.getD "")⟩

/-- Reads the words of a base command. -/
def readBaseCommand (members : Entries Json) : Reading (List String) :=
  let location := child root "baseCommand"
  match members.lookup "baseCommand" with
  | none => .ok []
  | some (.string word) => .ok [word]
  | some (.array items) =>
    items.mapM fun item ↦
      match item.string? with
      | some word => .ok word
      | none => .error ⟨location, .baseCommandItem⟩
  | some _ => .error ⟨location, .baseCommandForm⟩

/-- The position that a binding states: a whole number of 64 bits, else zero. -/
def positionOf (members : Entries Json) : Int :=
  ((members.lookup "position").bind Json.int64?).getD 0

/-- Reads an input; it has a position exactly when it has a binding. -/
def readInput (version : DocumentVersion) (location : String) (raw : Json) : Reading ToolInput :=
  match raw.members? with
  | none => .error ⟨location, .inputNotObject⟩
  | some members =>
    match members.string? "id" with
    | none => .error ⟨location, .inputWithoutId⟩
    | some id => do
      let (type, optional) ← readTypeAt version (child location "type") "type" members
      let raw := members.lookup "inputBinding"
      let binding ← readBinding? version (child location "inputBinding") raw
      return {
        input := ⟨plainName version id, type, binding.getD .plain, location⟩
        default := (members.lookup "default").map JobValue.ofJson
        position := (raw.bind Json.members?).map positionOf
        optional }

/-- A reference or a function body starts somewhere in the text, so that it is no literal text. -/
def hasReference : List Char → Bool
  | '$' :: '(' :: _ => true
  | '$' :: '\x7b' :: _ => true
  | _ :: rest => hasReference rest
  | [] => false

/-- Reads an argument: text without a reference is literal, an object is a binding. -/
def readArgument (version : DocumentVersion) (location : String) : Json → Reading ToolArgument
  | .string text =>
    if hasReference text.toList then
      .ok ⟨⟨none, { Binding.plain with valueFrom := some ⟨text, location⟩ }, location⟩, 0⟩
    else .ok ⟨⟨some text, .plain, location⟩, 0⟩
  | .object members => do
    let binding ← readBinding version location members
    return ⟨⟨none, binding, location⟩, positionOf members⟩
  | _ => .error ⟨location, .argumentForm⟩

/-- Reads the arguments. -/
def readArguments (version : DocumentVersion) (members : Entries Json) :
    Reading (List ToolArgument) :=
  let location := child root "arguments"
  match members.lookup "arguments" with
  | none => .ok []
  | some (.array items) => readItems (readArgument version) location 0 items
  | some _ => .error ⟨location, .argumentsForm⟩

/-- Reads a redirection, if there is one. -/
def readStream (version : DocumentVersion) (kind : StreamKind) (members : Entries Json) :
    Reading (Option Stream) := do
  let location := child root kind.name
  let expression ← readExpression? version location (members.lookup kind.name)
  return expression.map fun expression ↦ ⟨kind, expression, location⟩

/-- Reads a tool. -/
def readTool (raw : Json) : Reading Tool :=
  match raw.members? with
  | none => .error ⟨root, .toolNotObject⟩
  | some members => do
    let version ← readVersion members
    let baseCommand ← readBaseCommand members
    let inputs ← readItems (readInput version) (child root "inputs") 0
      (listForm "id" "type" (members.lookup "inputs"))
    let arguments ← readArguments version members
    let stdin ← readStream version .stdin members
    let stdout ← readStream version .stdout members
    return {
      id := (members.string? "id").map (plainName version)
      version
      baseCommand
      arguments
      inputs
      stdin
      stdout }

end Invocation.Document
