import Invocation.Tool.Type

/-!
# Tool descriptions

A tool is a base command, arguments that it adds itself, inputs that a job gives values to, and
redirections of its standard streams.
-/

namespace Invocation

/-- The versions of tool documents. -/
inductive DocumentVersion where
  | v1
  | draft2
  deriving DecidableEq, Inhabited

namespace DocumentVersion

/-- The name of the version in reports. -/
def name : DocumentVersion → String
  | .v1 => "v1.0"
  | .draft2 => "sbg:draft-2"

/-- The version that a document states; a document that states none has the newer one. -/
def ofName? : Option String → Option DocumentVersion
  | none => some .v1
  | some name =>
    if name = "v1.0" then some .v1
    else if name = "draft-2" ∨ name = "sbg:draft-2" then some .draft2
    else none

end DocumentVersion

/-- An argument that a tool adds itself: literal text, or else the value of its binding. -/
structure Argument where
  literal : Option String
  binding : Binding
  location : String
  deriving DecidableEq, Inhabited

/-- The standard streams that can be redirected. -/
inductive StreamKind where
  | stdin
  | stdout
  deriving DecidableEq, Inhabited

namespace StreamKind

/-- The name of the stream. -/
def name : StreamKind → String
  | .stdin => "stdin"
  | .stdout => "stdout"

/-- The redirection operator with its space. -/
def operator : StreamKind → String
  | .stdin => "< "
  | .stdout => "> "

end StreamKind

/-- A redirection to the file that an expression names. -/
structure Stream where
  kind : StreamKind
  expression : Expression
  location : String
  deriving DecidableEq, Inhabited

/-- An argument with its position. -/
structure ToolArgument where
  argument : Argument
  position : Int
  deriving DecidableEq, Inhabited

/-- An input of a tool.  An input without a position is not placed on the command line. -/
structure ToolInput where
  input : Input
  default : Option JobValue
  position : Option Int
  optional : Bool
  deriving Inhabited

/-- A tool. -/
structure Tool where
  id : Option String
  version : DocumentVersion
  baseCommand : List String
  arguments : List ToolArgument
  inputs : List ToolInput
  stdin : Option Stream
  stdout : Option Stream
  deriving Inhabited

namespace Tool

/-- The first input with the given id. -/
def input? (tool : Tool) (id : String) : Option ToolInput :=
  tool.inputs.find? fun input ↦ input.input.id == id

end Tool

end Invocation
