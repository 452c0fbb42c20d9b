/-!
# Faults of documents

A document that cannot be read has a fault at a place.  Places are paths such as
`document.inputs[0].type.fields[1]`; `child` and `elementAt` extend them.
-/

namespace Invocation

/-- What makes a part of a document unreadable. -/
inductive DocumentFault where
  | toolNotObject
  | unsupportedVersion (name : String)
  | baseCommandItem
  | baseCommandForm
  | inputNotObject
  | inputWithoutId
  | fieldNotObject
  | fieldWithoutName
  | enumWithoutSymbols
  | argumentsForm
  | argumentForm
  | expressionForm
  | expressionWithoutScript
  | workflowNotObject
  | stepWithoutId
  | outputWithoutId
  deriving DecidableEq, Inhabited

namespace DocumentFault

/-- The fault in words. -/
def message : DocumentFault → String
  | toolNotObject => "tool must be an object"
  | unsupportedVersion name => "unsupported version " ++ name
  | baseCommandItem => "expected strings"
  | baseCommandForm => "expected a string or an array of strings"
  | inputNotObject => "input must be an object"
  | inputWithoutId => "input is missing an id"
  | fieldNotObject => "field must be an object"
  | fieldWithoutName => "field is missing a name"
  | enumWithoutSymbols => "enum is missing symbols"
  | argumentsForm => "expected an array"
  | argumentForm => "argument must be a string or an object"
  | expressionForm => "expected an expression"
  | expressionWithoutScript => "expression is missing a script"
  | workflowNotObject => "workflow must be an object"
  | stepWithoutId => "step is missing an id"
  | outputWithoutId => "output is missing an id"

end DocumentFault

/-- A fault of a document at a place. -/
structure DocumentError where
  location : String
  fault : DocumentFault
  deriving DecidableEq, Inhabited

namespace DocumentError

/-- The error in one line of text. -/
def line (error : DocumentError) : String :=
  error.location ++ ": " ++ error.fault.message

end DocumentError

namespace Document

/-- The place of a whole document. -/
def root : String := "document"

/-- The place of a member of an object at a place. -/
def child (location name : String) : String :=
  location ++ "." ++ name

/-- The place of an item of a list at a place. -/
def elementAt (location : String) (index : Nat) : String :=
  location ++ "[" ++ toString index ++ "]"

end Document

end Invocation
