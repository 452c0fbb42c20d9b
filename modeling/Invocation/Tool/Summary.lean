import Invocation.Findings
import Invocation.Tool.Description

/-!
# Summary of a tool

The static check of a tool: how many inputs and arguments it has, and a warning for each type without a
meaning that an input or a field of it declares.
-/

namespace Invocation

/-- The counts and findings of a static check. -/
structure ToolSummary where
  version : DocumentVersion
  inputs : Nat
  boundInputs : Nat
  optionalInputs : Nat
  arguments : Nat
  findings : Findings
  deriving DecidableEq, Inhabited

/-- The warning for a type without a meaning. -/
def unresolvedType (id location tag : String) : Findings :=
  .warning .unresolvedType location ("unresolved type '" ++ tag ++ "' for " ++ id)

namespace InputType

mutual

/-- The warnings for the types without a meaning in the type of a parameter with this id and place.  The
items of an array are reported for the parameter, the fields of a record for themselves. -/
def unresolvedWithin (id location : String) : InputType → Findings
  | .unresolved tag => unresolvedType id location tag
  | .array items _ => unresolvedWithin id location items
  | .record fields => unresolvedFields fields
  | _ => .none

/-- The warnings for the fields of a record. -/
def unresolvedFields : List (Parameter InputType) → Findings
  | [] => .none
  | ⟨id, type, _, location⟩ :: rest => unresolvedWithin id location type ++ unresolvedFields rest

end

end InputType

namespace Tool

/-- The static check of a tool. -/
def summary (tool : Tool) : ToolSummary where
  version := tool.version
  inputs := tool.inputs.length
  boundInputs := tool.inputs.countP fun input ↦ input.position.isSome
  optionalInputs := tool.inputs.countP ToolInput.optional
  arguments := tool.arguments.length
  findings := InputType.unresolvedFields (tool.inputs.map ToolInput.input)

end Tool

end Invocation
