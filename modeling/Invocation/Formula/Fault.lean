/-!
# Faults of formulas

Why a formula has no value.  Each fault has a kind, which reports and tokens name, and a text that ends
with a note that it was met inside an expression.
-/

namespace Invocation.Formula

/-- Why a formula has no value. -/
inductive Fault where
  /-- The text is no formula. -/
  | malformed (text : String)
  /-- A string has an escape that names no character. -/
  | badEscape
  /-- A named block of the document is asked for, and formulas have none. -/
  | unknownBlock (name : String)
  /-- An undefined value is used where a value is needed. -/
  | undefinedValue
  /-- An operation does not apply to its operands. -/
  | invalid (text : String)
  /-- The budget of steps is spent. -/
  | outOfFuel
  deriving DecidableEq, Inhabited

namespace Fault

/-- The name of the fault's kind. -/
def kind : Fault → String
  | malformed _ => "SyntaxError"
  | badEscape => "EvaluationError"
  | unknownBlock _ => "EvaluationError"
  | undefinedValue => "ReferenceError"
  | invalid _ => "TypeError"
  | outOfFuel => "TimeoutError"

/-- The note that closes every text. -/
def note : String := " (in <expression>)"

/-- The fault in words. -/
def message : Fault → String
  | malformed text => text ++ note
  | badEscape => "bad string escape" ++ note
  | unknownBlock name => "unknown block: block " ++ name ++ " not found" ++ note
  | undefinedValue => "undefined value" ++ note
  | invalid text => text ++ note
  | outOfFuel => "out of fuel" ++ note

end Fault

end Invocation.Formula
