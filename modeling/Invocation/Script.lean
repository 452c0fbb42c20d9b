import Invocation.Rendering.Clock

/-!
# Scripted evaluations

A script answers evaluations without an expression language: by the number of the evaluation or by the
whole text of its source.  A script also says how long each evaluation takes, so it serves as a clock.
-/

namespace Invocation

/-- The answers of a script.  Of several entries for one number or one source the last one holds. -/
structure Script where
  outcomes : List (String × Outcome)
  failures : List (Nat × EvaluationError)
  delays : List (Nat × Nat)
  deriving Inhabited

namespace Script

/-- The error of a source that the script does not know. -/
def unscripted (expression : Expression) : EvaluationError :=
  ⟨"ReferenceError", expression.location, "unscripted expression " ++ expression.source⟩

/-- The outcome of a source without an entry: `self` and `job` give the values of the scope. -/
def standard (call : Call) : Outcome :=
  if call.expression.source = "self" then .ok (call.scope.self.getD .null)
  else if call.expression.source = "job" then .ok call.scope.job
  else .error (unscripted call.expression)

/-- Answers the evaluation with the given number: by its failure, by the outcome of its source, or else
from the scope. -/
def answer (script : Script) (number : Nat) : Evaluator := fun call ↦
  match script.failures.reverse.lookup number with
  | some error => .error error
  | none => (script.outcomes.reverse.lookup call.expression.source).getD (standard call)

/-- The time that the evaluation with the given number takes. -/
def delay (script : Script) (number : Nat) : Nat :=
  (script.delays.reverse.lookup number).getD 0

/-- The script as a clock. -/
def clock (script : Script) : Clock :=
  ⟨script.answer, script.delay⟩

end Script

end Invocation
