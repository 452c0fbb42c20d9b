import Invocation.Formula.Evaluation
import Invocation.Template

/-!
# Templates with formulas

The evaluator of expressions: the source is a template whose references are formulas, which see the names
`inputs`, `job`, `self` and `runtime` of the scope.
-/

namespace Invocation

namespace Runtime

/-- The resources as an object. -/
def toJson (runtime : Runtime) : Json :=
  .object [("cores", .number (.int runtime.cores)),
    ("ram_mb", .number (.int runtime.ramMb)),
    ("outdir", .string runtime.outdir),
    ("tmpdir", .string runtime.tmpdir)]

end Runtime

namespace Formula

/-- The names that formulas know in a scope; no value at hand is none. -/
def scopeNames (scope : Scope) : Names :=
  [("inputs", .ofJson scope.inputs.toJson),
    ("job", .ofJson scope.job.toJson),
    ("self", .ofJson ((scope.self.map JobValue.toJson).getD .null)),
    ("runtime", .ofJson scope.runtime.toJson)]

/-- The fault as an error of an expression at a place. -/
def Fault.error (fault : Fault) (location : String) : EvaluationError :=
  ⟨fault.kind, location, fault.message⟩

/-- The JSON value of a formula of an expression at a place; the formula must not be undefined. -/
def value (fuel : Nat) (names : Names) (location source : String) : Except EvaluationError Json :=
  match evaluate fuel names source with
  | .error fault => .error (fault.error location)
  | .ok (.undefined _) => .error ⟨"ReferenceError", location, source ++ " is undefined"⟩
  | .ok value =>
    match value.toJson with
    | .error fault => .error (fault.error location)
    | .ok json => .ok json

/-- Evaluates expressions as templates with formulas, each formula with the same budget of steps. -/
def evaluator (fuel : Nat) : Evaluator :=
  Template.evaluator fun scope ↦ value fuel (scopeNames scope)

end Formula

end Invocation
