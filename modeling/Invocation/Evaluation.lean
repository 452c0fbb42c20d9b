import Invocation.Job.Value

/-!
# Evaluation of expressions

An expression is a source text with the place at which it was declared.  It is evaluated in a scope; the
outcome is a job value or an error of a named kind.  An evaluator is any function from expressions and
scopes to outcomes.
-/

namespace Invocation

/-- The source of an expression and the place of its declaration. -/
structure Expression where
  source : String
  location : String
  deriving DecidableEq, Inhabited

/-- A failed evaluation. -/
structure EvaluationError where
  kind : String
  location : String
  message : String
  deriving DecidableEq, Inhabited

namespace EvaluationError

/-- The error in one line of text. -/
def line (error : EvaluationError) : String :=
  error.kind ++ " at " ++ error.location ++ ": " ++ error.message

end EvaluationError

/-- The resources that expressions see as `runtime`. -/
structure Runtime where
  cores : Nat := 1
  ramMb : Nat := 1024
  outdir : String := "."
  tmpdir : String := "/tmp"
  deriving DecidableEq, Inhabited

/-- What an expression sees: the job of the whole run, the job of the nearest enclosing list or record,
the value at hand, and the resources. -/
structure Scope where
  inputs : JobValue
  job : JobValue
  self : Option JobValue
  runtime : Runtime
  deriving Inhabited

namespace Scope

/-- The scope outside every list and record. -/
def top (inputs : JobValue) (runtime : Runtime) : Scope :=
  ⟨inputs, inputs, none, runtime⟩

/-- The scope of an element or a field: its list or record, and its own value. -/
def within (scope : Scope) (job self : JobValue) : Scope :=
  ⟨scope.inputs, job, some self, scope.runtime⟩

/-- The same scope with the value at hand. -/
def withSelf (scope : Scope) (self : JobValue) : Scope :=
  scope.within scope.job self

end Scope

/-- The outcome of an evaluation. -/
abbrev Outcome := Except EvaluationError JobValue

/-- One evaluation that is asked for. -/
structure Call where
  expression : Expression
  scope : Scope
  deriving Inhabited

/-- Answers evaluations. -/
abbrev Evaluator := Call → Outcome

end Invocation
