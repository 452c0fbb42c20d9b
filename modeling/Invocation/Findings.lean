/-!
# Findings

A finding is a recoverable problem met at a place in a document.  Findings are collected as errors and
warnings, each in the order in which they were met.
-/

namespace Invocation

/-- The kind of a finding. -/
inductive Issue where
  | typeMismatch
  | expressionEvaluationError
  | unresolvedType
  | undeclaredField
  | graph
  deriving DecidableEq, Inhabited

namespace Issue

/-- Every kind of finding. -/
def all : List Issue :=
  [.typeMismatch, .expressionEvaluationError, .unresolvedType, .undeclaredField, .graph]

/-- The name of the kind in reports. -/
def name : Issue → String
  | .typeMismatch => "TypeMismatch"
  | .expressionEvaluationError => "ExpressionEvaluationError"
  | .unresolvedType => "UnresolvedType"
  | .undeclaredField => "UndeclaredField"
  | .graph => "Graph"

/-- The kind with the given name. -/
def ofName? (name : String) : Option Issue :=
  all.find? fun issue ↦ issue.name == name

end Issue

/-- One finding. -/
structure Finding where
  location : String
  message : String
  issue : Issue
  deriving DecidableEq, Inhabited

namespace Finding

/-- The finding as one line of text. -/
def line (finding : Finding) : String :=
  finding.location ++ ": " ++ finding.message

end Finding

/-- Errors and warnings of one document or one rendering. -/
structure Findings where
  errors : List Finding
  warnings : List Finding
  deriving DecidableEq, Inhabited

namespace Findings

/-- No findings. -/
def none : Findings := ⟨[], []⟩

/-- One error. -/
def error (issue : Issue) (location message : String) : Findings :=
  ⟨[⟨location, message, issue⟩], []⟩

/-- One warning. -/
def warning (issue : Issue) (location message : String) : Findings :=
  ⟨[], [⟨location, message, issue⟩]⟩

/-- The findings of two parts, the first part's before the second's. -/
def append (first second : Findings) : Findings :=
  ⟨first.errors ++ second.errors, first.warnings ++ second.warnings⟩

instance : Append Findings := ⟨append⟩

/-- The findings of several parts, in order. -/
def concat (parts : List Findings) : Findings :=
  ⟨parts.flatMap errors, parts.flatMap warnings⟩

/-- There are neither errors nor warnings. -/
def isEmpty (findings : Findings) : Bool :=
  findings.errors.isEmpty && findings.warnings.isEmpty

/-- There are errors. -/
def hasErrors (findings : Findings) : Bool :=
  !findings.errors.isEmpty

/-- The lines of a report: errors, then warnings. -/
def lines (findings : Findings) : List String :=
  findings.errors.map Finding.line ++ findings.warnings.map Finding.line

/-- The errors of two parts stand in their order. -/
theorem errors_append (first second : Findings) :
    (first ++ second).errors = first.errors ++ second.errors := rfl

/-- The warnings of two parts stand in their order. -/
theorem warnings_append (first second : Findings) :
    (first ++ second).warnings = first.warnings ++ second.warnings := rfl

/-- Nothing is found exactly when there are no findings. -/
theorem isEmpty_iff (findings : Findings) : findings.isEmpty = true ↔ findings = .none := by
  obtain ⟨errors, warnings⟩ := findings
  simp [isEmpty, none]

/-- Two parts have errors when one of them has. -/
theorem hasErrors_append (first second : Findings) :
    (first ++ second).hasErrors = (first.hasErrors || second.hasErrors) := by
  obtain ⟨errors, _⟩ := first
  cases errors <;> simp [hasErrors, errors_append]

end Findings

end Invocation
