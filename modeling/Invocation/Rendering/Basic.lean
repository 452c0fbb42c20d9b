import Invocation.Evaluation
import Invocation.Findings
import Invocation.Fragment

/-!
# Renderings

A rendering is work that ends in a fragment and findings.  It may wait for the outcome of an evaluation,
and it may combine the results of parts, which do not depend on each other.  `run` answers every
evaluation with an evaluator; `trace` lists the evaluations that a run asks for.
-/

namespace Invocation

/-- The result of a rendering.  No fragment means that there is nothing to place on the command line,
which differs from a fragment with an empty text. -/
structure Rendered where
  fragment : Option Fragment
  findings : Findings
  deriving DecidableEq, Inhabited

namespace Rendered

/-- Nothing to place on the command line. -/
def nothing : Rendered := ⟨none, .none⟩

/-- A fragment without findings. -/
def ofFragment (fragment : Fragment) : Rendered := ⟨some fragment, .none⟩

/-- The result with findings that were met earlier. -/
def after (earlier : Findings) (result : Rendered) : Rendered :=
  ⟨result.fragment, earlier ++ result.findings⟩

/-- The text of the fragment. -/
def text? (result : Rendered) : Option String :=
  result.fragment.map Fragment.text

end Rendered

/-- Work that ends in a fragment and findings. -/
inductive Rendering where
  | done (result : Rendered)
  /-- Waits for the outcome of an evaluation. -/
  | wait (call : Call) (next : Outcome → Rendering)
  /-- Combines the results of independent parts, in their order. -/
  | join (parts : List Rendering) (combine : List Rendered → Rendered)
  deriving Inhabited

namespace Rendering

/-- Changes the result of a rendering. -/
def map (f : Rendered → Rendered) : Rendering → Rendering
  | .done result => .done (f result)
  | .wait call next => .wait call fun outcome ↦ (next outcome).map f
  | .join parts combine => .join parts fun results ↦ f (combine results)

mutual

/-- The result when the evaluator answers each evaluation. -/
def run (evaluator : Evaluator) : Rendering → Rendered
  | .done result => result
  | .wait call next => run evaluator (next (evaluator call))
  | .join parts combine => combine (runAll evaluator parts)

/-- The results of the parts. -/
def runAll (evaluator : Evaluator) : List Rendering → List Rendered
  | [] => []
  | part :: rest => run evaluator part :: runAll evaluator rest

end

mutual

/-- The evaluations that a run asks for, in order. -/
def trace (evaluator : Evaluator) : Rendering → List Call
  | .done _ => []
  | .wait call next => call :: trace evaluator (next (evaluator call))
  | .join parts _ => traceAll evaluator parts

/-- The evaluations of the parts, one part after the other. -/
def traceAll (evaluator : Evaluator) : List Rendering → List Call
  | [] => []
  | part :: rest => trace evaluator part ++ traceAll evaluator rest

end

/-- Parts are run one by one. -/
theorem runAll_eq_map (evaluator : Evaluator) (parts : List Rendering) :
    runAll evaluator parts = parts.map (run evaluator) := by
  induction parts with
  | nil => rfl
  | cons part rest ih => simp [runAll, ih]

/-- The evaluations of the parts follow each other. -/
theorem traceAll_eq_flatMap (evaluator : Evaluator) (parts : List Rendering) :
    traceAll evaluator parts = parts.flatMap (trace evaluator) := by
  induction parts with
  | nil => rfl
  | cons part rest ih => simp [traceAll, ih]

/-- A change of the result is applied when the rendering has ended. -/
theorem run_map (evaluator : Evaluator) (f : Rendered → Rendered) (rendering : Rendering) :
    run evaluator (rendering.map f) = f (run evaluator rendering) := by
  match rendering with
  | .done _ => rfl
  | .wait call next => simpa [map, run] using run_map evaluator f (next (evaluator call))
  | .join _ _ => rfl

/-- A change of the result asks for no evaluation. -/
theorem trace_map (evaluator : Evaluator) (f : Rendered → Rendered) (rendering : Rendering) :
    trace evaluator (rendering.map f) = trace evaluator rendering := by
  match rendering with
  | .done _ => rfl
  | .wait call next => simpa [map, trace] using trace_map evaluator f (next (evaluator call))
  | .join _ _ => rfl

end Rendering

end Invocation
