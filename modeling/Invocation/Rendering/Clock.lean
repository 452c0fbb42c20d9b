import Invocation.Rendering.Basic

/-!
# Renderings on a clock

On a clock every evaluation has a number, counted from zero in the order of `Rendering.trace`, and takes
its own time.  All evaluations start together, so a rendering is finished as soon as the slowest of its
evaluations is.
-/

namespace Invocation

/-- Answers numbered evaluations and says how long each of them takes. -/
structure Clock where
  answer : Nat → Evaluator
  delay : Nat → Nat

/-- The result of a rendering, the time at which it is finished, and the number of the next evaluation. -/
structure Timed (α : Type) where
  result : α
  finished : Nat
  next : Nat
  deriving Inhabited

namespace Rendering

mutual

/-- Runs a rendering whose first evaluation has the given number. -/
def timed (clock : Clock) (number : Nat) : Rendering → Timed Rendered
  | .done result => ⟨result, 0, number⟩
  | .wait call next =>
    let rest := timed clock (number + 1) (next (clock.answer number call))
    { rest with finished := clock.delay number + rest.finished }
  | .join parts combine =>
    let results := timedAll clock number parts
    ⟨combine results.result, results.finished, results.next⟩

/-- Runs the parts, numbering their evaluations one part after the other. -/
def timedAll (clock : Clock) (number : Nat) : List Rendering → Timed (List Rendered)
  | [] => ⟨[], 0, number⟩
  | part :: rest =>
    let first := timed clock number part
    let others := timedAll clock first.next rest
    ⟨first.result :: others.result, max first.finished others.finished, others.next⟩

end

/-! ## Results -/

mutual

/-- Time does not change the result when the answers do not depend on the numbers. -/
theorem result_timed (evaluator : Evaluator) (delay : Nat → Nat) (number : Nat) (rendering : Rendering) :
    (timed ⟨fun _ ↦ evaluator, delay⟩ number rendering).result = run evaluator rendering := by
  match rendering with
  | .done _ => rfl
  | .wait call next =>
    simpa [timed, run] using result_timed evaluator delay (number + 1) (next (evaluator call))
  | .join parts combine => simp [timed, run, result_timedAll evaluator delay number parts]

/-- Time does not change the results of the parts. -/
theorem result_timedAll (evaluator : Evaluator) (delay : Nat → Nat) (number : Nat)
    (parts : List Rendering) :
    (timedAll ⟨fun _ ↦ evaluator, delay⟩ number parts).result = runAll evaluator parts := by
  match parts with
  | [] => rfl
  | part :: rest =>
    simp [timedAll, runAll, result_timed evaluator delay number part,
      result_timedAll evaluator delay _ rest]

end

end Rendering

end Invocation
