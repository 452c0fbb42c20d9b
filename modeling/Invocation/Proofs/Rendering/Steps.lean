import Invocation.Rendering.Basic
import Mathlib.Logic.Relation

/-!
# Renderings step by step

All evaluations that a rendering waits for are under way at the same time, at every depth of its joins.
`Step evaluator first second` says that one of them completes, or that a join whose parts are all done
puts their results together.  Whatever the order of the steps, the result is that of `run`
(`steps_run_eq`), every rendering can be brought to its end (`steps_done`), and no rendering steps
forever (`Step.work_lt`).
-/

namespace Invocation.Rendering

mutual

/-- `Step evaluator first second` says that one evaluation of `first` completes, or one of its joins. -/
inductive Step (evaluator : Evaluator) : Rendering → Rendering → Prop where
  | answer (call : Call) (next : Outcome → Rendering) :
      Step evaluator (.wait call next) (next (evaluator call))
  | parts (parts others : List Rendering) (combine : List Rendered → Rendered) :
      StepPart evaluator parts others →
      Step evaluator (.join parts combine) (.join others combine)
  | combine (results : List Rendered) (combine : List Rendered → Rendered) :
      Step evaluator (.join (results.map .done) combine) (.done (combine results))

/-- `StepPart evaluator parts others` says that exactly one part, at any place, takes a step. -/
inductive StepPart (evaluator : Evaluator) : List Rendering → List Rendering → Prop where
  | head (part other : Rendering) (rest : List Rendering) :
      Step evaluator part other → StepPart evaluator (part :: rest) (other :: rest)
  | tail (part : Rendering) (rest others : List Rendering) :
      StepPart evaluator rest others → StepPart evaluator (part :: rest) (part :: others)

end

/-- Any number of steps. -/
abbrev Steps (evaluator : Evaluator) : Rendering → Rendering → Prop :=
  Relation.ReflTransGen (Step evaluator)

/-- Any number of steps of the parts of a join. -/
abbrev StepsPart (evaluator : Evaluator) : List Rendering → List Rendering → Prop :=
  Relation.ReflTransGen (StepPart evaluator)

variable {evaluator : Evaluator}

/-! ## The result does not depend on the order -/

/-- The results of parts that are done are their results. -/
theorem runAll_map_done (results : List Rendered) :
    runAll evaluator (results.map .done) = results := by
  induction results with
  | nil => rfl
  | cons result rest ih =>
      show result :: runAll evaluator (rest.map .done) = result :: rest
      rw [ih]

mutual

/-- A step leaves the result as it is. -/
theorem Step.run_eq {first second : Rendering} (h : Step evaluator first second) :
    run evaluator second = run evaluator first := by
  cases h with
  | answer call next => rfl
  | parts parts others combine hpart => simp only [run, hpart.runAll_eq]
  | combine results combine => simp only [run, runAll_map_done]

/-- A step of one part leaves the results of all parts as they are. -/
theorem StepPart.runAll_eq {parts others : List Rendering} (h : StepPart evaluator parts others) :
    runAll evaluator others = runAll evaluator parts := by
  cases h with
  | head part other rest hstep => simp only [runAll, hstep.run_eq]
  | tail part rest others hrest => simp only [runAll, hrest.runAll_eq]

end

/-- Steps in any order leave the result as it is. -/
theorem steps_run_eq {first last : Rendering} (h : Steps evaluator first last) :
    run evaluator last = run evaluator first := by
  induction h with
  | refl => rfl
  | tail _ hstep ih => rw [hstep.run_eq, ih]

/-! ## Every rendering can be brought to its end -/

/-- What the parts can do, a join can do. -/
theorem StepsPart.join {parts others : List Rendering} (h : StepsPart evaluator parts others)
    (combine : List Rendered → Rendered) :
    Steps evaluator (.join parts combine) (.join others combine) := by
  induction h with
  | refl => exact .refl
  | tail _ hstep ih => exact ih.tail (.parts _ _ combine hstep)

/-- The first part may take its steps before the others. -/
theorem Steps.head_part {part other : Rendering} (h : Steps evaluator part other)
    (rest : List Rendering) : StepsPart evaluator (part :: rest) (other :: rest) := by
  induction h with
  | refl => exact .refl
  | tail _ hstep ih => exact ih.tail (.head _ _ rest hstep)

/-- The other parts may take their steps while the first one rests. -/
theorem StepsPart.tail_parts {rest others : List Rendering} (h : StepsPart evaluator rest others)
    (part : Rendering) : StepsPart evaluator (part :: rest) (part :: others) := by
  induction h with
  | refl => exact .refl
  | tail _ hstep ih => exact ih.tail (.tail part _ _ hstep)

mutual

/-- Every rendering can be brought to its end. -/
theorem steps_done (rendering : Rendering) :
    Steps evaluator rendering (.done (run evaluator rendering)) := by
  match rendering with
  | .done _ => exact .refl
  | .wait call next => exact .head (.answer call next) (steps_done (next (evaluator call)))
  | .join parts combine =>
    exact ((steps_parts_done parts).join combine).tail (.combine (runAll evaluator parts) combine)

/-- The parts can be brought to their ends, one after the other. -/
theorem steps_parts_done (parts : List Rendering) :
    StepsPart evaluator parts ((runAll evaluator parts).map .done) := by
  match parts with
  | [] => exact .refl
  | part :: rest =>
    have hfirst := (steps_done part).head_part rest
    have hothers := (steps_parts_done rest).tail_parts (.done (run evaluator part))
    exact hfirst.trans hothers

end

/-- A rendering that is not done can take a step. -/
theorem exists_step {rendering : Rendering} (h : ∀ result, rendering ≠ .done result) :
    ∃ next, Step evaluator rendering next := by
  have hsteps : Steps evaluator rendering (.done (run evaluator rendering)) := steps_done rendering
  rcases hsteps.cases_head with heq | ⟨next, hstep, _⟩
  · exact absurd heq (h _)
  · exact ⟨next, hstep⟩

/-! ## No rendering steps forever -/

mutual

/-- The number of steps that a rendering has in front of it. -/
def work (evaluator : Evaluator) : Rendering → Nat
  | .done _ => 0
  | .wait call next => work evaluator (next (evaluator call)) + 1
  | .join parts _ => workAll evaluator parts + 1

/-- The number of steps that parts have in front of them. -/
def workAll (evaluator : Evaluator) : List Rendering → Nat
  | [] => 0
  | part :: rest => work evaluator part + workAll evaluator rest

end

mutual

/-- A step reduces the work. -/
theorem Step.work_lt {first second : Rendering} (h : Step evaluator first second) :
    work evaluator second < work evaluator first := by
  cases h with
  | answer call next => simp only [work, Nat.lt_add_one]
  | parts parts others combine hpart =>
      have := hpart.workAll_lt
      simp only [work]
      omega
  | combine results combine =>
      simp only [work]
      omega

/-- A step of one part reduces the work of all parts. -/
theorem StepPart.workAll_lt {parts others : List Rendering} (h : StepPart evaluator parts others) :
    workAll evaluator others < workAll evaluator parts := by
  cases h with
  | head part other rest hstep =>
      have := hstep.work_lt
      simp only [workAll]
      omega
  | tail part rest others hrest =>
      have := hrest.workAll_lt
      simp only [workAll]
      omega

end

end Invocation.Rendering
