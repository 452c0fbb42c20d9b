import Invocation.Proofs.Assembly.Failures
import Invocation.Proofs.Rendering.Flags

/-!
# Evaluations of an assembly

What an assembly evaluates is settled before it begins: the expressions of its arguments, of the flags
inside of its inputs and of its redirections, in the order of the command line (`Tool.evaluations`).  All
of them are started together, no outcome of one of them makes another one start, and their numbers on a
clock depend neither on outcomes nor on time.
-/

namespace Invocation

namespace Tool

/-- The evaluations of a tool for a job, in the order of the command line. -/
def evaluations (tool : Tool) (job : JobValue) (runtime : Runtime) : List Call :=
  let job := tool.withDefaults job
  tool.targets.flatMap fun target ↦ target.calls job (.top job runtime)

/-- The entries of a tool are rendered statically. -/
theorem static_renderings (tool : Tool) (job : JobValue) (runtime : Runtime) :
    ∀ rendering ∈ tool.renderings job runtime, rendering.Static := by
  intro rendering hmem
  obtain ⟨target, _, rfl⟩ := List.mem_map.1 hmem
  exact target.static_render job none _

/-- The evaluations of a tool are under way from the start. -/
theorem pendingAll_renderings (tool : Tool) (job : JobValue) (runtime : Runtime) :
    Rendering.pendingAll (tool.renderings (tool.withDefaults job) runtime) =
      tool.evaluations job runtime := by
  unfold renderings evaluations
  rw [Rendering.pendingAll_eq_flatMap, List.flatMap_map]
  exact List.flatMap_congr fun target _ ↦ target.pending_render _ _

/-- Every evaluator is asked for the evaluations of a tool. -/
theorem calls_eq_of_static (evaluator : Evaluator) (tool : Tool) (job : JobValue) (runtime : Runtime) :
    tool.calls evaluator job runtime = tool.evaluations job runtime := by
  rw [← tool.pendingAll_renderings, calls, Rendering.traceAll_eq_flatMap,
    Rendering.pendingAll_eq_flatMap]
  exact List.flatMap_congr fun rendering hmem ↦
    (tool.static_renderings _ runtime rendering hmem).trace_eq evaluator

end Tool

/-! ## Steps -/

namespace Stage

/-- The evaluations that an entry waits for now. -/
def waiting : Stage → List Call
  | .pending rendering => rendering.pending
  | _ => []

/-- The evaluations that an entry asks for until it has finished. -/
def asked (evaluator : Evaluator) : Stage → List Call
  | .pending rendering => rendering.trace evaluator
  | _ => []

/-- What the entry still has to do is static. -/
def Static (stage : Stage) : Prop :=
  ∀ rendering, stage = .pending rendering → rendering.Static

/-- A static entry asks only for what it waits for. -/
theorem Static.asked_eq {stage : Stage} (h : stage.Static) (evaluator : Evaluator) :
    stage.asked evaluator = stage.waiting := by
  cases stage with
  | pending rendering => exact (h rendering rfl).trace_eq evaluator
  | finished | dropped => rfl

/-- A static entry that advances stays static and begins no evaluation. -/
theorem Static.advance {evaluator : Evaluator} {first second : Stage} (h : first.Static)
    (hadvance : first.Advance evaluator second) :
    second.Static ∧ second.waiting.Sublist first.waiting := by
  cases hadvance with
  | step rendering next hstep =>
      obtain ⟨hnext, hsublist⟩ := (h rendering rfl).step hstep
      refine ⟨?_, hsublist⟩
      rintro _ ⟨⟩
      exact hnext
  | finish result => exact ⟨nofun, List.nil_sublist _⟩

end Stage

namespace Assembling

/-- The evaluations that are under way, in the order of the command line. -/
def waiting (state : Assembling) : List Call :=
  state.entries.flatMap Stage.waiting

/-- The evaluations that the entries ask for until they have finished. -/
def asked (evaluator : Evaluator) (state : Assembling) : List Call :=
  state.entries.flatMap (Stage.asked evaluator)

/-- What the entries still have to do is static. -/
def Static (state : Assembling) : Prop :=
  ∀ stage ∈ state.entries, stage.Static

variable {evaluator : Evaluator}

/-- Putting one entry in the place of another keeps all entries static, and begins no evaluation when the
new one waits for nothing else. -/
theorem static_replace {before after : List Stage} {first second : Stage}
    (h : ∀ stage ∈ before ++ first :: after, stage.Static)
    (hsecond : second.Static ∧ second.waiting.Sublist first.waiting) :
    (∀ stage ∈ before ++ second :: after, stage.Static) ∧
      ((before ++ second :: after).flatMap Stage.waiting).Sublist
        ((before ++ first :: after).flatMap Stage.waiting) := by
  obtain ⟨hbefore, hafter⟩ := List.forall_mem_append.1 h
  constructor
  · exact List.forall_mem_append.2 ⟨hbefore, List.forall_mem_cons.2
      ⟨hsecond.1, (List.forall_mem_cons.1 hafter).2⟩⟩
  · simp only [List.flatMap_append, List.flatMap_cons]
    exact (List.Sublist.refl _).append (hsecond.2.append (.refl _))

/-- A step of a static assembly leaves it static and begins no evaluation. -/
theorem Static.step {first second : Assembling} (h : first.Static)
    (hstep : Step evaluator first second) :
    second.Static ∧ second.waiting.Sublist first.waiting := by
  cases hstep with
  | advance before after stage next hadvance =>
      have hstage : stage.Static := h stage (by simp)
      exact static_replace h (hstage.advance hadvance)
  | cancel entries => exact ⟨h, .refl _⟩
  | drop before after rendering => exact static_replace h ⟨nofun, List.nil_sublist _⟩

/-- A run of a static assembly leaves it static and begins no evaluation. -/
theorem Static.steps {first last : Assembling} (h : first.Static) (hrun : Steps evaluator first last) :
    last.Static ∧ last.waiting.Sublist first.waiting := by
  induction hrun with
  | refl => exact ⟨h, .refl _⟩
  | tail _ hstep ih =>
      obtain ⟨hstatic, hsublist⟩ := ih.1.step hstep
      exact ⟨hstatic, hsublist.trans ih.2⟩

/-- A static assembly asks every evaluator only for what it waits for. -/
theorem Static.asked_eq {state : Assembling} (h : state.Static) (other : Evaluator) :
    state.asked other = state.waiting :=
  List.flatMap_congr fun stage hstage ↦ (h stage hstage).asked_eq other

/-- The state in which the entries of a tool are started is static. -/
theorem static_started (tool : Tool) (job : JobValue) (runtime : Runtime) :
    (tool.started job runtime).Static := by
  intro stage hmem
  obtain ⟨rendering, hrendering, rfl⟩ := List.mem_map.1 hmem
  rintro _ ⟨⟩
  exact tool.static_renderings _ runtime rendering hrendering

/-- In the state in which the entries of a tool are started all its evaluations are under way. -/
theorem waiting_started (tool : Tool) (job : JobValue) (runtime : Runtime) :
    (tool.started job runtime).waiting = tool.evaluations job runtime := by
  rw [← tool.pendingAll_renderings, Rendering.pendingAll_eq_flatMap]
  exact List.flatMap_map ..

end Assembling

/-! ## Numbers -/

namespace Tool

/-- Clocks that agree on what renderings ask for keep the same results before a deadline. -/
theorem beforeDeadline_congr {first second : Clock} (deadline : Option Nat) {number : Nat}
    {renderings : List Rendering}
    (h : ∀ entry ∈ Rendering.numberedAll first number renderings,
      first.answer entry.2 entry.1 = second.answer entry.2 entry.1 ∧
        first.delay entry.2 = second.delay entry.2) :
    beforeDeadline first deadline number renderings =
      beforeDeadline second deadline number renderings := by
  induction renderings generalizing number with
  | nil => rfl
  | cons rendering rest ih =>
      unfold Rendering.numberedAll at h
      obtain ⟨hfirst, hrest⟩ := List.forall_mem_append.1 h
      unfold beforeDeadline
      rw [← Rendering.timed_congr hfirst]
      exact congrArg _ (ih hrest)

/-- What a tool evaluates for a job does not depend on evaluations.  Every evaluator is asked for the same
evaluations in the same order.  They are all under way when the entries are started, and however the steps
interleave, what is still asked for is what is under way of them.  On a clock they are numbered in their
order, and the clock is asked for nothing but these numbers. -/
theorem calls_eq_evaluations (tool : Tool) (job : JobValue) (runtime : Runtime) :
    (∀ evaluator, tool.calls evaluator job runtime = tool.evaluations job runtime) ∧
    (tool.started job runtime).waiting = tool.evaluations job runtime ∧
    (∀ evaluator state, Assembling.Steps evaluator (tool.started job runtime) state →
      state.waiting.Sublist (tool.evaluations job runtime) ∧
        ∀ other : Evaluator, state.asked other = state.waiting) ∧
    (∀ clock, Rendering.numberedAll clock 0 (tool.renderings (tool.withDefaults job) runtime) =
      (tool.evaluations job runtime).zipIdx) ∧
    (∀ (first second : Clock) (deadline : Option Nat),
      (∀ entry ∈ (tool.evaluations job runtime).zipIdx,
        first.answer entry.2 entry.1 = second.answer entry.2 entry.1 ∧
          first.delay entry.2 = second.delay entry.2) →
      tool.assembleTimed first deadline job runtime =
        tool.assembleTimed second deadline job runtime) := by
  have hstatic := tool.static_renderings (tool.withDefaults job) runtime
  have hnumbered (clock : Clock) :
      Rendering.numberedAll clock 0 (tool.renderings (tool.withDefaults job) runtime) =
        (tool.evaluations job runtime).zipIdx := by
    rw [← tool.pendingAll_renderings]
    exact (Rendering.numberedAll_eq (fun part hpart number ↦
      (hstatic part hpart).numbered_eq clock number) 0).1
  refine ⟨fun evaluator ↦ calls_eq_of_static evaluator tool job runtime,
    Assembling.waiting_started tool job runtime, ?_, hnumbered, ?_⟩
  · intro evaluator state hrun
    obtain ⟨hlast, hsublist⟩ := (Assembling.static_started tool job runtime).steps hrun
    rw [Assembling.waiting_started] at hsublist
    exact ⟨hsublist, hlast.asked_eq⟩
  · intro first second deadline hagree
    unfold assembleTimed
    rw [beforeDeadline_congr deadline (by rwa [hnumbered])]

end Tool

open Assembling in
/-- An argument and two flags are evaluated.  When the second flag has failed, the argument and the first
flag are still under way, and nothing else is asked for.  A clock that would be slow with a fourth
evaluation makes no difference. -/
theorem calls_eq_evaluations_slowEcho :
    (slowEcho.evaluations twoFlags {}).map (fun call ↦ call.expression.source) =
      ["slow", "self", "self"] ∧
    (∃ state, Steps (failAll "TimedOut") (slowEcho.started twoFlags {}) state ∧
      state.waiting.map (fun call ↦ call.expression.source) = ["slow", "self"] ∧
      state.waiting.Sublist (slowEcho.evaluations twoFlags {}) ∧
      state.asked selfOrLate = state.waiting) ∧
    slowEcho.assembleTimed ⟨fun _ ↦ selfOrLate, fun _ ↦ 0⟩ (some 7) twoFlags {} =
      slowEcho.assembleTimed ⟨fun _ ↦ selfOrLate, fun number ↦ if number < 3 then 0 else 9⟩ (some 7)
        twoFlags {} := by
  have hsources : (slowEcho.evaluations twoFlags {}).map (fun call ↦ call.expression.source) =
      ["slow", "self", "self"] := by
    unfold Tool.evaluations
    rw [targets_slowEcho]
    rfl
  obtain ⟨_, _, hsteps, _, hclocks⟩ := Tool.calls_eq_evaluations slowEcho twoFlags {}
  obtain ⟨state, hrun, hwaiting⟩ : ∃ state,
      Steps (failAll "TimedOut") (slowEcho.started twoFlags {}) state ∧
        state.waiting.map (fun call ↦ call.expression.source) = ["slow", "self"] := by
    unfold Tool.started Tool.renderings
    rw [targets_slowEcho]
    exact ⟨_, .head (.advance [_, _] [] _ _ (.step _ _ (.parts _ _ _
      (.tail _ _ _ (.head _ _ _ (.answer _ _)))))) .refl, rfl⟩
  obtain ⟨hsublist, hasked⟩ := hsteps _ state hrun
  refine ⟨hsources, ⟨state, hrun, hwaiting, hsublist, hasked selfOrLate⟩, ?_⟩
  refine hclocks _ _ (some 7) fun entry hentry ↦ ⟨rfl, ?_⟩
  have hnumber : entry.2 < 3 := by
    have hlength : (slowEcho.evaluations twoFlags {}).length = 3 := by
      simpa using congrArg List.length hsources
    have hbound := (List.mem_zipIdx hentry).2.1
    omega
  exact (if_pos hnumber).symm

end Invocation
