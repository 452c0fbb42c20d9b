import Invocation.Proofs.Rendering.Shape
import Invocation.Proofs.Rendering.Steps
import Invocation.Rendering.Clock
import Mathlib.Data.List.Basic

/-!
# Renderings that ask at once

A rendering is static when nothing that it waits for makes it ask for more: its evaluations are all under
way from the start (`pending`).  Then they are the same for every evaluator (`Static.trace_eq`), their
numbers on a clock are counted from the front (`Static.numbered_eq`), and steps only take evaluations away
(`Static.step`).  The renderings of inputs are static (`Shaped.static`).
-/

namespace Invocation.Rendering

/-! ## What is under way -/

mutual

/-- The evaluations that a rendering waits for now, in the order of its parts. -/
def pending : Rendering → List Call
  | .done _ => []
  | .wait call _ => [call]
  | .join parts _ => pendingAll parts

/-- The evaluations that parts wait for now, one part after the other. -/
def pendingAll : List Rendering → List Call
  | [] => []
  | part :: rest => pending part ++ pendingAll rest

end

/-- The evaluations of the parts that are under way follow each other. -/
theorem pendingAll_eq_flatMap (parts : List Rendering) : pendingAll parts = parts.flatMap pending := by
  induction parts with
  | nil => rfl
  | cons part rest ih => rw [pendingAll, ih, List.flatMap_cons]

/-- No outcome of an evaluation makes the rendering ask for another one. -/
inductive Static : Rendering → Prop where
  | done (result : Rendered) : Static (.done result)
  | wait {call : Call} {next : Outcome → Rendering} :
      (∀ outcome, Static (next outcome)) → (∀ outcome, pending (next outcome) = []) →
      Static (.wait call next)
  | join {parts : List Rendering} {combine : List Rendered → Rendered} :
      (∀ part ∈ parts, Static part) → Static (.join parts combine)

/-- A static rendering asks every evaluator for the evaluations that are under way. -/
theorem Static.trace_eq (evaluator : Evaluator) {rendering : Rendering} (h : Static rendering) :
    trace evaluator rendering = pending rendering := by
  induction h with
  | done => rfl
  | wait _ hnext ih => rw [trace, ih, hnext, pending]
  | join _ ih =>
      rw [trace, pending, traceAll_eq_flatMap, pendingAll_eq_flatMap]
      exact List.flatMap_congr ih

/-- A change of the result asks for nothing else. -/
theorem pending_map (f : Rendered → Rendered) (rendering : Rendering) :
    pending (rendering.map f) = pending rendering := by
  cases rendering <;> rfl

/-- A change of the result keeps a rendering static. -/
theorem Static.map {rendering : Rendering} (h : Static rendering) (f : Rendered → Rendered) :
    Static (rendering.map f) := by
  induction h with
  | done => exact .done _
  | wait _ hnext ih => exact .wait ih fun outcome ↦ (pending_map f _).trans (hnext outcome)
  | join hparts _ => exact .join hparts

/-! ## Steps -/

variable {evaluator : Evaluator}

mutual

/-- A step of a static rendering leaves it static, and no evaluation is begun. -/
theorem Static.step {first second : Rendering} (h : Static first)
    (hstep : Step evaluator first second) :
    Static second ∧ (pending second).Sublist (pending first) := by
  cases hstep with
  | answer call next =>
      cases h with
      | wait hstatic hnext =>
          refine ⟨hstatic _, ?_⟩
          rw [hnext]
          exact List.nil_sublist _
  | parts parts others combine hpart =>
      cases h with
      | join hparts =>
          obtain ⟨hothers, hsublist⟩ := static_stepPart hparts hpart
          exact ⟨.join hothers, hsublist⟩
  | combine results combine => exact ⟨.done _, List.nil_sublist _⟩

/-- A step of one of several static parts leaves all of them static, and no evaluation is begun. -/
theorem static_stepPart {parts others : List Rendering} (h : ∀ part ∈ parts, Static part)
    (hstep : StepPart evaluator parts others) :
    (∀ part ∈ others, Static part) ∧ (pendingAll others).Sublist (pendingAll parts) := by
  cases hstep with
  | head part other rest hpart =>
      obtain ⟨hfirst, hrest⟩ := List.forall_mem_cons.1 h
      obtain ⟨hother, hsublist⟩ := hfirst.step hpart
      exact ⟨List.forall_mem_cons.2 ⟨hother, hrest⟩, hsublist.append (.refl _)⟩
  | tail part rest others hrest =>
      obtain ⟨hfirst, hparts⟩ := List.forall_mem_cons.1 h
      obtain ⟨hothers, hsublist⟩ := static_stepPart hparts hrest
      exact ⟨List.forall_mem_cons.2 ⟨hfirst, hothers⟩, (List.Sublist.refl _).append hsublist⟩

end

/-! ## Numbers -/

mutual

/-- The evaluations that a rendering asks a clock for, with their numbers, when the first one has the given
number. -/
def numbered (clock : Clock) (number : Nat) : Rendering → List (Call × Nat)
  | .done _ => []
  | .wait call next => (call, number) :: numbered clock (number + 1) (next (clock.answer number call))
  | .join parts _ => numberedAll clock number parts

/-- The evaluations of the parts with their numbers, which go through all parts. -/
def numberedAll (clock : Clock) (number : Nat) : List Rendering → List (Call × Nat)
  | [] => []
  | part :: rest =>
    numbered clock number part ++ numberedAll clock (timed clock number part).next rest

end

mutual

/-- Clocks that agree on what a rendering asks for give it the same result at the same time. -/
theorem timed_congr {first second : Clock} {number : Nat} {rendering : Rendering}
    (h : ∀ entry ∈ numbered first number rendering,
      first.answer entry.2 entry.1 = second.answer entry.2 entry.1 ∧
        first.delay entry.2 = second.delay entry.2) :
    timed first number rendering = timed second number rendering := by
  match rendering with
  | .done _ => rfl
  | .wait call next =>
    unfold numbered at h
    obtain ⟨⟨hanswer, hdelay⟩, hnext⟩ := List.forall_mem_cons.1 h
    have hrest := timed_congr hnext
    simp only [timed]
    rw [hrest, hdelay, hanswer]
  | .join parts combine =>
    unfold numbered at h
    simp only [timed, timedAll_congr h]

/-- Clocks that agree on what parts ask for give them the same results at the same time. -/
theorem timedAll_congr {first second : Clock} {number : Nat} {parts : List Rendering}
    (h : ∀ entry ∈ numberedAll first number parts,
      first.answer entry.2 entry.1 = second.answer entry.2 entry.1 ∧
        first.delay entry.2 = second.delay entry.2) :
    timedAll first number parts = timedAll second number parts := by
  match parts with
  | [] => rfl
  | part :: rest =>
    unfold numberedAll at h
    obtain ⟨hpart, hrest⟩ := List.forall_mem_append.1 h
    have hfirst := timed_congr hpart
    have hothers := timedAll_congr hrest
    simp only [timedAll]
    rw [← hfirst, hothers]

end

/-- Static parts whose evaluations are numbered from the front have numbers that go through all parts. -/
theorem numberedAll_eq {clock : Clock} {parts : List Rendering}
    (h : ∀ part ∈ parts, ∀ number, numbered clock number part = (pending part).zipIdx number ∧
      (timed clock number part).next = number + (pending part).length) (number : Nat) :
    numberedAll clock number parts = (pendingAll parts).zipIdx number ∧
      (timedAll clock number parts).next = number + (pendingAll parts).length := by
  induction parts generalizing number with
  | nil => exact ⟨rfl, rfl⟩
  | cons part rest ih =>
      obtain ⟨hpart, hrest⟩ := List.forall_mem_cons.1 h
      obtain ⟨hnumbers, hnext⟩ := hpart number
      obtain ⟨hothers, hlast⟩ := ih hrest (number + (pending part).length)
      simp only [numberedAll, timedAll, pendingAll, hnext]
      rw [hnumbers, hothers, hlast, List.zipIdx_append, List.length_append]
      exact ⟨rfl, by omega⟩

/-- The evaluations of a static rendering are numbered from the front, whatever they give and however long
they take. -/
theorem Static.numbered_eq (clock : Clock) {rendering : Rendering} (h : Static rendering)
    (number : Nat) :
    numbered clock number rendering = (pending rendering).zipIdx number ∧
      (timed clock number rendering).next = number + (pending rendering).length := by
  induction h generalizing number with
  | done => exact ⟨rfl, rfl⟩
  | @wait call next _ hnext ih =>
      -- behind the outcome nothing is left to number
      obtain ⟨hnumbers, hlast⟩ := ih (clock.answer number call) (number + 1)
      rw [hnext] at hnumbers hlast
      simp only [numbered, timed, pending]
      exact ⟨by rw [hnumbers]; rfl, hlast⟩
  | join _ ih => exact numberedAll_eq ih number

/-! ## Inputs -/

/-- A rendering that does something with the value of an evaluation without asking for more. -/
theorem static_evaluate {expression : Expression} {scope : Scope} {location : String}
    {use : JobValue → Rendering} (hstatic : ∀ value, Static (use value))
    (hpending : ∀ value, pending (use value) = []) :
    Static (evaluate expression scope location use) := by
  refine .wait (fun outcome ↦ ?_) fun outcome ↦ ?_
  · cases outcome with
    | error => exact .done _
    | ok value => exact hstatic value
  · cases outcome with
    | error => rfl
    | ok value => exact hpending value

/-- A flag asks for its expression at most. -/
theorem static_flag (itemsContext : Option Binding) (binding : Binding) (location : String)
    (value : JobValue) (scope : Scope) :
    Static (flag itemsContext binding location value scope) := by
  unfold flag
  split
  · exact .done _
  · dsimp only
    split
    · exact .done _
    · exact static_evaluate (fun _ ↦ .done _) fun _ ↦ rfl

/-- The renderings of inputs are static. -/
theorem Shaped.static {unknown : Prop} {rendering : Rendering} (h : Shaped unknown rendering) :
    Static rendering := by
  induction h with
  | nothing | unresolved | leaf => exact .done _
  | flag => exact (static_flag _ _ _ _ _).map _
  | composite _ _ _ _ _ ih => exact .join ih

/-- Inputs of every type are rendered statically. -/
theorem static_input (type : InputType) (id : String) (binding : Binding) (location : String)
    (job : JobValue) (given : Option JobValue) (scope : Scope) :
    Static (type.render id binding location job given scope) :=
  (shaped_true type id binding location job given scope).static

end Invocation.Rendering
