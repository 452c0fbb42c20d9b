import Invocation.Proofs.Assembly.Evaluations
import Invocation.Proofs.Assembly.Targets
import Invocation.Proofs.Assembly.Unresolved
import Invocation.Proofs.Rendering.Components
import Invocation.Proofs.Rendering.Lookup
import Mathlib

/-!
# Tools without expressions

Only evaluations see the whole job, the scope of a value and the runtime.  A tool without expressions
(`Tool.Silent`) asks for none, so that its command line depends on the values of its inputs with a position
alone: no other entry of the job reaches it, nor does the evaluator or the runtime
(`assemble_eq_of_bound`).
-/

namespace Invocation

namespace Rendering

/-- A flag without an expression does not look at its scope. -/
theorem flag_eq_of_scope {binding : Binding} (h : binding.valueFrom = none) (itemsContext : Option Binding)
    (location : String) (value : JobValue) (scope other : Scope) :
    flag itemsContext binding location value scope = flag itemsContext binding location value other := by
  unfold flag
  rw [h]

end Rendering

namespace InputType

/-- The fields of a record do not look at their scopes when none of them does. -/
theorem renderFields_eq_of_scope {fields : List Input} {entries : Entries JobValue}
    (h : ∀ field ∈ fields, ∀ value scope other,
      Input.render field (.mapping entries) (some value) scope =
        Input.render field (.mapping entries) (some value) other) (scope other : Scope) :
    renderFields fields entries scope = renderFields fields entries other := by
  induction fields with
  | nil => rfl
  | cons field rest ih =>
      obtain ⟨hfield, hrest⟩ := List.forall_mem_cons.1 h
      obtain ⟨id, type, binding, location⟩ := field
      unfold renderFields
      rw [ih hrest]
      cases entries.lookup id with
      | none => rfl
      | some value => exact congrArg (· :: renderFields rest entries other) (hfield value _ _)

/-- An input without expressions does not look at its scope. -/
theorem Mute.render_eq_of_scope {type : InputType} (h : type.Mute) {binding : Binding}
    (hbinding : binding.valueFrom = none) (id location : String) (job : JobValue) (given : Option JobValue)
    (scope other : Scope) :
    type.render id binding location job given scope = type.render id binding location job given other := by
  induction h generalizing id binding location job given scope other with
  | primitive | enum | unresolved => rfl
  | boolean itemsContext =>
      unfold render
      cases resolveValue id job given with
      | none => rfl
      | some value =>
          dsimp only
          rw [Rendering.flag_eq_of_scope hbinding itemsContext location value scope other]
  | @array items itemBinding _ hitems ih =>
      unfold render
      cases resolveValue id job given with
      | none => rfl
      | some value =>
          have hparts (siblings : JobValue) (index : Nat) (element : JobValue) :
              items.render (toString index) (itemBinding.getD .plain) (elementLocation location index)
                  siblings (some element) (scope.within siblings element) =
                items.render (toString index) (itemBinding.getD .plain) (elementLocation location index)
                  siblings (some element) (other.within siblings element) :=
            ih hitems _ _ _ _ _ _
          simp only [hparts]
  | @record fields _ hfields ih =>
      unfold render
      cases resolveValue id job given with
      | none => rfl
      | some value =>
          have hparts : renderFields fields value.entries scope = renderFields fields value.entries other :=
            renderFields_eq_of_scope (fun field hfield own scope other ↦
              ih field hfield (hfields field hfield) _ _ _ _ _ _) scope other
          simp only [hparts]

end InputType

/-- Nothing that the target is rendered with has an expression.  A redirection always has one. -/
def Target.Silent : Target → Prop
  | .input declared => declared.type.Mute ∧ declared.binding.valueFrom = none
  | .argument declared => declared.literal.isSome = true ∨ declared.binding.valueFrom = none
  | .stream _ => False

namespace Target

variable {target : Target}

/-- A target without expressions is rendered in the same way for jobs with the same value for its id. -/
theorem Silent.render_eq (h : target.Silent) {job other : JobValue}
    (hjobs : ∀ declared, target = .input declared → job.get? declared.id = other.get? declared.id)
    (scope another : Scope) : target.render job none scope = target.render other none another := by
  cases target with
  | input declared =>
      have hvalue : resolveValue declared.id job none = resolveValue declared.id other none := by
        unfold resolveValue
        rw [hjobs declared rfl]
      show declared.type.render _ _ _ job none scope = declared.type.render _ _ _ other none another
      rw [InputType.render_congr hvalue, h.1.render_eq_of_scope h.2 _ _ _ _ scope another]
  | argument declared =>
      unfold render Argument.render
      dsimp only
      cases hliteral : declared.literal with
      | some text => rfl
      | none =>
          have hsilent : declared.binding.valueFrom = none :=
            h.resolve_left (by rw [hliteral]; decide)
          rw [hsilent]
  | stream declared => exact h.elim

/-- A target without expressions evaluates nothing. -/
theorem Silent.calls_eq_nil (h : target.Silent) (job : JobValue) (scope : Scope) :
    target.calls job scope = [] := by
  cases target with
  | input declared =>
      rw [← pending_render]
      exact Rendering.pending_eq_nil_of_mute h.1 h.2 _ _ _ _ _
  | argument declared =>
      unfold calls
      dsimp only
      cases hliteral : declared.literal with
      | some text => rfl
      | none =>
          have hsilent : declared.binding.valueFrom = none :=
            h.resolve_left (by rw [hliteral]; decide)
          rw [hsilent]
  | stream declared => exact h.elim

end Target

namespace Tool

/-- The tool has no expressions: no redirections, only arguments that are literal or have no expression, and
none in the bindings and types of its inputs with a position. -/
structure Silent (tool : Tool) : Prop where
  stdin : tool.stdin = none
  stdout : tool.stdout = none
  arguments : ∀ declared ∈ tool.arguments,
    declared.argument.literal.isSome = true ∨ declared.argument.binding.valueFrom = none
  bindings : ∀ declared ∈ tool.inputs, declared.position.isSome = true →
    declared.input.binding.valueFrom = none
  types : ∀ declared ∈ tool.inputs, declared.position.isSome = true → declared.input.type.Mute

variable {tool : Tool}

/-- The entries of a tool without expressions have none. -/
theorem Silent.of_mem_targets (h : tool.Silent) {target : Target} (htarget : target ∈ tool.targets) :
    target.Silent := by
  rcases mem_targets_iff.1 htarget with ⟨declared, hdeclared, rfl⟩ |
    ⟨declared, hdeclared, hposition, rfl⟩ | ⟨stream, hstream, rfl⟩
  · exact h.arguments declared hdeclared
  · exact ⟨h.types declared hdeclared hposition, h.bindings declared hdeclared hposition⟩
  · rw [h.stdin, h.stdout] at hstream
    rcases hstream with hstream | hstream <;> cases hstream

/-- A tool without expressions evaluates nothing. -/
theorem Silent.evaluations_eq_nil (h : tool.Silent) (job : JobValue) (runtime : Runtime) :
    tool.evaluations job runtime = [] :=
  List.flatMap_eq_nil_iff.2 fun _ htarget ↦ (h.of_mem_targets htarget).calls_eq_nil _ _

/-- The entries of a tool without expressions have the same renderings for jobs with the same values for its
inputs with a position. -/
theorem Silent.renderings_eq (h : tool.Silent) {job other : JobValue}
    (hjobs : ∀ declared ∈ tool.inputs, declared.position.isSome = true →
      job.get? declared.input.id = other.get? declared.input.id) (runtime changed : Runtime) :
    tool.renderings job runtime = tool.renderings other changed := by
  refine List.map_congr_left fun target htarget ↦ ?_
  refine (h.of_mem_targets htarget).render_eq (fun input hinput ↦ ?_) _ _
  subst hinput
  obtain ⟨declared, hdeclared, hposition, rfl⟩ := input_mem_targets_iff.1 htarget
  exact hjobs declared hdeclared hposition

/-- A tool without expressions depends on the values of its inputs with a position alone.  When two jobs with their
defaults have the same values for them, the same entries are started for both, nothing is evaluated, and every two
evaluators give the same command line without errors, whatever the resources are. -/
theorem assemble_eq_of_bound (h : tool.Silent) {job other : JobValue}
    (hjobs : ∀ declared ∈ tool.inputs, declared.position.isSome = true →
      (tool.withDefaults job).get? declared.input.id = (tool.withDefaults other).get? declared.input.id)
    (runtime changed : Runtime) :
    tool.started job runtime = tool.started other changed ∧ tool.evaluations job runtime = [] ∧
    ∀ evaluator another : Evaluator,
      tool.assemble evaluator job runtime = tool.assemble another other changed ∧
        (tool.assemble evaluator job runtime).findings.errors = [] := by
  have hrenderings := h.renderings_eq hjobs runtime changed
  have hevaluations := h.evaluations_eq_nil job runtime
  refine ⟨congrArg Assembling.start hrenderings, hevaluations, fun evaluator another ↦ ⟨?_, ?_⟩⟩
  · -- the evaluators agree on all that they are asked for, which is nothing
    have hresults : tool.results evaluator job runtime = tool.results another other changed := by
      unfold results
      rw [← hrenderings, ← Rendering.runAll_eq_map, ← Rendering.runAll_eq_map]
      refine Rendering.runAll_congr fun call hcall ↦ ?_
      have hcalls := calls_eq_of_static evaluator tool job runtime
      unfold calls at hcalls
      rw [hcalls, hevaluations] at hcall
      cases hcall
    rw [assemble_eq_gather, assemble_eq_gather, hresults]
  · have hreports := reports_assemble evaluator tool job runtime
    rw [calls_eq_of_static, hevaluations] at hreports
    exact List.forall₂_nil_right_iff.1 hreports

/-- A tool with a record of a name and marks as its only input with a position.  Its note has an expression, but
no position. -/
def stamp : Tool where
  id := none
  version := .v1
  baseCommand := ["stamp"]
  arguments := [⟨⟨some "--all", .plain, "document.arguments[0]"⟩, 0⟩]
  inputs :=
    [⟨⟨"label", .record
        [⟨"name", .primitive .string, .plain, "document.inputs[0].type.fields[0]"⟩,
         ⟨"marks", .array (.boolean (some { flag := some "-m" })) (some { flag := some "-m" }), .plain,
          "document.inputs[0].type.fields[1]"⟩],
        { flag := some "--label" }, "document.inputs[0]"⟩, none, some 1, false⟩,
     ⟨⟨"note", .primitive .string, { valueFrom := some ⟨"self", "document.inputs[1]"⟩ },
        "document.inputs[1]"⟩, some (.string "new"), none, false⟩]
  stdin := none
  stdout := none

/-- A label with two marks, one of which is on. -/
def markedLabel : JobValue :=
  .mapping [("marks", .list [.bool true, .bool false]), ("name", .string "a")]

/-- The stamp has no expressions. -/
theorem silent_stamp : stamp.Silent where
  stdin := rfl
  stdout := rfl
  arguments := by simp [stamp]
  bindings := by simp [stamp]
  types := by
    have hfields : (InputType.record
        [⟨"name", .primitive .string, .plain, "document.inputs[0].type.fields[0]"⟩,
         ⟨"marks", .array (.boolean (some { flag := some "-m" })) (some { flag := some "-m" }), .plain,
          "document.inputs[0].type.fields[1]"⟩]).Mute := by
      refine .record (fun field hfield ↦ ?_) (fun field hfield ↦ ?_)
      · rcases List.mem_pair.1 hfield with rfl | rfl
        · exact .primitive .string
        · exact .array (.boolean _) rfl
      · rcases List.mem_pair.1 hfield with rfl | rfl <;> rfl
    simpa [stamp] using hfields

/-- Two jobs with the same label but other notes give the same command line, for an evaluator that always fails and
for one that never does. -/
theorem assemble_eq_of_bound_stamp :
    let job := JobValue.mapping [("label", markedLabel)]
    let other := JobValue.mapping [("note", .list []), ("label", markedLabel), ("seal", .number (.int 1))]
    stamp.assemble (failAll "TimedOut") job {} = stamp.assemble Assembling.selfOrLate other { cores := 4 } ∧
      (stamp.assemble (failAll "TimedOut") job {}).findings.errors = [] ∧
      (stamp.assemble (failAll "TimedOut") job {}).commandLine = "stamp --all --label a -m" := by
  intro job other
  have hjobs : ∀ declared ∈ stamp.inputs, declared.position.isSome = true →
      (stamp.withDefaults job).get? declared.input.id = (stamp.withDefaults other).get? declared.input.id := by
    intro declared hdeclared hposition
    rcases List.mem_pair.1 hdeclared with rfl | rfl
    · rfl
    · cases hposition
  obtain ⟨-, -, hassemble⟩ := assemble_eq_of_bound silent_stamp hjobs {} { cores := 4 }
  obtain ⟨hsame, herrors⟩ := hassemble (failAll "TimedOut") Assembling.selfOrLate
  exact ⟨hsame, herrors, by cbv⟩

end Tool

end Invocation
