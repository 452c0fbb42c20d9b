import Invocation.Proofs.Assembly.Evaluations
import Invocation.Proofs.Assembly.Unresolved
import Invocation.Proofs.Rendering.Surroundings

/-!
# Scopes of the evaluations of an assembly

Every expression of a tool sees the runtime of the assembly, and as the inputs the job with its defaults: under
each key the value of the job, or a default that stands in for it (`JobValue.settled`).  An argument and a
redirection see this job also as the job at hand, and no value; a flag sees its own value, and the nearest list
or record around it (`Tool.Asks`).
-/

namespace Invocation

namespace Tool

/-- `tool.Asks full expression self job` says that the tool evaluates the expression for a job that is `full`
with its defaults, and what the expression sees as the value and as the job at hand. -/
inductive Asks (tool : Tool) (full : JobValue) : Expression → Option JobValue → JobValue → Prop where
  | argument {argument : Argument} {expression : Expression} :
      .argument argument ∈ tool.targets → argument.literal = none →
      argument.binding.valueFrom = some expression → Asks tool full expression none full
  | stream {stream : Stream} :
      .stream stream ∈ tool.targets → Asks tool full stream.expression none full
  | flag {input : Input} {value flagValue : JobValue} {around : List Enclosure} {own : Binding}
      {expression : Expression} :
      .input input ∈ tool.targets → full.get? input.id = some value → value.isNull = false →
      HoldsFlag input.type input.binding value around own flagValue → flagValue.isTruthy = true →
      own.valueFrom = some expression →
      Asks tool full expression (some flagValue) ((around.getLast?.map Enclosure.job).getD full)

end Tool

/-- An input of a command line has the value of the job for its id, unless that is null. -/
theorem resolveValue_eq_some_iff {id : String} {job value : JobValue} :
    resolveValue id job none = some value ↔ job.get? id = some value ∧ value.isNull = false := by
  unfold resolveValue
  rw [Option.filter_none, Option.none_or, Option.filter_eq_some_iff]
  simp

/-- An argument is evaluated in the scope that it is rendered in, unless it has a literal text. -/
theorem Target.mem_calls_argument_iff {argument : Argument} {job : JobValue} {scope : Scope} {call : Call} :
    call ∈ (Target.argument argument).calls job scope ↔
      argument.literal = none ∧ argument.binding.valueFrom = some call.expression ∧ call.scope = scope := by
  obtain ⟨expression, seen⟩ := call
  obtain ⟨literal, binding, location⟩ := argument
  obtain ⟨flag, separate, itemSeparator, valueFrom⟩ := binding
  cases literal with
  | some text => simp [calls]
  | none => cases valueFrom <;> simp [calls, eq_comm]

namespace Tool

variable {tool : Tool} {job : JobValue} {runtime : Runtime} {call : Call}

/-- Where an evaluation comes from decides what its expression sees. -/
theorem mem_evaluations_iff : call ∈ tool.evaluations job runtime ↔
    call.scope.inputs = tool.withDefaults job ∧ call.scope.runtime = runtime ∧
      tool.Asks (tool.withDefaults job) call.expression call.scope.self call.scope.job := by
  obtain ⟨expression, inputs, seen, self, resources⟩ := call
  unfold evaluations
  generalize tool.withDefaults job = full
  rw [List.mem_flatMap]
  constructor
  · rintro ⟨target, htarget, hcall⟩
    cases target with
    | input input =>
        obtain ⟨value, around, own, flagValue, hvalue, hholds, htruthy, hexpression, hscope⟩ :=
          InputType.mem_calls_iff.1 hcall
        obtain ⟨hfound, hnull⟩ := resolveValue_eq_some_iff.1 hvalue
        cases hscope
        exact ⟨rfl, rfl, .flag htarget hfound hnull hholds htruthy hexpression⟩
    | argument argument =>
        obtain ⟨hliteral, hexpression, hscope⟩ := Target.mem_calls_argument_iff.1 hcall
        cases hscope
        exact ⟨rfl, rfl, .argument htarget hliteral hexpression⟩
    | stream stream =>
        cases List.mem_singleton.1 hcall
        exact ⟨rfl, rfl, .stream htarget⟩
  · rintro ⟨hinputs, hruntime, hasks⟩
    dsimp only at hinputs hruntime hasks
    subst hinputs hruntime
    cases hasks with
    | argument htarget hliteral hexpression =>
        exact ⟨_, htarget, Target.mem_calls_argument_iff.2 ⟨hliteral, hexpression, rfl⟩⟩
    | stream htarget => exact ⟨_, htarget, List.mem_singleton_self _⟩
    | flag htarget hfound hnull hholds htruthy hexpression =>
        have hvalue := resolveValue_eq_some_iff.2 ⟨hfound, hnull⟩
        exact ⟨_, htarget,
          InputType.mem_calls_iff.2 ⟨_, _, _, _, hvalue, hholds, htruthy, hexpression, rfl⟩⟩

/-- What the expressions of a tool see.  An evaluator is asked for an expression in a scope exactly when the
inputs of the scope are the job with its defaults, its runtime is the given one, and where the expression
stands gives the value and the job at hand: an argument and a redirection see no value and the job with its
defaults, and a flag sees its value and the nearest list or record around it.  The same holds of everything
that is under way in a state of a run, however its steps interleave and whether or not it is cancelled.  Each
key of the inputs of all these scopes is settled by its value in the job and the defaults for it. -/
theorem scope_of_calls (tool : Tool) (job : JobValue) (runtime : Runtime) :
    (∀ evaluator call, call ∈ tool.calls evaluator job runtime ↔
      call.scope.inputs = tool.withDefaults job ∧ call.scope.runtime = runtime ∧
        tool.Asks (tool.withDefaults job) call.expression call.scope.self call.scope.job) ∧
    (∀ evaluator state, Assembling.Steps evaluator (tool.started job runtime) state →
      ∀ call ∈ state.waiting,
        call.scope.inputs = tool.withDefaults job ∧ call.scope.runtime = runtime ∧
          tool.Asks (tool.withDefaults job) call.expression call.scope.self call.scope.job) ∧
    (∀ key, (tool.withDefaults job).get? key =
      JobValue.settled (job.entries.lookup key) (defaultsFor key tool.inputs)) := by
  refine ⟨?_, ?_, tool.get?_withDefaults_eq job⟩
  · intro evaluator call
    rw [calls_eq_of_static, mem_evaluations_iff]
  · intro evaluator state hrun call hcall
    obtain ⟨-, hsublist⟩ := (Assembling.static_started tool job runtime).steps hrun
    rw [Assembling.waiting_started] at hsublist
    exact mem_evaluations_iff.1 (hsublist.subset hcall)

end Tool

/-- A tool that takes a record with a list of flags, and writes its output to a file that is named for the
tempo, which has a default. -/
def drumTool : Tool where
  id := none
  version := .v1
  baseCommand := ["drum"]
  arguments := []
  inputs :=
    [⟨⟨"drum", .record drumFields, .plain, "document.inputs[0]"⟩, none, some 0, false⟩,
     ⟨⟨"tempo", .primitive .int, .plain, "document.inputs[1]"⟩, some (.number (.int 120)), none, true⟩]
  stdin := none
  stdout := some ⟨.stdout, ⟨"$(inputs.tempo).wav", "document.stdout"⟩, "document.stdout"⟩

/-- The record of a job for this tool; one of the flags in its list is a file. -/
def drumRecord : Entries JobValue :=
  [("beats", .list [.null, .bool true, .file .file (some "snare.wav") none []]), ("loud", .bool true)]

/-- A job with this record, and nothing but null for the tempo. -/
def drumJob : JobValue :=
  .mapping [("tempo", .null), ("drum", .mapping drumRecord)]

/-- The job with its defaults. -/
def drumInputs : JobValue :=
  .mapping [("tempo", .number (.int 120)), ("drum", .mapping drumRecord)]

/-- The output sees the default of the tempo, a flag in the list of the record sees the list with the name of
the file, a flag beside the list sees the record, and what is under way from the start sees the default too. -/
theorem scope_of_calls_drumTool :
    (⟨⟨"$(inputs.tempo).wav", "document.stdout"⟩, ⟨drumInputs, drumInputs, none, {}⟩⟩ : Call) ∈
      drumTool.calls answerBoom drumJob {} ∧
    (⟨⟨"$(beat)", "drum.beats"⟩, ⟨drumInputs, .list [.null, .bool true, .string "snare.wav"],
        some (.bool true), {}⟩⟩ : Call) ∈ drumTool.calls answerBoom drumJob {} ∧
    (⟨⟨"$(level)", "drum.loud"⟩, ⟨drumInputs, .mapping drumRecord, some (.bool true), {}⟩⟩ : Call) ∈
      drumTool.calls answerBoom drumJob {} ∧
    ∀ call ∈ (drumTool.started drumJob {}).waiting,
      call.scope.inputs = drumInputs ∧ call.scope.inputs.get? "tempo" = some (.number (.int 120)) := by
  obtain ⟨hcalls, hwaiting, hsettled⟩ := drumTool.scope_of_calls drumJob {}
  have htarget : Target.input ⟨"drum", .record drumFields, .plain, "document.inputs[0]"⟩ ∈
      drumTool.targets :=
    Tool.input_mem_targets_iff.2 ⟨_, List.mem_cons_self, rfl, rfl⟩
  have hstream : Target.stream ⟨.stdout, ⟨"$(inputs.tempo).wav", "document.stdout"⟩, "document.stdout"⟩ ∈
      drumTool.targets :=
    Tool.mem_targets_iff.2 (.inr (.inr ⟨_, .inr rfl, rfl⟩))
  refine ⟨(hcalls answerBoom _).2 ⟨rfl, rfl, .stream hstream⟩, (hcalls answerBoom _).2 ⟨rfl, rfl, ?_⟩,
    (hcalls answerBoom _).2 ⟨rfl, rfl, ?_⟩, fun call hcall ↦ ?_⟩
  · have hmem : JobValue.bool true ∈
        (JobValue.list [.null, .bool true, .file .file (some "snare.wav") none []]).elements :=
      .tail _ (.head _)
    have hflag : HoldsFlag drumFields[1].type drumFields[1].binding _ _ _ _ :=
      .element _ hmem rfl (.here none _ (.bool true))
    exact .flag htarget rfl rfl (.field .plain (.tail _ (.head _)) rfl rfl hflag) rfl rfl
  · have hflag : HoldsFlag (.record drumFields) .plain (.mapping drumRecord) _ _ _ :=
      .field .plain (.head _) rfl rfl (.here none _ (.bool true))
    exact .flag htarget rfl rfl hflag rfl rfl
  · have hinputs := (hwaiting answerBoom _ .refl call hcall).1
    exact ⟨hinputs, hinputs ▸ hsettled "tempo"⟩

end Invocation
