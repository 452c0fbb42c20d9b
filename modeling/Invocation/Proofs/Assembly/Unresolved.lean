import Invocation.Proofs.Assembly.Defaults
import Invocation.Proofs.Assembly.Interleaving
import Invocation.Proofs.Rendering.Unresolved

/-!
# Types without a meaning in an assembly

The static check of a tool and the renderings of its entries walk through the declared types in ways of
their own, but agree on types without a meaning: a tool without such warnings never meets one, and each
warning for an input with a position is met for some job.
-/

namespace Invocation

/-- The warnings of the static check that come from an input. -/
def ToolInput.check (input : ToolInput) : Findings :=
  input.input.type.unresolvedWithin input.input.id input.input.location

namespace InputType

/-- The warnings of several fields are those of each. -/
theorem warnings_unresolvedFields (inputs : List Input) :
    (unresolvedFields inputs).warnings =
      inputs.flatMap fun input ↦ (input.type.unresolvedWithin input.id input.location).warnings := by
  induction inputs with
  | nil => rfl
  | cons input rest ih =>
      obtain ⟨id, type, binding, location⟩ := input
      rw [unresolvedFields, Findings.warnings_append, ih, List.flatMap_cons]

mutual

/-- The static check warns of nothing but types without a meaning. -/
theorem issue_unresolvedWithin (type : InputType) (id location : String) :
    ∀ warning ∈ (type.unresolvedWithin id location).warnings, warning.issue = .unresolvedType := by
  match type with
  | .unresolved tag =>
    intro warning hmem
    unfold unresolvedWithin at hmem
    rw [List.mem_singleton.1 hmem]
  | .primitive _ | .enum _ | .boolean _ => exact nofun
  | .array items _ =>
    unfold unresolvedWithin
    exact issue_unresolvedWithin items id location
  | .record fields =>
    unfold unresolvedWithin
    exact issue_unresolvedFields fields

/-- The static check of fields warns of nothing but types without a meaning. -/
theorem issue_unresolvedFields (fields : List Input) :
    ∀ warning ∈ (unresolvedFields fields).warnings, warning.issue = .unresolvedType := by
  match fields with
  | [] => exact nofun
  | ⟨id, type, _, location⟩ :: rest =>
    intro warning hmem
    unfold unresolvedFields at hmem
    rcases List.mem_append.1 hmem with hmem | hmem
    · exact issue_unresolvedWithin type id location warning hmem
    · exact issue_unresolvedFields rest warning hmem

end

end InputType

namespace Tool

/-- The warnings of the static check of a tool are those of its inputs. -/
theorem warnings_summary (tool : Tool) :
    tool.summary.findings.warnings = tool.inputs.flatMap fun input ↦ input.check.warnings := by
  unfold summary
  rw [InputType.warnings_unresolvedFields, List.flatMap_map]
  rfl

/-- A command line is made of the arguments, the inputs with a position and the redirections. -/
theorem mem_targets_iff {tool : Tool} {target : Target} :
    target ∈ tool.targets ↔
      (∃ declared ∈ tool.arguments, .argument declared.argument = target) ∨
      (∃ declared ∈ tool.inputs, declared.position.isSome = true ∧ .input declared.input = target) ∨
      ∃ stream, (tool.stdin = some stream ∨ tool.stdout = some stream) ∧ .stream stream = target := by
  have harguments : (∃ entry ∈ tool.argumentEntries, entry.target = target) ↔
      ∃ declared ∈ tool.arguments, .argument declared.argument = target := by
    simp only [argumentEntries, List.mem_map, exists_exists_and_eq_and]
  have hinputs : (∃ entry ∈ tool.inputEntries, entry.target = target) ↔
      ∃ declared ∈ tool.inputs, declared.position.isSome = true ∧ .input declared.input = target := by
    simp only [inputEntries, List.mem_filterMap, Option.map_eq_some_iff, Option.isSome_iff_exists]
    constructor
    · rintro ⟨_, ⟨declared, hdeclared, position, hposition, rfl⟩, rfl⟩
      exact ⟨declared, hdeclared, ⟨position, hposition⟩, rfl⟩
    · rintro ⟨declared, hdeclared, ⟨position, hposition⟩, rfl⟩
      exact ⟨_, ⟨declared, hdeclared, position, hposition, rfl⟩, rfl⟩
  have hredirections : target ∈ tool.redirections ↔
      ∃ stream, (tool.stdin = some stream ∨ tool.stdout = some stream) ∧ .stream stream = target := by
    simp only [redirections, List.mem_map, List.mem_append, Option.mem_toList]
  rw [← harguments, ← hinputs, ← hredirections, ← or_assoc]
  unfold targets
  simp only [List.mem_append, List.mem_map, List.mem_mergeSort, or_and_right, exists_or]

/-- The inputs of a command line are the inputs with a position. -/
theorem input_mem_targets_iff {tool : Tool} {input : Input} :
    Target.input input ∈ tool.targets ↔
      ∃ declared ∈ tool.inputs, declared.position.isSome = true ∧ declared.input = input := by
  simp [mem_targets_iff]

/-- The entries of a tool without warnings meet no type without a meaning. -/
theorem resolved_renderings {tool : Tool} (h : tool.summary.findings.warnings = []) (job : JobValue)
    (runtime : Runtime) : ∀ rendering ∈ tool.renderings job runtime, rendering.Resolved := by
  rw [warnings_summary, List.flatMap_eq_nil_iff] at h
  intro rendering hmem
  obtain ⟨target, htarget, rfl⟩ := List.mem_map.1 hmem
  refine Rendering.resolved_target target job none _ fun input hinput ↦ ?_
  subst hinput
  obtain ⟨declared, hdeclared, _, rfl⟩ := input_mem_targets_iff.1 htarget
  exact h declared hdeclared

/-- The findings of a command line of some entries have what those of all entries have. -/
theorem all_assembleKept {evaluator : Evaluator} {tool : Tool} {job : JobValue} {runtime : Runtime}
    {P : Finding → Prop} (h : ∀ result ∈ tool.results evaluator job runtime, result.findings.All P)
    (kept : List Bool) : (tool.assembleKept evaluator job runtime kept).findings.All P := by
  have hparts : ∀ part ∈ (Assembling.keptResults (tool.results evaluator job runtime) kept).map
      Rendered.findings, part.All P := by
    intro part hpart
    obtain ⟨result, hresult, rfl⟩ := List.mem_map.1 hpart
    obtain ⟨marked, hmarked, rfl⟩ := List.mem_map.1 hresult
    exact h marked.1 (List.of_mem_zip (List.mem_filter.1 hmarked).1).1
  have hall := Findings.all_concat hparts
  unfold Findings.concat at hall
  rwa [List.flatMap_map, List.flatMap_map] at hall

/-- A value of the job that is not null is kept when the defaults are filled in. -/
theorem get?_withDefaults {tool : Tool} {job : JobValue} {key : String} {value : JobValue}
    (h : job.entries.lookup key = some value) (hvalue : value.isNull = false) :
    (tool.withDefaults job).get? key = some value := by
  rw [get?_withDefaults_eq, h, JobValue.settled_of_not_isNull hvalue]

/-- The warnings of an entry are warnings of the command line. -/
theorem warns_assemble {evaluator : Evaluator} {tool : Tool} {job : JobValue} {runtime : Runtime}
    {issue : Issue} {target : Target} (htarget : target ∈ tool.targets)
    (h : ((target.render (tool.withDefaults job) none (.top (tool.withDefaults job) runtime)).run
      evaluator).findings.Warns issue) :
    (tool.assemble evaluator job runtime).findings.Warns issue := by
  rw [findings_assemble]
  exact Findings.warns_concat_iff.2
    ⟨_, List.mem_map_of_mem (List.mem_map_of_mem (List.mem_map_of_mem htarget)), h⟩

/-- The static check predicts the renderings.  A tool that it does not warn of never meets a type without
a meaning, in no run and however it is cancelled.  Each input with a position that it warns of meets one
for some job. -/
theorem check_predicts_rendering (tool : Tool) :
    tool.summary.findings.warnings = (tool.inputs.flatMap fun input ↦ input.check.warnings) ∧
    (¬ tool.summary.findings.Warns .unresolvedType →
      ∀ (evaluator : Evaluator) (job : JobValue) (runtime : Runtime) (final : Assembling),
        Assembling.Steps evaluator (tool.started job runtime) final → final.Settled →
        (final.assembled tool.baseCommand).findings.Lacks .unresolvedType) ∧
    (∀ input ∈ tool.inputs, input.position.isSome = true → input.check.Warns .unresolvedType →
      ∃ members : Entries Json, ∀ (evaluator : Evaluator) (runtime : Runtime),
        (tool.assemble evaluator (.ofJson (.object members)) runtime).findings.Warns
          .unresolvedType) := by
  refine ⟨warnings_summary tool, ?_, ?_⟩
  · intro hchecked evaluator job runtime final hrun hsettled
    obtain ⟨moment, _, _, _, hkept⟩ := Assembling.exists_assembleKept hrun hsettled
    rw [hkept]
    refine all_assembleKept (fun result hresult ↦ ?_) moment.kept
    obtain ⟨rendering, hrendering, rfl⟩ := List.mem_map.1 hresult
    refine (resolved_renderings ?_ _ runtime rendering hrendering).run evaluator
    exact List.eq_nil_iff_forall_not_mem.2 fun warning hmem ↦
      hchecked ⟨warning, hmem, InputType.issue_unresolvedFields _ warning hmem⟩
  · rintro input hinput hposition ⟨warning, hwarning, _⟩
    obtain ⟨probe, hsingle, hprobe⟩ :=
      Rendering.exists_probe input.input.type (List.ne_nil_of_mem hwarning)
    refine ⟨[(input.input.id, probe)], fun evaluator runtime ↦ ?_⟩
    rw [JobValue.ofJson_singleton]
    refine warns_assemble (input_mem_targets_iff.2 ⟨input, hinput, hposition, rfl⟩)
      (hprobe _ _ _ _ _ _ _ ?_)
    unfold resolveValue
    rw [get?_withDefaults (List.lookup_cons_self) hsingle.present]
    simp [hsingle.present]

end Tool

/-- A tool that takes a list of records, one field of which has a type without a meaning. -/
def mysteryPairs : Tool where
  id := none
  version := .v1
  baseCommand := ["pair"]
  arguments := []
  inputs :=
    [⟨⟨"pairs", .array (.record
        [⟨"left", .primitive .string, .plain, "document.inputs[0].type.items.fields[0]"⟩,
         ⟨"right", .unresolved "Mystery", .plain, "document.inputs[0].type.items.fields[1]"⟩]) none,
        .plain, "document.inputs[0]"⟩, none, some 0, false⟩]
  stdin := none
  stdout := none

open Assembling in
/-- A run of a tool without warnings ends without meeting a type without a meaning, and a job meets the
one inside the records of the other tool. -/
theorem check_predicts_rendering_mysteryPairs :
    (∃ final, Steps selfOrLate (slowEcho.started twoFlags {}) final ∧ final.Settled ∧
      (final.assembled ["echo"]).findings.Lacks .unresolvedType) ∧
    ∃ members : Entries Json, ∀ (evaluator : Evaluator) (runtime : Runtime),
      (mysteryPairs.assemble evaluator (.ofJson (.object members)) runtime).findings.Warns
        .unresolvedType := by
  constructor
  · obtain ⟨final, hrun, hsettled, _⟩ :=
      exists_run_timed selfOrLate slowEcho twoFlags {} (fun _ ↦ 0) none
    refine ⟨final, hrun, hsettled, ?_⟩
    refine (Tool.check_predicts_rendering slowEcho).2.1 ?_ selfOrLate twoFlags {} final hrun hsettled
    rintro ⟨warning, hmem, _⟩
    cases hmem
  · exact (Tool.check_predicts_rendering mysteryPairs).2.2 _ List.mem_cons_self rfl
      ⟨_, List.mem_cons_self, rfl⟩

end Invocation
