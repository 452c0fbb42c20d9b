import Invocation.Loading
import Invocation.Proofs.Assembly.Targets
import Invocation.Proofs.Assembly.Unresolved
import Invocation.Proofs.Job.Encoding
import Invocation.Proofs.Rendering.Lookup
import Mathlib

/-!
# Job entries on a command line

A job file is an object that gives values to inputs by their ids.  An input with a position is rendered
from its value, whatever default it declares, unless the object as a whole denotes a file or a directory:
then the job is a file reference, which has no entries, and the command line is that of the empty job
(`rendersFrom_of_job`).
-/

namespace Invocation

/-- A value that is not null stays so when a job takes it over. -/
theorem JobValue.isNull_ofJson {value : Json} (h : value ≠ .null) : (ofJson value).isNull = false := by
  cases value with
  | null => exact absurd rfl h
  | object members =>
      unfold ofJson ofMembers
      cases fileClassOf? members <;> rfl
  | bool | number | string | array => rfl

/-- The entries of a job that is no file reference are the values of its members. -/
theorem JobValue.lookup_entries_ofJson {members : Entries Json} (h : fileClassOf? members = none)
    (key : String) :
    (ofJson (.object members)).entries.lookup key = (members.lookup key).map ofJson := by
  unfold ofJson ofMembers
  rw [h, entriesOfJson_eq_mapValues]
  exact Entries.lookup_mapValues ofJson members key

/-- A file reference has no entries. -/
theorem JobValue.entries_ofJson_of_isSome {members : Entries Json}
    (h : (fileClassOf? members).isSome = true) : (ofJson (.object members)).entries = [] := by
  obtain ⟨kind, hkind⟩ := Option.isSome_iff_exists.1 h
  unfold ofJson ofMembers
  rw [hkind]
  rfl

/-- The job of a file that holds an object is the value of the object. -/
theorem File.job_of_json {file : File} {members : Entries Json} (h : file.json = .ok (.object members)) :
    file.job = .ok (.ofJson (.object members)) := by
  unfold job
  rw [h]
  rfl

namespace Tool

/-- `RendersFrom evaluator tool job runtime input value` says that the input is one of the entries of the
command line, and that its result there is that of rendering it from the value, whatever else it could be
looked up in. -/
structure RendersFrom (evaluator : Evaluator) (tool : Tool) (job : JobValue) (runtime : Runtime)
    (input : Input) (value : JobValue) : Prop where
  target : .input input ∈ tool.targets
  result (lookup : JobValue) :
    tool.resultOf evaluator job runtime (.input input) =
      (Input.render input lookup (some value) (.top (tool.withDefaults job) runtime)).run evaluator
  line : tool.assemble evaluator job runtime =
    gather tool.baseCommand
      (tool.targets.map fun target ↦ some (tool.resultOf evaluator job runtime target))

/-- An input with a position is rendered from the value that the job has for its id. -/
theorem rendersFrom_of_lookup {tool : Tool} {job value : JobValue} {declared : ToolInput}
    (hdeclared : declared ∈ tool.inputs) (hposition : declared.position.isSome = true)
    (hvalue : job.entries.lookup declared.input.id = some value) (hnull : value.isNull = false)
    (evaluator : Evaluator) (runtime : Runtime) :
    tool.RendersFrom evaluator job runtime declared.input value where
  target := input_mem_targets_iff.2 ⟨declared, hdeclared, hposition, rfl⟩
  result lookup := by
    have hresolved : resolveValue declared.input.id (tool.withDefaults job) none =
        resolveValue declared.input.id lookup (some value) := by
      rw [resolveValue_found (get?_withDefaults hvalue hnull) hnull, resolveValue_given hnull]
    exact congrArg (Rendering.run evaluator) (InputType.render_congr hresolved _ _ _ _)
  line := tool.assemble_eq_gather_targets evaluator job runtime

/-- A job without entries is like the empty one. -/
theorem assemble_of_entries_eq_nil {job : JobValue} (h : job.entries = []) (evaluator : Evaluator)
    (tool : Tool) (runtime : Runtime) :
    tool.assemble evaluator job runtime = tool.assemble evaluator (.mapping []) runtime := by
  have hdefaults : tool.withDefaults job = tool.withDefaults (.mapping []) := by
    unfold withDefaults
    rw [h]
    rfl
  unfold assemble
  rw [hdefaults]

/-- A file that holds an object is a job.  An input with a position is rendered from the member with its id,
if that is not null and the object does not denote a file or a directory.  If it does, no member reaches any
input: the command line is that of the empty job. -/
theorem rendersFrom_of_job {file : File} {members : Entries Json} {tool : Tool} {declared : ToolInput}
    {value : Json} (hjson : file.json = .ok (.object members)) (hdeclared : declared ∈ tool.inputs)
    (hposition : declared.position.isSome = true)
    (hvalue : members.lookup declared.input.id = some value) (hnull : value ≠ .null) :
    ∃ job, file.job = .ok job ∧
      (JobValue.fileClassOf? members = none → ∀ evaluator runtime,
        tool.RendersFrom evaluator job runtime declared.input (.ofJson value)) ∧
      (JobValue.fileClassOf? members ≠ none → ∀ evaluator runtime,
        tool.assemble evaluator job runtime = tool.assemble evaluator (.mapping []) runtime) := by
  refine ⟨_, File.job_of_json hjson, fun hplain ↦ ?_, fun hfile ↦ ?_⟩
  · refine rendersFrom_of_lookup hdeclared hposition ?_ (JobValue.isNull_ofJson hnull)
    rw [JobValue.lookup_entries_ofJson hplain, hvalue]
    rfl
  · have hsome : (JobValue.fileClassOf? members).isSome = true := Option.isSome_iff_ne_none.2 hfile
    exact fun evaluator runtime ↦
      assemble_of_entries_eq_nil (JobValue.entries_ofJson_of_isSome hsome) evaluator tool runtime

/-- A tool document with two inputs whose ids are members of file references; the second input has a
default. -/
def sorterDocument : Json :=
  .object [("baseCommand", .string "sort"), ("inputs", .array
    [.object [("id", .string "class"), ("type", .string "string"),
      ("inputBinding", .object [("prefix", .string "--as")])],
     .object [("id", .string "path"), ("type", .string "string"), ("default", .string "other.txt"),
      ("inputBinding", .object [("position", .number (.int 1))])]])]

/-- The input of the sorter that a class is given to. -/
def sorterClass : Input :=
  ⟨"class", .primitive .string, { Binding.plain with flag := some "--as" }, "document.inputs[0]"⟩

/-- The input of the sorter that a path is given to. -/
def sorterPath : Input :=
  ⟨"path", .primitive .string, .plain, "document.inputs[1]"⟩

/-- The tool of the document. -/
def sorter : Tool where
  id := none
  version := .v1
  baseCommand := ["sort"]
  arguments := []
  inputs :=
    [⟨sorterClass, none, some 0, false⟩, ⟨sorterPath, some (.string "other.txt"), some 1, false⟩]
  stdin := none
  stdout := none

/-- A job of the sorter that is no file reference. -/
def textJob : File :=
  ⟨"job.json", some "\x7b\"class\":\"Text\",\"path\":\"a.txt\"\x7d"⟩

/-- The path of the sorter is rendered from its job, and not from its default. -/
theorem rendersFrom_of_job_sorter :
    ∃ job, textJob.job = .ok job ∧ ∀ evaluator runtime,
      sorter.RendersFrom evaluator job runtime sorterPath (.string "a.txt") := by
  have hjson : textJob.json =
      .ok (.object [("class", .string "Text"), ("path", .string "a.txt")]) := by cbv
  have hdeclared : ⟨sorterPath, some (.string "other.txt"), some 1, false⟩ ∈ sorter.inputs :=
    .tail _ (.head _)
  obtain ⟨job, hjob, hrenders, -⟩ := rendersFrom_of_job hjson hdeclared rfl rfl (by simp)
  exact ⟨job, hjob, hrenders rfl⟩

/-- A job of the sorter that is taken for a file reference. -/
def fileJob : File :=
  ⟨"job.json", some "\x7b\"class\":\"File\",\"path\":\"a.txt\"\x7d"⟩

/-- Both inputs of the sorter have a value in this job, but neither is rendered from it: the first one counts
as absent, and the second one has its default. -/
theorem not_rendersFrom_of_fileJob :
    Document.readTool sorterDocument = .ok sorter ∧
    fileJob.json = .ok (.object [("class", .string "File"), ("path", .string "a.txt")]) ∧
    ∃ job, fileJob.job = .ok job ∧ ∀ evaluator runtime,
      ¬ sorter.RendersFrom evaluator job runtime sorterClass (.string "File") ∧
      ¬ sorter.RendersFrom evaluator job runtime sorterPath (.string "a.txt") ∧
      (sorter.assemble evaluator job runtime).commandLine = "sort other.txt" := by
  have hjson : fileJob.json =
      .ok (.object [("class", .string "File"), ("path", .string "a.txt")]) := by cbv
  refine ⟨rfl, hjson, _, File.job_of_json hjson, fun evaluator runtime ↦ ⟨fun h ↦ ?_, fun h ↦ ?_, ?_⟩⟩
  · cases congrArg Rendered.fragment (h.result .null)
  · have htexts := congrArg Rendered.text? (h.result .null)
    exact absurd (Option.some.inj htexts) (by decide)
  · cbv

end Tool

end Invocation
