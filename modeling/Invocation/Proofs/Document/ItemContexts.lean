import Invocation.Proofs.Assembly.Unresolved
import Invocation.Proofs.Document.DeclaredTypes
import Invocation.Proofs.Document.TypeNames
import Invocation.Proofs.Rendering.ItemContexts

/-!
# The bindings that flags of a document know

Every type of a document is read so that its flags know a binding as items of an array only, and then the
binding of the items of this array (`inherited_coherent`), however the type is written.  So a tool that is read
has the same renderings and the same command lines without what its flags know (`contexts_redundant`).
-/

namespace Invocation

namespace Document

/-! ## Types -/

/-- The items of an array take its binding along when they are flags. -/
theorem coherent_arrayType (itemBinding : Option Binding) {items : InputType} (h : items.Coherent) :
    (arrayType itemBinding items).Coherent := by
  cases h with
  | flag =>
      show (InputType.array (.boolean (itemBinding.or none)) itemBinding).Coherent
      rw [Option.or_none]
      exact .flags itemBinding
  | flags inner => exact .array itemBinding nofun (.flags inner)
  | array inner hflag hitems => exact .array itemBinding nofun (.array inner hflag hitems)
  | record hfields => exact .array itemBinding nofun (.record hfields)
  | primitive kind => exact .array itemBinding nofun (.primitive kind)
  | enum symbols => exact .array itemBinding nofun (.enum symbols)
  | unresolved tag => exact .array itemBinding nofun (.unresolved tag)

/-- The flags of a type know what they are rendered with when those of its parts do. -/
theorem inherited_coherent (document : Json) (version : DocumentVersion) :
    Inherited document version fun _ type ↦ type.Coherent where
  primitive _ _ := .primitive _
  flag _ := .flag
  enum _ _ := .enum _
  unresolved _ _ := .unresolved _
  list hitems := arrayType_none _ ▸ coherent_arrayType none hitems
  array _ hitems := coherent_arrayType _ hitems
  record hfields := .record fun field hfield ↦
    let ⟨_, hdeclared⟩ := hfields.declared field hfield
    hdeclared.type

/-- The flags of a tool know what they are rendered with. -/
theorem coherent_of_readTool {raw : Json} {tool : Tool} (h : readTool raw = .ok tool) :
    ∀ declared ∈ tool.inputs, declared.input.type.Coherent := by
  intro declared hmem
  obtain ⟨_, hdeclared⟩ := (inherited_coherent raw tool.version).declaredAt_of_readTool h declared hmem
  exact hdeclared.type

end Document

/-! ## Tools without what flags know -/

/-- The input with its type without what flags in it know of the binding of items. -/
def ToolInput.withoutContexts (declared : ToolInput) : ToolInput :=
  { declared with input := declared.input.withoutContexts }

/-- The target with the type of an input without what flags in it know of the binding of items. -/
def Target.withoutContexts : Target → Target
  | .input declared => .input declared.withoutContexts
  | target => target

/-- The entry with its target without what flags in it know of the binding of items. -/
def Entry.withoutContexts (entry : Entry) : Entry :=
  { entry with target := entry.target.withoutContexts }

namespace Tool

/-- The tool without what its flags know of the binding of items. -/
def withoutContexts (tool : Tool) : Tool :=
  { tool with inputs := tool.inputs.map ToolInput.withoutContexts }

/-- The entries of the tool are changed one by one. -/
theorem targets_withoutContexts (tool : Tool) :
    tool.withoutContexts.targets = tool.targets.map Target.withoutContexts := by
  have harguments : tool.withoutContexts.argumentEntries = tool.argumentEntries.map Entry.withoutContexts := by
    unfold argumentEntries
    rw [List.map_map]
    rfl
  have hinputs : tool.withoutContexts.inputEntries = tool.inputEntries.map Entry.withoutContexts := by
    unfold inputEntries withoutContexts
    rw [List.filterMap_map, List.map_filterMap]
    refine List.filterMap_congr fun declared _ ↦ ?_
    rw [Option.map_map]
    rfl
  have hredirections : tool.withoutContexts.redirections = tool.redirections.map Target.withoutContexts := by
    unfold redirections
    rw [List.map_map]
    rfl
  have hsorted (entries : List Entry) : (entries.map Entry.withoutContexts).mergeSort Entry.precedes =
      (entries.mergeSort Entry.precedes).map Entry.withoutContexts :=
    (List.map_mergeSort (f := Entry.withoutContexts) fun _ _ _ _ ↦ rfl).symm
  unfold targets
  rw [harguments, hinputs, hredirections, ← List.map_append, hsorted, List.map_append, List.map_map,
    List.map_map]
  rfl

/-- Defaults are the same. -/
theorem withDefaults_withoutContexts (tool : Tool) (job : JobValue) :
    tool.withoutContexts.withDefaults job = tool.withDefaults job := by
  unfold withDefaults withoutContexts
  rw [List.foldl_map]
  rfl

/-- What is rendered is the same when the flags know what they are rendered with. -/
theorem renderings_withoutContexts {tool : Tool}
    (h : ∀ declared ∈ tool.inputs, declared.input.type.Coherent) (job : JobValue) (runtime : Runtime) :
    tool.withoutContexts.renderings job runtime = tool.renderings job runtime := by
  unfold renderings
  rw [targets_withoutContexts, List.map_map]
  refine List.map_congr_left fun target hmem ↦ ?_
  cases target with
  | input input =>
      obtain ⟨declared, hdeclared, -, rfl⟩ := input_mem_targets_iff.1 hmem
      exact (h declared hdeclared).render_withoutContexts _ _ _ _ _ _
  | argument | stream => rfl

/-- In a tool that is read from a document a flag knows a binding as the item of an array only, and then the
binding of the items of this array.  Without what its flags know the tool has the same renderings of its inputs,
for every value, every job and in every scope, is started in the same state, and has the same command line with
the same fragments and findings for every evaluator, also when entries are dropped at a deadline. -/
theorem contexts_redundant {raw : Json} {tool : Tool} (h : Document.readTool raw = .ok tool) :
    (∀ declared ∈ tool.inputs, declared.input.type.Coherent ∧
      ∀ job given scope, Input.render declared.input.withoutContexts job given scope =
        Input.render declared.input job given scope) ∧
    (∀ job runtime, tool.withoutContexts.started job runtime = tool.started job runtime) ∧
    (∀ evaluator job runtime, tool.withoutContexts.assemble evaluator job runtime =
      tool.assemble evaluator job runtime) ∧
    (∀ clock deadline job runtime, tool.withoutContexts.assembleTimed clock deadline job runtime =
      tool.assembleTimed clock deadline job runtime) := by
  have hcoherent := Document.coherent_of_readTool h
  have hrenderings (job : JobValue) (runtime : Runtime) :
      tool.withoutContexts.renderings (tool.withoutContexts.withDefaults job) runtime =
        tool.renderings (tool.withDefaults job) runtime := by
    rw [withDefaults_withoutContexts, renderings_withoutContexts hcoherent]
  refine ⟨fun declared hmem ↦ ⟨hcoherent declared hmem, fun job given scope ↦ ?_⟩, fun job runtime ↦ ?_,
    fun evaluator job runtime ↦ ?_, fun clock deadline job runtime ↦ ?_⟩
  · exact (hcoherent declared hmem).render_withoutContexts _ _ _ _ _ _
  · rw [started, hrenderings, started]
  · rw [assemble, hrenderings, assemble]
    rfl
  · rw [assembleTimed, hrenderings, assembleTimed]
    rfl

end Tool

/-- A document of a tool with a list of flags that are written as `-b`. -/
def beatDocument : Json :=
  .object [("baseCommand", .string "drum"), ("inputs", .array [.object [("id", .string "beats"),
    ("type", .object [("type", .string "array"), ("items", .string "boolean"),
      ("inputBinding", .object [("prefix", .string "-b")])]),
    ("inputBinding", .object [])]])]

/-- The tool of this document; its flags know how they are written. -/
def beatTool : Tool where
  id := none
  version := .v1
  baseCommand := ["drum"]
  arguments := []
  inputs :=
    [⟨⟨"beats", .array (.boolean (some ⟨some "-b", true, " ", none⟩)) (some ⟨some "-b", true, " ", none⟩),
      .plain, "document.inputs[0]"⟩, none, some 0, false⟩]
  stdin := none
  stdout := none

/-- The flags of this tool are written in the same way when they do not know how, in one text and on the
command line. -/
theorem contexts_redundant_beatTool :
    Document.readTool beatDocument = .ok beatTool ∧
    (∃ declared ∈ beatTool.inputs,
      declared.input.withoutContexts.type = .array (.boolean none) (some ⟨some "-b", true, " ", none⟩) ∧
      ((Input.render declared.input.withoutContexts .null (some (.list [.bool true, .bool true]))
        (.top .null {})).run answerBoom).text? = some "-b -b") ∧
    beatTool.withoutContexts.assemble answerBoom (.mapping [("beats", .list [.bool true, .bool true])]) {} =
      beatTool.assemble answerBoom (.mapping [("beats", .list [.bool true, .bool true])]) {} := by
  have hread : Document.readTool beatDocument = .ok beatTool := rfl
  obtain ⟨hinputs, -, hassemble, -⟩ := Tool.contexts_redundant hread
  refine ⟨hread, ⟨_, List.mem_cons_self, rfl, ?_⟩, hassemble answerBoom _ {}⟩
  rw [(hinputs _ List.mem_cons_self).2]
  decide

end Invocation
