import Invocation.Document.Reading
import Invocation.Findings
import Invocation.Workflow.Graph

/-!
# Reading workflow documents

A workflow declares inputs, steps and outputs; steps and outputs refer to the sources of their data.
`readWorkflow` reads it, `Workflow.graph` has an edge for every reference that can be resolved, and
`Workflow.report` orders the graph and reports the references that cannot, a cycle, or a graph that falls
apart.
-/

namespace Invocation

/-- A reference of a step or an output to a source. -/
structure SourceReference where
  /-- The node of the graph that consumes the data. -/
  consumer : String
  source : String
  location : String
  deriving DecidableEq, Inhabited

/-- A workflow: the ids that it declares, without number signs, and its references in order. -/
structure Workflow where
  inputs : List String
  steps : List String
  outputs : List String
  references : List SourceReference
  deriving DecidableEq, Inhabited

/-- The result of a check of a workflow. -/
structure WorkflowReport where
  /-- The nodes in the order of their dependencies; empty when there is a cycle. -/
  order : List String
  findings : Findings
  deriving DecidableEq, Inhabited

namespace Workflow

/-- The node of an input. -/
def inputNode (id : String) : String := "in:" ++ id

/-- The node of a step. -/
def stepNode (id : String) : String := "step:" ++ id

/-- The node of an output. -/
def outputNode (id : String) : String := "out:" ++ id

/-- The step of a source: what stands before the first slash or point. -/
def stepOfSource (source : String) : String :=
  String.ofList (source.toList.takeWhile fun c ↦ c != '/' && c != '.')

/-- The node that a source means: an input with this id, else the step in front. -/
def resolve? (workflow : Workflow) (source : String) : Option String :=
  let source := Document.withoutSigns source
  let step := stepOfSource source
  if workflow.inputs.contains source then some (inputNode source)
  else if workflow.steps.contains step then some (stepNode step)
  else none

/-- The nodes that a workflow declares. -/
def nodes (workflow : Workflow) : List String :=
  workflow.inputs.map inputNode ++ workflow.steps.map stepNode ++ workflow.outputs.map outputNode

/-- The edges of the references that can be resolved. -/
def edges (workflow : Workflow) : List (String × String) :=
  workflow.references.filterMap fun reference ↦
    (workflow.resolve? reference.source).map fun source ↦ (source, reference.consumer)

/-- The graph of a workflow. -/
def graph (workflow : Workflow) : Graph :=
  workflow.edges.foldl (fun graph edge ↦ graph.addEdge edge.1 edge.2)
    (workflow.nodes.foldl (fun graph id ↦ graph.addNode id) .empty)

/-- An error for each reference that cannot be resolved. -/
def unknownSources (workflow : Workflow) : Findings :=
  ⟨(workflow.references.filter fun reference ↦
      (workflow.resolve? reference.source).isNone).map fun reference ↦
    ⟨reference.location, "Unknown source " ++ reference.source, .graph⟩, []⟩

/-- The check of a workflow.  A graph that is not connected still has an order. -/
def report (workflow : Workflow) : WorkflowReport :=
  let graph := workflow.graph
  match graph.sort with
  | .ok order => ⟨order, workflow.unknownSources⟩
  | .error .cyclic =>
    ⟨[], workflow.unknownSources ++ .error .graph Document.root Graph.Fault.cyclic.message⟩
  | .error .disconnected =>
    ⟨graph.order?.getD [],
      workflow.unknownSources ++ .warning .graph Document.root Graph.Fault.disconnected.message⟩

end Workflow

namespace Document

/-- The sources that are written as a string or as a list; other values in a list are none. -/
def sourcesOf : Option Json → List String
  | some (.string source) => [source]
  | some (.array items) => items.filterMap Json.string?
  | _ => []

/-- The id of an input that is an object or only an id. -/
def inputId? (raw : Json) : Option String :=
  ((raw.get? "id").bind Json.string?).or raw.string?

/-- The references of a consumer to sources that are declared at a place. -/
def referencesAt (consumer location : String) (raw : Option Json) : List SourceReference :=
  (sourcesOf raw).map fun source ↦ ⟨consumer, source, location⟩

/-- The references of an input of a step. -/
def stepInputReferences (consumer location : String) (index : Nat) (input : Json) :
    List SourceReference :=
  referencesAt consumer (elementAt location index) (input.get? "source")

/-- Reads a step: its id and the references of its inputs. -/
def readStep (location : String) (raw : Json) : Reading (String × List SourceReference) :=
  match (raw.get? "id").bind Json.string? with
  | none => .error ⟨location, .stepWithoutId⟩
  | some id =>
    let id := withoutSigns id
    let inputs := listForm "id" "source" ((raw.get? "in").or (raw.get? "inputs"))
    .ok (id, (inputs.mapIdx (stepInputReferences (Workflow.stepNode id) (child location "in"))).flatten)

/-- Reads an output: its id and its references. -/
def readOutput (location : String) (raw : Json) : Reading (String × List SourceReference) :=
  match (raw.get? "id").bind Json.string? with
  | none => .error ⟨location, .outputWithoutId⟩
  | some id =>
    let id := withoutSigns id
    .ok (id, referencesAt (Workflow.outputNode id) location
      ((raw.get? "outputSource").or (raw.get? "source")))

/-- Reads a workflow. -/
def readWorkflow (raw : Json) : Reading Workflow :=
  match raw.members? with
  | none => .error ⟨root, .workflowNotObject⟩
  | some members => do
    let inputs := (listForm "id" "type" (members.lookup "inputs")).filterMap inputId?
    let steps ← readItems readStep (child root "steps") 0
      (listForm "id" "run" (members.lookup "steps"))
    let outputs ← readItems readOutput (child root "outputs") 0
      (listForm "id" "type" (members.lookup "outputs"))
    return {
      inputs := inputs.map withoutSigns
      steps := steps.map Prod.fst
      outputs := outputs.map Prod.fst
      references := (steps ++ outputs).flatMap Prod.snd }

end Document

end Invocation
