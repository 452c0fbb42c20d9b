import Invocation.Proofs.Document.Enumeration
import Invocation.Proofs.Workflow.Report

/-!
# Sources of workflows

The inputs of steps and the outputs of a workflow refer to sources, at places that are in the order of the
document.  A source that means a declared node gives an edge to the node that takes it; every other one is
reported as an error at its place.  So the errors of a report stand in the order of the document, before
the error for a cycle, and no edge leads to or from a node that is not declared (`errors_of_readWorkflow`).
-/

namespace Invocation

open Workflow (stepNode outputNode)

namespace Document

/-! ## References in order -/

/-- The value names the source at an index; the index of a source alone is 0. -/
inductive NamesAt : Json → Nat → String → Prop where
  | string (source : String) : NamesAt (.string source) 0 source
  | item {items : List Json} {index : Nat} {source : String} :
      items[index]? = some (.string source) → NamesAt (.array items) index source

/-- Where a document refers to a source: a step, an input of it and an index in the value of that input; or
an output and an index in its value. -/
abbrev SourcePlace := (Nat × Nat × Nat) ⊕ (Nat × Nat)

/-- The order of the document: the steps and their inputs, then the outputs. -/
def SourcePlace.Precedes : SourcePlace → SourcePlace → Prop :=
  Sum.Lex (Prod.Lex (· < ·) (Prod.Lex (· < ·) (· < ·))) (Prod.Lex (· < ·) (· < ·))

/-- The consumer refers to a source that the value names at the index. -/
def RefersAt (consumer place : String) (raw : Option Json) (index : Nat) (reference : SourceReference) :
    Prop :=
  reference.consumer = consumer ∧ reference.location = place ∧
    ∃ value, raw = some value ∧ NamesAt value index reference.source

/-- The step refers to a source in one of its inputs, at the place of the input. -/
def StepRefers (place : String) (step : Json) (key : Nat × Nat) (reference : SourceReference) : Prop :=
  ∃ id port, HasId step id ∧
    (listForm "id" "source" ((step.get? "in").or (step.get? "inputs")))[key.1]? = some port ∧
    RefersAt (stepNode id) (elementAt (child place "in") key.1) (port.get? "source") key.2 reference

/-- The output refers to a source, at the place of the output. -/
def OutputRefers (place : String) (output : Json) (index : Nat) (reference : SourceReference) : Prop :=
  ∃ id, HasId output id ∧
    RefersAt (outputNode id) place ((output.get? "outputSource").or (output.get? "source")) index reference

/-- The document refers to a source: a step takes it in an input, or an output takes it. -/
inductive Refers (raw : Json) : SourcePlace → SourceReference → Prop where
  | step {step : Json} {index : Nat} {key : Nat × Nat} {reference : SourceReference} :
      (listForm "id" "run" (raw.get? "steps"))[index]? = some step →
      StepRefers (elementAt (child root "steps") index) step key reference →
      Refers raw (.inl (index, key)) reference
  | output {output : Json} {index key : Nat} {reference : SourceReference} :
      (listForm "id" "type" (raw.get? "outputs"))[index]? = some output →
      OutputRefers (elementAt (child root "outputs") index) output key reference →
      Refers raw (.inr (index, key)) reference

/-- The sources that are read are those that the value names, in order. -/
theorem enumerates_sourcesOf (raw : Option Json) :
    Enumerates (· < ·) (fun index source ↦ ∃ value, raw = some value ∧ NamesAt value index source)
      (sourcesOf raw) := by
  match raw with
  | some (.string text) =>
    refine (Enumerates.of_getElem? [text]).congr fun index source ↦ ?_
    constructor
    · intro hsource
      cases index with
      | zero =>
          cases hsource
          exact ⟨_, rfl, .string text⟩
      | succ => cases hsource
    · rintro ⟨_, ⟨⟩, ⟨⟩⟩
      rfl
  | some (.array items) =>
    refine ((Enumerates.of_getElem? items).filterMap Json.string?).congr fun index source ↦ ?_
    simp only [string?_eq_some_iff]
    constructor
    · rintro ⟨_, hitem, rfl⟩
      exact ⟨_, rfl, .item hitem⟩
    · rintro ⟨_, ⟨⟩, hnames⟩
      cases hnames with
      | item hitem => exact ⟨_, hitem, rfl⟩
  | none => exact .nil fun _ _ ⟨_, hvalue, _⟩ ↦ by cases hvalue
  | some .null | some (.bool _) | some (.number _) | some (.object _) =>
    exact .nil fun _ _ ⟨_, hvalue, hnames⟩ ↦ by cases hvalue; cases hnames

/-- The references of a consumer are to the sources that the value names, in order. -/
theorem enumerates_referencesAt (consumer location : String) (raw : Option Json) :
    Enumerates (· < ·) (RefersAt consumer location raw) (referencesAt consumer location raw) := by
  unfold referencesAt
  rw [← List.filterMap_eq_map]
  refine ((enumerates_sourcesOf raw).filterMap _).congr fun index reference ↦ ?_
  constructor
  · rintro ⟨source, hnamed, hreference⟩
    cases hreference
    exact ⟨rfl, rfl, hnamed⟩
  · obtain ⟨_, source, _⟩ := reference
    rintro ⟨rfl, rfl, hnamed⟩
    exact ⟨source, hnamed, rfl⟩

/-- The references of the inputs of a step are in the order of the inputs. -/
theorem enumerates_stepInputReferences (consumer location : String) (inputs : List Json) :
    Enumerates (Prod.Lex (· < ·) (· < ·))
      (fun key reference ↦ ∃ port, inputs[key.1]? = some port ∧
        RefersAt consumer (elementAt location key.1) (port.get? "source") key.2 reference)
      (inputs.mapIdx (stepInputReferences consumer location)).flatten := by
  -- the inputs of a step are read like items that have no faults
  have hread : readItems (fun place port ↦ .ok (referencesAt consumer place (port.get? "source")))
      location 0 inputs = .ok (inputs.mapIdx (stepInputReferences consumer location)) := by
    rw [readItems_ok]
    simp only [Nat.zero_add]
    rfl
  have hport {place : String} {port : Json} {references : List SourceReference}
      (h : (.ok (referencesAt consumer place (port.get? "source")) : Reading _) = .ok references) :
      Enumerates (· < ·) (RefersAt consumer place (port.get? "source")) references := by
    cases h
    exact enumerates_referencesAt _ _ _
  rw [← List.flatMap_id']
  exact enumerates_readItems hport hread

/-- A step is read with its references, in the order of its inputs. -/
theorem enumerates_readStep {place : String} {step : Json} {result : String × List SourceReference}
    (h : readStep place step = .ok result) :
    Enumerates (Prod.Lex (· < ·) (· < ·)) (StepRefers place step) result.2 := by
  obtain ⟨id, hid, rfl⟩ := exists_of_readStep h
  refine (enumerates_stepInputReferences _ _ _).congr fun key reference ↦ ?_
  constructor
  · rintro ⟨port, hport, hrefers⟩
    exact ⟨id, port, hid, hport, hrefers⟩
  · rintro ⟨other, port, hother, hport, hrefers⟩
    rw [hother.unique hid] at hrefers
    exact ⟨port, hport, hrefers⟩

/-- An output is read with its references, in the order of its value. -/
theorem enumerates_readOutput {place : String} {output : Json} {result : String × List SourceReference}
    (h : readOutput place output = .ok result) :
    Enumerates (· < ·) (OutputRefers place output) result.2 := by
  obtain ⟨id, hid, rfl⟩ := exists_of_readOutput h
  refine (enumerates_referencesAt _ _ _).congr fun index reference ↦ ?_
  constructor
  · intro hrefers
    exact ⟨id, hid, hrefers⟩
  · rintro ⟨other, hother, hrefers⟩
    rwa [hother.unique hid] at hrefers

/-- A workflow is read with the references of its document, in order. -/
theorem enumerates_readWorkflow {raw : Json} {workflow : Workflow}
    (h : readWorkflow raw = .ok workflow) :
    Enumerates SourcePlace.Precedes (Refers raw) workflow.references := by
  obtain ⟨steps, outputs, hsteps, houtputs, rfl⟩ := exists_of_readWorkflow h
  dsimp only
  rw [List.flatMap_append]
  refine ((enumerates_readItems enumerates_readStep hsteps).append
    (enumerates_readItems enumerates_readOutput houtputs)).congr fun place reference ↦ ?_
  constructor
  · intro hrefers
    match place with
    | .inl (index, key) =>
      obtain ⟨step, hstep, hrefers⟩ := hrefers
      exact .step hstep hrefers
    | .inr (index, key) =>
      obtain ⟨output, houtput, hrefers⟩ := hrefers
      exact .output houtput hrefers
  · rintro (⟨hstep, hrefers⟩ | ⟨houtput, hrefers⟩)
    · exact ⟨_, hstep, hrefers⟩
    · exact ⟨_, houtput, hrefers⟩

/-- A source is taken where the document refers to it. -/
theorem takes_iff {raw : Json} {workflow : Workflow} (h : readWorkflow raw = .ok workflow)
    {consumer source : String} :
    Takes raw consumer source ↔ ∃ place reference, Refers raw place reference ∧
      reference.consumer = consumer ∧ reference.source = source := by
  rw [← (describes_of_readWorkflow h).references]
  simp only [(enumerates_readWorkflow h).mem_iff]
  constructor
  · rintro ⟨reference, ⟨place, hrefers⟩, hends⟩
    exact ⟨place, reference, hrefers, hends⟩
  · rintro ⟨place, reference, hrefers, hends⟩
    exact ⟨reference, ⟨place, hrefers⟩, hends⟩

end Document

namespace Workflow

open Document (Refers Means DeclaresNode Supplies Feeds Enumerates SourcePlace)

/-! ## Errors -/

/-- The errors of a report are those for unknown sources, and one for a cycle behind them; the only warning
is that the graph is not connected. -/
theorem findings_report (workflow : Workflow) :
    workflow.report.findings.errors = workflow.unknownSources.errors ++
        (if workflow.graph.order? = none then
          [⟨Document.root, Graph.Fault.cyclic.message, .graph⟩] else []) ∧
      ∀ warning ∈ workflow.report.findings.warnings,
        warning = ⟨Document.root, Graph.Fault.disconnected.message, .graph⟩ := by
  cases horder : workflow.graph.order? with
  | none =>
      rw [report_of_order?_eq_none horder, if_pos rfl]
      exact ⟨rfl, nofun⟩
  | some order =>
      rw [(report_of_order?_eq_some horder).2.1, if_neg nofun, List.append_nil]
      refine ⟨rfl, ?_⟩
      unfold report Graph.sort
      dsimp only
      rw [horder]
      dsimp only
      split_ifs
      · exact nofun
      · exact fun warning hmem ↦ List.mem_singleton.1 hmem

/-- The unknown sources of a workflow are those of its document that mean no node, in order. -/
theorem exists_unknownSources {raw : Json} {workflow : Workflow}
    (h : Document.readWorkflow raw = .ok workflow) :
    ∃ unknown : List SourceReference,
      Enumerates SourcePlace.Precedes
        (fun place reference ↦ Refers raw place reference ∧ ¬ ∃ node, Means raw reference.source node)
        unknown ∧
      workflow.unknownSources.errors = unknown.map fun reference ↦
        ⟨reference.location, "Unknown source " ++ reference.source, .graph⟩ := by
  refine ⟨_, ((Document.enumerates_readWorkflow h).filter _).congr fun place reference ↦ ?_, rfl⟩
  refine and_congr_right fun _ ↦ ?_
  rw [Option.isNone_iff_eq_none, Option.eq_none_iff_forall_ne_some, not_exists]
  exact forall_congr' fun node ↦
    not_congr (Document.describes_of_readWorkflow h).resolve?_eq_some_iff

/-- Every source that a step or an output of a document refers to either means a declared node, and then
the node has an edge to the one that takes the source; or it means none, and there is one error for it.  The
errors are in the order of the document, before one for a cycle.  There are no other errors and edges, and
all nodes are declared. -/
theorem errors_of_readWorkflow {raw : Json} {workflow : Workflow}
    (h : Document.readWorkflow raw = .ok workflow) :
    (∃ (unknown : List SourceReference) (cycle : List Finding),
      Enumerates SourcePlace.Precedes
        (fun place reference ↦ Refers raw place reference ∧ ¬ ∃ node, Means raw reference.source node)
        unknown ∧
      (cycle = [⟨"document", "Graph has cycles", .graph⟩] ∧
          (∃ id, Relation.TransGen (Feeds raw) id id) ∨
        cycle = [] ∧ ¬ ∃ id, Relation.TransGen (Feeds raw) id id) ∧
      workflow.report.findings.errors =
        unknown.map (fun reference ↦
          ⟨reference.location, "Unknown source " ++ reference.source, .graph⟩) ++ cycle) ∧
    (∀ warning ∈ workflow.report.findings.warnings,
      warning = ⟨"document", "Graph is not connected", .graph⟩) ∧
    (∀ source consumer, workflow.graph.Joins source consumer ↔
      ∃ place reference, Refers raw place reference ∧ reference.consumer = consumer ∧
        Means raw reference.source source) ∧
    ∀ node, node ∈ workflow.graph.nodes ↔ DeclaresNode raw node := by
  have hdescribes := Document.describes_of_readWorkflow h
  obtain ⟨herrors, hwarnings⟩ := workflow.findings_report
  refine ⟨?_, hwarnings, fun source consumer ↦ ?_, fun node ↦ hdescribes.mem_nodes_graph_iff⟩
  · obtain ⟨unknown, hunknown, hreported⟩ := exists_unknownSources h
    refine ⟨unknown, _, hunknown, ?_, hreported ▸ herrors⟩
    rw [← hdescribes.order?_eq_none_iff]
    by_cases horder : workflow.graph.order? = none
    · exact .inl ⟨if_pos horder, horder⟩
    · exact .inr ⟨if_neg horder, horder⟩
  · rw [hdescribes.joins_graph_iff]
    unfold Supplies
    simp only [Document.takes_iff h]
    constructor
    · rintro ⟨_, ⟨place, reference, hrefers, hconsumer, rfl⟩, hmeans⟩
      exact ⟨place, reference, hrefers, hconsumer, hmeans⟩
    · rintro ⟨place, reference, hrefers, hconsumer, hmeans⟩
      exact ⟨_, ⟨place, reference, hrefers, hconsumer, rfl⟩, hmeans⟩

/-- In the ring one source means nothing, and the error for it stands before that for the cycle; another
source gives an edge. -/
theorem errors_of_readWorkflow_ring :
    ∃ workflow, Document.readWorkflow ring = .ok workflow ∧
      workflow.report.findings.errors =
        [⟨"document.steps[1].in[0]", "Unknown source nowhere", .graph⟩,
         ⟨"document", "Graph has cycles", .graph⟩] ∧
      (∃ (unknown : List SourceReference) (cycle : List Finding),
        Enumerates SourcePlace.Precedes
          (fun place reference ↦
            Refers ring place reference ∧ ¬ ∃ node, Means ring reference.source node)
          unknown ∧
        workflow.report.findings.errors =
          unknown.map (fun reference ↦
            ⟨reference.location, "Unknown source " ++ reference.source, .graph⟩) ++ cycle) ∧
      ∃ place reference, Refers ring place reference ∧ reference.consumer = "step:sort" ∧
        Means ring reference.source "step:align" := by
  refine ⟨_, rfl, by decide, ?_⟩
  have hread : Document.readWorkflow ring = .ok _ := rfl
  obtain ⟨⟨unknown, cycle, hunknown, -, herrors⟩, -, hjoins, -⟩ := errors_of_readWorkflow hread
  refine ⟨⟨unknown, cycle, hunknown, herrors⟩, (hjoins _ _).1 ?_⟩
  unfold Graph.Joins
  decide

end Workflow

end Invocation
