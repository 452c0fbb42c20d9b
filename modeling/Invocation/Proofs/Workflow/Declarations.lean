import Invocation.Document.Workflow
import Invocation.Proofs.Document.Reading

/-!
# What a workflow document declares

The declarations of a workflow are relations on its document: the inputs, steps and outputs with their
ids, the sources that the inputs of a step and an output take, and the node that a source means.
`Describes workflow raw` says that a workflow holds the same ids and references, and reading a document
gives a workflow that does (`describes_of_readWorkflow`).
-/

namespace Invocation

open Workflow (inputNode stepNode outputNode stepOfSource)

namespace Document

/-! ## Ids and sources -/

/-- The item has the id, perhaps with number signs in front. -/
def HasId (item : Json) (id : String) : Prop :=
  ∃ name, item.get? "id" = some (.string name) ∧ id = withoutSigns name

/-- The document declares an input with the id, as an object or as the id alone. -/
def DeclaresInput (raw : Json) (id : String) : Prop :=
  ∃ item ∈ listForm "id" "type" (raw.get? "inputs"),
    HasId item id ∨ ∃ name, item = .string name ∧ id = withoutSigns name

/-- The item is a step of the document with the id. -/
structure IsStep (raw step : Json) (id : String) : Prop where
  mem : step ∈ listForm "id" "run" (raw.get? "steps")
  hasId : HasId step id

/-- The item is an output of the document with the id. -/
structure IsOutput (raw output : Json) (id : String) : Prop where
  mem : output ∈ listForm "id" "type" (raw.get? "outputs")
  hasId : HasId output id

/-- The value names the source, alone or in a list. -/
inductive NamesSource : Json → String → Prop where
  | string (source : String) : NamesSource (.string source) source
  | item {items : List Json} {source : String} :
      .string source ∈ items → NamesSource (.array items) source

/-- Some input of the step takes the source. -/
def StepTakes (step : Json) (source : String) : Prop :=
  ∃ port ∈ listForm "id" "source" ((step.get? "in").or (step.get? "inputs")),
    ∃ value, port.get? "source" = some value ∧ NamesSource value source

/-- The output takes the source. -/
def OutputTakes (output : Json) (source : String) : Prop :=
  ∃ value, (output.get? "outputSource").or (output.get? "source") = some value ∧
    NamesSource value source

/-- `Takes raw consumer source` says that the document has a step or an output that takes the source, and
that its node is the consumer. -/
inductive Takes (raw : Json) : String → String → Prop where
  | step {step : Json} {id source : String} :
      IsStep raw step id → StepTakes step source → Takes raw (stepNode id) source
  | output {output : Json} {id source : String} :
      IsOutput raw output id → OutputTakes output source → Takes raw (outputNode id) source

/-- `Means raw source node` says that the source, without number signs, is the id of an input, or else
that a step has the id that stands in front of its first slash or point. -/
inductive Means (raw : Json) (source : String) : String → Prop where
  | input :
      DeclaresInput raw (withoutSigns source) → Means raw source (inputNode (withoutSigns source))
  | step {step : Json} :
      ¬ DeclaresInput raw (withoutSigns source) →
      IsStep raw step (stepOfSource (withoutSigns source)) →
      Means raw source (stepNode (stepOfSource (withoutSigns source)))

/-- The document declares an input, a step or an output with this node. -/
inductive DeclaresNode (raw : Json) : String → Prop where
  | input {id : String} : DeclaresInput raw id → DeclaresNode raw (inputNode id)
  | step {step : Json} {id : String} : IsStep raw step id → DeclaresNode raw (stepNode id)
  | output {output : Json} {id : String} : IsOutput raw output id → DeclaresNode raw (outputNode id)

/-- `Supplies raw source consumer` says that the consumer takes a source that means the other node. -/
def Supplies (raw : Json) (source consumer : String) : Prop :=
  ∃ reference, Takes raw consumer reference ∧ Means raw reference source

/-- `Feeds raw source target` says that an input of a step with the id `target` takes a source that means
the step with the id `source`. -/
def Feeds (raw : Json) (source target : String) : Prop :=
  ∃ step reference, IsStep raw step target ∧ StepTakes step reference ∧
    Means raw reference (stepNode source)

/-! ## Nodes of steps -/

/-- A node with the front of a step is not one of an output. -/
theorem stepNode_ne_outputNode (step output : String) : stepNode step ≠ outputNode output := by
  intro h
  have hchars := congrArg String.toList h
  simp [stepNode, outputNode] at hchars

/-- A node with the front of an input is not one of an output. -/
theorem inputNode_ne_outputNode (input output : String) : inputNode input ≠ outputNode output := by
  intro h
  have hchars := congrArg String.toList h
  simp [inputNode, outputNode] at hchars

/-- A node with the front of a step is not one of an input. -/
theorem stepNode_ne_inputNode (step input : String) : stepNode step ≠ inputNode input := by
  intro h
  have hchars := congrArg String.toList h
  simp [stepNode, inputNode] at hchars

/-- Steps with one node have one id. -/
theorem stepNode_inj {first second : String} : stepNode first = stepNode second ↔ first = second :=
  String.append_right_inj _

/-- The node that supplies another one is declared. -/
theorem Means.declared {raw : Json} {source node : String} (h : Means raw source node) :
    DeclaresNode raw node := by
  cases h with
  | input hinput => exact .input hinput
  | step _ hstep => exact .step hstep

/-- A node that takes a source is declared. -/
theorem Takes.declared {raw : Json} {consumer source : String} (h : Takes raw consumer source) :
    DeclaresNode raw consumer := by
  cases h with
  | step hstep _ => exact .step hstep
  | output houtput _ => exact .output houtput

/-- A node between two others is that of a step: inputs take nothing, and outputs supply nothing. -/
theorem exists_stepNode {raw : Json} {before node after : String} (hin : Supplies raw before node)
    (hout : Supplies raw node after) : ∃ id, node = stepNode id := by
  obtain ⟨_, htakes, _⟩ := hin
  obtain ⟨_, _, hmeans⟩ := hout
  cases htakes with
  | step => exact ⟨_, rfl⟩
  | @output _ id _ =>
      -- no source means an output
      generalize hnode : outputNode id = node at hmeans
      cases hmeans with
      | input => exact absurd hnode.symm (inputNode_ne_outputNode _ _)
      | step => exact absurd hnode.symm (stepNode_ne_outputNode _ _)

/-- The node of a step supplies that of another one when it feeds the step. -/
theorem supplies_stepNode_iff {raw : Json} {source target : String} :
    Supplies raw (stepNode source) (stepNode target) ↔ Feeds raw source target := by
  constructor
  · rintro ⟨reference, htakes, hmeans⟩
    generalize hnode : stepNode target = node at htakes
    cases htakes with
    | step hstep hsource =>
        rw [stepNode_inj.1 hnode]
        exact ⟨_, reference, hstep, hsource, hmeans⟩
    | output => exact absurd hnode (stepNode_ne_outputNode _ _)
  · rintro ⟨step, reference, hstep, hsource, hmeans⟩
    exact ⟨reference, .step hstep hsource, hmeans⟩

end Document

/-! ## Reading -/

/-- The workflow holds the ids and the references that the document declares. -/
structure Workflow.Describes (workflow : Workflow) (raw : Json) : Prop where
  inputs {id : String} : id ∈ workflow.inputs ↔ Document.DeclaresInput raw id
  steps {id : String} : id ∈ workflow.steps ↔ ∃ step, Document.IsStep raw step id
  outputs {id : String} : id ∈ workflow.outputs ↔ ∃ output, Document.IsOutput raw output id
  references {consumer source : String} :
    (∃ reference ∈ workflow.references, reference.consumer = consumer ∧ reference.source = source) ↔
      Document.Takes raw consumer source

namespace Document

/-- The text of a member of an item gives it an id. -/
theorem hasId_of_bind {item : Json} {name : String}
    (h : (item.get? "id").bind Json.string? = some name) : HasId item (withoutSigns name) := by
  obtain ⟨value, hvalue, hname⟩ := Option.bind_eq_some_iff.1 h
  rw [string?_eq_some_iff.1 hname] at hvalue
  exact ⟨name, hvalue, rfl⟩

/-- An item has only one id. -/
theorem HasId.unique {item : Json} {id other : String} (h : HasId item id)
    (hother : HasId item other) : id = other := by
  obtain ⟨name, hname, rfl⟩ := h
  obtain ⟨otherName, hotherName, rfl⟩ := hother
  rw [hname] at hotherName
  cases hotherName
  rfl

/-- The sources that are read are those that the value names. -/
theorem mem_sourcesOf_iff {raw : Option Json} {source : String} :
    source ∈ sourcesOf raw ↔ ∃ value, raw = some value ∧ NamesSource value source := by
  constructor
  · intro hmem
    match raw with
    | some (.string text) =>
      rw [List.mem_singleton.1 hmem]
      exact ⟨_, rfl, .string text⟩
    | some (.array items) =>
      obtain ⟨item, hitem, htext⟩ := List.mem_filterMap.1 hmem
      rw [string?_eq_some_iff.1 htext] at hitem
      exact ⟨_, rfl, .item hitem⟩
    | none | some .null | some (.bool _) | some (.number _) | some (.object _) => cases hmem
  · rintro ⟨value, rfl, hnames⟩
    cases hnames with
    | string => exact List.mem_singleton_self _
    | item hitem => exact List.mem_filterMap.2 ⟨_, hitem, rfl⟩

/-- The references of a consumer are to the sources that the value names. -/
theorem mem_referencesAt_iff {consumer location : String} {raw : Option Json}
    {reference : SourceReference} :
    reference ∈ referencesAt consumer location raw ↔
      reference.consumer = consumer ∧ reference.location = location ∧
        ∃ value, raw = some value ∧ NamesSource value reference.source := by
  unfold referencesAt
  rw [List.mem_map]
  constructor
  · rintro ⟨source, hsource, rfl⟩
    exact ⟨rfl, rfl, mem_sourcesOf_iff.1 hsource⟩
  · rintro ⟨rfl, rfl, hnamed⟩
    exact ⟨reference.source, mem_sourcesOf_iff.2 hnamed, rfl⟩

/-- What a consumer is read as: its id, and a reference of its node for every source that it takes. -/
structure ReadAs (node : String → String) (takes : Json → String → Prop) (item : Json)
    (result : String × List SourceReference) : Prop where
  hasId : HasId item result.1
  references {consumer source : String} :
    (∃ reference ∈ result.2, reference.consumer = consumer ∧ reference.source = source) ↔
      consumer = node result.1 ∧ takes item source

/-- A step that is read has an id, and its references are those of its inputs. -/
theorem exists_of_readStep {place : String} {step : Json} {result : String × List SourceReference}
    (h : readStep place step = .ok result) :
    ∃ id, HasId step id ∧ result = (id,
      ((listForm "id" "source" ((step.get? "in").or (step.get? "inputs"))).mapIdx
        (stepInputReferences (stepNode id) (child place "in"))).flatten) := by
  unfold readStep at h
  cases hname : (step.get? "id").bind Json.string? with
  | none =>
      rw [hname] at h
      cases h
  | some name =>
      rw [hname] at h
      cases h
      exact ⟨_, hasId_of_bind hname, rfl⟩

/-- An output that is read has an id, and its references are those of its value. -/
theorem exists_of_readOutput {place : String} {output : Json}
    {result : String × List SourceReference} (h : readOutput place output = .ok result) :
    ∃ id, HasId output id ∧ result = (id,
      referencesAt (outputNode id) place ((output.get? "outputSource").or (output.get? "source"))) := by
  unfold readOutput at h
  cases hname : (output.get? "id").bind Json.string? with
  | none =>
      rw [hname] at h
      cases h
  | some name =>
      rw [hname] at h
      cases h
      exact ⟨_, hasId_of_bind hname, rfl⟩

/-- A step is read with the references of its inputs. -/
theorem readAs_readStep {place : String} {step : Json} {result : String × List SourceReference}
    (h : readStep place step = .ok result) : ReadAs stepNode StepTakes step result := by
  obtain ⟨id, hid, rfl⟩ := exists_of_readStep h
  refine ⟨hid, fun {consumer source} ↦ ?_⟩
  constructor
  · rintro ⟨reference, hmem, rfl, rfl⟩
    obtain ⟨references, hreferences, hmem⟩ := List.mem_flatten.1 hmem
    obtain ⟨index, hindex, rfl⟩ := List.mem_mapIdx.1 hreferences
    obtain ⟨hconsumer, _, hnamed⟩ := mem_referencesAt_iff.1 hmem
    exact ⟨hconsumer, _, List.getElem_mem hindex, hnamed⟩
  · rintro ⟨rfl, port, hport, hnamed⟩
    obtain ⟨index, hindex, rfl⟩ := List.mem_iff_getElem.1 hport
    refine ⟨⟨_, source, _⟩, List.mem_flatten.2 ⟨_, List.mem_mapIdx.2 ⟨index, hindex, rfl⟩,
      mem_referencesAt_iff.2 ⟨rfl, rfl, hnamed⟩⟩, rfl, rfl⟩

/-- An output is read with its references. -/
theorem readAs_readOutput {place : String} {output : Json}
    {result : String × List SourceReference} (h : readOutput place output = .ok result) :
    ReadAs outputNode OutputTakes output result := by
  obtain ⟨id, hid, rfl⟩ := exists_of_readOutput h
  refine ⟨hid, fun {consumer source} ↦ ?_⟩
  constructor
  · rintro ⟨reference, hmem, rfl, rfl⟩
    obtain ⟨hconsumer, _, hnamed⟩ := mem_referencesAt_iff.1 hmem
    exact ⟨hconsumer, hnamed⟩
  · rintro ⟨rfl, hnamed⟩
    exact ⟨⟨_, source, _⟩, mem_referencesAt_iff.2 ⟨rfl, rfl, hnamed⟩, rfl, rfl⟩

/-- The ids of consumers that are read are their ids. -/
theorem mem_ids_iff {node : String → String} {takes : Json → String → Prop} {items : List Json}
    {results : List (String × List SourceReference)}
    (h : List.Forall₂ (ReadAs node takes) items results) {id : String} :
    id ∈ results.map Prod.fst ↔ ∃ item ∈ items, HasId item id := by
  induction h with
  | nil => simp
  | @cons item result _ _ hfirst _ ih =>
      have hid : id = result.1 ↔ HasId item id := by
        constructor
        · rintro rfl
          exact hfirst.hasId
        · intro hid
          exact hid.unique hfirst.hasId
      rw [List.map_cons, List.mem_cons, ih, List.exists_mem_cons_iff, hid]

/-- The references of consumers that are read are to the sources that they take. -/
theorem exists_reference_iff {node : String → String} {takes : Json → String → Prop}
    {items : List Json} {results : List (String × List SourceReference)}
    (h : List.Forall₂ (ReadAs node takes) items results) {consumer source : String} :
    (∃ reference ∈ results.flatMap Prod.snd,
        reference.consumer = consumer ∧ reference.source = source) ↔
      ∃ item ∈ items, ∃ id, HasId item id ∧ consumer = node id ∧ takes item source := by
  induction h with
  | nil => simp
  | @cons item result _ _ hfirst _ ih =>
      have hitem : (∃ id, HasId item id ∧ consumer = node id ∧ takes item source) ↔
          consumer = node result.1 ∧ takes item source := by
        constructor
        · rintro ⟨id, hid, hconsumer, htakes⟩
          rw [← hid.unique hfirst.hasId]
          exact ⟨hconsumer, htakes⟩
        · rintro ⟨hconsumer, htakes⟩
          exact ⟨result.1, hfirst.hasId, hconsumer, htakes⟩
      rw [List.exists_mem_cons_iff, hitem, ← hfirst.references, ← ih, List.flatMap_cons]
      simp only [List.mem_append, or_and_right, exists_or]

/-- The ids of inputs that are read are those that inputs are declared with. -/
theorem exists_inputId?_iff {item : Json} {id : String} :
    (∃ name, inputId? item = some name ∧ withoutSigns name = id) ↔
      HasId item id ∨ ∃ name, item = .string name ∧ id = withoutSigns name := by
  unfold inputId?
  constructor
  · rintro ⟨name, hname, rfl⟩
    rcases Option.or_eq_some_iff.1 hname with hname | ⟨_, hname⟩
    · exact .inl (hasId_of_bind hname)
    · exact .inr ⟨name, string?_eq_some_iff.1 hname, rfl⟩
  · rintro (⟨name, hname, rfl⟩ | ⟨name, rfl, rfl⟩)
    · exact ⟨name, by simp [hname, Json.string?], rfl⟩
    · exact ⟨name, rfl, rfl⟩

/-- A workflow that is read consists of what is read of the inputs, the steps and the outputs. -/
theorem exists_of_readWorkflow {raw : Json} {workflow : Workflow}
    (h : readWorkflow raw = .ok workflow) :
    ∃ steps outputs,
      readItems readStep (child root "steps") 0 (listForm "id" "run" (raw.get? "steps")) = .ok steps ∧
      readItems readOutput (child root "outputs") 0 (listForm "id" "type" (raw.get? "outputs")) =
        .ok outputs ∧
      workflow = {
        inputs := ((listForm "id" "type" (raw.get? "inputs")).filterMap inputId?).map withoutSigns
        steps := steps.map Prod.fst
        outputs := outputs.map Prod.fst
        references := (steps ++ outputs).flatMap Prod.snd } := by
  unfold readWorkflow at h
  cases hmembers : raw.members? with
  | none =>
      rw [hmembers] at h
      cases h
  | some members =>
      have hget (key : String) : members.lookup key = raw.get? key := by
        cases raw <;> cases hmembers
        rfl
      rw [hmembers] at h
      simp only [hget] at h
      obtain ⟨steps, hsteps, h⟩ := bind_eq_ok_iff.1 h
      obtain ⟨outputs, houtputs, h⟩ := bind_eq_ok_iff.1 h
      cases h
      exact ⟨steps, outputs, hsteps, houtputs, rfl⟩

/-- A document that is read declares what the workflow holds. -/
theorem describes_of_readWorkflow {raw : Json} {workflow : Workflow}
    (h : readWorkflow raw = .ok workflow) : workflow.Describes raw := by
  obtain ⟨steps, outputs, hsteps, houtputs, rfl⟩ := exists_of_readWorkflow h
  have hstepsAs := (forall₂_readItems hsteps).imp fun _ _ ⟨_, hread⟩ ↦ readAs_readStep hread
  have houtputsAs := (forall₂_readItems houtputs).imp fun _ _ ⟨_, hread⟩ ↦
    readAs_readOutput hread
  refine ⟨fun {id} ↦ ?_, fun {id} ↦ ?_, fun {id} ↦ ?_, fun {consumer source} ↦ ?_⟩
  · simp only [DeclaresInput, ← exists_inputId?_iff, List.mem_map, List.mem_filterMap]
    constructor
    · rintro ⟨name, ⟨item, hitem, hname⟩, hid⟩
      exact ⟨item, hitem, name, hname, hid⟩
    · rintro ⟨item, hitem, name, hname, hid⟩
      exact ⟨name, ⟨item, hitem, hname⟩, hid⟩
  · rw [mem_ids_iff hstepsAs]
    exact exists_congr fun step ↦ ⟨fun h ↦ ⟨h.1, h.2⟩, fun h ↦ ⟨h.1, h.2⟩⟩
  · rw [mem_ids_iff houtputsAs]
    exact exists_congr fun output ↦ ⟨fun h ↦ ⟨h.1, h.2⟩, fun h ↦ ⟨h.1, h.2⟩⟩
  · have hsplit : (∃ reference ∈ (steps ++ outputs).flatMap Prod.snd,
        reference.consumer = consumer ∧ reference.source = source) ↔
        (∃ reference ∈ steps.flatMap Prod.snd,
          reference.consumer = consumer ∧ reference.source = source) ∨
        ∃ reference ∈ outputs.flatMap Prod.snd,
          reference.consumer = consumer ∧ reference.source = source := by
      simp only [List.flatMap_append, List.mem_append, or_and_right, exists_or]
    rw [hsplit, exists_reference_iff hstepsAs, exists_reference_iff houtputsAs]
    constructor
    · rintro (⟨step, hmem, id, hid, rfl, htakes⟩ | ⟨output, hmem, id, hid, rfl, htakes⟩)
      · exact .step ⟨hmem, hid⟩ htakes
      · exact .output ⟨hmem, hid⟩ htakes
    · rintro (⟨⟨hmem, hid⟩, htakes⟩ | ⟨⟨hmem, hid⟩, htakes⟩)
      · exact .inl ⟨_, hmem, _, hid, rfl, htakes⟩
      · exact .inr ⟨_, hmem, _, hid, rfl, htakes⟩

end Document

end Invocation
