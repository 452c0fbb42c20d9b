import Invocation.Proofs.Document.Rearrangement
import Invocation.Proofs.Workflow.Sources

/-!
# Workflows in another order

The inputs, steps and outputs of a workflow document, the inputs of a step and the sources of a consumer may
stand in any order.  A rearranged document (`RearrangesWorkflow`) can be read when the document can, its
workflow has the same graph, and so its report has the same order and the same findings, but for the indices
in their places (`report_of_rearranged`).
-/

namespace Invocation

namespace Document

/-! ## Documents -/

/-- The sources of an input of a step are rearranged.  Members that are not read are left open. -/
inductive RearrangesPort : Json → Json → Prop
  | object {members others : Entries Json} :
      Option.Rel (Rearranges Eq) (members.lookup "source") (others.lookup "source") →
      RearrangesPort (.object members) (.object others)
  | same (raw : Json) : RearrangesPort raw raw

/-- The inputs of a step and their sources are rearranged. -/
inductive RearrangesStep : Json → Json → Prop
  | object {members others : Entries Json} :
      others.lookup "id" = members.lookup "id" →
      Option.Rel (Rearranges RearrangesPort) (members.lookup "in") (others.lookup "in") →
      Option.Rel (Rearranges RearrangesPort) (members.lookup "inputs") (others.lookup "inputs") →
      RearrangesStep (.object members) (.object others)
  | same (raw : Json) : RearrangesStep raw raw

/-- The sources of an output are rearranged. -/
inductive RearrangesOutput : Json → Json → Prop
  | object {members others : Entries Json} :
      others.lookup "id" = members.lookup "id" →
      Option.Rel (Rearranges Eq) (members.lookup "outputSource") (others.lookup "outputSource") →
      Option.Rel (Rearranges Eq) (members.lookup "source") (others.lookup "source") →
      RearrangesOutput (.object members) (.object others)
  | same (raw : Json) : RearrangesOutput raw raw

/-- The inputs, the steps and the outputs of a workflow are rearranged. -/
inductive RearrangesWorkflow : Json → Json → Prop
  | object {members others : Entries Json} :
      Option.Rel (Rearranges Eq) (members.lookup "inputs") (others.lookup "inputs") →
      Option.Rel (Rearranges RearrangesStep) (members.lookup "steps") (others.lookup "steps") →
      Option.Rel (Rearranges RearrangesOutput) (members.lookup "outputs") (others.lookup "outputs") →
      RearrangesWorkflow (.object members) (.object others)
  | same (raw : Json) : RearrangesWorkflow raw raw

/-! ## Acceptance -/

/-- An item has an id when its member for the id is a text. -/
theorem exists_hasId_iff {item : Json} :
    (∃ id, HasId item id) ↔ ∃ name, (item.get? "id").bind Json.string? = some name := by
  constructor
  · rintro ⟨_, name, hname, -⟩
    exact ⟨name, by rw [hname]; rfl⟩
  · rintro ⟨name, hname⟩
    exact ⟨_, hasId_of_bind hname⟩

/-- A step can be read when it has an id. -/
theorem exists_readStep_iff (place : String) (step : Json) :
    (∃ result, readStep place step = .ok result) ↔ ∃ id, HasId step id := by
  rw [exists_hasId_iff]
  unfold readStep
  cases (step.get? "id").bind Json.string? <;> simp

/-- An output can be read when it has an id. -/
theorem exists_readOutput_iff (place : String) (output : Json) :
    (∃ result, readOutput place output = .ok result) ↔ ∃ id, HasId output id := by
  rw [exists_hasId_iff]
  unfold readOutput
  cases (output.get? "id").bind Json.string? <;> simp

/-- A workflow can be read when it is an object and each of its steps and outputs has an id. -/
theorem exists_readWorkflow_iff {raw : Json} :
    (∃ workflow, readWorkflow raw = .ok workflow) ↔
      (∃ members, raw = .object members) ∧
      (∀ step ∈ listForm "id" "run" (raw.get? "steps"), ∃ id, HasId step id) ∧
      ∀ output ∈ listForm "id" "type" (raw.get? "outputs"), ∃ id, HasId output id := by
  rw [← exists_readItems_iff exists_readStep_iff (child root "steps") 0,
    ← exists_readItems_iff exists_readOutput_iff (child root "outputs") 0]
  constructor
  · rintro ⟨workflow, h⟩
    obtain ⟨steps, outputs, hsteps, houtputs, -⟩ := exists_of_readWorkflow h
    refine ⟨?_, ⟨steps, hsteps⟩, outputs, houtputs⟩
    cases raw with
    | object members => exact ⟨members, rfl⟩
    | null | bool | number | string | array => cases h
  · rintro ⟨⟨members, rfl⟩, ⟨steps, hsteps⟩, outputs, houtputs⟩
    simp only [readWorkflow, Json.members?, bind_eq_ok_iff]
    exact ⟨_, steps, hsteps, outputs, houtputs, rfl⟩

/-- A rearranged step has the same id. -/
theorem RearrangesStep.hasId_iff {step other : Json} (h : RearrangesStep step other) (id : String) :
    HasId step id ↔ HasId other id := by
  cases h with
  | object hid => simp only [HasId, Json.get?, hid]
  | same => exact Iff.rfl

/-- A rearranged output has the same id. -/
theorem RearrangesOutput.hasId_iff {output other : Json} (h : RearrangesOutput output other)
    (id : String) : HasId output id ↔ HasId other id := by
  cases h with
  | object hid => simp only [HasId, Json.get?, hid]
  | same => exact Iff.rfl

/-- What a rearranged workflow has in its lists. -/
theorem RearrangesWorkflow.lists {raw other : Json} (h : RearrangesWorkflow raw other) :
    (listForm "id" "type" (raw.get? "inputs")).Perm (listForm "id" "type" (other.get? "inputs")) ∧
    PermBy RearrangesStep (listForm "id" "run" (raw.get? "steps"))
      (listForm "id" "run" (other.get? "steps")) ∧
    PermBy RearrangesOutput (listForm "id" "type" (raw.get? "outputs"))
      (listForm "id" "type" (other.get? "outputs")) := by
  cases h with
  | object hinputs hsteps houtputs =>
      exact ⟨(permBy_listForm Eq.refl hinputs _ _).perm, permBy_listForm .same hsteps _ _,
        permBy_listForm .same houtputs _ _⟩
  | same => exact ⟨.refl _, .refl .same _, .refl .same _⟩

/-- A rearranged workflow can be read when the workflow can. -/
theorem RearrangesWorkflow.exists_readWorkflow_iff {raw other : Json} (h : RearrangesWorkflow raw other) :
    (∃ workflow, readWorkflow raw = .ok workflow) ↔ ∃ workflow, readWorkflow other = .ok workflow := by
  obtain ⟨-, hsteps, houtputs⟩ := h.lists
  have hobject : (∃ members, raw = .object members) ↔ ∃ members, other = .object members := by
    cases h with
    | object => simp
    | same => exact Iff.rfl
  have hnamed := hsteps.forall_mem_iff fun step other (hstep : RearrangesStep step other) ↦
    exists_congr fun id ↦ hstep.hasId_iff id
  have hnamedOutputs := houtputs.forall_mem_iff fun output other (houtput : RearrangesOutput output other) ↦
    exists_congr fun id ↦ houtput.hasId_iff id
  rw [Document.exists_readWorkflow_iff, Document.exists_readWorkflow_iff, hobject, hnamed, hnamedOutputs]

/-! ## References -/

/-- Of two values the second counts where the first is missing. -/
theorem rel_or {R : Json → Json → Prop} {first second other another : Option Json}
    (h : Option.Rel R first other) (hnext : Option.Rel R second another) :
    Option.Rel R (first.or second) (other.or another) := by
  cases h with
  | none => exact hnext
  | some h => exact .some h

/-- Rearranged sources are the same sources. -/
theorem perm_sourcesOf {raw other : Option Json} (h : Option.Rel (Rearranges Eq) raw other) :
    (sourcesOf raw).Perm (sourcesOf other) := by
  cases h with
  | none => exact .nil
  | some h =>
      cases h with
      | items hitems => exact hitems.perm.filterMap _
      | same => exact .refl _

/-- A rearranged input of a step takes the same sources. -/
theorem RearrangesPort.perm_sources {port other : Json} (h : RearrangesPort port other) :
    (sourcesOf (port.get? "source")).Perm (sourcesOf (other.get? "source")) := by
  cases h with
  | object hsources => exact perm_sourcesOf hsources
  | same => exact .refl _

/-- A rearranged step has the same inputs. -/
theorem RearrangesStep.permBy_ports {step other : Json} (h : RearrangesStep step other) :
    PermBy RearrangesPort (listForm "id" "source" ((step.get? "in").or (step.get? "inputs")))
      (listForm "id" "source" ((other.get? "in").or (other.get? "inputs"))) := by
  cases h with
  | object _ hin hinputs => exact permBy_listForm .same (rel_or hin hinputs) _ _
  | same => exact .refl .same _

/-- A rearranged output takes the same sources. -/
theorem RearrangesOutput.perm_sources {output other : Json} (h : RearrangesOutput output other) :
    (sourcesOf ((output.get? "outputSource").or (output.get? "source"))).Perm
      (sourcesOf ((other.get? "outputSource").or (other.get? "source"))) := by
  cases h with
  | object _ houtputSource hsource => exact perm_sourcesOf (rel_or houtputSource hsource)
  | same => exact .refl _

end Document

/-- The reference without the digits of its place. -/
def SourceReference.unindexed (reference : SourceReference) : SourceReference :=
  { reference with location := Document.withoutDigits reference.location }

namespace Document

/-- Two consumers are read with the same id and the same references, but for the digits of places. -/
structure ReadAlike (first second : String × List SourceReference) : Prop where
  id : first.1 = second.1
  references : (first.2.map SourceReference.unindexed).Perm (second.2.map SourceReference.unindexed)

/-- Without digits the references of a consumer have one place. -/
theorem map_unindexed_referencesAt (consumer location : String) (raw : Option Json) :
    (referencesAt consumer location raw).map SourceReference.unindexed =
      (sourcesOf raw).map (⟨consumer, ·, withoutDigits location⟩) := by
  unfold referencesAt
  rw [List.map_map]
  rfl

/-- Without digits the references of the inputs of a step have one place. -/
theorem map_unindexed_stepInputReferences (consumer location : String) (ports : List Json) :
    (ports.mapIdx (stepInputReferences consumer location)).flatten.map SourceReference.unindexed =
      ports.flatMap fun port ↦
        (sourcesOf (port.get? "source")).map (⟨consumer, ·, withoutDigits location ++ "[]"⟩) := by
  rw [List.map_flatten, List.flatMap_def]
  refine congrArg List.flatten (List.ext_getElem (by simp) fun index _ _ ↦ ?_)
  simp [stepInputReferences, map_unindexed_referencesAt, withoutDigits_elementAt]

/-- A rearranged step is read alike, at whatever index. -/
theorem RearrangesStep.readAlike {step other : Json} {location : String} {i j : Nat}
    {first second : String × List SourceReference} (h : RearrangesStep step other)
    (hfirst : readStep (elementAt location i) step = .ok first)
    (hsecond : readStep (elementAt location j) other = .ok second) : ReadAlike first second := by
  obtain ⟨id, hid, rfl⟩ := exists_of_readStep hfirst
  obtain ⟨otherId, hotherId, rfl⟩ := exists_of_readStep hsecond
  cases ((h.hasId_iff _).1 hid).unique hotherId
  refine ⟨rfl, ?_⟩
  have hplace : withoutDigits (child (elementAt location i) "in") =
      withoutDigits (child (elementAt location j) "in") :=
    withoutDigits_child (by rw [withoutDigits_elementAt, withoutDigits_elementAt]) "in"
  rw [map_unindexed_stepInputReferences, map_unindexed_stepInputReferences, hplace]
  exact h.permBy_ports.flatMap_perm fun port another hport ↦ hport.perm_sources.map _

/-- A rearranged output is read alike, at whatever index. -/
theorem RearrangesOutput.readAlike {output other : Json} {location : String} {i j : Nat}
    {first second : String × List SourceReference} (h : RearrangesOutput output other)
    (hfirst : readOutput (elementAt location i) output = .ok first)
    (hsecond : readOutput (elementAt location j) other = .ok second) : ReadAlike first second := by
  obtain ⟨id, hid, rfl⟩ := exists_of_readOutput hfirst
  obtain ⟨otherId, hotherId, rfl⟩ := exists_of_readOutput hsecond
  cases ((h.hasId_iff _).1 hid).unique hotherId
  refine ⟨rfl, ?_⟩
  rw [map_unindexed_referencesAt, map_unindexed_referencesAt, withoutDigits_elementAt,
    withoutDigits_elementAt]
  exact h.perm_sources.map _

/-- Consumers that are read alike have the same ids. -/
theorem perm_ids {first second : List (String × List SourceReference)} (h : PermBy ReadAlike first second) :
    (first.map Prod.fst).Perm (second.map Prod.fst) :=
  h.map_perm fun _ _ halike ↦ halike.id

/-- Consumers that are read alike have the same references, but for the digits of places. -/
theorem perm_references {first second : List (String × List SourceReference)}
    (h : PermBy ReadAlike first second) :
    ((first.flatMap Prod.snd).map SourceReference.unindexed).Perm
      ((second.flatMap Prod.snd).map SourceReference.unindexed) := by
  rw [List.map_flatMap, List.map_flatMap]
  exact h.flatMap_perm fun _ _ halike ↦ halike.references

end Document

/-! ## Workflows -/

namespace Workflow

/-- The workflows have the same ids and the same references in different orders, but for the digits of
places. -/
structure Permutes (workflow other : Workflow) : Prop where
  inputs : workflow.inputs.Perm other.inputs
  steps : workflow.steps.Perm other.steps
  outputs : workflow.outputs.Perm other.outputs
  references : (workflow.references.map SourceReference.unindexed).Perm
    (other.references.map SourceReference.unindexed)

/-- A rearranged document is read as a permuted workflow. -/
theorem permutes_of_readWorkflow {raw other : Json} {workflow permuted : Workflow}
    (h : Document.RearrangesWorkflow raw other) (hworkflow : Document.readWorkflow raw = .ok workflow)
    (hpermuted : Document.readWorkflow other = .ok permuted) : workflow.Permutes permuted := by
  obtain ⟨steps, outputs, hsteps, houtputs, rfl⟩ := Document.exists_of_readWorkflow hworkflow
  obtain ⟨otherSteps, otherOutputs, hotherSteps, hotherOutputs, rfl⟩ :=
    Document.exists_of_readWorkflow hpermuted
  obtain ⟨hinputLists, hstepLists, houtputLists⟩ := h.lists
  have hstepsAlike : PermBy Document.ReadAlike steps otherSteps := by
    refine (Document.permBy_readItems hstepLists hsteps hotherSteps).mono ?_
    rintro first second ⟨step, another, hstep, ⟨i, hfirst⟩, j, hsecond⟩
    exact hstep.readAlike hfirst hsecond
  have houtputsAlike : PermBy Document.ReadAlike outputs otherOutputs := by
    refine (Document.permBy_readItems houtputLists houtputs hotherOutputs).mono ?_
    rintro first second ⟨output, another, houtput, ⟨i, hfirst⟩, j, hsecond⟩
    exact houtput.readAlike hfirst hsecond
  refine ⟨(hinputLists.filterMap _).map _, Document.perm_ids hstepsAlike,
    Document.perm_ids houtputsAlike, ?_⟩
  simp only [List.flatMap_append, List.map_append]
  exact (Document.perm_references hstepsAlike).append (Document.perm_references houtputsAlike)

namespace Permutes

variable {workflow other : Workflow}

/-- Sources mean the same. -/
theorem resolve?_eq (h : workflow.Permutes other) : other.resolve? = workflow.resolve? := by
  funext source
  unfold resolve?
  dsimp only
  rw [h.inputs.contains_eq, h.steps.contains_eq]

/-- The nodes are the same. -/
theorem perm_nodes (h : workflow.Permutes other) : workflow.nodes.Perm other.nodes :=
  ((h.inputs.map _).append (h.steps.map _)).append (h.outputs.map _)

/-- The edges are the same: the places of references do not matter to them. -/
theorem perm_edges (h : workflow.Permutes other) : workflow.edges.Perm other.edges := by
  let edge (reference : SourceReference) : Option (String × String) :=
    (workflow.resolve? reference.source).map fun source ↦ (source, reference.consumer)
  have hedges (references : List SourceReference) :
      references.filterMap edge = (references.map SourceReference.unindexed).filterMap edge := by
    rw [List.filterMap_map]
    rfl
  have hother : other.edges = other.references.filterMap edge := by
    unfold edges
    rw [h.resolve?_eq]
  rw [hother, hedges]
  show (workflow.references.filterMap edge).Perm _
  rw [hedges]
  exact h.references.filterMap _

/-- The graphs are the same. -/
theorem graph_eq (h : workflow.Permutes other) : other.graph = workflow.graph := by
  rw [graph_eq_ofInsertions, graph_eq_ofInsertions]
  refine Graph.ofInsertions_congr fun insertion ↦ ?_
  exact ((h.perm_nodes.symm.map _).append (h.perm_edges.symm.map _)).mem_iff

end Permutes

end Workflow

/-- The finding without the digits of its place. -/
def Finding.unindexed (finding : Finding) : Finding :=
  { finding with location := Document.withoutDigits finding.location }

namespace Workflow

/-- The same sources are unknown. -/
theorem Permutes.perm_unknownSources {workflow other : Workflow} (h : workflow.Permutes other) :
    (other.unknownSources.errors.map Finding.unindexed).Perm
      (workflow.unknownSources.errors.map Finding.unindexed) := by
  let finding (reference : SourceReference) : Finding :=
    ⟨reference.location, "Unknown source " ++ reference.source, .graph⟩
  let isUnknown (reference : SourceReference) : Bool := (workflow.resolve? reference.source).isNone
  have hfindings (references : List SourceReference) :
      ((references.filter isUnknown).map finding).map Finding.unindexed =
        ((references.map SourceReference.unindexed).filter isUnknown).map finding := by
    rw [List.map_map, List.filter_map, List.map_map]
    rfl
  have hother : other.unknownSources.errors = (other.references.filter isUnknown).map finding := by
    unfold unknownSources
    rw [h.resolve?_eq]
  rw [hother, hfindings]
  show List.Perm _ (((workflow.references.filter isUnknown).map finding).map Finding.unindexed)
  rw [hfindings]
  exact (h.references.symm.filter _).map _

/-- A rearranged document can be read exactly when the document can, and then its report has the same order
and, but for the digits of places, the same errors and the same warnings as often. -/
theorem report_of_rearranged {raw other : Json} (h : Document.RearrangesWorkflow raw other) :
    ((∃ workflow, Document.readWorkflow raw = .ok workflow) ↔
      ∃ workflow, Document.readWorkflow other = .ok workflow) ∧
    ∀ workflow permuted, Document.readWorkflow raw = .ok workflow →
      Document.readWorkflow other = .ok permuted →
        permuted.report.order = workflow.report.order ∧
        (permuted.report.findings.errors.map Finding.unindexed).Perm
          (workflow.report.findings.errors.map Finding.unindexed) ∧
        (permuted.report.findings.warnings.map Finding.unindexed).Perm
          (workflow.report.findings.warnings.map Finding.unindexed) := by
  refine ⟨h.exists_readWorkflow_iff, fun workflow permuted hworkflow hpermuted ↦ ?_⟩
  have hpermutes := permutes_of_readWorkflow h hworkflow hpermuted
  have hunknown := hpermutes.perm_unknownSources
  unfold report
  dsimp only
  rw [hpermutes.graph_eq]
  cases workflow.graph.sort with
  | ok order => exact ⟨rfl, hunknown, .refl _⟩
  | error fault =>
      cases fault with
      | cyclic =>
          refine ⟨rfl, ?_, .refl _⟩
          rw [Findings.errors_append, Findings.errors_append, List.map_append, List.map_append]
          exact hunknown.append_right _
      | disconnected =>
          refine ⟨rfl, ?_, .refl _⟩
          rw [Findings.errors_append, Findings.errors_append, List.map_append, List.map_append]
          exact hunknown.append_right _

/-- A step that takes what another one gives, an input and an unknown source, in front of the other step,
which takes the input and the same unknown source; the input is declared twice. -/
def braid : Json :=
  .object
    [("inputs", .array [.string "#reads", .object [("id", .string "reads")]]),
     ("steps", .array
       [.object [("id", .string "sort"), ("in", .array
          [.object [("source", .array [.string "align/bam", .string "ghost", .string "#reads"])]])],
        .object [("id", .string "#align"), ("in", .array
          [.object [("source", .string "reads")], .object [("source", .array [.string "ghost"])]])]]),
     ("outputs", .array [.object [("id", .string "bam"), ("source", .string "#sort.bam")]])]

/-- The same with the inputs, the steps, the inputs of a step and the sources of one in other orders. -/
def rebraid : Json :=
  .object
    [("inputs", .array [.object [("id", .string "reads")], .string "#reads"]),
     ("steps", .array
       [.object [("id", .string "#align"), ("in", .array
          [.object [("source", .array [.string "ghost"])], .object [("source", .string "reads")]])],
        .object [("id", .string "sort"), ("in", .array
          [.object [("source", .array [.string "ghost", .string "align/bam", .string "#reads"])]])]]),
     ("outputs", .array [.object [("id", .string "bam"), ("source", .string "#sort.bam")]])]

/-- The second braid is the first one with its lists in other orders. -/
theorem rearrangesWorkflow_braid : Document.RearrangesWorkflow braid rebraid := by
  have hinputs : PermBy Eq [Json.string "#reads", .object [("id", .string "reads")]]
      [.object [("id", .string "reads")], .string "#reads"] :=
    ⟨_, .swap _ _ _, List.forall₂_same.2 fun _ _ ↦ rfl⟩
  have hsources : PermBy Eq [Json.string "align/bam", .string "ghost", .string "#reads"]
      [.string "ghost", .string "align/bam", .string "#reads"] :=
    ⟨_, .swap _ _ _, List.forall₂_same.2 fun _ _ ↦ rfl⟩
  have hports : PermBy Document.RearrangesPort
      [.object [("source", .string "reads")], .object [("source", .array [.string "ghost"])]]
      [.object [("source", .array [.string "ghost"])], .object [("source", .string "reads")]] :=
    ⟨_, .swap _ _ _, List.forall₂_same.2 fun port _ ↦ .same port⟩
  have hport : PermBy Document.RearrangesPort
      [.object [("source", .array [.string "align/bam", .string "ghost", .string "#reads"])]]
      [.object [("source", .array [.string "ghost", .string "align/bam", .string "#reads"])]] :=
    ⟨_, .refl _, .cons (.object (.some (.items hsources))) .nil⟩
  refine .object (.some (.items hinputs)) (.some (.items ⟨_, .swap _ _ _, ?_⟩)) (.some (.same _))
  exact .cons (.object rfl (.some (.items hports)) .none)
    (.cons (.object rfl (.some (.items hport)) .none) .nil)

/-- Both braids have the same order, and the unknown source is reported twice for each, though at other
indices. -/
theorem report_of_rearranged_braid :
    ∃ workflow permuted, Document.readWorkflow braid = .ok workflow ∧
      Document.readWorkflow rebraid = .ok permuted ∧
      permuted.report.order = workflow.report.order ∧
      (permuted.report.findings.errors.map Finding.unindexed).Perm
        (workflow.report.findings.errors.map Finding.unindexed) ∧
      permuted.report.findings.errors =
        [⟨"document.steps[0].in[0]", "Unknown source ghost", .graph⟩,
         ⟨"document.steps[1].in[0]", "Unknown source ghost", .graph⟩] ∧
      workflow.report.findings.errors =
        [⟨"document.steps[0].in[0]", "Unknown source ghost", .graph⟩,
         ⟨"document.steps[1].in[1]", "Unknown source ghost", .graph⟩] := by
  have hbraid : Document.readWorkflow braid = .ok _ := rfl
  have hrebraid : Document.readWorkflow rebraid = .ok _ := rfl
  have hreports := (report_of_rearranged rearrangesWorkflow_braid).2 _ _ hbraid hrebraid
  exact ⟨_, _, hbraid, hrebraid, hreports.1, hreports.2.1, by decide, by decide⟩

end Workflow

end Invocation
