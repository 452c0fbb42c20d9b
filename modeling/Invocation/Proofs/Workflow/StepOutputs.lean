import Invocation.Proofs.Workflow.Sources
import Mathlib.Data.List.TakeWhile

/-!
# Outputs of steps as sources

A source names an output of a step by the id of the step, a slash and a port.  It is cut at its first slash
or point, so the step is found when its id has neither; a step whose id has one of them supplies nothing
(`joins_of_stepOutput`).
-/

namespace Invocation.Workflow

open Document (Refers Means DeclaresInput HasId IsStep Supplies withoutSigns)

/-- The id has a character at which sources are cut. -/
def HasSeparator (id : String) : Prop :=
  ∃ c ∈ id.toList, c = '/' ∨ c = '.'

/-- The source that is the output of a step at a port. -/
def stepOutput (step port : String) : String :=
  step ++ "/" ++ port

/-- The characters of the source are those of the step, a slash and those of the port. -/
theorem toList_stepOutput (step port : String) :
    (stepOutput step port).toList = step.toList ++ '/' :: port.toList := by
  simp [stepOutput]

/-! ## Cutting sources -/

/-- The step of a source has no separator. -/
theorem not_hasSeparator_stepOfSource (source : String) : ¬ HasSeparator (stepOfSource source) := by
  rintro ⟨c, hmem, hc⟩
  unfold stepOfSource at hmem
  rw [String.toList_ofList] at hmem
  have hkept := List.mem_takeWhile_imp hmem
  rcases hc with rfl | rfl <;> cases hkept

/-- A step whose id has no separator is the step of its outputs. -/
theorem stepOfSource_stepOutput {step : String} (h : ¬ HasSeparator step) (port : String) :
    stepOfSource (stepOutput step port) = step := by
  have hkept : ∀ c ∈ step.toList, (c != '/' && c != '.') = true := by
    intro c hmem
    have hc : ¬ (c = '/' ∨ c = '.') := fun hc ↦ h ⟨c, hmem, hc⟩
    simpa using hc
  unfold stepOfSource
  rw [toList_stepOutput, List.takeWhile_append_of_pos hkept]
  simp

/-- The outputs of a declared step have no number signs in front. -/
theorem withoutSigns_stepOutput {item : Json} {step : String} (h : HasId item step) (port : String) :
    withoutSigns (stepOutput step port) = stepOutput step port := by
  obtain ⟨name, -, rfl⟩ := h
  have hfirst := Document.head?_withoutSigns name
  refine Document.withoutSigns_of_head?_ne ?_
  rw [toList_stepOutput]
  cases hchars : (withoutSigns name).toList with
  | nil => simp
  | cons c rest => simpa [hchars] using hfirst

/-! ## What steps supply -/

/-- A source that is the output of a declared step means the step, unless an input is named like it or the
id of the step has a separator. -/
theorem means_stepOutput {raw item : Json} {step port : String} (hstep : IsStep raw item step)
    (hinput : ¬ DeclaresInput raw (stepOutput step port)) (hplain : ¬ HasSeparator step) :
    Means raw (stepOutput step port) (stepNode step) := by
  have hsource := withoutSigns_stepOutput hstep.hasId port
  have hcut := stepOfSource_stepOutput hplain port
  rw [← hsource] at hinput hcut
  have hmeans : Means raw (stepOutput step port)
      (stepNode (stepOfSource (withoutSigns (stepOutput step port)))) :=
    .step hinput (hcut.symm ▸ hstep)
  rwa [hcut] at hmeans

/-- A step that supplies something has an id without a separator. -/
theorem not_hasSeparator_of_supplies {raw : Json} {step consumer : String}
    (h : Supplies raw (stepNode step) consumer) : ¬ HasSeparator step := by
  obtain ⟨reference, -, hmeans⟩ := h
  generalize hnode : stepNode step = node at hmeans
  cases hmeans with
  | input => exact absurd hnode (Document.stepNode_ne_inputNode _ _)
  | step _ _ =>
      rw [Document.stepNode_inj.1 hnode]
      exact not_hasSeparator_stepOfSource _

/-- A source that is resolved is not reported as unknown. -/
theorem message_ne_of_resolve?_eq_some {workflow : Workflow} {source node : String}
    (h : workflow.resolve? source = some node) :
    ∀ finding ∈ workflow.report.findings.errors, finding.message ≠ "Unknown source " ++ source := by
  intro finding hmem hmessage
  rw [workflow.findings_report.1] at hmem
  rcases List.mem_append.1 hmem with hunknown | hcycle
  · obtain ⟨reference, hreference, rfl⟩ := List.mem_map.1 hunknown
    have hsource : reference.source = source := (String.append_right_inj _).1 hmessage
    have hnone := (List.mem_filter.1 hreference).2
    rw [hsource, h] at hnone
    cases hnone
  · split at hcycle
    · rw [List.mem_singleton.1 hcycle] at hmessage
      have hchars := congrArg String.toList hmessage
      simp [Graph.Fault.message] at hchars
    · cases hcycle

/-- Where a step or an output takes a declared step's output as a source, and no input is named like the
source, the graph has an edge from the step, and no error says that the source is unknown, provided that
the id of the step has neither a slash nor a point.  A step whose id has one supplies nothing. -/
theorem joins_of_stepOutput {raw item : Json} {workflow : Workflow} {step : String}
    (h : Document.readWorkflow raw = .ok workflow) (hstep : IsStep raw item step) (port : String)
    (hinput : ¬ DeclaresInput raw (stepOutput step port)) :
    (¬ HasSeparator step → ∀ place reference, Refers raw place reference →
      reference.source = stepOutput step port →
        workflow.resolve? reference.source = some (stepNode step) ∧
        workflow.graph.Joins (stepNode step) reference.consumer ∧
        ∀ finding ∈ workflow.report.findings.errors,
          finding.message ≠ "Unknown source " ++ reference.source) ∧
    (HasSeparator step → ∀ consumer, ¬ workflow.graph.Joins (stepNode step) consumer) := by
  have hdescribes := Document.describes_of_readWorkflow h
  constructor
  · intro hplain place reference hrefers hsource
    have hmeans : Means raw reference.source (stepNode step) :=
      hsource ▸ means_stepOutput hstep hinput hplain
    have hresolved := hdescribes.resolve?_eq_some_iff.2 hmeans
    refine ⟨hresolved, hdescribes.joins_graph_iff.2 ⟨reference.source, ?_, hmeans⟩,
      message_ne_of_resolve?_eq_some hresolved⟩
    exact (Document.takes_iff h).2 ⟨place, reference, hrefers, rfl, rfl⟩
  · intro hseparator consumer hjoins
    exact not_hasSeparator_of_supplies (hdescribes.joins_graph_iff.1 hjoins) hseparator

/-- Two steps, one of which takes an output of the other, and an output that takes it too. -/
def passed (step : String) : Json :=
  .object
    [("steps", .array
      [.object [("id", .string step)],
       .object [("id", .string "sort"), ("in", .object [("reads", .string (stepOutput step "bam"))])]]),
     ("outputs", .array
      [.object [("id", .string "bam"), ("outputSource", .string (stepOutput step "bam"))]])]

/-- The output of a step is found at the input of another step. -/
theorem joins_of_stepOutput_align :
    ∃ workflow, Document.readWorkflow (passed "align") = .ok workflow ∧
      workflow.resolve? (stepOutput "align" "bam") = some (stepNode "align") ∧
      workflow.graph.Joins (stepNode "align") (stepNode "sort") ∧
      ∀ finding ∈ workflow.report.findings.errors,
        finding.message ≠ "Unknown source " ++ stepOutput "align" "bam" := by
  have hread : Document.readWorkflow (passed "align") = .ok _ := rfl
  have hstep : IsStep (passed "align") (.object [("id", .string "align")]) "align" :=
    ⟨List.mem_cons_self, "align", rfl, by decide⟩
  have hinput : ¬ DeclaresInput (passed "align") (stepOutput "align" "bam") :=
    fun ⟨_, hmem, _⟩ ↦ by cases hmem
  have hplain : ¬ HasSeparator "align" := by simp [HasSeparator]
  have hrefers : Refers (passed "align") (.inl (1, 0, 0))
      ⟨stepNode "sort", stepOutput "align" "bam", "document.steps[1].in[0]"⟩ :=
    .step rfl ⟨"sort", _, ⟨"sort", rfl, by decide⟩, rfl, rfl, by decide, _, rfl, .string _⟩
  have hfound := (joins_of_stepOutput hread hstep "bam" hinput).1 hplain _ _ hrefers rfl
  exact ⟨_, hread, hfound⟩

/-- The outputs of a step with a point in its id are reported as unknown, and the graph has no edge from
the step. -/
theorem unknown_output_of_align_v2 :
    ∃ workflow, Document.readWorkflow (passed "align.v2") = .ok workflow ∧
      (∃ item, IsStep (passed "align.v2") item "align.v2") ∧
      ¬ DeclaresInput (passed "align.v2") (stepOutput "align.v2" "bam") ∧
      (∃ place, Refers (passed "align.v2") place
        ⟨"step:sort", stepOutput "align.v2" "bam", "document.steps[1].in[0]"⟩) ∧
      ¬ workflow.graph.Joins "step:align.v2" "step:sort" ∧
      (⟨"document.steps[1].in[0]", "Unknown source align.v2/bam", .graph⟩ : Finding) ∈
        workflow.report.findings.errors := by
  refine ⟨_, rfl, ⟨_, List.mem_cons_self, "align.v2", rfl, by decide⟩, ?_, ⟨.inl (1, 0, 0), ?_⟩, ?_, ?_⟩
  · exact fun ⟨_, hmem, _⟩ ↦ by cases hmem
  · exact .step rfl ⟨"sort", _, ⟨"sort", rfl, by decide⟩, rfl, by decide, by decide, _, rfl, .string _⟩
  · unfold Graph.Joins
    decide
  · decide

end Invocation.Workflow
