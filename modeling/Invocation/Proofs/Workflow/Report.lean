import Invocation.Proofs.Workflow.Connection
import Invocation.Proofs.Workflow.Declarations
import Invocation.Proofs.Workflow.Order

/-!
# Reports of workflows

The graph of a workflow has the declared nodes and an edge for every source that means one of them.  An
input takes nothing and an output supplies nothing, so a cycle of the graph goes through steps only
(`exists_cycle_iff`): the report of a workflow has an error for a cycle exactly when steps feed each other
in a circle, and else the least order of the declared nodes, with a warning exactly when two of them are
not linked (`report_of_readWorkflow`).
-/

namespace Invocation.Workflow

open Document (DeclaresNode Supplies Feeds)

/-! ## The graph of a workflow -/

/-- The graph of a workflow is built from its nodes and then its edges. -/
theorem graph_eq_ofInsertions (workflow : Workflow) :
    workflow.graph = .ofInsertions
      (workflow.nodes.map .node ++ workflow.edges.map fun edge ↦ .edge edge.1 edge.2) := by
  unfold graph Graph.ofInsertions
  rw [List.foldl_append, List.foldl_map, List.foldl_map]
  rfl

/-- The graph of a workflow is well-formed. -/
theorem wellFormed_graph (workflow : Workflow) : workflow.graph.WellFormed := by
  rw [graph_eq_ofInsertions]
  exact Graph.wellFormed_ofInsertions _

namespace Describes

variable {workflow : Workflow} {raw : Json}

/-- A source is resolved to the node that it means. -/
theorem resolve?_eq_some_iff (h : workflow.Describes raw) {source node : String} :
    workflow.resolve? source = some node ↔ Document.Means raw source node := by
  have hinput (id : String) : workflow.inputs.contains id = true ↔ Document.DeclaresInput raw id :=
    List.contains_iff_mem.trans h.inputs
  have hstep (id : String) : workflow.steps.contains id = true ↔ ∃ step, Document.IsStep raw step id :=
    List.contains_iff_mem.trans h.steps
  unfold resolve?
  dsimp only
  constructor
  · intro hnode
    split at hnode
    · next hfound =>
      cases hnode
      exact .input ((hinput _).1 hfound)
    · next hmissing =>
      split at hnode
      · next hfound =>
        cases hnode
        obtain ⟨step, hdeclared⟩ := (hstep _).1 hfound
        exact .step (fun hdeclares ↦ hmissing ((hinput _).2 hdeclares)) hdeclared
      · cases hnode
  · rintro (hdeclares | ⟨hmissing, hdeclared⟩)
    · rw [if_pos ((hinput _).2 hdeclares)]
    · rw [if_neg fun hfound ↦ hmissing ((hinput _).1 hfound), if_pos ((hstep _).2 ⟨_, hdeclared⟩)]

/-- The nodes of a workflow are those that the document declares. -/
theorem mem_nodes_iff (h : workflow.Describes raw) {node : String} :
    node ∈ workflow.nodes ↔ DeclaresNode raw node := by
  unfold nodes
  simp only [List.mem_append, List.mem_map]
  constructor
  · rintro ((⟨id, hid, rfl⟩ | ⟨id, hid, rfl⟩) | ⟨id, hid, rfl⟩)
    · exact .input (h.inputs.1 hid)
    · obtain ⟨step, hstep⟩ := h.steps.1 hid
      exact .step hstep
    · obtain ⟨output, houtput⟩ := h.outputs.1 hid
      exact .output houtput
  · rintro (hinput | hstep | houtput)
    · exact .inl (.inl ⟨_, h.inputs.2 hinput, rfl⟩)
    · exact .inl (.inr ⟨_, h.steps.2 ⟨_, hstep⟩, rfl⟩)
    · exact .inr ⟨_, h.outputs.2 ⟨_, houtput⟩, rfl⟩

/-- The edges of a workflow lead from the nodes that sources mean to their consumers. -/
theorem mem_edges_iff (h : workflow.Describes raw) {source consumer : String} :
    (source, consumer) ∈ workflow.edges ↔ Supplies raw source consumer := by
  unfold edges Supplies
  rw [List.mem_filterMap]
  constructor
  · rintro ⟨reference, hmem, hedge⟩
    obtain ⟨node, hnode, hends⟩ := Option.map_eq_some_iff.1 hedge
    obtain ⟨rfl, rfl⟩ := Prod.mk.inj hends
    exact ⟨reference.source, h.references.1 ⟨reference, hmem, rfl, rfl⟩,
      h.resolve?_eq_some_iff.1 hnode⟩
  · rintro ⟨name, htakes, hmeans⟩
    obtain ⟨reference, hmem, rfl, rfl⟩ := h.references.2 htakes
    refine ⟨reference, hmem, ?_⟩
    rw [h.resolve?_eq_some_iff.2 hmeans]
    rfl

/-- An edge of the graph is a source that means a node. -/
theorem joins_graph_iff (h : workflow.Describes raw) {source consumer : String} :
    workflow.graph.Joins source consumer ↔ Supplies raw source consumer := by
  rw [graph_eq_ofInsertions, Graph.joins_ofInsertions, ← h.mem_edges_iff]
  simp

/-- The edges add no node that is not declared. -/
theorem mem_nodes_graph_iff (h : workflow.Describes raw) {node : String} :
    node ∈ workflow.graph.nodes ↔ DeclaresNode raw node := by
  rw [graph_eq_ofInsertions, Graph.mem_nodes_ofInsertions, ← h.mem_nodes_iff]
  constructor
  · rintro ⟨insertion, hmem, hmentions⟩
    rcases List.mem_append.1 hmem with hmem | hmem
    · obtain ⟨name, hname, rfl⟩ := List.mem_map.1 hmem
      have hnode : node = name := hmentions
      rwa [hnode]
    · obtain ⟨⟨source, consumer⟩, hedge, rfl⟩ := List.mem_map.1 hmem
      obtain ⟨reference, htakes, hmeans⟩ := h.mem_edges_iff.1 hedge
      have hends : node = consumer ∨ node = source := hmentions
      rw [h.mem_nodes_iff]
      rcases hends with rfl | rfl
      · exact htakes.declared
      · exact hmeans.declared
  · intro hnode
    exact ⟨.node node, List.mem_append_left _ (List.mem_map_of_mem hnode), rfl⟩

/-! ## Cycles -/

/-- A path whose ends are steps leads through steps. -/
theorem exists_steps_of_transGen {first last : String}
    (h : Relation.TransGen (Supplies raw) first last) (hin : ∃ before, Supplies raw before first)
    (hout : ∃ after, Supplies raw last after) :
    ∃ source target, first = stepNode source ∧ last = stepNode target ∧
      Relation.TransGen (Feeds raw) source target := by
  obtain ⟨before, hbefore⟩ := hin
  induction h with
  | single hedge =>
      obtain ⟨after, hafter⟩ := hout
      obtain ⟨source, rfl⟩ := Document.exists_stepNode hbefore hedge
      obtain ⟨target, rfl⟩ := Document.exists_stepNode hedge hafter
      exact ⟨source, target, rfl, rfl, .single (Document.supplies_stepNode_iff.1 hedge)⟩
  | tail _ hedge ih =>
      obtain ⟨after, hafter⟩ := hout
      obtain ⟨source, middle, rfl, rfl, hpath⟩ := ih ⟨_, hedge⟩
      obtain ⟨target, rfl⟩ := Document.exists_stepNode hedge hafter
      exact ⟨source, target, rfl, rfl, hpath.tail (Document.supplies_stepNode_iff.1 hedge)⟩

/-- The nodes have a cycle exactly when steps feed each other in a circle. -/
theorem exists_cycle_iff :
    (∃ node, Relation.TransGen (Supplies raw) node node) ↔
      ∃ id, Relation.TransGen (Feeds raw) id id := by
  constructor
  · rintro ⟨node, hcycle⟩
    -- every node of a cycle has an edge in front of it and one behind it
    obtain ⟨before, _, hbefore⟩ := Relation.TransGen.tail'_iff.1 hcycle
    obtain ⟨after, hafter, _⟩ := Relation.TransGen.head'_iff.1 hcycle
    obtain ⟨source, target, hsource, htarget, hpath⟩ :=
      exists_steps_of_transGen hcycle ⟨before, hbefore⟩ ⟨after, hafter⟩
    have hsame : source = target := Document.stepNode_inj.1 (hsource.symm.trans htarget)
    exact ⟨source, hsame ▸ hpath⟩
  · rintro ⟨id, hcycle⟩
    refine ⟨stepNode id, ?_⟩
    exact hcycle.lift stepNode fun _ _ hfeeds ↦ Document.supplies_stepNode_iff.2 hfeeds

/-- The graph has no order exactly when steps feed each other in a circle. -/
theorem order?_eq_none_iff (h : workflow.Describes raw) :
    workflow.graph.order? = none ↔ ∃ id, Relation.TransGen (Feeds raw) id id := by
  have hjoins : workflow.graph.Joins = Supplies raw := funext₂ fun _ _ ↦ propext h.joins_graph_iff
  rw [Graph.order?_eq_none_iff workflow.wellFormed_graph, hjoins]
  exact exists_cycle_iff

end Describes

/-! ## The report -/

/-- Without an order there is an error. -/
theorem report_of_order?_eq_none {workflow : Workflow} (h : workflow.graph.order? = none) :
    workflow.report = ⟨[], workflow.unknownSources ++
      .error .graph Document.root Graph.Fault.cyclic.message⟩ := by
  unfold report Graph.sort
  simp [h]

/-- With an order there is a warning exactly when the graph is not connected. -/
theorem report_of_order?_eq_some {workflow : Workflow} {order : List String}
    (h : workflow.graph.order? = some order) :
    workflow.report.order = order ∧
      workflow.report.findings.errors = workflow.unknownSources.errors ∧
      (⟨Document.root, Graph.Fault.disconnected.message, .graph⟩ ∈ workflow.report.findings.warnings ↔
        ¬ workflow.graph.isConnected = true) := by
  cases hconnected : workflow.graph.isConnected with
  | true =>
      have hreport : workflow.report = ⟨order, workflow.unknownSources⟩ := by
        simp [report, Graph.sort, h, hconnected]
      rw [hreport]
      simp [unknownSources]
  | false =>
      have hreport : workflow.report = ⟨order, workflow.unknownSources ++
          .warning .graph Document.root Graph.Fault.disconnected.message⟩ := by
        simp [report, Graph.sort, h, hconnected]
      rw [hreport]
      simp [Findings.errors_append, Findings.warnings_append, Findings.warning]

/-- A reference that cannot be resolved is not reported like a cycle. -/
theorem cycle_notMem_unknownSources (workflow : Workflow) :
    (⟨Document.root, Graph.Fault.cyclic.message, .graph⟩ : Finding) ∉
      workflow.unknownSources.errors := by
  intro hmem
  obtain ⟨reference, _, hfinding⟩ := List.mem_map.1 hmem
  have hmessage := congrArg (fun finding ↦ finding.message.toList) hfinding
  simp [Graph.Fault.message] at hmessage

/-- The report of a workflow that can be read has an error for a cycle exactly when steps feed each other
in a circle, and then no order.  Else every declared node stands in the order once and behind the nodes
that supply it, and there is a warning exactly when two declared nodes are not linked by what supplies
what, taken in either direction. -/
theorem report_of_readWorkflow {raw : Json} {workflow : Workflow}
    (h : Document.readWorkflow raw = .ok workflow) :
    ((⟨"document", "Graph has cycles", .graph⟩ : Finding) ∈ workflow.report.findings.errors ↔
      ∃ id, Relation.TransGen (Feeds raw) id id) ∧
    ((∃ id, Relation.TransGen (Feeds raw) id id) → workflow.report.order = []) ∧
    ((¬ ∃ id, Relation.TransGen (Feeds raw) id id) →
      Graph.Orders (DeclaresNode raw) (Supplies raw) workflow.report.order ∧
      ((⟨"document", "Graph is not connected", .graph⟩ : Finding) ∈
          workflow.report.findings.warnings ↔
        ∃ first second, DeclaresNode raw first ∧ DeclaresNode raw second ∧
          ¬ Relation.EqvGen (Supplies raw) first second)) := by
  have hdescribes := Document.describes_of_readWorkflow h
  have hgraph := workflow.wellFormed_graph
  have hjoins : workflow.graph.Joins = Supplies raw :=
    funext₂ fun _ _ ↦ propext hdescribes.joins_graph_iff
  have hnodes : (· ∈ workflow.graph.nodes) = DeclaresNode raw :=
    funext fun _ ↦ propext hdescribes.mem_nodes_graph_iff
  rw [← hdescribes.order?_eq_none_iff]
  cases horder : workflow.graph.order? with
  | none =>
      rw [report_of_order?_eq_none horder]
      refine ⟨iff_of_true ?_ rfl, fun _ ↦ rfl, fun hsome ↦ absurd rfl hsome⟩
      exact List.mem_append_right _ List.mem_cons_self
  | some order =>
      obtain ⟨hordered, herrors, hwarning⟩ := report_of_order?_eq_some horder
      refine ⟨iff_of_false ?_ nofun, nofun, fun _ ↦ ⟨?_, hwarning.trans ?_⟩⟩
      · rw [herrors]
        exact workflow.cycle_notMem_unknownSources
      · rw [hordered, ← hjoins, ← hnodes]
        exact Graph.orders_of_order?_eq_some hgraph horder
      · rw [Graph.isConnected_iff hgraph, hjoins]
        push Not
        simp only [hdescribes.mem_nodes_graph_iff]
        constructor
        · rintro ⟨first, hfirst, second, hsecond, hapart⟩
          exact ⟨first, second, hfirst, hsecond, hapart⟩
        · rintro ⟨first, second, hfirst, hsecond, hapart⟩
          exact ⟨first, hfirst, second, hsecond, hapart⟩

/-- Two steps that feed each other, one of which also takes a source that means nothing. -/
def ring : Json :=
  .object [("steps", .object
    [("align", .object [("in", .object [("reads", .string "#sort/sorted")])]),
     ("#sort", .object [("inputs", .array
       [.object [("source", .array [.string "nowhere", .string "align.bam"])]])])])]

/-- A step between an input and an output, and an input that nothing takes. -/
def strands : Json :=
  .object
    [("inputs", .object [("reads", .string "File"), ("notes", .string "File")]),
     ("steps", .array [.object [("id", .string "#align"), ("in", .object [("x", .string "reads")])]]),
     ("outputs", .array [.object [("id", .string "bam"), ("source", .string "#align.bam")]])]

/-- The ring is reported as a cycle; the strands are ordered, and reported as not linked. -/
theorem report_of_readWorkflow_ring_strands :
    (∃ workflow, Document.readWorkflow ring = .ok workflow ∧ workflow.report.order = [] ∧
      ∃ id, Relation.TransGen (Feeds ring) id id) ∧
    ∃ workflow, Document.readWorkflow strands = .ok workflow ∧
      workflow.report.order = ["in:notes", "in:reads", "step:align", "out:bam"] ∧
      Graph.Orders (DeclaresNode strands) (Supplies strands) workflow.report.order ∧
      ∃ first second, DeclaresNode strands first ∧ DeclaresNode strands second ∧
        ¬ Relation.EqvGen (Supplies strands) first second := by
  constructor
  · refine ⟨_, rfl, ?_⟩
    have hread : Document.readWorkflow ring = .ok _ := rfl
    obtain ⟨hcycle, hempty, _⟩ := report_of_readWorkflow hread
    have hreported := hcycle.1 (by decide)
    exact ⟨hempty hreported, hreported⟩
  · refine ⟨_, rfl, by decide, ?_⟩
    have hread : Document.readWorkflow strands = .ok _ := rfl
    obtain ⟨hcycle, _, hordered⟩ := report_of_readWorkflow hread
    have hacyclic : ¬ ∃ id, Relation.TransGen (Feeds strands) id id := by
      rw [← hcycle]
      decide
    obtain ⟨horders, hwarning⟩ := hordered hacyclic
    exact ⟨horders, hwarning.1 (by decide)⟩

end Invocation.Workflow
