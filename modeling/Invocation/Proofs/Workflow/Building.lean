import Invocation.Workflow.Graph
import Mathlib.Data.String.Basic

/-!
# Graphs that are built step by step

A graph that starts empty and gets nodes and edges in any order, with any repetitions, keeps both in
increasing order, holds each once, and has the ends of its edges among its nodes (`WellFormed`).  So it is
the same graph whenever the same nodes and edges are put in (`ofInsertions_congr`).
-/

namespace Invocation

/-- A value is put at its place in a strictly increasing list. -/
theorem pairwise_insertSorted {α : Type} [DecidableEq α] {precedes : α → α → Bool}
    (htrans : ∀ {x y z : α}, precedes x y = true → precedes y z = true → precedes x z = true)
    (htotal : ∀ {x y : α}, x ≠ y → precedes x y = false → precedes y x = true) (value : α)
    {values : List α} (h : values.Pairwise fun x y ↦ precedes x y = true) :
    (insertSorted precedes value values).Pairwise fun x y ↦ precedes x y = true := by
  induction values with
  | nil => exact List.pairwise_singleton _ _
  | cons first rest ih =>
      obtain ⟨hfirst, hrest⟩ := List.pairwise_cons.1 h
      unfold insertSorted
      split
      · exact h
      · next hne =>
        split
        · next hbefore =>
          refine List.pairwise_cons.2 ⟨fun x hx ↦ ?_, h⟩
          rcases List.mem_cons.1 hx with rfl | hx
          · exact hbefore
          · exact htrans hbefore (hfirst x hx)
        · next hafter =>
          refine List.pairwise_cons.2 ⟨fun x hx ↦ ?_, ih hrest⟩
          rcases mem_insertSorted.1 hx with rfl | hx
          · exact htotal hne (Bool.eq_false_iff.2 hafter)
          · exact hfirst x hx

namespace Graph

/-- A graph has the edge from the source to the target. -/
def Joins (graph : Graph) (source target : String) : Prop :=
  (source, target) ∈ graph.edges

/-- Nodes and edges are in increasing order without repetitions, and the ends of edges are nodes. -/
structure WellFormed (graph : Graph) : Prop where
  nodes : graph.nodes.Pairwise (· < ·)
  edges : graph.edges.Pairwise fun first second ↦ edgePrecedes first second = true
  ends {source target : String} :
    graph.Joins source target → source ∈ graph.nodes ∧ target ∈ graph.nodes

/-- A node is put at its place among nodes in increasing order. -/
theorem pairwise_insertNode (id : String) {nodes : List String} (h : nodes.Pairwise (· < ·)) :
    (insertSorted nodePrecedes id nodes).Pairwise (· < ·) := by
  have hnodes : nodes.Pairwise fun first second ↦ nodePrecedes first second = true :=
    h.imp decide_eq_true
  refine (pairwise_insertSorted (fun hxy hyz ↦ ?_) (fun hne hxy ↦ ?_) id hnodes).imp
    of_decide_eq_true
  · simp only [nodePrecedes, decide_eq_true_eq] at *
    exact hxy.trans hyz
  · simp only [nodePrecedes, decide_eq_true_eq, decide_eq_false_iff_not] at *
    exact lt_of_le_of_ne (not_lt.1 hxy) hne.symm

/-- An edge precedes those with a larger source, and with the same source those with a larger target. -/
theorem edgePrecedes_iff {first second : String × String} :
    edgePrecedes first second = true ↔
      first.1 < second.1 ∨ first.1 = second.1 ∧ first.2 < second.2 := by
  simp [edgePrecedes]

/-- The order of edges is transitive. -/
theorem edgePrecedes_trans {first second third : String × String}
    (h : edgePrecedes first second = true) (hnext : edgePrecedes second third = true) :
    edgePrecedes first third = true := by
  rw [edgePrecedes_iff] at *
  rcases h with h | ⟨heq, h⟩
  · rcases hnext with hnext | ⟨heq, _⟩
    · exact .inl (h.trans hnext)
    · exact .inl (heq ▸ h)
  · rcases hnext with hnext | ⟨heq', hnext⟩
    · exact .inl (heq ▸ hnext)
    · exact .inr ⟨heq.trans heq', h.trans hnext⟩

/-- Of two edges one precedes the other. -/
theorem edgePrecedes_of_not {first second : String × String} (hne : first ≠ second)
    (h : edgePrecedes first second = false) : edgePrecedes second first = true := by
  have hnot : ¬(first.1 < second.1 ∨ first.1 = second.1 ∧ first.2 < second.2) := by
    rw [← edgePrecedes_iff, h]
    exact nofun
  rw [edgePrecedes_iff]
  rcases lt_trichotomy first.1 second.1 with hlt | heq | hgt
  · exact absurd (.inl hlt) hnot
  · rcases lt_trichotomy first.2 second.2 with hlt | heq' | hgt
    · exact absurd (.inr ⟨heq, hlt⟩) hnot
    · exact absurd (Prod.ext heq heq') hne
    · exact .inr ⟨heq.symm, hgt⟩
  · exact .inl hgt

namespace WellFormed

variable {graph : Graph}

/-- No node is repeated. -/
theorem nodup_nodes (h : graph.WellFormed) : graph.nodes.Nodup :=
  h.nodes.imp ne_of_lt

/-- No edge is repeated. -/
theorem nodup_edges (h : graph.WellFormed) : graph.edges.Nodup :=
  h.edges.imp fun hlt heq ↦ by simp [edgePrecedes, heq] at hlt

/-- A node keeps a graph well-formed. -/
theorem addNode (h : graph.WellFormed) (id : String) : (graph.addNode id).WellFormed where
  nodes := pairwise_insertNode id h.nodes
  edges := h.edges
  ends hjoins := by
    obtain ⟨hsource, htarget⟩ := h.ends hjoins
    exact ⟨mem_nodes_addNode.2 (.inr hsource), mem_nodes_addNode.2 (.inr htarget)⟩

/-- An edge keeps a graph well-formed. -/
theorem addEdge (h : graph.WellFormed) (source target : String) :
    (graph.addEdge source target).WellFormed where
  nodes := ((h.addNode source).addNode target).nodes
  edges := by
    refine pairwise_insertSorted (fun hxy hyz ↦ ?_) (fun hne hxy ↦ ?_) (source, target) h.edges
    · exact edgePrecedes_trans hxy hyz
    · exact edgePrecedes_of_not hne hxy
  ends hjoins := by
    rw [mem_nodes_addEdge, mem_nodes_addEdge]
    rcases mem_edges_addEdge.1 hjoins with heq | hold
    · obtain ⟨rfl, rfl⟩ := Prod.mk.inj heq
      exact ⟨.inr (.inl rfl), .inl rfl⟩
    · obtain ⟨hsource, htarget⟩ := h.ends hold
      exact ⟨.inr (.inr hsource), .inr (.inr htarget)⟩

end WellFormed

/-! ## Insertions -/

/-- One step of building a graph. -/
inductive Insertion where
  | node (id : String)
  | edge (source target : String)
  deriving DecidableEq, Inhabited

/-- The graph after an insertion. -/
def insert (graph : Graph) : Insertion → Graph
  | .node id => graph.addNode id
  | .edge source target => graph.addEdge source target

/-- The graph that a sequence of insertions builds. -/
def ofInsertions (insertions : List Insertion) : Graph :=
  insertions.foldl insert empty

/-- The insertion mentions the node. -/
def Insertion.Mentions (insertion : Insertion) (id : String) : Prop :=
  match insertion with
  | .node name => id = name
  | .edge source target => id = target ∨ id = source

/-- An insertion adds the nodes that it mentions. -/
theorem mem_nodes_insert {graph : Graph} {insertion : Insertion} {id : String} :
    id ∈ (graph.insert insertion).nodes ↔ insertion.Mentions id ∨ id ∈ graph.nodes := by
  cases insertion with
  | node name => exact mem_nodes_addNode
  | edge source target => exact mem_nodes_addEdge.trans or_assoc.symm

/-- An insertion adds no edge but its own. -/
theorem joins_insert {graph : Graph} {insertion : Insertion} {source target : String} :
    (graph.insert insertion).Joins source target ↔
      insertion = .edge source target ∨ graph.Joins source target := by
  cases insertion with
  | node name =>
      show graph.Joins source target ↔ _
      simp
  | edge first second =>
      refine mem_edges_addEdge.trans (or_congr_left ?_)
      rw [Prod.mk.injEq, Insertion.edge.injEq, eq_comm, @eq_comm _ target]

/-- An insertion keeps a graph well-formed. -/
theorem WellFormed.insert {graph : Graph} (h : graph.WellFormed) (insertion : Insertion) :
    (graph.insert insertion).WellFormed := by
  cases insertion with
  | node id => exact h.addNode id
  | edge source target => exact h.addEdge source target

/-- Every graph that is built is well-formed. -/
theorem wellFormed_ofInsertions (insertions : List Insertion) :
    (ofInsertions insertions).WellFormed := by
  have hall : ∀ graph : Graph, graph.WellFormed → (insertions.foldl Graph.insert graph).WellFormed := by
    induction insertions with
    | nil => exact fun _ h ↦ h
    | cons insertion rest ih => exact fun graph h ↦ ih _ (h.insert insertion)
  exact hall empty ⟨.nil, .nil, nofun⟩

/-- The nodes of a graph are those that its insertions mention. -/
theorem mem_nodes_ofInsertions {insertions : List Insertion} {id : String} :
    id ∈ (ofInsertions insertions).nodes ↔ ∃ insertion ∈ insertions, insertion.Mentions id := by
  have hall : ∀ graph : Graph, id ∈ (insertions.foldl Graph.insert graph).nodes ↔
      (∃ insertion ∈ insertions, insertion.Mentions id) ∨ id ∈ graph.nodes := by
    induction insertions with
    | nil => simp
    | cons insertion rest ih =>
        intro graph
        rw [List.foldl_cons, ih, mem_nodes_insert, List.exists_mem_cons_iff, or_assoc, or_left_comm]
  exact (hall empty).trans (or_iff_left List.not_mem_nil)

/-- The edges of a graph are those that were inserted. -/
theorem joins_ofInsertions {insertions : List Insertion} {source target : String} :
    (ofInsertions insertions).Joins source target ↔ .edge source target ∈ insertions := by
  have hall : ∀ graph : Graph, (insertions.foldl Graph.insert graph).Joins source target ↔
      .edge source target ∈ insertions ∨ graph.Joins source target := by
    induction insertions with
    | nil => simp
    | cons insertion rest ih =>
        intro graph
        rw [List.foldl_cons, ih, joins_insert, List.mem_cons, or_assoc, or_left_comm,
          @eq_comm _ insertion]
  exact (hall empty).trans (or_iff_left List.not_mem_nil)

/-- Well-formed graphs with the same nodes and edges are the same. -/
theorem WellFormed.ext {first second : Graph} (hfirst : first.WellFormed) (hsecond : second.WellFormed)
    (hnodes : ∀ id, id ∈ first.nodes ↔ id ∈ second.nodes)
    (hedges : ∀ source target, first.Joins source target ↔ second.Joins source target) :
    first = second := by
  have hsameNodes : first.nodes = second.nodes := by
    have hperm := (List.perm_ext_iff_of_nodup hfirst.nodup_nodes hsecond.nodup_nodes).2 hnodes
    refine hperm.eq_of_pairwise (fun x y _ _ hxy hyx ↦ ?_) hfirst.nodes hsecond.nodes
    exact absurd (hxy.trans hyx) (lt_irrefl x)
  have hsameEdges : first.edges = second.edges := by
    have hperm := (List.perm_ext_iff_of_nodup hfirst.nodup_edges hsecond.nodup_edges).2
      fun edge ↦ hedges edge.1 edge.2
    refine hperm.eq_of_pairwise (fun x y _ _ hxy hyx ↦ ?_) hfirst.edges hsecond.edges
    exact absurd (edgePrecedes_trans hxy hyx) (by simp [edgePrecedes])
  cases first
  cases second
  cases hsameNodes
  cases hsameEdges
  rfl

/-- The order and the number of insertions make no difference to the graph. -/
theorem ofInsertions_congr {insertions others : List Insertion}
    (h : ∀ insertion, insertion ∈ insertions ↔ insertion ∈ others) :
    ofInsertions insertions = ofInsertions others := by
  refine (wellFormed_ofInsertions insertions).ext (wellFormed_ofInsertions others)
    (fun id ↦ ?_) fun source target ↦ ?_
  · simp only [mem_nodes_ofInsertions, h]
  · rw [joins_ofInsertions, joins_ofInsertions, h]

end Graph

end Invocation
