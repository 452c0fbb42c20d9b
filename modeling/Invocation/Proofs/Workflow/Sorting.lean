import Invocation.Proofs.Workflow.Order
import Invocation.Proofs.Workflow.Search

/-!
# Sorting graphs

A graph is sorted unless its edges have a cycle or it falls apart, and a cycle is looked for first
(`sort_ofInsertions`).  Whether it falls apart is found by a search from its first node, which always ends;
a graph with at most one node never does.
-/

namespace Invocation.Graph

/-- The inserted edges have a cycle; an edge from a node to itself is one. -/
def HasCycle (insertions : List Insertion) : Prop :=
  ∃ id, Relation.TransGen (fun source target ↦ .edge source target ∈ insertions) id id

/-- Two inserted nodes are not linked by inserted edges, in whatever direction these are taken. -/
def FallsApart (insertions : List Insertion) : Prop :=
  ∃ first second, (∃ insertion ∈ insertions, insertion.Mentions first) ∧
    (∃ insertion ∈ insertions, insertion.Mentions second) ∧
    ¬ Relation.EqvGen (fun source target ↦ .edge source target ∈ insertions) first second

variable {graph : Graph}

/-- Sorting finds a cycle when there is no order. -/
theorem sort_eq_cyclic_iff : graph.sort = .error .cyclic ↔ graph.order? = none := by
  unfold sort
  cases graph.order? with
  | none => simp
  | some order => cases graph.isConnected <;> simp

/-- Sorting finds that a graph with an order is not connected. -/
theorem sort_eq_disconnected_iff :
    graph.sort = .error .disconnected ↔ ¬ graph.order? = none ∧ ¬ graph.isConnected = true := by
  unfold sort
  cases graph.order? with
  | none => simp
  | some order => cases graph.isConnected <;> simp

/-- A connected graph with an order is sorted by it. -/
theorem sort_eq_ok_iff {order : List String} :
    graph.sort = .ok order ↔ graph.order? = some order ∧ graph.isConnected = true := by
  unfold sort
  cases graph.order? with
  | none => simp
  | some found => cases graph.isConnected <;> simp

/-- A well-formed graph with at most one node is connected. -/
theorem isConnected_of_length_le_one (hgraph : graph.WellFormed) (h : graph.nodes.length ≤ 1) :
    graph.isConnected = true := by
  rw [isConnected_iff hgraph]
  intro first hfirst second hsecond
  obtain ⟨i, hi, rfl⟩ := List.mem_iff_getElem.1 hfirst
  obtain ⟨j, hj, rfl⟩ := List.mem_iff_getElem.1 hsecond
  have hsame : i = j := by omega
  subst hsame
  exact .refl _

/-- The nodes of insertions are joined by the inserted edges. -/
theorem joins_ofInsertions_eq (insertions : List Insertion) :
    (ofInsertions insertions).Joins = fun source target ↦ .edge source target ∈ insertions :=
  funext₂ fun _ _ ↦ propext joins_ofInsertions

/-- The graph of insertions has no order exactly when they have a cycle. -/
theorem order?_ofInsertions_eq_none_iff (insertions : List Insertion) :
    (ofInsertions insertions).order? = none ↔ HasCycle insertions := by
  rw [order?_eq_none_iff (wellFormed_ofInsertions insertions), joins_ofInsertions_eq]
  rfl

/-- The graph of insertions is connected unless it falls apart. -/
theorem isConnected_ofInsertions_iff (insertions : List Insertion) :
    (ofInsertions insertions).isConnected = true ↔ ¬ FallsApart insertions := by
  rw [isConnected_iff (wellFormed_ofInsertions insertions), joins_ofInsertions_eq]
  unfold FallsApart
  simp only [mem_nodes_ofInsertions]
  push Not
  constructor
  · intro hlinked first second hfirst hsecond
    exact hlinked first hfirst second hsecond
  · intro hlinked first hfirst second hsecond
    exact hlinked first second hfirst hsecond

/-- A graph that is built by any insertions cannot be sorted because of a cycle exactly when the inserted
edges have one, and cannot because it is not connected exactly when they have none and two nodes are not
linked.  Else it is sorted by its least order.  A search along its edges always ends, and when it starts from
the first node, the number of nodes that it sees tells whether the graph is connected; a graph with at most
one node is. -/
theorem sort_ofInsertions (insertions : List Insertion) :
    ((ofInsertions insertions).sort = .error .cyclic ↔ HasCycle insertions) ∧
    ((ofInsertions insertions).sort = .error .disconnected ↔
      ¬ HasCycle insertions ∧ FallsApart insertions) ∧
    (¬ HasCycle insertions → ¬ FallsApart insertions →
      ∃ order, (ofInsertions insertions).order? = some order ∧
        (ofInsertions insertions).sort = .ok order) ∧
    (WellFounded fun next search ↦ Search.Step (ofInsertions insertions) search next) ∧
    (∀ first others, (ofInsertions insertions).nodes = first :: others →
      ∃ seen, Search.EndsWith (ofInsertions insertions) first seen ∧
        (ofInsertions insertions).isConnected =
          (seen.length == (ofInsertions insertions).nodes.length)) ∧
    ((ofInsertions insertions).nodes.length ≤ 1 → (ofInsertions insertions).isConnected = true) := by
  have hgraph := wellFormed_ofInsertions insertions
  have hcycle := order?_ofInsertions_eq_none_iff insertions
  have hconnected := isConnected_ofInsertions_iff insertions
  refine ⟨sort_eq_cyclic_iff.trans hcycle, ?_, fun hacyclic htogether ↦ ?_, Search.wellFounded_step _,
    fun first others hnodes ↦ ?_, isConnected_of_length_le_one hgraph⟩
  · rw [sort_eq_disconnected_iff, hcycle, hconnected, not_not]
  · obtain ⟨order, horder⟩ := Option.ne_none_iff_exists'.1 fun hnone ↦ hacyclic (hcycle.1 hnone)
    exact ⟨order, horder, sort_eq_ok_iff.2 ⟨horder, hconnected.2 htogether⟩⟩
  · obtain ⟨seen, hend⟩ := Search.exists_end (ofInsertions insertions) (.start first)
    exact ⟨seen, hend, Search.isConnected_eq_of_endsWith hgraph hnodes hend⟩

/-- The diamond is sorted, a node beside it is not linked to it, and a loop at that node is a cycle. -/
theorem sort_ofInsertions_diamond :
    (∃ order, (ofInsertions diamond).order? = some order ∧ (ofInsertions diamond).sort = .ok order) ∧
    FallsApart (.node "notes" :: diamond) ∧ HasCycle (.edge "notes" "notes" :: diamond) ∧
    (∃ seen, Search.EndsWith (ofInsertions diamond) "check" seen ∧
      (ofInsertions diamond).isConnected = (seen.length == 4)) ∧
    (ofInsertions [.edge "notes" "notes"]).isConnected = true := by
  obtain ⟨hcycle, hapart, hsorted, -, hsearch, -⟩ := sort_ofInsertions diamond
  refine ⟨hsorted (fun h ↦ ?_) fun h ↦ ?_, ?_, ?_, hsearch "check" ["plot", "start", "zip"] (by decide), ?_⟩
  · exact absurd (hcycle.2 h) (by decide)
  · have hacyclic : ¬ HasCycle diamond := fun hloop ↦ absurd (hcycle.2 hloop) (by decide)
    exact absurd (hapart.2 ⟨hacyclic, h⟩) (by decide)
  · exact ((sort_ofInsertions (.node "notes" :: diamond)).2.1.1 (by decide)).2
  · exact (sort_ofInsertions (.edge "notes" "notes" :: diamond)).1.1 (by decide)
  · exact (sort_ofInsertions [.edge "notes" "notes"]).2.2.2.2.2 (by decide)

end Invocation.Graph
