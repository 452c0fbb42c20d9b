import Invocation.Proofs.Workflow.Building
import Mathlib.Data.List.Nodup
import Mathlib.Data.List.Perm.Subperm
import Mathlib.Logic.Relation

/-!
# Connected graphs

The search for connected nodes starts from the first node and takes in the neighbours of what it has
reached, round by round.  `Reached` is what every round keeps: the nodes that are reached are nodes of the
graph, each once, and linked to the first one by edges in either direction.  A round that finds nothing
new ends the search, and there are not more rounds with something new than nodes, so all linked nodes are
reached (`closed_reach`) and a graph is connected exactly when every two nodes are linked
(`isConnected_iff`).
-/

namespace Invocation

/-- Nothing is repeated once the repetitions are erased. -/
theorem nodup_eraseDups {α : Type} [DecidableEq α] (values : List α) : values.eraseDups.Nodup := by
  match values with
  | [] => exact List.nodup_nil
  | first :: rest =>
    rw [List.eraseDups_cons, List.nodup_cons]
    refine ⟨?_, nodup_eraseDups _⟩
    simp
termination_by values.length
decreasing_by exact Nat.lt_succ_of_le (List.length_filter_le _ _)

namespace Graph

variable {graph : Graph}

/-! ## Rounds of the search -/

/-- The neighbours of a node are at the other ends of its edges. -/
theorem mem_neighbours {id other : String} :
    other ∈ graph.neighbours id ↔ graph.Joins id other ∨ graph.Joins other id := by
  unfold neighbours Joins
  rw [List.mem_filterMap]
  constructor
  · rintro ⟨⟨source, target⟩, hmem, hother⟩
    by_cases hsource : source = id
    · have htarget : target = other := by simpa [hsource] using hother
      rw [hsource, htarget] at hmem
      exact .inl hmem
    · have hends : target = id ∧ source = other := by simpa [hsource] using hother
      rw [hends.1, hends.2] at hmem
      exact .inr hmem
  · rintro (hmem | hmem)
    · exact ⟨_, hmem, if_pos rfl⟩
    · -- a loop is looked at from its source
      by_cases hloop : other = id
      · exact ⟨_, hmem, by simp [hloop]⟩
      · exact ⟨_, hmem, by simp [hloop]⟩

/-- The frontier holds the neighbours of what is reached that are not reached. -/
theorem mem_frontier {reached : List String} {id : String} :
    id ∈ graph.frontier reached ↔
      (∃ near ∈ reached, id ∈ graph.neighbours near) ∧ id ∉ reached := by
  unfold frontier
  rw [List.mem_eraseDups, List.mem_filter, List.mem_flatMap]
  simp

/-- Neighbours are nodes. -/
theorem isNode_of_mem_neighbours (hgraph : graph.WellFormed) {id near : String}
    (h : near ∈ graph.neighbours id) : near ∈ graph.nodes := by
  rcases mem_neighbours.1 h with hjoins | hjoins
  · exact (hgraph.ends hjoins).2
  · exact (hgraph.ends hjoins).1

/-- Neighbours are linked. -/
theorem eqvGen_of_mem_neighbours {id near : String} (h : near ∈ graph.neighbours id) :
    Relation.EqvGen graph.Joins id near := by
  rcases mem_neighbours.1 h with hjoins | hjoins
  · exact .rel _ _ hjoins
  · exact .symm _ _ (.rel _ _ hjoins)

/-- What the search has reached from the first node: nodes, each once, all linked to it. -/
structure Reached (graph : Graph) (first : String) (reached : List String) : Prop where
  nodup : reached.Nodup
  first_mem : first ∈ reached
  isNode : ∀ id ∈ reached, id ∈ graph.nodes
  linked : ∀ id ∈ reached, Relation.EqvGen graph.Joins first id

namespace Reached

variable {first : String} {reached : List String}

/-- A search starts from a node. -/
theorem singleton (hfirst : first ∈ graph.nodes) : graph.Reached first [first] where
  nodup := List.nodup_singleton first
  first_mem := List.mem_singleton_self first
  isNode := fun id hid ↦ List.mem_singleton.1 hid ▸ hfirst
  linked := by
    intro id hid
    rw [List.mem_singleton.1 hid]
    exact .refl first

/-- A neighbour of a node that is reached can be reached. -/
theorem append_neighbour (hgraph : graph.WellFormed) (h : graph.Reached first reached)
    {id near : String} (hid : id ∈ reached) (hnear : near ∈ graph.neighbours id)
    (hnew : near ∉ reached) : graph.Reached first (reached ++ [near]) where
  nodup := by
    rw [← List.concat_eq_append, List.nodup_concat]
    exact ⟨hnew, h.nodup⟩
  first_mem := List.mem_append_left _ h.first_mem
  isNode := by
    rw [List.forall_mem_append]
    refine ⟨h.isNode, fun other hother ↦ ?_⟩
    rw [List.mem_singleton.1 hother]
    exact isNode_of_mem_neighbours hgraph hnear
  linked := by
    rw [List.forall_mem_append]
    refine ⟨h.linked, fun other hother ↦ ?_⟩
    rw [List.mem_singleton.1 hother]
    exact .trans _ _ _ (h.linked id hid) (eqvGen_of_mem_neighbours hnear)

/-- A round takes in nodes that are linked to those reached. -/
theorem round (hgraph : graph.WellFormed) (h : graph.Reached first reached) :
    graph.Reached first (reached ++ graph.frontier reached) where
  nodup := by
    refine List.nodup_append.2 ⟨h.nodup, nodup_eraseDups _, ?_⟩
    rintro id hid _ hfresh rfl
    exact (mem_frontier.1 hfresh).2 hid
  first_mem := List.mem_append_left _ h.first_mem
  isNode := by
    intro id hid
    rcases List.mem_append.1 hid with hid | hfresh
    · exact h.isNode id hid
    · obtain ⟨⟨near, _, hnear⟩, _⟩ := mem_frontier.1 hfresh
      exact isNode_of_mem_neighbours hgraph hnear
  linked := by
    intro id hid
    rcases List.mem_append.1 hid with hid | hfresh
    · exact h.linked id hid
    · obtain ⟨⟨near, hreached, hnear⟩, _⟩ := mem_frontier.1 hfresh
      exact .trans _ near _ (h.linked near hreached) (eqvGen_of_mem_neighbours hnear)

/-- The search keeps to linked nodes. -/
theorem reach (hgraph : graph.WellFormed) (rounds : Nat) (h : graph.Reached first reached) :
    graph.Reached first (graph.reach rounds reached) := by
  induction rounds generalizing reached with
  | zero => exact h
  | succ rounds ih =>
      unfold Graph.reach
      dsimp only
      split
      · exact h
      · exact ih (h.round hgraph)

/-- There are not more nodes reached than nodes. -/
theorem length_le (h : graph.Reached first reached) : reached.length ≤ graph.nodes.length :=
  (List.subperm_of_subset h.nodup h.isNode).length_le

/-- When as many nodes are reached as there are, all are. -/
theorem mem_of_length (h : graph.Reached first reached)
    (hlength : graph.nodes.length ≤ reached.length) : ∀ id ∈ graph.nodes, id ∈ reached := by
  have hperm : reached.Perm graph.nodes :=
    (List.subperm_of_subset h.nodup h.isNode).perm_of_length_le hlength
  intro id hid
  exact hperm.mem_iff.2 hid

end Reached

/-! ## The end of the search -/

/-- As many rounds as there are nodes that are not reached leave no neighbours outside. -/
theorem closed_reach (hgraph : graph.WellFormed) {first : String} {rounds : Nat}
    {reached : List String} (h : graph.Reached first reached)
    (hrounds : graph.nodes.length ≤ rounds + reached.length) :
    graph.frontier (graph.reach rounds reached) = [] := by
  induction rounds generalizing reached with
  | zero =>
      have hall : ∀ id ∈ graph.nodes, id ∈ reached := h.mem_of_length (by omega)
      unfold reach
      rw [List.eq_nil_iff_forall_not_mem]
      intro id hfresh
      have hnode : id ∈ graph.nodes :=
        (h.round hgraph).isNode id (List.mem_append_right _ hfresh)
      exact (mem_frontier.1 hfresh).2 (hall id hnode)
  | succ rounds ih =>
      unfold reach
      dsimp only
      split
      · next hempty => exact List.isEmpty_iff.1 hempty
      · next hfresh =>
        have hpositive : 0 < (graph.frontier reached).length := by
          rw [List.isEmpty_iff] at hfresh
          exact List.length_pos_of_ne_nil hfresh
        refine ih (h.round hgraph) ?_
        rw [List.length_append]
        omega

/-- Without neighbours outside, links do not lead outside. -/
theorem mem_iff_of_linked {reached : List String} (hclosed : graph.frontier reached = [])
    {first second : String} (h : Relation.EqvGen graph.Joins first second) :
    first ∈ reached ↔ second ∈ reached := by
  have hnear {near id : String} (hreached : near ∈ reached) (hid : id ∈ graph.neighbours near) :
      id ∈ reached := by
    by_contra houtside
    have hfresh : id ∈ graph.frontier reached := mem_frontier.2 ⟨⟨near, hreached, hid⟩, houtside⟩
    rw [hclosed] at hfresh
    cases hfresh
  induction h with
  | rel first second hjoins =>
      constructor
      · intro hfirst
        exact hnear hfirst (mem_neighbours.2 (.inl hjoins))
      · intro hsecond
        exact hnear hsecond (mem_neighbours.2 (.inr hjoins))
  | refl => exact Iff.rfl
  | symm _ _ _ ih => exact ih.symm
  | trans _ _ _ _ _ ihfirst ihsecond => exact ihfirst.trans ihsecond

/-- When no neighbours are left outside, as many nodes are reached as there are exactly when every two
nodes are linked. -/
theorem Reached.length_eq_iff (hgraph : graph.WellFormed) {first : String} {reached : List String}
    (h : graph.Reached first reached) (hclosed : graph.frontier reached = []) :
    reached.length = graph.nodes.length ↔
      ∀ first ∈ graph.nodes, ∀ second ∈ graph.nodes, Relation.EqvGen graph.Joins first second := by
  constructor
  · intro hlength one hone other hother
    have hall := h.mem_of_length hlength.ge
    have hback := (h.linked one (hall one hone)).symm
    exact .trans _ first _ hback (h.linked other (hall other hother))
  · intro hlinked
    refine le_antisymm h.length_le ?_
    have hall : ∀ id ∈ graph.nodes, id ∈ reached := by
      intro id hid
      have hlink := hlinked first (h.isNode first h.first_mem) id hid
      exact (mem_iff_of_linked hclosed hlink).1 h.first_mem
    exact (List.subperm_of_subset hgraph.nodup_nodes hall).length_le

/-- A well-formed graph is connected exactly when every two nodes are linked by edges in either
direction. -/
theorem isConnected_iff (hgraph : graph.WellFormed) :
    graph.isConnected = true ↔
      ∀ first ∈ graph.nodes, ∀ second ∈ graph.nodes, Relation.EqvGen graph.Joins first second := by
  cases hnodes : graph.nodes with
  | nil => simp [isConnected, hnodes]
  | cons start others =>
      have hstart : start ∈ graph.nodes := hnodes ▸ List.mem_cons_self
      have hreached := (Reached.singleton hstart).reach hgraph graph.nodes.length
      have hclosed : graph.frontier (graph.reach graph.nodes.length [start]) = [] :=
        closed_reach hgraph (.singleton hstart) (by omega)
      have hsearch : graph.isConnected =
          ((graph.reach graph.nodes.length [start]).length == graph.nodes.length) := by
        simp only [isConnected, hnodes]
      rw [← hnodes, hsearch, beq_iff_eq]
      exact hreached.length_eq_iff hgraph hclosed

end Graph

end Invocation
