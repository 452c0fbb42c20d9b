import Invocation.Proofs.Workflow.Order
import Mathlib.Data.Set.Card

/-!
# The books of an order in progress

While nodes go one by one, a degree is kept for each node and the ready nodes are kept apart.  The books are
balanced in front of every round (`Balanced`): degrees count the sources that have not gone, and the nodes
without such a source are ready.  So nothing that a round guards against happens: when an edge is closed,
its target has a degree, and the degree is not zero (`exists_lookup_midway`).
-/

namespace Invocation.Graph

variable {graph : Graph}

/-- The edges into a node whose sources have not gone are as many as these sources. -/
theorem openDegree_eq_ncard (hgraph : graph.WellFormed) (ordered : List String) (id : String) :
    graph.openDegree ordered id = {source | graph.Joins source id ∧ source ∉ ordered}.ncard := by
  let leading := graph.edges.filter fun edge ↦ edge.2 == id && !ordered.contains edge.1
  have hmem {edge : String × String} :
      edge ∈ leading ↔ edge ∈ graph.edges ∧ edge.2 = id ∧ edge.1 ∉ ordered := by
    simp [leading]
  have hsources : {source | graph.Joins source id ∧ source ∉ ordered} =
      ((leading.map Prod.fst).toFinset : Set String) := by
    ext source
    rw [List.coe_toFinset, Set.mem_ofPred_eq, Set.mem_ofPred_eq, List.mem_map]
    constructor
    · rintro ⟨hjoins, hwaits⟩
      exact ⟨(source, id), hmem.2 ⟨hjoins, rfl, hwaits⟩, rfl⟩
    · rintro ⟨⟨first, target⟩, hedge, rfl⟩
      obtain ⟨hjoins, rfl, hwaits⟩ := hmem.1 hedge
      exact ⟨hjoins, hwaits⟩
  -- edges into one node differ in their sources
  have hnodup : (leading.map Prod.fst).Nodup := by
    refine List.Nodup.map_on (fun first hfirst second hsecond heq ↦ ?_) (hgraph.nodup_edges.filter _)
    exact Prod.ext heq ((hmem.1 hfirst).2.1.trans (hmem.1 hsecond).2.1.symm)
  rw [hsources, Set.ncard_coe_finset, List.toFinset_card_of_nodup hnodup, List.length_map]
  exact List.countP_eq_length_filter

namespace Progress

/-- The books are balanced: the degree of each node that the insertions mention is the number of its sources
that have not gone, the ready nodes are those that have not gone and whose degree is zero, each once and in
increasing order, and no node has gone twice. -/
structure Balanced (insertions : List Insertion) (progress : Progress) : Prop where
  lookup {id : String} : (∃ insertion ∈ insertions, insertion.Mentions id) →
    progress.degrees.lookup id =
      some {source | .edge source id ∈ insertions ∧ source ∉ progress.ordered}.ncard
  mem_ready {id : String} : id ∈ progress.ready ↔
    (∃ insertion ∈ insertions, insertion.Mentions id) ∧ id ∉ progress.ordered ∧
      progress.degrees.lookup id = some 0
  ready : progress.ready.Pairwise (· < ·)
  nodup : progress.ordered.Nodup

/-- Sound progress has balanced books. -/
theorem Sound.balanced {insertions : List Insertion} {progress : Progress}
    (h : progress.Sound (ofInsertions insertions)) : progress.Balanced insertions where
  lookup hid := by
    rw [h.lookup (mem_nodes_ofInsertions.2 hid),
      openDegree_eq_ncard (wellFormed_ofInsertions insertions)]
    simp only [joins_ofInsertions]
  mem_ready {id} := by
    rw [h.mem_ready, ← mem_nodes_ofInsertions]
    constructor
    · intro hready
      have hzero := openDegree_eq_zero_iff.2 fun _ hjoins ↦ hready.sources hjoins
      exact ⟨hready.isNode, hready.waits, by rw [h.lookup hready.isNode, hzero]⟩
    · rintro ⟨hnode, hwaits, hdegree⟩
      rw [h.lookup hnode, Option.some_inj] at hdegree
      exact ⟨hnode, hwaits, fun hjoins ↦ openDegree_eq_zero_iff.1 hdegree _ hjoins⟩
  ready := h.ready
  nodup := h.legal.nodup

/-- The midst of a round: the least ready node has gone, and its edges to these targets are closed. -/
def midway (progress : Progress) (first : String) (rest closed : List String) : Progress :=
  closed.foldl release { progress with ready := rest, ordered := first :: progress.ordered }

/-- At the end of a round all edges of its node are closed. -/
theorem midway_targets {progress : Progress} {first : String} {rest : List String}
    (hready : progress.ready = first :: rest) :
    progress.midway first rest (graph.targets first) = graph.advance progress := by
  unfold Graph.advance
  rw [hready]
  rfl

/-- When an edge is closed its target has a degree, and it counts the edge. -/
theorem Sound.exists_lookup_midway (hgraph : graph.WellFormed) {progress : Progress}
    (h : progress.Sound graph) {first : String} {rest : List String}
    (hready : progress.ready = first :: rest) {closed later : List String} {target : String}
    (htargets : graph.targets first = closed ++ target :: later) :
    ∃ degree, (progress.midway first rest closed).degrees.lookup target = some (degree + 1) := by
  have hfirst : graph.IsReady progress.ordered first := h.mem_ready.1 (hready ▸ List.mem_cons_self)
  have hnodup : (closed ++ target :: later).Nodup := htargets ▸ nodup_targets hgraph first
  obtain ⟨hclosed, -, hdisjoint⟩ := List.nodup_append.1 hnodup
  have hopen : target ∉ closed := fun hmem ↦ hdisjoint target hmem target List.mem_cons_self rfl
  have htarget : target ∈ graph.targets first := htargets ▸ List.mem_append_right _ List.mem_cons_self
  have hnode : target ∈ graph.nodes := (hgraph.ends (mem_targets.1 htarget)).2
  have hcount := openDegree_cons hgraph hfirst.waits target
  rw [if_pos htarget] at hcount
  refine ⟨graph.openDegree (first :: progress.ordered) target, ?_⟩
  rw [midway, lookup_foldl_release hclosed]
  show (progress.degrees.lookup target).map _ = _
  rw [h.lookup hnode, Option.map_some, if_neg hopen, hcount]

end Progress

/-! ## The end of the rounds -/

/-- A node goes in each round, up to the limit or until none is ready. -/
theorem exists_rounds (graph : Graph) (limit : Nat) (progress : Progress) :
    ∃ rounds ≤ limit,
      (graph.advanceTimes rounds progress).ordered.length = progress.ordered.length + rounds ∧
      ((graph.advanceTimes rounds progress).ready = [] ∨ rounds = limit) := by
  induction limit generalizing progress with
  | zero => exact ⟨0, le_rfl, rfl, .inr rfl⟩
  | succ limit ih =>
      cases hready : progress.ready with
      | nil => exact ⟨0, Nat.zero_le _, rfl, .inl hready⟩
      | cons first rest =>
          obtain ⟨rounds, hle, hlength, hend⟩ := ih (graph.advance progress)
          refine ⟨rounds + 1, Nat.succ_le_succ hle, ?_, hend.imp_right (congrArg (· + 1))⟩
          rw [ordered_advance graph hready, List.length_cons] at hlength
          rw [advanceTimes, hlength]
          omega

/-- When as many nodes have gone as there are, none is ready. -/
theorem Progress.Sound.ready_eq_nil {progress : Progress} (h : progress.Sound graph)
    (hlength : progress.ordered.length = graph.nodes.length) : progress.ready = [] := by
  have hsubperm := List.subperm_of_subset h.legal.nodup h.legal.isNode
  have hperm := hsubperm.perm_of_length_le hlength.ge
  refine List.eq_nil_iff_forall_not_mem.2 fun id hid ↦ ?_
  have hready := h.mem_ready.1 hid
  exact hready.waits (hperm.mem_iff.2 hready.isNode)

/-- The progress in front of the round with an index. -/
def progressAt (graph : Graph) (rounds : Nat) : Progress :=
  graph.advanceTimes rounds graph.start

/-- A round leads to the progress in front of the next one. -/
theorem progressAt_succ (graph : Graph) (rounds : Nat) :
    graph.progressAt (rounds + 1) = graph.advance (graph.progressAt rounds) := by
  have hlast (rounds : Nat) (progress : Progress) :
      graph.advanceTimes (rounds + 1) progress = graph.advance (graph.advanceTimes rounds progress) := by
    induction rounds generalizing progress with
    | zero => rfl
    | succ rounds ih => exact ih (graph.advance progress)
  exact hlast rounds graph.start

/-- For a graph that is built by any insertions, the books are balanced in front of every round: degrees count
the inserted edges whose sources have not gone, the ready nodes are the others whose degree is zero, and no
node goes twice.  A round closes the edges of its node one by one, and whichever of them are closed already,
the target of the next one is found, and its degree is not zero.  After as many rounds as nodes have gone, at
most all, no node is ready, and the rounds end. -/
theorem books_ofInsertions (insertions : List Insertion) :
    (∀ rounds, ((ofInsertions insertions).progressAt rounds).Balanced insertions) ∧
    (∀ rounds first rest, ((ofInsertions insertions).progressAt rounds).ready = first :: rest →
      ((ofInsertions insertions).progressAt rounds).midway first rest
          ((ofInsertions insertions).targets first) =
        (ofInsertions insertions).progressAt (rounds + 1) ∧
      ∀ closed target later, (ofInsertions insertions).targets first = closed ++ target :: later →
        ∃ degree, (((ofInsertions insertions).progressAt rounds).midway first rest
          closed).degrees.lookup target = some (degree + 1)) ∧
    ∃ rounds ≤ (ofInsertions insertions).nodes.length,
      ((ofInsertions insertions).progressAt rounds).ready = [] ∧
      ((ofInsertions insertions).progressAt rounds).ordered.length = rounds := by
  have hgraph := wellFormed_ofInsertions insertions
  have hsound (rounds : Nat) : ((ofInsertions insertions).progressAt rounds).Sound _ :=
    (sound_start hgraph).advanceTimes hgraph rounds
  refine ⟨fun rounds ↦ (hsound rounds).balanced, fun rounds first rest hready ↦
    ⟨(Progress.midway_targets hready).trans (progressAt_succ _ rounds).symm,
      fun closed target later htargets ↦ (hsound rounds).exists_lookup_midway hgraph hready htargets⟩, ?_⟩
  obtain ⟨rounds, hle, hlength, hend⟩ := exists_rounds (ofInsertions insertions)
    (ofInsertions insertions).nodes.length (ofInsertions insertions).start
  have hgone : ((ofInsertions insertions).progressAt rounds).ordered.length = rounds := by
    simpa [progressAt, start] using hlength
  refine ⟨rounds, hle, ?_, hgone⟩
  rcases hend with hready | rfl
  · exact hready
  · exact (hsound _).ready_eq_nil hgone

/-- In the second round of the diamond `check` goes, and the degree of `zip` counts the edge from `check`
until it is closed.  With a loop at `zip` one edge into this node stays open in the end. -/
theorem books_ofInsertions_diamond :
    (∃ degree, (((ofInsertions diamond).progressAt 1).midway "check" ["plot"] []).degrees.lookup "zip" =
      some (degree + 1)) ∧
    ((ofInsertions (.edge "zip" "zip" :: diamond)).progressAt 3).ready = [] ∧
    {source | .edge source "zip" ∈ Insertion.edge "zip" "zip" :: diamond ∧
      source ∉ ["plot", "check", "start"]}.ncard = 1 := by
  refine ⟨?_, by decide, ?_⟩
  · have hround := (books_ofInsertions diamond).2.1 1 "check" ["plot"] (by decide)
    exact hround.2 [] "zip" [] (by decide)
  · have hlookup := ((books_ofInsertions (.edge "zip" "zip" :: diamond)).1 3).lookup
      ⟨.edge "zip" "zip", List.mem_cons_self, .inl rfl⟩
    have hone : ((ofInsertions (.edge "zip" "zip" :: diamond)).progressAt 3).degrees.lookup "zip" =
      some 1 := by decide
    have hordered : ((ofInsertions (.edge "zip" "zip" :: diamond)).progressAt 3).ordered =
      ["plot", "check", "start"] := by decide
    rw [hone, hordered] at hlookup
    exact (Option.some.inj hlookup).symm

end Invocation.Graph
