import Invocation.Proofs.Workflow.Connection
import Mathlib.Order.WellFounded

/-!
# Searching node by node

The nodes that are linked to a first one can also be found one at a time: a search takes a node out of a
queue and puts those of its neighbours into it that it has not seen before.  Every step leaves less to do,
so every search ends (`wellFounded_step`), whatever the graph; it has then seen the linked nodes, each once
(`mem_seen_iff`), and their number tells whether the graph is connected
(`isConnected_eq_of_endsWith`).
-/

namespace Invocation.Graph

/-- A search: the nodes that it has seen, and in a queue those of them whose neighbours it has not looked
at. -/
structure Search where
  seen : List String
  queue : List String
  deriving DecidableEq, Inhabited

variable {graph : Graph}

/-- The ends of the edges. -/
def ends (graph : Graph) : List String :=
  graph.edges.flatMap fun edge ↦ [edge.1, edge.2]

/-- Neighbours are ends of edges. -/
theorem mem_ends_of_mem_neighbours {id other : String} (h : other ∈ graph.neighbours id) :
    other ∈ graph.ends := by
  unfold ends
  rw [List.mem_flatMap]
  rcases mem_neighbours.1 h with hjoins | hjoins
  · exact ⟨_, hjoins, by simp⟩
  · exact ⟨_, hjoins, by simp⟩

namespace Search

/-- The search that starts from a node. -/
def start (first : String) : Search := ⟨[first], [first]⟩

/-- A node that is seen for the first time is put into the queue. -/
def visit (search : Search) (id : String) : Search :=
  if id ∈ search.seen then search else ⟨search.seen ++ [id], search.queue ++ [id]⟩

/-- The first node of the queue is taken out, and its neighbours are visited. -/
inductive Step (graph : Graph) : Search → Search → Prop where
  | take (seen : List String) (first : String) (rest : List String) :
      Step graph ⟨seen, first :: rest⟩ ((graph.neighbours first).foldl visit ⟨seen, rest⟩)

/-- The search from a node has ended, and these nodes were seen. -/
def EndsWith (graph : Graph) (first : String) (seen : List String) : Prop :=
  Relation.ReflTransGen (Step graph) (start first) ⟨seen, []⟩

/-! ## Visits -/

/-- A visit sees its node. -/
theorem mem_seen_visit {search : Search} {id other : String} :
    other ∈ (search.visit id).seen ↔ other = id ∨ other ∈ search.seen := by
  unfold visit
  split
  · next hseen =>
    refine ⟨.inr, ?_⟩
    rintro (rfl | hother)
    · exact hseen
    · exact hother
  · simp [or_comm]

/-- A visit takes nothing out of the queue. -/
theorem queue_subset_visit {search : Search} (id : String) : search.queue ⊆ (search.visit id).queue := by
  unfold visit
  split
  · exact List.Subset.refl _
  · exact List.subset_append_left _ _

/-- What is seen for the first time is in the queue. -/
theorem mem_queue_visit_of_mem_seen {search : Search} {id other : String}
    (h : other ∈ (search.visit id).seen) : other ∈ search.seen ∨ other ∈ (search.visit id).queue := by
  unfold visit at *
  split at h
  · exact .inl h
  · next hnew =>
    rw [if_neg hnew]
    exact (List.mem_append.1 h).imp_right (List.mem_append_right _)

/-- Visits see their nodes. -/
theorem mem_seen_foldl_visit {ids : List String} {search : Search} {other : String} :
    other ∈ (ids.foldl visit search).seen ↔ other ∈ ids ∨ other ∈ search.seen := by
  induction ids generalizing search with
  | nil => simp
  | cons id rest ih => rw [List.foldl_cons, ih, mem_seen_visit, List.mem_cons, or_assoc, or_left_comm]

/-- Visits take nothing out of the queue. -/
theorem queue_subset_foldl_visit (ids : List String) (search : Search) :
    search.queue ⊆ (ids.foldl visit search).queue := by
  induction ids generalizing search with
  | nil => exact List.Subset.refl _
  | cons id rest ih => exact List.Subset.trans (queue_subset_visit id) (ih _)

/-- What is seen for the first time in visits is in the queue. -/
theorem mem_queue_foldl_visit_of_mem_seen {ids : List String} {search : Search} {other : String}
    (h : other ∈ (ids.foldl visit search).seen) :
    other ∈ search.seen ∨ other ∈ (ids.foldl visit search).queue := by
  induction ids generalizing search with
  | nil => exact .inl h
  | cons id rest ih =>
      rcases ih h with hseen | hqueue
      · refine (mem_queue_visit_of_mem_seen hseen).imp_right fun hvisited ↦ ?_
        exact queue_subset_foldl_visit rest _ hvisited
      · exact .inr hqueue

/-! ## The end of the search -/

/-- What is left to do: the ends of edges that are not seen, and the nodes in the queue. -/
def work (graph : Graph) (search : Search) : Nat :=
  (graph.ends.countP fun id ↦ id ∉ search.seen) + search.queue.length

/-- When a node is seen for the first time, it no longer counts among those that are not seen. -/
theorem countP_notMem_eq_add_count {seen : List String} {id : String} (hnew : id ∉ seen)
    (ids : List String) :
    ids.countP (fun other ↦ other ∉ seen) =
      ids.countP (fun other ↦ other ∉ seen ++ [id]) + ids.count id := by
  induction ids with
  | nil => rfl
  | cons other rest ih =>
      rw [List.countP_cons, List.countP_cons, List.count_cons, ih]
      by_cases hother : other = id
      · simp [hother, hnew]
        omega
      · simp [hother]
        omega

/-- A visit of the end of an edge does not add work. -/
theorem work_visit_le {id : String} (hid : id ∈ graph.ends) (search : Search) :
    (search.visit id).work graph ≤ search.work graph := by
  unfold visit
  split
  · exact Nat.le_refl _
  · next hnew =>
    -- the node goes from the ends that are not seen to the queue
    have hcount := countP_notMem_eq_add_count hnew graph.ends
    have hpositive : 0 < graph.ends.count id := List.count_pos_iff.2 hid
    show (graph.ends.countP fun other ↦ other ∉ search.seen ++ [id]) + (search.queue ++ [id]).length ≤
      (graph.ends.countP fun other ↦ other ∉ search.seen) + search.queue.length
    rw [List.length_append, List.length_singleton]
    omega

/-- Visits of ends of edges do not add work. -/
theorem work_foldl_visit_le {ids : List String} (hids : ∀ id ∈ ids, id ∈ graph.ends) (search : Search) :
    (ids.foldl visit search).work graph ≤ search.work graph := by
  induction ids generalizing search with
  | nil => exact Nat.le_refl _
  | cons id rest ih =>
      obtain ⟨hid, hrest⟩ := List.forall_mem_cons.1 hids
      exact (ih hrest _).trans (work_visit_le hid search)

/-- Every step leaves less to do. -/
theorem Step.work_lt {search next : Search} (h : Step graph search next) :
    next.work graph < search.work graph := by
  cases h with
  | take seen first rest =>
      have hneighbours : ∀ id ∈ graph.neighbours first, id ∈ graph.ends :=
        fun id hid ↦ mem_ends_of_mem_neighbours hid
      have hvisits := work_foldl_visit_le hneighbours ⟨seen, rest⟩
      have htaken : work graph ⟨seen, first :: rest⟩ = work graph ⟨seen, rest⟩ + 1 := rfl
      omega

/-- No search goes on for ever. -/
theorem wellFounded_step (graph : Graph) : WellFounded fun next search ↦ Step graph search next :=
  Subrelation.wf Step.work_lt (measure (work graph)).wf

/-- A search that has something in its queue makes a step. -/
theorem exists_step {search : Search} (h : search.queue ≠ []) : ∃ next, Step graph search next := by
  obtain ⟨seen, queue⟩ := search
  cases queue with
  | nil => exact absurd rfl h
  | cons first rest => exact ⟨_, .take seen first rest⟩

/-- Every search comes to an end. -/
theorem exists_end (graph : Graph) (search : Search) :
    ∃ seen, Relation.ReflTransGen (Step graph) search ⟨seen, []⟩ := by
  induction search using (wellFounded_step graph).induction with
  | _ search ih =>
    by_cases hqueue : search.queue = []
    · refine ⟨search.seen, ?_⟩
      rw [← hqueue]
    · obtain ⟨next, hstep⟩ : ∃ next, Step graph search next := exists_step hqueue
      obtain ⟨seen, hend⟩ := ih next hstep
      exact ⟨seen, .head hstep hend⟩

/-! ## What is seen -/

/-- What a search from the first node keeps: it has reached what it has seen, the queue is part of that, and
of the nodes that are not in the queue it has seen all neighbours. -/
structure Sound (graph : Graph) (first : String) (search : Search) : Prop where
  reached : graph.Reached first search.seen
  queued : search.queue ⊆ search.seen
  closed {id near : String} :
    id ∈ search.seen → id ∉ search.queue → near ∈ graph.neighbours id → near ∈ search.seen

/-- The first node has been reached at the start. -/
theorem sound_start {first : String} (h : first ∈ graph.nodes) : (start first).Sound graph first where
  reached := .singleton h
  queued := List.Subset.refl _
  closed hseen hqueue := absurd hseen hqueue

/-- A visit of a neighbour of a node that is reached reaches nodes. -/
theorem reached_visit (hgraph : graph.WellFormed) {first id near : String} {search : Search}
    (h : graph.Reached first search.seen) (hid : id ∈ search.seen) (hnear : near ∈ graph.neighbours id) :
    graph.Reached first (search.visit near).seen := by
  unfold visit
  split
  · exact h
  · next hnew => exact h.append_neighbour hgraph hid hnear hnew

/-- Visits of neighbours of a node that is reached reach nodes, and queue them. -/
theorem reached_foldl_visit (hgraph : graph.WellFormed) {first id : String} {ids : List String}
    (search : Search) (h : graph.Reached first search.seen) (hqueued : search.queue ⊆ search.seen)
    (hid : id ∈ search.seen) (hids : ids ⊆ graph.neighbours id) :
    graph.Reached first (ids.foldl visit search).seen ∧
      (ids.foldl visit search).queue ⊆ (ids.foldl visit search).seen := by
  induction ids generalizing search with
  | nil => exact ⟨h, hqueued⟩
  | cons near rest ih =>
      obtain ⟨hnear, hrest⟩ := List.cons_subset.1 hids
      refine ih _ (reached_visit hgraph h hid hnear) ?_ (mem_seen_visit.2 (.inr hid)) hrest
      unfold visit
      split
      · exact hqueued
      · exact List.append_subset.2 ⟨fun other hother ↦ List.mem_append_left _ (hqueued hother),
          List.subset_append_right _ _⟩

/-- A step keeps this. -/
theorem Sound.step (hgraph : graph.WellFormed) {first : String} {search next : Search}
    (h : search.Sound graph first) (hstep : Step graph search next) : next.Sound graph first := by
  cases hstep with
  | take seen id rest =>
      have hid : id ∈ seen := h.queued List.mem_cons_self
      have hrest : rest ⊆ seen := (List.cons_subset.1 h.queued).2
      obtain ⟨hreached, hqueued⟩ :=
        reached_foldl_visit hgraph ⟨seen, rest⟩ h.reached hrest hid (List.Subset.refl _)
      refine ⟨hreached, hqueued, fun {other near} hseen hqueue hnear ↦ mem_seen_foldl_visit.2 ?_⟩
      by_cases hother : other = id
      · -- all neighbours of the node that was taken out have been visited
        exact .inl (hother ▸ hnear)
      · rcases mem_queue_foldl_visit_of_mem_seen hseen with hold | hnew
        · refine .inr (h.closed hold (fun hmem ↦ ?_) hnear)
          rcases List.mem_cons.1 hmem with heq | hmem
          · exact hother heq
          · exact hqueue (queue_subset_foldl_visit _ _ hmem)
        · exact absurd hnew hqueue

/-- A search from a node keeps this in all its steps. -/
theorem sound_of_steps (hgraph : graph.WellFormed) {first : String} (hfirst : first ∈ graph.nodes)
    {search : Search} (h : Relation.ReflTransGen (Step graph) (start first) search) :
    search.Sound graph first := by
  induction h with
  | refl => exact sound_start hfirst
  | tail _ hstep ih => exact ih.step hgraph hstep

/-- At the end of a search no neighbours are left. -/
theorem Sound.frontier_eq_nil {first : String} {seen : List String} (h : (⟨seen, []⟩ : Search).Sound graph first) :
    graph.frontier seen = [] := by
  refine List.eq_nil_iff_forall_not_mem.2 fun id hid ↦ ?_
  obtain ⟨⟨near, hseen, hnear⟩, hnew⟩ := mem_frontier.1 hid
  exact hnew (h.closed hseen List.not_mem_nil hnear)

/-- The search from a node sees the nodes that are linked to it, each once. -/
theorem mem_seen_iff (hgraph : graph.WellFormed) {first : String} (hfirst : first ∈ graph.nodes)
    {seen : List String} (h : EndsWith graph first seen) :
    seen.Nodup ∧ ∀ id, id ∈ seen ↔ Relation.EqvGen graph.Joins first id := by
  have hsound := sound_of_steps hgraph hfirst h
  refine ⟨hsound.reached.nodup, fun id ↦ ⟨hsound.reached.linked id, fun hlinked ↦ ?_⟩⟩
  exact (mem_iff_of_linked hsound.frontier_eq_nil hlinked).1 hsound.reached.first_mem

/-- The graph is connected when the search from its first node sees as many nodes as there are. -/
theorem isConnected_eq_of_endsWith (hgraph : graph.WellFormed) {first : String} {others : List String}
    (hnodes : graph.nodes = first :: others) {seen : List String} (h : EndsWith graph first seen) :
    graph.isConnected = (seen.length == graph.nodes.length) := by
  have hsound := sound_of_steps hgraph (hnodes ▸ List.mem_cons_self) h
  rw [Bool.eq_iff_iff, isConnected_iff hgraph, beq_iff_eq,
    hsound.reached.length_eq_iff hgraph hsound.frontier_eq_nil]

end Search

end Invocation.Graph
