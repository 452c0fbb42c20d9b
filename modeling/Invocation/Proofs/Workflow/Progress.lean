import Invocation.Entries
import Invocation.Proofs.Workflow.Building
import Mathlib.Data.List.Nodup

/-!
# The invariant of an order in progress

Nodes go one by one, each after all its sources.  `Legal` says so of the nodes that have gone, and
`Progress.Sound` adds what the bookkeeping is for: the degree of a node counts its sources that have not
gone, and the ready nodes are those that can go next.  Every round keeps this (`Progress.Sound.advance`).
-/

namespace Invocation.Graph

/-- The node has not gone, but all its sources have. -/
structure IsReady (graph : Graph) (ordered : List String) (id : String) : Prop where
  isNode : id ∈ graph.nodes
  waits : id ∉ ordered
  sources {source : String} : graph.Joins source id → source ∈ ordered

/-- Nodes that have gone, the latest first, each when it was ready. -/
inductive Legal (graph : Graph) : List String → Prop where
  | nil : Legal graph []
  | cons {ordered : List String} {id : String} :
      graph.IsReady ordered id → Legal graph ordered → Legal graph (id :: ordered)

/-- The number of edges into a node whose sources have not gone. -/
def openDegree (graph : Graph) (ordered : List String) (id : String) : Nat :=
  graph.edges.countP fun edge ↦ edge.2 == id && !ordered.contains edge.1

namespace Legal

variable {graph : Graph} {ordered : List String}

/-- No node has gone twice. -/
theorem nodup (h : graph.Legal ordered) : ordered.Nodup := by
  induction h with
  | nil => exact .nil
  | cons hready _ ih => exact List.nodup_cons.2 ⟨hready.waits, ih⟩

/-- Only nodes have gone. -/
theorem isNode (h : graph.Legal ordered) : ∀ id ∈ ordered, id ∈ graph.nodes := by
  induction h with
  | nil => exact nofun
  | cons hready _ ih => exact List.forall_mem_cons.2 ⟨hready.isNode, ih⟩

/-- The nodes that had gone at an earlier time went legally. -/
theorem of_append {front : List String} (h : graph.Legal (front ++ ordered)) :
    graph.Legal ordered := by
  induction front with
  | nil => exact h
  | cons _ _ ih =>
      cases h with
      | cons _ hrest => exact ih hrest

/-- The sources of a node that has gone have gone before it. -/
theorem mem_of_joins {front back : List String} {source target : String}
    (h : graph.Legal (front ++ target :: back)) (hjoins : graph.Joins source target) :
    source ∈ back := by
  cases h.of_append with
  | cons hready _ => exact hready.sources hjoins

/-- The sources of a node that has gone have gone. -/
theorem closed {source target : String} (h : graph.Legal ordered)
    (hjoins : graph.Joins source target) (hmem : target ∈ ordered) : source ∈ ordered := by
  obtain ⟨front, back, rfl⟩ := List.append_of_mem hmem
  exact List.mem_append_right _ (.tail _ (h.mem_of_joins hjoins))

end Legal

/-! ## Degrees -/

variable {graph : Graph}

/-- No edge into a node is open exactly when all its sources have gone. -/
theorem openDegree_eq_zero_iff {ordered : List String} {id : String} :
    graph.openDegree ordered id = 0 ↔ ∀ source, graph.Joins source id → source ∈ ordered := by
  unfold openDegree Joins
  rw [List.countP_eq_zero]
  constructor
  · intro h source hmem
    simpa using h (source, id) hmem
  · rintro h ⟨source, target⟩ hmem hopen
    simp only [Bool.and_eq_true, beq_iff_eq, Bool.not_eq_true', List.contains_eq_mem,
      decide_eq_false_iff_not] at hopen
    obtain ⟨rfl, hopen⟩ := hopen
    exact hopen (h source hmem)

/-- A node that goes closes its edges. -/
theorem openDegree_cons (hgraph : graph.WellFormed) {ordered : List String} {first : String}
    (hfirst : first ∉ ordered) (id : String) :
    graph.openDegree ordered id =
      graph.openDegree (first :: ordered) id + if id ∈ graph.targets first then 1 else 0 := by
  have hcount : ∀ edges : List (String × String),
      (edges.countP fun edge ↦ edge.2 == id && !ordered.contains edge.1) =
        (edges.countP fun edge ↦ edge.2 == id && !(first :: ordered).contains edge.1) +
          edges.count (first, id) := by
    intro edges
    induction edges with
    | nil => rfl
    | cons edge rest ih =>
        obtain ⟨source, target⟩ := edge
        rw [List.countP_cons, List.countP_cons, List.count_cons, ih]
        by_cases hsource : source = first
        · subst hsource
          by_cases htarget : target = id
          · simp [hfirst, htarget]
            omega
          · simp [htarget]
        · simp [hsource]
          omega
  have hone : graph.edges.count (first, id) = if id ∈ graph.targets first then 1 else 0 := by
    rw [List.Nodup.count hgraph.nodup_edges]
    simp only [mem_targets]
  unfold openDegree
  rw [hcount, hone]

namespace Progress

/-! ## Releases -/

/-- A replaced degree is found at its node, and every other node keeps its degree. -/
theorem lookup_map_replace (id other : String) (degree : Nat) (degrees : List (String × Nat)) :
    (degrees.map fun entry ↦ if entry.1 = id then (id, degree) else entry).lookup other =
      (degrees.lookup other).map fun old ↦ if other = id then degree else old := by
  induction degrees with
  | nil => rfl
  | cons entry rest ih =>
      obtain ⟨name, old⟩ := entry
      have hentry : (if name = id then (id, degree) else (name, old)) =
          (name, if name = id then degree else old) := by
        split
        · next hname => rw [hname]
        · rfl
      rw [List.map_cons, hentry]
      by_cases hother : other = name
      · subst hother
        rw [List.lookup_cons_self, List.lookup_cons_self, Option.map_some]
      · have hnew : (name, if name = id then degree else old).1 ≠ other := Ne.symm hother
        have hold : (name, old).1 ≠ other := Ne.symm hother
        rw [Entries.lookup_cons_of_ne hnew, Entries.lookup_cons_of_ne hold, ih]

/-- A release takes one from the degree of its node. -/
theorem lookup_release (progress : Progress) (id other : String) :
    (progress.release id).degrees.lookup other =
      (progress.degrees.lookup other).map fun degree ↦
        if other = id then degree - 1 else degree := by
  unfold release
  by_cases hother : other = id
  · subst hother
    cases hfound : progress.degrees.lookup other with
    | none => simpa using hfound
    | some degree => simp [lookup_map_replace, hfound]
  · cases progress.degrees.lookup id with
    | none => simp [hother]
    | some degree => simp [lookup_map_replace, hother]

/-- A release makes its node ready when no edge into it is left open. -/
theorem mem_ready_release (progress : Progress) (id other : String) :
    other ∈ (progress.release id).ready ↔
      other ∈ progress.ready ∨
        other = id ∧ ∃ degree, progress.degrees.lookup id = some degree ∧ degree - 1 = 0 := by
  unfold release
  cases progress.degrees.lookup id with
  | none => simp
  | some degree =>
      by_cases hdegree : degree - 1 = 0
      · simp only [hdegree, if_true, mem_insertSorted]
        simp [hdegree, or_comm]
      · simp [hdegree]

/-- Ready nodes stay in increasing order. -/
theorem pairwise_ready_release {progress : Progress} (id : String)
    (h : progress.ready.Pairwise (· < ·)) : (progress.release id).ready.Pairwise (· < ·) := by
  unfold release
  cases progress.degrees.lookup id with
  | none => exact h
  | some degree =>
      dsimp only
      split
      · exact pairwise_insertNode id h
      · exact h

/-- A release lets no node go. -/
theorem ordered_release (progress : Progress) (id : String) :
    (progress.release id).ordered = progress.ordered := by
  unfold release
  split <;> rfl

/-- Releases of different nodes take one from the degree of each. -/
theorem lookup_foldl_release {ids : List String} (hids : ids.Nodup) (progress : Progress)
    (other : String) :
    (ids.foldl release progress).degrees.lookup other =
      (progress.degrees.lookup other).map fun degree ↦
        if other ∈ ids then degree - 1 else degree := by
  induction ids generalizing progress with
  | nil => simp
  | cons id rest ih =>
      obtain ⟨hid, hrest⟩ := List.nodup_cons.1 hids
      rw [List.foldl_cons, ih hrest, lookup_release, Option.map_map]
      refine congrArg (Option.map · _) (funext fun degree ↦ ?_)
      by_cases hother : other = id
      · subst hother
        simp [hid]
      · simp [hother]

/-- Releases of different nodes make those ready that have no open edge left. -/
theorem mem_ready_foldl_release {ids : List String} (hids : ids.Nodup) (progress : Progress)
    (other : String) :
    other ∈ (ids.foldl release progress).ready ↔
      other ∈ progress.ready ∨
        other ∈ ids ∧ ∃ degree, progress.degrees.lookup other = some degree ∧ degree - 1 = 0 := by
  induction ids generalizing progress with
  | nil => simp
  | cons id rest ih =>
      obtain ⟨hid, hrest⟩ := List.nodup_cons.1 hids
      rw [List.foldl_cons, ih hrest, mem_ready_release, lookup_release]
      by_cases hother : other = id
      · subst hother
        simp [hid]
      · simp [hother]

/-- Ready nodes stay in increasing order in any number of releases. -/
theorem pairwise_ready_foldl_release (ids : List String) {progress : Progress}
    (h : progress.ready.Pairwise (· < ·)) : (ids.foldl release progress).ready.Pairwise (· < ·) := by
  induction ids generalizing progress with
  | nil => exact h
  | cons id rest ih => exact ih (pairwise_ready_release id h)

/-- Releases let no node go. -/
theorem ordered_foldl_release (ids : List String) (progress : Progress) :
    (ids.foldl release progress).ordered = progress.ordered := by
  induction ids generalizing progress with
  | nil => rfl
  | cons id rest ih => exact (ih _).trans (ordered_release progress id)

end Progress

/-! ## Rounds -/

/-- The nodes that have gone did so legally, and the bookkeeping agrees with them. -/
structure Progress.Sound (graph : Graph) (progress : Progress) : Prop where
  legal : graph.Legal progress.ordered
  lookup {id : String} :
    id ∈ graph.nodes → progress.degrees.lookup id = some (graph.openDegree progress.ordered id)
  mem_ready {id : String} : id ∈ progress.ready ↔ graph.IsReady progress.ordered id
  ready : progress.ready.Pairwise (· < ·)

/-- Nothing has gone at the start, and the nodes without sources are ready. -/
theorem sound_start (hgraph : graph.WellFormed) : graph.start.Sound graph where
  legal := .nil
  lookup hid := by
    show (graph.nodes.map fun id ↦ (id, graph.inDegree id)).lookup _ = _
    rw [List.lookup_graph graph.inDegree hid]
    simp [start, openDegree, inDegree]
  mem_ready {id} := by
    have hready : id ∈ graph.start.ready ↔ id ∈ graph.nodes ∧ graph.openDegree [] id = 0 := by
      simp [start, openDegree, inDegree]
    rw [hready, openDegree_eq_zero_iff]
    constructor
    · exact fun ⟨hnode, hsources⟩ ↦ ⟨hnode, List.not_mem_nil, fun hjoins ↦ hsources _ hjoins⟩
    · exact fun h ↦ ⟨h.isNode, fun _ hjoins ↦ h.sources hjoins⟩
  ready := by
    have hsublist : graph.start.ready.Sublist graph.nodes := by
      simpa [start, Function.comp_def] using
        (List.filter_sublist (p := fun entry ↦ entry.2 == 0)
          (l := graph.nodes.map fun id ↦ (id, graph.inDegree id))).map Prod.fst
    exact hgraph.nodes.sublist hsublist

/-- A node has no target twice. -/
theorem nodup_targets (hgraph : graph.WellFormed) (id : String) : (graph.targets id).Nodup := by
  refine List.Nodup.map_on (fun first hfirst second hsecond heq ↦ ?_)
    (hgraph.nodup_edges.filter _)
  have hfirst : first.1 = id := by simpa using (List.mem_filter.1 hfirst).2
  have hsecond : second.1 = id := by simpa using (List.mem_filter.1 hsecond).2
  exact Prod.ext (hfirst.trans hsecond.symm) heq

/-- When a ready node goes, the nodes that are ready are the others and those that it was the last open
source of. -/
theorem isReady_cons_iff (hgraph : graph.WellFormed) {ordered : List String}
    (hlegal : graph.Legal ordered) {first : String} (hfirst : graph.IsReady ordered first)
    (id : String) :
    graph.IsReady (first :: ordered) id ↔
      (graph.IsReady ordered id ∧ id ≠ first) ∨
        id ∈ graph.targets first ∧ graph.openDegree ordered id - 1 = 0 := by
  have hcount := openDegree_cons hgraph hfirst.waits id
  constructor
  · intro h
    have hne : id ≠ first := fun heq ↦ h.waits (heq ▸ List.mem_cons_self)
    have hzero : graph.openDegree (first :: ordered) id = 0 :=
      openDegree_eq_zero_iff.2 fun _ hjoins ↦ h.sources hjoins
    -- the node is new among the ready ones when its last open edge comes from the first node
    by_cases htarget : id ∈ graph.targets first
    · rw [if_pos htarget] at hcount
      exact .inr ⟨htarget, by omega⟩
    · rw [if_neg htarget] at hcount
      have hopen := openDegree_eq_zero_iff.1 (hcount.trans hzero)
      exact .inl ⟨⟨h.isNode, fun hmem ↦ h.waits (.tail _ hmem), fun hjoins ↦ hopen _ hjoins⟩, hne⟩
  · rintro (⟨h, hne⟩ | ⟨htarget, hdegree⟩)
    · refine ⟨h.isNode, fun hmem ↦ ?_, fun hjoins ↦ .tail _ (h.sources hjoins)⟩
      rcases List.mem_cons.1 hmem with rfl | hmem
      · exact hne rfl
      · exact h.waits hmem
    · have hjoins : graph.Joins first id := mem_targets.1 htarget
      refine ⟨(hgraph.ends hjoins).2, fun hmem ↦ ?_, fun {source} hsource ↦ ?_⟩
      · -- neither a loop at the first node nor an edge back to a node that has gone is possible
        rcases List.mem_cons.1 hmem with rfl | hmem
        · exact hfirst.waits (hfirst.sources hjoins)
        · exact hfirst.waits (hlegal.closed hjoins hmem)
      · rw [if_pos htarget] at hcount
        exact openDegree_eq_zero_iff.1 (by omega) source hsource

/-- A round keeps the progress sound. -/
theorem Progress.Sound.advance (hgraph : graph.WellFormed) {progress : Progress}
    (h : progress.Sound graph) : (graph.advance progress).Sound graph := by
  unfold Graph.advance
  split
  · exact h
  · next first rest hready =>
    have hfirst : graph.IsReady progress.ordered first :=
      h.mem_ready.1 (hready ▸ List.mem_cons_self)
    obtain ⟨hlt, hrest⟩ := List.pairwise_cons.1 (hready ▸ h.ready)
    have hnodup := nodup_targets hgraph first
    refine ⟨?_, fun {id} hid ↦ ?_, fun {id} ↦ ?_, pairwise_ready_foldl_release _ hrest⟩
    · rw [ordered_foldl_release]
      exact .cons hfirst h.legal
    · rw [ordered_foldl_release, lookup_foldl_release hnodup, h.lookup hid,
        openDegree_cons hgraph hfirst.waits]
      split <;> rfl
    · rw [ordered_foldl_release, mem_ready_foldl_release hnodup,
        isReady_cons_iff hgraph h.legal hfirst]
      refine or_congr ?_ (and_congr_right fun htarget ↦ ?_)
      · rw [← h.mem_ready, hready, List.mem_cons]
        constructor
        · exact fun hmem ↦ ⟨.inr hmem, (hlt id hmem).ne'⟩
        · exact fun ⟨hmem, hne⟩ ↦ hmem.resolve_left hne
      · show (∃ degree, progress.degrees.lookup id = some degree ∧ degree - 1 = 0) ↔ _
        rw [h.lookup (hgraph.ends (mem_targets.1 htarget)).2]
        simp

/-- Any number of rounds keeps the progress sound. -/
theorem Progress.Sound.advanceTimes (hgraph : graph.WellFormed) (rounds : Nat) {progress : Progress}
    (h : progress.Sound graph) : (graph.advanceTimes rounds progress).Sound graph := by
  induction rounds generalizing progress with
  | zero => exact h
  | succ rounds ih => exact ih (h.advance hgraph)

/-- A round lets the least ready node go. -/
theorem ordered_advance (graph : Graph) {progress : Progress} {first : String}
    {rest : List String} (hready : progress.ready = first :: rest) :
    (graph.advance progress).ordered = first :: progress.ordered := by
  unfold advance
  rw [hready]
  exact Progress.ordered_foldl_release _ _

/-- A round changes nothing when no node is ready. -/
theorem advance_of_ready_eq_nil (graph : Graph) {progress : Progress} (hready : progress.ready = []) :
    graph.advance progress = progress := by
  unfold advance
  rw [hready]

/-- Rounds change nothing when no node is ready. -/
theorem advanceTimes_of_ready_eq_nil (graph : Graph) {progress : Progress}
    (hready : progress.ready = []) (rounds : Nat) : graph.advanceTimes rounds progress = progress := by
  induction rounds with
  | zero => rfl
  | succ rounds ih =>
      unfold advanceTimes
      rw [advance_of_ready_eq_nil graph hready, ih]

/-- Nodes that have gone stay so. -/
theorem suffix_ordered_advanceTimes (graph : Graph) (rounds : Nat) (progress : Progress) :
    progress.ordered <:+ (graph.advanceTimes rounds progress).ordered := by
  induction rounds generalizing progress with
  | zero => exact List.suffix_rfl
  | succ rounds ih =>
      refine .trans ?_ (ih (graph.advance progress))
      cases hready : progress.ready with
      | nil =>
          rewrite [advance_of_ready_eq_nil graph hready]
          exact List.suffix_rfl
      | cons first rest =>
          rw [ordered_advance graph hready]
          exact List.suffix_cons first _

/-- Each round lets a node go, until no node is ready. -/
theorem length_ordered_advanceTimes (graph : Graph) (rounds : Nat) (progress : Progress) :
    (graph.advanceTimes rounds progress).ordered.length = progress.ordered.length + rounds ∨
      (graph.advanceTimes rounds progress).ready = [] := by
  induction rounds generalizing progress with
  | zero => exact .inl rfl
  | succ rounds ih =>
      cases hready : progress.ready with
      | nil => exact .inr (by rw [advanceTimes_of_ready_eq_nil graph hready, hready])
      | cons first rest =>
          refine (ih (graph.advance progress)).imp_left fun hlength ↦ hlength.trans ?_
          rw [ordered_advance graph hready, List.length_cons]
          omega

end Invocation.Graph
