import Invocation.Proofs.Text.ByteOrder
import Invocation.Proofs.Workflow.Progress
import Mathlib.Data.Fintype.Card
import Mathlib.Data.List.Lex
import Mathlib.Data.Set.Finite.List
import Mathlib.Logic.Relation
import Mathlib.Order.WellFounded

/-!
# The least order of a graph

An order of a graph has each node once and every source before its consumers.  Letting the least ready
node go first gives the least of all orders, and fails only on a graph with a cycle: when no node is ready,
each node that is left has a source that is left.
-/

namespace Invocation

/-- A relation on a finite list in which everything has a predecessor has a cycle. -/
theorem exists_transGen_self {α : Type} {r : α → α → Prop} {xs : List α} (hne : xs ≠ [])
    (h : ∀ x ∈ xs, ∃ y ∈ xs, r y x) : ∃ x, Relation.TransGen r x x := by
  by_contra hacyclic
  let before : {x // x ∈ xs} → {x // x ∈ xs} → Prop := fun x y ↦ Relation.TransGen r x.1 y.1
  have : IsTrans _ before := ⟨fun _ _ _ hxy hyz ↦ hxy.trans hyz⟩
  have : Std.Irrefl before := ⟨fun x hx ↦ hacyclic ⟨x.1, hx⟩⟩
  have : Finite {x // x ∈ xs} := (List.finite_toSet xs).to_subtype
  have hwf : WellFounded before := Finite.wellFounded_of_trans_of_irrefl before
  obtain ⟨x, hx⟩ := List.exists_mem_of_ne_nil xs hne
  -- a least element has no predecessor
  obtain ⟨least, _, hleast⟩ := hwf.has_min Set.univ ⟨⟨x, hx⟩, trivial⟩
  obtain ⟨y, hy, hjoins⟩ := h least.1 least.2
  exact hleast ⟨y, hy⟩ trivial (.single hjoins)

namespace Graph

/-- Each name stands in the order once, and the source of every edge before its target. -/
structure Orders (named : String → Prop) (joins : String → String → Prop) (order : List String) :
    Prop where
  nodup : order.Nodup
  mem_iff {id : String} : id ∈ order ↔ named id
  before {source target : String} : joins source target → order.idxOf source < order.idxOf target

/-- The order of lists of names by the UTF-8 bytes of the names. -/
def BytesBefore : List String → List String → Prop :=
  List.Lex fun first second ↦ List.Lex (· < ·) (Text.bytes first) (Text.bytes second)

variable {graph : Graph}

/-- An order leads along every path. -/
theorem Orders.before_of_transGen {named : String → Prop} {joins : String → String → Prop}
    {order : List String} (h : Orders named joins order) {source target : String}
    (hpath : Relation.TransGen joins source target) : order.idxOf source < order.idxOf target := by
  induction hpath with
  | single hjoins => exact h.before hjoins
  | tail _ hjoins ih => exact ih.trans (h.before hjoins)

/-! ## Legal progress and orders -/

/-- Nodes that have gone legally stand behind their sources. -/
theorem Legal.idxOf_lt {ordered : List String} (h : graph.Legal ordered) {source target : String}
    (hjoins : graph.Joins source target) (hmem : target ∈ ordered) :
    ordered.reverse.idxOf source < ordered.reverse.idxOf target := by
  obtain ⟨front, back, rfl⟩ := List.append_of_mem hmem
  have hsource : source ∈ back.reverse := List.mem_reverse.2 (h.mem_of_joins hjoins)
  have htarget : target ∉ back.reverse := fun hback ↦ by
    have hnodup := h.of_append.nodup
    exact (List.nodup_cons.1 hnodup).1 (List.mem_reverse.1 hback)
  have hreverse : (front ++ target :: back).reverse =
      back.reverse ++ target :: front.reverse := by simp
  rw [hreverse, List.idxOf_append_of_mem hsource, List.idxOf_append_of_notMem htarget]
  exact Nat.lt_add_right _ (List.idxOf_lt_length_of_mem hsource)

/-- When all nodes have gone legally they are in an order. -/
theorem Legal.orders (hgraph : graph.WellFormed) {ordered : List String} (h : graph.Legal ordered)
    (hall : ∀ id ∈ graph.nodes, id ∈ ordered) :
    Orders (· ∈ graph.nodes) graph.Joins ordered.reverse where
  nodup := List.nodup_reverse.2 h.nodup
  mem_iff {id} := List.mem_reverse.trans ⟨h.isNode id, hall id⟩
  before hjoins := h.idxOf_lt hjoins (hall _ (hgraph.ends hjoins).2)

/-- The nodes of an order can go one by one. -/
theorem Orders.legal {order : List String}
    (h : Orders (· ∈ graph.nodes) graph.Joins order) : graph.Legal order.reverse := by
  have hfront : ∀ front back : List String, order = front ++ back → graph.Legal front.reverse := by
    intro front
    induction front using List.reverseRecOn with
    | nil => exact fun _ _ ↦ .nil
    | append_singleton front id ih =>
        intro back heq
        have hsplit : order = front ++ id :: back := by simpa using heq
        have hlegal := ih (id :: back) hsplit
        have hid : id ∉ front := by
          have hnodup := h.nodup
          rw [hsplit] at hnodup
          exact fun hmem ↦ (List.nodup_append.1 hnodup).2.2 id hmem id List.mem_cons_self rfl
        rw [List.reverse_append]
        refine .cons ⟨h.mem_iff.1 ?_, fun hmem ↦ hid (List.mem_reverse.1 hmem),
          fun {source} hjoins ↦ List.mem_reverse.2 ?_⟩ hlegal
        · rw [hsplit]
          exact List.mem_append_right _ List.mem_cons_self
        · -- a source that is not in front of the node would have a larger index
          by_contra hsource
          have hbefore := h.before hjoins
          rw [hsplit, List.idxOf_append_of_notMem hid, List.idxOf_cons_self,
            List.idxOf_append_of_notMem hsource] at hbefore
          omega
  exact hfront order [] (List.append_nil order).symm

/-! ## The least order -/

/-- What goes in the next rounds is not greater than anything else that can go. -/
theorem Progress.Sound.least (hgraph : graph.WellFormed) {progress : Progress}
    (h : progress.Sound graph) {others : List String}
    (hothers : graph.Legal (others.reverse ++ progress.ordered)) :
    ∃ front : List String,
      (graph.advanceTimes others.length progress).ordered = front.reverse ++ progress.ordered ∧
        (front = others ∨ List.Lex (· < ·) front others) := by
  induction others generalizing progress with
  | nil => exact ⟨[], rfl, .inl rfl⟩
  | cons id others ih =>
      rw [List.reverse_cons, List.append_assoc, List.singleton_append] at hothers
      have hid : id ∈ progress.ready := by
        cases hothers.of_append with
        | cons hready _ => exact h.mem_ready.2 hready
      cases hready : progress.ready with
      | nil =>
          rw [hready] at hid
          cases hid
      | cons first rest =>
          have hordered := ordered_advance graph hready
          rw [hready] at hid
          rcases List.mem_cons.1 hid with rfl | hrest
          · rw [← hordered] at hothers
            obtain ⟨front, hfront, hleast⟩ := ih (h.advance hgraph) hothers
            refine ⟨id :: front, ?_, ?_⟩
            · show (graph.advanceTimes others.length (graph.advance progress)).ordered = _
              rw [hfront, hordered]
              simp
            · exact hleast.imp (congrArg (id :: ·)) .cons
          · -- the first ready node is smaller, so what follows it does not matter
            obtain ⟨later, hlater⟩ :=
              suffix_ordered_advanceTimes graph others.length (graph.advance progress)
            refine ⟨first :: later.reverse, ?_, .inr (.rel ?_)⟩
            · show (graph.advanceTimes others.length (graph.advance progress)).ordered = _
              rw [← hlater, hordered]
              simp
            · exact (List.pairwise_cons.1 (hready ▸ h.ready)).1 id hrest

/-- When nothing is ready and there is no cycle, all nodes have gone. -/
theorem Progress.Sound.all_ordered (hgraph : graph.WellFormed) {progress : Progress}
    (h : progress.Sound graph) (hready : progress.ready = [])
    (hacyclic : ¬ ∃ id, Relation.TransGen graph.Joins id id) :
    ∀ id ∈ graph.nodes, id ∈ progress.ordered := by
  by_contra hleft
  push Not at hleft
  obtain ⟨id, hnode, hwaits⟩ := hleft
  let left := graph.nodes.filter fun id ↦ id ∉ progress.ordered
  have hmem {id : String} : id ∈ left ↔ id ∈ graph.nodes ∧ id ∉ progress.ordered := by
    simp [left]
  have hid : id ∈ left := hmem.2 ⟨hnode, hwaits⟩
  refine hacyclic (exists_transGen_self (List.ne_nil_of_mem hid) fun target htarget ↦ ?_)
  obtain ⟨htarget, htargetWaits⟩ := hmem.1 htarget
  -- a node all of whose sources have gone would be ready
  by_contra hsources
  have htargetReady : target ∈ progress.ready := by
    refine h.mem_ready.2 ⟨htarget, htargetWaits, fun {source} hjoins ↦ ?_⟩
    by_contra hsource
    exact hsources ⟨source, hmem.2 ⟨(hgraph.ends hjoins).1, hsource⟩, hjoins⟩
  rw [hready] at htargetReady
  cases htargetReady

/-- The order of a well-formed graph has every node once and every source before its consumers. -/
theorem orders_of_order?_eq_some (hgraph : graph.WellFormed) {order : List String}
    (h : graph.order? = some order) : Orders (· ∈ graph.nodes) graph.Joins order := by
  have hsound := (sound_start hgraph).advanceTimes hgraph graph.nodes.length
  unfold order? at h
  dsimp only at h
  split at h
  · next hlength =>
    cases h
    rw [List.length_reverse] at hlength
    have hsubperm := List.subperm_of_subset hsound.legal.nodup hsound.legal.isNode
    have hperm := hsubperm.perm_of_length_le hlength.ge
    exact hsound.legal.orders hgraph fun id hid ↦ hperm.mem_iff.2 hid
  · cases h

/-- A graph without cycles has an order. -/
theorem exists_order?_eq_some (hgraph : graph.WellFormed)
    (hacyclic : ¬ ∃ id, Relation.TransGen graph.Joins id id) :
    ∃ order, graph.order? = some order := by
  have hsound := (sound_start hgraph).advanceTimes hgraph graph.nodes.length
  have hlength : (graph.advanceTimes graph.nodes.length graph.start).ordered.length =
      graph.nodes.length := by
    rcases length_ordered_advanceTimes graph graph.nodes.length graph.start with hlength | hready
    · simpa [start] using hlength
    · have hall := hsound.all_ordered hgraph hready hacyclic
      refine le_antisymm ?_ ?_
      · exact (List.subperm_of_subset hsound.legal.nodup hsound.legal.isNode).length_le
      · exact (List.subperm_of_subset hgraph.nodup_nodes hall).length_le
  refine ⟨_, if_pos ?_⟩
  rw [List.length_reverse, hlength]

/-- A well-formed graph has no order exactly when it has a cycle. -/
theorem order?_eq_none_iff (hgraph : graph.WellFormed) :
    graph.order? = none ↔ ∃ id, Relation.TransGen graph.Joins id id := by
  constructor
  · intro hnone
    by_contra hacyclic
    obtain ⟨order, hsome⟩ := exists_order?_eq_some hgraph hacyclic
    rw [hnone] at hsome
    cases hsome
  · rintro ⟨id, hcycle⟩
    cases horder : graph.order? with
    | none => rfl
    | some order =>
        have hbefore := (orders_of_order?_eq_some hgraph horder).before_of_transGen hcycle
        exact absurd hbefore (lt_irrefl _)

/-- No order of a well-formed graph is less than the one that is found. -/
theorem order?_least (hgraph : graph.WellFormed) {order other : List String}
    (h : graph.order? = some order) (hother : Orders (· ∈ graph.nodes) graph.Joins other) :
    order = other ∨ List.Lex (· < ·) order other := by
  have hperm : other.Perm graph.nodes :=
    (List.perm_ext_iff_of_nodup hother.nodup hgraph.nodup_nodes).2 fun _ ↦ hother.mem_iff
  have hlegal : graph.Legal (other.reverse ++ graph.start.ordered) := by
    have hempty : graph.start.ordered = [] := rfl
    rw [hempty, List.append_nil]
    exact hother.legal
  obtain ⟨front, hfront, hleast⟩ := (sound_start hgraph).least hgraph hlegal
  have horder : order = front := by
    unfold order? at h
    rw [← hperm.length_eq, hfront] at h
    dsimp only at h
    split at h
    · cases h
      simp [start]
    · cases h
  rwa [horder]

/-- A graph that is built by any insertions has no order exactly when the inserted edges have a cycle.
Else the order that is found is the least of all lists that have each mentioned node once and the source
of each edge before its target, when names are compared by their UTF-8 bytes. -/
theorem order?_ofInsertions (insertions : List Insertion) :
    ((ofInsertions insertions).order? = none ↔
      ∃ id, Relation.TransGen (fun source target ↦ .edge source target ∈ insertions) id id) ∧
    ∀ order, (ofInsertions insertions).order? = some order →
      Orders (fun id ↦ ∃ insertion ∈ insertions, insertion.Mentions id)
        (fun source target ↦ .edge source target ∈ insertions) order ∧
      ∀ other, Orders (fun id ↦ ∃ insertion ∈ insertions, insertion.Mentions id)
        (fun source target ↦ .edge source target ∈ insertions) other →
        order = other ∨ BytesBefore order other := by
  have hgraph := wellFormed_ofInsertions insertions
  have hnodes : (fun id ↦ ∃ insertion ∈ insertions, insertion.Mentions id) =
      (· ∈ (ofInsertions insertions).nodes) :=
    funext fun _ ↦ propext mem_nodes_ofInsertions.symm
  have hjoins : (fun source target ↦ .edge source target ∈ insertions) =
      (ofInsertions insertions).Joins :=
    funext₂ fun _ _ ↦ propext joins_ofInsertions.symm
  rw [hnodes, hjoins]
  refine ⟨order?_eq_none_iff hgraph, fun order horder ↦
    ⟨orders_of_order?_eq_some hgraph horder, fun other hother ↦ ?_⟩⟩
  exact (order?_least hgraph horder hother).imp_right
    (List.Lex.imp (fun _ _ ↦ Text.bytes_lt_of_lt) order other)

/-- Two ways from one node to another, with an edge that is inserted twice. -/
def diamond : List Insertion :=
  [.edge "start" "plot", .edge "start" "check", .edge "plot" "zip", .edge "check" "zip",
   .edge "start" "plot", .node "start"]

/-- Of the two orders of the diamond the one with the lesser node first is found, and a loop leaves no
order. -/
theorem order?_ofInsertions_diamond :
    (Orders (fun id ↦ ∃ insertion ∈ diamond, insertion.Mentions id)
        (fun source target ↦ .edge source target ∈ diamond) ["start", "check", "plot", "zip"] ∧
      ∀ other, Orders (fun id ↦ ∃ insertion ∈ diamond, insertion.Mentions id)
        (fun source target ↦ .edge source target ∈ diamond) other →
        ["start", "check", "plot", "zip"] = other ∨
          BytesBefore ["start", "check", "plot", "zip"] other) ∧
    (ofInsertions (.edge "zip" "zip" :: diamond)).order? = none := by
  constructor
  · exact (order?_ofInsertions diamond).2 _ (by decide)
  · exact (order?_ofInsertions (.edge "zip" "zip" :: diamond)).1.2
      ⟨"zip", .single List.mem_cons_self⟩

end Graph

end Invocation
