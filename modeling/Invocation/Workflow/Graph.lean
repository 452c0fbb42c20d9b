/-!
# Dependency graphs

A graph has named nodes and edges from a source to its consumer.  `order?` is Kahn's algorithm with the
least ready node first: it puts every source before its consumers, or fails when the edges have a cycle.
`sort` also requires that the graph hangs together when the direction of the edges is ignored.
-/

namespace Invocation

/-- A list with a value at its place in a strictly increasing list. -/
def insertSorted {α : Type} [DecidableEq α] (precedes : α → α → Bool) (value : α) : List α → List α
  | [] => [value]
  | first :: rest =>
    if value = first then first :: rest
    else if precedes value first then value :: first :: rest
    else first :: insertSorted precedes value rest

/-- Nothing is lost, and only the value is new. -/
theorem mem_insertSorted {α : Type} [DecidableEq α] {precedes : α → α → Bool} {value x : α}
    {values : List α} : x ∈ insertSorted precedes value values ↔ x = value ∨ x ∈ values := by
  induction values with
  | nil => simp [insertSorted]
  | cons first rest ih =>
    simp only [insertSorted]
    split
    · next h => simp [h]
    · split <;> simp [ih, or_left_comm]

/-- A graph.  Nodes and edges are in increasing order without repetitions, and the ends of every edge are
nodes. -/
structure Graph where
  nodes : List String
  edges : List (String × String)
  deriving DecidableEq, Inhabited

namespace Graph

/-- The graph without nodes. -/
def empty : Graph := ⟨[], []⟩

/-- The order of names by their characters. -/
def nodePrecedes (first second : String) : Bool :=
  first < second

/-- The order of edges by their sources, then by their targets. -/
def edgePrecedes (first second : String × String) : Bool :=
  first.1 < second.1 || (first.1 == second.1 && first.2 < second.2)

/-- The graph with a node. -/
def addNode (id : String) (graph : Graph) : Graph :=
  { graph with nodes := insertSorted nodePrecedes id graph.nodes }

/-- The graph with an edge and its ends. -/
def addEdge (source target : String) (graph : Graph) : Graph :=
  let graph := (graph.addNode source).addNode target
  { graph with edges := insertSorted edgePrecedes (source, target) graph.edges }

/-- Only the node is new. -/
theorem mem_nodes_addNode {graph : Graph} {id x : String} :
    x ∈ (graph.addNode id).nodes ↔ x = id ∨ x ∈ graph.nodes :=
  mem_insertSorted

/-- Only the ends of the edge are new nodes. -/
theorem mem_nodes_addEdge {graph : Graph} {source target x : String} :
    x ∈ (graph.addEdge source target).nodes ↔ x = target ∨ x = source ∨ x ∈ graph.nodes := by
  simp [addEdge, mem_nodes_addNode]

/-- Only the edge is new. -/
theorem mem_edges_addEdge {graph : Graph} {source target : String} {edge : String × String} :
    edge ∈ (graph.addEdge source target).edges ↔ edge = (source, target) ∨ edge ∈ graph.edges :=
  mem_insertSorted

/-- The consumers of a node. -/
def targets (graph : Graph) (id : String) : List String :=
  (graph.edges.filter fun edge ↦ edge.1 == id).map Prod.snd

/-- The consumers of a node are the ends of its edges. -/
theorem mem_targets {graph : Graph} {source target : String} :
    target ∈ graph.targets source ↔ (source, target) ∈ graph.edges := by
  simp [targets]

/-- The number of edges that end in a node. -/
def inDegree (graph : Graph) (id : String) : Nat :=
  graph.edges.countP fun edge ↦ edge.2 == id

/-! ## Order -/

/-- How far an order has come: the open edges into every node, the nodes that can go next in increasing
order, and those that have gone, the latest first. -/
structure Progress where
  degrees : List (String × Nat)
  ready : List String
  ordered : List String
  deriving DecidableEq, Inhabited

/-- No node has gone. -/
def start (graph : Graph) : Progress :=
  let degrees := graph.nodes.map fun id ↦ (id, graph.inDegree id)
  ⟨degrees, (degrees.filter fun entry ↦ entry.2 == 0).map Prod.fst, []⟩

namespace Progress

/-- One edge into a node is no longer open; when none is left the node can go next. -/
def release (progress : Progress) (id : String) : Progress :=
  match progress.degrees.lookup id with
  | none => progress
  | some degree =>
    let degrees := progress.degrees.map fun entry ↦
      if entry.1 = id then (id, degree - 1) else entry
    { progress with
      degrees
      ready := if degree - 1 = 0 then insertSorted nodePrecedes id progress.ready else progress.ready }

end Progress

/-- Lets the least ready node go, if there is one. -/
def advance (graph : Graph) (progress : Progress) : Progress :=
  match progress.ready with
  | [] => progress
  | first :: rest =>
    (graph.targets first).foldl Progress.release
      { progress with ready := rest, ordered := first :: progress.ordered }

/-- The progress after a number of rounds. -/
def advanceTimes (graph : Graph) : Nat → Progress → Progress
  | 0, progress => progress
  | rounds + 1, progress => graph.advanceTimes rounds (graph.advance progress)

/-- The least order of the nodes that puts every source before its consumers, if there is one.  A round
lets one node go, so as many rounds as nodes are enough. -/
def order? (graph : Graph) : Option (List String) :=
  let ordered := (graph.advanceTimes graph.nodes.length graph.start).ordered.reverse
  if ordered.length = graph.nodes.length then some ordered else none

/-! ## Connection -/

/-- The nodes at the other ends of the edges of a node. -/
def neighbours (graph : Graph) (id : String) : List String :=
  graph.edges.filterMap fun edge ↦
    if edge.1 = id then some edge.2 else if edge.2 = id then some edge.1 else none

/-- The neighbours of reached nodes that are not reached. -/
def frontier (graph : Graph) (reached : List String) : List String :=
  ((reached.flatMap graph.neighbours).filter fun id ↦ !reached.contains id).eraseDups

/-- The nodes that are reached in a number of rounds; it ends early when nothing new is reached. -/
def reach (graph : Graph) : Nat → List String → List String
  | 0, reached => reached
  | rounds + 1, reached =>
    let fresh := graph.frontier reached
    if fresh.isEmpty then reached else graph.reach rounds (reached ++ fresh)

/-- Every node is reached from the first one along edges in either direction; so is a graph without
nodes. -/
def isConnected (graph : Graph) : Bool :=
  match graph.nodes with
  | [] => true
  | first :: _ => (graph.reach graph.nodes.length [first]).length == graph.nodes.length

/-- Why a graph cannot be sorted. -/
inductive Fault where
  | cyclic
  | disconnected
  deriving DecidableEq, Inhabited

namespace Fault

/-- The name of the fault. -/
def name : Fault → String
  | cyclic => "Cyclic"
  | disconnected => "Disconnected"

/-- The fault in words. -/
def message : Fault → String
  | cyclic => "Graph has cycles"
  | disconnected => "Graph is not connected"

end Fault

/-- The order of a connected graph without cycles. -/
def sort (graph : Graph) : Except Fault (List String) :=
  match graph.order? with
  | none => .error .cyclic
  | some order => if graph.isConnected then .ok order else .error .disconnected

end Graph

end Invocation
