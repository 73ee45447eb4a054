import PermissionGuard.Program.Arena

/-!
The method call graph of a program, and its parts. Nodes are methods under their numbers, and there
is an edge where some invocation of one method calls another.
-/

namespace PermissionGuard

/-- A node as it is shown: the number of a method and its signature key. -/
structure GraphNode where
  id : Int
  name : Text
  deriving DecidableEq, Repr, Inhabited

/-- What stands for a node that is not in the graph it was taken from. -/
def GraphNode.blank : GraphNode := ⟨0, []⟩

/-- What a search sees of a graph about which it knows nothing else: its nodes are the numbers below
`order`, and `visit` goes through the successors of one of them. -/
structure GraphView where
  order : Nat
  /-- The successors met until they were enough, and whether they were. -/
  visit : Int → (List Int → Bool) → List Int × Bool

namespace GraphView

def nodes (view : GraphView) : List Int := (List.range view.order).map Int.ofNat

/-- The successors of a node, all of which are met when they are never enough. -/
def next (view : GraphView) (v : Int) : List Int := (view.visit v fun _ => false).1

end GraphView

structure CallGraph where
  /-- The number of methods of the whole program. -/
  order : Nat
  /-- The numbers of the nodes in increasing order. A part of a graph that names a node twice has
  it twice. -/
  keys : List Int
  node? : Int → Option GraphNode
  /-- The methods called by a method, in increasing order. -/
  succs : Int → List Int
  /-- A bound for the number of all edges together. -/
  edgeBound : Nat

namespace CallGraph

/-- The call graph of a whole program. -/
def ofArena (a : Arena) : CallGraph :=
  let table := a.methods.map fun m => sortedIds (a.calledFrom m.id)
  { order := a.methods.size
    keys := a.methodIds
    node? := fun id => (a.method? id).map fun m => ⟨id, m.sig.key⟩
    succs := fun id => (Program.entry? table id).getD []
    edgeBound := totalLength table.toList }

/-- The part of a graph with the nodes of a list and the edges between them. -/
def subgraph (g : CallGraph) (ids : List Int) : CallGraph :=
  let kept := Std.HashSet.ofList ids
  { order := g.order
    keys := ids.mergeSort fun a b => decide (a ≤ b)
    node? := fun id => if kept.contains id then some ((g.node? id).getD GraphNode.blank) else none
    succs := fun id => if kept.contains id then (g.succs id).filter kept.contains else []
    edgeBound := g.edgeBound }

def hasEdge (g : CallGraph) (x y : Int) : Bool := (g.succs x).contains y

/-- Whether there is an edge in one of the two directions. -/
def hasEdgeBetween (g : CallGraph) (x y : Int) : Bool := g.hasEdge x y || g.hasEdge y x

/-- The nodes with an edge to a node. -/
def preds (g : CallGraph) (y : Int) : List Int := g.keys.filter fun x => g.hasEdge x y

/-- The nodes with the numbers of a list. -/
def nodesOf (g : CallGraph) (ids : List Int) : List GraphNode :=
  ids.map fun id => (g.node? id).getD GraphNode.blank

/-- Goes through the successors of a node until `stop` says so of those seen so far, and tells
whether it did. -/
def visitUntil (stop : List Int → Bool) : List Int → List Int → List Int × Bool
  | seen, [] => (seen, false)
  | seen, w :: rest =>
      let seen := seen ++ [w]
      if stop seen then (seen, true) else visitUntil stop seen rest

/-- Visits the successors of a node in increasing order. What is no node has none to visit. -/
def visit (g : CallGraph) (v : Int) (stop : List Int → Bool) : List Int × Bool :=
  match g.node? v with
  | none => ([], false)
  | some _ => visitUntil stop [] (g.succs v)

/-- A graph as a search that knows nothing else about it sees it. -/
def view (g : CallGraph) : GraphView := ⟨g.order, g.visit⟩

end CallGraph

/-- A position in a list of nodes: before the first, or at one of them. -/
structure NodeCursor where
  nodes : List GraphNode
  /-- How many nodes were stepped onto. -/
  passed : Nat := 0
  deriving Repr, Inhabited

namespace NodeCursor

/-- Steps onto the next node. At the last node there is none, and the cursor stays. -/
def next (c : NodeCursor) : NodeCursor × Bool :=
  if c.passed < c.nodes.length then ({ c with passed := c.passed + 1 }, true) else (c, false)

/-- How many nodes are still to come. -/
def remaining (c : NodeCursor) : Nat := c.nodes.length - c.passed

def rewind (c : NodeCursor) : NodeCursor := { c with passed := 0 }

/-- The node that the cursor stands on. -/
def current? (c : NodeCursor) : Option GraphNode :=
  match c.passed with
  | 0 => none
  | position + 1 => c.nodes[position]?

end NodeCursor

end PermissionGuard
