import PermissionGuard.Search

/-!
Dominance in a control flow graph whose nodes are the positions of a method body, with position 0
as the entry. Position `d` dominates a reachable position `i` when `i` cannot be reached without
passing `d`. The dominators of a position are found by climbing from it to the entry, each time to
the closest dominator of all.
-/

namespace PermissionGuard

/-- A control flow graph: the successors of every position of a body. -/
structure FlowGraph where
  succs : Array (List Nat)

namespace FlowGraph

def size (g : FlowGraph) : Nat := g.succs.size

def next (g : FlowGraph) (i : Nat) : List Nat := g.succs.getD i []

def edgeCount (g : FlowGraph) : Nat := totalLength g.succs.toList

/-- The graph with every edge once and without those from a position to itself, which make no
difference to dominance. -/
def simple (g : FlowGraph) : FlowGraph where
  succs := g.succs.mapIdx fun i targets => (targets.filter (· != i)).eraseDups

end FlowGraph

/-- The immediate dominator of every position that has one. -/
structure DominatorTree where
  parents : Array (Option Nat)

namespace DominatorTree

def parent? (tree : DominatorTree) (i : Nat) : Option Nat := tree.parents.getD i none

/-- The positions from one up to the root. The budget bounds their number. -/
def climb (tree : DominatorTree) : Nat → Nat → List Nat
  | 0, _ => []
  | budget + 1, i =>
      match tree.parent? i with
      | none => [i]
      | some d => i :: tree.climb budget d

/-- The positions from the entry down to one of a graph with `size` positions, or nothing for a
position that the entry does not reach. -/
def lineage? (tree : DominatorTree) (size i : Nat) : Option (List Nat) :=
  if i = 0 then some [0]
  else (tree.parent? i).map fun d => (i :: tree.climb size d).reverse

end DominatorTree

/-- A search for the immediate dominators of a graph. -/
abbrev DominatorFinder := FlowGraph → DominatorTree

namespace FlowGraph

/-- The positions that the entry reaches, in the order of a breadth-first search. -/
def reachable (g : FlowGraph) : Visited Nat := reach g.next g.edgeCount [0]

/-- The positions that the entry reaches on a way that does not touch `d`. -/
def reachableAvoiding (g : FlowGraph) (d : Nat) : Visited Nat :=
  reach (fun i => (g.next i).filter (· != d)) g.edgeCount (if d = 0 then [] else [0])

/-- Finds immediate dominators by searches that avoid one position each. A breadth-first search
finds a dominator before what it dominates, so the closest one is found last. -/
def avoidanceTree : DominatorFinder := fun g =>
  let order := g.reachable
  let avoiding := order.toList.map fun d => (d, g.reachableAvoiding d)
  { parents := (Array.range g.size).map fun i =>
      if order.contains i then
        (avoiding.filterMap fun (d, found) =>
          if d == i || found.contains i then none else some d).getLast?
      else none }

end FlowGraph

end PermissionGuard
