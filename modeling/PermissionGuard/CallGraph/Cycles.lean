import PermissionGuard.CallGraph.Basic
import PermissionGuard.Graph.Components

/-!
Recursion in a call graph: the components that contain a cycle, and the elementary cycles
themselves.
-/

namespace PermissionGuard.CallGraph

/-- The strongly connected components of a graph. -/
def components (g : CallGraph) : List (List Int) := Graph.components g.succs g.edgeBound g.keys

/-- Whether a component contains a cycle: a single node only does with an edge to itself. -/
def isCyclic (g : CallGraph) : List Int → Bool
  | [v] => g.hasEdge v v
  | _ => true

/-- The components with a cycle, callees first, their methods in increasing order. -/
def recursiveComponents (g : CallGraph) : List (List Int) :=
  (g.components.filter g.isCyclic).map sortedIds

/-! ### The least component

The search for cycles takes the components from a search of its own, which sees of a graph only its
order and the visits of its nodes. So it is also given numbers that are no nodes of a part of a
graph, each of which is a component without edges. -/

/-- A search for the strongly connected components of the nodes of a graph. -/
abbrev ComponentFinder := GraphView → List (List Int)

/-- Finds components by a depth-first search. -/
def depthFirst : ComponentFinder := fun view =>
  Graph.components view.next (totalLength (view.nodes.map view.next)) view.nodes

/-- The better one of the best component so far and a component that was found: one with nodes of
the graph, with a cycle, and with the least node. -/
def better (g : CallGraph) (best : Option (List Int)) (found : List Int) : Option (List Int) :=
  match found with
  | [] => best
  | first :: _ =>
      if (g.node? first).isNone || !g.isCyclic found then best
      else
        let nodes := found.mergeSort fun a b => decide (a ≤ b)
        match best with
        | none => some nodes
        | some least => if nodes.headD 0 < least.headD 0 then some nodes else some least

/-- The component with a cycle that has the least node, in increasing order. -/
def leastComponent? (finder : ComponentFinder) (g : CallGraph) : Option (List Int) :=
  (finder g.view).foldl g.better none

/-! ### Elementary cycles

The cycles through a node are found by extending a path from it. A node is blocked while it is on
the path, and it stays blocked when it was left without a way back to the start, until one of its
successors is released. -/

structure CycleSearch where
  blocked : Std.HashSet Int := ∅
  /-- The nodes to release with a blocked node. -/
  waiting : Std.HashMap Int (List Int) := ∅
  /-- The cycles found, newest first. -/
  cycles : List (List Int) := []

namespace CycleSearch

def waitingFor (search : CycleSearch) (v : Int) : List Int := search.waiting.getD v []

def block (search : CycleSearch) (v : Int) : CycleSearch :=
  { search with blocked := search.blocked.insert v }

/-- Makes a node wait for the nodes of a list. -/
def await (search : CycleSearch) (v : Int) (ws : List Int) : CycleSearch :=
  let add (waiting : Std.HashMap Int (List Int)) (w : Int) :=
    waiting.insert w ((waiting.getD w []).insert v)
  { search with waiting := ws.foldl add search.waiting }

def unblock (search : CycleSearch) (v : Int) : CycleSearch :=
  { search with
    blocked := search.blocked.erase v
    waiting := search.waiting.erase v }

theorem unblock_size_lt {search : CycleSearch} {v : Int} (blocked : v ∈ search.blocked) :
    (search.unblock v).blocked.size < search.blocked.size := by
  have positive := List.length_pos_of_mem (Std.HashSet.mem_toList.mpr blocked)
  rw [Std.HashSet.length_toList] at positive
  rw [unblock, Std.HashSet.size_erase, if_pos blocked]
  exact Nat.sub_lt positive Nat.one_pos

/-- Releases the blocked nodes of a list, and with each the blocked nodes that wait for it. -/
def release (pending : List Int) (search : CycleSearch) : CycleSearch :=
  match pending with
  | [] => search
  | v :: pending =>
      if v ∈ search.blocked then release (search.waitingFor v ++ pending) (search.unblock v)
      else release pending search
termination_by (search.blocked.size, pending.length)
decreasing_by
  · exact Prod.Lex.left _ _ (unblock_size_lt ‹_›)
  · exact Prod.Lex.right _ (Nat.lt_succ_self _)

def record (search : CycleSearch) (cycle : List Int) : CycleSearch :=
  { search with cycles := cycle :: search.cycles }

end CycleSearch

/-- Goes on from the end of a path, which is kept in reverse, to `w`, and tells whether a cycle was
found so far. -/
def extend (start : Int) (path : List Int) (circuit : CycleSearch → Int → Bool × CycleSearch)
    (state : Bool × CycleSearch) (w : Int) : Bool × CycleSearch :=
  if w = start then (true, state.2.record (start :: path).reverse)
  else if w ∈ state.2.blocked then state
  else
    let below := circuit state.2 w
    (state.1 || below.1, below.2)

/-- Finds the cycles that go on from a path to `v`, past nodes that are not blocked. The budget
bounds the length of the path. -/
def circuit (g : CallGraph) (start : Int) : Nat → List Int → CycleSearch → Int → Bool × CycleSearch
  | 0, _, search, _ => (false, search)
  | budget + 1, path, search, v =>
      let below := (g.succs v).foldl (extend start (v :: path) (circuit g start budget (v :: path)))
        (false, search.block v)
      (below.1, if below.1 then below.2.release [v] else below.2.await v (g.succs v))

/-- The cycles through a node in lexicographic order. -/
def cyclesThrough (g : CallGraph) (budget : Nat) (start : Int) : List (List Int) :=
  (circuit g start budget [] {} start).2.cycles.reverse

/-- The cycles whose nodes are among the last of a graph. Those through the least node on a cycle
are in its component. -/
def cyclesAmong (finder : ComponentFinder) (g : CallGraph) (budget : Nat) :
    List Int → List (List Int)
  | [] => []
  | key :: later =>
      let part := g.subgraph (key :: later)
      match leastComponent? finder part with
      | some (start :: others) =>
          (part.subgraph (start :: others)).cyclesThrough budget start ++
            cyclesAmong finder g budget (later.dropWhile (· ≤ start))
      | _ => []
termination_by keys => keys.length
decreasing_by
  simp only [List.length_cons]
  exact Nat.lt_succ_of_le (List.dropWhile_sublist _).length_le

/-- All elementary cycles in lexicographic order. Each starts and ends with its least node. -/
def elementaryCyclesBy (finder : ComponentFinder) (g : CallGraph) : List (List Int) :=
  cyclesAmong finder g g.keys.length g.keys

def elementaryCycles (g : CallGraph) : List (List Int) := elementaryCyclesBy depthFirst g

end PermissionGuard.CallGraph
