import Std.Data.HashMap
import Std.Data.HashSet

/-!
Strongly connected components. Two nodes belong together when each reaches the other. A depth-first
search numbers the nodes as it enters them and keeps them on a stack until their component is
complete: when a node is left from which the search came to nothing on the stack with a lower
number, the nodes from the top down to it are a component. So what a component leads to comes before
it, and the node found last stands first in its component.
-/

namespace PermissionGuard.Graph

variable {α : Type} [BEq α] [Hashable α]

/-- A depth-first search so far. -/
structure Walk (α : Type) [BEq α] [Hashable α] where
  /-- The nodes that were entered, numbered in that order. -/
  number : Std.HashMap α Nat := ∅
  /-- The nodes that were entered and have no component yet, newest first. -/
  stack : List α := []
  settled : Std.HashSet α := ∅
  /-- The complete components, newest first. -/
  components : List (List α) := []

namespace Walk

def enter (walk : Walk α) (v : α) : Walk α :=
  { walk with
    number := walk.number.insert v walk.number.size
    stack := v :: walk.stack }

/-- Takes the nodes from the top of the stack down to `v` off it, as a component. -/
def settle (walk : Walk α) (v : α) : Walk α :=
  let component := walk.stack.takeWhile (· != v) ++ [v]
  { walk with
    stack := walk.stack.drop component.length
    settled := walk.settled.insertMany component
    components := component :: walk.components }

/-- Leaves `v`, which was entered with a number, when the lowest number on the stack that was found
from it is known. -/
def leave (walk : Walk α) (v : α) (number lowest : Nat) : Walk α :=
  if lowest = number then walk.settle v else walk

end Walk

/-- Goes on to `w`, keeping the lowest number on the stack that was found so far. -/
def follow (visit : Walk α → α → Nat × Walk α) (state : Nat × Walk α) (w : α) : Nat × Walk α :=
  match state.2.number[w]? with
  | none =>
      let below := visit state.2 w
      (min state.1 below.1, below.2)
  | some number => if state.2.settled.contains w then state else (min state.1 number, state.2)

/-- Enters a node, follows its successors and leaves it. The budget bounds the number of nodes that
are entered and not left. -/
def visit (next : α → List α) : Nat → Walk α → α → Nat × Walk α
  | 0, walk, _ => (0, walk)
  | budget + 1, walk, v =>
      let below :=
        (next v).foldl (follow (visit next budget)) (walk.number.size, walk.enter v)
      (below.1, below.2.leave v walk.number.size below.1)

/-- A depth-first search from the nodes of a list. -/
def walkAll (next : α → List α) (edges : Nat) (nodes : List α) : Walk α :=
  (nodes.foldl (follow (visit next (nodes.length + edges + 1))) (0, {})).2

/-- The components of all that the nodes reach, when `edges` bounds the number of successors of all
of them together. -/
def components (next : α → List α) (edges : Nat) (nodes : List α) : List (List α) :=
  (walkAll next edges nodes).components.reverse

end PermissionGuard.Graph
