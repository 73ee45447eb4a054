import PermissionGuard.CallGraph.Cycles
import PermissionGuard.Report.Style

/-!
The recursion of a program as a listing.
-/

namespace PermissionGuard.CallGraph

/-- The printed name of a method. -/
def methodLabel (a : Arena) (m : MethodId) : Text :=
  Text.sanitize (((a.method? m).map (·.sig.key)).getD [])

def memberLine (a : Arena) (m : MethodId) : Text := "  " ++ methodLabel a m ++ "\n"

def cycleLine (colours : Bool) (a : Arena) (cycle : List Int) : Text :=
  "  " ++ Report.Colour.faint.paint colours "cycle:"
    ++ cycle.flatMap (fun m => Text.ofString " " ++ methodLabel a m) ++ "\n"

/-- A component with its number, its methods and, if asked for, its cycles. -/
def componentListing (colours allCycles : Bool) (a : Arena) (g : CallGraph)
    (component : List Int) (index : Nat) : Text :=
  let cycles := if allCycles then (g.subgraph component).elementaryCycles else []
  Report.Colour.bold.paint colours ("component " ++ Text.ofNat index) ++ "\n"
    ++ component.flatMap (memberLine a) ++ cycles.flatMap (cycleLine colours a)

/-- The recursive components of a program, or of the part of it that can be reached, and a line
with their number. -/
def listing (colours reachableOnly allCycles : Bool) (a : Arena) : Text :=
  let whole := ofArena a
  let g := if reachableOnly then whole.subgraph a.reachableMethods else whole
  let components := g.recursiveComponents
  (components.zipIdx.flatMap fun (component, index) =>
      componentListing colours allCycles a g component index)
    ++ Report.plural components.length "recursive component" ++ "\n"

end PermissionGuard.CallGraph
