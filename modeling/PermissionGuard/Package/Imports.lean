import PermissionGuard.Search
import PermissionGuard.Text.Basic

/-!
Packages and what they import.
-/

namespace PermissionGuard

/-- For every package the packages that it imports. -/
structure ImportGraph where
  imports : List (Text × List Text)
  deriving Repr, Inhabited

namespace ImportGraph

def importsOf (g : ImportGraph) (package : Text) : List Text := (g.imports.lookup package).getD []

def edgeCount (g : ImportGraph) : Nat := totalLength (g.imports.map Prod.snd)

/-- The roots and all that is imported from them through packages that `follow` lets pass, each
once, in the order of their visits. -/
def visit (g : ImportGraph) (follow : Text → Bool) (roots : List Text) : List Text :=
  (reach (fun package => if follow package then g.importsOf package else []) g.edgeCount
    roots).toList

end ImportGraph

end PermissionGuard
