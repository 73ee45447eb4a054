import PermissionGuard.Search
import PermissionGuard.Text.Basic

/-!
The hierarchy of type names, as the recorded pairs of a type and one of its direct supertypes.
-/

namespace PermissionGuard

/-- The recorded edges from a type to a direct supertype. -/
structure Hierarchy where
  edges : List (Text × Text)
  deriving DecidableEq, Repr, Inhabited

namespace Hierarchy

def empty : Hierarchy := ⟨[]⟩

/-- Records a direct supertype. A type is not recorded as its own supertype. -/
def addSubtype (h : Hierarchy) (child parent : Text) : Hierarchy :=
  if child = parent then h else ⟨h.edges ++ [(child, parent)]⟩

/-- The direct supertypes of a type, in the order of their records. -/
def supertypes (h : Hierarchy) (type : Text) : List Text :=
  h.edges.filterMap fun (child, parent) => if child = type then some parent else none

/-- The direct supertypes of a type, sorted. -/
def parents (h : Hierarchy) (type : Text) : List Text := Text.sortedSet (h.supertypes type)

/-- The types with at least one supertype, sorted. -/
def types (h : Hierarchy) : List Text := Text.sortedSet (h.edges.map Prod.fst)

/-- A type is a subtype of itself and of everything above it. -/
def isSubtype (h : Hierarchy) (type super : Text) : Bool :=
  (reach h.supertypes h.edges.length [type]).contains super

end Hierarchy

/-- Without a hierarchy a type is a subtype of itself only. -/
def isSubtypeIn : Option Hierarchy → Text → Text → Bool
  | none, type, super => type == super
  | some h, type, super => h.isSubtype type super

end PermissionGuard
