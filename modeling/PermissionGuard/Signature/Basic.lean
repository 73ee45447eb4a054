import PermissionGuard.Text.Basic

/-!
Method signatures and their canonical written form.
-/

namespace PermissionGuard

/-- A method is identified by its declaring class, its name, its return type and the types of its
parameters. -/
structure Signature where
  className : Text
  name : Text
  returnType : Text
  params : List Text
  deriving DecidableEq, Repr, Inhabited

namespace Signature

/-- The canonical form `<Class: ReturnType Name(p1,p2)>`. -/
def key (sig : Signature) : Text :=
  "<" ++ sig.className ++ ": " ++ sig.returnType ++ " " ++ sig.name
    ++ "(" ++ Text.join "," sig.params ++ ")>"

/-- The signature with four empty components. -/
def empty : Signature := ⟨[], [], [], []⟩

def isEmpty (sig : Signature) : Bool :=
  sig.className.isEmpty && sig.name.isEmpty && sig.returnType.isEmpty && sig.params.isEmpty

end Signature

end PermissionGuard
