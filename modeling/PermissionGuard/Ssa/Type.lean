import PermissionGuard.Text.Basic

/-!
The types of functions and values, and how they are written in full.
-/

namespace PermissionGuard.Ssa

inductive Direction where
  | both
  | send
  | receive
  deriving DecidableEq, Repr

inductive Ty where
  /-- A predeclared type, or a declared type with the path of its package. -/
  | named (name : Text)
  | pointer (elem : Ty)
  | slice (elem : Ty)
  | array (length : Nat) (elem : Ty)
  | channel (direction : Direction) (elem : Ty)
  | map (key elem : Ty)
  /-- Parameters and results have names, which may be empty. The last parameter of a variadic
  function is a slice. -/
  | func (params results : List (Text × Ty)) (variadic : Bool)
  | struct (fields : List (Text × Ty))
  /-- The interface without methods. -/
  | emptyInterface
  deriving Repr, Inhabited

namespace Ty

def isReceiveOnly : Ty → Bool
  | .channel .receive _ => true
  | _ => false

/-- A name in front of a type, if there is one. -/
def labelled (name type : Text) : Text := if name.isEmpty then type else name ++ " " ++ type

mutual

/-- The written form of a type. -/
def print : Ty → Text
  | .named name => name
  | .pointer elem => "*" ++ elem.print
  | .slice elem => "[]" ++ elem.print
  | .array length elem => "[" ++ Text.ofNat length ++ "]" ++ elem.print
  | .channel .both elem =>
      if elem.isReceiveOnly then "chan (" ++ elem.print ++ ")" else "chan " ++ elem.print
  | .channel .send elem => "chan<- " ++ elem.print
  | .channel .receive elem => "<-chan " ++ elem.print
  | .map key elem => "map[" ++ key.print ++ "]" ++ elem.print
  | .func params results variadic =>
      "func(" ++ Text.join ", " (if variadic then printVariadic params else printEach params) ++ ")"
        ++ printResults results
  | .struct fields => "struct\x7b" ++ Text.join "; " (printEach fields) ++ "\x7d"
  | .emptyInterface => "interface\x7b\x7d"

/-- Names with their types. -/
def printEach : List (Text × Ty) → List Text
  | [] => []
  | (name, type) :: rest => labelled name type.print :: printEach rest

/-- Names with their types, where the last stands for any number of values. -/
def printVariadic : List (Text × Ty) → List Text
  | [] => []
  | [(name, .slice elem)] => [labelled name ("..." ++ elem.print)]
  | (name, type) :: rest => labelled name type.print :: printVariadic rest

/-- The results of a function type. A single result without a name stands alone. -/
def printResults : List (Text × Ty) → Text
  | [] => []
  | (name, type) :: rest =>
      let all := Text.join ", " (labelled name type.print :: printEach rest)
      if name.isEmpty && rest.isEmpty then " " ++ all else " (" ++ all ++ ")"

end

end Ty

/-- The parameters and results of a function. -/
structure Sig where
  params : List (Text × Ty) := []
  results : List (Text × Ty) := []
  deriving Repr, Inhabited

namespace Sig

/-- The type of the result, `void` without results and a tuple of several. -/
def returnType (sig : Sig) : Text :=
  match sig.results with
  | [] => "void"
  | [(_, type)] => type.print
  | results => "(" ++ Text.join ", " (Ty.printEach results) ++ ")"

def paramTypes (sig : Sig) : List Text := sig.params.map fun (_, type) => type.print

end Sig

end PermissionGuard.Ssa
