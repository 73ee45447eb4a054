import PermissionGuard.Program.Builder
import PermissionGuard.Signature.Parser

/-!
A program as an exporter describes it: methods with the written signatures of what they call. Every
invocation gets a call edge to the described method of the same signature if that is concrete, and
one to each of its further targets.
-/

namespace PermissionGuard

structure StatementEntry where
  /-- The written signature of an invocation, empty for any other statement. -/
  invoke : Text := []
  targets : List Text := []
  succs : Option (List Int) := none
  line : Int := 0
  deriving DecidableEq, Repr, Inhabited

structure TrapEntry where
  first : Int := 0
  last : Int := 0
  caught : Text := []
  deriving DecidableEq, Repr, Inhabited

structure MethodEntry where
  signature : Text := []
  concrete : Bool := true
  library : Bool := false
  body : List StatementEntry := []
  traps : List TrapEntry := []
  deriving DecidableEq, Repr, Inhabited

structure Description where
  permissions : List Text := []
  entryPoints : List Text := []
  /-- The direct supertypes of types; no type is listed twice. -/
  hierarchy : List (Text × List Text) := []
  methods : List MethodEntry := []
  deriving DecidableEq, Repr, Inhabited

/-- Why a written signature names no method. -/
inductive LookupError where
  | unreadable (written : Text) (cause : Signature.ParseError)
  | unknown (sig : Signature)
  deriving DecidableEq, Repr

def LookupError.message : LookupError → Text
  | .unreadable written cause => cause.message written
  | .unknown sig => "unknown method " ++ sig.key

/-- Why a description is not a program. -/
inductive DescriptionError where
  | badMethod (index : Nat) (written : Text) (cause : Signature.ParseError)
  | abstractWithBody (sig : Signature)
  | badStatement (index : Nat) (method : Text) (cause : LookupError)
  | badEntryPoint (cause : LookupError)
  | invalid (errors : List BuildError)
  deriving DecidableEq, Repr

def DescriptionError.message : DescriptionError → Text
  | .badMethod index written cause => "method " ++ Text.ofNat index ++ ": " ++ cause.message written
  | .abstractWithBody sig => "non-concrete method " ++ sig.key ++ " has a body"
  | .badStatement index method cause =>
      "statement " ++ Text.ofNat index ++ " of " ++ method ++ ": " ++ cause.message
  | .badEntryPoint cause => "entry point: " ++ cause.message
  | .invalid errors => BuildError.messages errors

namespace Description

/-- The first method with a written signature. -/
def lookup (b : Builder) (written : Text) : Except LookupError MethodId :=
  match Signature.parse written with
  | .error cause => .error (.unreadable written cause)
  | .ok sig =>
      match b.program.methodByKey? sig.key with
      | some m => .ok m
      | none => .error (.unknown sig)

/-- Records the supertypes of every type, the types in increasing order. -/
def addHierarchy (hierarchy : List (Text × List Text)) (b : Builder) : Builder :=
  (hierarchy.mergeSort fun x y => x.1.le y.1).foldl
    (fun b (child, parents) => parents.foldl (fun b parent => b.addSubtype child parent) b) b

/-- Adds the method of an entry, still without its body. -/
def addMethod (b : Builder) (index : Nat) (entry : MethodEntry) :
    Except DescriptionError Builder :=
  match Signature.parse entry.signature with
  | .error cause => .error (.badMethod index entry.signature cause)
  | .ok sig =>
      if !entry.concrete && !entry.body.isEmpty then .error (.abstractWithBody sig)
      else .ok (b.addMethod sig entry.concrete entry.library).1

/-- The call edge of an invocation to the method it names, if that is concrete. -/
def addDirectEdge (b : Builder) (s : StmtId) (sig : Signature) : Builder :=
  match b.program.methodByKey? sig.key with
  | some callee =>
      if (b.program.method? callee).any Method.concrete then b.addEdge s callee else b
  | none => b

/-- Adds a statement of method `m` with its call edges. -/
def addStatement (m : MethodId) (method : Text) (b : Builder) (index : Nat)
    (entry : StatementEntry) : Except DescriptionError Builder := do
  let target ←
    if entry.invoke.isEmpty then .ok none
    else match Signature.parse entry.invoke with
      | .ok sig => .ok (some sig)
      | .error cause => .error (.badStatement index method (.unreadable entry.invoke cause))
  let (b, id) := b.addStatement m { target, succs := entry.succs, line := entry.line }
  let s := id.getD (-1)
  let b := match target with
    | some sig => addDirectEdge b s sig
    | none => b
  entry.targets.foldlM (fun b written =>
    match lookup b written with
    | .ok callee => .ok (b.addEdge s callee)
    | .error cause => .error (.badStatement index method cause)) b

/-- Adds the body and the exception ranges of method `m`. -/
def addBody (b : Builder) (m : Nat) (entry : MethodEntry) : Except DescriptionError Builder := do
  let b ← entry.body.zipIdx.foldlM
    (fun b (statement, index) => addStatement m entry.signature b index statement) b
  return entry.traps.foldl (fun b trap => b.addTrap m ⟨trap.first, trap.last, trap.caught⟩) b

def addEntryPoint (b : Builder) (written : Text) : Except DescriptionError Builder :=
  match lookup b written with
  | .ok m => .ok (b.addEntryPoint m)
  | .error cause => .error (.badEntryPoint cause)

/-- The program that a description describes. -/
def toArena (d : Description) : Except DescriptionError Arena := do
  let b := addHierarchy d.hierarchy (Builder.empty.setPermissions d.permissions)
  let b ← d.methods.zipIdx.foldlM (fun b (entry, index) => addMethod b index entry) b
  let b ← d.methods.zipIdx.foldlM (fun b (entry, index) => addBody b index entry) b
  let b ← d.entryPoints.foldlM addEntryPoint b
  match b.build.2 with
  | .ok arena => return arena
  | .error errors => throw (.invalid errors)

end Description

end PermissionGuard
