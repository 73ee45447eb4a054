import PermissionGuard.Search
import PermissionGuard.Signature.Basic
import PermissionGuard.Ssa.Type

/-!
Programs in static single assignment form, as far as calls and control flow need them: packages of
functions, functions of blocks, and blocks of instructions.
-/

namespace PermissionGuard.Ssa

/-- Functions are numbered in the order of their declarations. -/
abbrev FunctionId := Nat

/-- What a call calls. -/
inductive Callee where
  | function (f : FunctionId)
  /-- A closure that was made before, and the function it was made from. -/
  | closure (f : FunctionId)
  | builtin (name : Text) (sig : Sig)
  /-- A method of an interface value. -/
  | method (interfaceType : Ty) (name : Text) (sig : Sig)
  /-- A function value in a register. -/
  | value (register : Nat) (sig : Sig)
  deriving Repr, Inhabited

inductive CallKind where
  | call
  | go
  | defer
  deriving DecidableEq, Repr

/-- An instruction with its source line, or 0 if that is unknown. -/
inductive Instr where
  | invoke (kind : CallKind) (callee : Callee) (args : List FunctionId) (line : Nat)
  /-- Any instruction but a call, and the functions it mentions. -/
  | other (mentions : List FunctionId) (line : Nat)
  deriving Repr, Inhabited

structure Block where
  instrs : List Instr
  /-- The numbers of the blocks that may come next. -/
  succs : List Nat
  deriving Repr, Inhabited

structure Position where
  file : Text
  line : Nat
  deriving DecidableEq, Repr

structure Function where
  name : Text
  sig : Sig := {}
  receiver : Option Ty := none
  /-- The path of the package that the function belongs to. -/
  package : Option Text := none
  /-- The path of the package that declares the object of the function. -/
  objectPackage : Option Text := none
  position : Option Position := none
  blocks : List Block := []
  deriving Repr, Inhabited

structure Package where
  path : Text
  name : Text
  /-- The functions of the package that are no methods. -/
  members : List FunctionId
  deriving Repr, Inhabited

structure Program where
  functions : Array Function
  packages : List Package
  deriving Repr, Inhabited

namespace Callee

/-- The function that a call is known to call. -/
def static? : Callee → Option FunctionId
  | .function f => some f
  | .closure f => some f
  | _ => none

def isRecover : Callee → Bool
  | .builtin name _ => name == "recover"
  | _ => false

end Callee

namespace Instr

def line : Instr → Nat
  | .invoke _ _ _ line => line
  | .other _ line => line

/-- The functions that an instruction mentions itself. -/
def operands : Instr → List FunctionId
  | .invoke _ (.function f) args _ => f :: args
  | .invoke _ _ args _ => args
  | .other mentions _ => mentions

/-- The function that an instruction is known to call. -/
def static? : Instr → Option FunctionId
  | .invoke _ callee _ _ => callee.static?
  | _ => none

end Instr

namespace Function

/-- All instructions, block after block. -/
def instrs (f : Function) : List Instr := f.blocks.flatMap Block.instrs

def hasBody (f : Function) : Bool := !f.blocks.isEmpty

/-- The name with the receiver or the package in front. -/
def fullName (f : Function) : Text :=
  match f.receiver, f.package with
  | some type, _ => "(" ++ type.print ++ ")." ++ f.name
  | none, some path => path ++ "." ++ f.name
  | none, none => f.name

/-- The class that stands for the receiver or the package. -/
def className (f : Function) : Text :=
  match f.receiver with
  | some type => type.print
  | none => (f.package.or f.objectPackage).getD "?"

def signature (f : Function) : Signature where
  className := f.className
  name := f.name
  returnType := f.sig.returnType
  params := f.sig.paramTypes

/-- Whether a function stops a panic when it is deferred. -/
def recovers (f : Function) : Bool :=
  f.instrs.any fun
    | .invoke .call callee _ _ => callee.isRecover
    | _ => false

end Function

namespace Program

def function? (p : Program) (f : FunctionId) : Option Function := p.functions[f]?

def instrsOf (p : Program) (f : FunctionId) : List Instr :=
  ((p.function? f).map Function.instrs).getD []

/-- The signature that a call is made with. -/
def calleeSignature (p : Program) : Callee → Signature
  | .function f => ((p.function? f).map Function.signature).getD Signature.empty
  | .closure f => ((p.function? f).map Function.signature).getD Signature.empty
  | .builtin name sig => ⟨"builtin", name, sig.returnType, sig.paramTypes⟩
  | .method type name sig => ⟨type.print, name, sig.returnType, sig.paramTypes⟩
  | .value register sig => ⟨"func", "t" ++ Text.ofNat register, sig.returnType, sig.paramTypes⟩

/-- The number of all operands together. -/
def operandCount (p : Program) : Nat :=
  totalLength (p.functions.toList.map fun f => f.instrs.flatMap Instr.operands)

/-- The functions of the packages, and all that instructions of such functions mention. These are
all that a program has if it calls no method through an interface. -/
def allFunctions (p : Program) : List FunctionId :=
  (reach (fun f => (p.instrsOf f).flatMap Instr.operands) p.operandCount
    (p.packages.flatMap Package.members)).toList

/-- The files of the program in the order of the first function in them. -/
def files (p : Program) : List Text :=
  (p.functions.toList.filterMap Function.position).map (·.file) |>.eraseDups

/-- Where a function is declared, for comparison; a function without a position comes first. -/
def place (p : Program) (f : Function) : Nat × Nat :=
  match f.position with
  | none => (0, 0)
  | some position => (p.files.idxOf position.file + 1, position.line)

/-- Whether a function does not come after another: by name, and then by place. -/
def orderLe (a b : Text × Nat × Nat) : Bool :=
  if a.1 ≠ b.1 then a.1.le b.1
  else if a.2.1 ≠ b.2.1 then a.2.1 < b.2.1
  else a.2.2 ≤ b.2.2

/-- The functions with the numbers of a list in the order of their names. -/
def sortedFunctions (p : Program) (ids : List FunctionId) : List (FunctionId × Function) :=
  let keyed := ids.filterMap fun id =>
    (p.function? id).map fun f => ((f.fullName, p.place f), id, f)
  (keyed.mergeSort fun a b => orderLe a.1 b.1).map Prod.snd

/-- A function of a package. -/
def member? (p : Program) (package : Package) (name : Text) : Option FunctionId :=
  package.members.find? fun id => (p.function? id).any (·.name == name)

/-- The functions that a run starts with: those named `init` and `main` in every package that is
named `main` and has a `main` function. -/
def mainRoots (p : Program) : List FunctionId :=
  let mains := p.packages.filter fun package =>
    package.name == Text.ofString "main" && (p.member? package "main").isSome
  mains.flatMap fun package =>
    (p.member? package "init").toList ++ (p.member? package "main").toList

end Program

end PermissionGuard.Ssa
