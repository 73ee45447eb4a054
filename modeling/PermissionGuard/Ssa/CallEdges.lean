import PermissionGuard.Ssa.Basic
import PermissionGuard.Text.Quoted
import PermissionGuard.Text.Utf8

/-!
Call edges between functions, and the ways to compute them. On programs whose calls are all static,
a class hierarchy or variable type analysis finds what a static analysis finds, and a rapid type
analysis finds as much of it as can be reached.
-/

namespace PermissionGuard.Ssa

/-- A call from an instruction of a function. Edges without a site or a callee say nothing about
statements. -/
structure CallEdge where
  caller : FunctionId
  /-- The position of the call among the instructions of the caller. -/
  site : Option Nat
  callee : Option FunctionId
  deriving DecidableEq, Repr

inductive CallgraphMode where
  | static
  | classHierarchy
  | rapidType
  | variableType
  deriving DecidableEq, Repr

namespace CallgraphMode

def name : CallgraphMode → Text
  | .static => "static"
  | .classHierarchy => "cha"
  | .rapidType => "rta"
  | .variableType => "vta"

/-- The number of a mode. -/
def code : CallgraphMode → Nat
  | .static => 0
  | .classHierarchy => 1
  | .rapidType => 2
  | .variableType => 3

def all : List CallgraphMode := [.static, .classHierarchy, .rapidType, .variableType]

def ofCode? (n : Nat) : Option CallgraphMode := all.find? (·.code == n)

/-- The name that is shown for a number, whether or not it is a mode. -/
def nameOfCode (n : Nat) : Text := ((ofCode? n).map name).getD "unknown"

/-- Why there is no call graph. -/
inductive Error where
  | unsupportedName (name : Text)
  | unsupportedCode (code : Nat)
  | noMainPackage
  deriving DecidableEq, Repr

def Error.message : Error → Text
  | .unsupportedName name => "unsupported callgraph analysis " ++ name.quote
  | .unsupportedCode code => "unsupported callgraph analysis mode " ++ Text.ofNat code
  | .noMainPackage => "rapid type analysis needs a main package"

/-- A letter in lower case. Of the letters outside ASCII only the dotted capital I and the Kelvin
sign have a lower case within it. -/
def lower (c : Char) : Char :=
  if c.toNat = 0x130 then 'i' else if c.toNat = 0x212A then 'k' else c.toLower

/-- The mode of a name, in any case. -/
def ofName (name : Text) : Except Error CallgraphMode :=
  match all.find? fun mode => mode.name.chars == name.chars.map lower with
  | some mode => .ok mode
  | none => .error (.unsupportedName name)

end CallgraphMode

namespace Program

/-- The edges of the calls of a function that are known statically. -/
def staticEdgesOf (p : Program) (caller : FunctionId) : List CallEdge :=
  (p.instrsOf caller).zipIdx.filterMap fun (instr, site) =>
    instr.static?.map fun callee => ⟨caller, some site, some callee⟩

def staticEdges (p : Program) (callers : List FunctionId) : List CallEdge :=
  callers.flatMap p.staticEdgesOf

/-- The functions that static calls reach from the functions a run starts with. -/
def calledFromMain (p : Program) : List FunctionId :=
  let calls := fun f => (p.instrsOf f).filterMap Instr.static?
  let count := totalLength (p.functions.toList.map Function.instrs)
  (reach calls count p.mainRoots).toList

/-- The call edges that a mode finds. -/
def callEdges (p : Program) : CallgraphMode → Except CallgraphMode.Error (List CallEdge)
  | .rapidType =>
      if p.mainRoots.isEmpty then .error .noMainPackage else .ok (p.staticEdges p.calledFromMain)
  | _ => .ok (p.staticEdges p.allFunctions)

/-- The call edges that the mode with a number finds. -/
def callEdgesOfCode (p : Program) (code : Nat) : Except CallgraphMode.Error (List CallEdge) :=
  match CallgraphMode.ofCode? code with
  | some mode => p.callEdges mode
  | none => .error (.unsupportedCode code)

end Program

end PermissionGuard.Ssa
