import PermissionGuard.Config.Basic
import PermissionGuard.Package.Standard
import PermissionGuard.Program.Builder
import PermissionGuard.Ssa.CallEdges
import Std.Data.HashMap

/-!
From functions to the methods that the analyses work on. Every function is a method, and its
statements are its instructions, block after block. Panics take the place of exceptions: a function
whose entry block defers one that recovers has a handler from there to its end.
-/

namespace PermissionGuard.Ssa

/-- The type that all failures of a program belong to. -/
def panicType : Text := "panic"

/-- Whether a function is no application code: it has no package, its package is a standard one or
does not match the package filter, or its file is excluded. -/
def isLibrary (config : Config) (exclude : List Text) (f : Function) : Bool :=
  match f.package with
  | none => true
  | some path =>
      Package.isStandard path || !config.matchesPackage path ||
        match f.position with
        | none => false
        | some position => exclude.any fun excluded => Path.covers excluded position.file

namespace Function

/-- For every block the position of its first instruction. -/
def blockStarts (f : Function) : List Nat :=
  (f.blocks.foldl (fun (starts, next) block => (starts ++ [next], next + block.instrs.length))
    (([] : List Nat), 0)).1

/-- The statements of a block. Only the last leads somewhere else than to the next. -/
def blockStatements (p : Program) (starts : List Nat) (block : Block) : List StatementSpec :=
  block.instrs.zipIdx.map fun (instr, i) => {
    target := match instr with
      | .invoke _ callee _ _ => some (p.calleeSignature callee)
      | _ => none
    succs :=
      if i + 1 = block.instrs.length then
        some (block.succs.map fun succ => Int.ofNat (starts.getD succ 0))
      else none
    line := instr.line }

/-- The statements of a function. -/
def statements (p : Program) (f : Function) : List StatementSpec :=
  f.blocks.flatMap (blockStatements p f.blockStarts)

/-- The position of the first deferred call in the entry block to a function that recovers. -/
def recoveryStart? (p : Program) (f : Function) : Option Nat :=
  match f.blocks with
  | [] => none
  | entry :: _ =>
      entry.instrs.findIdx? fun
        | .invoke .defer callee _ _ => (callee.static?.bind p.function?).any recovers
        | _ => false

end Function

namespace Lowering

/-- The methods of functions. -/
abbrev MethodTable := Std.HashMap FunctionId MethodId

/-- Adds the statements of a method and its handler. -/
def addBody (p : Program) (b : Builder) (m : MethodId) (f : Function) : Builder :=
  let b := (f.statements p).foldl (fun b spec => (b.addStatement m spec).1) b
  match f.recoveryStart? p with
  | some start => b.addTrap m ⟨start, f.instrs.length, panicType⟩
  | none => b

/-- What is logged about a function. -/
def recoveryEntry? (p : Program) (f : Function) : Option LogEntry :=
  (f.recoveryStart? p).map fun start =>
    ⟨.trace, f.fullName ++ " recovers from panics after instruction " ++ Text.ofNat start⟩

/-- Adds the call edge of a call between methods, if its callee has a body. -/
def addEdge (p : Program) (table : MethodTable) (b : Builder) (edge : CallEdge) : Builder :=
  let found : Option Builder := do
    let caller ← b.program.method? (← table[edge.caller]?)
    let s ← caller.body[← edge.site]?
    let callee ← edge.callee
    let m ← table[callee]?
    if (← p.function? callee).hasBody then some (b.addEdge s m) else none
  found.getD b

/-- The builder of the methods that functions become, and the numbers of the methods. -/
def addMethods (config : Config) (exclude : List Text)
    (functions : List (FunctionId × Function)) (b : Builder) : Builder × MethodTable :=
  functions.foldl
    (fun (b, table) (id, f) =>
      let (b, m) := b.addMethod f.signature f.hasBody (isLibrary config exclude f)
      (b, table.insert id m))
    (b, ∅)

/-- Why a program could not be lowered. -/
structure Error where
  causes : List BuildError
  deriving DecidableEq, Repr

def Error.message (e : Error) : Text := "invalid program model: " ++ BuildError.messages e.causes

/-- The methods of a program whose functions have the numbers of a list, with what is logged on the
way. The search finds the dominators in their bodies. -/
def lowerWith (finder : DominatorFinder) (p : Program) (ids : List FunctionId)
    (edges : List CallEdge) (config : Config) (exclude : List Text) :
    Except Error Arena × List LogEntry :=
  let functions := p.sortedFunctions ids
  let b := if config.failureType = panicType then Builder.empty
    else Builder.empty.addSubtype config.failureType panicType
  let (b, table) := addMethods config exclude functions b
  let b := functions.foldl (fun b (id, f) => addBody p b (table.getD id 0) f) b
  let b := edges.foldl (addEdge p table) b
  let b := p.mainRoots.foldl (fun b f => b.addEntryPoint (table.getD f 0)) b
  let log := functions.filterMap fun (_, f) => recoveryEntry? p f
  match (b.buildWith finder).2 with
  | .error causes => (.error ⟨causes⟩, log)
  | .ok arena =>
      let summary : Text := "program model: " ++ Text.ofNat arena.methods.size ++ " methods, "
        ++ Text.ofNat arena.stmts.size ++ " statements, "
        ++ Text.ofNat arena.reachableMethods.length ++ " reachable methods"
      (.ok arena, log ++ [⟨.debug, summary⟩])

def lower (p : Program) (edges : List CallEdge) (config : Config) (exclude : List Text) :
    Except Error Arena × List LogEntry :=
  lowerWith FlowGraph.avoidanceTree p p.allFunctions edges config exclude

end Lowering

end PermissionGuard.Ssa
