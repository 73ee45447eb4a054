import PermissionGuard.Program.Arena

/-!
Step by step construction of a program. A step that makes no sense is recorded as an error and
changes nothing else, and a program with recorded errors is never finished.
-/

namespace PermissionGuard

/-- What can go wrong while a program is built. -/
inductive BuildError where
  | statementInUnknownMethod (m : MethodId)
  | statementInAbstractMethod (sig : Signature)
  | edgeFromUnknownStatement (s : StmtId)
  | edgeToUnknownMethod (m : MethodId)
  | edgeToAbstractMethod (index : Nat) (caller callee : Signature)
  | rangeInUnknownMethod (m : MethodId)
  | invalidRange (first last : Int) (sig : Signature)
  | unknownEntryPoint (m : MethodId)
  | successorOutOfBody (index : Nat) (sig : Signature) (succ : Int)
  deriving DecidableEq, Repr

def BuildError.message : BuildError → Text
  | .statementInUnknownMethod m => "statement added to unknown method " ++ Text.ofInt m
  | .statementInAbstractMethod sig =>
      "statement added to the body of non-concrete method " ++ sig.key
  | .edgeFromUnknownStatement s => "call edge from unknown statement " ++ Text.ofInt s
  | .edgeToUnknownMethod m => "call edge to unknown method " ++ Text.ofInt m
  | .edgeToAbstractMethod index caller callee =>
      "call edge from statement " ++ Text.ofNat index ++ " of " ++ caller.key
        ++ " to non-concrete method " ++ callee.key
  | .rangeInUnknownMethod m => "exception range added to unknown method " ++ Text.ofInt m
  | .invalidRange first last sig =>
      "invalid exception range [" ++ Text.ofInt first ++ ", " ++ Text.ofInt last ++ ") in " ++ sig.key
  | .unknownEntryPoint m => "unknown entry point " ++ Text.ofInt m
  | .successorOutOfBody index sig succ =>
      "statement " ++ Text.ofNat index ++ " of " ++ sig.key ++ " has successor " ++ Text.ofInt succ
        ++ " out of the body"

/-- The messages of several errors, one a line. -/
def BuildError.messages (errors : List BuildError) : Text :=
  Text.join "\n" (errors.map BuildError.message)

/-- What a new statement consists of. -/
structure StatementSpec where
  target : Option Signature := none
  succs : Option (List Int) := none
  line : Int := 0

/-- A program under construction and the errors of its steps so far. -/
structure Builder where
  program : Program
  errors : List BuildError
  deriving Inhabited

namespace Builder

def empty : Builder := ⟨Program.empty, []⟩

def fail (b : Builder) (error : BuildError) : Builder := { b with errors := b.errors ++ [error] }

/-- Adds a method with an empty body and gives its number. -/
def addMethod (b : Builder) (sig : Signature) (concrete library : Bool) : Builder × MethodId :=
  let id : MethodId := b.program.methods.size
  let method : Method := { id, sig, concrete, library, body := [], traps := [] }
  ({ b with program.methods := b.program.methods.push method }, id)

/-- Changes the method with a number in the range of the program. -/
def modifyMethod (b : Builder) (m : MethodId) (change : Method → Method) : Builder :=
  { b with program.methods := b.program.methods.modify m.toNat change }

/-- Appends a statement to a body and gives its number, or none if the method has no body. -/
def addStatement (b : Builder) (m : MethodId) (spec : StatementSpec) : Builder × Option StmtId :=
  match b.program.method? m with
  | none => (b.fail (.statementInUnknownMethod m), none)
  | some method =>
      if !method.concrete then (b.fail (.statementInAbstractMethod method.sig), none)
      else
        let id : StmtId := b.program.stmts.size
        let st : Statement := {
          id, method := m, index := method.body.length, target := spec.target
          succs := spec.succs, line := spec.line, callees := [] }
        let b := { b with program.stmts := b.program.stmts.push st }
        (b.modifyMethod m fun method => { method with body := method.body ++ [id] }, some id)

/-- Adds a call edge. The callee has to be concrete, and a repeated edge changes nothing. -/
def addEdge (b : Builder) (s : StmtId) (callee : MethodId) : Builder :=
  match b.program.statement? s, b.program.method? callee with
  | none, _ => b.fail (.edgeFromUnknownStatement s)
  | some _, none => b.fail (.edgeToUnknownMethod callee)
  | some st, some method =>
      if !method.concrete then
        let caller := ((b.program.method? st.method).map Method.sig).getD Signature.empty
        b.fail (.edgeToAbstractMethod st.index caller method.sig)
      else if st.callees.contains callee then b
      else { b with
        program.stmts := b.program.stmts.modify s.toNat fun st =>
          { st with callees := st.callees ++ [callee] } }

def addTrap (b : Builder) (m : MethodId) (range : ExceptionRange) : Builder :=
  match b.program.method? m with
  | none => b.fail (.rangeInUnknownMethod m)
  | some method =>
      if range.first < 0 ∨ range.last < range.first then
        b.fail (.invalidRange range.first range.last method.sig)
      else b.modifyMethod m fun method => { method with traps := method.traps ++ [range] }

def addSubtype (b : Builder) (child parent : Text) : Builder :=
  { b with program.hierarchy := b.program.hierarchy.addSubtype child parent }

def addEntryPoint (b : Builder) (m : MethodId) : Builder :=
  match b.program.method? m with
  | none => b.fail (.unknownEntryPoint m)
  | some _ => { b with program.entryPoints := b.program.entryPoints ++ [m] }

def setPermissions (b : Builder) (permissions : List Text) : Builder :=
  { b with program.permissions := permissions }

/-- The successors of a method's statements that lie outside its body. -/
def strayedSuccessors (p : Program) (m : Method) : List BuildError :=
  (m.body.filterMap p.statement?).flatMap fun st =>
    ((st.succs.getD []).filter fun (succ : Int) => succ < 0 || succ ≥ m.body.length).map
      (BuildError.successorOutOfBody st.index m.sig ·)

/-- Finishes the program, with a search for the dominators in its bodies. Successors outside their
body are recorded as errors too, and all the errors recorded so far are given together. -/
def buildWith (finder : DominatorFinder) (b : Builder) :
    Builder × Except (List BuildError) Arena :=
  let b := { b with errors := b.errors ++ b.program.methods.toList.flatMap (strayedSuccessors b.program) }
  if b.errors.isEmpty then (b, .ok (Arena.ofProgramWith finder b.program)) else (b, .error b.errors)

def build (b : Builder) : Builder × Except (List BuildError) Arena :=
  b.buildWith FlowGraph.avoidanceTree

end Builder

end PermissionGuard
