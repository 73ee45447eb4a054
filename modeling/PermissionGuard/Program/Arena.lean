import PermissionGuard.Program.Basic
import PermissionGuard.Program.Dominance

/-!
A finished program. Methods and statements are numbered from 0, refer to each other by number, and
the relations that the analyses need are tabulated once.
-/

namespace PermissionGuard

/-- The contents of a program: its methods and statements in the order of their numbers. -/
structure Program where
  methods : Array Method
  stmts : Array Statement
  hierarchy : Hierarchy
  entryPoints : List MethodId
  permissions : List Text
  deriving Inhabited

namespace Program

def empty : Program := ⟨#[], #[], Hierarchy.empty, [], []⟩

/-- The entry of an array under a number that may be out of range. -/
def entry? {α : Type} (entries : Array α) (id : Int) : Option α :=
  if id < 0 then none else entries[id.toNat]?

def method? (p : Program) (m : MethodId) : Option Method := entry? p.methods m

def statement? (p : Program) (s : StmtId) : Option Statement := entry? p.stmts s

/-- All method numbers, in increasing order. -/
def methodIds (p : Program) : List MethodId := (List.range p.methods.size).map Int.ofNat

/-- All statement numbers, in increasing order. -/
def statementIds (p : Program) : List StmtId := (List.range p.stmts.size).map Int.ofNat

/-- The first method with a signature key. -/
def methodByKey? (p : Program) (key : Text) : Option MethodId :=
  (p.methods.findIdx? (·.sig.key == key)).map Int.ofNat

/-- The methods with a call edge from a statement. -/
def callees (p : Program) (s : StmtId) : List MethodId :=
  ((p.statement? s).map Statement.callees).getD []

def isInvoke (p : Program) (s : StmtId) : Bool := (p.statement? s).any Statement.isInvoke

/-- The invocations of a body, in body order. -/
def callSitesIn (p : Program) (m : Method) : List StmtId := m.body.filter p.isInvoke

/-- The methods called by the invocations of a method. -/
def calledFrom (p : Program) (m : MethodId) : List MethodId :=
  match p.method? m with
  | some method => (p.callSitesIn method).flatMap p.callees
  | none => []

def edgeCount (p : Program) : Nat := totalLength (p.stmts.toList.map Statement.callees)

/-- The methods that call edges of invocations reach from the entry points, or all methods if
there is no entry point. -/
def reachable (p : Program) : List MethodId :=
  if p.entryPoints.isEmpty then p.methodIds
  else
    let found := reach p.calledFrom p.edgeCount p.entryPoints
    p.methodIds.filter found.contains

/-- The body positions that may follow a statement of a body of `size` statements. -/
def successors (size : Nat) (st : Statement) : List Nat :=
  match st.succs with
  | none => if st.index + 1 < size then [st.index + 1] else []
  | some targets => targets.map Int.toNat

/-- The control flow between the positions of a method body. -/
def flowGraph (p : Program) (m : Method) : FlowGraph where
  succs := (m.body.map fun s =>
    ((p.statement? s).map (successors m.body.length)).getD []).toArray

/-- The dominators of the statements of a body that its entry reaches, as pairs of a statement and
its list, from the entry down to the statement. -/
def dominatorLists (finder : DominatorFinder) (p : Program) (m : Method) :
    List (StmtId × List StmtId) :=
  let body := m.body.toArray
  let tree := finder (p.flowGraph m).simple
  m.body.zipIdx.filterMap fun (s, i) =>
    (tree.lineage? body.size i).map fun positions => (s, positions.filterMap fun d => body[d]?)

/-- The dominators of every statement, none for one that the entry of its body does not reach. -/
def dominatorTable (finder : DominatorFinder) (p : Program) : Array (List StmtId) :=
  p.methods.toList.foldl
    (fun table m => (p.dominatorLists finder m).foldl
      (fun table (s, list) => table.setIfInBounds s.toNat list) table)
    (Array.replicate p.stmts.size [])

/-- The statements that call each method, in increasing order. -/
def callerTable (p : Program) : Array (List StmtId) :=
  p.methodIds.toArray.map fun m =>
    (p.stmts.toList.filter fun st => st.callees.contains m).map Statement.id

end Program

/-- A finished program with its tables. -/
structure Arena extends Program where
  callers : Array (List StmtId)
  dominators : Array (List StmtId)
  reachableMethods : List MethodId
  deriving Inhabited

namespace Arena

/-- Tabulates the relations of a program, with a search for the dominators in its bodies. -/
def ofProgramWith (finder : DominatorFinder) (p : Program) : Arena where
  toProgram := p
  callers := p.callerTable
  dominators := p.dominatorTable finder
  reachableMethods := p.reachable

def ofProgram (p : Program) : Arena := ofProgramWith FlowGraph.avoidanceTree p

def callSites (a : Arena) (m : MethodId) : List StmtId :=
  match a.method? m with
  | some method => a.callSitesIn method
  | none => []

def callersOf (a : Arena) (m : MethodId) : List StmtId :=
  (Program.entry? a.callers m).getD []

def traps (a : Arena) (m : MethodId) : List ExceptionRange :=
  ((a.method? m).map Method.traps).getD []

/-- The method whose body contains a statement. -/
def enclosing (a : Arena) (s : StmtId) : MethodId :=
  ((a.statement? s).map Statement.method).getD noMethod

/-- Whether a handler of `m` covers statement `s` of `m` and catches the type or a supertype. -/
def caughtAt (a : Arena) (type : Text) (s : StmtId) (m : MethodId) : Bool :=
  match a.statement? s with
  | none => false
  | some st =>
      st.method == m && (a.traps m).any fun trap =>
        trap.covers st.index && a.hierarchy.isSubtype type trap.caught

/-- The dominators of statement `s` of `m`, from the entry down to `s`. -/
def dominatorsOf (a : Arena) (s : StmtId) (m : MethodId) : List StmtId :=
  match a.statement? s with
  | none => []
  | some st => if st.method == m then (Program.entry? a.dominators s).getD [] else []

/-- What the analyses see of a finished program. -/
def model (a : Arena) : Model where
  reachable := a.reachableMethods
  statementIds := a.statementIds
  method? := a.method?
  statement? := a.statement?
  callSites := a.callSites
  callersOf := a.callersOf
  enclosing := a.enclosing
  caughtAt := a.caughtAt
  dominatorsOf := a.dominatorsOf

end Arena

end PermissionGuard
