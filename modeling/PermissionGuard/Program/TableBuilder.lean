import PermissionGuard.Program.Builder
import Std.Data.HashMap
import Std.Data.HashSet

/-!
The tables behind a program. The relations between its methods and statements are kept in columns
beside them, which every step of the construction that concerns them extends, and which the queries
read without looking at the rest. A step that makes no sense changes none of them.
-/

namespace PermissionGuard

/-- What is stored about a method itself. -/
structure MethodRow where
  id : MethodId
  sig : Signature
  concrete : Bool
  library : Bool
  body : List StmtId
  deriving DecidableEq, Repr

/-- What is stored about a statement itself. -/
structure StatementRow where
  id : StmtId
  method : MethodId
  index : Nat
  target : Option Signature
  succs : Option (List Int)
  line : Int
  deriving DecidableEq, Repr

def StatementRow.isInvoke (row : StatementRow) : Bool := row.target.isSome

def MethodRow.withTraps (row : MethodRow) (traps : List ExceptionRange) : Method :=
  ⟨row.id, row.sig, row.concrete, row.library, row.body, traps⟩

def StatementRow.withCallees (row : StatementRow) (callees : List MethodId) : Statement :=
  ⟨row.id, row.method, row.index, row.target, row.succs, row.line, callees⟩

/-- The rows and the columns of a program, by the numbers of its methods and of its statements. -/
structure Tables where
  methods : Array MethodRow
  stmts : Array StatementRow
  /-- The methods with a call edge from each statement, in the order of the edges. -/
  callees : Array (List MethodId)
  /-- The statements with a call edge into each method, in increasing order once it is finished. -/
  callers : Array (List StmtId)
  /-- The invocations in the body of each method, in body order. -/
  callSites : Array (List StmtId)
  traps : Array (List ExceptionRange)
  dominators : Array (List StmtId)
  reachable : List MethodId
  entryPoints : List MethodId
  /-- The first method with each signature key. -/
  bySig : Std.HashMap Text MethodId
  hierarchy : Hierarchy
  permissions : List Text

namespace Tables

def empty : Tables where
  methods := #[]
  stmts := #[]
  callees := #[]
  callers := #[]
  callSites := #[]
  traps := #[]
  dominators := #[]
  reachable := []
  entryPoints := []
  bySig := ∅
  hierarchy := Hierarchy.empty
  permissions := []

def method? (t : Tables) (m : MethodId) : Option MethodRow := Program.entry? t.methods m

def statement? (t : Tables) (s : StmtId) : Option StatementRow := Program.entry? t.stmts s

section

variable {α : Type}

/-- What a column holds for a method. -/
def ofMethod (t : Tables) (column : Array (List α)) (m : MethodId) : List α :=
  match t.method? m with
  | none => []
  | some _ => (Program.entry? column m).getD []

/-- What a column holds for a statement. -/
def ofStatement (t : Tables) (column : Array (List α)) (s : StmtId) : List α :=
  match t.statement? s with
  | none => []
  | some _ => (Program.entry? column s).getD []

end

def callSitesOf (t : Tables) (m : MethodId) : List StmtId := t.ofMethod t.callSites m

def callersOf (t : Tables) (m : MethodId) : List StmtId := t.ofMethod t.callers m

def trapsOf (t : Tables) (m : MethodId) : List ExceptionRange := t.ofMethod t.traps m

def calleesOf (t : Tables) (s : StmtId) : List MethodId := t.ofStatement t.callees s

def methodBySignature? (t : Tables) (key : Text) : Option MethodId := t.bySig[key]?

def methodIds (t : Tables) : List MethodId := (List.range t.methods.size).map Int.ofNat

def statementIds (t : Tables) : List StmtId := (List.range t.stmts.size).map Int.ofNat

def isInvoke (t : Tables) (s : StmtId) : Bool := (t.statement? s).any StatementRow.isInvoke

def enclosing (t : Tables) (s : StmtId) : MethodId :=
  ((t.statement? s).map StatementRow.method).getD noMethod

/-- Whether a handler of `m` covers statement `s` of `m` and catches the type or a supertype. -/
def caughtAt (t : Tables) (type : Text) (s : StmtId) (m : MethodId) : Bool :=
  match t.statement? s with
  | none => false
  | some row =>
      row.method == m && (t.trapsOf m).any fun trap =>
        trap.covers row.index && t.hierarchy.isSubtype type trap.caught

def dominatorsOf (t : Tables) (s : StmtId) (m : MethodId) : List StmtId :=
  match t.statement? s with
  | none => []
  | some row => if row.method == m then t.ofStatement t.dominators s else []

/-- The methods called by the invocations of a method. -/
def calledFrom (t : Tables) (m : MethodId) : List MethodId :=
  (t.callSitesOf m).flatMap t.calleesOf

/-- The methods that call edges of invocations reach from the entry points, or all methods if
there is no entry point. -/
def closure (t : Tables) : List MethodId :=
  if t.entryPoints.isEmpty then t.methodIds
  else
    let found := reach t.calledFrom (totalLength t.callees.toList) t.entryPoints
    t.methodIds.filter found.contains

/-- The program that the rows make up with the columns of their own parts. -/
def program (t : Tables) : Program where
  methods := t.methods.zipWith MethodRow.withTraps t.traps
  stmts := t.stmts.zipWith StatementRow.withCallees t.callees
  hierarchy := t.hierarchy
  entryPoints := t.entryPoints
  permissions := t.permissions

/-- The tables with one more method, whose body is empty. A key that is known keeps its method. -/
def pushMethod (t : Tables) (sig : Signature) (concrete library : Bool) : Tables :=
  let id : MethodId := t.methods.size
  { t with
    methods := t.methods.push { id, sig, concrete, library, body := [] }
    callers := t.callers.push []
    callSites := t.callSites.push []
    traps := t.traps.push []
    bySig := t.bySig.insertIfNew sig.key id }

/-- The tables with one more statement at the end of the body of a method. -/
def pushStatement (t : Tables) (m : MethodId) (row : MethodRow) (spec : StatementSpec) : Tables :=
  let id : StmtId := t.stmts.size
  let st : StatementRow := {
    id, method := m, index := row.body.length, target := spec.target, succs := spec.succs
    line := spec.line }
  { t with
    stmts := t.stmts.push st
    callees := t.callees.push []
    methods := t.methods.modify m.toNat fun row => { row with body := row.body ++ [id] }
    callSites :=
      if spec.target.isSome then t.callSites.modify m.toNat (· ++ [id]) else t.callSites }

/-- The tables with a call edge at both of its ends. -/
def pushEdge (t : Tables) (s : StmtId) (callee : MethodId) : Tables :=
  { t with
    callees := t.callees.modify s.toNat (· ++ [callee])
    callers := t.callers.modify callee.toNat (· ++ [s]) }

def pushTrap (t : Tables) (m : MethodId) (range : ExceptionRange) : Tables :=
  { t with traps := t.traps.modify m.toNat (· ++ [range]) }

def model (t : Tables) : Model where
  reachable := t.reachable
  statementIds := t.statementIds
  method? m := (t.method? m).map (·.withTraps (t.trapsOf m))
  statement? s := (t.statement? s).map (·.withCallees (t.calleesOf s))
  callSites := t.callSitesOf
  callersOf := t.callersOf
  enclosing := t.enclosing
  caughtAt := t.caughtAt
  dominatorsOf := t.dominatorsOf

end Tables

/-- Tables under construction, the errors of the steps so far, and the callees of every statement as
a set, to know a repeated edge. -/
structure TableBuilder where
  tables : Tables
  errors : List BuildError
  edges : Std.HashMap StmtId (Std.HashSet MethodId)

namespace TableBuilder

def empty : TableBuilder := ⟨Tables.empty, [], ∅⟩

def fail (b : TableBuilder) (error : BuildError) : TableBuilder :=
  { b with errors := b.errors ++ [error] }

/-- Adds a method with an empty body and gives its number. -/
def addMethod (b : TableBuilder) (sig : Signature) (concrete library : Bool) :
    TableBuilder × MethodId :=
  ({ b with tables := b.tables.pushMethod sig concrete library }, b.tables.methods.size)

/-- Appends a statement to a body and gives its number, or none if the method has no body. -/
def addStatement (b : TableBuilder) (m : MethodId) (spec : StatementSpec) :
    TableBuilder × Option StmtId :=
  match b.tables.method? m with
  | none => (b.fail (.statementInUnknownMethod m), none)
  | some row =>
      if !row.concrete then (b.fail (.statementInAbstractMethod row.sig), none)
      else
        ({ b with tables := b.tables.pushStatement m row spec },
          some (b.tables.stmts.size : StmtId))

/-- Adds a call edge. The callee has to be concrete, and a repeated edge changes nothing. -/
def addEdge (b : TableBuilder) (s : StmtId) (callee : MethodId) : TableBuilder :=
  match b.tables.statement? s, b.tables.method? callee with
  | none, _ => b.fail (.edgeFromUnknownStatement s)
  | some _, none => b.fail (.edgeToUnknownMethod callee)
  | some st, some row =>
      if !row.concrete then
        let caller := ((b.tables.method? st.method).map MethodRow.sig).getD Signature.empty
        b.fail (.edgeToAbstractMethod st.index caller row.sig)
      else
        let known := b.edges.getD s ∅
        if known.contains callee then b
        else { b with
          tables := b.tables.pushEdge s callee
          edges := b.edges.insert s (known.insert callee) }

def addTrap (b : TableBuilder) (m : MethodId) (range : ExceptionRange) : TableBuilder :=
  match b.tables.method? m with
  | none => b.fail (.rangeInUnknownMethod m)
  | some row =>
      if range.first < 0 ∨ range.last < range.first then
        b.fail (.invalidRange range.first range.last row.sig)
      else { b with tables := b.tables.pushTrap m range }

def addSubtype (b : TableBuilder) (child parent : Text) : TableBuilder :=
  { b with tables := { b.tables with hierarchy := b.tables.hierarchy.addSubtype child parent } }

def addEntryPoint (b : TableBuilder) (m : MethodId) : TableBuilder :=
  match b.tables.method? m with
  | none => b.fail (.unknownEntryPoint m)
  | some _ => { b with tables := { b.tables with entryPoints := b.tables.entryPoints ++ [m] } }

def setPermissions (b : TableBuilder) (permissions : List Text) : TableBuilder :=
  { b with tables := { b.tables with permissions } }

/-- The successors of a method's statements that lie outside its body. -/
def strayedSuccessors (t : Tables) (row : MethodRow) : List BuildError :=
  (row.body.filterMap t.statement?).flatMap fun st =>
    ((st.succs.getD []).filter fun (succ : Int) => succ < 0 || succ ≥ row.body.length).map
      (BuildError.successorOutOfBody st.index row.sig ·)

/-- Finishes the tables: brings the callers in order and fills in what follows from the rest. -/
def finish (finder : DominatorFinder) (t : Tables) : Tables :=
  let inOrder (callers : List StmtId) : List StmtId := callers.mergeSort fun a b => decide (a ≤ b)
  let t := { t with callers := t.callers.map inOrder }
  { t with dominators := t.program.dominatorTable finder, reachable := t.closure }

/-- Finishes the tables unless there are errors. Successors outside their body are recorded as
errors too, and all the errors recorded so far are given together. -/
def buildWith (finder : DominatorFinder) (b : TableBuilder) :
    TableBuilder × Except (List BuildError) Tables :=
  let strayed := b.tables.methods.toList.flatMap (strayedSuccessors b.tables)
  let b := { b with errors := b.errors ++ strayed }
  if b.errors.isEmpty then
    let tables := finish finder b.tables
    ({ b with tables }, .ok tables)
  else (b, .error b.errors)

end TableBuilder

end PermissionGuard
