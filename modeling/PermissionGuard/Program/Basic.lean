import PermissionGuard.Hierarchy
import PermissionGuard.Signature.Basic

/-!
The parts of a whole program: methods, their statements and exception ranges, and the queries that
the analyses ask about them.
-/

namespace PermissionGuard

/-- The number of a method. Numbers that belong to no method may be asked about too. -/
abbrev MethodId := Int

/-- The number of a statement. Numbers that belong to no statement may be asked about too. -/
abbrev StmtId := Int

/-- The answer for a statement that lies in no method. -/
def noMethod : MethodId := -1

/-- A handler for the body positions from `first` up to and without `last`, catching `caught` and
its subtypes. -/
structure ExceptionRange where
  first : Int
  last : Int
  caught : Text
  deriving DecidableEq, Repr

def ExceptionRange.covers (range : ExceptionRange) (index : Int) : Bool :=
  range.first ≤ index && index < range.last

/-- A method of the analyzed program. Only concrete methods have a body. -/
structure Method where
  id : MethodId
  sig : Signature
  concrete : Bool
  library : Bool
  body : List StmtId
  traps : List ExceptionRange
  deriving DecidableEq, Repr

/-- A statement at a position of a method body. -/
structure Statement where
  id : StmtId
  method : MethodId
  index : Nat
  /-- The invoked signature, if the statement is an invocation. -/
  target : Option Signature
  /-- The body positions that may come next. Without them the statement falls through, and with
  an empty list it is an exit. -/
  succs : Option (List Int)
  /-- The source line, or 0 if it is unknown. -/
  line : Int
  /-- The methods with a call edge from the statement, in the order of the edges. -/
  callees : List MethodId
  deriving DecidableEq, Repr

def Statement.isInvoke (st : Statement) : Bool := st.target.isSome

/-- What the analyses see of a whole program. -/
structure Model where
  /-- The methods that can be reached from the entry points. -/
  reachable : List MethodId
  /-- The statements that `statement?` may know. -/
  statementIds : List StmtId
  method? : MethodId → Option Method
  statement? : StmtId → Option Statement
  /-- The invocations in the body of a method. -/
  callSites : MethodId → List StmtId
  /-- The statements with a call edge into a method. -/
  callersOf : MethodId → List StmtId
  enclosing : StmtId → MethodId
  /-- Whether a handler of the method around the statement catches the type or a supertype. -/
  caughtAt : Text → StmtId → MethodId → Bool
  /-- The statements of the method on every way from its entry to the statement, entry first. -/
  dominatorsOf : StmtId → MethodId → List StmtId

namespace Model

/-- The key of a method's signature, or a question mark for an unknown method. -/
def methodName (model : Model) (m : MethodId) : Text :=
  match model.method? m with
  | some method => method.sig.key
  | none => "?"

end Model

end PermissionGuard
