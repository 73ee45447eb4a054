import PermissionGuard.Guard
import PermissionGuard.Search

/-!
Guards along the callers. A statement is guarded when it is guarded in its method, or when the
method has callers and all of them are guarded. The search remembers the statements that it met, and
a statement that it meets again is not guarded, so that cycles of calls are never guards for each
other.
-/

namespace PermissionGuard

/-- The statements that a query has met. -/
abbrev History := Visited StmtId

/-- The statements of a history in increasing order. -/
def History.sorted (h : History) : List StmtId := sortedIds h.toList

/-- How much work was done. -/
structure Stats where
  /-- Queries that started with an empty history. -/
  queries : Nat := 0
  /-- Statements looked at. -/
  visits : Nat := 0
  /-- Callers looked at. -/
  callerVisits : Nat := 0
  /-- Statements guarded in their own method. -/
  locallyGuarded : Nat := 0
  /-- Statements that were met again. -/
  recursionBreaks : Nat := 0
  /-- Callers that were no invocations. -/
  anomalies : Nat := 0
  deriving DecidableEq, Repr, Inhabited

/-- What a search has done so far. -/
structure Progress where
  history : History := Visited.empty
  stats : Stats := {}
  /-- The log, newest entry first. -/
  log : List LogEntry := []
  deriving Inhabited

namespace Progress

def note (st : Progress) (level : LogLevel) (message : Text) : Progress :=
  { st with log := ⟨level, message⟩ :: st.log }

end Progress

/-- A search along the callers of a program. -/
structure Propagator where
  model : Model
  detector : Detector
  /-- Whether every caller is searched with a history of its own, so that what is met below one
  caller does not count as met for the next. -/
  branchLocal : Bool

namespace Propagator

/-- Whether a statement is known and an invocation. -/
def isInvocation (p : Propagator) (s : StmtId) : Bool := (p.model.statement? s).any Statement.isInvoke

/-- Looks at the callers of `m` one after the other until one is not guarded. -/
def searchCallers (p : Propagator) (m : MethodId)
    (search : StmtId → MethodId → Progress → Option (Bool × Progress)) :
    List StmtId → Progress → Option (Bool × Progress)
  | [], st => some (true, st)
  | c :: callers, st =>
      let st := { st with stats.callerVisits := st.stats.callerVisits + 1 }
      if p.isInvocation c then
        match search c (p.model.enclosing c) st with
        | none => none
        | some (isGuarded, after) =>
            let after := if p.branchLocal then { after with history := st.history } else after
            if isGuarded then searchCallers p m search callers after
            else some (false, after.note .trace
              ("caller " ++ Text.ofInt c ++ " of " ++ p.model.methodName m ++ " is not guarded"))
      else
        let st := { st with stats.anomalies := st.stats.anomalies + 1 }
        some (false, st.note .warn
          ("caller " ++ Text.ofInt c ++ " of " ++ p.model.methodName m
            ++ " does not invoke a method"))

/-- Whether `s` is guarded in `m` or by all the callers of `m`, with at most as many nested searches
as the budget says. There is no answer when the budget is too small. -/
def searchWithin (p : Propagator) :
    Nat → StmtId → MethodId → Progress → Option (Bool × Progress)
  | 0, _, _, _ => none
  | budget + 1, s, m, st =>
      let st := { st with stats.visits := st.stats.visits + 1 }
      if st.history.contains s then
        let st := { st with stats.recursionBreaks := st.stats.recursionBreaks + 1 }
        some (false, st.note .debug
          ("recursion found at statement " ++ Text.ofInt s ++ " of " ++ p.model.methodName m))
      else
        let st := { st with history := st.history.insert s }
        match p.detector.guard? s m with
        | some guard =>
            let st := { st with
              stats.locallyGuarded := st.stats.locallyGuarded + 1
              log := p.detector.foundEntry s m guard :: st.log }
            some (true, st.note .trace
              ("statement " ++ Text.ofInt s ++ " guarded by " ++ guard.print ++ " in "
                ++ p.model.methodName m))
        | none =>
            match p.model.callersOf m with
            | [] =>
                some (false, st.note .debug
                  (p.model.methodName m ++ " has no callers, statement " ++ Text.ofInt s
                    ++ " is not guarded"))
            | callers => searchCallers p m (searchWithin p budget) callers st

/-- The statements of a chain of nested searches are different, the first may be unknown to the
program, and the last may be met again. -/
def budget (p : Propagator) : Nat := p.model.statementIds.length + 2

/-- Whether `s` is guarded in `m` or by all the callers of `m`, where the statements of the history
do not count as guarded. -/
def isGuarded (p : Propagator) (s : StmtId) (m : MethodId) (st : Progress) : Bool × Progress :=
  (p.searchWithin p.budget s m st).getD (false, st)

/-- A query of its own, with an empty history. -/
def check (p : Propagator) (s : StmtId) (m : MethodId) (st : Progress) : Bool × Progress :=
  p.isGuarded s m
    { st with history := Visited.empty, stats.queries := st.stats.queries + 1 }

end Propagator

end PermissionGuard
