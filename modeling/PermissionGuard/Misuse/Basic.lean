import PermissionGuard.Catalog.Basic
import PermissionGuard.Propagation

/-!
Misuses: calls of sensitive methods that are not guarded along every way that leads to them.
-/

namespace PermissionGuard

/-- A call of a sensitive method that is not guarded. -/
structure Misuse where
  stmt : StmtId
  /-- The method that makes the call. -/
  method : MethodId
  sensitive : SensitiveMethod
  deriving DecidableEq, Repr

/-- Finds the misuses of a program. -/
structure Collector where
  model : Model
  catalog : Catalog
  propagator : Propagator
  /-- The classes of library code, whose calls are not reported. -/
  isLibrary : Text → Bool

namespace Collector

/-- A concrete method that is no library code. -/
def isApplication (c : Collector) (m : MethodId) : Bool :=
  match c.model.method? m with
  | some method => method.concrete && !method.library && !c.isLibrary method.sig.className
  | none => false

/-- The calls of application methods that the catalog knows, with their entries. -/
def candidates (c : Collector) : List (Misuse × Signature) :=
  (c.model.reachable.filter c.isApplication).flatMap fun m =>
    (c.model.callSites m).filterMap fun s => do
      let target ← (← c.model.statement? s).target
      let sensitive ← c.catalog.lookup? target
      some (⟨s, m, sensitive⟩, target)

/-- Where a misuse stands in a report: by signature key, method number and position. -/
def place (c : Collector) (misuse : Misuse) : Text × MethodId × Nat :=
  (c.model.methodName misuse.method, misuse.method,
    ((c.model.statement? misuse.stmt).map Statement.index).getD 0)

/-- Whether a place does not come after another. -/
def placeLe (a b : Text × MethodId × Nat) : Bool :=
  if a.1 ≠ b.1 then a.1.le b.1
  else if a.2.1 ≠ b.2.1 then a.2.1 < b.2.1
  else a.2.2 ≤ b.2.2

/-- Asks about a candidate and keeps it if it is not guarded. The misuses are kept newest first. -/
def examine (c : Collector) (state : List Misuse × Progress) (candidate : Misuse × Signature) :
    List Misuse × Progress :=
  let (found, st) := state
  let (misuse, target) := candidate
  let (isGuarded, st) := c.propagator.check misuse.stmt misuse.method st
  let call := "call to " ++ target.key ++ " in " ++ c.model.methodName misuse.method
  if isGuarded then (found, st.note .debug (call ++ " is guarded"))
  else (misuse :: found, st.note .debug (call ++ " is not guarded"))

/-- The misuses of the program, in the order of their places. -/
def collect (c : Collector) (st : Progress) : List Misuse × Progress :=
  let (found, st) := c.candidates.foldl c.examine ([], st)
  (found.reverse.mergeSort fun a b => placeLe (c.place a) (c.place b), st)

end Collector

namespace Misuse

/-- A collector with the guards and library prefixes of a configuration. -/
def collector (model : Model) (catalog : Catalog) (config : Config) : Collector where
  model
  catalog
  propagator := {
    model
    detector := Detector.ofConfig model config
    branchLocal := config.branchLocalHistory }
  isLibrary := config.isLibrary

/-- The misuses of a program, and the work done to find them. -/
def analyze (model : Model) (catalog : Catalog) (config : Config) : List Misuse × Progress :=
  (collector model catalog config).collect {}

end Misuse

end PermissionGuard
