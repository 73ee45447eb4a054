import PermissionGuard.Config.Basic
import PermissionGuard.Program.Basic

/-!
Guards inside one method. A statement is guarded when an exception handler around it catches the
failure of the sensitive call, or when a permission check comes before it on every way.
-/

namespace PermissionGuard

/-- The kinds of guards. -/
inductive Guard where
  | exceptionHandler
  | proactiveCheck
  deriving DecidableEq, Repr

def Guard.print : Guard → Text
  | .exceptionHandler => "exception handler"
  | .proactiveCheck => "proactive check"

/-- What counts as a guard in a program. -/
structure Detector where
  model : Model
  /-- The type that a sensitive call raises when its permission is missing. -/
  failureType : Text
  /-- The names of permission checks. -/
  isCheck : Text → Bool

namespace Detector

/-- A detector for a list of check names. -/
def ofNames (model : Model) (failureType : Text) (checks : List Text) : Detector :=
  { model, failureType, isCheck := checks.contains }

/-- A detector with the failure type and the checks of a configuration. -/
def ofConfig (model : Model) (c : Config) : Detector where
  model
  failureType := c.failureType
  isCheck name := (c.isProactiveCheck name).2

/-- A handler of `m` around `s` catches the failure. -/
def caughtAt (d : Detector) (s : StmtId) (m : MethodId) : Bool := d.model.caughtAt d.failureType s m

def isCheckCall (d : Detector) (s : StmtId) : Bool :=
  match d.model.statement? s with
  | some st => st.target.any fun target => d.isCheck target.name
  | none => false

/-- A permission check dominates `s` in `m`. -/
def proactivelyChecked (d : Detector) (s : StmtId) (m : MethodId) : Bool :=
  (d.model.dominatorsOf s m).any d.isCheckCall

/-- The guard of `s` in `m`, where a handler is looked for first. -/
def guard? (d : Detector) (s : StmtId) (m : MethodId) : Option Guard :=
  if d.caughtAt s m then some .exceptionHandler
  else if d.proactivelyChecked s m then some .proactiveCheck
  else none

/-- What is logged when a guard is found. -/
def foundEntry (d : Detector) (s : StmtId) (m : MethodId) : Guard → LogEntry
  | .exceptionHandler =>
      ⟨.trace, "statement " ++ Text.ofInt s ++ " of " ++ d.model.methodName m
        ++ " is in a handler of " ++ d.failureType⟩
  | .proactiveCheck =>
      ⟨.trace, "statement " ++ Text.ofInt s ++ " of " ++ d.model.methodName m
        ++ " is dominated by a permission check"⟩

end Detector

end PermissionGuard
