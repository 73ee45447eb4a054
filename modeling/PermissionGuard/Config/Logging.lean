import PermissionGuard.Text.Basic

/-!
Log entries. An entry is shown when the level of the log is at least the rank of the entry.
-/

namespace PermissionGuard

inductive LogLevel where
  | error
  | warn
  | info
  | debug
  | trace
  deriving DecidableEq, Repr

namespace LogLevel

def rank : LogLevel → Int
  | .error => 1
  | .warn => 2
  | .info => 3
  | .debug => 4
  | .trace => 5

def label : LogLevel → Text
  | .error => "[ERROR] "
  | .warn => "[WARN] "
  | .info => "[INFO] "
  | .debug => "[DEBUG] "
  | .trace => "[TRACE] "

end LogLevel

structure LogEntry where
  level : LogLevel
  message : Text
  deriving DecidableEq, Repr

namespace LogEntry

/-- The entry as it is written, with a newline at its end unless the message brings one. -/
def print (e : LogEntry) : Text :=
  let line := e.level.label ++ e.message
  if line.endsWith "\n" then line else line ++ "\n"

def isShown (level : Int) (e : LogEntry) : Bool := e.level.rank ≤ level

/-- The written form of the entries that are shown at a level. -/
def printAll (level : Int) (entries : List LogEntry) : Text :=
  (entries.filter (isShown level)).flatMap print

end LogEntry

end PermissionGuard
