import PermissionGuard.Pattern.Parser

/-!
Hints for common mistakes, found by their error messages.
-/

namespace PermissionGuard.Command

/-- Whether a written pattern occurs in a message. -/
def mentions (message pattern : Text) : Bool := (Pattern.parse? pattern).any (·.occursIn message)

/-- Advice on an error message, if there is any. -/
def hint? (message : Text) : Option Text :=
  if mentions message "could not load program" then
    if mentions message "-: named files must be .go files: -(\\w)" then
      some "all command line flags should be before the path to the Go files to analyze"
    else some "make sure you have provided the right arguments to load a Go program"
  else if mentions message "could not load model: .*\\.go" then
    some "use -go to analyze Go packages instead of a model file"
  else if mentions message "could not load catalog: .*:\\d+: " then
    some ("the catalog should be in the PScout format: a Permission: header followed by one method "
      ++ Text.ofString "signature per line")
  else none

end PermissionGuard.Command
