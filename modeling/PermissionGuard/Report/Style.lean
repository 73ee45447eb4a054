import PermissionGuard.Text.Quoted

/-!
The look of printed reports: counts of things, lists of names, and colours for terminals.
-/

namespace PermissionGuard.Report

/-- A count with its noun, which gets an s unless the count is one. -/
def plural (n : Int) (noun : Text) : Text :=
  let ending : Text := if n = 1 then "" else "s"
  Text.ofInt n ++ " " ++ noun ++ ending

/-- Items with a separator between them, each free of control characters. -/
def joinSanitized (separator : Text) (items : List Text) : Text :=
  Text.join separator (items.map Text.sanitize)

inductive Colour where
  | bold
  | faint
  | red
  | green
  | yellow
  | cyan
  deriving DecidableEq, Repr

/-- The terminal sequence that switches to a colour. -/
def Colour.start : Colour → Text
  | .bold => "\x1b[1m"
  | .faint => "\x1b[2m"
  | .red => "\x1b[1;31m"
  | .green => "\x1b[1;32m"
  | .yellow => "\x1b[1;33m"
  | .cyan => "\x1b[1;36m"

/-- A text in a colour, or as it is when colours are off. -/
def Colour.paint (colour : Colour) (enabled : Bool) (t : Text) : Text :=
  if enabled then colour.start ++ t ++ "\x1b[0m" else t

/-- A value that can be printed in a line with others. -/
inductive Operand where
  | text (t : Text)
  | int (n : Int)
  | bool (b : Bool)
  | absent
  deriving DecidableEq, Repr

def Operand.isText : Operand → Bool
  | .text _ => true
  | _ => false

def Operand.print : Operand → Text
  | .text t => t
  | .int n => Text.ofInt n
  | .bool b => if b then "true" else "false"
  | .absent => "<nil>"

/-- Operands in a line, with a space between two of them when neither is a text. -/
def Operand.printAll : List Operand → Text
  | [] => []
  | [a] => a.print
  | a :: b :: rest =>
      let gap : Text := if a.isText || b.isText then "" else " "
      a.print ++ gap ++ printAll (b :: rest)

end PermissionGuard.Report
