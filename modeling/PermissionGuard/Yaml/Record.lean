import PermissionGuard.Yaml.Shape

/-!
The fields of what was read from a document.
-/

namespace PermissionGuard.Yaml.Value

def toText : Value → Text
  | .text t => t
  | _ => []

def toInt : Value → Int
  | .int n => n
  | _ => 0

def toBool : Value → Bool
  | .bool b => b
  | _ => false

def items : Value → List Value
  | .list items => items
  | _ => []

def entries : Value → List (Text × Value)
  | .record fields => fields
  | .table entries => entries
  | _ => []

/-- The field of a record, if it was set. -/
def field? (v : Value) (name : String) : Option Value := v.entries.lookup (Text.ofString name)

def textAt? (v : Value) (name : String) : Option Text := (v.field? name).map toText

def intAt? (v : Value) (name : String) : Option Int := (v.field? name).map toInt

def boolAt? (v : Value) (name : String) : Option Bool := (v.field? name).map toBool

def itemsAt? (v : Value) (name : String) : Option (List Value) := (v.field? name).map items

def textsAt? (v : Value) (name : String) : Option (List Text) :=
  (v.itemsAt? name).map (List.map toText)

end PermissionGuard.Yaml.Value
