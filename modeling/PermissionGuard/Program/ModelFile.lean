import PermissionGuard.Program.Description
import PermissionGuard.Yaml.Record

/-!
Program descriptions in files.
-/

namespace PermissionGuard.ModelFile

open Yaml (Shape Value)

def stringList : Shape := .list .text

def statementShape : Shape :=
  .record "program.stmtEntry"
    [("invoke", .text), ("targets", stringList), ("succs", .list .int), ("line", .int)]

def trapShape : Shape :=
  .record "program.trapEntry" [("begin", .int), ("end", .int), ("type", .text)]

def methodShape : Shape :=
  .record "program.methodEntry"
    [("signature", .text), ("concrete", .bool), ("library", .bool),
     ("body", .list statementShape), ("traps", .list trapShape)]

def shape : Shape :=
  .record "program.modelFile"
    [("permissions", stringList), ("entry-points", stringList), ("hierarchy", .table stringList),
     ("methods", .list methodShape)]

def statementEntry (v : Value) : StatementEntry where
  invoke := (v.textAt? "invoke").getD []
  targets := (v.textsAt? "targets").getD []
  succs := match v.field? "succs" with
    | some (.list succs) => some (succs.map Value.toInt)
    | _ => none
  line := (v.intAt? "line").getD 0

def trapEntry (v : Value) : TrapEntry where
  first := (v.intAt? "begin").getD 0
  last := (v.intAt? "end").getD 0
  caught := (v.textAt? "type").getD []

def methodEntry (v : Value) : MethodEntry where
  signature := (v.textAt? "signature").getD []
  concrete := (v.boolAt? "concrete").getD true
  library := (v.boolAt? "library").getD false
  body := ((v.itemsAt? "body").getD []).map statementEntry
  traps := ((v.itemsAt? "traps").getD []).map trapEntry

def description (v : Value) : Description where
  permissions := (v.textsAt? "permissions").getD []
  entryPoints := (v.textsAt? "entry-points").getD []
  hierarchy := ((v.field? "hierarchy").map Value.entries).getD [] |>.map fun (type, parents) =>
    (type, parents.items.map Value.toText)
  methods := ((v.itemsAt? "methods").getD []).map methodEntry

/-- Why a file holds no program. -/
inductive Error where
  | undecodable (cause : Yaml.DecodeError)
  | invalid (cause : DescriptionError)
  deriving DecidableEq, Repr

def Error.message : Error → Text
  | .undecodable cause => "could not decode model: " ++ cause.message
  | .invalid cause => cause.message

/-- Reads a program. A file without a document describes the empty program. -/
def read (t : Text) : Except Error Arena :=
  match Yaml.read shape t with
  | .error cause => .error (.undecodable cause)
  | .ok value =>
      match ((value.map description).getD {}).toArena with
      | .ok arena => .ok arena
      | .error cause => .error (.invalid cause)

end PermissionGuard.ModelFile
