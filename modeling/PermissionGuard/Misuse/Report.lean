import PermissionGuard.Misuse.Basic
import PermissionGuard.Report.Style
import PermissionGuard.Text.JsonString

/-!
Reports of misuses, as lines for readers or as JSON for programs.
-/

namespace PermissionGuard.Report

/-- What a report tells about a misuse. -/
structure Item where
  /-- The signature key of the calling method. -/
  method : Text
  index : Nat
  line : Int
  /-- The signature key of the sensitive method. -/
  call : Text
  permissions : List Text
  deriving DecidableEq, Repr

def item (model : Model) (misuse : Misuse) : Item :=
  let st := model.statement? misuse.stmt
  { method := model.methodName misuse.method
    index := (st.map Statement.index).getD 0
    line := (st.map Statement.line).getD 0
    call := misuse.sensitive.sig.key
    permissions := misuse.sensitive.permissions }

/-! ### Lines -/

/-- The source line, or the position in the body if the line is unknown. -/
def position (line : Int) (index : Nat) : Text :=
  if line > 0 then "line " ++ Text.ofInt line else "#" ++ Text.ofNat index

/-- The line of a misuse without the newline that ends it. -/
def Item.lineText (i : Item) : Text :=
  i.method.sanitize ++ " [" ++ position i.line i.index ++ "]: unguarded call to "
    ++ i.call.sanitize ++ " requires " ++ joinSanitized ", " i.permissions

def Item.text (i : Item) : Text := i.lineText ++ "\n"

/-- One line a misuse. -/
def text (items : List Item) : Text := items.flatMap Item.text

/-! ### JSON -/

/-- A list in brackets, one item a line, where `indent` stands before the closing bracket. -/
def jsonList (indent : Text) (items : List Text) : Text :=
  if items.isEmpty then "[]"
  else
    let inner := "\n" ++ indent ++ "  "
    "[" ++ inner ++ Text.join ("," ++ inner) items ++ "\n" ++ indent ++ "]"

/-- A field of an object. -/
def jsonField (name : String) (value : Text) : Text :=
  "    \"" ++ Text.ofString name ++ "\": " ++ value

/-- An object of the report. An unknown line is left out. -/
def Item.json (i : Item) : Text :=
  let line := if i.line = 0 then [] else [jsonField "line" (Text.ofInt i.line)]
  let fields :=
    [jsonField "method" i.method.jsonString, jsonField "index" (Text.ofNat i.index)] ++ line
      ++ [jsonField "call" i.call.jsonString,
        jsonField "permissions" (jsonList "    " (i.permissions.map Text.jsonString))]
  "\x7b\n" ++ Text.join ",\n" fields ++ "\n  \x7d"

/-- One array with an object a misuse. -/
def json (items : List Item) : Text := jsonList [] (items.map Item.json) ++ "\n"

/-! ### Writing -/

/-- A report could not be written. -/
structure WriteError where
  cause : Text
  deriving DecidableEq, Repr

def WriteError.message (e : WriteError) : Text := "could not write report: " ++ e.cause

/-- Hands the parts of a report to a writer until it fails. -/
def write (writer : Text → Except Text Unit) (parts : List Text) : Except WriteError Unit :=
  match parts.forM writer with
  | .ok () => .ok ()
  | .error cause => .error ⟨cause⟩

def writeText (writer : Text → Except Text Unit) (items : List Item) : Except WriteError Unit :=
  write writer (items.map Item.text)

def writeJson (writer : Text → Except Text Unit) (items : List Item) : Except WriteError Unit :=
  write writer [json items]

end PermissionGuard.Report
