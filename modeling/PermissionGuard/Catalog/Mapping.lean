import PermissionGuard.Catalog.Basic
import PermissionGuard.Signature.Parser

/-!
Permission mappings as texts. A mapping has a section for each permission: a header, a line with
the number of callers, and then one method signature a line. Whatever follows a signature on its
line is ignored, and so are blank lines and lines that start with a number sign. A section ends at
the next header or at the first line that is no signature.
-/

namespace PermissionGuard.Mapping

/-- What is wrong with a line of a mapping. -/
inductive Cause where
  | emptyPermission
  | unterminatedSignature
  | badSignature (written : Text) (cause : Signature.ParseError)
  | lineTooLong
  deriving DecidableEq, Repr

structure Error where
  /-- The number of the line, or of the line before it if the line is too long to be read. -/
  line : Nat
  cause : Cause
  deriving DecidableEq, Repr

def Cause.message : Cause → Text
  | .emptyPermission => "empty permission name"
  | .unterminatedSignature => "unterminated method signature"
  | .badSignature written cause => cause.message written
  | .lineTooLong => "bufio.Scanner: token too long"

def Error.message (source : Text) (e : Error) : Text :=
  source ++ ":" ++ Text.ofNat e.line ++ ": " ++ e.cause.message

/-- What a line says once the blanks around it are dropped. -/
inductive Line where
  | ignored
  | header (permission : Text)
  | method (written : Text)
  | other
  deriving DecidableEq, Repr

def headerStart : Text := "Permission:"

def Line.ofText (raw : Text) : Line :=
  let t := raw.trim
  if t.isEmpty || t.startsWith "#" then .ignored
  else if t.startsWith headerStart then .header (Text.trim (t.drop headerStart.length))
  else if t.startsWith "<" then .method t
  else .other

/-- Where the reader stands between two lines. -/
structure State where
  catalog : Catalog := Catalog.empty
  /-- The permission that owns the signatures that follow, none where they are skipped. -/
  owner : Option Text := none
  /-- No line that counts has been read since the last header. -/
  afterHeader : Bool := false
  deriving DecidableEq, Repr, Inhabited

/-- The signature at the start of a line. -/
def signatureOf (line : Text) : Except Cause Signature :=
  match line.indexOf? ")>" with
  | none => .error .unterminatedSignature
  | some position =>
      let written := line.take (position + 2)
      match Signature.parse written with
      | .ok sig => .ok sig
      | .error cause => .error (.badSignature written cause)

/-- Reads a line, where `wanted` tells the permissions whose sections are read. -/
def step (wanted : Text → Bool) (state : State) : Line → Except Cause State
  | .ignored => .ok state
  | .header permission =>
      if permission.isEmpty then .error .emptyPermission
      else .ok { state with
        owner := if wanted permission then some permission else none
        afterHeader := true }
  | .other =>
      if state.afterHeader then .ok { state with afterHeader := false }
      else .ok { state with owner := none }
  | .method line => do
      let state := { state with afterHeader := false }
      match state.owner with
      | none => return state
      | some permission =>
          return { state with catalog := state.catalog.add (← signatureOf line) permission }

/-- A line has fewer bytes than this. -/
def lineLimit : Nat := 1024 * 1024

def readLines (wanted : Text → Bool) : Nat → State → List Text → Except Error State
  | _, state, [] => .ok state
  | before, state, line :: rest =>
      if line.length ≥ lineLimit then .error ⟨before, .lineTooLong⟩
      else match step wanted state (Line.ofText line) with
        | .error cause => .error ⟨before + 1, cause⟩
        | .ok state => readLines wanted (before + 1) state rest

/-- Reads a mapping. If permissions are given, only their sections are read. -/
def read (t : Text) (permissions : List Text) : Except Error Catalog :=
  let wanted := fun permission => permissions.isEmpty || permissions.contains permission
  (readLines wanted 0 {} t.lines).map State.catalog

end PermissionGuard.Mapping
