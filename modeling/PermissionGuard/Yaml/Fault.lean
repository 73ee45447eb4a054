import PermissionGuard.Text.Basic

/-!
Why a document cannot be read.
-/

namespace PermissionGuard.Yaml

/-- A document that is not well-formed: the line of the problem, counted from 1, or 0 if there is
none to give, and what is wrong. -/
structure Fault where
  line : Nat
  problem : Text
  deriving DecidableEq, Repr

def Fault.message (fault : Fault) : Text :=
  if fault.line = 0 then "yaml: " ++ fault.problem
  else "yaml: line " ++ Text.ofNat fault.line ++ ": " ++ fault.problem

/-- Why a value was not obtained from a document. -/
inductive DecodeError where
  /-- The document is not well-formed. -/
  | malformed (fault : Fault)
  /-- Parts of the document do not have the expected type; all of them, in document order. -/
  | mismatched (mismatches : List Text)
  deriving DecidableEq, Repr

def DecodeError.message : DecodeError → Text
  | .malformed fault => fault.message
  | .mismatched mismatches =>
      "yaml: unmarshal errors:\n  " ++ Text.join "\n  " mismatches

end PermissionGuard.Yaml
