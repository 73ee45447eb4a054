import PermissionGuard.Signature.Basic
import PermissionGuard.Text.Blank
import PermissionGuard.Text.Quoted

/-!
Reading a signature from its written form. Blanks around the components are ignored, and the types
may contain bracketed lists.
-/

namespace PermissionGuard.Signature

/-- Why a text is not a signature. -/
inductive ParseError where
  | notEnclosed
  | noClass
  | malformedParams
  | noReturnTypeOrName
  | emptyParam
  deriving DecidableEq, Repr

def ParseError.message (input : Text) : ParseError → Text
  | .notEnclosed => "signature " ++ input.quote ++ " is not enclosed in <>"
  | .noClass => "signature " ++ input.quote ++ " has no declaring class"
  | .malformedParams => "signature " ++ input.quote ++ " has a malformed parameter list"
  | .noReturnTypeOrName => "signature " ++ input.quote ++ " should have a return type and a name"
  | .emptyParam => "signature " ++ input.quote ++ " has an empty parameter type"

/-- Scans a reversed text for the parenthesis that opens the level closed first. The first number
counts the open levels, the second the bytes passed. -/
def openingFrom : Int → Nat → Text → Option Nat
  | _, _, [] => none
  | depth, passed, b :: rest =>
      if b = 0x29 then openingFrom (depth + 1) (passed + 1) rest
      else if b = 0x28 then
        if depth = 1 then some passed else openingFrom (depth - 1) (passed + 1) rest
      else openingFrom depth (passed + 1) rest

/-- The position of the parenthesis that matches the last byte of a text. -/
def matchingOpen? (t : Text) : Option Nat :=
  (openingFrom 0 0 t.reverse).map (t.length - 1 - ·)

/-- Bytes that open a nested list: a parenthesis, a bracket or a brace. -/
def opens (b : UInt8) : Bool := b == 0x28 || b == 0x5B || b == 0x7B

/-- Bytes that close a nested list. -/
def closes (b : UInt8) : Bool := b == 0x29 || b == 0x5D || b == 0x7D

/-- Collects the parts between commas at depth zero; the part and the parts read so far are kept
in reverse. -/
def splitFrom (depth : Int) (part : Text) (parts : List Text) : Text → List Text
  | [] => (part.reverse :: parts).reverse
  | b :: rest =>
      if opens b then splitFrom (depth + 1) (b :: part) parts rest
      else if closes b then splitFrom (depth - 1) (b :: part) parts rest
      else if b = 0x2C ∧ depth = 0 then splitFrom depth [] (part.reverse :: parts) rest
      else splitFrom depth (b :: part) parts rest

/-- The parts between the commas that are not nested in brackets. -/
def splitTopLevel (t : Text) : List Text := splitFrom 0 [] [] t

/-- The parameter types of the text between the parentheses. -/
def parseParams (inside : Text) : Except ParseError (List Text) :=
  if inside.trim.isEmpty then .ok []
  else
    let params := (splitTopLevel inside.trim).map Text.trim
    if params.any List.isEmpty then .error .emptyParam else .ok params

/-- The return type and the name in front of the parameter list. -/
def parseHead (head : Text) : Except ParseError (Text × Text) :=
  match head.lastIndexOf? 0x20 with
  | none => .error .noReturnTypeOrName
  | some space =>
      if space = 0 ∨ space = head.length - 1 then .error .noReturnTypeOrName
      else .ok (Text.trim (head.take space), head.drop (space + 1))

/-- Reads `ReturnType Name(p1,p2)` as a method of a class. -/
def parseBody (className body : Text) : Except ParseError Signature :=
  if !body.endsWith ")" then .error .malformedParams
  else match matchingOpen? body with
    | none => .error .malformedParams
    | some opening => do
      let (returnType, name) ← parseHead (Text.trim (body.take opening))
      let params ← parseParams ((body.drop (opening + 1)).take (body.length - opening - 2))
      .ok { className, name, returnType, params }

/-- Reads `<Class: ReturnType Name(p1,p2)>`. -/
def parse (input : Text) : Except ParseError Signature :=
  let t := input.trim
  if !(t.startsWith "<" && t.endsWith ">") then .error .notEnclosed
  else
    let inner : Text := (t.drop 1).take (t.length - 2)
    match inner.indexOf? ": " with
    | none => .error .noClass
    | some 0 => .error .noClass
    | some colon => parseBody (Text.trim (inner.take colon)) (Text.trim (inner.drop (colon + 2)))

end PermissionGuard.Signature
