import PermissionGuard.Yaml.Fault

/-!
A place in a document: the characters that are left, and how many lines and columns precede them.
-/

namespace PermissionGuard.Yaml

/-- A line break: line feed, carriage return, next line, line separator or paragraph separator. -/
def isBreak (c : Char) : Bool :=
  c == '\n' || c == '\r' || c.toNat == 0x85 || c.toNat == 0x2028 || c.toNat == 0x2029

/-- A space or a tab. -/
def isBlankChar (c : Char) : Bool := c == ' ' || c == '\t'

/-- The characters of anchors and of the names of directives. -/
def isWordChar (c : Char) : Bool := c.isAlphanum || c == '_' || c == '-'

/-- Whether nothing, a blank or a line break comes first. -/
def startsBlank : List Char → Bool
  | [] => true
  | c :: _ => isBlankChar c || isBreak c

/-- Whether nothing or a line break comes first. -/
def startsBreak : List Char → Bool
  | [] => true
  | c :: _ => isBreak c

structure Cursor where
  rest : List Char
  index : Nat := 0
  line : Nat := 0
  column : Nat := 0
  /-- The line breaks since the last character that is neither blank nor break. -/
  newlines : Nat := 0
  deriving Inhabited

namespace Cursor

/-- Passes one character of a line. -/
def skip (cur : Cursor) : Cursor :=
  match cur.rest with
  | [] => cur
  | c :: rest => { cur with
      rest, index := cur.index + 1, column := cur.column + 1
      newlines := if isBlankChar c then cur.newlines else 0 }

def skipBy : Nat → Cursor → Cursor
  | 0, cur => cur
  | n + 1, cur => skipBy n cur.skip

/-- Passes a line break; carriage return and line feed together are one. -/
def skipBreak (cur : Cursor) : Cursor :=
  match cur.rest with
  | '\r' :: '\n' :: rest => { cur with
      rest, index := cur.index + 2, line := cur.line + 1, column := 0, newlines := cur.newlines + 1 }
  | c :: rest =>
      if isBreak c then { cur with
        rest, index := cur.index + 1, line := cur.line + 1, column := 0
        newlines := cur.newlines + 1 }
      else cur
  | [] => cur

/-- The characters that a line break contributes to a scalar. -/
def breakText : List Char → List Char
  | [] => []
  | c :: _ =>
      if c.toNat == 0x2028 || c.toNat == 0x2029 then [c] else if isBreak c then ['\n'] else []

/-- Passes the characters in front that satisfy a test and gives them. -/
def takeWhile (cur : Cursor) (test : Char → Bool) : List Char × Cursor :=
  let passed := cur.rest.takeWhile test
  (passed, cur.skipBy passed.length)

def skipWhile (cur : Cursor) (test : Char → Bool) : Cursor := (cur.takeWhile test).2

/-- Passes everything up to the end of the line. -/
def skipToBreak (cur : Cursor) : Cursor := cur.skipWhile (!isBreak ·)

def head? (cur : Cursor) : Option Char := cur.rest.head?

def startsWith (cur : Cursor) (start : List Char) : Bool := start.isPrefixOf cur.rest

/-- Whether a line with three dashes or three dots begins here. -/
def atDocumentIndicator (cur : Cursor) : Bool :=
  cur.column == 0 && (cur.startsWith ['-', '-', '-'] || cur.startsWith ['.', '.', '.'])
    && startsBlank (cur.rest.drop 3)

/-- A problem found while reading what began at line `context`. -/
def fault (context : Nat) (cur : Cursor) (problem : Text) : Fault :=
  let line := if context ≠ 0 then context + 1 else if cur.line ≠ 0 then cur.line + 1 else 0
  ⟨line, problem⟩

end Cursor

end PermissionGuard.Yaml
