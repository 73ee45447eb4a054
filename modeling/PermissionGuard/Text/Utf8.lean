import PermissionGuard.Text.Basic

/-!
Reading a text as UTF-8. Every text splits into characters and stray bytes, and writing the
pieces back gives the text again.
-/

namespace PermissionGuard.Text

/-- A piece of a text: an encoded character, or a byte that belongs to none. -/
inductive Piece where
  | char (c : Char)
  | stray (b : UInt8)
  deriving DecidableEq, Repr, Inhabited

namespace Utf8

/-- Bytes that continue an encoded character. -/
def isTail (b : UInt8) : Bool := 0x80 ≤ b && b ≤ 0xBF

private def bits (b : UInt8) (count : Nat) : Nat := b.toNat % Nat.pow 2 count

/-- The character of a lead byte and one more byte. -/
def two? (a b : UInt8) : Option Char :=
  if 0xC2 ≤ a && a ≤ 0xDF && isTail b then
    some (Char.ofNat (bits a 5 * 64 + bits b 6))
  else none

/-- The character of a lead byte and two more bytes. Surrogates and overlong forms have none. -/
def three? (a b c : UInt8) : Option Char :=
  if 0xE0 ≤ a && a ≤ 0xEF && isTail b && isTail c
      && (a != 0xE0 || 0xA0 ≤ b) && (a != 0xED || b ≤ 0x9F) then
    some (Char.ofNat (bits a 4 * 4096 + bits b 6 * 64 + bits c 6))
  else none

/-- The character of a lead byte and three more bytes, at most the last code point. -/
def four? (a b c d : UInt8) : Option Char :=
  if 0xF0 ≤ a && a ≤ 0xF4 && isTail b && isTail c && isTail d
      && (a != 0xF0 || 0x90 ≤ b) && (a != 0xF4 || b ≤ 0x8F) then
    some (Char.ofNat (bits a 3 * 262144 + bits b 6 * 4096 + bits c 6 * 64 + bits d 6))
  else none

/-- The character that starts with byte `a`, and how many of the bytes after `a` belong to it. -/
def char? (a : UInt8) (rest : Text) : Option (Char × Nat) :=
  if a < 0x80 then some (Char.ofNat a.toNat, 0)
  else match rest with
    | [] => none
    | b :: rest₂ => (two? a b).map (·, 1) <|> match rest₂ with
      | [] => none
      | c :: rest₃ => (three? a b c).map (·, 2) <|> match rest₃ with
        | [] => none
        | d :: _ => (four? a b c d).map (·, 3)

end Utf8

/-- The pieces of a text after the given number of bytes. -/
def piecesAfter : Nat → Text → List Piece
  | _, [] => []
  | skip + 1, _ :: rest => piecesAfter skip rest
  | 0, a :: rest =>
      match Utf8.char? a rest with
      | some (c, more) => .char c :: piecesAfter more rest
      | none => .stray a :: piecesAfter 0 rest

/-- The pieces of a text. A byte that starts no character is a piece of its own, and reading goes
on with the byte after it. -/
def pieces (t : Text) : List Piece := piecesAfter 0 t

def Piece.isChar : Piece → Bool
  | .char _ => true
  | .stray _ => false

/-- The character of a piece, with the replacement character for a stray byte. -/
def Piece.toChar : Piece → Char
  | .char c => c
  | .stray _ => Char.ofNat 0xFFFD

/-- The characters of a text, with the replacement character for every stray byte. -/
def chars (t : Text) : List Char := t.pieces.map Piece.toChar

/-- The characters of a text that is valid UTF-8. -/
def chars? (t : Text) : Option (List Char) :=
  t.pieces.mapM fun
    | .char c => some c
    | .stray _ => none

end PermissionGuard.Text
