import PermissionGuard.Text.Printable

/-!
Quoted text: a double-quoted form in which quotes, backslashes, unprintable characters and stray
bytes are written as escapes.
-/

namespace PermissionGuard.Text

private def hexDigit (n : Nat) : UInt8 :=
  (if n < 10 then 0x30 + n else 0x57 + n).toUInt8

/-- The last `width` hexadecimal digits of a number, in lower case. -/
def hex (width n : Nat) : Text :=
  (List.range width).map fun i => hexDigit (n / Nat.pow 16 (width - 1 - i) % 16)

/-- The escape of a character that is not written as itself. -/
def escapeChar (c : Char) : Text :=
  match c.toNat with
  | 0x07 => "\\a"
  | 0x08 => "\\b"
  | 0x0C => "\\f"
  | 0x0A => "\\n"
  | 0x0D => "\\r"
  | 0x09 => "\\t"
  | 0x0B => "\\v"
  | code =>
    if code < 0x20 || code == 0x7F then "\\x" ++ hex 2 code
    else if code < 0x10000 then "\\u" ++ hex 4 code
    else "\\U" ++ hex 8 code

/-- A piece of text as it stands between quotes, where `printable` characters stand for
themselves. -/
def quotePiece (printable : Char → Bool) : Piece → Text
  | .stray b => "\\x" ++ hex 2 b.toNat
  | .char c =>
      if c = '"' then "\\\""
      else if c = '\\' then "\\\\"
      else if printable c then ofChars [c]
      else escapeChar c

/-- A text as it stands between quotes. -/
def escapeWith (printable : Char → Bool) (t : Text) : Text :=
  t.pieces.flatMap (quotePiece printable)

/-- A text without control characters, from which it can be read back. -/
def sanitize (t : Text) : Text := escapeWith isPrintable t

/-- A text between double quotes. -/
def quote (t : Text) : Text := "\"" ++ t.sanitize ++ "\""

end PermissionGuard.Text
