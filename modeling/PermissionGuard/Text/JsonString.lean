import PermissionGuard.Text.Quoted

/-!
Strings in JSON, written so that they can stand in a web page: the characters that mark up a page
and the separators of lines and paragraphs are escaped as well.
-/

namespace PermissionGuard.Text

/-- The four digits of an escaped character. -/
def jsonCode (code : Nat) : Text := "\\u" ++ hex 4 code

def jsonPiece : Piece → Text
  | .stray _ => "\\ufffd"
  | .char c =>
      match c.toNat with
      | 0x22 => "\\\""
      | 0x5C => "\\\\"
      | 0x08 => "\\b"
      | 0x0C => "\\f"
      | 0x0A => "\\n"
      | 0x0D => "\\r"
      | 0x09 => "\\t"
      | code =>
          if code < 0x20 || [0x3C, 0x3E, 0x26, 0x2028, 0x2029].contains code then jsonCode code
          else ofChars [c]

/-- A text as a JSON string. Stray bytes become replacement characters. -/
def jsonString (t : Text) : Text := "\"" ++ t.pieces.flatMap jsonPiece ++ "\""

end PermissionGuard.Text
