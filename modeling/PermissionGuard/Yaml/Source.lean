import PermissionGuard.Text.Utf8
import PermissionGuard.Yaml.Fault

/-!
The characters of a document. A byte order mark selects UTF-16, and all other documents are UTF-8.
-/

namespace PermissionGuard.Yaml

/-- The characters that may stand in a document. -/
def isAllowed (c : Char) : Bool :=
  let code := c.toNat
  code == 0x09 || code == 0x0A || code == 0x0D || (0x20 ≤ code && code ≤ 0x7E) || code == 0x85
    || (0xA0 ≤ code && code ≤ 0xFFFD) || 0x10000 ≤ code

/-- The 16-bit units of a text, with `join` putting two bytes together. -/
def units (join : UInt8 → UInt8 → Nat) : Text → Option (List Nat)
  | [] => some []
  | [_] => none
  | a :: b :: rest => (units join rest).map (join a b :: ·)

/-- The characters of a sequence of 16-bit units. -/
def charsOfUnits : List Nat → Option (List Char)
  | [] => some []
  | unit :: rest =>
      if unit < 0xD800 || 0xE000 ≤ unit then (charsOfUnits rest).map (Char.ofNat unit :: ·)
      else match rest with
        | [] => none
        | low :: rest =>
            if unit < 0xDC00 && 0xDC00 ≤ low && low < 0xE000 then
              let code := 0x10000 + (unit - 0xD800) * 0x400 + (low - 0xDC00)
              (charsOfUnits rest).map (Char.ofNat code :: ·)
            else none

/-- What is wrong with a text that does not start with a character of UTF-8. -/
def encodingProblem (t : Text) : Text :=
  let lead := (t.head?.getD 0).toNat
  let width := if lead < 0xC0 then 0 else if lead < 0xE0 then 2 else if lead < 0xF0 then 3
    else if lead < 0xF8 then 4 else 0
  if width = 0 then "invalid leading UTF-8 octet"
  else if t.length < width then "incomplete UTF-8 octet sequence"
  else if !((t.drop 1).take (width - 1)).all Text.Utf8.isTail then "invalid trailing UTF-8 octet"
  else
    let second := ((t.drop 1).head?.getD 0).toNat
    let isOverlong := lead < 0xC2 || (lead = 0xE0 && second < 0xA0) || (lead = 0xF0 && second < 0x90)
    if isOverlong then "invalid length of a UTF-8 sequence" else "invalid Unicode character"

/-- The characters of a UTF-8 document, if all of them are allowed. -/
def utf8Chars (t : Text) : Except Fault (List Char) :=
  let pieces := t.pieces
  let chars := (pieces.takeWhile Text.Piece.isChar).map Text.Piece.toChar
  if !chars.all isAllowed then .error ⟨0, "control characters are not allowed"⟩
  else if chars.length = pieces.length then .ok chars
  else .error ⟨0, encodingProblem (t.drop (Text.ofChars chars).length)⟩

/-- The characters of a UTF-16 document, if all of them are allowed. -/
def utf16Chars (join : UInt8 → UInt8 → Nat) (t : Text) : Except Fault (List Char) :=
  match (units join t).bind charsOfUnits with
  | none => .error ⟨0, "incomplete UTF-16 character"⟩
  | some chars =>
      if chars.all isAllowed then .ok chars
      else .error ⟨0, "control characters are not allowed"⟩

/-- The characters of a document without its byte order mark. -/
def sourceChars (t : Text) : Except Fault (List Char) :=
  match t with
  | 0xFF :: 0xFE :: rest => utf16Chars (fun a b => a.toNat + 256 * b.toNat) rest
  | 0xFE :: 0xFF :: rest => utf16Chars (fun a b => 256 * a.toNat + b.toNat) rest
  | 0xEF :: 0xBB :: 0xBF :: rest => utf8Chars rest
  | _ => utf8Chars t

end PermissionGuard.Yaml
