import PermissionGuard.Text.Basic

/-!
White space at the ends of a text. The blanks are the characters with the Unicode property
White_Space, and each of them has one, two or three bytes.
-/

namespace PermissionGuard.Text

/-- Tab, line feed, vertical tab, form feed, carriage return and space. -/
def isBlank (b : UInt8) : Bool := b == 0x20 || (0x09 ≤ b && b ≤ 0x0D)

/-- The blanks of two bytes: next line and no-break space. -/
def isBlankPair (a b : UInt8) : Bool := a == 0xC2 && (b == 0x85 || b == 0xA0)

/-- The blanks of three bytes: U+1680, U+2000 to U+200A, U+2028, U+2029, U+202F, U+205F and
U+3000. -/
def isBlankTriple (a b c : UInt8) : Bool :=
  (a == 0xE1 && b == 0x9A && c == 0x80)
    || (a == 0xE2 && b == 0x80
        && ((0x80 ≤ c && c ≤ 0x8A) || c == 0xA8 || c == 0xA9 || c == 0xAF))
    || (a == 0xE2 && b == 0x81 && c == 0x9F)
    || (a == 0xE3 && b == 0x80 && c == 0x80)

/-- Drops the blanks in front, where `pair` and `triple` recognise the longer ones. -/
def dropBlanks (pair : UInt8 → UInt8 → Bool) (triple : UInt8 → UInt8 → UInt8 → Bool) :
    Text → Text
  | [] => []
  | a :: rest =>
      if isBlank a then dropBlanks pair triple rest
      else match rest with
        | [] => [a]
        | b :: rest₂ =>
          if pair a b then dropBlanks pair triple rest₂
          else match rest₂ with
            | [] => [a, b]
            | c :: rest₃ =>
              if triple a b c then dropBlanks pair triple rest₃ else a :: b :: c :: rest₃

def trimStart (t : Text) : Text := dropBlanks isBlankPair isBlankTriple t

def trimEnd (t : Text) : Text :=
  (dropBlanks (fun b a => isBlankPair a b) (fun c b a => isBlankTriple a b c) t.reverse).reverse

/-- A text without the blanks at its ends. -/
def trim (t : Text) : Text := t.trimStart.trimEnd

end PermissionGuard.Text
