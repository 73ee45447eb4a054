/-!
Texts are byte strings. Lengths, positions and comparisons count bytes, and a text need not be
valid UTF-8.
-/

namespace PermissionGuard

/-- A text is a sequence of bytes, ordered lexicographically. -/
abbrev Text := List UInt8

namespace Text

/-- The UTF-8 bytes of a string. -/
def ofString (s : String) : Text := s.toUTF8.data.toList

instance : Coe String Text := ⟨ofString⟩

instance : LawfulBEq Text := inferInstance

/-- The bytes of a list of characters. -/
def ofChars (cs : List Char) : Text := cs.flatMap String.utf8EncodeChar

/-- The decimal digits of a number, with a sign in front when it is negative. -/
def ofInt (n : Int) : Text := ofString (toString n)

/-- The decimal digits of a natural number. -/
def ofNat (n : Nat) : Text := ofString (toString n)

def startsWith (t start : Text) : Bool := start.isPrefixOf t

def endsWith (t ending : Text) : Bool := ending.isSuffixOf t

/-- The position of the first occurrence of a pattern, when the text starts at a position. -/
def indexFrom (pattern : Text) : Nat → Text → Option Nat
  | position, [] => if pattern.isEmpty then some position else none
  | position, b :: rest =>
      if pattern.isPrefixOf (b :: rest) then some position else indexFrom pattern (position + 1) rest

/-- The position of the first occurrence of a pattern. -/
def indexOf? (t pattern : Text) : Option Nat := indexFrom pattern 0 t

def contains (t pattern : Text) : Bool := (t.indexOf? pattern).isSome

/-- The position of the last occurrence of a byte. -/
def lastIndexOf? (t : Text) (b : UInt8) : Option Nat :=
  let after := t.reverse.takeWhile (· != b)
  if after.length < t.length then some (t.length - 1 - after.length) else none

/-- The parts joined with a separator between each two of them. -/
def join (separator : Text) : List Text → Text
  | [] => []
  | part :: parts => part ++ parts.flatMap (separator ++ ·)

private def splitLoop (separator : UInt8) (part : Text) (parts : List Text) : Text → List Text
  | [] => (part.reverse :: parts).reverse
  | b :: rest =>
      if b = separator then splitLoop separator [] (part.reverse :: parts) rest
      else splitLoop separator (b :: part) parts rest

/-- The parts between the occurrences of a byte, which are one more than the occurrences. -/
def splitOn (t : Text) (separator : UInt8) : List Text := splitLoop separator [] [] t

/-- The lines of a text without the newlines that end them. The last line needs none. -/
def lines (t : Text) : List Text :=
  let parts := t.splitOn 0x0A
  if parts.getLast? = some [] then parts.dropLast else parts

/-- Bytewise order. -/
def le (a b : Text) : Bool := !decide (b < a)

/-- Texts in increasing order, repetitions kept. -/
def sorted (texts : List Text) : List Text := texts.mergeSort le

/-- The first position of an increasing list, from `low` up to `high`, that holds no lesser text. It
is found by halving, with lesser texts before `low` and no lesser ones from `high` on. -/
def searchBetween (texts : List Text) (t : Text) (low high : Nat) : Nat :=
  if low < high then
    let middle := (low + high) / 2
    if texts.getD middle [] < t then searchBetween texts t (middle + 1) high
    else searchBetween texts t low middle
  else low
termination_by high - low

/-- The position of a text in an increasing list, or the one where it belongs. -/
def placeIn (texts : List Text) (t : Text) : Nat := searchBetween texts t 0 texts.length

/-- ASCII letters in lower case, all other bytes unchanged. -/
def lowerAscii (t : Text) : Text :=
  t.map fun b => if 0x41 ≤ b && b ≤ 0x5A then b + 0x20 else b

end Text

/-- Drops an element when it equals the one before it. -/
def dropAdjacent {α : Type} [BEq α] : List α → List α
  | [] => []
  | [a] => [a]
  | a :: b :: rest => if a == b then dropAdjacent (b :: rest) else a :: dropAdjacent (b :: rest)

/-- The elements of a list of texts, each once, in increasing order. -/
def Text.sortedSet (texts : List Text) : List Text := dropAdjacent (Text.sorted texts)

/-- The elements of a list of numbers, each once, in increasing order. -/
def sortedIds (ids : List Int) : List Int :=
  dropAdjacent (ids.mergeSort fun a b => decide (a ≤ b))

end PermissionGuard
