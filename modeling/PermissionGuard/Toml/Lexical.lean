import PermissionGuard.Number.Double
import PermissionGuard.Text.Utf8

/-!
The written forms of keys and simple values in TOML documents, over the characters of a document.
-/

namespace PermissionGuard.Toml

/-- Control characters other than tab and line breaks. -/
def isControl (c : Char) : Bool :=
  c != '\t' && c != '\n' && c != '\r' && (c.toNat < 0x20 || c.toNat == 0x7F)

/-- Whether every carriage return stands before a line feed and no other control character
occurs. -/
def isClean : List Char → Bool
  | [] => true
  | '\r' :: '\n' :: rest => isClean rest
  | c :: rest => c != '\r' && !isControl c && isClean rest

def isSpace (c : Char) : Bool := c == ' ' || c == '\t'

def isNewline (c : Char) : Bool := c == '\n' || c == '\r'

def skipSpaces (cs : List Char) : List Char := cs.dropWhile isSpace

/-- Passes a comment, if there is one, up to the end of its line. -/
def skipComment : List Char → List Char
  | '#' :: rest => rest.dropWhile (!isNewline ·)
  | cs => cs

/-- Passes blanks, line breaks and comments. -/
def skipBlankLines : Nat → List Char → List Char
  | 0, cs => cs
  | fuel + 1, cs =>
      match cs.dropWhile fun c => isSpace c || isNewline c with
      | '#' :: rest => skipBlankLines fuel (skipComment ('#' :: rest))
      | cs => cs

def isBareKeyChar (c : Char) : Bool := c.isAlphanum || c == '_' || c == '-'

private def hexDigit? (c : Char) : Option Nat :=
  if c.isDigit then some (c.toNat - 0x30)
  else if 'a' ≤ c && c ≤ 'f' then some (c.toNat - 0x57)
  else if 'A' ≤ c && c ≤ 'F' then some (c.toNat - 0x37)
  else none

/-- The character with a code of a fixed number of hexadecimal digits. -/
def codePoint? (width : Nat) (cs : List Char) : Option (Char × List Char) := do
  let written := cs.take width
  if written.length < width then none
  let code ← written.foldlM (fun n c => (hexDigit? c).map (n * 16 + ·)) 0
  if (0xD800 ≤ code && code ≤ 0xDFFF) || code > 0x10FFFF then none
  some (Char.ofNat code, cs.drop width)

/-- The character of an escape after its backslash. -/
def escape? : List Char → Option (Char × List Char)
  | 'b' :: rest => some (Char.ofNat 8, rest)
  | 't' :: rest => some ('\t', rest)
  | 'n' :: rest => some ('\n', rest)
  | 'f' :: rest => some (Char.ofNat 12, rest)
  | 'r' :: rest => some ('\r', rest)
  | '"' :: rest => some ('"', rest)
  | '\\' :: rest => some ('\\', rest)
  | 'u' :: rest => codePoint? 4 rest
  | 'U' :: rest => codePoint? 8 rest
  | _ => none

/-- A basic string after its opening quote; the characters so far are reversed. -/
def basicString : Nat → List Char → List Char → Option (List Char × List Char)
  | 0, _, _ => none
  | fuel + 1, acc, cs =>
      match cs with
      | [] => none
      | '"' :: rest => some (acc.reverse, rest)
      | '\\' :: rest => do
          let (c, rest) ← escape? rest
          basicString fuel (c :: acc) rest
      | c :: rest => if isNewline c then none else basicString fuel (c :: acc) rest

/-- A literal string after its opening quote. -/
def literalString (cs : List Char) : Option (List Char × List Char) :=
  let body := cs.takeWhile fun c => c != '\'' && !isNewline c
  match cs.drop body.length with
  | '\'' :: rest => some (body, rest)
  | _ => none

/-- Passes the line break right after the opening of a multi-line string. -/
def skipFirstNewline : List Char → List Char
  | '\n' :: rest => rest
  | '\r' :: '\n' :: rest => rest
  | cs => cs

/-- The end of a multi-line string: three quotes, with up to two more of them that belong to the
string. Gives the quotes that belong to it. -/
def closing? (quote : Char) (cs : List Char) : Option (List Char × List Char) :=
  let quotes := cs.takeWhile (· == quote)
  if quotes.length < 3 || quotes.length > 5 then none
  else some (quotes.drop 3, cs.drop quotes.length)

/-- A multi-line basic string after its opening and first line break. A backslash at the end of a
line hides the line break and all blanks up to the next text. -/
def multilineBasic : Nat → List Char → List Char → Option (List Char × List Char)
  | 0, _, _ => none
  | fuel + 1, acc, cs =>
      match cs with
      | [] => none
      | '"' :: rest =>
          if ['"', '"', '"'].isPrefixOf cs then do
            let (more, rest) ← closing? '"' cs
            some ((more ++ acc).reverse, rest)
          else multilineBasic fuel ('"' :: acc) rest
      | '\\' :: rest =>
          let gap := rest.takeWhile fun c => isSpace c || isNewline c
          if gap.any isNewline then multilineBasic fuel acc (rest.drop gap.length)
          else do
            let (c, rest) ← escape? rest
            multilineBasic fuel (c :: acc) rest
      | c :: rest => multilineBasic fuel (c :: acc) rest

/-- A multi-line literal string after its opening and first line break. -/
def multilineLiteral : Nat → List Char → List Char → Option (List Char × List Char)
  | 0, _, _ => none
  | fuel + 1, acc, cs =>
      match cs with
      | [] => none
      | c :: rest =>
          if ['\'', '\'', '\''].isPrefixOf cs then do
            let (more, rest) ← closing? '\'' cs
            some ((more ++ acc).reverse, rest)
          else multilineLiteral fuel (c :: acc) rest

/-- A part of a key: bare, or a string on one line. -/
def keyPart? (cs : List Char) : Option (Text × List Char) :=
  match cs with
  | '"' :: rest => (basicString (rest.length + 1) [] rest).map fun (t, rest) => (Text.ofChars t, rest)
  | '\'' :: rest => (literalString rest).map fun (t, rest) => (Text.ofChars t, rest)
  | _ =>
      let bare := cs.takeWhile isBareKeyChar
      if bare.isEmpty then none else some (Text.ofChars bare, cs.drop bare.length)

/-- The parts of a key that dots divide, with blanks around them. -/
def key? : Nat → List Char → Option (List Text × List Char)
  | 0, _ => none
  | fuel + 1, cs => do
      let (part, rest) ← keyPart? (skipSpaces cs)
      match skipSpaces rest with
      | '.' :: rest =>
          let (parts, rest) ← key? fuel rest
          some (part :: parts, rest)
      | rest => some ([part], rest)

/-- Underscores stand between digits only, and a digit comes last. -/
def underscoresOk (t : List Char) : Bool :=
  let (ok, digit) := t.foldl
    (fun (ok, digit) c => (ok && (c != '_' || digit), (hexDigit? c).isSome)) (true, false)
  ok && digit

/-- Decimal numbers other than zero do not begin with a zero. -/
def hasLeadingZero : List Char → Bool
  | '0' :: c :: _ => !(c == 'b' || c == 'o' || c == 'x')
  | '-' :: '0' :: _ :: _ => true
  | '+' :: '0' :: _ :: _ => true
  | _ => false

private def stripUnderscores (t : List Char) : Text := Text.ofChars (t.filter (· != '_'))

/-- The value of an integer of 64 bits. -/
def integer? (t : List Char) : Option Int :=
  if !underscoresOk t || hasLeadingZero t then none else Number.int64? (stripUnderscores t)

/-- Whether digits stand on both sides of every point. -/
def pointsOk (t : List Char) : Bool :=
  let (ok, point) := t.foldl
    (fun (ok, point) c => (ok && (!point || c.isDigit), c == '.')) (true, false)
  ok && !point

private def endsFloatPart (c : Char) : Bool := c == '.' || c == 'e' || c == 'E'

/-- The parts of a float between its points and exponent marks. -/
private def floatParts (t : List Char) : List (List Char) :=
  (t.splitBy fun a b => !endsFloatPart a && !endsFloatPart b).filter fun part =>
    !part.any endsFloatPart

/-- Whether a text is a float within the range of doubles. -/
def isFloat (t : List Char) : Bool :=
  (floatParts t).all underscoresOk && !((floatParts t).head?.any hasLeadingZero) && pointsOk t
    && (Number.double? (stripUnderscores t)).isSome

private def digitsAt (t : List Char) (count : Nat) : Option (Nat × List Char) :=
  let written := t.take count
  if written.length = count && written.all Char.isDigit then
    some (written.foldl (fun n c => n * 10 + (c.toNat - 0x30)) 0, t.drop count)
  else none

private def expect (c : Char) : List Char → Option (List Char)
  | d :: rest => if c = d then some rest else none
  | [] => none

private def date? (t : List Char) : Option (List Char) := do
  let (year, t) ← digitsAt t 4
  let (month, t) ← digitsAt (← expect '-' t) 2
  let (day, t) ← digitsAt (← expect '-' t) 2
  let leap := year % 4 == 0 && (year % 100 != 0 || year % 400 == 0)
  let days := if month = 2 then (if leap then 29 else 28)
    else if [4, 6, 9, 11].contains month then 30 else 31
  if month = 0 || month > 12 || day = 0 || day > days then none
  some t

private def time? (t : List Char) : Option (List Char) := do
  let (hour, t) ← digitsAt t 2
  let (minute, t) ← digitsAt (← expect ':' t) 2
  let (second, t) ← digitsAt (← expect ':' t) 2
  if hour > 23 || minute > 59 || second > 59 then none
  match t with
  | '.' :: d :: rest => if d.isDigit then some (rest.dropWhile Char.isDigit) else some t
  | _ => some t

private def offset? : List Char → Option (List Char)
  | [] => some []
  | 'Z' :: rest => some rest
  | 'z' :: rest => some rest
  | sign :: rest => do
      if sign != '+' && sign != '-' then none
      let (hours, rest) ← digitsAt rest 2
      let (minutes, rest) ← digitsAt (← expect ':' rest) 2
      if hours > 24 || minutes > 60 then none
      some rest

/-- Whether a text is a date, a time, or both with an optional offset. -/
def isDatetime (t : List Char) : Bool :=
  let whole : Option (List Char) := do
    match date? t with
    | none => time? t
    | some [] => some []
    | some (mark :: rest) =>
        if mark == 'T' || mark == 't' || mark == ' ' then (time? rest).bind offset? else none
  whole == some []

end PermissionGuard.Toml
