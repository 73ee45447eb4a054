import PermissionGuard.Yaml.Cursor

/-!
The scalars of a document: plain, quoted and block. Each reader starts at the first character of a
scalar and gives its characters and the place after it.
-/

namespace PermissionGuard.Yaml

inductive ScalarStyle where
  | plain
  | singleQuoted
  | doubleQuoted
  | literal
  | folded
  deriving DecidableEq, Repr

/-- The blanks and line breaks between two parts of a flow scalar. -/
structure Gap where
  /-- The blanks of a gap without line breaks, reversed. -/
  blanks : List Char := []
  /-- The first line break, and whether there was one at all. -/
  firstBreak : List Char := []
  folded : Bool := false
  /-- The line breaks after the first, reversed. -/
  moreBreaks : List Char := []

/-- What a gap contributes: one line break becomes a space, more of them lose the first, and
separators other than a line feed stay. In reverse. -/
def Gap.reversed (gap : Gap) : List Char :=
  if gap.folded then
    if gap.firstBreak == ['\n'] then
      if gap.moreBreaks.isEmpty then [' '] else gap.moreBreaks
    else gap.moreBreaks ++ gap.firstBreak
  else gap.blanks

/-- Reads blanks and line breaks. With `indent`, tabs before that column of a later line are
refused. -/
def readGap (context : Nat) (indent : Option Int) : Nat → Gap → Cursor → Except Fault (Gap × Cursor)
  | 0, gap, cur => .ok (gap, cur)
  | fuel + 1, gap, cur =>
      match cur.rest with
      | [] => .ok (gap, cur)
      | c :: _ =>
        if isBlankChar c then
          if gap.folded && c == '\t' && indent.any (fun i => (cur.column : Int) < i) then
            .error (cur.fault context "found a tab character that violates indentation")
          else
            let gap := if gap.folded then gap else { gap with blanks := c :: gap.blanks }
            readGap context indent fuel gap cur.skip
        else if isBreak c then
          let text := Cursor.breakText cur.rest
          let gap :=
            if gap.folded then { gap with moreBreaks := text ++ gap.moreBreaks }
            else { gap with blanks := [], firstBreak := text, folded := true }
          readGap context indent fuel gap cur.skipBreak
        else .ok (gap, cur)

/-- Whether a plain scalar ends at the character in front. -/
def endsPlain (inFlow : Bool) : List Char → Bool
  | [] => true
  | ':' :: rest => startsBlank rest
  | c :: _ => inFlow && ['?', ',', '[', ']', '\x7b', '\x7d'].contains c

/-- The characters of a plain scalar up to a blank, reversed in front of `acc`. -/
def readPlainRun (inFlow : Bool) : Nat → List Char → Cursor → List Char × Cursor
  | 0, acc, cur => (acc, cur)
  | fuel + 1, acc, cur =>
      match cur.rest with
      | [] => (acc, cur)
      | c :: _ =>
          if startsBlank cur.rest || endsPlain inFlow cur.rest then (acc, cur)
          else readPlainRun inFlow fuel (c :: acc) cur.skip

/-- Reads the runs and gaps of a plain scalar. `pending` is the gap since the last run. Also tells
whether the scalar ended after a line break. -/
def readPlainFrom (context : Nat) (inFlow : Bool) (indent : Int) :
    Nat → Gap → List Char → Cursor → Except Fault (List Char × Bool × Cursor)
  | 0, pending, acc, cur => .ok (acc, pending.folded, cur)
  | fuel + 1, pending, acc, cur => do
      if cur.atDocumentIndicator || cur.head? == some '#' then return (acc, pending.folded, cur)
      let stops := startsBlank cur.rest || endsPlain inFlow cur.rest
      let (acc', after) :=
        if stops then (acc, cur) else readPlainRun inFlow fuel (pending.reversed ++ acc) cur
      let pending : Gap := if stops then pending else {}
      if !(startsBlank after.rest && !after.rest.isEmpty) then
        return (acc', pending.folded, after)
      let (gap, next) ← readGap context (some indent) after.rest.length pending after
      if !inFlow && (next.column : Int) < indent then return (acc', gap.folded, next)
      readPlainFrom context inFlow indent fuel gap acc' next

/-- Reads a plain scalar of a block with the given indentation. -/
def readPlain (inFlow : Bool) (indent : Int) (cur : Cursor) :
    Except Fault (List Char × Bool × Cursor) := do
  let (acc, folded, next) ← readPlainFrom cur.line inFlow (indent + 1) (cur.rest.length + 1) {} [] cur
  return (acc.reverse, folded, next)

/-- The character of a one-letter escape. -/
def escapedChar : Char → Option Char
  | '0' => some (Char.ofNat 0)
  | 'a' => some (Char.ofNat 7)
  | 'b' => some (Char.ofNat 8)
  | 't' => some '\t'
  | '\t' => some '\t'
  | 'n' => some '\n'
  | 'v' => some (Char.ofNat 11)
  | 'f' => some (Char.ofNat 12)
  | 'r' => some '\r'
  | 'e' => some (Char.ofNat 27)
  | ' ' => some ' '
  | '"' => some '"'
  | '\'' => some '\''
  | '\\' => some '\\'
  | 'N' => some (Char.ofNat 0x85)
  | '_' => some (Char.ofNat 0xA0)
  | 'L' => some (Char.ofNat 0x2028)
  | 'P' => some (Char.ofNat 0x2029)
  | _ => none

/-- The number of hexadecimal digits after an escape letter. -/
def escapeWidth : Char → Option Nat
  | 'x' => some 2
  | 'u' => some 4
  | 'U' => some 8
  | _ => none

def hexValue? (c : Char) : Option Nat :=
  if c.isDigit then some (c.toNat - 0x30)
  else if 'a' ≤ c && c ≤ 'f' then some (c.toNat - 0x57)
  else if 'A' ≤ c && c ≤ 'F' then some (c.toNat - 0x37)
  else none

/-- The number written by hexadecimal digits. -/
def hexNumber? (digits : List Char) : Option Nat :=
  digits.foldlM (fun n c => (hexValue? c).map (n * 16 + ·)) 0

/-- The non-blank characters of a quoted scalar up to a blank or the closing quote, reversed in
front of `acc`. Also tells whether it stopped after an escaped line break. -/
def readQuotedRun (context : Nat) (single : Bool) :
    Nat → List Char → Cursor → Except Fault (List Char × Bool × Cursor)
  | 0, acc, cur => .ok (acc, false, cur)
  | fuel + 1, acc, cur =>
      if startsBlank cur.rest then .ok (acc, false, cur)
      else match cur.rest with
        | [] => .ok (acc, false, cur)
        | c :: rest =>
          if single then
            if c == '\'' then
              if rest.head? == some '\'' then
                readQuotedRun context single fuel ('\'' :: acc) cur.skip.skip
              else .ok (acc, false, cur)
            else readQuotedRun context single fuel (c :: acc) cur.skip
          else if c == '"' then .ok (acc, false, cur)
          else if c != '\\' then readQuotedRun context single fuel (c :: acc) cur.skip
          else match rest with
            | [] => .error (cur.fault context "found unknown escape character")
            | letter :: digits =>
              if isBreak letter then .ok (acc, true, cur.skip.skipBreak)
              else match escapedChar letter with
                | some value => readQuotedRun context single fuel (value :: acc) cur.skip.skip
                | none =>
                  match escapeWidth letter with
                  | none => .error (cur.fault context "found unknown escape character")
                  | some width =>
                    let written := digits.take width
                    match hexNumber? written with
                    | none => .error (cur.fault context "did not find expected hexdecimal number")
                    | some code =>
                      if written.length < width then
                        .error (cur.fault context "did not find expected hexdecimal number")
                      else if (0xD800 ≤ code && code ≤ 0xDFFF) || code > 0x10FFFF then
                        .error (cur.fault context "found invalid Unicode character escape code")
                      else
                        readQuotedRun context single fuel (Char.ofNat code :: acc)
                          (cur.skipBy (2 + width))

/-- Reads a quoted scalar after its opening quote, up to and with the closing quote. -/
def readQuotedFrom (context : Nat) (single : Bool) :
    Nat → List Char → Cursor → Except Fault (List Char × Cursor)
  | 0, _, cur => .error (cur.fault context "found unexpected end of stream")
  | fuel + 1, acc, cur => do
      if cur.atDocumentIndicator then
        throw (cur.fault context "found unexpected document indicator")
      if cur.rest.isEmpty then throw (cur.fault context "found unexpected end of stream")
      let (acc, escapedBreak, cur) ← readQuotedRun context single fuel acc cur
      if cur.head? == some (if single then '\'' else '"') then return (acc, cur.skip)
      let start : Gap := if escapedBreak then { folded := true } else {}
      let (gap, cur) ← readGap context none (cur.rest.length + 1) start cur
      readQuotedFrom context single fuel (gap.reversed ++ acc) cur

/-- Reads a quoted scalar. -/
def readQuoted (single : Bool) (cur : Cursor) : Except Fault (List Char × Cursor) := do
  let (acc, next) ← readQuotedFrom cur.line single (cur.rest.length + 1) [] cur.skip
  return (acc.reverse, next)

/-- What is done with the line breaks at the end of a block scalar. -/
inductive Chomping where
  | strip
  | clip
  | keep
  deriving DecidableEq, Repr

/-- The indicators after the first character of a block scalar: the chomping and the indentation,
which is 0 if it is to be found out. -/
def readBlockHeader (context : Nat) (cur : Cursor) : Except Fault (Chomping × Nat × Cursor) := do
  let chomp? (cur : Cursor) : Option Chomping :=
    match cur.head? with
    | some '+' => some .keep
    | some '-' => some .strip
    | _ => none
  let digit (cur : Cursor) : Except Fault (Nat × Cursor) :=
    match cur.head? with
    | some c =>
        if c == '0' then .error (cur.fault context "found an indentation indicator equal to 0")
        else if c.isDigit then .ok (c.toNat - 0x30, cur.skip)
        else .ok (0, cur)
    | none => .ok (0, cur)
  match chomp? cur with
  | some chomping =>
      let (increment, cur) ← digit cur.skip
      return (chomping, increment, cur)
  | none =>
      let (increment, after) ← digit cur
      match (if increment = 0 then none else chomp? after) with
      | some chomping => return (chomping, increment, after.skip)
      | none => return (.clip, increment, after)

/-- Passes indentation and empty lines of a block scalar. Gives the line breaks, reversed in front
of `breaks`, and the largest column seen. -/
def readBlockBreaks (context : Nat) (indent : Nat) :
    Nat → Nat → List Char → Cursor → Except Fault (List Char × Nat × Cursor)
  | 0, widest, breaks, cur => .ok (breaks, widest, cur)
  | fuel + 1, widest, breaks, cur =>
      let inside (cur : Cursor) : Bool := indent == 0 || cur.column < indent
      let room := if indent == 0 then cur.rest.length else indent - cur.column
      let spaces := (cur.rest.take room).takeWhile (· == ' ')
      let cur := cur.skipBy spaces.length
      let widest := max widest cur.column
      if inside cur && cur.head? == some '\t' then
        .error (cur.fault context "found a tab character where an indentation space is expected")
      else if !startsBreak cur.rest || cur.rest.isEmpty then .ok (breaks, widest, cur)
      else
        readBlockBreaks context indent fuel widest (Cursor.breakText cur.rest ++ breaks) cur.skipBreak

/-- Reads the lines of a block scalar. `lead` is the line break after the line before, `breaks` the
reversed line breaks of the empty lines since then. -/
def readBlockLines (context : Nat) (isLiteral : Bool) (indent : Nat) :
    Nat → Bool → List Char → List Char → List Char → Cursor →
      Except Fault (List Char × List Char × List Char × Cursor)
  | 0, _, lead, breaks, acc, cur => .ok (acc, lead, breaks, cur)
  | fuel + 1, wasBlank, lead, breaks, acc, cur => do
      if cur.column ≠ indent || cur.rest.isEmpty then return (acc, lead, breaks, cur)
      let isBlank := cur.head?.any isBlankChar
      let acc :=
        if !isLiteral && !wasBlank && !isBlank && lead == ['\n'] then
          if breaks.isEmpty then ' ' :: acc else acc
        else lead ++ acc
      let (line, cur) := cur.takeWhile (!isBreak ·)
      let acc := line.reverse ++ (breaks ++ acc)
      let lead := Cursor.breakText cur.rest
      let (breaks, _, next) ← readBlockBreaks context indent (cur.rest.length + 1) 0 [] cur.skipBreak
      readBlockLines context isLiteral indent fuel isBlank lead breaks acc next

/-- Reads a block scalar below a block with the given indentation. -/
def readBlock (isLiteral : Bool) (parent : Int) (cur : Cursor) :
    Except Fault (List Char × Cursor) := do
  let context := cur.line
  let (chomping, increment, cur) ← readBlockHeader context cur.skip
  let cur := cur.skipWhile isBlankChar
  let cur := if cur.head? == some '#' then cur.skipToBreak else cur
  if !startsBreak cur.rest then
    throw (cur.fault context "did not find expected comment or line break")
  let cur := cur.skipBreak
  let given := if increment = 0 then 0 else (max parent 0).toNat + increment
  let (breaks, widest, cur) ← readBlockBreaks context given (cur.rest.length + 1) 0 [] cur
  let indent := if given ≠ 0 then given else max widest (max (parent + 1).toNat 1)
  let (acc, lead, breaks, cur) ←
    readBlockLines context isLiteral indent (cur.rest.length + 1) false [] breaks [] cur
  let acc := if chomping = .strip then acc else lead ++ acc
  let acc := if chomping = .keep then breaks ++ acc else acc
  return (acc.reverse, cur)

end PermissionGuard.Yaml
