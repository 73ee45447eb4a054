import PermissionGuard.Pattern.Basic
import PermissionGuard.Pattern.Folding
import PermissionGuard.Pattern.Script
import PermissionGuard.Text.Category

/-!
The written form of patterns: characters, classes in brackets, groups, alternatives, repetitions,
anchors and escapes.
-/

namespace PermissionGuard.Pattern

/-- The switches of a pattern. -/
structure Flags where
  /-- Letters match in both cases. -/
  anyCase : Bool := false
  /-- The anchors match at lines too. -/
  multiLine : Bool := false
  /-- The dot matches a line feed too. -/
  dotAll : Bool := false
  deriving DecidableEq, Repr

/-- The largest number of repetitions, also of nested ones together. -/
def maxRepeat : Nat := 1000

/-- The deepest nesting of groups. -/
def maxNesting : Nat := 1000

def single (c : Char) : CharSet := { ranges := [(c.toNat, c.toNat)] }

/-- A range under the switches. -/
def rangeUnder (flags : Flags) (first last : Nat) : List (Nat × Nat) :=
  if flags.anyCase then foldRange (first, last) else [(first, last)]

def literal (flags : Flags) (c : Char) : Pattern :=
  .chars { ranges := rangeUnder flags c.toNat c.toNat }

def digits : List (Nat × Nat) := [(0x30, 0x39)]
def spaces : List (Nat × Nat) := [(0x09, 0x0A), (0x0C, 0x0D), (0x20, 0x20)]
def wordRanges : List (Nat × Nat) := [(0x30, 0x39), (0x41, 0x5A), (0x5F, 0x5F), (0x61, 0x7A)]

/-- The ranges outside of given ones. -/
def complement (ranges : List (Nat × Nat)) : List (Nat × Nat) :=
  let sorted := ranges.mergeSort fun a b => a.1 ≤ b.1
  let (gaps, next) := sorted.foldl (fun (state : List (Nat × Nat) × Nat) (first, last) =>
    let (gaps, next) := state
    (if next < first then gaps ++ [(next, first - 1)] else gaps, max next (last + 1))) ([], 0)
  if next ≤ 0x10FFFF then gaps ++ [(next, 0x10FFFF)] else gaps

/-- The ranges of a class under the switches, or what is outside of them. -/
def classUnder (flags : Flags) (negated : Bool) (ranges : List (Nat × Nat)) : List (Nat × Nat) :=
  let folded := if flags.anyCase then ranges.flatMap foldRange else ranges
  if negated then complement folded else folded

/-- The classes of one letter after a backslash. -/
def shorthandClass? (flags : Flags) : Char → Option (List (Nat × Nat))
  | 'd' => some (classUnder flags false digits)
  | 's' => some (classUnder flags false spaces)
  | 'w' => some (classUnder flags false wordRanges)
  | 'D' => some (classUnder flags true digits)
  | 'S' => some (classUnder flags true spaces)
  | 'W' => some (classUnder flags true wordRanges)
  | _ => none

/-- The characters of a category or a script, or all. -/
def unicodeTable? (name : String) : Option (List (Nat × Nat)) :=
  if name == "Any" then some [(0, 0x10FFFF)]
  else match Text.Category.named name with
    | [] => script? name
    | categories => some (Text.Category.codePoints categories)

/-- The name of a category or script after `\p`: one character, or a name in braces. -/
def unicodeName? : List Char → Option (List Char × List Char)
  | '\x7b' :: rest =>
      let name := rest.takeWhile (· != '\x7d')
      if name.length = rest.length then none else some (name, rest.drop (name.length + 1))
  | c :: rest => some ([c], rest)
  | [] => none

/-- A class of characters by category or script, which begins with `\p`, or with `\P` for all
others. The outer result tells whether it is one at all, the inner whether it is known. -/
def unicodeClass? (flags : Flags) : List Char → Option (Option (List (Nat × Nat) × List Char))
  | '\\' :: letter :: rest =>
      if letter == 'p' || letter == 'P' then
        some do
          let (written, rest) ← unicodeName? rest
          let (inverted, name) := match written with
            | '^' :: name => (true, name)
            | name => (false, name)
          let ranges ← unicodeTable? (String.ofList name)
          some (classUnder flags (inverted != (letter == 'P')) ranges, rest)
      else none
  | _ => none

/-- The named classes inside brackets. -/
def namedClass? : String → Option (List (Nat × Nat))
  | "alnum" => some [(0x30, 0x39), (0x41, 0x5A), (0x61, 0x7A)]
  | "alpha" => some [(0x41, 0x5A), (0x61, 0x7A)]
  | "ascii" => some [(0x00, 0x7F)]
  | "blank" => some [(0x09, 0x09), (0x20, 0x20)]
  | "cntrl" => some [(0x00, 0x1F), (0x7F, 0x7F)]
  | "digit" => some digits
  | "graph" => some [(0x21, 0x7E)]
  | "lower" => some [(0x61, 0x7A)]
  | "print" => some [(0x20, 0x7E)]
  | "punct" => some [(0x21, 0x2F), (0x3A, 0x40), (0x5B, 0x60), (0x7B, 0x7E)]
  | "space" => some [(0x09, 0x0D), (0x20, 0x20)]
  | "upper" => some [(0x41, 0x5A)]
  | "word" => some wordRanges
  | "xdigit" => some [(0x30, 0x39), (0x41, 0x46), (0x61, 0x66)]
  | _ => none

private def octal? (c : Char) : Option Nat :=
  if '0' ≤ c && c ≤ '7' then some (c.toNat - 0x30) else none

private def hexDigit? (c : Char) : Option Nat :=
  if c.isDigit then some (c.toNat - 0x30)
  else if 'a' ≤ c && c ≤ 'f' then some (c.toNat - 0x57)
  else if 'A' ≤ c && c ≤ 'F' then some (c.toNat - 0x37)
  else none

private def hexNumber (written : List Char) : Option Nat :=
  if written.isEmpty then none
  else written.foldlM (fun n c => (hexDigit? c).map fun d => min (n * 16 + d) 0x110000) 0

/-- An octal escape after its first digit: at most two digits more. -/
private def octalFrom (first : Nat) (rest : List Char) : Nat × List Char :=
  let more := (rest.take 2).takeWhile fun c => (octal? c).isSome
  (more.foldl (fun n c => n * 8 + (c.toNat - 0x30)) first, rest.drop more.length)

/-- The code point of an escape after its backslash. -/
def escape? : List Char → Option (Nat × List Char)
  | [] => none
  | 'x' :: '\x7b' :: rest => do
      let written := rest.takeWhile (· != '\x7d')
      let code ← hexNumber written
      if code > 0x10FFFF || written.length = rest.length then none
      else some (code, rest.drop (written.length + 1))
  | 'x' :: a :: b :: rest => do
      let code ← hexNumber [a, b]
      some (code, rest)
  | 'a' :: rest => some (0x07, rest)
  | 'f' :: rest => some (0x0C, rest)
  | 'n' :: rest => some (0x0A, rest)
  | 'r' :: rest => some (0x0D, rest)
  | 't' :: rest => some (0x09, rest)
  | 'v' :: rest => some (0x0B, rest)
  | c :: rest =>
      match octal? c with
      | some d =>
          if d = 0 || (rest.head?.bind octal?).isSome then some (octalFrom d rest) else none
      | none => if c.toNat < 0x80 && !c.isAlphanum then some (c.toNat, rest) else none

/-- A character inside brackets. -/
def classChar? : List Char → Option (Nat × List Char)
  | [] => none
  | '\\' :: rest => escape? rest
  | c :: rest => some (c.toNat, rest)

/-- The position of the first `:]`. -/
private def classNameLength? : List Char → Option Nat
  | ':' :: ']' :: _ => some 0
  | _ :: rest => (classNameLength? rest).map (· + 1)
  | [] => none

/-- A named class, which begins with `[:` and may be negated. The outer result tells whether it is
one at all, the inner whether it is known. -/
def named? (flags : Flags) : List Char → Option (Option (List (Nat × Nat) × List Char))
  | '[' :: ':' :: rest => do
      let length ← classNameLength? rest
      let written := rest.take length
      let (negated, name) := match written with
        | '^' :: name => (true, name)
        | name => (false, name)
      some do
        let ranges ← namedClass? (String.ofList name)
        some (classUnder flags negated ranges, rest.drop (length + 2))
  | _ => none

/-- The items of a class up to its closing bracket. A bracket in first place is an item. -/
def classItems (flags : Flags) :
    Nat → Bool → List (Nat × Nat) → List Char → Option (List (Nat × Nat) × List Char)
  | 0, _, _, _ => none
  | fuel + 1, isFirst, ranges, cs =>
      if cs.head? == some ']' && !isFirst then some (ranges, cs.drop 1)
      else
        match (named? flags cs).or (unicodeClass? flags cs) with
        | some none => none
        | some (some (found, rest)) => classItems flags fuel false (ranges ++ found) rest
        | none =>
          let shorthand := match cs with
            | '\\' :: c :: rest => (shorthandClass? flags c).map (·, rest)
            | _ => none
          match shorthand with
          | some (found, rest) => classItems flags fuel false (ranges ++ found) rest
          | none => do
            let (low, rest) ← classChar? cs
            match rest with
            | '-' :: next :: more =>
                if next == ']' then
                  classItems flags fuel false (ranges ++ rangeUnder flags low low) rest
                else
                  let (high, rest) ← classChar? (next :: more)
                  if high < low then none
                  else classItems flags fuel false (ranges ++ rangeUnder flags low high) rest
            | _ => classItems flags fuel false (ranges ++ rangeUnder flags low low) rest

/-- A class after its opening bracket. -/
def class? (flags : Flags) (cs : List Char) : Option (Pattern × List Char) := do
  let (negated, body) := match cs with
    | '^' :: body => (true, body)
    | body => (false, body)
  let (ranges, rest) ← classItems flags (body.length + 1) true [] body
  some (.chars { ranges, negated }, rest)

/-- A repetition count: digits without a leading zero. Counts too large to matter are all alike. -/
private def count? (cs : List Char) : Option (Nat × List Char) :=
  let written := cs.takeWhile Char.isDigit
  if written.isEmpty || (written.length > 1 && written.head? == some '0') then none
  else some (written.foldl (fun n c => min (n * 10 + (c.toNat - 0x30)) 100000000) 0,
    cs.drop written.length)

/-- The counts in braces, after the opening brace. -/
def counts? (cs : List Char) : Option (Nat × Option Nat × List Char) := do
  let (least, rest) ← count? cs
  match rest with
  | '\x7d' :: rest => some (least, some least, rest)
  | ',' :: '\x7d' :: rest => some (least, none, rest)
  | ',' :: rest =>
      let (most, rest) ← count? rest
      match rest with
      | '\x7d' :: rest => some (least, some most, rest)
      | _ => none
  | _ => none

/-- Whether nested counted repetitions stay within a number altogether. -/
def repeatsWithin : Pattern → Nat → Bool
  | .repeated body least most, n =>
      let isCounted := !((least ≤ 1 && most.isNone) || (least = 0 && most = some 1))
      if isCounted then
        let m := most.getD least
        if m = 0 then true
        else m ≤ n && repeatsWithin body (n / m)
      else repeatsWithin body n
  | .seq first second, n => repeatsWithin first n && repeatsWithin second n
  | .either first second, n => repeatsWithin first n && repeatsWithin second n
  | _, _ => true

/-- Switches after `(?`, up to a colon or a closing parenthesis. Tells whether it was a colon. -/
def switches : Nat → Flags → Bool → Bool → List Char → Option (Flags × Bool × List Char)
  | 0, _, _, _, _ => none
  | fuel + 1, flags, off, seen, cs =>
      match cs with
      | 'i' :: rest => switches fuel { flags with anyCase := !off } off true rest
      | 'm' :: rest => switches fuel { flags with multiLine := !off } off true rest
      | 's' :: rest => switches fuel { flags with dotAll := !off } off true rest
      | 'U' :: rest => switches fuel flags off true rest
      | '-' :: rest => if off then none else switches fuel flags true false rest
      | ':' :: rest => if off && !seen then none else some (flags, true, rest)
      | ')' :: rest => if off && !seen then none else some (flags, false, rest)
      | _ => none

/-- The name of a group, up to the closing angle bracket. -/
def groupName? (cs : List Char) : Option (List Char × List Char) :=
  let name := cs.takeWhile (· != '>')
  if name.isEmpty || name.length = cs.length || !name.all isWordLetter then none
  else some (name, cs.drop (name.length + 1))

/-- The state between two items of a pattern. -/
structure State where
  flags : Flags
  rest : List Char
  /-- The names of the groups so far. -/
  names : List (List Char)

/-- The items of a sequence, last first, joined into a pattern. -/
def joinItems (items : List Pattern) : Pattern :=
  items.foldl (fun joined item => if joined = .empty then item else .seq item joined) .empty

/-- Applies a repetition to the last item. Repetitions do not follow each other directly. -/
def repeatLast (items : List Pattern) (afterRepeat : Bool) (least : Nat) (most : Option Nat) :
    Option (List Pattern) :=
  match items with
  | [] => none
  | body :: others =>
      let result := Pattern.repeated body least most
      if afterRepeat || !repeatsWithin result maxRepeat then none else some (result :: others)

/-- Passes the mark of a repetition that prefers few. -/
def skipLazy : List Char → List Char
  | '?' :: rest => rest
  | cs => cs

/-- Literal text up to `\E`. -/
def quoted : List Char → List Char × List Char
  | [] => ([], [])
  | '\\' :: 'E' :: rest => ([], rest)
  | c :: rest =>
      let (text, rest) := quoted rest
      (c :: text, rest)

mutual

/-- Alternatives up to a closing parenthesis or the end. -/
def alternatives : Nat → Nat → State → Option (Pattern × State)
  | 0, _, _ => none
  | fuel + 1, depth, st => do
      let (first, st) ← items fuel depth [] false st
      match st.rest with
      | '|' :: rest =>
          let (others, st) ← alternatives fuel depth { st with rest }
          some (.either first others, st)
      | _ => some (first, st)

/-- The items of one alternative, behind those already read. -/
def items : Nat → Nat → List Pattern → Bool → State → Option (Pattern × State)
  | 0, _, _, _, _ => none
  | fuel + 1, depth, done, afterRepeat, st =>
      let add (item : Pattern) (rest : List Char) : Option (Pattern × State) :=
        items fuel depth (item :: done) false { st with rest }
      let again (least : Nat) (most : Option Nat) (rest : List Char) : Option (Pattern × State) := do
        let done ← repeatLast done afterRepeat least most
        items fuel depth done true { st with rest := skipLazy rest }
      match st.rest with
      | [] => some (joinItems done, st)
      | '|' :: _ => some (joinItems done, st)
      | ')' :: _ => some (joinItems done, st)
      | '(' :: '?' :: rest => do
          let named := match rest with
            | 'P' :: '<' :: rest => some rest
            | '<' :: rest => some rest
            | _ => none
          match named with
          | some rest =>
              let (name, rest) ← groupName? rest
              if st.names.contains name then none
              else group fuel depth done st.flags st.flags { st with rest, names := name :: st.names }
          | none =>
              let (flags, isGroup, rest) ← switches (rest.length + 1) st.flags false false rest
              if isGroup then group fuel depth done st.flags flags { st with rest }
              else items fuel depth done false { st with flags, rest }
      | '(' :: rest => group fuel depth done st.flags st.flags { st with rest }
      | '[' :: rest => do
          let (item, rest) ← class? st.flags rest
          add item rest
      | '.' :: rest =>
          add (.chars { ranges := if st.flags.dotAll then [] else [(0x0A, 0x0A)], negated := true }) rest
      | '^' :: rest => add (.assertion (if st.flags.multiLine then .lineStart else .textStart)) rest
      | '$' :: rest => add (.assertion (if st.flags.multiLine then .lineEnd else .textEnd)) rest
      | '*' :: rest => again 0 none rest
      | '+' :: rest => again 1 none rest
      | '?' :: rest => again 0 (some 1) rest
      | '\x7b' :: rest =>
          match counts? rest with
          | none => add (literal st.flags '\x7b') rest
          | some (least, most, rest) =>
              if least > maxRepeat || most.any (fun n => n > maxRepeat || n < least) then none
              else again least most rest
      | '\\' :: rest =>
          match rest with
          | 'A' :: rest => add (.assertion .textStart) rest
          | 'z' :: rest => add (.assertion .textEnd) rest
          | 'b' :: rest => add (.assertion .wordBoundary) rest
          | 'B' :: rest => add (.assertion .noWordBoundary) rest
          | 'Q' :: rest =>
              let (text, rest) := quoted rest
              items fuel depth ((text.map (literal st.flags)).reverse ++ done) false { st with rest }
          | c :: more =>
              match shorthandClass? st.flags c, unicodeClass? st.flags ('\\' :: rest) with
              | some ranges, _ => add (.chars { ranges }) more
              | none, some found => do
                  let (ranges, rest) ← found
                  add (.chars { ranges }) rest
              | none, none => do
                  let (code, rest) ← escape? rest
                  add (.chars { ranges := rangeUnder st.flags code code }) rest
          | [] => none
      | c :: rest => add (literal st.flags c) rest

/-- A group after its opening parenthesis, and the items that follow it. Switches set inside end
with it. -/
def group : Nat → Nat → List Pattern → Flags → Flags → State → Option (Pattern × State)
  | 0, _, _, _, _, _ => none
  | fuel + 1, depth, done, outside, inside, st => do
      if depth ≥ maxNesting then none
      else
        let (body, st) ← alternatives fuel (depth + 1) { st with flags := inside }
        match st.rest with
        | ')' :: rest => items fuel depth (body :: done) false { st with flags := outside, rest }
        | _ => none

end

/-- Reads a pattern, if the text is one. -/
def parse? (t : Text) : Option Pattern := do
  let cs ← t.chars?
  let (pattern, st) ← alternatives (3 * cs.length + 3) 0 { flags := {}, rest := cs, names := [] }
  if st.rest.isEmpty then some pattern else none

end PermissionGuard.Pattern
