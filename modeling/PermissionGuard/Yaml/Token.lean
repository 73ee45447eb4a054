import PermissionGuard.Yaml.Scalar

/-!
The tokens of a document, with the lines on which they start and end.
-/

namespace PermissionGuard.Yaml

inductive TokenKind where
  | streamEnd
  | versionDirective (major minor : Nat)
  | tagDirective (handle uri : Text)
  | documentStart
  | documentEnd
  | blockSequenceStart
  | blockMappingStart
  | blockEnd
  | flowSequenceStart
  | flowSequenceEnd
  | flowMappingStart
  | flowMappingEnd
  | blockEntry
  | flowEntry
  | key
  | value
  | alias (name : Text)
  | anchor (name : Text)
  | tag (handle suffix : Text)
  | scalar (style : ScalarStyle) (value : Text)
  deriving DecidableEq, Repr, Inhabited

structure Token where
  kind : TokenKind
  startLine : Nat
  endLine : Nat
  deriving DecidableEq, Repr, Inhabited

/-- The tokens of a document in order, and the fault that ended reading if there was one. -/
structure TokenStream where
  tokens : Array Token
  fault : Option Fault
  /-- The tokens of which it was still open whether they start a mapping key when the fault was
  met. -/
  undecided : List Nat := []
  deriving Inhabited

/-- A place at which a mapping key without indicator may have started. -/
structure KeyCandidate where
  /-- Whether nothing else than a key can stand here. -/
  required : Bool
  /-- The number of the token that the candidate starts with. -/
  token : Nat
  index : Nat
  line : Nat
  column : Nat
  deriving Repr, Inhabited

/-- A key without indicator stands on one line and has at most this many characters. -/
def maxKeyLength : Nat := 1024

/-- The deepest nesting of flow collections, and of block collections. -/
def maxDepth : Nat := 10000

/-- The state of the reader between two tokens. -/
structure Lexer where
  cur : Cursor
  tokens : Array Token := #[]
  /-- The column of the innermost block collection, or -1 outside of all. -/
  indent : Int := -1
  /-- The columns of the block collections around the innermost. -/
  outerIndents : List Int := []
  keyAllowed : Bool := true
  /-- The key candidate of the innermost flow collection, and of those around it. -/
  candidate : Option KeyCandidate := none
  outerCandidates : List (Option KeyCandidate) := []
  deriving Inhabited

namespace Lexer

def flowLevel (lx : Lexer) : Nat := lx.outerCandidates.length

def inFlow (lx : Lexer) : Bool := !lx.outerCandidates.isEmpty

def fault (lx : Lexer) (problem : Text) : Fault := lx.cur.fault lx.cur.line problem

/-- Appends a token that starts at a line and ends here. -/
def push (lx : Lexer) (kind : TokenKind) (startLine : Nat) : Lexer :=
  { lx with tokens := lx.tokens.push ⟨kind, startLine, lx.cur.line⟩ }

/-- Appends a token of the next `width` characters. -/
def pushIndicator (lx : Lexer) (kind : TokenKind) (width : Nat) : Lexer :=
  let start := lx.cur.line
  { lx with cur := lx.cur.skipBy width }.push kind start

/-- Gives up the key candidate, which must not be a required one. -/
def dropCandidate (lx : Lexer) : Except Fault Lexer :=
  match lx.candidate with
  | some candidate =>
      if candidate.required then
        .error (lx.cur.fault candidate.line "could not find expected ':'")
      else .ok { lx with candidate := none }
  | none => .ok lx

/-- Remembers this place as a key candidate where a key may stand. -/
def saveCandidate (lx : Lexer) : Except Fault Lexer := do
  if !lx.keyAllowed then return lx
  let required := !lx.inFlow && lx.indent == (lx.cur.column : Int)
  let lx ← lx.dropCandidate
  let candidate : KeyCandidate := {
    required, token := lx.tokens.size
    index := lx.cur.index, line := lx.cur.line, column := lx.cur.column }
  return { lx with candidate := some candidate }

/-- Whether a candidate is too far away for a value indicator here. -/
def isStale (lx : Lexer) (candidate : KeyCandidate) : Bool :=
  candidate.line < lx.cur.line || candidate.index + maxKeyLength < lx.cur.index

/-- The tokens that may still turn out to start a key. -/
def undecided (lx : Lexer) : List Nat :=
  ((lx.candidate :: lx.outerCandidates).filterMap id).filterMap fun candidate =>
    if lx.isStale candidate then none else some candidate.token

/-- The key candidate if a value indicator may still follow it here. -/
def liveCandidate (lx : Lexer) : Except Fault (Option KeyCandidate) :=
  match lx.candidate with
  | none => .ok none
  | some candidate =>
      if lx.isStale candidate then
        if candidate.required then
          .error (lx.cur.fault candidate.line "could not find expected ':'")
        else .ok none
      else .ok (some candidate)

/-- Opens a block collection at a column further right, with its token before the one at `position`, or
at the end. -/
def rollIndent (lx : Lexer) (column : Nat) (position : Option Nat) (kind : TokenKind) (line : Nat) :
    Except Fault Lexer :=
  if lx.inFlow || (column : Int) ≤ lx.indent then .ok lx
  else if lx.outerIndents.length + 1 > maxDepth then
    .error (lx.fault "exceeded max depth of 10000")
  else
    let token : Token := ⟨kind, line, line⟩
    .ok { lx with
      outerIndents := lx.indent :: lx.outerIndents
      indent := column
      tokens := match position with
        | some i => lx.tokens.insertIdxIfInBounds i token
        | none => lx.tokens.push token }

/-- Closes the block collections that are further right than a column. -/
def unrollIndent (column : Int) : List Int → Lexer → Lexer
  | [], lx => lx
  | outer :: outers, lx =>
      if lx.inFlow || lx.indent ≤ column then lx
      else
        unrollIndent column outers
          { lx.push .blockEnd lx.cur.line with indent := outer, outerIndents := outers }

def unroll (lx : Lexer) (column : Int) : Lexer := unrollIndent column lx.outerIndents lx

/-- After a comment, passes further lines that hold nothing but blanks and a comment, as long as
they are near. The place stays at the end of the last comment. -/
def skipCommentLines : Nat → Cursor → Cursor
  | 0, cur => cur
  | fuel + 1, cur =>
      let near := (cur.rest.drop 1).take 511
      let gap := near.takeWhile fun c => isBlankChar c || isBreak c
      match near.drop gap.length with
      | '#' :: _ =>
          if cur.rest.isEmpty then cur
          else skipCommentLines fuel (passGap (gap.length + 1) cur).skipToBreak
      | _ => cur
where
  /-- Passes blanks and line breaks of a given number of characters. -/
  passGap : Nat → Cursor → Cursor
    | 0, cur => cur
    | n + 1, cur =>
        match cur.rest with
        | '\r' :: '\n' :: _ => passGap (n - 1) cur.skipBreak
        | c :: _ => passGap n (if isBreak c then cur.skipBreak else cur.skip)
        | [] => cur

/-- Passes a comment and the comment lines below it. -/
def skipComment (cur : Cursor) : Cursor :=
  let cur := cur.skipToBreak
  skipCommentLines cur.rest.length cur

/-- Passes blanks, comments and line breaks up to the next token. -/
def toNextToken : Nat → Lexer → Lexer
  | 0, lx => lx
  | fuel + 1, lx =>
      let cur := lx.cur
      let cur := if cur.column == 0 && cur.head?.any (·.toNat == 0xFEFF) then cur.skip else cur
      let tabs := lx.inFlow || !lx.keyAllowed
      let cur := cur.skipWhile fun c => c == ' ' || (tabs && c == '\t')
      let cur := if cur.head? == some '#' then skipComment cur else cur
      if cur.head?.any isBreak then
        toNextToken fuel { lx with cur := cur.skipBreak, keyAllowed := lx.keyAllowed || !lx.inFlow }
      else { lx with cur }

/-- Passes a comment on the line of the token that was just read. -/
def skipLineComment (lx : Lexer) : Lexer :=
  if lx.cur.newlines > 0 then lx
  else
    let blanks := (lx.cur.rest.take 511).takeWhile isBlankChar
    if (lx.cur.rest.drop blanks.length).head? == some '#' then { lx with cur := lx.cur.skipToBreak }
    else lx

/-- Reads a run of digits as a number. -/
def readNumber (cur : Cursor) : Except Fault (Nat × Cursor) :=
  let (digits, next) := cur.takeWhile Char.isDigit
  if digits.isEmpty then .error (cur.fault cur.line "did not find expected version number")
  else if digits.length > 2 then .error (cur.fault cur.line "found extremely long version number")
  else .ok (digits.foldl (fun n c => n * 10 + (c.toNat - 0x30)) 0, next)

/-- The characters of a tag handle, which begins with an exclamation mark. -/
def readHandle (directive : Bool) (cur : Cursor) : Except Fault (List Char × Cursor) :=
  if cur.head? != some '!' then .error (cur.fault cur.line "did not find expected '!'")
  else
    let (word, next) := cur.skip.takeWhile isWordChar
    if next.head? == some '!' then .ok ('!' :: (word ++ ['!']), next.skip)
    else if directive && !word.isEmpty then
      .error (cur.fault cur.line "did not find expected '!'")
    else .ok ('!' :: word, next)

def isUriChar (c : Char) : Bool :=
  isWordChar c || [';', '/', '?', ':', '@', '&', '=', '+', '$', ',', '.', '!', '~', '*', '\'',
    '(', ')', '[', ']', '%'].contains c

/-- The number of bytes of a character by its first byte, or 0 if no character starts with it. -/
def encodedWidth (b : Nat) : Nat :=
  if b < 0x80 then 1 else if b < 0xC0 then 0 else if b < 0xE0 then 2 else if b < 0xF0 then 3
  else if b < 0xF8 then 4 else 0

/-- The bytes of URI characters, where a percent sign and two hexadecimal digits write a byte. The
bytes of a character are written one after the other, and `missing` of them are still to come. -/
def uriBytes (missing : Nat) : List Char → Option Text
  | [] => if missing = 0 then some [] else none
  | '%' :: a :: b :: rest => do
      let byte := (← hexValue? a) * 16 + (← hexValue? b)
      let missing ←
        if missing = 0 then
          if encodedWidth byte = 0 then none else some (encodedWidth byte - 1)
        else if byte / 0x40 = 2 then some (missing - 1) else none
      return byte.toUInt8 :: (← uriBytes missing rest)
  | '%' :: _ => none
  | c :: rest => if missing = 0 then (uriBytes 0 rest).map (Text.ofChars [c] ++ ·) else none

/-- Reads the URI of a tag behind what was read of it already. -/
def readUri (head : List Char) (cur : Cursor) : Except Fault (Text × Cursor) :=
  let (uri, next) := cur.takeWhile isUriChar
  if head.isEmpty && uri.isEmpty then .error (cur.fault cur.line "did not find expected tag URI")
  else match uriBytes 0 uri with
    | none => .error (cur.fault cur.line "did not find URI escaped octet")
    | some bytes => .ok (Text.ofChars (head.drop 1) ++ bytes, next)

/-- Reads a directive line up to its end. -/
def readDirective (cur : Cursor) : Except Fault (TokenKind × Cursor) := do
  let (name, after) := cur.skip.takeWhile isWordChar
  if name.isEmpty then throw (cur.fault cur.line "could not find expected directive name")
  if !startsBlank after.rest then
    throw (cur.fault cur.line "found unexpected non-alphabetical character")
  let (kind, after) ←
    if name == ['Y', 'A', 'M', 'L'] then do
      let (major, after) ← readNumber (after.skipWhile isBlankChar)
      if after.head? != some '.' then
        throw (cur.fault cur.line "did not find expected digit or '.' character")
      let (minor, after) ← readNumber after.skip
      pure (TokenKind.versionDirective major minor, after)
    else if name == ['T', 'A', 'G'] then do
      let (handle, after) ← readHandle true (after.skipWhile isBlankChar)
      if !after.head?.any isBlankChar then
        throw (cur.fault cur.line "did not find expected whitespace")
      let (uri, after) ← readUri [] (after.skipWhile isBlankChar)
      if !startsBlank after.rest then
        throw (cur.fault cur.line "did not find expected whitespace or line break")
      pure (TokenKind.tagDirective (Text.ofChars handle) uri, after)
    else throw (cur.fault cur.line "found unknown directive name")
  let after := after.skipWhile isBlankChar
  let after := if after.head? == some '#' then after.skipToBreak else after
  if !startsBreak after.rest then
    throw (cur.fault cur.line "did not find expected comment or line break")
  return (kind, after.skipBreak)

/-- Reads the name after the indicator of an anchor or alias. -/
def readName (cur : Cursor) : Except Fault (Text × Cursor) :=
  let (name, next) := cur.skip.takeWhile isWordChar
  let ends := match next.rest with
    | [] => true
    | c :: _ => startsBlank next.rest || ['?', ':', ',', ']', '\x7d', '%', '@', '\x60'].contains c
  if name.isEmpty || !ends then
    .error (cur.fault cur.line "did not find expected alphabetic or numeric character")
  else .ok (Text.ofChars name, next)

/-- Reads a tag as a handle and a suffix. -/
def readTag (cur : Cursor) : Except Fault (Text × Text × Cursor) := do
  let (handle, suffix, next) ←
    if (cur.rest.drop 1).head? == some '<' then do
      let (uri, next) ← readUri [] (cur.skipBy 2)
      if next.head? != some '>' then throw (cur.fault cur.line "did not find the expected '>'")
      pure (([] : Text), uri, next.skip)
    else do
      let (handle, next) ← readHandle false cur
      if handle.length > 1 && handle.getLast? == some '!' then
        let (suffix, next) ← readUri [] next
        pure (Text.ofChars handle, suffix, next)
      else
        let (suffix, next) ← readUri handle next
        if suffix.isEmpty then pure (([] : Text), Text.ofString "!", next)
        else pure (Text.ofString "!", suffix, next)
  if !startsBlank next.rest then
    throw (cur.fault cur.line "did not find expected whitespace or line break")
  return (handle, suffix, next)

/-- Before a document indicator, a directive or the end all block collections are closed. -/
def closeAll (lx : Lexer) : Except Fault Lexer := do
  let lx ← (lx.unroll (-1)).dropCandidate
  return { lx with keyAllowed := false }

/-- An opening bracket or brace. -/
def openFlow (lx : Lexer) (kind : TokenKind) : Except Fault Lexer := do
  let lx ← lx.saveCandidate
  if lx.flowLevel + 1 > maxDepth then throw (lx.fault "exceeded max depth of 10000")
  let lx := { lx with
    outerCandidates := lx.candidate :: lx.outerCandidates, candidate := none, keyAllowed := true }
  return lx.pushIndicator kind 1

/-- A closing bracket or brace. -/
def closeFlow (lx : Lexer) (kind : TokenKind) : Except Fault Lexer := do
  let lx ← lx.dropCandidate
  let lx := match lx.outerCandidates with
    | outer :: outers => { lx with candidate := outer, outerCandidates := outers }
    | [] => lx
  return { lx with keyAllowed := false }.pushIndicator kind 1

/-- A comma. -/
def flowEntry (lx : Lexer) : Except Fault Lexer := do
  let lx ← lx.dropCandidate
  return { lx with keyAllowed := true }.pushIndicator .flowEntry 1

/-- A dash that begins a sequence entry. -/
def blockEntry (lx : Lexer) : Except Fault Lexer := do
  if !lx.inFlow && !lx.keyAllowed then
    throw (lx.fault "block sequence entries are not allowed in this context")
  let lx ← lx.rollIndent lx.cur.column none .blockSequenceStart lx.cur.line
  let lx ← lx.dropCandidate
  return { lx with keyAllowed := true }.pushIndicator .blockEntry 1

/-- A question mark that begins a mapping key. -/
def keyIndicator (lx : Lexer) : Except Fault Lexer := do
  if !lx.inFlow && !lx.keyAllowed then
    throw (lx.fault "mapping keys are not allowed in this context")
  let lx ← lx.rollIndent lx.cur.column none .blockMappingStart lx.cur.line
  let lx ← lx.dropCandidate
  return { lx with keyAllowed := !lx.inFlow }.pushIndicator .key 1

/-- A colon that begins a mapping value. If a key candidate precedes it, the key indicator is put
before the candidate. -/
def valueIndicator (lx : Lexer) : Except Fault Lexer := do
  match ← lx.liveCandidate with
  | some candidate =>
      let keyToken : Token := ⟨.key, candidate.line, candidate.line⟩
      let lx := { lx with tokens := lx.tokens.insertIdxIfInBounds candidate.token keyToken }
      let lx ← lx.rollIndent candidate.column (some candidate.token) .blockMappingStart candidate.line
      return { lx with candidate := none, keyAllowed := false }.pushIndicator .value 1
  | none =>
      let lx := { lx with candidate := none }
      if !lx.inFlow && !lx.keyAllowed then
        throw (lx.fault "mapping values are not allowed in this context")
      let lx ← lx.rollIndent lx.cur.column none .blockMappingStart lx.cur.line
      return { lx with keyAllowed := !lx.inFlow }.pushIndicator .value 1

/-- A token that may be part of a key: it is read by `read` from this place. -/
def keyPart (lx : Lexer) (read : Cursor → Except Fault (TokenKind × Cursor)) :
    Except Fault Lexer := do
  let lx ← lx.saveCandidate
  let start := lx.cur.line
  let (kind, cur) ← read lx.cur
  return { lx with keyAllowed := false, cur }.push kind start

def plainScalar (lx : Lexer) : Except Fault Lexer := do
  let lx ← lx.saveCandidate
  let start := lx.cur.line
  let (chars, folded, cur) ← readPlain lx.inFlow lx.indent lx.cur
  return { lx with keyAllowed := folded, cur }.push (.scalar .plain (Text.ofChars chars)) start

def blockScalar (lx : Lexer) (isLiteral : Bool) : Except Fault Lexer := do
  let lx ← lx.dropCandidate
  let start := lx.cur.line
  let (chars, cur) ← readBlock isLiteral lx.indent lx.cur
  let style := if isLiteral then ScalarStyle.literal else .folded
  return { lx with keyAllowed := true, cur }.push (.scalar style (Text.ofChars chars)) start

def quotedScalar (single : Bool) (cur : Cursor) : Except Fault (TokenKind × Cursor) := do
  let (chars, next) ← readQuoted single cur
  let style := if single then ScalarStyle.singleQuoted else .doubleQuoted
  return (.scalar style (Text.ofChars chars), next)

/-- Whether a plain scalar may start with the characters in front. -/
def startsPlain (inFlow : Bool) : List Char → Bool
  | [] => false
  | c :: rest =>
      let indicators := ['-', '?', ':', ',', '[', ']', '\x7b', '\x7d', '#', '&', '*', '!', '|', '>',
        '\'', '"', '%', '@', '\x60']
      !(isBlankChar c || isBreak c || indicators.contains c)
        || (c == '-' && !rest.head?.any isBlankChar)
        || (!inFlow && (c == '?' || c == ':') && !startsBlank rest)

/-- Reads a token that stands inside a document. -/
def contentToken (lx : Lexer) (c : Char) (rest : List Char) : Except Fault Lexer :=
  if c == '[' then lx.openFlow .flowSequenceStart
  else if c == '\x7b' then lx.openFlow .flowMappingStart
  else if c == ']' then lx.closeFlow .flowSequenceEnd
  else if c == '\x7d' then lx.closeFlow .flowMappingEnd
  else if c == ',' then lx.flowEntry
  else if c == '-' && startsBlank rest then lx.blockEntry
  else if c == '?' && (lx.inFlow || startsBlank rest) then lx.keyIndicator
  else if c == ':' && (lx.inFlow || startsBlank rest) then lx.valueIndicator
  else if c == '*' then lx.keyPart fun cur => do
    let (name, next) ← readName cur
    return (.alias name, next)
  else if c == '&' then lx.keyPart fun cur => do
    let (name, next) ← readName cur
    return (.anchor name, next)
  else if c == '!' then lx.keyPart fun cur => do
    let (handle, suffix, next) ← readTag cur
    return (.tag handle suffix, next)
  else if c == '|' && !lx.inFlow then lx.blockScalar true
  else if c == '>' && !lx.inFlow then lx.blockScalar false
  else if c == '\'' then lx.keyPart (quotedScalar true)
  else if c == '"' then lx.keyPart (quotedScalar false)
  else if startsPlain lx.inFlow (c :: rest) then lx.plainScalar
  else .error (lx.fault "found character that cannot start any token")

/-- Reads the next token, with the block collections that end before it. Tells whether it was the
end of the document. -/
def nextToken (lx : Lexer) : Except Fault (Bool × Lexer) := do
  let lx := toNextToken (lx.cur.rest.length + 1) lx
  let lx := lx.unroll lx.cur.column
  match lx.cur.rest with
  | [] =>
      let cur := lx.cur
      let lx := if cur.column = 0 then lx
        else { lx with cur := { cur with column := 0, line := cur.line + 1 } }
      let lx ← lx.closeAll
      return (true, lx.push .streamEnd lx.cur.line)
  | c :: rest =>
      if lx.cur.column == 0 && c == '%' then
        let lx ← lx.closeAll
        let start := lx.cur.line
        let (kind, cur) ← readDirective lx.cur
        return (false, { lx with cur }.push kind start)
      else if lx.cur.atDocumentIndicator then
        let lx ← lx.closeAll
        return (false, lx.pushIndicator (if c == '-' then .documentStart else .documentEnd) 3)
      else
        let lx ← lx.contentToken c rest
        if (lx.tokens.back?.map Token.kind) == some .blockEntry then return (false, lx)
        return (false, lx.skipLineComment)

/-- Reads tokens up to the end or to a fault. -/
def run : Nat → Lexer → TokenStream
  | 0, lx => { tokens := lx.tokens, fault := none }
  | fuel + 1, lx =>
      match lx.nextToken with
      | .error fault => { tokens := lx.tokens, fault := some fault, undecided := lx.undecided }
      | .ok (true, lx) => { tokens := lx.tokens, fault := none }
      | .ok (false, lx) => run fuel lx

end Lexer

/-- The tokens of a document. -/
def TokenStream.ofChars (chars : List Char) : TokenStream :=
  Lexer.run (chars.length + 2) { cur := { rest := chars } }

end PermissionGuard.Yaml
