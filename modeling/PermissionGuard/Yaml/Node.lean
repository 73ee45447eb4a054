import PermissionGuard.Yaml.Resolve
import PermissionGuard.Yaml.Source
import PermissionGuard.Yaml.Token

/-!
The content of a document as a tree. Anchored nodes are numbered, and an alias refers to a number.
-/

namespace PermissionGuard.Yaml

inductive Node where
  | scalar (line : Nat) (tag value : Text)
  | sequence (line : Nat) (tag : Text) (items : List Node)
  | mapping (line : Nat) (tag : Text) (entries : List (Node × Node))
  /-- An alias, told apart from all others by its own number, for the node numbered `target`. -/
  | alias (line : Nat) (name : Text) (self target : Nat)
  deriving Repr, Inhabited

namespace Node

def line : Node → Nat
  | .scalar line _ _ => line
  | .sequence line _ _ => line
  | .mapping line _ _ => line
  | .alias line _ _ _ => line

/-- The text of a scalar or the name of an alias, empty for a collection. -/
def text : Node → Text
  | .scalar _ _ value => value
  | .alias _ name _ _ => name
  | _ => []

def tag : Node → Text
  | .scalar _ tag _ => tag
  | .sequence _ tag _ => tag
  | .mapping _ tag _ => tag
  | .alias .. => []

def isMapping : Node → Bool
  | .mapping .. => true
  | _ => false

/-- Whether two nodes are of one kind: scalars, sequences, mappings or aliases. -/
def sameKind : Node → Node → Bool
  | .scalar .., .scalar .. => true
  | .sequence .., .sequence .. => true
  | .mapping .., .mapping .. => true
  | .alias .., .alias .. => true
  | _, _ => false

/-- The key that merges another mapping into this one. -/
def isMergeKey : Node → Bool
  | .scalar _ tag value => tag = Tag.merge && value == Text.ofString "<<"
  | _ => false

end Node

/-- The first document of a stream. -/
structure Document where
  root : Node
  /-- The anchored nodes by number. -/
  anchored : Array Node
  /-- More than the depth of the tree, and more than the number of its aliases. -/
  size : Nat

/-- The state of the tree builder between two tokens. -/
structure Composer where
  stream : TokenStream
  position : Nat := 0
  /-- The tag handles that directives declare. -/
  handles : List (Text × Text) := []
  /-- The numbers of the anchors, latest first. -/
  anchors : List (Text × Nat) := []
  anchored : Array Node := #[]

namespace Composer

abbrev Build := StateT Composer (Except Fault)

/-- Tokens are read this far ahead, and further as long as the next may start a key. A fault this
near behind a token is noticed with it. -/
def lookahead : Nat := 3

def peek : Build Token := do
  let st ← get
  match st.stream.fault with
  | some fault =>
      if st.stream.tokens.size < st.position + lookahead || st.stream.undecided.contains st.position
      then throw fault
  | none => pure ()
  return st.stream.tokens[st.position]?.getD ⟨.streamEnd, 0, 0⟩

def advance : Build Unit := modify fun st => { st with position := st.position + 1 }

/-- A problem with a token, found while reading what began at line `context`. -/
def failAt {α : Type} (context : Nat) (token : Token) (problem : Text) : Build α :=
  throw ⟨if context = 0 then token.startLine else context, problem⟩

/-- The node for a place at which there is nothing. -/
def emptyNode (line : Nat) : Node := .scalar (line + 1) Tag.null []

/-- Numbers an anchor before its node is known, so that the node may refer to itself. -/
def reserve : Option Text → Build (Option Nat)
  | none => pure none
  | some name => do
      let st ← get
      let number := st.anchored.size
      set { st with
        anchors := (name, number) :: st.anchors, anchored := st.anchored.push default }
      return some number

/-- Completes an anchored node. -/
def complete (number : Option Nat) (node : Node) : Build Node := do
  match number with
  | some n => modify fun st => { st with anchored := st.anchored.setIfInBounds n node }
  | none => pure ()
  return node

/-- The written tag of a node, with its handle replaced by what the handle stands for. -/
def expandTag (context : Nat) (token : Token) (handle suffix : Text) : Build Text := do
  if handle.isEmpty then return suffix
  match (← get).handles.lookup handle with
  | some uri => return uri ++ suffix
  | none => failAt context token "found undefined tag handle"

/-- The anchor and the tag in front of a node, in any order and at most one of each. -/
def properties : Build (Option Text × Option Text) := do
  let token ← peek
  match token.kind with
  | .anchor name =>
      advance
      let next ← peek
      match next.kind with
      | .tag handle suffix =>
          advance
          return (some name, some (← expandTag token.startLine next handle suffix))
      | _ => return (some name, none)
  | .tag handle suffix =>
      advance
      let tag ← expandTag token.startLine token handle suffix
      let next ← peek
      match next.kind with
      | .anchor name =>
          advance
          return (some name, some tag)
      | _ => return (none, some tag)
  | _ => return (none, none)

/-- The tag of a node with or without a written tag; `!` alone counts as none. -/
def tagOr (written : Option Text) (default : Text) : Text :=
  match written with
  | some tag => if tag.isEmpty || tag == Text.ofString "!" then default else Tag.short tag
  | none => default

/-- The tag of a scalar without a written tag. -/
def defaultTag (style : ScalarStyle) (value : Text) : Text :=
  if style ≠ .plain then Tag.str
  else if value == Text.ofString "<<" then Tag.merge
  else (resolvePlain true value).tag

mutual

/-- A node. Block collections are allowed where `block` holds, and sequence entries at the column of
the mapping around them where `indentless` holds. -/
def node : Nat → Bool → Bool → Build Node
  | 0, _, _ => throw ⟨0, "nesting too deep"⟩
  | fuel + 1, block, indentless => do
      let first ← peek
      match first.kind with
      | .alias name =>
          advance
          let st ← get
          match st.anchors.lookup name with
          | some target => return .alias (first.startLine + 1) name st.position target
          | none => throw ⟨0, "unknown anchor '" ++ name ++ "' referenced"⟩
      | _ =>
        let line := first.startLine + 1
        let (anchor, written) ← properties
        let token ← peek
        let sequenceOf (read : Build (Array Node)) : Build Node := do
          let number ← reserve anchor
          let items ← read
          complete number (.sequence line (tagOr written Tag.seq) items.toList)
        let mappingOf (read : Build (Array (Node × Node))) : Build Node := do
          let number ← reserve anchor
          advance
          let entries ← read
          complete number (.mapping line (tagOr written Tag.map) entries.toList)
        match token.kind, block, indentless with
        | .scalar style value, _, _ =>
            let number ← reserve anchor
            advance
            complete number (.scalar line (tagOr written (defaultTag style value)) value)
        | .blockEntry, _, true => sequenceOf (indentlessEntries fuel #[])
        | .flowSequenceStart, _, _ => sequenceOf (do advance; flowEntries fuel token.startLine true #[])
        | .blockSequenceStart, true, _ => sequenceOf (do advance; blockEntries fuel token.startLine #[])
        | .flowMappingStart, _, _ => mappingOf (flowPairs fuel token.startLine true #[])
        | .blockMappingStart, true, _ => mappingOf (blockPairs fuel token.startLine #[])
        | _, _, _ =>
            if anchor.isNone && written.isNone then
              failAt first.startLine token "did not find expected node content"
            else
              let number ← reserve anchor
              complete number (.scalar line (tagOr written Tag.null) [])

/-- A node, or an empty one if the next token is one of those that cannot start it. -/
def nodeUnless : Nat → List TokenKind → Nat → Bool → Bool → Build Node
  | 0, _, _, _, _ => throw ⟨0, "nesting too deep"⟩
  | fuel + 1, stops, line, block, indentless => do
      let token ← peek
      if stops.contains token.kind then return emptyNode line
      node fuel block indentless

/-- The entries of a sequence in the column of the mapping around it. -/
def indentlessEntries : Nat → Array Node → Build (Array Node)
  | 0, _ => throw ⟨0, "nesting too deep"⟩
  | fuel + 1, items => do
      let token ← peek
      match token.kind with
      | .blockEntry =>
          advance
          let item ← nodeUnless fuel [.blockEntry, .key, .value, .blockEnd] token.endLine true false
          indentlessEntries fuel (items.push item)
      | _ => return items

/-- The entries of a block sequence, up to and with its end; it began at line `context`. -/
def blockEntries : Nat → Nat → Array Node → Build (Array Node)
  | 0, _, _ => throw ⟨0, "nesting too deep"⟩
  | fuel + 1, context, items => do
      let token ← peek
      match token.kind with
      | .blockEntry =>
          advance
          let item ← nodeUnless fuel [.blockEntry, .blockEnd] token.endLine true false
          blockEntries fuel context (items.push item)
      | .blockEnd =>
          advance
          return items
      | _ => failAt context token "did not find expected '-' indicator"

/-- The entries of a block mapping, up to and with its end; it began at line `context`. -/
def blockPairs : Nat → Nat → Array (Node × Node) → Build (Array (Node × Node))
  | 0, _, _ => throw ⟨0, "nesting too deep"⟩
  | fuel + 1, context, entries => do
      let token ← peek
      match token.kind with
      | .key =>
          advance
          let stops : List TokenKind := [.key, .value, .blockEnd]
          let key ← nodeUnless fuel stops token.endLine true true
          let next ← peek
          if next.kind = .value then
            advance
            let value ← nodeUnless fuel stops next.endLine true true
            blockPairs fuel context (entries.push (key, value))
          else blockPairs fuel context (entries.push (key, emptyNode next.startLine))
      | .blockEnd =>
          advance
          return entries
      | _ => failAt context token "did not find expected key"

/-- The entries of a flow sequence that began at line `context`, up to and with its closing
bracket. -/
def flowEntries : Nat → Nat → Bool → Array Node → Build (Array Node)
  | 0, _, _, _ => throw ⟨0, "nesting too deep"⟩
  | fuel + 1, context, isFirst, items => do
      let token ← peek
      if token.kind = .flowSequenceEnd then
        advance
        return items
      if !isFirst then
        if token.kind = .flowEntry then advance
        else failAt context token "did not find expected ',' or ']'"
      let token ← peek
      match token.kind with
      | .flowSequenceEnd =>
          advance
          return items
      | .key =>
          advance
          let pair ← flowPair fuel
          flowEntries fuel context false
            (items.push (.mapping (token.startLine + 1) Tag.map [pair]))
      | _ =>
          let item ← node fuel false false
          flowEntries fuel context false (items.push item)

/-- A single pair inside a flow sequence, after its key indicator. -/
def flowPair : Nat → Build (Node × Node)
  | 0 => throw ⟨0, "nesting too deep"⟩
  | fuel + 1 => do
      let token ← peek
      let key ←
        if [TokenKind.value, .flowEntry, .flowSequenceEnd].contains token.kind then do
          advance
          pure (emptyNode token.endLine)
        else node fuel false false
      let next ← peek
      if next.kind = .value then
        advance
        let token ← peek
        return (key, ← nodeUnless fuel [.flowEntry, .flowSequenceEnd] token.startLine false false)
      else return (key, emptyNode next.startLine)

/-- The entries of a flow mapping that began at line `context`, up to and with its closing brace. -/
def flowPairs : Nat → Nat → Bool → Array (Node × Node) → Build (Array (Node × Node))
  | 0, _, _, _ => throw ⟨0, "nesting too deep"⟩
  | fuel + 1, context, isFirst, entries => do
      let token ← peek
      if token.kind = .flowMappingEnd then
        advance
        return entries
      if !isFirst then
        if token.kind = .flowEntry then advance
        else failAt context token "did not find expected ',' or '\x7d'"
      let token ← peek
      match token.kind with
      | .flowMappingEnd =>
          advance
          return entries
      | .key =>
          advance
          let after ← peek
          let key ← nodeUnless fuel [.value, .flowEntry, .flowMappingEnd] after.startLine false false
          let next ← peek
          if next.kind = .value then
            advance
            let token ← peek
            let value ← nodeUnless fuel [.flowEntry, .flowMappingEnd] token.startLine false false
            flowPairs fuel context false (entries.push (key, value))
          else flowPairs fuel context false (entries.push (key, emptyNode next.startLine))
      | _ =>
          let key ← node fuel false false
          let next ← peek
          flowPairs fuel context false (entries.push (key, emptyNode next.startLine))

end

/-- The directives in front of a document: at most one version, which is 1.1, and tag handles that
differ. -/
def directives : Nat → Bool → Build Unit
  | 0, _ => pure ()
  | fuel + 1, versionSeen => do
      let token ← peek
      match token.kind with
      | .versionDirective major minor =>
          if versionSeen then throw ⟨token.startLine, "found duplicate %YAML directive"⟩
          if major ≠ 1 || minor ≠ 1 then
            throw ⟨token.startLine, "found incompatible YAML document"⟩
          advance
          directives fuel true
      | .tagDirective handle uri =>
          if ((← get).handles.lookup handle).isSome then
            throw ⟨token.startLine, "found duplicate %TAG directive"⟩
          modify fun st => { st with handles := st.handles ++ [(handle, uri)] }
          advance
          directives fuel versionSeen
      | _ => pure ()

/-- The handles that need no declaration. -/
def defaultHandles : List (Text × Text) := [("!", "!"), ("!!", Tag.standard)]

/-- The root of the first document, if the stream has one. -/
def firstRoot (fuel : Nat) : Build (Option Node) := do
  let token ← peek
  let root ←
    match token.kind with
    | .streamEnd => return none
    | .versionDirective .. | .tagDirective .. | .documentStart => do
        directives fuel false
        let token ← peek
        if token.kind ≠ .documentStart then
          throw ⟨token.startLine, "did not find expected <document start>"⟩
        advance
        modify fun st => { st with handles := st.handles ++ defaultHandles }
        let token ← peek
        match token.kind with
        | .versionDirective .. | .tagDirective .. | .documentStart | .documentEnd | .streamEnd =>
            pure (emptyNode token.startLine)
        | _ => node fuel true false
    | _ => do
        modify fun st => { st with handles := defaultHandles }
        node fuel true false
  let _ ← peek
  return some root

end Composer

/-- Reads the first document of a text, if there is one. -/
def Document.parse (t : Text) : Except Fault (Option Document) := do
  let chars ← sourceChars t
  let stream := TokenStream.ofChars chars
  let size := stream.tokens.size + 2
  let (root, st) ← (Composer.firstRoot (4 * size)).run { stream }
  return root.map fun root => { root, anchored := st.anchored, size }

end PermissionGuard.Yaml
