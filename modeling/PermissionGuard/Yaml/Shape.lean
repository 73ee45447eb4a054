import PermissionGuard.Yaml.Node
import PermissionGuard.Yaml.Base64
import PermissionGuard.Text.Quoted

/-!
Typed reading of a document. A shape says what is expected, and everything in the document that has
another type is noted as a mismatch, in document order.
-/

namespace PermissionGuard.Yaml

/-- What is expected at a place of a document. -/
inductive Shape where
  | text
  | int
  | bool
  | list (item : Shape)
  /-- A mapping from texts. -/
  | table (item : Shape)
  /-- A mapping with known keys; all other keys are ignored. -/
  | record (name : Text) (fields : List (Text × Shape))
  deriving Repr, Inhabited

/-- The name of a shape in mismatches. -/
def Shape.name : Shape → Text
  | .text => "string"
  | .int => "int"
  | .bool => "bool"
  | .list item => "[]" ++ item.name
  | .table item => "map[string]" ++ item.name
  | .record name _ => name

/-- What was read for a shape. Fields that are absent from a record were not set. -/
inductive Value where
  /-- The absent collection that a null stands for. -/
  | null
  | text (t : Text)
  | int (n : Int)
  | bool (b : Bool)
  | list (items : List Value)
  | table (entries : List (Text × Value))
  | record (fields : List (Text × Value))
  deriving Repr, Inhabited

namespace Value

/-- Sets a key of an association list, keeping the place of a key that is there already. -/
def put (entries : List (Text × Value)) (key : Text) (value : Value) : List (Text × Value) :=
  if entries.any (·.1 == key) then
    entries.map fun (k, v) => if k == key then (k, value) else (k, v)
  else entries ++ [(key, value)]

end Value

/-- The state of a typed reader. -/
structure Reading where
  document : Document
  mismatches : Array Text := #[]
  /-- How many nodes were read, and how many of them through aliases. -/
  nodes : Nat := 0
  aliased : Nat := 0
  /-- The aliases that are being followed. -/
  following : List Nat := []
  /-- While a mapping is merged into another: the keys that are taken. -/
  taken : Option (List Text) := none

namespace Reading

abbrev Read := StateT Reading (Except Fault)

/-- Whether so many of the nodes came through aliases that the document is taken for an attack: 99
of 100 of them, and from 400000 nodes on less, down to 10 of 100 at 4000000. -/
def isExcessive (nodes aliased : Nat) : Bool :=
  aliased > 100 && nodes > 1000 &&
    if nodes ≤ 400000 then aliased * 100 > nodes * 99
    else if nodes ≥ 4000000 then aliased * 10 > nodes
    else aliased * 360000000 > nodes * (99 * 3600000 - 89 * (nodes - 400000))

/-- Counts a node. -/
def count : Read Unit := do
  modify fun st => { st with
    nodes := st.nodes + 1
    aliased := if st.following.isEmpty then st.aliased else st.aliased + 1 }
  let st ← get
  if isExcessive st.nodes st.aliased then throw ⟨0, "document contains excessive aliasing"⟩

def note (mismatch : Text) : Read Unit :=
  modify fun st => { st with mismatches := st.mismatches.push mismatch }

/-- The value of a node as it is shown in a mismatch, which is cut when it is long. -/
def shownValue (value : Text) : Text :=
  if value.length > 10 then " \x60" ++ value.take 7 ++ "...\x60" else " \x60" ++ value ++ "\x60"

/-- Notes that a node does not have the expected shape. -/
def noteMismatch (node : Node) (shape : Shape) : Read Unit :=
  let shown := if node.tag = Tag.seq || node.tag = Tag.map then node.text else shownValue node.text
  note ("line " ++ Text.ofNat node.line ++ ": cannot unmarshal " ++ node.tag ++ shown
    ++ " into " ++ shape.name)

/-- The words that count as truth values only where one is expected. -/
def truthWord? (t : Text) : Option Bool :=
  if ["y", "Y", "yes", "on"].any (Text.ofString · == t) then some true
  else if ["n", "N", "no", "off"].any (Text.ofString · == t) then some false
  else none

/-- The value of a scalar node, with the bytes of binary data. -/
def scalarValue (tag value : Text) : Except Fault Resolved := do
  if tag = Tag.binary then
    match Base64.decode? value with
    | some bytes => return .text bytes
    | none => throw ⟨0, "!!binary value contains invalid base64 data"⟩
  resolve tag value

/-- What a null leaves behind: no collection where one is expected, and all else stays as it was. -/
def nullValue : Shape → Option Value
  | .list _ => some .null
  | .table _ => some .null
  | _ => none

/-- Reads a scalar. -/
def scalar (node : Node) (tag value : Text) (shape : Shape) : Read (Option Value × Bool) := do
  let resolved ← liftM (scalarValue tag value)
  let refuse : Read (Option Value × Bool) := do
    noteMismatch node shape
    return (none, false)
  match resolved, shape with
  | .null, shape => return (nullValue shape, (nullValue shape).isSome)
  | .text t, .text => return (some (.text t), true)
  | _, .text => return (some (.text value), true)
  | .int n, .int => if n ≤ Number.maxInt64 then return (some (.int n), true) else refuse
  | .float x, .int =>
      match x.toInt64? with
      | some n => return (some (.int n), true)
      | none => refuse
  | .bool b, .bool => return (some (.bool b), true)
  | .text t, .bool =>
      match truthWord? t with
      | some b => return (some (.bool b), true)
      | none => refuse
  | _, _ => refuse

/-- Notes every pair of equal keys of a mapping, and tells whether there was one. -/
def noteDuplicates : List (Node × Node) → Read Bool
  | [] => return false
  | (key, _) :: rest => do
      let same := rest.filter fun (other, _) => key.sameKind other && key.text == other.text
      for (other, _) in same do
        note ("line " ++ Text.ofNat other.line ++ ": mapping key " ++ other.text.quote
          ++ " already defined at line " ++ Text.ofNat key.line)
      let later ← noteDuplicates rest
      return !same.isEmpty || later

/-- The node that an alias stands for. -/
def target (number : Nat) : Read Node := do
  return (← get).document.anchored.getD number default

/-- Follows aliases to the node that decides the kind. -/
def settled (node : Node) : Read Node := do
  match node with
  | .alias _ _ _ number => target number
  | _ => return node

/-- The fault of a merge key whose value is no mapping. -/
def wantsMap : Fault := ⟨0, "map merge requires map or sequence of maps as the value"⟩

/-- The mappings that a merge key names. -/
def mergeSources (node : Node) : Read (List Node) := do
  match node with
  | .mapping .. => return [node]
  | .alias .. => if (← settled node).isMapping then return [node] else throw wantsMap
  | .sequence _ _ items =>
      for item in items do
        if !(← settled item).isMapping then throw wantsMap
      return items
  | .scalar .. => throw wantsMap

/-- The texts among the keys of a mapping. -/
def textKeys (entries : List (Node × Node)) : Read (List Text) :=
  entries.foldlM (fun keys (key, _) => do
    count
    match ← settled key with
    | .scalar _ tag value =>
        match ← liftM (scalarValue tag value) with
        | .text t => return t :: keys
        | _ => return keys
    | _ => return keys) []

/-- The fields or entries read of a mapping so far. -/
abbrev Assigned := List (Text × Value)

/-- Reads the values of a list, of which those that are null are left out. -/
def readItems (read : Node → Read (Option Value × Bool)) (items : List Node) : Read (Array Value) :=
  items.foldlM (fun values item => do
    match ← read item with
    | (some value, true) => return values.push value
    | _ => return values) #[]

/-- Reads the own entries of a mapping. While it is merged into another mapping, the keys that are
taken there are skipped, and its own are taken from then on. -/
def readEntries (readKey : Node → Read (Option Text))
    (assign : Assigned × List Text → Text → Node × Node → Read (Assigned × List Text))
    (entries : List (Node × Node)) (start : Assigned) : Read Assigned := do
  let taken := (← get).taken
  modify fun st => { st with taken := none }
  let (assigned, taken) ← (entries.filter (!·.1.isMergeKey)).foldlM
    (fun (state : (Assigned × List Text) × Option (List Text)) entry => do
      let (assigned, taken) := state
      match ← readKey entry.1 with
      | none => return (assigned, taken)
      | some key =>
          if taken.any (·.contains key) then return (assigned, taken)
          return (← assign assigned key entry, taken.map (key :: ·)))
    ((start, []), taken)
  modify fun st => { st with taken }
  return assigned.1

/-- Merges the mappings that the merge key of a mapping names, if it has one. Its own keys are
taken. -/
def mergeEntries (readInto : Assigned → Node → Read Assigned) (entries : List (Node × Node))
    (assigned : Assigned) : Read Assigned := do
  match (entries.filter (·.1.isMergeKey)).getLast? with
  | none => return assigned
  | some (_, source) =>
      let before := (← get).taken
      if before.isNone then
        let keys ← textKeys entries
        modify fun st => { st with taken := some keys }
      let assigned ← (← mergeSources source).foldlM readInto assigned
      if before.isNone then modify fun st => { st with taken := none }
      return assigned

/-- Sets a field of a record, which a mapping may do only once. The second list holds the fields
that the mapping has set. -/
def assignField (name : Text) (fields : List (Text × Shape))
    (read : Shape → Option Value → Node → Read (Option Value × Bool))
    (state : Assigned × List Text) (key : Text) (entry : Node × Node) :
    Read (Assigned × List Text) := do
  let (assigned, done) := state
  match fields.lookup key with
  | none => return state
  | some shape =>
      if done.contains key then
        note ("line " ++ Text.ofNat entry.1.line ++ ": field " ++ key ++ " already set in type " ++ name)
        return state
      match ← read shape (assigned.lookup key) entry.2 with
      | (some value, _) => return (Value.put assigned key value, key :: done)
      | (none, _) => return (assigned, key :: done)

/-- Sets an entry of a table; of two equal keys the later wins. -/
def assignEntry (item : Shape) (read : Shape → Option Value → Node → Read (Option Value × Bool))
    (state : Assigned × List Text) (key : Text) (entry : Node × Node) :
    Read (Assigned × List Text) := do
  match ← read item none entry.2 with
  | (some value, true) => return (Value.put state.1 key value, state.2)
  | _ => return state

/-- Reads a node on top of what was read before, and tells whether there was a value. -/
def node : Nat → Shape → Option Value → Node → Read (Option Value × Bool)
  | 0, _, _, _ => throw ⟨0, "nesting too deep"⟩
  | fuel + 1, shape, before, n => do
      count
      match n with
      | .alias _ name self number =>
          if (← get).following.contains self then
            throw ⟨0, "anchor '" ++ name ++ "' value contains itself"⟩
          modify fun st => { st with following := self :: st.following }
          let result ← node fuel shape before (← target number)
          modify fun st => { st with following := st.following.drop 1 }
          return result
      | .scalar _ tag value => scalar n tag value shape
      | .sequence _ _ items =>
          match shape with
          | .list item =>
              let values ← readItems (node fuel item none) items
              return (some (.list values.toList), true)
          | _ =>
              noteMismatch n shape
              return (none, false)
      | .mapping _ _ entries =>
          if ← noteDuplicates entries then return (none, false)
          let readKey (key : Node) : Read (Option Text) := do
            match ← node fuel .text none key with
            | (some (.text t), true) => return some t
            | _ => return none
          match shape with
          | .record name fields =>
              let start := match before with
                | some (.record fields) => fields
                | _ => []
              let own ← readEntries readKey (assignField name fields (node fuel)) entries start
              let readInto (assigned : Assigned) (source : Node) : Read Assigned := do
                match ← node fuel shape (some (.record assigned)) source with
                | (some (.record assigned), _) => return assigned
                | _ => return assigned
              return (some (.record (← mergeEntries readInto entries own)), true)
          | .table item =>
              let start := match before with
                | some (.table entries) => entries
                | _ => []
              let own ← readEntries readKey (assignEntry item (node fuel)) entries start
              let readInto (assigned : Assigned) (source : Node) : Read Assigned := do
                match ← node fuel shape (some (.table assigned)) source with
                | (some (.table assigned), _) => return assigned
                | _ => return assigned
              return (some (.table (← mergeEntries readInto entries own)), true)
          | _ =>
              noteMismatch n shape
              return (none, false)

end Reading

/-- Reads the first document of a text as a value of a shape. There is none if there is no document
or it is null. -/
def read (shape : Shape) (t : Text) : Except DecodeError (Option Value) := do
  match Document.parse t with
  | .error fault => throw (.malformed fault)
  | .ok none => return none
  | .ok (some document) =>
      let fuel := 4 * (document.size + 1) * (document.size + 1)
      match (Reading.node fuel shape none document.root).run { document, nodes := 1 } with
      | .error fault => throw (.malformed fault)
      | .ok ((value, _), reading) =>
          if reading.mismatches.isEmpty then return value
          else throw (.mismatched reading.mismatches.toList)

end PermissionGuard.Yaml
