import PermissionGuard.Toml.Lexical

/-!
TOML documents. Tables are opened by headers and dotted keys; a table that was only named on the
way to another may still be opened once.
-/

namespace PermissionGuard.Toml

inductive Value where
  | text (t : Text)
  | int (n : Int)
  | float
  | bool (b : Bool)
  | datetime
  | array (items : List Value)
  | table (entries : List (Text × Value))
  /-- The tables that headers with two brackets append. -/
  | tables (items : List (List (Text × Value)))
  deriving Repr, Inhabited

abbrev Entries := List (Text × Value)

/-- The path of a table or value from the root. -/
abbrev Path := List Text

def setKey (entries : Entries) (key : Text) (value : Value) : Entries :=
  if entries.any (·.1 == key) then
    entries.map fun (k, v) => if k == key then (k, value) else (k, v)
  else entries ++ [(key, value)]

/-- The table at a path; of appended tables, the last. -/
def tableAt : Path → Entries → Option Entries
  | [], entries => some entries
  | k :: path, entries =>
      match entries.lookup k with
      | some (.table inner) => tableAt path inner
      | some (.tables items) => items.getLast?.bind (tableAt path)
      | _ => none

/-- Sets a key of the table at a path. -/
def setAt : Path → Text → Value → Entries → Option Entries
  | [], key, value, entries => some (setKey entries key value)
  | k :: path, key, value, entries =>
      match entries.lookup k with
      | some (.table inner) => (setAt path key value inner).map fun inner => setKey entries k (.table inner)
      | some (.tables items) => do
          let last ← setAt path key value (← items.getLast?)
          some (setKey entries k (.tables (items.dropLast ++ [last])))
      | _ => none

/-- A document under construction. -/
structure Draft where
  root : Entries := []
  /-- The tables that may still be opened. -/
  implicit : List Path := []
  /-- The keys that were given arrays, which a later value replaces. -/
  arrays : List Path := []

abbrev Edit := StateT Draft Option

def Draft.markImplicit (d : Draft) (path : Path) : Draft := { d with implicit := path :: d.implicit }

def Draft.unmarkImplicit (d : Draft) (path : Path) : Draft :=
  { d with implicit := d.implicit.filter (· != path) }

/-- Gives a key of the table at a path its value. A key has one value, arrays and tables that may
still be opened excepted. -/
def assign (path : Path) (key : Text) (value : Value) : Edit Unit := do
  let d ← get
  let entries ← liftM (tableAt path d.root)
  let full := path ++ [key]
  if (entries.lookup key).isNone then
    set { d with root := ← liftM (setAt path key value d.root) }
  else if d.arrays.contains full then
    set { d.unmarkImplicit full with root := ← liftM (setAt path key value d.root) }
  else if d.implicit.contains full then set (d.unmarkImplicit full)
  else failure

/-- Notes what kind of value the key at a path was given last. -/
def noteKind (full : Path) (isArray : Bool) : Edit Unit :=
  modify fun d =>
    if isArray then { d with arrays := full :: d.arrays }
    else { d with arrays := d.arrays.filter (· != full) }

def Value.isArray : Value → Bool
  | .array _ => true
  | _ => false

/-- Makes sure that all tables on the way to a path exist. -/
def openParents : Path → Path → Edit Unit
  | _, [] => pure ()
  | done, k :: rest => do
      let d ← get
      let entries ← liftM (tableAt done d.root)
      match entries.lookup k with
      | none =>
          let root ← liftM (setAt done k (.table []) d.root)
          set { d.markImplicit (done ++ [k]) with root }
      | some (.table _) => pure ()
      | some (.tables _) => pure ()
      | some _ => failure
      openParents (done ++ [k]) rest

/-- Opens the table at a path, or appends a table there. -/
def openTable (path : Path) (append : Bool) : Edit Unit := do
  let parents := path.dropLast
  let key ← liftM path.getLast?
  openParents [] parents
  if append then
    let d ← get
    let entries ← liftM (tableAt parents d.root)
    let items ← match entries.lookup key with
      | none => pure []
      | some (.tables items) => pure items
      | some _ => failure
    let root ← liftM (setAt parents key (.tables (items ++ [[]])) d.root)
    set { d with root }
  else assign parents key (.table [])

/-- Opens the tables that the parts of a dotted key name, below a path. -/
def openDotted : Path → List Text → Edit Unit
  | _, [] => pure ()
  | path, part :: parts => do
      modify (·.markImplicit (path ++ [part]))
      openTable (path ++ [part]) false
      openDotted (path ++ [part]) parts

/-- Enters a value under a dotted key of an inline table. -/
def putDotted : List Text → Value → Entries → Option Entries
  | [], _, _ => none
  | [key], value, entries => some (setKey entries key value)
  | k :: keys, value, entries =>
      match entries.lookup k with
      | none => (putDotted keys value []).map fun inner => setKey entries k (.table inner)
      | some (.table inner) =>
          (putDotted keys value inner).map fun inner => setKey entries k (.table inner)
      | some _ => none

/-- A simple value that is no string: a truth value, a number, a date or a time. -/
def bareValue? (cs : List Char) : Option (Value × List Char) :=
  let letters := cs.takeWhile Char.isAlpha
  if letters == ['t', 'r', 'u', 'e'] then some (.bool true, cs.drop 4)
  else if letters == ['f', 'a', 'l', 's', 'e'] then some (.bool false, cs.drop 5)
  else
    let unsigned := match cs with
      | '+' :: rest => rest
      | '-' :: rest => rest
      | rest => rest
    if ['i', 'n', 'f'].isPrefixOf unsigned || ['n', 'a', 'n'].isPrefixOf unsigned then
      some (.float, unsigned.drop 3)
    else if !unsigned.head?.any Char.isDigit then none
    else
      let signed := unsigned.length < cs.length
      let number := (cs.take (cs.length - unsigned.length))
        ++ unsigned.takeWhile fun c => c.isAlphanum || ['_', '.', '+', '-'].contains c
      let isDate := !signed && (unsigned.dropWhile Char.isDigit).head?.any fun c => c == '-' || c == ':'
      if isDate then
        let written := cs.takeWhile fun c =>
          c.isDigit || ['-', ':', 'T', 't', ' ', '.', 'Z', 'z', '+'].contains c
        let trimmed := (written.reverse.dropWhile (· == ' ')).reverse
        if isDatetime trimmed then some (.datetime, cs.drop written.length) else none
      else
        let based := ['0', 'x'].isPrefixOf unsigned || ['0', 'o'].isPrefixOf unsigned
          || ['0', 'b'].isPrefixOf unsigned
        if based && (signed || unsigned[2]? == some '_') then none
        else if !based && number.any (['.', 'e', 'E'].contains ·) then
          if isFloat number then some (.float, cs.drop number.length) else none
        else (integer? number).map fun n => (.int n, cs.drop number.length)

/-- A string in any of its four forms. -/
def string? (cs : List Char) : Option (Text × List Char) :=
  let fuel := cs.length + 1
  let found := match cs with
    | '"' :: '"' :: '"' :: rest => multilineBasic fuel [] (skipFirstNewline rest)
    | '\'' :: '\'' :: '\'' :: rest => multilineLiteral fuel [] (skipFirstNewline rest)
    | '"' :: rest => basicString fuel [] rest
    | '\'' :: rest => literalString rest
    | _ => none
  found.map fun (t, rest) => (Text.ofChars t, rest)

mutual

/-- A value for a key. Inline tables are entered into the document while they are read. -/
def value : Nat → Path → Bool → List Char → Edit (Value × List Char)
  | 0, _, _, _ => failure
  | fuel + 1, full, inArray, cs => do
      match skipSpaces cs with
      | '[' :: rest =>
          noteKind full true
          arrayItems fuel full #[] rest
      | '\x7b' :: rest =>
          modify (·.markImplicit full)
          openTable full inArray
          inlineEntries fuel full true [] (skipSpaces rest)
      | cs =>
          match string? cs with
          | some (t, rest) => return (.text t, rest)
          | none => liftM (bareValue? cs)

/-- The items of an array up to its closing bracket. -/
def arrayItems : Nat → Path → Array Value → List Char → Edit (Value × List Char)
  | 0, _, _, _ => failure
  | fuel + 1, full, items, cs => do
      match skipBlankLines (cs.length + 1) cs with
      | ']' :: rest => return (.array items.toList, rest)
      | cs =>
          let (item, rest) ← value fuel full true cs
          match skipBlankLines (rest.length + 1) rest with
          | ',' :: rest => arrayItems fuel full (items.push item) rest
          | ']' :: rest => return (.array (items.push item).toList, rest)
          | _ => failure

/-- The entries of an inline table up to its closing brace. -/
def inlineEntries : Nat → Path → Bool → Entries → List Char → Edit (Value × List Char)
  | 0, _, _, _, _ => failure
  | fuel + 1, full, isFirst, entries, cs => do
      match cs with
      | '\x7d' :: rest => if isFirst then return (.table entries, rest) else failure
      | cs =>
          let (keys, rest) ← liftM (key? (cs.length + 1) cs)
          let last ← liftM keys.getLast?
          match rest with
          | '=' :: rest =>
              openDotted full keys.dropLast
              let path := full ++ keys.dropLast
              let (item, rest) ← value fuel (path ++ [last]) false rest
              assign path last item
              noteKind (path ++ [last]) item.isArray
              let entries ← liftM (putDotted keys item entries)
              match skipSpaces rest with
              | ',' :: rest => inlineEntries fuel full false entries (skipSpaces rest)
              | '\x7d' :: rest => return (.table entries, rest)
              | _ => failure
          | _ => failure

end

/-- The end of a line with nothing but blanks and a comment. -/
def endOfLine? (cs : List Char) : Option (List Char) :=
  match skipComment (skipSpaces cs) with
  | [] => some []
  | c :: rest => if isNewline c then some rest else none

/-- The lines of a document, with the path of the table they belong to. -/
def lines : Nat → Path → List Char → Edit Unit
  | 0, _, _ => failure
  | fuel + 1, path, cs => do
      match skipBlankLines (cs.length + 1) cs with
      | [] => pure ()
      | '[' :: '[' :: rest =>
          let (keys, rest) ← liftM (key? (rest.length + 1) rest)
          match rest with
          | ']' :: ']' :: rest =>
              openTable keys true
              noteKind keys false
              lines fuel keys (← liftM (endOfLine? rest))
          | _ => failure
      | '[' :: rest =>
          let (keys, rest) ← liftM (key? (rest.length + 1) rest)
          match rest with
          | ']' :: rest =>
              openTable keys false
              noteKind keys false
              lines fuel keys (← liftM (endOfLine? rest))
          | _ => failure
      | cs =>
          let (keys, rest) ← liftM (key? (cs.length + 1) cs)
          let last ← liftM keys.getLast?
          match rest with
          | '=' :: rest =>
              openDotted path keys.dropLast
              let inner := path ++ keys.dropLast
              let (item, rest) ← value (rest.length + 1) (inner ++ [last]) false rest
              assign inner last item
              noteKind (inner ++ [last]) item.isArray
              lines fuel path (← liftM (endOfLine? rest))
          | _ => failure

/-- A document without a byte order mark. -/
def stripMark : Text → Text
  | 0xFF :: 0xFE :: rest => rest
  | 0xFE :: 0xFF :: rest => rest
  | 0xEF :: 0xBB :: 0xBF :: rest => rest
  | t => t

/-- Reads a document, if the text is one. -/
def parse? (t : Text) : Option Entries := do
  let cs ← Text.chars? (stripMark t)
  if !isClean cs then none
  let ((), draft) ← (lines (cs.length + 1) [] cs).run {}
  some draft.root

end PermissionGuard.Toml
