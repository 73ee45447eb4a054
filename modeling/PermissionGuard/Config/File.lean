import PermissionGuard.Config.Basic
import PermissionGuard.Files
import PermissionGuard.Text.Utf8
import PermissionGuard.Toml.Document
import PermissionGuard.Yaml.Record

/-!
Configuration files, in TOML if their names say so and in YAML otherwise. What a file does not set
keeps its default.
-/

namespace PermissionGuard.ConfigFile

/-- Why a file holds no configuration. -/
inductive Error where
  | unreadable (file : Text) (cause : FileError)
  | badYaml (cause : Yaml.DecodeError)
  | badToml
  deriving DecidableEq, Repr

def Error.message : Error → Text
  | .unreadable file cause => "could not read config file: " ++ cause.message file
  | .badYaml cause => "could not unmarshal config file as yaml: " ++ cause.message
  | .badToml => "could not unmarshal config file as toml"

/-! ### YAML -/

open Yaml (Shape) in
def shape : Shape :=
  .record "config.Config"
    [("options", .record "config.Options"
      [("pkg-filter", .text), ("callgraph-analysis", .text), ("branch-local-history", .bool),
       ("report-json", .bool), ("log-level", .int), ("silence-warn", .bool)]),
     ("catalog", .text), ("permissions", .list .text), ("failure-type", .text),
     ("proactive-checks", .list .text), ("library-prefixes", .list .text)]

/-- The settings with the options of a document. -/
def withOptions (s : Settings) (v : Yaml.Value) : Settings :=
  { s with
    pkgFilter := (v.textAt? "pkg-filter").getD s.pkgFilter
    callgraphAnalysis := (v.textAt? "callgraph-analysis").getD s.callgraphAnalysis
    branchLocalHistory := (v.boolAt? "branch-local-history").getD s.branchLocalHistory
    reportJson := (v.boolAt? "report-json").getD s.reportJson
    logLevel := (v.intAt? "log-level").getD s.logLevel
    silenceWarn := (v.boolAt? "silence-warn").getD s.silenceWarn }

/-- The settings with what a document sets. -/
def withDocument (s : Settings) (v : Yaml.Value) : Settings :=
  let s := ((v.field? "options").map (withOptions s)).getD s
  { s with
    catalog := (v.textAt? "catalog").getD s.catalog
    permissions := (v.textsAt? "permissions").getD s.permissions
    failureType := (v.textAt? "failure-type").getD s.failureType
    proactiveChecks := (v.textsAt? "proactive-checks").getD s.proactiveChecks
    libraryPrefixes := (v.textsAt? "library-prefixes").getD s.libraryPrefixes }

def readYaml (t : Text) : Except Error Settings :=
  match Yaml.read shape t with
  | .error cause => .error (.badYaml cause)
  | .ok none => .ok Settings.default
  | .ok (some v) => .ok (withDocument Settings.default v)

/-! ### TOML -/

/-- A setting that a TOML value can set, unless the value has another type. -/
structure Field where
  name : Text
  set : Toml.Value → Settings → Option Settings

def textField (name : Text) (set : Text → Settings → Settings) : Field where
  name
  set
    | .text t, s => some (set t s)
    | _, _ => none

def boolField (name : Text) (set : Bool → Settings → Settings) : Field where
  name
  set
    | .bool b, s => some (set b s)
    | _, _ => none

def intField (name : Text) (set : Int → Settings → Settings) : Field where
  name
  set
    | .int n, s => some (set n s)
    | _, _ => none

def textValue? : Toml.Value → Option Text
  | .text t => some t
  | _ => none

def textsField (name : Text) (set : List Text → Settings → Settings) : Field where
  name
  set
    | .array items, s => (items.mapM textValue?).map (set · s)
    | _, _ => none

/-- A character in lower case, for comparison with ASCII letters. -/
def foldChar (c : Char) : Char :=
  if c.toNat = 0x17F then 's' else if c.toNat = 0x212A then 'k' else c.toLower

/-- Whether two names differ in case only, where the first is in lower case. -/
def sameName (name key : Text) : Bool := name.chars == key.chars.map foldChar

/-- The field for a key: the one with exactly this name, or else one that differs in case. -/
def fieldFor? (fields : List Field) (key : Text) : Option Field :=
  (fields.find? (·.name == key)).or (fields.find? (sameName ·.name key))

/-- Sets all that a table gives; keys without a field are ignored. -/
def assignAll (fields : List Field) (entries : Toml.Entries) (s : Settings) : Option Settings :=
  entries.foldlM (fun s (key, value) =>
    match fieldFor? fields key with
    | some field => field.set value s
    | none => some s) s

def optionFields : List Field := [
  textField "pkg-filter" fun t s => { s with pkgFilter := t },
  textField "callgraph-analysis" fun t s => { s with callgraphAnalysis := t },
  boolField "branch-local-history" fun b s => { s with branchLocalHistory := b },
  boolField "report-json" fun b s => { s with reportJson := b },
  intField "log-level" fun n s => { s with logLevel := n },
  boolField "silence-warn" fun b s => { s with silenceWarn := b }]

def optionsField : Field where
  name := "options"
  set
    | .table entries, s => assignAll optionFields entries s
    | _, _ => none

def rootFields : List Field := [
  optionsField,
  textField "catalog" fun t s => { s with catalog := t },
  textsField "permissions" fun l s => { s with permissions := l },
  textField "failure-type" fun t s => { s with failureType := t },
  textsField "proactive-checks" fun l s => { s with proactiveChecks := l },
  textsField "library-prefixes" fun l s => { s with libraryPrefixes := l }]

def readToml (t : Text) : Except Error Settings :=
  match (Toml.parse? t).bind (assignAll rootFields · Settings.default) with
  | some s => .ok s
  | none => .error .badToml

/-! ### Files -/

def isToml (file : Text) : Bool := (Path.extension file).lowerAscii == ".toml"

/-- The configuration that a file holds, prepared with a reader of package filters. -/
def readWith (compile : FilterCompiler) (file : Text) (entry : FileEntry) :
    Except Error Config := do
  match entry.contents with
  | .error cause => throw (.unreadable file cause)
  | .ok t =>
      let settings ← if isToml file then readToml t else readYaml t
      return Config.prepareWith compile { settings with sourceFile := file }

def read (file : Text) (entry : FileEntry) : Except Error Config :=
  readWith Pattern.compile? file entry

end PermissionGuard.ConfigFile
