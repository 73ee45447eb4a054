import PermissionGuard.Catalog.Mapping
import PermissionGuard.Command.Options
import PermissionGuard.Config.File
import PermissionGuard.Program.ModelFile
import PermissionGuard.Ssa.CallEdges

/-!
What the tools need from their surroundings and what they leave behind: files are read through a
host, output is collected, and a tool may fail after it has printed something.
-/

namespace PermissionGuard.Command

/-- The surroundings of a tool. -/
structure Host (m : Type → Type) where
  /-- What stands under a path. -/
  entry : Text → m FileEntry
  /-- The seconds that an analysis took, as they are shown. -/
  seconds : m Text
  /-- Whether colours are shown. -/
  colours : Bool

/-- What a tool has printed. -/
structure Output where
  stdout : Text := []
  stderr : Text := []
  deriving DecidableEq, Repr, Inhabited

/-- Why a tool fails. -/
inductive Error where
  | badConfig (path : Text) (cause : ConfigFile.Error)
  | noPackage
  | unsupportedCallgraph (cause : Ssa.CallgraphMode.Error)
  | packagesNotLoaded
  | notOneModel (args : List Text)
  | modelNotOpened (path : Text) (cause : FileError)
  | modelNotRead (path : Text) (cause : FileError)
  | badModel (path : Text) (cause : ModelFile.Error)
  | noCatalogSet
  | noCatalogGiven
  | catalogNotOpened (path : Text) (cause : FileError)
  | catalogNotRead (path : Text) (cause : FileError)
  | badCatalog (path : Text) (cause : Mapping.Error)
  deriving DecidableEq, Repr

def Error.message : Error → Text
  | .badConfig path cause => "failed to load config file " ++ path ++ ": " ++ cause.message
  | .noPackage => "expected at least one Go package"
  | .unsupportedCallgraph cause => cause.message
  | .packagesNotLoaded => "could not load program: no packages"
  | .notOneModel args =>
      "expected exactly one model file, got " ++ Text.ofNat args.length ++ " ("
        ++ Text.join " " args ++ ")"
  | .modelNotOpened path cause =>
      "could not load model: could not open model file: " ++ cause.message path
  | .modelNotRead path cause =>
      "could not load model: " ++ path ++ ": could not decode model: yaml: input error: "
        ++ cause.message path
  | .badModel path cause => "could not load model: " ++ path ++ ": " ++ cause.message
  | .noCatalogSet => "no catalog: set catalog in the config or use -catalog"
  | .noCatalogGiven => "no catalog: give a mapping file or set catalog in the config"
  | .catalogNotOpened path cause =>
      "could not load catalog: could not open catalog: " ++ cause.message path
  | .catalogNotRead path cause =>
      "could not load catalog: " ++ path ++ ":0: " ++ cause.message path
  | .badCatalog path cause => "could not load catalog: " ++ cause.message path

/-- A run of a tool. -/
abbrev Session (m : Type → Type) := ExceptT Error (StateT Output m)

namespace Session

variable {m : Type → Type} [Monad m]

def print (t : Text) : Session m Unit := modify fun out => { out with stdout := out.stdout ++ t }

/-- Writes the entries that are shown at a level. -/
def logAll (level : Int) (entries : List LogEntry) : Session m Unit :=
  modify fun out => { out with stderr := out.stderr ++ LogEntry.printAll level entries }

def log (level : Int) (kind : LogLevel) (message : Text) : Session m Unit :=
  logAll level [⟨kind, message⟩]

/-- The configuration under a path, or the default without a path. Verbose runs log more than the
file says. -/
def loadConfig (host : Host m) (path : Text) (verbose : Bool) : Session m Config := do
  let config ←
    if path.isEmpty then pure Config.default
    else
      match ConfigFile.read path (← host.entry path) with
      | .ok config => pure config
      | .error cause => throw (.badConfig path cause)
  return if verbose then { config with logLevel := LogLevel.debug.rank } else config

/-- The program under a path. -/
def loadFile (host : Host m) (path : Text) : Session m Arena := do
  match (← host.entry path).contents with
  | .error .isDirectory => throw (.modelNotRead path .isDirectory)
  | .error cause => throw (.modelNotOpened path cause)
  | .ok t =>
      match ModelFile.read t with
      | .ok arena => return arena
      | .error cause => throw (.badModel path cause)

/-- The program that the arguments name. There is no loader for packages, so that an analysis of
packages ends when its call graph mode is known. -/
def loadModel (host : Host m) (options : SharedOptions) (args : List Text) (config : Config) :
    Session m Arena := do
  let level := config.effectiveLevel
  if options.packages then
    if args.isEmpty then throw .noPackage
    match Ssa.CallgraphMode.ofName config.callgraphAnalysis with
    | .error cause => throw (.unsupportedCallgraph cause)
    | .ok _ =>
        log level .info ("loading packages " ++ printList args)
        throw .packagesNotLoaded
  else
    match args with
    | [path] =>
        log level .info ("reading model " ++ path)
        loadFile host path
    | _ => throw (.notOneModel args)

/-- The catalog under a path, restricted to permissions if there are any. -/
def loadCatalog (host : Host m) (path : Text) (permissions : List Text) : Session m Catalog := do
  match (← host.entry path).contents with
  | .error .isDirectory => throw (.catalogNotRead path .isDirectory)
  | .error cause => throw (.catalogNotOpened path cause)
  | .ok t =>
      match Mapping.read t permissions with
      | .ok catalog => return catalog
      | .error cause => throw (.badCatalog path cause)

end Session

end PermissionGuard.Command
