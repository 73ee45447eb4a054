import PermissionGuard.CallGraph.Listing
import PermissionGuard.Catalog.Listing
import PermissionGuard.Command.Session
import PermissionGuard.Misuse.Report

/-!
The three tools: the misuse report, the catalog listing and the recursion listing.
-/

namespace PermissionGuard.Command

variable {m : Type → Type} [Monad m]

def version : Text := "v0.3.1"

/-! ### Misuses -/

structure MisuseOptions extends SharedOptions where
  catalogPath : Text := []
  json : Bool := false
  branchLocal : Bool := false
  deriving Inhabited

def misuseIntroduction : Text :=
  Text.join "\n" [
    "Report the sensitive calls that are not guarded against a missing permission.",
    "Usage:",
    "  revdroid misuse [options] <model file>",
    "  revdroid misuse [options] -go <package path(s)>",
    "Examples:",
    "  % revdroid misuse -config config.yaml app.yaml",
    "  % revdroid misuse -config config.yaml -json -go ./cmd/server",
    ""]

def misuseFlags : List (Flag MisuseOptions) :=
  sharedFlags (fun change options => { options with toSharedOptions := change options.toSharedOptions })
    ++ [textFlag "catalog" "permission mapping file, overrides the config" fun t options =>
          { options with catalogPath := t },
        switchFlag "json" "print the misuses as JSON" false fun b options =>
          { options with json := b },
        switchFlag "branch-local" "use a separate history for every caller branch" false
          fun b options => { options with branchLocal := b }]

/-- The permissions of interest: those of the configuration, or those that the program requests. -/
def interesting (config : Config) (arena : Arena) : List Text :=
  if config.permissions.isEmpty then arena.permissions else config.permissions

/-- The permissions of the configuration that a program with known requests does not request. -/
def unrequested (config : Config) (arena : Arena) : List Text :=
  if arena.permissions.isEmpty then []
  else config.permissions.filter fun permission => !arena.permissions.contains permission

/-- The catalog for a program. -/
def misuseCatalog (host : Host m) (options : MisuseOptions) (config : Config) (arena : Arena) :
    Session m Catalog := do
  let level := config.effectiveLevel
  let path := if options.catalogPath.isEmpty then config.catalogPath else options.catalogPath
  if path.isEmpty then throw .noCatalogSet
  for permission in unrequested config arena do
    Session.log level .warn
      ("permission " ++ permission ++ Text.ofString " is not requested by the program")
  let permissions := interesting config arena
  let shown : Text := if permissions.isEmpty then "all" else Text.join ", " permissions
  Session.log level .info ("permissions of interest: " ++ shown)
  let catalog ← Session.loadCatalog host path permissions
  Session.log level .info ("catalog has " ++ Report.plural catalog.size "sensitive method")
  return catalog

/-- What is logged about the work of an analysis. -/
def statsLine (stats : Stats) : Text :=
  Text.ofNat stats.queries ++ " queries, " ++ Text.ofNat stats.visits ++ " visits, "
    ++ Text.ofNat stats.recursionBreaks ++ " recursion breaks, " ++ Text.ofNat stats.anomalies
    ++ " anomalies"

/-- What is logged about a program. -/
def modelLine (arena : Arena) : Text :=
  "model has " ++ Report.plural arena.methods.size "method" ++ " and "
    ++ Report.plural arena.stmts.size "statement" ++ ", "
    ++ Text.ofNat arena.reachableMethods.length ++ " reachable"

/-- Reports the misuses of a program. -/
def runMisuse (host : Host m) (options : MisuseOptions) (args : List Text) : Session m Unit := do
  let config ← Session.loadConfig host options.configPath options.verbose
  let config := { config with
    reportJson := config.reportJson || options.json
    branchLocalHistory := config.branchLocalHistory || options.branchLocal }
  let level := config.effectiveLevel
  Session.log level .info
    (Report.Colour.faint.paint host.colours ("revdroid misuse tool - " ++ version))
  let arena ← Session.loadModel host options.toSharedOptions args config
  Session.log level .info (modelLine arena)
  let catalog ← misuseCatalog host options config arena
  let (misuses, progress) := Misuse.analyze arena.model catalog config
  Session.logAll level progress.log.reverse
  let seconds ← host.seconds
  Session.log level .info ("analysis took " ++ seconds ++ " s")
  if config.isVerbose then Session.log level .info (statsLine progress.stats)
  let items := misuses.map (Report.item arena.model)
  if config.reportJson then Session.print (Report.json items)
  else if misuses.isEmpty then
    Session.log level .info
      ("RESULT:\n\t\t" ++ Report.Colour.green.paint host.colours "No permission misuse detected ✓")
  else
    Session.log level .warn
      ("RESULT:\n\t\t" ++ Report.Colour.red.paint host.colours
        (Report.plural misuses.length "misuse" ++ " detected!"))
    Session.print (Report.text items)

/-! ### Catalogs -/

structure CatalogOptions extends SharedOptions where
  permissions : List Text := []
  deriving Inhabited

def catalogIntroduction : Text :=
  Text.join "\n" [
    "Print the sensitive methods of a permission mapping file.",
    "Usage:",
    "  revdroid catalog [options] [mapping file]",
    "Examples:",
    "  % revdroid catalog -permission android.permission.CAMERA allmappings",
    "  % revdroid catalog -config config.yaml",
    ""]

def catalogFlags : List (Flag CatalogOptions) :=
  sharedFlags (fun change options => { options with toSharedOptions := change options.toSharedOptions })
    ++ [listFlag "permission" "only print the methods requiring this permission (can be repeated)"
          fun t options => { options with permissions := options.permissions ++ [t] }]

/-- Prints the catalog that the first argument or the configuration names. -/
def runCatalog (host : Host m) (options : CatalogOptions) (args : List Text) : Session m Unit := do
  let config ← Session.loadConfig host options.configPath options.verbose
  let path := args.head?.getD config.catalogPath
  if path.isEmpty then throw .noCatalogGiven
  let permissions :=
    if options.permissions.isEmpty then config.permissions else options.permissions
  let catalog ← Session.loadCatalog host path permissions
  Session.print (catalog.listing host.colours)

/-! ### Recursion -/

structure CyclesOptions extends SharedOptions where
  allCycles : Bool := false
  reachable : Bool := true
  deriving Inhabited

def cyclesIntroduction : Text :=
  Text.join "\n" [
    "Print the recursive components of the call graph of a program model.",
    "Usage:",
    "  revdroid cycles [options] <model file>",
    "  revdroid cycles [options] -go <package path(s)>",
    "Examples:",
    "  % revdroid cycles -all-cycles app.yaml",
    ""]

def cyclesFlags : List (Flag CyclesOptions) :=
  sharedFlags (fun change options => { options with toSharedOptions := change options.toSharedOptions })
    ++ [switchFlag "all-cycles" "print every elementary cycle of each component" false
          fun b options => { options with allCycles := b },
        switchFlag "reachable" "only consider the methods reachable from the entry points" true
          fun b options => { options with reachable := b }]

/-- Prints the recursive components of a program. -/
def runCycles (host : Host m) (options : CyclesOptions) (args : List Text) : Session m Unit := do
  let config ← Session.loadConfig host options.configPath options.verbose
  let arena ← Session.loadModel host options.toSharedOptions args config
  Session.print (CallGraph.listing host.colours options.reachable options.allCycles arena)

end PermissionGuard.Command
