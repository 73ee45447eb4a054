import PermissionGuard.Config.Logging
import PermissionGuard.Path
import PermissionGuard.Pattern.Parser

/-!
The configuration of the analyses. Two things are derived from the settings when a configuration is
prepared and then kept, whatever happens to the settings: the compiled package filter and the set
of check names.
-/

namespace PermissionGuard

/-- The settings that a configuration file can give. -/
structure Settings where
  /-- The path of the permission mapping, seen from the directory of the configuration file. -/
  catalog : Text
  /-- The permissions of interest; without any, those of the application, and then all. -/
  permissions : List Text
  /-- The exception type that a sensitive call raises when its permission is missing. -/
  failureType : Text
  /-- The names of the methods that check a permission before it is needed. -/
  proactiveChecks : List Text
  /-- How the class names of library code start. -/
  libraryPrefixes : List Text
  /-- The packages that are application code: a pattern, or how their names start if the pattern
  cannot be read. -/
  pkgFilter : Text
  /-- How the call graph is computed. -/
  callgraphAnalysis : Text
  /-- Whether every caller is searched with a history of its own. -/
  branchLocalHistory : Bool
  reportJson : Bool
  logLevel : Int
  silenceWarn : Bool
  deriving DecidableEq, Repr, Inhabited

namespace Settings

def defaultFailureType : Text := "java.lang.SecurityException"

def defaultCallgraphAnalysis : Text := "vta"

def defaultChecks : List Text := [
  "checkPermission", "checkSelfPermission", "checkCallingPermission",
  "checkCallingOrSelfPermission", "checkUriPermission", "checkCallingUriPermission",
  "checkCallingOrSelfUriPermission"]

def defaultLibraryPrefixes : List Text := [
  "android.", "androidx.", "com.android.", "com.google.android.", "dalvik.", "java.", "javax.",
  "junit.", "kotlin.", "org.apache.", "org.json.", "org.w3c.", "org.xml.", "sun."]

def default : Settings where
  catalog := []
  permissions := []
  failureType := defaultFailureType
  proactiveChecks := defaultChecks
  libraryPrefixes := defaultLibraryPrefixes
  pkgFilter := []
  callgraphAnalysis := defaultCallgraphAnalysis
  branchLocalHistory := false
  reportJson := false
  logLevel := LogLevel.info.rank
  silenceWarn := false

/-- Puts the defaults in the place of what was left empty. -/
def fillDefaults (s : Settings) : Settings :=
  { s with
    logLevel := if s.logLevel = 0 then LogLevel.info.rank else s.logLevel
    failureType := if s.failureType.isEmpty then defaultFailureType else s.failureType
    callgraphAnalysis :=
      if s.callgraphAnalysis.isEmpty then defaultCallgraphAnalysis else s.callgraphAnalysis }

end Settings

/-- Reads a package filter: whether a text matches it, or none if the filter cannot be read. -/
abbrev FilterCompiler := Text → Option (Text → Bool)

/-- The filters that run are patterns, which match where they occur. -/
def Pattern.compile? : FilterCompiler := fun filter => (Pattern.parse? filter).map Pattern.occursIn

/-- Settings with what was derived from them when they were last prepared. -/
structure Config extends Settings where
  /-- The file that the settings were read from. -/
  sourceFile : Text := []
  /-- The package filter of the last preparation with a readable one. -/
  compiledFilter : Option (Text → Bool) := none
  /-- The check names of the last preparation. -/
  checkNames : Option (List Text) := none
  deriving Inhabited

namespace Config

/-- The configuration without a file. It is not prepared yet. -/
def default : Config := { Settings.default with }

/-- Fills in the defaults, compiles the package filter and collects the check names. A filter that
is empty or unreadable leaves the compiled one as it was. -/
def prepareWith (compile : FilterCompiler) (c : Config) : Config :=
  let filled := c.toSettings.fillDefaults
  { c with
    toSettings := filled
    compiledFilter :=
      if filled.pkgFilter.isEmpty then c.compiledFilter
      else (compile filled.pkgFilter).or c.compiledFilter
    checkNames := some filled.proactiveChecks }

def prepare (c : Config) : Config := c.prepareWith Pattern.compile?

/-- A path seen from the directory of the configuration file. -/
def relativePath (c : Config) (path : Text) : Text :=
  if Path.isAbsolute path then path else Path.join (Path.parent c.sourceFile) path

/-- The path of the permission mapping, empty if none is set. -/
def catalogPath (c : Config) : Text :=
  if c.catalog.isEmpty then [] else c.relativePath c.catalog

/-- Whether a package is application code. -/
def matchesPackage (c : Config) (package : Text) : Bool :=
  match c.compiledFilter with
  | some accepts => accepts package
  | none => c.pkgFilter.isEmpty || package.startsWith c.pkgFilter

/-- Whether a class is library code. -/
def isLibrary (c : Config) (className : Text) : Bool :=
  c.libraryPrefixes.any fun start => className.startsWith start

/-- Whether a method name is a proactive check. A configuration that was never prepared is
prepared by the question. -/
def isProactiveCheckWith (compile : FilterCompiler) (c : Config) (name : Text) : Config × Bool :=
  match c.checkNames with
  | some names => (c, names.contains name)
  | none => (c.prepareWith compile, c.proactiveChecks.contains name)

def isProactiveCheck (c : Config) (name : Text) : Config × Bool :=
  c.isProactiveCheckWith Pattern.compile? name

/-- Whether more than high-level information is logged. -/
def isVerbose (c : Config) : Bool := LogLevel.debug.rank ≤ c.logLevel

/-- The level of a log with these settings. Silenced warnings leave the errors only. -/
def effectiveLevel (c : Config) : Int :=
  if c.silenceWarn && LogLevel.warn.rank ≤ c.logLevel then LogLevel.error.rank else c.logLevel

end Config

end PermissionGuard
