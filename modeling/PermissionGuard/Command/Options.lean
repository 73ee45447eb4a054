import PermissionGuard.Command.Flags
import PermissionGuard.Path

/-!
The options that all tools share.
-/

namespace PermissionGuard.Command

structure SharedOptions where
  configPath : Text := []
  verbose : Bool := false
  /-- The arguments are packages instead of a model file. -/
  packages : Bool := false
  buildTags : List Text := []
  /-- The excluded paths as they were given. -/
  exclude : List Text := []
  deriving DecidableEq, Repr, Inhabited

namespace SharedOptions

/-- The excluded paths, seen from a working directory. -/
def absoluteExclude (options : SharedOptions) (workingDirectory : Text) : List Text :=
  options.exclude.map (Path.absolute workingDirectory)

end SharedOptions

/-- Texts in brackets with spaces between them. -/
def printList (items : List Text) : Text := "[" ++ Text.join " " items ++ "]"

/-! ### Build tags -/

/-- Space, tab, line feed or carriage return. -/
def separatesTags (b : UInt8) : Bool := b == 0x20 || b == 0x09 || b == 0x0A || b == 0x0D

def isQuote (b : UInt8) : Bool := b == 0x22 || b == 0x27

/-- The tags of a text, where a tag that starts with a quote goes on to the next such quote. The
budget bounds the number of tags. -/
def splitTags : Nat → Text → Except Text (List Text)
  | 0, _ => .ok []
  | budget + 1, t =>
      match t.dropWhile separatesTags with
      | [] => .ok []
      | b :: rest =>
          if isQuote b then
            let tag := rest.takeWhile (· != b)
            match rest.drop tag.length with
            | [] => .error ("unterminated " ++ [b] ++ Text.ofString " string")
            | _ :: rest => (splitTags budget rest).map (tag :: ·)
          else
            let tag := (b :: rest).takeWhile (!separatesTags ·)
            (splitTags budget ((b :: rest).drop tag.length)).map (tag :: ·)

def tagsOf (t : Text) : Except Text (List Text) := splitTags (t.length + 1) t

/-! ### Flags -/

def textFlag {σ : Type} (name description : Text) (set : Text → σ → σ) : Flag σ :=
  ⟨name, description, [], .value fun t options => .ok (set t options)⟩

/-- A flag that can be repeated. -/
def listFlag {σ : Type} (name description : Text) (add : Text → σ → σ) : Flag σ :=
  ⟨name, description, "[]", .value fun t options => .ok (add t options)⟩

def switchFlag {σ : Type} (name description : Text) (isOn : Bool) (set : Bool → σ → σ) : Flag σ :=
  ⟨name, description, if isOn then "true" else "false", .switch set⟩

def tagsDescription : Text :=
  "a list of \x60build tags\x60 to consider satisfied during the build. For more information about "
    ++ "build tags, see the description of build constraints in the documentation for the go/build "
    ++ "package"

/-- The shared flags, for options that contain the shared ones. -/
def sharedFlags {σ : Type} (change : (SharedOptions → SharedOptions) → σ → σ) : List (Flag σ) := [
  textFlag "config" "config file path for analysis" fun t =>
    change fun options => { options with configPath := t },
  switchFlag "verbose" "verbose printing on standard error" false fun b =>
    change fun options => { options with verbose := b },
  switchFlag "go" "arguments are Go packages instead of model files" false fun b =>
    change fun options => { options with packages := b },
  ⟨"build-tags", tagsDescription, "<tagsFlag>", .value fun t options =>
    (tagsOf t).map fun tags => change (fun shared => { shared with buildTags := tags }) options⟩,
  listFlag "exclude" "Go file or directory treated as library code (can be repeated)" fun t =>
    change fun options => { options with exclude := options.exclude ++ [t] }]

/-- Reads arguments with the shared flags only. -/
def parseShared (args : List Text) : Except FlagError (SharedOptions × List Text) :=
  parseFlags (sharedFlags id) args {}

end PermissionGuard.Command
