import PermissionGuard.Command.Hint
import PermissionGuard.Command.Tool

/-!
The whole command line: the first argument names a tool, and the others belong to the tool.
-/

namespace PermissionGuard.Command

variable {m : Type → Type} [Monad m]

def introduction : Text :=
  Text.join "\n" [
    "RevDroid: permission misuse detection",
    "Usage:",
    "  revdroid [tool] [options] <model file | Go package path(s)>",
    "Tools:",
    "  - misuse: reports the sensitive calls that are not guarded against a missing permission",
    "  - catalog: prints the sensitive methods of a permission mapping",
    "  - cycles: prints the recursive components of the call graph of a program",
    "Examples:",
    "  Run the detection on an exported model: revdroid misuse -config config.yaml app.yaml",
    "  Run the detection on Go packages: revdroid misuse -config config.yaml -go ./..."]

/-- How a run of a tool ended. -/
inductive Ending where
  | done
  | failed (cause : Error)
  | misused (cause : FlagError)
  deriving DecidableEq, Repr

/-- A tool: its help, its flags and what it does. -/
structure Tool (m : Type → Type) where
  options : Type
  start : options
  introduction : Text
  flags : List (Flag options)
  run : Host m → options → List Text → Session m Unit

def Tool.ofName? (name : Text) : Option (Tool m) :=
  if name == Text.ofString "misuse" then
    some ⟨MisuseOptions, {}, misuseIntroduction, misuseFlags, runMisuse⟩
  else if name == Text.ofString "catalog" then
    some ⟨CatalogOptions, {}, catalogIntroduction, catalogFlags, runCatalog⟩
  else if name == Text.ofString "cycles" then
    some ⟨CyclesOptions, {}, cyclesIntroduction, cyclesFlags, runCycles⟩
  else none

/-- Runs a tool with its arguments. -/
def Tool.execute (tool : Tool m) (host : Host m) (args : List Text) : m (Ending × Output) := do
  match parseFlags tool.flags args tool.start with
  | .error cause =>
      return (.misused cause, { stderr := flagReport tool.introduction tool.flags cause })
  | .ok (options, rest) =>
      match ← (tool.run host options rest).run.run {} with
      | (.ok (), out) => return (.done, out)
      | (.error cause, out) => return (.failed cause, out)

/-- What is printed about an error, with a hint if there is one. -/
def errorReport (message : Text) : Text :=
  let advice : Text := match hint? message with
    | some hint => "Hint: " ++ hint ++ "\n"
    | none => []
  "error: " ++ message ++ "\n" ++ advice

/-- The exit code and the output of a run that ended. -/
def conclude : Ending → Output → Nat × Output
  | .done, out => (0, out)
  | .misused .help, out => (0, out)
  | .misused _, out => (2, out)
  | .failed cause, out => (2, { out with stderr := out.stderr ++ errorReport cause.message })

/-- Runs the command line and gives the exit code and the output. -/
def run (host : Host m) : List Text → m (Nat × Output)
  | [] => return (2, { stderr := "error: expected subcommand\n" ++ introduction ++ "\n" })
  | first :: args => do
      if first == Text.ofString "-help" || first == Text.ofString "--help" then
        return (0, { stdout := introduction ++ "\n" })
      else if first == Text.ofString "-version" || first == Text.ofString "--version" then
        return (0, { stdout := version ++ "\n" })
      else match Tool.ofName? first with
        | some tool =>
            let (ending, out) ← tool.execute host args
            return conclude ending out
        | none =>
            return (2, { stderr :=
              "error: unexpected command: " ++ first ++ "\nusage:\n" ++ introduction ++ "\n" })

end PermissionGuard.Command
