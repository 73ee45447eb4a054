import PermissionGuard.Text.Quoted

/-!
Command line flags. Flags come before all other arguments, with one or two dashes, and a value
stands behind an equals sign or in the next argument. Switches take a value only behind an equals
sign. Two dashes alone end the flags.
-/

namespace PermissionGuard.Command

/-- How a flag changes the options `σ`. -/
inductive FlagKind (σ : Type) where
  | switch (set : Bool → σ → σ)
  /-- The setter gives the reason why it does not take a value. -/
  | value (set : Text → σ → Except Text σ)

structure Flag (σ : Type) where
  name : Text
  description : Text
  /-- The default as it is shown in the help. -/
  shownDefault : Text
  kind : FlagKind σ

/-- Why arguments cannot be read. -/
inductive FlagError where
  | help
  | badSyntax (argument : Text)
  | undefined (name : Text)
  | badSwitch (value name : Text)
  | needsArgument (name : Text)
  | badValue (value name reason : Text)
  deriving DecidableEq, Repr

/-- What is said about an error. A request for help needs no explanation. -/
def FlagError.message? : FlagError → Option Text
  | .help => none
  | .badSyntax argument => some ("bad flag syntax: " ++ argument)
  | .undefined name => some ("flag provided but not defined: -" ++ name)
  | .badSwitch value name =>
      some ("invalid boolean value " ++ value.quote ++ " for -" ++ name ++ ": parse error")
  | .needsArgument name => some ("flag needs an argument: -" ++ name)
  | .badValue value name reason =>
      some ("invalid value " ++ value.quote ++ " for flag -" ++ name ++ ": " ++ reason)

/-- The words for truth values. -/
def switchValue? (t : Text) : Option Bool :=
  if ["1", "t", "T", "TRUE", "true", "True"].any (Text.ofString · == t) then some true
  else if ["0", "f", "F", "FALSE", "false", "False"].any (Text.ofString · == t) then some false
  else none

/-- What an argument is. -/
inductive Argument where
  /-- A flag, with the value behind its equals sign. -/
  | flag (name : Text) (value : Option Text)
  | terminator
  | malformed
  | operand
  deriving DecidableEq, Repr

def Argument.ofName (name : Text) : Argument :=
  match name with
  | [] => .malformed
  | first :: _ =>
      if first = 0x2D || first = 0x3D then .malformed
      else match name.indexOf? "=" with
        | some i => .flag (name.take i) (some (name.drop (i + 1)))
        | none => .flag name none

def Argument.ofText (t : Text) : Argument :=
  match t with
  | 0x2D :: 0x2D :: [] => .terminator
  | 0x2D :: 0x2D :: name => .ofName name
  | 0x2D :: b :: rest => .ofName (b :: rest)
  | _ => .operand

/-- Reads the flags at the front of the arguments and gives what is left. -/
def parseFlags {σ : Type} (flags : List (Flag σ)) : List Text → σ → Except FlagError (σ × List Text)
  | [], options => .ok (options, [])
  | argument :: rest, options =>
      match Argument.ofText argument with
      | .operand => .ok (options, argument :: rest)
      | .terminator => .ok (options, rest)
      | .malformed => .error (.badSyntax argument)
      | .flag name value =>
          match flags.find? (·.name == name) with
          | none =>
              if name == Text.ofString "help" || name == Text.ofString "h" then .error .help
              else .error (.undefined name)
          | some flag =>
              match flag.kind, value, rest with
              | .switch set, none, rest => parseFlags flags rest (set true options)
              | .switch set, some t, rest =>
                  match switchValue? t with
                  | some b => parseFlags flags rest (set b options)
                  | none => .error (.badSwitch t name)
              | .value _, none, [] => .error (.needsArgument name)
              | .value set, none, t :: rest =>
                  match set t options with
                  | .ok options => parseFlags flags rest options
                  | .error reason => .error (.badValue t name reason)
              | .value set, some t, rest =>
                  match set t options with
                  | .ok options => parseFlags flags rest options
                  | .error reason => .error (.badValue t name reason)

/-- A line of the help about a flag. -/
def Flag.helpLine {σ : Type} (flag : Flag σ) : Text :=
  "  " ++ flag.name ++ ": " ++ flag.description ++ " (default: " ++ flag.shownDefault.quote ++ ")\n"

/-- The help of a command: what it does and its flags in the order of their names. -/
def helpText {σ : Type} (introduction : Text) (flags : List (Flag σ)) : Text :=
  introduction ++ "\nOptions:\n"
    ++ (flags.mergeSort fun a b => a.name.le b.name).flatMap Flag.helpLine

/-- What is printed about arguments that cannot be read. -/
def flagReport {σ : Type} (introduction : Text) (flags : List (Flag σ)) (e : FlagError) : Text :=
  let explanation : Text := match e.message? with
    | some message => message ++ "\n"
    | none => []
  explanation ++ helpText introduction flags

end PermissionGuard.Command
