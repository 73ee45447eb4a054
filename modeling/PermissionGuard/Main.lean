import PermissionGuard.Command.Dispatch

/-!
The program on a real machine: files come from disk, and output goes to the standard streams.
-/

open PermissionGuard

/-- What stands under a path on disk. A path below a file already fails to open, a directory opens
and fails to be read. -/
def diskEntry (path : Text) : IO FileEntry := do
  match String.fromUTF8? ⟨path.toArray⟩ with
  | none => return .missing
  | some name =>
      try
        return .file (← IO.FS.readBinFile name).toList
      catch
        | .inappropriateType (some _) _ _ => return .belowFile
        | .inappropriateType none _ _ => return .directory
        | _ => return .missing

/-- Nanoseconds as seconds with four decimals. -/
def secondsText (nanoseconds : Nat) : Text :=
  let units := nanoseconds / 100000
  let decimals := toString (units % 10000)
  let padding := String.ofList (List.replicate (4 - decimals.length) '0')
  Text.ofString (toString (units / 10000) ++ "." ++ padding ++ decimals)

/-- The machine that the program runs on, with a clock that starts now. -/
def machine (colours : Bool) : IO (Command.Host IO) := do
  let start ← IO.monoNanosNow
  return {
    entry := diskEntry
    seconds := do return secondsText ((← IO.monoNanosNow) - start)
    colours }

def main (args : List String) : IO UInt32 := do
  let stdout ← IO.getStdout
  let stderr ← IO.getStderr
  let host ← machine (← stdout.isTty)
  let (code, out) ← Command.run host (args.map Text.ofString)
  stdout.write ⟨out.stdout.toArray⟩
  stderr.write ⟨out.stderr.toArray⟩
  return code.toUInt32
