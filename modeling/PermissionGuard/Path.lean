import PermissionGuard.Text.Basic

/-!
Slash-separated paths, taken as texts. Nothing here looks at a file system.
-/

namespace PermissionGuard.Path

def slash : UInt8 := 0x2F

def isAbsolute (p : Text) : Bool := p.startsWith "/"

/-- Appends a component to a path whose components are kept in reverse. Two dots go up where there
is something to leave, vanish at the root, and stay otherwise. -/
def push (rooted : Bool) (components : List Text) (component : Text) : List Text :=
  if component.isEmpty || component == "." then components
  else if component == ".." then
    match components with
    | last :: rest => if last == ".." then component :: components else rest
    | [] => if rooted then [] else [component]
  else component :: components

/-- The shortest path that means the same, a single dot if nothing is left. -/
def clean (p : Text) : Text :=
  let rooted := isAbsolute p
  let kept := ((p.splitOn slash).foldl (push rooted) []).reverse
  let joined := Text.join "/" kept
  if rooted then "/" ++ joined else if joined.isEmpty then "." else joined

/-- Two paths one after the other, cleaned. -/
def join (a b : Text) : Text :=
  if a.isEmpty && b.isEmpty then []
  else if a.isEmpty then clean b
  else if b.isEmpty then clean a
  else clean (a ++ "/" ++ b)

/-- The path of the directory that a path is in. -/
def parent (p : Text) : Text :=
  match p.lastIndexOf? slash with
  | some i => clean (p.take (i + 1))
  | none => "."

/-- The last component from its last dot on, empty if there is no dot. -/
def extension (p : Text) : Text :=
  let base : Text := match p.lastIndexOf? slash with
    | some i => p.drop (i + 1)
    | none => p
  match base.lastIndexOf? 0x2E with
  | some i => base.drop i
  | none => []

/-- A path seen from a working directory. Absolute paths stay as they are, and a slash at the end
is kept. -/
def absolute (workingDirectory p : Text) : Text :=
  if isAbsolute p then p
  else
    let joined := join workingDirectory p
    if p.endsWith "/" then joined ++ "/" else joined

/-- Whether an excluded path covers a file: a source file covers itself, and any other path is a
directory that covers all that is below it. -/
def covers (excluded file : Text) : Bool :=
  if excluded.endsWith ".go" then file == excluded
  else if excluded.endsWith "/" then file.startsWith excluded
  else file.startsWith (excluded ++ "/")

end PermissionGuard.Path
