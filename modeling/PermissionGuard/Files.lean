import PermissionGuard.Path

/-!
What a program can read: what stands under a path, and why nothing can be read there.
-/

namespace PermissionGuard

/-- What stands under a path. -/
inductive FileEntry where
  | file (contents : Text)
  | directory
  | missing
  /-- A component of the path in front of the last is a file. -/
  | belowFile
  deriving DecidableEq, Repr, Inhabited

/-- Why a path has no contents. -/
inductive FileError where
  | missing
  | belowFile
  | isDirectory
  deriving DecidableEq, Repr

def FileError.message (path : Text) : FileError → Text
  | .missing => "open " ++ path ++ ": no such file or directory"
  | .belowFile => "open " ++ path ++ ": not a directory"
  | .isDirectory => "read " ++ path ++ ": is a directory"

def FileEntry.contents : FileEntry → Except FileError Text
  | .file contents => .ok contents
  | .directory => .error .isDirectory
  | .missing => .error .missing
  | .belowFile => .error .belowFile

/-- A working directory with the files below it, under their relative paths. -/
structure FileTree where
  files : List (Text × Text)
  deriving Repr, Inhabited

namespace FileTree

/-- A file of a tree: the names of the directories around it and its own, and what it contains. -/
abbrev Leaf := List Text × Text

def leaves (tree : FileTree) : List Leaf :=
  tree.files.map fun (name, contents) => ((Path.clean name).splitOn Path.slash, contents)

/-- Goes along the components of a path, starting in the directory `here`, which is at or below the
working directory. What is above the working directory cannot be seen. -/
def walk (leaves : List Leaf) (here : List Text) : List Text → FileEntry
  | [] =>
      match leaves.lookup here with
      | some contents => .file contents
      | none => .directory
  | component :: rest =>
      if (leaves.lookup here).isSome then .belowFile
      else if component.isEmpty || component == "." then walk leaves here rest
      else if component == ".." then
        if here.isEmpty then .missing else walk leaves here.dropLast rest
      else
        let next := here ++ [component]
        if leaves.any fun (name, _) => next.isPrefixOf name then walk leaves next rest else .missing

/-- What stands under a path that is seen from the working directory. -/
def entry (tree : FileTree) (path : Text) : FileEntry :=
  if path.isEmpty then .missing
  else if Path.isAbsolute path then if Path.clean path == "/" then .directory else .missing
  else walk tree.leaves [] (path.splitOn Path.slash)

end FileTree

end PermissionGuard
