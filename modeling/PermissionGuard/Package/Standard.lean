import PermissionGuard.Text.Basic

/-!
The packages of the standard library, which are never application code.
-/

namespace PermissionGuard.Package

/-- The first path elements of standard packages. -/
def standardRoots : List Text := List.map Text.ofString [
  "archive", "bufio", "builtin", "bytes", "cmd", "compress", "container", "context", "crypto",
  "database", "debug", "embed", "encoding", "errors", "expvar", "flag", "fmt", "go",
  "golang.org/x", "hash", "html", "image", "index", "internal", "io", "log", "maps", "math",
  "mime", "net", "os", "path", "plugin", "reflect", "regexp", "runtime", "slices", "sort",
  "strconv", "strings", "sync", "syscall", "testing", "text", "time", "unicode", "unsafe",
  "vendor"]

/-- A standard package is one of the roots or lies below one. -/
def isStandard (path : Text) : Bool :=
  standardRoots.any fun root => path == root || path.startsWith (root ++ "/")

end PermissionGuard.Package
