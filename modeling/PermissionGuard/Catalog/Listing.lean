import PermissionGuard.Catalog.Basic
import PermissionGuard.Report.Style

/-!
A catalog as a listing by permission.
-/

namespace PermissionGuard.Catalog

def methodLine (m : SensitiveMethod) : Text := "  " ++ m.sig.key.sanitize ++ "\n"

/-- The signatures that need a permission, under its name. -/
def permissionListing (colours : Bool) (c : Catalog) (permission : Text) : Text :=
  Report.Colour.bold.paint colours permission.sanitize ++ "\n"
    ++ (c.methods.filter (·.requires permission)).flatMap methodLine

/-- Every permission with its methods, and a line with the totals. -/
def listing (colours : Bool) (c : Catalog) : Text :=
  c.permissions.flatMap (c.permissionListing colours)
    ++ Report.plural c.size "sensitive method" ++ ", "
    ++ Report.plural c.permissions.length "permission" ++ "\n"

end PermissionGuard.Catalog
