import PermissionGuard.Signature.Basic

/-!
The catalog of sensitive methods: which permissions a call needs. A catalog has one entry a
signature key, and both the entries and the permissions of an entry are kept in increasing order.
-/

namespace PermissionGuard

/-- A method that needs at least one permission. -/
structure SensitiveMethod where
  sig : Signature
  /-- In increasing order, each once. -/
  permissions : List Text
  deriving DecidableEq, Repr, Inhabited

namespace SensitiveMethod

def requires (m : SensitiveMethod) (permission : Text) : Bool :=
  m.permissions[Text.placeIn m.permissions permission]? == some permission

/-- Puts a permission in its place, unless it is already there. -/
def addPermission (m : SensitiveMethod) (permission : Text) : SensitiveMethod :=
  let place := Text.placeIn m.permissions permission
  if m.permissions[place]? = some permission then m
  else { m with permissions := m.permissions.insertIdx place permission }

/-- The signature followed by the permissions. -/
def print (m : SensitiveMethod) : Text := m.sig.key ++ " " ++ Text.join " " m.permissions

end SensitiveMethod

/-- Sensitive methods in increasing order of their signature keys. -/
structure Catalog where
  methods : List SensitiveMethod
  deriving DecidableEq, Repr, Inhabited

namespace Catalog

def empty : Catalog := ⟨[]⟩

def insert (sig : Signature) (permission : Text) : List SensitiveMethod → List SensitiveMethod
  | [] => [⟨sig, [permission]⟩]
  | m :: rest =>
      if sig.key = m.sig.key then m.addPermission permission :: rest
      else if sig.key < m.sig.key then ⟨sig, [permission]⟩ :: m :: rest
      else m :: insert sig permission rest

/-- Records that a method needs a permission, beside those it is known to need. -/
def add (c : Catalog) (sig : Signature) (permission : Text) : Catalog :=
  ⟨insert sig permission c.methods⟩

/-- The entry of a method with exactly this signature. -/
def lookup? (c : Catalog) (sig : Signature) : Option SensitiveMethod :=
  c.methods.find? (·.sig.key == sig.key)

def size (c : Catalog) : Nat := c.methods.length

/-- All the permissions that some entry needs, in increasing order. -/
def permissions (c : Catalog) : List Text :=
  Text.sortedSet (c.methods.flatMap SensitiveMethod.permissions)

end Catalog

end PermissionGuard
