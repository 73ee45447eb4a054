import PermissionGuard.Text.Basic

/-!
Integers written in base 2, 8, 10 or 16.
-/

namespace PermissionGuard.Number

/-- The value of a digit in any base up to 36. -/
def digitValue? (b : UInt8) : Option Nat :=
  if 0x30 ≤ b && b ≤ 0x39 then some (b.toNat - 0x30)
  else if 0x61 ≤ b && b ≤ 0x7A then some (b.toNat - 0x57)
  else if 0x41 ≤ b && b ≤ 0x5A then some (b.toNat - 0x37)
  else none

/-- The number written by a non-empty sequence of digits of a base. -/
def ofDigits? (base : Nat) (digits : Text) : Option Nat :=
  if digits.isEmpty then none
  else digits.foldlM (fun n b => do
    let d ← digitValue? b
    if d < base then some (n * base + d) else none) 0

/-- The digits without a sign, and whether the sign was a minus. -/
def splitSign : Text → Bool × Text
  | 0x2B :: rest => (false, rest)
  | 0x2D :: rest => (true, rest)
  | t => (false, t)

/-- The base that a prefix announces, and the digits after it. A leading zero announces base 8. -/
def splitBase : Text → Nat × Text
  | 0x30 :: b :: rest =>
      if (b == 0x78 || b == 0x58) && !rest.isEmpty then (16, rest)
      else if (b == 0x62 || b == 0x42) && !rest.isEmpty then (2, rest)
      else if (b == 0x6F || b == 0x4F) && !rest.isEmpty then (8, rest)
      else (8, b :: rest)
  | t => (10, t)

/-- Least and one more than the greatest signed 64-bit integer. -/
def minInt64 : Int := -0x8000000000000000
def maxInt64 : Int := 0x7FFFFFFFFFFFFFFF

/-- A signed 64-bit integer, in the given base. -/
def int64InBase? (base : Nat) (t : Text) : Option Int := do
  let (negative, digits) := splitSign t
  let n ← ofDigits? base digits
  let value : Int := if negative then -(n : Int) else n
  if minInt64 ≤ value && value ≤ maxInt64 then some value else none

/-- A signed 64-bit integer, in the base that its prefix announces. -/
def int64? (t : Text) : Option Int := do
  let (negative, unsigned) := splitSign t
  let (base, digits) := splitBase unsigned
  let n ← ofDigits? base digits
  let value : Int := if negative then -(n : Int) else n
  if minInt64 ≤ value && value ≤ maxInt64 then some value else none

/-- An unsigned 64-bit integer without sign, in the given base. -/
def uint64InBase? (base : Nat) (t : Text) : Option Nat := do
  let n ← ofDigits? base t
  if n < 0x10000000000000000 then some n else none

/-- An unsigned 64-bit integer without sign, in the base that its prefix announces. -/
def uint64? (t : Text) : Option Nat :=
  let (base, digits) := splitBase t
  uint64InBase? base digits

end PermissionGuard.Number
