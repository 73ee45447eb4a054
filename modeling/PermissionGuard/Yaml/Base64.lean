import PermissionGuard.Text.Basic

/-!
Bytes written with 64 characters, four for three bytes, padded with equals signs.
-/

namespace PermissionGuard.Yaml.Base64

/-- The six bits of a character. -/
def value? (b : UInt8) : Option Nat :=
  if 0x41 ≤ b && b ≤ 0x5A then some (b.toNat - 0x41)
  else if 0x61 ≤ b && b ≤ 0x7A then some (b.toNat - 0x61 + 26)
  else if 0x30 ≤ b && b ≤ 0x39 then some (b.toNat - 0x30 + 52)
  else if b == 0x2B then some 62
  else if b == 0x2F then some 63
  else none

private def byte (n : Nat) : UInt8 := (n % 256).toUInt8

/-- The bytes of groups of four characters, the last of which may be padded. -/
def groups? : Text → Option Text
  | [] => some []
  | [a, b, 0x3D, 0x3D] => do
      let n := (← value? a) * 64 + (← value? b)
      some [byte (n / 16)]
  | [a, b, c, 0x3D] => do
      let n := ((← value? a) * 64 + (← value? b)) * 64 + (← value? c)
      some [byte (n / 1024), byte (n / 4)]
  | a :: b :: c :: d :: rest => do
      let n := (((← value? a) * 64 + (← value? b)) * 64 + (← value? c)) * 64 + (← value? d)
      let more ← groups? rest
      some (byte (n / 65536) :: byte (n / 256) :: byte n :: more)
  | _ => none

/-- The bytes of a text, in which line breaks are ignored. -/
def decode? (t : Text) : Option Text := groups? (t.filter fun b => b != 0x0A && b != 0x0D)

end PermissionGuard.Yaml.Base64
