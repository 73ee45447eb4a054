import PermissionGuard.Number.Integer

/-!
Decimal fractions read as double precision numbers. Only the whole part of the number read is
kept, since nothing else of it is ever used.
-/

namespace PermissionGuard.Number

/-- A double precision number, with the whole part of a finite one. -/
inductive Double where
  | nan
  | infinite (negative : Bool)
  | finite (whole : Int)
  deriving DecidableEq, Repr

/-- A quotient rounded to the nearest integer, a half to the even one. -/
def roundDiv (num den : Nat) : Nat :=
  let q := num / den
  let r := num % den
  if 2 * r < den then q
  else if 2 * r > den then q + 1
  else if q % 2 = 0 then q else q + 1

/-- The whole part of the double nearest to a quotient of at least 1. Such a double is a multiple of
`2 ^ (e - 52)` when the quotient lies between `2 ^ e` and `2 ^ (e + 1)`. -/
def wholeOfNearest (num den : Nat) : Nat :=
  let e := Nat.log2 (num / den)
  if e ≤ 52 then roundDiv (num * Nat.pow 2 (52 - e)) den / Nat.pow 2 (52 - e)
  else roundDiv num (den * Nat.pow 2 (e - 52)) * Nat.pow 2 (e - 52)

/-- The whole part of the double nearest to a quotient. A quotient below 1 may be so near to 1 that
it is read as 1. -/
def wholePart (num den : Nat) : Nat :=
  if den ≤ num then wholeOfNearest num den
  else if (den - num) * Nat.pow 2 54 ≤ den then 1 else 0

/-- The parts of a decimal fraction: its digits as a number, and the power of ten they count. -/
structure Decimal where
  negative : Bool
  digits : Nat
  exponent : Int
  deriving DecidableEq, Repr

private def isDigit (b : UInt8) : Bool := 0x30 ≤ b && b ≤ 0x39

private def naturalOf (digits : Text) : Nat :=
  digits.foldl (fun n b => n * 10 + (b.toNat - 0x30)) 0

/-- Reads an optional sign, digits with an optional point among them, and an optional exponent. With
no digit before the point there is one after it. -/
def Decimal.parse? (t : Text) : Option Decimal := do
  let (negative, t) := splitSign t
  let whole := t.takeWhile isDigit
  let rest := t.drop whole.length
  let (fraction, rest) : Text × Text :=
    match rest with
    | 0x2E :: rest => (rest.takeWhile isDigit, rest.dropWhile isDigit)
    | _ => ([], rest)
  if whole.isEmpty && fraction.isEmpty then none
  let digits := naturalOf (whole ++ fraction)
  match rest with
  | [] => some ⟨negative, digits, -(fraction.length : Int)⟩
  | mark :: rest =>
      if mark != 0x65 && mark != 0x45 then none
      let (expNegative, written) := splitSign rest
      if written.isEmpty || !written.all isDigit then none
      let n : Int := naturalOf written
      some ⟨negative, digits, (if expNegative then -n else n) - fraction.length⟩

/-- The nearest double, unless the decimal is too large for one. -/
def Decimal.toDouble? (d : Decimal) : Option Double :=
  let size : Int := (Nat.toDigits 10 d.digits).length + d.exponent
  if d.digits = 0 || size < -400 then some (.finite 0)
  else if size > 400 then none
  else
    let (num, den) : Nat × Nat :=
      if d.exponent < 0 then (d.digits, Nat.pow 10 (-d.exponent).toNat)
      else (d.digits * Nat.pow 10 d.exponent.toNat, 1)
    let whole := wholePart num den
    if whole ≥ Nat.pow 2 1024 then none
    else some (.finite (if d.negative then -(whole : Int) else whole))

/-- A decimal fraction as a double. -/
def double? (t : Text) : Option Double := (Decimal.parse? t).bind Decimal.toDouble?

/-- The double nearest to an integer. -/
def Double.ofInt (n : Int) : Double :=
  let whole := wholePart n.natAbs 1
  .finite (if n < 0 then -(whole : Int) else whole)

/-- Whether every underscore of a text stands between two digits. The flag tells whether a digit
comes right before. -/
def separatesDigits : Bool → Text → Bool
  | _, [] => true
  | afterDigit, b :: rest =>
      if b == 0x5F then afterDigit && rest.head?.any isDigit && separatesDigits false rest
      else separatesDigits (isDigit b) rest

/-- A decimal fraction as a double, where underscores may separate digits. -/
def separatedDouble? (t : Text) : Option Double :=
  if separatesDigits false t then double? (t.filter (· != 0x5F)) else none

/-- The 64-bit integer of a double that is not above the range. Below the range and for the upper
end itself it is the least integer. -/
def Double.toInt64? : Double → Option Int
  | .nan => none
  | .infinite negative => if negative then some minInt64 else none
  | .finite whole =>
      if whole > Nat.pow 2 63 then none
      else if minInt64 ≤ whole && whole ≤ maxInt64 then some whole
      else some minInt64

end PermissionGuard.Number
