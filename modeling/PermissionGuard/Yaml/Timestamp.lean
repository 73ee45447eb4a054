import PermissionGuard.Number.Integer

/-!
Timestamps: a date, or a date and a time of day with fractions of a second and a time zone.
-/

namespace PermissionGuard.Yaml.Timestamp

private def isDigit (b : UInt8) : Bool := 0x30 ≤ b && b ≤ 0x39

/-- A number of one or two digits. -/
def shortNumber? (t : Text) : Option (Nat × Text) :=
  match t with
  | a :: b :: rest =>
      if isDigit a then
        if isDigit b then some ((a.toNat - 0x30) * 10 + (b.toNat - 0x30), rest)
        else some (a.toNat - 0x30, b :: rest)
      else none
  | [a] => if isDigit a then some (a.toNat - 0x30, []) else none
  | [] => none

def expect? (b : UInt8) : Text → Option Text
  | c :: rest => if c = b then some rest else none
  | [] => none

def isLeapYear (year : Nat) : Bool := year % 4 == 0 && (year % 100 != 0 || year % 400 == 0)

def daysIn (year month : Nat) : Nat :=
  if month = 2 then if isLeapYear year then 29 else 28
  else if [4, 6, 9, 11].contains month then 30 else 31

/-- A year of four digits, a month and a day that the month has. -/
def date? (t : Text) : Option Text := do
  let year ← Number.ofDigits? 10 (t.take 4)
  if (t.take 4).length < 4 then none
  let (month, t) ← shortNumber? (← expect? 0x2D (t.drop 4))
  if month = 0 || month > 12 then none
  let (day, t) ← shortNumber? (← expect? 0x2D t)
  if day = 0 || day > daysIn year month then none
  some t

/-- A point or comma and digits, if they are there. -/
def skipFraction : Text → Text
  | mark :: d :: rest =>
      if (mark == 0x2E || mark == 0x2C) && isDigit d then rest.dropWhile isDigit
      else mark :: d :: rest
  | t => t

/-- Hours, minutes and seconds, with an optional fraction. -/
def time? (t : Text) : Option Text := do
  let (hour, t) ← shortNumber? t
  if hour ≥ 24 then none
  let (minute, t) ← shortNumber? (← expect? 0x3A t)
  if minute ≥ 60 then none
  let (second, t) ← shortNumber? (← expect? 0x3A t)
  if second ≥ 60 then none
  some (skipFraction t)

/-- A `Z`, or a signed offset of hours and minutes. -/
def zone? (t : Text) : Option Text :=
  match t with
  | 0x5A :: rest => some rest
  | sign :: a :: b :: 0x3A :: c :: d :: rest => do
      if sign != 0x2B && sign != 0x2D then none
      if !(isDigit a && isDigit b && isDigit c && isDigit d) then none
      if (a.toNat - 0x30) * 10 + (b.toNat - 0x30) > 24 then none
      if (c.toNat - 0x30) * 10 + (d.toNat - 0x30) > 60 then none
      some rest
  | _ => none

/-- Whether a text is a timestamp: a date, a date and a time behind spaces, or a date, the letter
`T`, a time and a zone. -/
def isTimestamp (t : Text) : Bool :=
  (do
    let rest ← date? t
    match rest with
    | [] => some ()
    | mark :: after =>
        let end? ←
          if mark == 0x54 || mark == 0x74 then (time? after).bind zone?
          else if mark == 0x20 then time? (after.dropWhile (· == 0x20))
          else none
        if end?.isEmpty then some () else none).isSome

end PermissionGuard.Yaml.Timestamp
