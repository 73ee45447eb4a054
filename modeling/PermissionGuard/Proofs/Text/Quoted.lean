import PermissionGuard.Proofs.Text.Utf8
import PermissionGuard.Text.Quoted
import Mathlib.Algebra.Group.Nat.Defs
import Mathlib.Logic.Function.Basic

/-!
Reading escaped text back. `unescape` works byte by byte and undoes `escapeWith` for every choice of
printable characters, on every text (`unescape_escapeWith`), so texts that differ are escaped
differently. If no control character is printable, escaped text has no control byte
(`escapeWith_clean`).
-/

namespace PermissionGuard.Text

open String (utf8EncodeChar)

variable {printable : Char → Bool} {t : Text} {width : Nat} {value : Nat → Text}

/-! ### Hexadecimal digits -/

/-- The digit of a number below sixteen. -/
def hexByte (n : Nat) : UInt8 := (if n < 10 then 0x30 + n else 0x57 + n).toUInt8

/-- The number below sixteen of a digit. -/
def hexValue (b : UInt8) : Nat := if b < 0x3A then b.toNat - 0x30 else b.toNat - 0x57

/-- The number that hexadecimal digits stand for. -/
def readHex (digits : Text) : Nat := digits.foldl (fun n b => n * 16 + hexValue b) 0

theorem hexValue_hexByte : ∀ n < 16, hexValue (hexByte n) = n := by decide

theorem hex_eq (width n : Nat) :
    hex width n = (List.range width).map fun i => hexByte (n / 16 ^ (width - 1 - i) % 16) := rfl

theorem hex_succ (width n : Nat) : hex (width + 1) n = hex width (n / 16) ++ [hexByte (n % 16)] := by
  rw [hex_eq, hex_eq, List.range_succ, List.map_append]
  congr 1
  · refine List.map_congr_left fun i earlier => ?_
    have shift : width + 1 - 1 - i = width - 1 - i + 1 := by
      have := List.mem_range.mp earlier
      omega
    rw [shift, Nat.pow_succ', ← Nat.div_div_eq_div_mul]
  · simp

theorem length_hex (width n : Nat) : (hex width n).length = width := by simp [hex]

theorem readHex_hex (width n : Nat) : readHex (hex width n) = n % 16 ^ width := by
  induction width generalizing n with
  | zero => rw [Nat.pow_zero, Nat.mod_one]; rfl
  | succ width ih =>
      have last : readHex (hex width (n / 16) ++ [hexByte (n % 16)]) =
          readHex (hex width (n / 16)) * 16 + hexValue (hexByte (n % 16)) := by
        simp [readHex]
      rw [hex_succ, last, ih, hexValue_hexByte _ (Nat.mod_lt _ (by decide)), Nat.pow_succ',
        Nat.mod_mul]
      omega

/-! ### Reading escapes -/

/-- The byte of an escape of one letter. Quotes and backslashes stand for themselves. -/
def letterByte (mark : UInt8) : UInt8 :=
  if mark = 0x61 then 0x07
  else if mark = 0x62 then 0x08
  else if mark = 0x66 then 0x0C
  else if mark = 0x6E then 0x0A
  else if mark = 0x72 then 0x0D
  else if mark = 0x74 then 0x09
  else if mark = 0x76 then 0x0B
  else mark

/-- How many digits follow the mark of an escape, and the bytes that their number stands for. A
number of two digits is a byte, a longer one a character. -/
def numbered? (mark : UInt8) : Option (Nat × (Nat → Text)) :=
  if mark = 0x78 then some (2, fun n => [n.toUInt8])
  else if mark = 0x75 then some (4, fun n => utf8EncodeChar (Char.ofNat n))
  else if mark = 0x55 then some (8, fun n => utf8EncodeChar (Char.ofNat n))
  else none

/-- The text whose escaped form is given. -/
def unescape (t : Text) : Text :=
  match t with
  | [] => []
  | b :: rest =>
      if b = 0x5C then
        match rest with
        | [] => []
        | mark :: rest =>
            match numbered? mark with
            | some (width, value) =>
                value (readHex (rest.take width)) ++ unescape (rest.drop width)
            | none => letterByte mark :: unescape rest
      else b :: unescape rest
termination_by t.length

theorem unescape_nil : unescape [] = [] := by rw [unescape]

theorem unescape_plain (plain : ∀ b ∈ t, b ≠ 0x5C) (rest : Text) :
    unescape (t ++ rest) = t ++ unescape rest := by
  induction t with
  | nil => rfl
  | cons b t ih =>
      obtain ⟨first, others⟩ := List.forall_mem_cons.mp plain
      rw [List.cons_append, unescape.eq_def]
      simp only [if_neg first, ih others, List.cons_append]

theorem unescape_letter (mark : UInt8) (letter : numbered? mark = none) (rest : Text) :
    unescape (0x5C :: mark :: rest) = letterByte mark :: unescape rest := by
  rw [unescape, if_pos rfl, letter]

theorem unescape_hex (mark : UInt8) (numbered : numbered? mark = some (width, value)) {n : Nat}
    (fits : n < 16 ^ width) (rest : Text) :
    unescape (0x5C :: mark :: (hex width n ++ rest)) = value n ++ unescape rest := by
  rw [unescape, if_pos rfl, numbered]
  simp only [List.take_left' (length_hex width n), List.drop_left' (length_hex width n),
    readHex_hex, Nat.mod_eq_of_lt fits]

theorem unescape_escapeChar (c : Char) (rest : Text) :
    unescape (escapeChar c ++ rest) = utf8EncodeChar c ++ unescape rest := by
  have letter {mark : UInt8} (letter : numbered? mark = none) (ascii : letterByte mark < 0x80)
      (same : c.toNat = (letterByte mark).toNat) :
      unescape (0x5C :: mark :: rest) = utf8EncodeChar c ++ unescape rest := by
    rw [unescape_letter mark letter,
      utf8EncodeChar_of_ascii (same ▸ UInt8.lt_iff_toNat_lt.mp ascii), same, UInt8.ofNat_toNat]
    rfl
  unfold escapeChar
  split
  case h_1 same | h_2 same | h_3 same | h_4 same | h_5 same | h_6 same | h_7 same =>
    exact letter rfl (by decide) same
  case h_8 =>
    split
    case isTrue control =>
      have ascii : c.toNat < 0x80 := by
        rcases (Bool.or_eq_true _ _).mp control with low | delete
        · exact Nat.lt_trans (of_decide_eq_true low) (by decide)
        · rw [beq_iff_eq.mp delete]
          decide
      rw [utf8EncodeChar_of_ascii ascii]
      exact unescape_hex 0x78 rfl (Nat.lt_trans ascii (by decide)) rest
    case isFalse =>
      have number (mark : UInt8) {width : Nat}
          (numbered : numbered? mark = some (width, fun n => utf8EncodeChar (Char.ofNat n)))
          (fits : c.toNat < 16 ^ width) :
          unescape (0x5C :: mark :: (hex width c.toNat ++ rest)) =
            utf8EncodeChar c ++ unescape rest := by
        rw [unescape_hex mark numbered fits, Char.ofNat_toNat]
      split
      case isTrue small => exact number 0x75 rfl small
      case isFalse => exact number 0x55 rfl c.val.toNat_lt

theorem unescape_quotePiece (piece : Piece) (rest : Text) :
    unescape (quotePiece printable piece ++ rest) = piece.bytes ++ unescape rest := by
  cases piece with
  | stray b =>
      have read := unescape_hex 0x78 rfl b.toNat_lt rest
      exact read.trans (by simp [Piece.bytes])
  | char c =>
      rw [quotePiece]
      split
      case isTrue quote =>
        rw [quote]
        exact unescape_letter 0x22 rfl rest
      case isFalse =>
        split
        case isTrue backslash =>
          rw [backslash]
          exact unescape_letter 0x5C rfl rest
        case isFalse other =>
          split
          case isTrue =>
            -- The bytes are read one by one, so none may be a backslash.
            rw [ofChars_singleton]
            refine unescape_plain (fun b member backslash => other ?_) rest
            rcases le_or_eq_of_mem_utf8EncodeChar member with high | same
            · exact absurd (backslash ▸ high) (by decide)
            · exact Char.toNat_inj.mp (backslash ▸ same).symm
          case isFalse => exact unescape_escapeChar c rest

/-- Escaping is undone on every text, whichever characters are printable. -/
theorem unescape_escapeWith (printable : Char → Bool) (t : Text) :
    unescape (escapeWith printable t) = t := by
  have pieces (l : List Piece) :
      unescape (l.flatMap (quotePiece printable)) = l.flatMap Piece.bytes := by
    induction l with
    | nil => exact unescape_nil
    | cons piece l ih => rw [List.flatMap_cons, unescape_quotePiece, ih, List.flatMap_cons]
  rw [escapeWith, pieces, pieces_bytes]

theorem escapeWith_injective (printable : Char → Bool) :
    Function.Injective (escapeWith printable) :=
  Function.LeftInverse.injective (unescape_escapeWith printable)

/-! ### Control bytes -/

/-- The text has no control byte, so no newline and no escape sequence. -/
def IsClean (t : Text) : Prop := ∀ b ∈ t, 0x20 ≤ b ∧ b ≠ 0x7F

instance : DecidablePred IsClean := List.decidableBAll fun b => 0x20 ≤ b ∧ b ≠ 0x7F

@[simp]
theorem isClean_append {s t : Text} : (s ++ t).IsClean ↔ s.IsClean ∧ t.IsClean :=
  List.forall_mem_append

/-- No control character counts as printable. -/
def HidesControls (printable : Char → Bool) : Prop :=
  ∀ c, c.toNat < 0x20 ∨ c.toNat = 0x7F → printable c = false

theorem isPrintable_hidesControls : HidesControls isPrintable := by
  intro c control
  have ascii : c.toNat < 0x80 := by omega
  have shown : ¬ (0x20 ≤ c.toNat ∧ c.toNat < 0x7F) := by omega
  simpa [isPrintable, ascii] using shown

theorem utf8EncodeChar_clean {c : Char} (visible : ¬ (c.toNat < 0x20 ∨ c.toNat = 0x7F)) :
    IsClean (utf8EncodeChar c) := by
  intro b member
  rw [UInt8.le_iff_toNat_le, ne_eq, ← UInt8.toNat_inj]
  rcases le_or_eq_of_mem_utf8EncodeChar member with high | same
  · have := UInt8.le_iff_toNat_le.mp high
    simp only [UInt8.reduceToNat] at this ⊢
    omega
  · simp only [same, UInt8.reduceToNat]
    omega

theorem hexByte_clean : ∀ n < 16, 0x20 ≤ hexByte n ∧ hexByte n ≠ 0x7F := by decide

theorem hex_clean (width n : Nat) : (hex width n).IsClean := by
  rw [hex_eq]
  exact List.forall_mem_map.mpr fun i _ => hexByte_clean _ (Nat.mod_lt _ (by decide))

theorem escapeChar_clean (c : Char) : (escapeChar c).IsClean := by
  unfold escapeChar
  split
  case h_8 =>
    split
    · exact isClean_append.mpr ⟨by decide, hex_clean _ _⟩
    · split <;> exact isClean_append.mpr ⟨by decide, hex_clean _ _⟩
  all_goals decide

theorem quotePiece_clean (hides : HidesControls printable) (piece : Piece) :
    (quotePiece printable piece).IsClean := by
  cases piece with
  | stray b => exact isClean_append.mpr ⟨by decide, hex_clean _ _⟩
  | char c =>
      rw [quotePiece]
      split
      · decide
      · split
        · decide
        · split
          case isTrue shown =>
            rw [ofChars_singleton]
            exact utf8EncodeChar_clean fun control => by simp [hides c control] at shown
          case isFalse => exact escapeChar_clean c

theorem escapeWith_clean (hides : HidesControls printable) (t : Text) :
    (escapeWith printable t).IsClean := by
  intro b member
  obtain ⟨piece, _, inside⟩ := List.mem_flatMap.mp member
  exact quotePiece_clean hides piece b inside

theorem sanitize_clean (t : Text) : t.sanitize.IsClean :=
  escapeWith_clean isPrintable_hidesControls t

end PermissionGuard.Text
