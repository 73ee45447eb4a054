import PermissionGuard.Text.Utf8

/-!
Reading UTF-8 loses nothing. A character is read from exactly the bytes that encode it
(`Utf8.char?_eq_some`), and a stray byte is kept, so the bytes of the pieces of a text are the text
again (`pieces_bytes`).
-/

namespace PermissionGuard.Text

open String (utf8EncodeChar)

variable {a b c d : UInt8} {ch : Char} {rest : Text} {more n : Nat}

/-- The bytes that a piece of a text was read from. -/
def Piece.bytes : Piece → Text
  | .char c => utf8EncodeChar c
  | .stray b => [b]

/-! ### Bytes of a character -/

theorem utf8EncodeChar_of_ascii (ascii : ch.toNat < 0x80) :
    utf8EncodeChar ch = [UInt8.ofNat ch.toNat] :=
  if_pos (Nat.le_of_lt_succ ascii)

/-- A character outside ASCII has no ASCII byte. -/
theorem le_of_mem_utf8EncodeChar (wide : 0x80 ≤ ch.toNat) :
    ∀ b ∈ utf8EncodeChar ch, 0x80 ≤ b := by
  have high (n low : Nat) (least : 0x80 ≤ low) (most : n + low < 0x100) :
      0x80 ≤ UInt8.ofNat (n + low) := by
    rw [UInt8.le_iff_toNat_le, UInt8.toNat_ofNat', Nat.mod_eq_of_lt most]
    exact Nat.le_add_left_of_le least
  fun_cases utf8EncodeChar with
  | case1 _ ascii => exact absurd ascii (Nat.not_le.mpr wide)
  | case2 | case3 | case4 =>
      simp only [List.forall_mem_cons, List.not_mem_nil, false_implies, implies_true, and_true]
      and_intros
      all_goals exact high _ _ (by decide) (by omega)

/-- An ASCII byte of a character is the whole character. -/
theorem le_or_eq_of_mem_utf8EncodeChar (member : b ∈ utf8EncodeChar ch) :
    0x80 ≤ b ∨ b.toNat = ch.toNat := by
  rcases Nat.lt_or_ge ch.toNat 0x80 with ascii | wide
  · rw [utf8EncodeChar_of_ascii ascii, List.mem_singleton] at member
    exact .inr (by rw [member, UInt8.toNat_ofNat', Nat.mod_eq_of_lt (by omega)])
  · exact .inl (le_of_mem_utf8EncodeChar wide b member)

theorem ofChars_singleton (c : Char) : ofChars [c] = utf8EncodeChar c := List.append_nil _

theorem ofString_eq (s : String) : ofString s = ofChars s.toList := by
  rw [ofString, String.toUTF8, ← String.utf8Encode_toList, List.utf8Encode, List.data_toByteArray]
  rfl

theorem ofString_append (s t : String) : ofString (s ++ t) = ofString s ++ ofString t := by
  simp [ofString_eq, ofChars]

/-! ### Reading a character -/

theorem toNat_ofNat_of_isValidChar (valid : n.isValidChar) : (Char.ofNat n).val.toNat = n := by
  rw [Char.ofNat, dif_pos valid]
  rfl

theorem ofNat_eq_of_eq_toNat (same : n = b.toNat) : UInt8.ofNat n = b := by
  rw [same, UInt8.ofNat_toNat]

namespace Utf8

theorem isTail_iff : isTail b = true ↔ 0x80 ≤ b.toNat ∧ b.toNat ≤ 0xBF := by
  simp [isTail, UInt8.le_iff_toNat_le]

theorem two?_eq_some (read : two? a b = some ch) : utf8EncodeChar ch = [a, b] := by
  change (if 0xC2 ≤ a && a ≤ 0xDF && isTail b then
    some (Char.ofNat (a.toNat % 32 * 64 + b.toNat % 64)) else none) = _ at read
  obtain ⟨lead, ⟨⟩⟩ := Option.ite_none_right_eq_some.mp read
  simp only [Bool.and_eq_true, decide_eq_true_eq, isTail_iff, UInt8.le_iff_toNat_le,
    UInt8.reduceToNat] at lead
  have valid : (a.toNat % 32 * 64 + b.toNat % 64).isValidChar := .inl (by omega)
  simp only [utf8EncodeChar, toNat_ofNat_of_isValidChar valid]
  rw [if_neg (by omega), if_pos (by omega)]
  congr 2 <;> exact ofNat_eq_of_eq_toNat (by omega)

theorem three?_eq_some (read : three? a b c = some ch) : utf8EncodeChar ch = [a, b, c] := by
  change (if 0xE0 ≤ a && a ≤ 0xEF && isTail b && isTail c
      && (a != 0xE0 || 0xA0 ≤ b) && (a != 0xED || b ≤ 0x9F) then
    some (Char.ofNat (a.toNat % 16 * 4096 + b.toNat % 64 * 64 + c.toNat % 64)) else none) = _
    at read
  obtain ⟨lead, ⟨⟩⟩ := Option.ite_none_right_eq_some.mp read
  simp only [Bool.and_eq_true, Bool.or_eq_true, decide_eq_true_eq, bne_iff_ne, ne_eq, isTail_iff,
    UInt8.le_iff_toNat_le, ← UInt8.toNat_inj, UInt8.reduceToNat] at lead
  have valid : (a.toNat % 16 * 4096 + b.toNat % 64 * 64 + c.toNat % 64).isValidChar := by
    unfold Nat.isValidChar
    omega
  simp only [utf8EncodeChar, toNat_ofNat_of_isValidChar valid]
  rw [if_neg (by omega), if_neg (by omega), if_pos (by omega)]
  congr 3 <;> exact ofNat_eq_of_eq_toNat (by omega)

theorem four?_eq_some (read : four? a b c d = some ch) : utf8EncodeChar ch = [a, b, c, d] := by
  change (if 0xF0 ≤ a && a ≤ 0xF4 && isTail b && isTail c && isTail d
      && (a != 0xF0 || 0x90 ≤ b) && (a != 0xF4 || b ≤ 0x8F) then
    some (Char.ofNat (a.toNat % 8 * 262144 + b.toNat % 64 * 4096 + c.toNat % 64 * 64
      + d.toNat % 64)) else none) = _ at read
  obtain ⟨lead, ⟨⟩⟩ := Option.ite_none_right_eq_some.mp read
  simp only [Bool.and_eq_true, Bool.or_eq_true, decide_eq_true_eq, bne_iff_ne, ne_eq, isTail_iff,
    UInt8.le_iff_toNat_le, ← UInt8.toNat_inj, UInt8.reduceToNat] at lead
  have valid : (a.toNat % 8 * 262144 + b.toNat % 64 * 4096 + c.toNat % 64 * 64
      + d.toNat % 64).isValidChar := by
    unfold Nat.isValidChar
    omega
  simp only [utf8EncodeChar, toNat_ofNat_of_isValidChar valid]
  rw [if_neg (by omega), if_neg (by omega), if_neg (by omega)]
  congr 4 <;> exact ofNat_eq_of_eq_toNat (by omega)

theorem orElse_eq_some {first : Option Char} {count : Nat} {other : Option (Char × Nat)} :
    (first.map (·, count) <|> other) = some (ch, more) ↔
      first = some ch ∧ count = more ∨ first = none ∧ other = some (ch, more) := by
  cases first <;> simp

/-- A character is read from exactly the bytes that encode it. -/
theorem char?_eq_some (read : char? a rest = some (ch, more)) :
    utf8EncodeChar ch = a :: rest.take more := by
  unfold char? at read
  split at read
  case isTrue ascii =>
    cases read
    have small : a.toNat < 0x80 := UInt8.lt_iff_toNat_lt.mp ascii
    have same : (Char.ofNat a.toNat).val.toNat = a.toNat :=
      toNat_ofNat_of_isValidChar (.inl (by omega))
    rw [utf8EncodeChar_of_ascii (by rwa [Char.toNat, same]), Char.toNat, same, UInt8.ofNat_toNat,
      List.take_zero]
  case isFalse =>
    match rest with
    | [] => cases read
    | b :: rest =>
        obtain ⟨two, rfl⟩ | ⟨_, read⟩ := orElse_eq_some.mp read
        · exact two?_eq_some two
        match rest with
        | [] => cases read
        | c :: rest =>
            obtain ⟨three, rfl⟩ | ⟨_, read⟩ := orElse_eq_some.mp read
            · exact three?_eq_some three
            match rest with
            | [] => cases read
            | d :: rest =>
                obtain ⟨_, four, ⟨⟩⟩ := Option.map_eq_some_iff.mp read
                exact four?_eq_some four

end Utf8

/-! ### The pieces of a text -/

theorem piecesAfter_bytes (skip : Nat) (t : Text) :
    (piecesAfter skip t).flatMap Piece.bytes = t.drop skip := by
  -- A character is followed by the pieces after its other bytes, which the reader skips.
  fun_induction piecesAfter skip t with
  | case1 => simp
  | case2 skip b rest ih => exact ih
  | case3 a rest c more read ih =>
      rw [List.flatMap_cons, ih, Piece.bytes, Utf8.char?_eq_some read, List.cons_append,
        List.take_append_drop]
      rfl
  | case4 a rest stray ih =>
      rw [List.flatMap_cons, ih]
      rfl

theorem pieces_bytes (t : Text) : t.pieces.flatMap Piece.bytes = t := piecesAfter_bytes 0 t

end PermissionGuard.Text
