import PermissionGuard.Text.Blank
import Mathlib.Data.List.Infix

/-!
Where a text is cut. Trimming takes bytes of blanks off both ends and nothing else, so it keeps all
other bytes in their order (`filter_trim`). The first occurrence of a pair of bytes and the last
occurrence of a byte are found where nothing before, or nothing after, is one.
-/

namespace PermissionGuard.Text

variable {t l r pattern : Text} {b x y : UInt8} {i position : Nat}

/-! ### Blanks at the ends -/

/-- The bytes that blanks consist of are ASCII blanks or lie outside ASCII. -/
def isBlankByte (b : UInt8) : Bool := isBlank b || 0x80 ≤ b

/-- The bytes of the longer blanks lie outside ASCII. -/
structure HighBytes (pair : UInt8 → UInt8 → Bool) (triple : UInt8 → UInt8 → UInt8 → Bool) :
    Prop where
  pair : ∀ {a b}, pair a b = true → 0x80 ≤ a ∧ 0x80 ≤ b
  triple : ∀ {a b c}, triple a b c = true → 0x80 ≤ a ∧ 0x80 ≤ b ∧ 0x80 ≤ c

theorem forward_highBytes : HighBytes isBlankPair isBlankTriple where
  pair := by
    intro a b blank
    simp only [isBlankPair, Bool.and_eq_true, Bool.or_eq_true, beq_iff_eq] at blank
    obtain ⟨rfl, rfl | rfl⟩ := blank <;> decide
  triple := by
    intro a b c blank
    simp only [isBlankTriple, Bool.and_eq_true, Bool.or_eq_true, beq_iff_eq,
      decide_eq_true_eq] at blank
    obtain ((⟨⟨rfl, rfl⟩, rfl⟩ | ⟨⟨rfl, rfl⟩, last⟩) | ⟨⟨rfl, rfl⟩, rfl⟩) | ⟨⟨rfl, rfl⟩, rfl⟩ :=
      blank
    · decide
    · refine ⟨by decide, by decide, ?_⟩
      obtain ((⟨low, _⟩ | rfl) | rfl) | rfl := last
      · exact low
      all_goals decide
    · decide
    · decide

theorem backward_highBytes :
    HighBytes (fun b a => isBlankPair a b) (fun c b a => isBlankTriple a b c) where
  pair blank := (forward_highBytes.pair blank).symm
  triple blank := by
    obtain ⟨first, second, third⟩ := forward_highBytes.triple blank
    exact ⟨third, second, first⟩

theorem dropBlanks_eq {pair : UInt8 → UInt8 → Bool} {triple : UInt8 → UInt8 → UInt8 → Bool}
    (high : HighBytes pair triple) (t : Text) :
    ∃ l, t = l ++ dropBlanks pair triple t ∧ ∀ b ∈ l, isBlankByte b = true := by
  fun_induction dropBlanks pair triple t with
  | case1 => exact ⟨[], by simp⟩
  | case2 a rest blank ih =>
      obtain ⟨l, cut, blanks⟩ := ih
      exact ⟨a :: l, by simpa using cut, by simpa [isBlankByte, blank] using blanks⟩
  | case3 a => exact ⟨[], by simp⟩
  | case4 a _ b rest blank ih =>
      obtain ⟨l, cut, blanks⟩ := ih
      obtain ⟨first, second⟩ := high.pair blank
      exact ⟨a :: b :: l, by simpa using cut, by simpa [isBlankByte, first, second] using blanks⟩
  | case5 a _ b => exact ⟨[], by simp⟩
  | case6 a _ b _ c rest blank ih =>
      obtain ⟨l, cut, blanks⟩ := ih
      obtain ⟨first, second, third⟩ := high.triple blank
      exact ⟨a :: b :: c :: l, by simpa using cut,
        by simpa [isBlankByte, first, second, third] using blanks⟩
  | case7 => exact ⟨[], by simp⟩

/-- A text is its trimmed part between bytes of blanks. -/
theorem trim_eq (t : Text) : ∃ l r, t = l ++ t.trim ++ r ∧
    (∀ b ∈ l, isBlankByte b = true) ∧ ∀ b ∈ r, isBlankByte b = true := by
  obtain ⟨l, front, leading⟩ := dropBlanks_eq forward_highBytes t
  obtain ⟨r, back, trailing⟩ := dropBlanks_eq backward_highBytes t.trimStart.reverse
  refine ⟨l, r.reverse, ?_, leading, by simpa using trailing⟩
  have ending : t.trimStart = t.trim ++ r.reverse := by
    have reversed := congrArg List.reverse back
    simpa [trim, trimEnd] using reversed
  rw [List.append_assoc, ← ending]
  exact front

theorem trim_infix (t : Text) : t.trim <:+: t := by
  obtain ⟨l, r, cut, _⟩ := trim_eq t
  exact ⟨l, r, cut.symm⟩

theorem filter_trim {keep : UInt8 → Bool} (dropped : ∀ b, isBlankByte b = true → keep b = false)
    (t : Text) : t.trim.filter keep = t.filter keep := by
  obtain ⟨l, r, cut, leading, trailing⟩ := trim_eq t
  have none {blanks : Text} (all : ∀ b ∈ blanks, isBlankByte b = true) :
      blanks.filter keep = [] := by
    rw [List.filter_eq_nil_iff]
    intro b member
    simp [dropped b (all b member)]
  conv_rhs => rw [cut]
  simp [none leading, none trailing]

theorem eq_between (different : x ≠ y) (starts : [x] <+: t) (ends : [y] <:+ t) :
    ∃ inner : Text, t = x :: inner ++ [y] := by
  obtain ⟨rest, front⟩ := starts
  obtain ⟨inner, back⟩ := ends
  cases inner with
  | nil =>
      have same := front.trans back.symm
      simp at same
      exact absurd same.1 different
  | cons first inner =>
      have same := front.trans back.symm
      simp at same
      exact ⟨inner, by rw [← back, same.1]⟩

theorem between_ends (x : UInt8) (inner : Text) (y : UInt8) :
    ((x :: inner ++ [y]).drop 1).take ((x :: inner ++ [y]).length - 2) = inner := by
  simp

theorem drop_past (l : Text) (b : UInt8) (r : Text) : (l ++ b :: r).drop (l.length + 1) = r := by
  rw [← List.drop_drop, List.drop_left]
  rfl

/-! ### The first occurrence of a pattern -/

theorem indexFrom_eq_some (found : indexFrom pattern position t = some i) :
    ∃ before after, t = before ++ pattern ++ after ∧ i = position + before.length ∧
      ∀ j < before.length, ¬ pattern <+: t.drop j := by
  fun_induction indexFrom pattern position t with
  | case1 position empty =>
      cases found
      exact ⟨[], [], by simpa using empty, by simp, by simp⟩
  | case2 => cases found
  | case3 position b rest starts =>
      cases found
      obtain ⟨after, cut⟩ := List.isPrefixOf_iff_prefix.mp starts
      exact ⟨[], after, by simpa using cut.symm, by simp, by simp⟩
  | case4 position b rest differs ih =>
      obtain ⟨before, after, cut, place, first⟩ := ih found
      refine ⟨b :: before, after, by simp [cut], by simp [place]; omega, ?_⟩
      intro j earlier
      cases j with
      | zero => simpa [List.isPrefixOf_iff_prefix] using differs
      | succ j => exact first j (by simpa using earlier)

/-- A pattern that is not found is nowhere in the text. -/
theorem indexFrom_eq_none (absent : indexFrom pattern position t = none) : ¬ pattern <:+: t := by
  fun_induction indexFrom pattern position t with
  | case1 => cases absent
  | case2 position nonempty => simpa [List.infix_nil] using nonempty
  | case3 => cases absent
  | case4 position b rest differs ih =>
      intro inside
      cases List.infix_cons_iff.mp inside with
      | inl starts => exact differs (List.isPrefixOf_iff_prefix.mpr starts)
      | inr later => exact ih absent later

/-- A pattern is found where it stands, with no occurrence inside the text in front. -/
theorem indexOf?_eq_some (found : t.indexOf? pattern = some i) (nonempty : pattern ≠ []) :
    t = t.take i ++ pattern ++ t.drop (i + pattern.length) ∧ ¬ pattern <:+: t.take i := by
  obtain ⟨before, after, cut, place, first⟩ := indexFrom_eq_some found
  have front : t.take i = before := by simp [cut, place]
  have back : t.drop (i + pattern.length) = after := by simp [cut, place]
  rw [front, back]
  refine ⟨cut, fun inside => ?_⟩
  obtain ⟨left, right, same⟩ := inside
  have positive := List.length_pos_iff.mpr nonempty
  have shorter : left.length < before.length := by
    simp [← same]
    omega
  refine first left.length shorter ⟨right ++ pattern ++ after, ?_⟩
  simp [cut, ← same]

/-- A pair of different bytes cannot overlap itself, so the first one is found at once. -/
theorem indexOf?_pair (different : x ≠ y) (absent : ¬ [x, y] <:+: l) (r : Text) :
    indexOf? (l ++ x :: y :: r) [x, y] = some l.length := by
  suffices shifted : ∀ position,
      indexFrom [x, y] position (l ++ x :: y :: r) = some (position + l.length) by
    simpa [indexOf?] using shifted 0
  induction l with
  | nil => simp [indexFrom]
  | cons b l ih =>
      intro position
      have later := ih (fun inside => absent (inside.trans (List.infix_cons (List.infix_refl l))))
        (position + 1)
      have differs : ¬ [x, y] <+: b :: (l ++ x :: y :: r) := by
        intro starts
        cases l with
        | nil =>
            simp at starts
            exact different starts.2.symm
        | cons c l =>
            simp only [List.cons_append, List.cons_prefix_cons, List.nil_prefix, and_true] at starts
            exact absent ⟨[], l, by simp [starts.1, starts.2]⟩
      rw [List.cons_append, indexFrom, if_neg (by simpa using differs), later]
      simp
      omega

/-! ### The last occurrence of a byte -/

theorem lastIndexOf?_eq_some (found : t.lastIndexOf? b = some i) :
    t = t.take i ++ b :: t.drop (i + 1) ∧ b ∉ t.drop (i + 1) := by
  simp only [lastIndexOf?] at found
  split at found
  · rename_i shorter
    have cut := List.takeWhile_append_dropWhile (p := (· != b)) (l := t.reverse)
    have others := List.all_eq_true.mp (List.all_takeWhile (p := (· != b)) (l := t.reverse))
    generalize t.reverse.takeWhile (· != b) = after at found shorter cut others
    cases rest : t.reverse.dropWhile (· != b) with
    | nil =>
        have whole := congrArg List.length cut
        simp [rest] at whole
        omega
    | cons first before =>
        have isByte : first = b := by
          have head := List.head_dropWhile_not (· != b) (l := t.reverse) (by simp [rest])
          simpa [rest] using head
        have text : t = before.reverse ++ b :: after.reverse := by
          have reversed := congrArg List.reverse cut
          simpa [rest, isByte] using reversed.symm
        have place : before.reverse.length = i := by
          have size := congrArg List.length text
          have position := Option.some.inj found
          simp at size ⊢
          omega
        have front : t.take i = before.reverse := by simp [text, ← place]
        have back : t.drop (i + 1) = after.reverse := by rw [text, ← place, drop_past]
        rw [front, back]
        refine ⟨text, fun member => ?_⟩
        have different := others b (List.mem_reverse.mp member)
        simp at different
  · cases found

theorem lastIndexOf?_append (absent : b ∉ r) (l : Text) :
    lastIndexOf? (l ++ b :: r) b = some l.length := by
  have passed : (l ++ b :: r).reverse.takeWhile (· != b) = r.reverse := by
    have others : ∀ c ∈ r.reverse, (c != b) = true := by
      intro c member
      simpa using fun same : c = b => absent (same ▸ List.mem_reverse.mp member)
    rw [List.reverse_append, List.reverse_cons, List.append_assoc,
      List.takeWhile_append_of_pos others]
    simp
  simp only [lastIndexOf?, passed]
  simp
  omega

end PermissionGuard.Text
