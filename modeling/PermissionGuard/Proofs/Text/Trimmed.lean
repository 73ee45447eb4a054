import PermissionGuard.Proofs.Text.Cuts

/-!
Texts without blanks at their ends. Trimming gives such a text (`trimmed_trim`) and does not change
one (`Trimmed.trim_eq`). The longer blanks have no ASCII bytes, so two texts with an ASCII byte
between them keep their clear ends (`trimmed_glue`).
-/

namespace PermissionGuard.Text

variable {pair : UInt8 → UInt8 → Bool} {triple : UInt8 → UInt8 → UInt8 → Bool}
variable {t u v : Text} {a b c : UInt8}

/-- No blank of one, two or three bytes stands in front. -/
def Clear (pair : UInt8 → UInt8 → Bool) (triple : UInt8 → UInt8 → UInt8 → Bool) : Text → Prop
  | [] => True
  | [a] => isBlank a = false
  | [a, b] => isBlank a = false ∧ pair a b = false
  | a :: b :: c :: _ => isBlank a = false ∧ pair a b = false ∧ triple a b c = false

theorem dropBlanks_clear (t : Text) : Clear pair triple (dropBlanks pair triple t) := by
  fun_induction dropBlanks pair triple t with
  | case1 => trivial
  | case2 _ _ _ ih => exact ih
  | case3 a visible => simpa [Clear] using visible
  | case4 _ _ _ _ _ ih => exact ih
  | case5 a visible b visible' => simpa [Clear] using And.intro visible visible'
  | case6 _ _ _ _ _ _ _ ih => exact ih
  | case7 a visible b visible' c rest visible'' =>
      simpa [Clear] using And.intro visible (And.intro visible' visible'')

theorem Clear.dropBlanks_eq (clear : Clear pair triple t) : dropBlanks pair triple t = t := by
  match t, clear with
  | [], _ => rfl
  | [a], clear =>
      have visible : isBlank a = false := clear
      simp [dropBlanks, visible]
  | [a, b], clear =>
      obtain ⟨visible, visible'⟩ := clear
      simp [dropBlanks, visible, visible']
  | a :: b :: c :: rest, clear =>
      obtain ⟨visible, visible', visible''⟩ := clear
      simp [dropBlanks, visible, visible', visible'']

theorem Clear.of_append (clear : Clear pair triple (u ++ v)) : Clear pair triple u := by
  match u, v, clear with
  | [], _, _ => trivial
  | [_], [], clear => exact clear
  | [_], [_], clear => exact clear.1
  | [_], _ :: _ :: _, clear => exact clear.1
  | [_, _], [], clear => exact clear
  | [_, _], _ :: _, clear => exact ⟨clear.1, clear.2.1⟩
  | _ :: _ :: _ :: _, _, clear => exact clear

theorem HighBytes.pair_low (high : HighBytes pair triple) (low : a < 0x80 ∨ b < 0x80) :
    pair a b = false := by
  by_contra blank
  obtain ⟨first, second⟩ := high.pair (by simpa using blank)
  rcases low with low | low
  · exact absurd first (UInt8.not_le.mpr low)
  · exact absurd second (UInt8.not_le.mpr low)

theorem HighBytes.triple_low (high : HighBytes pair triple)
    (low : a < 0x80 ∨ b < 0x80 ∨ c < 0x80) : triple a b c = false := by
  by_contra blank
  obtain ⟨first, second, third⟩ := high.triple (by simpa using blank)
  rcases low with low | low | low
  · exact absurd first (UInt8.not_le.mpr low)
  · exact absurd second (UInt8.not_le.mpr low)
  · exact absurd third (UInt8.not_le.mpr low)

theorem Clear.cons (high : HighBytes pair triple) (visible : isBlank b = false)
    (low : b < 0x80) (t : Text) : Clear pair triple (b :: t) := by
  match t with
  | [] => exact visible
  | [_] => exact ⟨visible, high.pair_low (Or.inl low)⟩
  | _ :: _ :: _ => exact ⟨visible, high.pair_low (Or.inl low), high.triple_low (Or.inl low)⟩

/-- An ASCII byte ends no blank, so what follows it cannot make one out of the text in front. -/
theorem Clear.append (high : HighBytes pair triple) (clear : Clear pair triple u)
    (nonempty : u ≠ []) (low : b < 0x80) (v : Text) : Clear pair triple (u ++ b :: v) := by
  match u, v, clear with
  | [], _, _ => exact absurd rfl nonempty
  | [_], [], clear => exact ⟨clear, high.pair_low (Or.inr low)⟩
  | [_], _ :: _, clear =>
      exact ⟨clear, high.pair_low (Or.inr low), high.triple_low (Or.inr (Or.inl low))⟩
  | [_, _], _, clear => exact ⟨clear.1, clear.2, high.triple_low (Or.inr (Or.inr low))⟩
  | _ :: _ :: _ :: _, _, clear => exact clear

def ClearFront (t : Text) : Prop := Clear isBlankPair isBlankTriple t

def ClearBack (t : Text) : Prop :=
  Clear (fun b a => isBlankPair a b) (fun c b a => isBlankTriple a b c) t.reverse

/-- No blank stands at either end. -/
structure Trimmed (t : Text) : Prop where
  front : ClearFront t
  back : ClearBack t

theorem trimmed_nil : Trimmed [] := ⟨trivial, trivial⟩

theorem Trimmed.trim_eq (trimmed : Trimmed t) : t.trim = t := by
  rw [trim, trimStart, trimmed.front.dropBlanks_eq, trimEnd, trimmed.back.dropBlanks_eq,
    List.reverse_reverse]

theorem ClearFront.of_append (clear : ClearFront (u ++ v)) : ClearFront u := Clear.of_append clear

theorem ClearBack.of_append (clear : ClearBack (u ++ v)) : ClearBack v := by
  rw [ClearBack, List.reverse_append] at clear
  exact Clear.of_append clear

theorem trimEnd_clearBack (t : Text) : ClearBack t.trimEnd := by
  rw [ClearBack, trimEnd, List.reverse_reverse]
  exact dropBlanks_clear _

/-- Trimming at the end takes nothing away in front. -/
theorem trimEnd_prefix (t : Text) : t.trimEnd <+: t := by
  obtain ⟨dropped, cut, _⟩ := dropBlanks_eq backward_highBytes t.reverse
  refine ⟨dropped.reverse, ?_⟩
  have reversed := congrArg List.reverse cut
  simpa [trimEnd] using reversed.symm

theorem trimmed_trim (t : Text) : Trimmed t.trim := by
  refine ⟨?_, trimEnd_clearBack _⟩
  obtain ⟨dropped, cut⟩ := trimEnd_prefix t.trimStart
  have clear : ClearFront t.trimStart := dropBlanks_clear t
  rw [← cut] at clear
  exact clear.of_append

/-- Blanks at the end make up a whole text only if it begins with one. -/
theorem dropBlanks_backward_ne_nil (clear : ClearFront t.reverse) (nonempty : t ≠ []) :
    dropBlanks (fun b a => isBlankPair a b) (fun c b a => isBlankTriple a b c) t ≠ [] := by
  -- Without the blank at its end the text still begins with none, unless nothing is left of it.
  fun_induction dropBlanks (fun b a => isBlankPair a b) (fun c b a => isBlankTriple a b c) t with
  | case1 => exact absurd rfl nonempty
  | case2 a rest blank ih =>
      rw [List.reverse_cons] at clear
      refine ih clear.of_append fun empty => ?_
      have visible : isBlank a = false := by simpa [empty, ClearFront, Clear] using clear
      simp [visible] at blank
  | case3 => exact List.cons_ne_nil _ _
  | case4 a _ b rest blank ih =>
      rw [List.reverse_cons, List.reverse_cons, List.append_assoc] at clear
      refine ih clear.of_append fun empty => ?_
      have visible : isBlank b = false ∧ isBlankPair b a = false := by
        simpa [empty, ClearFront, Clear] using clear
      simp [visible.2] at blank
  | case5 => exact List.cons_ne_nil _ _
  | case6 a _ b _ c rest blank ih =>
      rw [List.reverse_cons, List.reverse_cons, List.reverse_cons, List.append_assoc,
        List.append_assoc] at clear
      refine ih clear.of_append fun empty => ?_
      have visible : isBlank c = false ∧ isBlankPair c b = false ∧ isBlankTriple c b a = false := by
        simpa [empty, ClearFront, Clear] using clear
      simp [visible.2.2] at blank
  | case7 => exact List.cons_ne_nil _ _

/-- A text that begins with no blank keeps its beginning. -/
theorem trim_ne_nil (clear : ClearFront t) (nonempty : t ≠ []) : t.trim ≠ [] := by
  rw [trim, trimStart, clear.dropBlanks_eq, trimEnd, Ne, List.reverse_eq_nil_iff]
  exact dropBlanks_backward_ne_nil (by rwa [List.reverse_reverse]) (by simpa using nonempty)

theorem clearFront_cons (visible : isBlank b = false) (low : b < 0x80) (t : Text) :
    ClearFront (b :: t) := Clear.cons forward_highBytes visible low t

theorem clearBack_concat (visible : isBlank b = false) (low : b < 0x80) (t : Text) :
    ClearBack (t ++ [b]) := by
  rw [ClearBack, List.reverse_append]
  exact Clear.cons backward_highBytes visible low t.reverse

theorem ClearFront.append (clear : ClearFront u) (nonempty : u ≠ []) (low : b < 0x80) (v : Text) :
    ClearFront (u ++ b :: v) := Clear.append forward_highBytes clear nonempty low v

theorem ClearBack.append (clear : ClearBack v) (nonempty : v ≠ []) (low : b < 0x80) (u : Text) :
    ClearBack (u ++ b :: v) := by
  have reversed : (u ++ b :: v).reverse = v.reverse ++ b :: u.reverse := by simp
  rw [ClearBack, reversed]
  exact Clear.append backward_highBytes clear (by simpa using nonempty) low u.reverse

/-- Two texts with an ASCII byte between them have the clear ends that they had. -/
theorem trimmed_glue (front : ClearFront u) (frontNonempty : u ≠ []) (back : ClearBack v)
    (backNonempty : v ≠ []) (low : b < 0x80) : Trimmed (u ++ b :: v) :=
  ⟨front.append frontNonempty low v, back.append backNonempty low u⟩

end PermissionGuard.Text
