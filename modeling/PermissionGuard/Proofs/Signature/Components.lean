import PermissionGuard.Proofs.Signature.Reparse

/-!
The components of the signatures that are read. The return type, the name and the parameters are
never empty. The class is looked for in front of the first colon with a space before it is trimmed,
so it is empty where nothing but blanks stand there (`read_components`).
-/

namespace PermissionGuard.Signature

variable {t input : Text} {sig : Signature}

theorem isBlankByte_of_trim_eq_nil (blank : t.trim = []) : ∀ b ∈ t, Text.isBlankByte b = true := by
  obtain ⟨l, r, cut, leading, trailing⟩ := Text.trim_eq t
  rw [blank, List.append_nil] at cut
  intro b member
  rw [cut] at member
  cases List.mem_append.mp member with
  | inl front => exact leading b front
  | inr back => exact trailing b back

theorem unbroken_of_trim_eq_nil (blank : t.trim = []) : ¬ [0x3A, 0x20] <:+: t := by
  intro inside
  have colon : (0x3A : UInt8) ∈ t := inside.subset List.mem_cons_self
  have isBlank := isBlankByte_of_trim_eq_nil blank 0x3A colon
  exact absurd isBlank (by decide)

/-- All components of a signature that is read are there, the class apart. It is missing exactly
where the text has nothing but blanks in its place. -/
theorem read_components (read : parse input = .ok sig) :
    sig.returnType ≠ [] ∧ sig.name ≠ [] ∧ (∀ param ∈ sig.params, param ≠ []) ∧
      (sig.className = [] ↔ ∃ blanks body : Text,
        input.trim = 0x3C :: (blanks ++ 0x3A :: 0x20 :: body) ++ [0x3E] ∧ blanks.trim = []) := by
  have normal := normal_of_parse read
  obtain ⟨before, body, enclosed, _, first, className, _⟩ := parse_eq_ok read
  refine ⟨normal.returnType_nonempty, normal.name_nonempty, ?_, ?_⟩
  · intro param member empty
    exact normal.params_nonempty (empty ▸ member)
  · constructor
    · intro unnamed
      exact ⟨before, body, enclosed, className.symm.trans unnamed⟩
    · intro place
      obtain ⟨blanks, rest, enclosed', blank⟩ := place
      have inner := List.cons.inj (List.append_inj_left' (enclosed.symm.trans enclosed') rfl)
      obtain ⟨same, _⟩ := eq_of_cut (Text.indexOf? · [0x3A, 0x20])
        (Text.indexOf?_pair (by decide) first _)
        (Text.indexOf?_pair (by decide) (unbroken_of_trim_eq_nil blank) _) inner.2
      rw [className, same, blank]

/-- A no-break space in place of the class. -/
theorem read_components_unnamed :
    let sig : Signature := ⟨[], "\tload", "(int, error)", ["func()"]⟩
    parse "<\u00a0\t: (int, error)  \tload( func() )>" = .ok sig ∧
      sig.returnType ≠ [] ∧ sig.className = [] := by
  intro sig
  have read : parse "<\u00a0\t: (int, error)  \tload( func() )>" = .ok sig := by rfl
  obtain ⟨returned, _, _, unnamed⟩ := read_components read
  refine ⟨read, returned, unnamed.mpr ⟨"\u00a0\t", "(int, error)  \tload( func() )", ?_, ?_⟩⟩
  · rfl
  · rfl

/-- A signature is read although its class is a blank. -/
theorem blank_class_is_read :
    ¬ ∀ (input : Text) (sig : Signature), parse input = .ok sig →
      sig.className ≠ [] ∧ sig.returnType ≠ [] ∧ sig.name ≠ [] ∧
        ∀ param ∈ sig.params, param ≠ [] := by
  intro complete
  have read : parse "< : void f()>" = .ok ⟨[], "f", "void", []⟩ := by rfl
  exact (complete _ _ read).1 rfl

end PermissionGuard.Signature
