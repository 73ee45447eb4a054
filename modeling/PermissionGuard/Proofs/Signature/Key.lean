import PermissionGuard.Proofs.Signature.Brackets

/-!
The key of a signature that was read from a text. Whatever was read, the parts of the key can be
told apart again: no class holds a colon with a space, no name a space, the parentheses of the
parameters match, and the parameters are separated by the commas outside of their brackets
(`Canonical`). So the key determines the signature.
-/

namespace PermissionGuard.Signature

variable {input head inside : Text} {sig sig' : Signature} {params : List Text}

/-! ### What is read -/

theorem parseHead_eq_ok {returnType name : Text} (read : parseHead head = .ok (returnType, name)) :
    ∃ returned, head = returned ++ 0x20 :: name ∧ returned ≠ [] ∧ name ≠ [] ∧ 0x20 ∉ name ∧
      returnType = returned.trim := by
  simp only [parseHead] at read
  split at read
  · cases read
  · rename_i space found
    split at read
    · cases read
    · rename_i apart
      obtain ⟨cut, unbroken⟩ := Text.lastIndexOf?_eq_some found
      cases read
      have size := congrArg List.length cut
      refine ⟨head.take space, cut, ?_, ?_, unbroken, rfl⟩
      · intro empty
        cases List.take_eq_nil_iff.mp empty with
        | inl first => exact apart (Or.inl first)
        | inr nothing => simp [nothing] at size
      · intro empty
        simp [empty] at size
        omega

theorem parseParams_eq_ok (read : parseParams inside = .ok params) :
    [] ∉ params ∧ (params = [] ∧ inside.trim = [] ∨
      SeparateFrom 0 params ∧
        (Text.join [0x2C] params).filter isMark = inside.filter isMark) := by
  simp only [parseParams] at read
  split at read
  · rename_i blank
    cases read
    exact ⟨by simp, Or.inl ⟨rfl, by simpa using blank⟩⟩
  · split at read
    · cases read
    · rename_i full
      cases read
      obtain ⟨joined, separate⟩ := splitTopLevel_separates inside.trim
      refine ⟨?_, Or.inr ⟨separate.map_trim, ?_⟩⟩
      · intro empty
        exact full (List.any_eq_true.mpr ⟨[], empty, rfl⟩)
      · rw [filter_join_trim, joined, filter_isMark_trim]

/-- The parts of a text `head(inside)` that is read as a method. The head ends with the name, after
what is written of the return type. -/
structure BodyWritten (body : Text) (sig : Signature) (head inside returned : Text) : Prop where
  closed : body = head ++ 0x28 :: (inside ++ [0x29])
  matched : Matched inside
  headed : head.trim = returned ++ 0x20 :: sig.name
  returned_nonempty : returned ≠ []
  returnType : sig.returnType = returned.trim
  name_nonempty : sig.name ≠ []
  name_unbroken : 0x20 ∉ sig.name
  params : parseParams inside = .ok sig.params

theorem parseBody_eq_ok {className body : Text} (read : parseBody className body = .ok sig) :
    sig.className = className ∧ ∃ head inside returned, BodyWritten body sig head inside returned := by
  simp only [parseBody] at read
  split at read
  · cases read
  · rename_i parenthesis
    have ends : body.endsWith ")" = true := by simpa using parenthesis
    split at read
    · cases read
    · rename_i opening matching
      obtain ⟨closed, matched⟩ :=
        matchingOpen?_eq_some (List.isSuffixOf_iff_suffix.mp ends) matching
      cases parts : parseHead (Text.trim (body.take opening)) with
      | error cause => simp [parts, bind, Except.bind] at read
      | ok named =>
          simp only [parts, bind, Except.bind] at read
          split at read
          · cases read
          · rename_i params list
            cases read
            obtain ⟨returned, headed, full, nonempty, unbroken, isReturned⟩ := parseHead_eq_ok parts
            exact ⟨rfl, body.take opening, _, returned, closed, matched, headed, full, isReturned,
              nonempty, unbroken, list⟩

/-- A text `<before: body>` is read as a signature when the body is read as a method. -/
theorem parse_eq_ok (read : parse input = .ok sig) :
    ∃ before body : Text, input.trim = 0x3C :: (before ++ 0x3A :: 0x20 :: body) ++ [0x3E] ∧
      before ≠ [] ∧ ¬ [0x3A, 0x20] <:+: before ∧ sig.className = before.trim ∧
      ∃ head inside returned, BodyWritten body.trim sig head inside returned := by
  simp only [parse] at read
  split at read
  · cases read
  · rename_i brackets
    have both : input.trim.startsWith "<" = true ∧ input.trim.endsWith ">" = true := by
      simpa using brackets
    obtain ⟨inner, enclosed⟩ := Text.eq_between (by decide : (0x3C : UInt8) ≠ 0x3E)
      (List.isPrefixOf_iff_prefix.mp both.1) (List.isSuffixOf_iff_suffix.mp both.2)
    have whole : (input.trim.drop 1).take (input.trim.length - 2) = inner := by
      rw [enclosed]
      exact Text.between_ends _ _ _
    rw [whole] at read
    split at read
    · cases read
    · cases read
    · rename_i colon nonzero found
      obtain ⟨cut, first⟩ := Text.indexOf?_eq_some found (by decide)
      have parts : inner = inner.take colon ++ 0x3A :: 0x20 :: inner.drop (colon + 2) := by
        rw [List.append_assoc] at cut
        exact cut
      refine ⟨inner.take colon, inner.drop (colon + 2), by rw [← parts, enclosed], ?_, first,
        parseBody_eq_ok read⟩
      intro empty
      cases List.take_eq_nil_iff.mp empty with
      | inl zero => exact nonzero zero
      | inr nothing => simp [nothing] at parts

/-! ### The key -/

/-- What makes the parts of a key recognisable. -/
structure Canonical (sig : Signature) : Prop where
  className : ¬ [0x3A, 0x20] <:+: sig.className
  name : 0x20 ∉ sig.name
  params_nonempty : [] ∉ sig.params
  params_separate : sig.params ≠ [] → SeparateFrom 0 sig.params
  params_matched : Matched (Text.join [0x2C] sig.params)

theorem canonical_of_parse (read : parse input = .ok sig) : sig.Canonical := by
  obtain ⟨before, body, _, _, first, className, head, inside, returned, written⟩ := parse_eq_ok read
  obtain ⟨nonempty, list⟩ := parseParams_eq_ok written.params
  constructor
  case className =>
    rw [className]
    exact fun within => first (within.trans (Text.trim_infix before))
  case name => exact written.name_unbroken
  case params_nonempty => exact nonempty
  case params_separate =>
    intro some
    cases list with
    | inl none => exact absurd none.1 some
    | inr separate => exact separate.1
  case params_matched =>
    cases list with
    | inl none => simp [none.1, Text.join, Matched, matchedFrom]
    | inr separate => exact matched_of_filter written.matched separate.2

theorem key_eq (sig : Signature) : sig.key = 0x3C :: (sig.className ++ 0x3A :: 0x20 ::
    ((sig.returnType ++ 0x20 :: sig.name) ++
      0x28 :: (Text.join [0x2C] sig.params ++ [0x29]))) ++ [0x3E] := by
  have written : sig.key = [0x3C] ++ sig.className ++ [0x3A, 0x20] ++ sig.returnType ++ [0x20] ++
      sig.name ++ [0x28] ++ Text.join [0x2C] sig.params ++ [0x29, 0x3E] := rfl
  simp [written]

/-- Texts that are cut at the place that one search finds have the same parts. -/
theorem eq_of_cut (find : Text → Option Nat) {l r l' r' : Text}
    (found : find (l ++ r) = some l.length) (found' : find (l' ++ r') = some l'.length)
    (same : l ++ r = l' ++ r') : l = l' ∧ r = r' := by
  rw [same] at found
  exact List.append_inj same (Option.some.inj (found.symm.trans found'))

theorem Canonical.params_eq (canonical : sig.Canonical) (canonical' : sig'.Canonical)
    (same : Text.join [0x2C] sig.params = Text.join [0x2C] sig'.params) :
    sig.params = sig'.params := by
  have empty {sig : Signature} (canonical : sig.Canonical)
      (nothing : Text.join [0x2C] sig.params = []) : sig.params = [] := by
    cases params : sig.params with
    | nil => rfl
    | cons first more =>
        have nonempty := canonical.params_nonempty
        simp [params, Text.join] at nothing nonempty
        exact absurd nothing.1 nonempty.1
  by_cases none : sig.params = []
  · rw [none] at same ⊢
    exact (empty canonical' same.symm).symm
  · by_cases none' : sig'.params = []
    · rw [none'] at same
      exact absurd (empty canonical same) none
    · rw [← splitTopLevel_join (canonical.params_separate none), same,
        splitTopLevel_join (canonical'.params_separate none')]

/-- The key of a signature that was read determines it. -/
theorem Canonical.eq_of_key (canonical : sig.Canonical) (canonical' : sig'.Canonical)
    (same : sig.key = sig'.key) : sig = sig' := by
  rw [key_eq, key_eq] at same
  have inner := List.cons.inj (List.append_inj_left' same rfl)
  obtain ⟨className, rest⟩ := eq_of_cut (Text.indexOf? · [0x3A, 0x20])
    (Text.indexOf?_pair (by decide) canonical.className _)
    (Text.indexOf?_pair (by decide) canonical'.className _) inner.2
  obtain ⟨head, list⟩ := eq_of_cut matchingOpen?
    (matchingOpen?_of_matched canonical.params_matched _)
    (matchingOpen?_of_matched canonical'.params_matched _)
    (List.cons.inj (List.cons.inj rest).2).2
  obtain ⟨returnType, name⟩ := eq_of_cut (Text.lastIndexOf? · 0x20)
    (Text.lastIndexOf?_append canonical.name _) (Text.lastIndexOf?_append canonical'.name _) head
  have params := canonical.params_eq canonical'
    (List.append_inj_left' (List.cons.inj list).2 rfl)
  cases sig
  cases sig'
  simp_all

/-- Signatures that were read from texts have the same key exactly when they are the same. -/
theorem parsed_key_faithful {a b : Text} {sig sig' : Signature} (read : parse a = .ok sig)
    (read' : parse b = .ok sig') : sig.key = sig'.key ↔ sig = sig' :=
  ⟨(canonical_of_parse read).eq_of_key (canonical_of_parse read'), congrArg key⟩

/-- A tuple, a function type and brackets that match nothing. -/
def nestedSignature : Signature :=
  ⟨"store.DB", "load:", "(int, error)", ["func(a, b) (c, d)", "]["]⟩

/-- The same bytes in other parts. -/
def flatSignature : Signature :=
  ⟨"store.DB", "load:", "(int, error)", ["func(a, b)", "(c, d)", "]["]⟩

theorem parsed_key_faithful_nested :
    parse " <\tstore.DB : (int, error)  load:( func(a, b) (c, d) , ][)>" = .ok nestedSignature ∧
      parse "<store.DB: (int, error) load:(func(a, b),(c, d),][)>" = .ok flatSignature ∧
      nestedSignature.key ≠ flatSignature.key := by
  have read : parse " <\tstore.DB : (int, error)  load:( func(a, b) (c, d) , ][)>" =
      .ok nestedSignature := by rfl
  have read' : parse "<store.DB: (int, error) load:(func(a, b),(c, d),][)>" =
      .ok flatSignature := by rfl
  have different : nestedSignature ≠ flatSignature := by decide
  exact ⟨read, read', (parsed_key_faithful read read').not.mpr different⟩

end PermissionGuard.Signature
