import PermissionGuard.Proofs.Signature.Reparse
import PermissionGuard.Ssa.Basic

/-!
Signatures whose keys can be read. The brackets and commas of a parameter are a matter of counting
(`WellFormedParam`): counted from the front they say where the parentheses match, read from the
back, and where the commas separate, so a well-formed signature is read from its key
(`wellFormed_key_reads`).
-/

namespace PermissionGuard.Signature

variable {t u v : Text} {params : List Text} {sig : Signature}

/-- A text closes all of its parentheses, and no beginning of it closes more than it opens. -/
structure Balanced (t : Text) : Prop where
  within : ∀ l, l <+: t → l.count 0x29 ≤ l.count 0x28
  whole : t.count 0x28 = t.count 0x29

instance (t : Text) : Decidable (Balanced t) :=
  decidable_of_iff ((∀ l ∈ t.inits, l.count 0x29 ≤ l.count 0x28) ∧ t.count 0x28 = t.count 0x29)
    ⟨fun both => ⟨fun l front => both.1 l ((List.mem_inits l t).mpr front), both.2⟩,
      fun balanced => ⟨fun l member => balanced.within l ((List.mem_inits l t).mp member),
        balanced.whole⟩⟩

/-- What the written form of a parameter type has to satisfy. -/
structure WellFormedParam (t : Text) : Prop where
  nonempty : t ≠ []
  trimmed : t.trim = t
  balanced : Balanced t
  brackets : t.countP opens = t.countP closes
  /-- Every comma stands inside of brackets. -/
  commas : ∀ l, l ++ [0x2C] <+: t → l.countP opens ≠ l.countP closes

instance (t : Text) : Decidable (WellFormedParam t) :=
  decidable_of_iff (t ≠ [] ∧ t.trim = t ∧ Balanced t ∧ t.countP opens = t.countP closes ∧
      ∀ l ∈ t.inits, l ++ [0x2C] <+: t → l.countP opens ≠ l.countP closes)
    ⟨fun all => ⟨all.1, all.2.1, all.2.2.1, all.2.2.2.1, fun l comma => all.2.2.2.2 l
        ((List.mem_inits l t).mpr ((List.prefix_append l _).trans comma)) comma⟩,
      fun param => ⟨param.nonempty, param.trimmed, param.balanced, param.brackets,
        fun l _ => param.commas l⟩⟩

/-- What the components of a signature have to satisfy for its key to be read. -/
structure WellFormed (sig : Signature) : Prop where
  className_nonempty : sig.className ≠ []
  className_trimmed : sig.className.trim = sig.className
  className_unbroken : ¬ [0x3A, 0x20] <:+: sig.className
  returnType_nonempty : sig.returnType ≠ []
  returnType_trimmed : sig.returnType.trim = sig.returnType
  name_nonempty : sig.name ≠ []
  name_trimmed : sig.name.trim = sig.name
  name_unbroken : 0x20 ∉ sig.name
  params : ∀ param ∈ sig.params, WellFormedParam param

/-! ### Parentheses -/

/-- Parentheses match from the back where every beginning of the reversed text opens what is open
in front of it or was closed in it before. -/
theorem matchedFrom_of_count {depth : Nat}
    (within : ∀ l, l <+: t → l.count 0x28 ≤ depth + l.count 0x29)
    (whole : t.count 0x28 = depth + t.count 0x29) : matchedFrom depth t = true := by
  induction t generalizing depth with
  | nil =>
      have closed : depth = 0 := by simpa using whole.symm
      simp [matchedFrom, closed]
  | cons b t ih =>
      have later (l : Text) (front : l <+: t) :
          (b :: l).count 0x28 ≤ depth + (b :: l).count 0x29 :=
        within (b :: l) (List.cons_prefix_cons.mpr ⟨rfl, front⟩)
      have first := later [] List.nil_prefix
      simp only [List.count_cons, List.count_nil, beq_iff_eq] at later first whole
      unfold matchedFrom
      split
      · rename_i closing
        subst b
        refine ih (fun l front => ?_) ?_
        · have counted := later l front
          simp at counted
          omega
        · simp at whole
          omega
      · rename_i notClosing
        split
        · rename_i opening
          subst b
          simp at first whole
          have below : matchedFrom (depth - 1) t = true := by
            refine ih (fun l front => ?_) (by omega)
            have counted := later l front
            simp at counted
            omega
          simp [below]
          omega
        · rename_i notOpening
          refine ih (fun l front => ?_) ?_
          · simpa [notClosing, notOpening] using later l front
          · simpa [notClosing, notOpening] using whole

theorem Balanced.matched (balanced : Balanced t) : Matched t := by
  refine matchedFrom_of_count (fun l front => ?_) ?_
  · obtain ⟨r, cut⟩ := front
    -- A beginning of the reversed text is what a beginning of the text leaves over.
    have parts : t = r.reverse ++ l.reverse := by
      simpa using (congrArg List.reverse cut).symm
    have before := balanced.within r.reverse ⟨l.reverse, parts.symm⟩
    have whole := balanced.whole
    simp only [parts, List.count_append, List.count_reverse] at before whole
    omega
  · simpa using balanced.whole

theorem matchedFrom_append {depth : Nat} (matched : matchedFrom depth u = true) (v : Text) :
    matchedFrom depth (u ++ v) = matchedFrom 0 v := by
  induction u generalizing depth with
  | nil =>
      have closed : depth = 0 := by simpa [matchedFrom] using matched
      rw [closed, List.nil_append]
  | cons b u ih =>
      rw [List.cons_append]
      simp only [matchedFrom] at matched
      simp only [matchedFrom.eq_2]
      split at matched
      · rename_i closing
        rw [if_pos closing]
        exact ih matched
      · rename_i notClosing
        rw [if_neg notClosing]
        split at matched
        · rename_i opening
          obtain ⟨inner, below⟩ := (Bool.and_eq_true _ _).mp matched
          rw [if_pos opening, inner, Bool.true_and]
          exact ih below
        · rename_i notOpening
          rw [if_neg notOpening]
          exact ih matched

theorem matched_join (matched : ∀ param ∈ params, Matched param) :
    Matched (Text.join [0x2C] params) := by
  induction params with
  | nil => rfl
  | cons param params ih =>
      have first := matched param List.mem_cons_self
      have others := ih fun param member => matched param (List.mem_cons_of_mem _ member)
      cases params with
      | nil => simpa [Text.join] using first
      | cons next more =>
          rw [join_cons, Matched, List.reverse_append, List.reverse_cons, List.append_assoc,
            matchedFrom_append others]
          exact first

/-! ### Commas -/

theorem closes_of_opens {b : UInt8} (opening : opens b = true) : closes b = false := by
  simp only [opens, Bool.or_eq_true, beq_iff_eq] at opening
  obtain (rfl | rfl) | rfl := opening <;> rfl

/-- The level after a text is counted, if it is not zero at any comma. -/
theorem levelAfter_of_count {depth : Int}
    (commas : ∀ l, l ++ [0x2C] <+: t → depth + l.countP opens ≠ l.countP closes) :
    levelAfter depth t = some (depth + t.countP opens - t.countP closes) := by
  induction t generalizing depth with
  | nil => simp [levelAfter]
  | cons b t ih =>
      have later (l : Text) (comma : l ++ [0x2C] <+: t) :
          depth + (b :: l).countP opens ≠ (b :: l).countP closes :=
        commas (b :: l) (List.cons_prefix_cons.mpr ⟨rfl, comma⟩)
      simp only [List.countP_cons] at later ⊢
      unfold levelAfter
      split
      · rename_i opening
        have notClosing := closes_of_opens opening
        rw [ih fun l comma => ?_]
        · simp [notClosing]
          omega
        · have apart := later l comma
          simp [opening, notClosing] at apart
          omega
      · rename_i notOpening
        split
        · rename_i closing
          rw [ih fun l comma => ?_]
          · simp
            omega
          · have apart := later l comma
            simp [notOpening, closing] at apart
            omega
        · rename_i notClosing
          split
          · rename_i comma
            obtain ⟨rfl, rfl⟩ := comma
            exact absurd rfl (commas [] ⟨t, rfl⟩)
          · rw [ih fun l comma => ?_]
            · simp
            · simpa [notOpening, notClosing] using later l comma

theorem WellFormedParam.levelAfter (param : WellFormedParam t) : levelAfter 0 t = some 0 := by
  have brackets := param.brackets
  rw [levelAfter_of_count fun l comma => ?_]
  · simp [brackets]
  · have apart := param.commas l comma
    omega

theorem separateFrom_of_levelAfter (levels : ∀ param ∈ params, levelAfter 0 param = some 0)
    (some : params ≠ []) : SeparateFrom 0 params := by
  induction params with
  | nil => exact absurd rfl some
  | cons param params ih =>
      have ended := levels param List.mem_cons_self
      cases params with
      | nil => exact Option.isSome_of_eq_some ended
      | cons next more =>
          exact ⟨ended, ih (fun param member => levels param (List.mem_cons_of_mem _ member))
            (List.cons_ne_nil _ _)⟩

/-! ### Keys -/

theorem trimmed_of_trim_eq (same : t.trim = t) : Text.Trimmed t := same ▸ Text.trimmed_trim t

theorem WellFormed.normal (wellFormed : sig.WellFormed) : sig.Normal where
  className := wellFormed.className_unbroken
  name := wellFormed.name_unbroken
  params_nonempty empty := (wellFormed.params [] empty).nonempty rfl
  params_separate :=
    separateFrom_of_levelAfter fun param member => (wellFormed.params param member).levelAfter
  params_matched := matched_join fun param member => (wellFormed.params param member).balanced.matched
  className_trimmed := trimmed_of_trim_eq wellFormed.className_trimmed
  returnType_trimmed := trimmed_of_trim_eq wellFormed.returnType_trimmed
  returnType_nonempty := wellFormed.returnType_nonempty
  name_clear := (trimmed_of_trim_eq wellFormed.name_trimmed).back
  name_nonempty := wellFormed.name_nonempty
  params_trimmed param member := trimmed_of_trim_eq (wellFormed.params param member).trimmed

/-- The key of a well-formed signature is read as the signature. -/
theorem wellFormed_key_reads (wellFormed : sig.WellFormed) : parse sig.key = .ok sig := by
  rw [wellFormed.normal.parse_key, if_neg wellFormed.className_nonempty]

/-- A function with two named results that takes a function and a map of channels. -/
def mergeFunction : Ssa.Function where
  name := "Merge"
  sig := {
    params := [("less", .func [("i", .named "int"), ("", .slice (.named "int"))]
        [("", .named "bool"), ("", .named "error")] true),
      ("sources", .map (.named "string") (.channel .both (.channel .receive (.named "int"))))]
    results := [("n", .named "int"), ("err", .named "error")] }
  package := some "app/merge"

theorem wellFormed_key_reads_tuple :
    let sig := mergeFunction.signature
    sig.returnType = "(n int, err error)" ∧
      sig.params = ["func(i int, ...int) (bool, error)", "map[string]chan (<-chan int)"] ∧
      sig.WellFormed ∧ parse sig.key = .ok sig := by
  intro sig
  have wellFormed : sig.WellFormed := by
    constructor <;> decide
  exact ⟨by decide, by decide, wellFormed, wellFormed_key_reads wellFormed⟩

end PermissionGuard.Signature
