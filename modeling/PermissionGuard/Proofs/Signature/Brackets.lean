import PermissionGuard.Signature.Parser
import PermissionGuard.Proofs.Text.Cuts

/-!
Brackets and commas in a parameter list. The parenthesis that opens a list is found when the
parentheses inside match each other (`matchingOpen?_of_matched`), and a list is split at the commas
outside of all brackets (`splitTopLevel_join`). Both look at brackets and commas only, so they do not
see the blanks that trimming takes away.
-/

namespace PermissionGuard.Signature

variable {t head inside rest part : Text} {parts : List Text} {b : UInt8}

/-- The bytes that the structure of a parameter list depends on. -/
def isMark (b : UInt8) : Bool := opens b || closes b || b == 0x2C

theorem isMark_of_blank (b : UInt8) (blank : Text.isBlankByte b = true) : isMark b = false := by
  by_contra mark
  simp only [isMark, opens, closes, Bool.not_eq_false, Bool.or_eq_true, beq_iff_eq] at mark
  obtain (((rfl | rfl) | rfl) | (rfl | rfl) | rfl) | rfl := mark <;> cases blank

theorem filter_isMark_trim (t : Text) : t.trim.filter isMark = t.filter isMark :=
  Text.filter_trim isMark_of_blank t

/-! ### The parenthesis that opens the list -/

/-- Whether the parentheses of a text that is read backwards match, when some are still open. -/
def matchedFrom : Nat → Text → Bool
  | depth, [] => depth == 0
  | depth, b :: rest =>
      if b = 0x29 then matchedFrom (depth + 1) rest
      else if b = 0x28 then depth != 0 && matchedFrom (depth - 1) rest
      else matchedFrom depth rest

/-- Every parenthesis of the text has its partner in it. -/
def Matched (t : Text) : Prop := matchedFrom 0 t.reverse = true

theorem matchedFrom_filter (depth : Nat) (t : Text) :
    matchedFrom depth (t.filter isMark) = matchedFrom depth t := by
  induction t generalizing depth with
  | nil => rfl
  | cons b rest ih =>
      cases mark : isMark b with
      | true => simp only [List.filter_cons, mark, if_true, matchedFrom, ih]
      | false =>
          have closing : b ≠ 0x29 := by
            intro same
            subst b
            cases mark
          have opening : b ≠ 0x28 := by
            intro same
            subst b
            cases mark
          simp [matchedFrom, mark, closing, opening, ih]

theorem matched_of_filter {u : Text} (matched : Matched t)
    (same : u.filter isMark = t.filter isMark) : Matched u := by
  rw [Matched, ← matchedFrom_filter, List.filter_reverse] at matched ⊢
  rwa [same]

theorem openingFrom_of_matched {depth passed : Nat} (matched : matchedFrom depth t = true)
    (rest : Text) :
    openingFrom (depth + 1) passed (t ++ 0x28 :: rest) = some (passed + t.length) := by
  induction t generalizing depth passed with
  | nil =>
      have none : depth = 0 := by simpa [matchedFrom] using matched
      simp [openingFrom, none]
  | cons b t ih =>
      have count : passed + (b :: t).length = passed + 1 + t.length := by
        simp
        omega
      rw [count, List.cons_append]
      simp only [matchedFrom] at matched
      simp only [openingFrom]
      split at matched
      · rename_i closing
        rw [if_pos closing]
        exact ih matched
      · rename_i notClosing
        rw [if_neg notClosing]
        split at matched
        · rename_i opening
          obtain ⟨inner, below⟩ := (Bool.and_eq_true _ _).mp matched
          have positive : depth ≠ 0 := by simpa using inner
          have notLast : ¬ (depth : Int) + 1 = 1 := by omega
          have level : (depth : Int) + 1 - 1 = ((depth - 1 : Nat) : Int) + 1 := by omega
          rw [if_pos opening, if_neg notLast, level]
          exact ih below
        · rename_i notOpening
          rw [if_neg notOpening]
          exact ih matched

theorem openingFrom_eq_some {depth passed n : Nat}
    (found : openingFrom (depth + 1) passed t = some n) :
    ∃ l r, t = l ++ 0x28 :: r ∧ matchedFrom depth l = true ∧ n = passed + l.length := by
  induction t generalizing depth passed with
  | nil => cases found
  | cons b t ih =>
      -- What is found in the rest is found one byte later in the whole.
      have goOn {level : Nat} (later : openingFrom (level + 1) (passed + 1) t = some n)
          (step : ∀ l, matchedFrom depth (b :: l) = matchedFrom level l) :
          ∃ l r, b :: t = l ++ 0x28 :: r ∧ matchedFrom depth l = true ∧ n = passed + l.length := by
        obtain ⟨l, r, cut, matched, place⟩ := ih later
        refine ⟨b :: l, r, by simp [cut], by rw [step, matched], ?_⟩
        simp [place]
        omega
      simp only [openingFrom] at found
      split at found
      · rename_i closing
        exact goOn found fun l => by simp [matchedFrom, closing]
      · rename_i notClosing
        split at found
        · rename_i opening
          split at found
          · rename_i last
            cases found
            have none : depth = 0 := by omega
            exact ⟨[], t, by simp [opening], by simp [matchedFrom, none], by simp⟩
          · rename_i notLast
            have level : (depth : Int) + 1 - 1 = ((depth - 1 : Nat) : Int) + 1 := by omega
            have positive : depth ≠ 0 := by omega
            rw [level] at found
            exact goOn found fun l => by simp [matchedFrom, opening, positive]
        · rename_i notOpening
          exact goOn found fun l => by simp [matchedFrom, notClosing, notOpening]

theorem matchingOpen?_of_matched (matched : Matched inside) (head : Text) :
    matchingOpen? (head ++ 0x28 :: (inside ++ [0x29])) = some head.length := by
  have found : openingFrom 1 1 (inside.reverse ++ 0x28 :: head.reverse) =
      some (1 + inside.reverse.length) := openingFrom_of_matched matched head.reverse
  have reversed : (head ++ 0x28 :: (inside ++ [0x29])).reverse =
      0x29 :: (inside.reverse ++ 0x28 :: head.reverse) := by simp
  rw [matchingOpen?, reversed, openingFrom, if_pos rfl]
  simp [found]
  omega

/-- What the last byte closes is opened at the parenthesis that is found. -/
theorem matchingOpen?_eq_some {opening : Nat} (ends : [0x29] <:+ t)
    (found : matchingOpen? t = some opening) :
    let inside := (t.drop (opening + 1)).take (t.length - opening - 2)
    t = t.take opening ++ 0x28 :: (inside ++ [0x29]) ∧ Matched inside := by
  obtain ⟨front, closed⟩ := ends
  obtain ⟨passed, scanned, place⟩ := Option.map_eq_some_iff.mp found
  have within : openingFrom ((0 : Nat) + 1) 1 front.reverse = some passed := by
    rw [← closed, List.reverse_append, List.reverse_singleton, List.singleton_append, openingFrom,
      if_pos rfl] at scanned
    exact scanned
  obtain ⟨l, r, cut, matched, count⟩ := openingFrom_eq_some within
  have text : t = r.reverse ++ 0x28 :: (l.reverse ++ [0x29]) := by
    have reversed : front = r.reverse ++ 0x28 :: l.reverse := by
      simpa using congrArg List.reverse cut
    simp [← closed, reversed]
  have position : r.reverse.length = opening := by
    simp [text] at place ⊢
    omega
  have head : t.take opening = r.reverse := by simp [text, ← position]
  have inside : (t.drop (opening + 1)).take (t.length - opening - 2) = l.reverse := by
    have size : t.length - opening - 2 = l.reverse.length := by
      simp [text, ← position]
    rw [size, text, ← position, Text.drop_past, List.take_left]
  rw [head, inside]
  exact ⟨text, by simpa [Matched] using matched⟩

/-! ### The commas that separate the parts -/

/-- The level of nesting after a text, if no comma stands at level zero. -/
def levelAfter : Int → Text → Option Int
  | depth, [] => some depth
  | depth, b :: rest =>
      if opens b then levelAfter (depth + 1) rest
      else if closes b then levelAfter (depth - 1) rest
      else if b = 0x2C ∧ depth = 0 then none
      else levelAfter depth rest

theorem levelAfter_filter (depth : Int) (t : Text) :
    levelAfter depth (t.filter isMark) = levelAfter depth t := by
  induction t generalizing depth with
  | nil => rfl
  | cons b rest ih =>
      cases mark : isMark b with
      | true => simp only [List.filter_cons, mark, if_true, levelAfter, ih]
      | false =>
          have others : (opens b = false ∧ closes b = false) ∧ b ≠ 0x2C := by
            simpa [isMark] using mark
          simp [levelAfter, mark, others, ih]

/-- Parts that commas at level zero separate: each ends at level zero, the last one apart. -/
def SeparateFrom : Int → List Text → Prop
  | _, [] => False
  | depth, [last] => (levelAfter depth last).isSome = true
  | depth, part :: next :: more => levelAfter depth part = some 0 ∧ SeparateFrom 0 (next :: more)

theorem SeparateFrom.map_trim {depth : Int} (separate : SeparateFrom depth parts) :
    SeparateFrom depth (parts.map Text.trim) := by
  have levels (depth : Int) (part : Text) : levelAfter depth part.trim = levelAfter depth part := by
    rw [← levelAfter_filter, filter_isMark_trim, levelAfter_filter]
  fun_induction SeparateFrom depth parts with
  | case1 => exact separate
  | case2 depth last => simpa [SeparateFrom, levels] using separate
  | case3 depth part next more ih =>
      obtain ⟨ended, others⟩ := separate
      exact ⟨by rw [levels, ended], ih others⟩

theorem splitFrom_append {depth level : Int} (stays : levelAfter depth t = some level)
    (part : Text) (parts : List Text) (rest : Text) :
    splitFrom depth part parts (t ++ rest) = splitFrom level (t.reverse ++ part) parts rest := by
  induction t generalizing depth part with
  | nil =>
      cases stays
      rfl
  | cons b t ih =>
      simp only [levelAfter] at stays
      simp only [List.cons_append, splitFrom, List.reverse_cons, List.append_assoc,
        List.nil_append]
      split at stays
      · rename_i opening
        rw [if_pos opening]
        exact ih stays (b :: part)
      · rename_i notOpening
        rw [if_neg notOpening]
        split at stays
        · rename_i closing
          rw [if_pos closing]
          exact ih stays (b :: part)
        · rename_i notClosing
          rw [if_neg notClosing]
          split at stays
          · cases stays
          · rename_i notComma
            rw [if_neg notComma]
            exact ih stays (b :: part)

theorem splitFrom_comma (part : Text) (parts : List Text) (rest : Text) :
    splitFrom 0 part parts (0x2C :: rest) = splitFrom 0 [] (part.reverse :: parts) rest := by
  simp [splitFrom, opens, closes]

theorem join_cons (part next : Text) (more : List Text) :
    Text.join [0x2C] (part :: next :: more) = part ++ 0x2C :: Text.join [0x2C] (next :: more) := by
  simp [Text.join]

theorem splitFrom_join {depth : Int} (separate : SeparateFrom depth parts) (before : List Text) :
    splitFrom depth [] before (Text.join [0x2C] parts) = before.reverse ++ parts := by
  fun_induction SeparateFrom depth parts generalizing before with
  | case1 => cases separate
  | case2 depth last =>
      obtain ⟨level, ended⟩ := Option.isSome_iff_exists.mp separate
      have stays := splitFrom_append ended [] before []
      simpa [Text.join, splitFrom] using stays
  | case3 depth part next more ih =>
      obtain ⟨ended, others⟩ := separate
      rw [join_cons, splitFrom_append ended, splitFrom_comma, ih others]
      simp

/-- Parts that are joined with commas are found again. -/
theorem splitTopLevel_join (separate : SeparateFrom 0 parts) :
    splitTopLevel (Text.join [0x2C] parts) = parts := by
  simpa [splitTopLevel] using splitFrom_join separate []

/-- The rest of a text is a last bit of the part that was begun, and further parts. -/
theorem splitFrom_separates (depth : Int) (part : Text) (parts : List Text) (t : Text) :
    ∃ first more, splitFrom depth part parts t = parts.reverse ++ (part.reverse ++ first) :: more ∧
      Text.join [0x2C] (first :: more) = t ∧ SeparateFrom depth (first :: more) := by
  -- A byte that separates nothing goes in front of the first part.
  have goOn {depth level : Int} {b : UInt8} {rest first : Text} {more : List Text}
      (step : ∀ u, levelAfter depth (b :: u) = levelAfter level u)
      (joined : Text.join [0x2C] (first :: more) = rest)
      (separate : SeparateFrom level (first :: more)) :
      Text.join [0x2C] ((b :: first) :: more) = b :: rest ∧
        SeparateFrom depth ((b :: first) :: more) := by
    refine ⟨by simpa [Text.join] using joined, ?_⟩
    cases more with
    | nil => simpa [SeparateFrom, step] using separate
    | cons next more => exact ⟨by rw [step]; exact separate.1, separate.2⟩
  fun_induction splitFrom depth part parts t with
  | case1 depth part parts => exact ⟨[], [], by simp, rfl, rfl⟩
  | case2 depth part parts b rest opening ih =>
      obtain ⟨first, more, split, joined, separate⟩ := ih
      exact ⟨b :: first, more, by simpa using split,
        goOn (fun u => by simp [levelAfter, opening]) joined separate⟩
  | case3 depth part parts b rest notOpening closing ih =>
      obtain ⟨first, more, split, joined, separate⟩ := ih
      exact ⟨b :: first, more, by simpa using split,
        goOn (fun u => by simp [levelAfter, notOpening, closing]) joined separate⟩
  | case4 depth part parts b rest notOpening notClosing comma ih =>
      obtain ⟨first, more, split, joined, separate⟩ := ih
      obtain ⟨isComma, outside⟩ := comma
      subst b depth
      exact ⟨[], first :: more, by simpa using split, by simp [join_cons, joined], rfl, separate⟩
  | case5 depth part parts b rest notOpening notClosing notComma ih =>
      obtain ⟨first, more, split, joined, separate⟩ := ih
      exact ⟨b :: first, more, by simpa using split,
        goOn (fun u => by simp [levelAfter, notOpening, notClosing, notComma]) joined separate⟩

theorem splitTopLevel_separates (t : Text) :
    Text.join [0x2C] (splitTopLevel t) = t ∧ SeparateFrom 0 (splitTopLevel t) := by
  obtain ⟨first, more, split, joined, separate⟩ := splitFrom_separates 0 [] [] t
  have same : splitTopLevel t = first :: more := by simpa [splitTopLevel] using split
  rw [same]
  exact ⟨joined, separate⟩

theorem filter_join_trim (parts : List Text) :
    (Text.join [0x2C] (parts.map Text.trim)).filter isMark =
      (Text.join [0x2C] parts).filter isMark := by
  cases parts with
  | nil => rfl
  | cons part parts =>
      simp [Text.join, List.filter_flatMap, List.flatMap_map, filter_isMark_trim, List.filter_cons]

end PermissionGuard.Signature
