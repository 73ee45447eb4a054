import PermissionGuard.Proofs.Signature.Key
import PermissionGuard.Proofs.Text.Trimmed

/-!
Reading a key again. The parts of a signature that was read have no blanks at their ends and, the
class apart, are not empty (`Normal`). So reading its key cuts it where the key was put together,
and gives the signature again if there is a class to read (`key_reparses`).
-/

namespace PermissionGuard.Signature

open Text (Trimmed ClearBack)

variable {input head inside className : Text} {sig : Signature} {params : List Text}

/-- What makes a signature the one that is read from its key. -/
structure Normal (sig : Signature) : Prop extends sig.Canonical where
  className_trimmed : Trimmed sig.className
  returnType_trimmed : Trimmed sig.returnType
  returnType_nonempty : sig.returnType ≠ []
  name_clear : ClearBack sig.name
  name_nonempty : sig.name ≠ []
  params_trimmed : ∀ param ∈ sig.params, Trimmed param

theorem parseParams_trimmed (read : parseParams inside = .ok params) :
    ∀ param ∈ params, Trimmed param := by
  simp only [parseParams] at read
  split at read
  · cases read
    exact fun param member => absurd member List.not_mem_nil
  · split at read
    · cases read
    · cases read
      intro param member
      obtain ⟨part, _, rfl⟩ := List.mem_map.mp member
      exact Text.trimmed_trim part

theorem normal_of_parse (read : parse input = .ok sig) : sig.Normal := by
  obtain ⟨before, body, _, _, _, className, head, inside, returned, written⟩ := parse_eq_ok read
  have headed := Text.trimmed_trim head
  rw [written.headed] at headed
  constructor
  case toCanonical => exact canonical_of_parse read
  case className_trimmed => exact className ▸ Text.trimmed_trim before
  case returnType_trimmed => exact written.returnType ▸ Text.trimmed_trim returned
  case returnType_nonempty =>
    rw [written.returnType]
    exact Text.trim_ne_nil headed.front.of_append written.returned_nonempty
  case name_clear =>
    have name : ClearBack ([0x20] ++ sig.name) := headed.back.of_append
    exact name.of_append
  case name_nonempty => exact written.name_nonempty
  case params_trimmed => exact parseParams_trimmed written.params

/-! ### Reading the parts of a key -/

theorem parseHead_glue {returnType name : Text} (trimmed : Trimmed returnType)
    (returned : returnType ≠ []) (named : name ≠ []) (unbroken : 0x20 ∉ name) :
    parseHead (returnType ++ 0x20 :: name) = .ok (returnType, name) := by
  have apart : ¬ (returnType.length = 0 ∨
      returnType.length = (returnType ++ 0x20 :: name).length - 1) := by
    have before := List.length_pos_iff.mpr returned
    have after := List.length_pos_iff.mpr named
    have size : (returnType ++ 0x20 :: name).length = returnType.length + (name.length + 1) := by
      simp
    rw [size]
    omega
  simp only [parseHead, Text.lastIndexOf?_append unbroken, if_neg apart]
  rw [List.take_left, Text.drop_past, trimmed.trim_eq]

theorem trimmed_join (trimmed : ∀ param ∈ params, Trimmed param) (nonempty : [] ∉ params) :
    Trimmed (Text.join [0x2C] params) ∧ (params ≠ [] → Text.join [0x2C] params ≠ []) := by
  induction params with
  | nil => exact ⟨Text.trimmed_nil, fun some => absurd rfl some⟩
  | cons param params ih =>
      have first := trimmed param List.mem_cons_self
      have full : param ≠ [] := fun empty => nonempty (empty ▸ List.mem_cons_self)
      cases params with
      | nil =>
          have single : Text.join [0x2C] [param] = param := by simp [Text.join]
          rw [single]
          exact ⟨first, fun _ => full⟩
      | cons next more =>
          obtain ⟨rest, some⟩ := ih
            (fun param member => trimmed param (List.mem_cons_of_mem _ member))
            (fun empty => nonempty (List.mem_cons_of_mem _ empty))
          rw [join_cons]
          refine ⟨Text.trimmed_glue first.front full rest.back (some (by simp)) (by decide), ?_⟩
          exact fun _ => List.append_ne_nil_of_left_ne_nil full _

/-- The parameters of a signature are read from what is written between the parentheses. -/
theorem Normal.parseParams_join (normal : sig.Normal) :
    parseParams (Text.join [0x2C] sig.params) = .ok sig.params := by
  obtain ⟨trimmed, written⟩ := trimmed_join normal.params_trimmed normal.params_nonempty
  rw [parseParams, trimmed.trim_eq]
  by_cases none : sig.params = []
  · simp [none, Text.join]
  · have separated := splitTopLevel_join (normal.params_separate none)
    have kept : sig.params.map Text.trim = sig.params := by
      rw [List.map_congr_left fun param member => (normal.params_trimmed param member).trim_eq,
        List.map_id']
    have full : sig.params.any List.isEmpty = false := by
      rw [List.any_eq_false]
      exact fun param member empty =>
        normal.params_nonempty (List.isEmpty_iff.mp empty ▸ member)
    have some : (Text.join [0x2C] sig.params).isEmpty = false := by
      simpa using written none
    simp [some, separated, kept, full]

/-- What follows the class in a key. -/
def keyBody (sig : Signature) : Text :=
  (sig.returnType ++ 0x20 :: sig.name) ++ 0x28 :: (Text.join [0x2C] sig.params ++ [0x29])

theorem Normal.keyHead_trimmed (normal : sig.Normal) :
    Trimmed (sig.returnType ++ 0x20 :: sig.name) :=
  Text.trimmed_glue normal.returnType_trimmed.front normal.returnType_nonempty normal.name_clear
    normal.name_nonempty (by decide)

theorem Normal.keyBody_trimmed (normal : sig.Normal) : Trimmed sig.keyBody :=
  Text.trimmed_glue normal.keyHead_trimmed.front
    (List.append_ne_nil_of_right_ne_nil _ (List.cons_ne_nil _ _))
    (Text.clearBack_concat rfl (by decide) _) (by simp) (by decide)

theorem Normal.parseBody_keyBody (normal : sig.Normal) :
    parseBody sig.className sig.keyBody = .ok sig := by
  have ends : sig.keyBody.endsWith ")" = true := by
    rw [Text.endsWith, List.isSuffixOf_iff_suffix]
    exact ⟨(sig.returnType ++ 0x20 :: sig.name) ++ 0x28 :: Text.join [0x2C] sig.params,
      by simp [keyBody]; rfl⟩
  have opening : matchingOpen? sig.keyBody = some (sig.returnType ++ 0x20 :: sig.name).length :=
    matchingOpen?_of_matched normal.params_matched _
  have between : (sig.keyBody.drop ((sig.returnType ++ 0x20 :: sig.name).length + 1)).take
      (sig.keyBody.length - (sig.returnType ++ 0x20 :: sig.name).length - 2) =
        Text.join [0x2C] sig.params := by
    have size : sig.keyBody.length - (sig.returnType ++ 0x20 :: sig.name).length - 2 =
        (Text.join [0x2C] sig.params).length := by
      simp [keyBody]
      omega
    rw [size, keyBody, Text.drop_past, List.take_left]
  have headed : Text.trim (sig.keyBody.take (sig.returnType ++ 0x20 :: sig.name).length) =
      sig.returnType ++ 0x20 :: sig.name := by
    rw [keyBody, List.take_left, normal.keyHead_trimmed.trim_eq]
  have named := parseHead_glue normal.returnType_trimmed normal.returnType_nonempty
    normal.name_nonempty normal.name
  simp only [parseBody, ends, opening, between, headed, named, normal.parseParams_join]
  rfl

/-! ### Whole keys -/

/-- A key is read by what stands in front of its first colon with a space. -/
theorem parse_key (sig : Signature) (unbroken : ¬ [0x3A, 0x20] <:+: sig.className) :
    parse sig.key = if sig.className = [] then .error .noClass
      else parseBody sig.className.trim sig.keyBody.trim := by
  have written : sig.key = 0x3C :: (sig.className ++ 0x3A :: 0x20 :: sig.keyBody) ++ [0x3E] :=
    key_eq sig
  have trimmed : Trimmed sig.key := by
    rw [written]
    exact ⟨Text.clearFront_cons rfl (by decide) _, Text.clearBack_concat rfl (by decide) _⟩
  have starts : sig.key.startsWith "<" = true := by
    rw [Text.startsWith, List.isPrefixOf_iff_prefix, written]
    exact ⟨_, rfl⟩
  have ends : sig.key.endsWith ">" = true := by
    rw [Text.endsWith, List.isSuffixOf_iff_suffix, written]
    exact ⟨_, rfl⟩
  have inner : (sig.key.drop 1).take (sig.key.length - 2) =
      sig.className ++ 0x3A :: 0x20 :: sig.keyBody := by
    rw [written]
    exact Text.between_ends _ _ _
  have colon : Text.indexOf? (sig.className ++ 0x3A :: 0x20 :: sig.keyBody) ": " =
      some sig.className.length := Text.indexOf?_pair (by decide) unbroken _
  simp only [parse, trimmed.trim_eq, starts, ends, inner, colon]
  by_cases unnamed : sig.className = []
  · simp [unnamed]
  · obtain ⟨size, counted⟩ := Nat.exists_eq_add_one_of_ne_zero
      (List.length_pos_iff.mpr unnamed).ne'
    have front : (sig.className ++ 0x3A :: 0x20 :: sig.keyBody).take (size + 1) =
        sig.className := by
      rw [← counted, List.take_left]
    have back : (sig.className ++ 0x3A :: 0x20 :: sig.keyBody).drop (size + 1 + 2) =
        sig.keyBody := by
      rw [← counted, ← List.drop_drop, List.drop_left]
      rfl
    simp [unnamed, counted, front, back]

theorem Normal.parse_key (normal : sig.Normal) :
    parse sig.key = if sig.className = [] then .error .noClass else .ok sig := by
  rw [Signature.parse_key sig normal.className, normal.className_trimmed.trim_eq,
    normal.keyBody_trimmed.trim_eq, normal.parseBody_keyBody]

/-- The key of a signature that was read is read as the same signature exactly when the signature
has a class. Without one the key has no class either, and reading it fails for that. -/
theorem key_reparses (read : parse input = .ok sig) :
    (parse sig.key = .ok sig ↔ sig.className ≠ []) ∧
      (sig.className = [] → parse sig.key = .error .noClass) := by
  have again := (normal_of_parse read).parse_key
  by_cases unnamed : sig.className = []
  · rw [if_pos unnamed] at again
    simp [again, unnamed]
  · rw [if_neg unnamed] at again
    simp [again, unnamed]

/-- A class of nothing but blanks, a name that begins with a tab and a parameter with blanks and
brackets that match nothing. -/
theorem key_reparses_unnamed :
    let sig : Signature := ⟨[], "\tload", "a (int, error)", ["b c][", "func(d, e)"]⟩
    parse "<\t: a (int, error)  \tload( b c][ ,func(d, e))>" = .ok sig ∧
      parse sig.key = .error .noClass ∧ parse sig.key ≠ .ok sig := by
  intro sig
  have read : parse "<\t: a (int, error)  \tload( b c][ ,func(d, e))>" = .ok sig := by rfl
  obtain ⟨again, unnamed⟩ := key_reparses read
  exact ⟨read, unnamed rfl, fun same => again.mp same rfl⟩

end PermissionGuard.Signature
