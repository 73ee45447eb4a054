import PermissionGuard.Catalog.Basic

/-!
The entries of a catalog. In an increasing list, halving finds a text or the place where it belongs
(`placeIn_separates`), so a permission is put where the order wants it (`addPermission_permissions`)
and found again (`requires_iff`). Adding to a catalog keeps its entries in the order of their keys
and the permissions of every entry in increasing order (`Catalog.Ordered`), and changes the
permissions under one key alone (`permissionsOf_add`).
-/

namespace PermissionGuard

theorem Text.lt_of_ne_of_not_lt {t u : Text} (different : t ≠ u) (notLess : ¬ t < u) : u < t := by
  by_cases greater : u < t
  · exact greater
  · exact absurd (List.le_antisymm greater notLess) different

namespace Text

variable {texts : List Text} {t : Text} {low high : Nat}

/-- What is left between `low` and `high` shrinks, and texts are only put on the side where they
belong. -/
theorem searchBetween_separates (increasing : texts.Pairwise (· < ·)) (bounded : high ≤ texts.length)
    (less : ∀ u ∈ texts.take low, u < t) (notLess : ∀ u ∈ texts.drop high, ¬ u < t)
    (within : low ≤ high) :
    (∀ u ∈ texts.take (searchBetween texts t low high), u < t) ∧
      ∀ u ∈ texts.drop (searchBetween texts t low high), ¬ u < t := by
  fun_induction searchBetween texts t low high with
  | case1 low high unfinished middle below ih =>
      have inside : middle < texts.length := by omega
      refine ih bounded ?_ notLess (by omega)
      intro u member
      rw [List.take_succ_eq_append_getElem inside, List.mem_append, List.mem_singleton] at member
      have least : texts[middle] < t := by simpa [inside] using below
      cases member with
      | inl earlier =>
          obtain ⟨i, bound, found⟩ := List.mem_take_iff_getElem.mp earlier
          have before := List.pairwise_iff_getElem.mp increasing i middle (by omega) inside
            (by omega)
          exact List.lt_trans (found ▸ before) least
      | inr same => exact same ▸ least
  | case2 low high unfinished middle notBelow ih =>
      have inside : middle < texts.length := by omega
      refine ih (by omega) less ?_ (by omega)
      have greatest : ¬ texts[middle] < t := by simpa [inside] using notBelow
      intro u member smaller
      rw [List.drop_eq_getElem_cons inside, List.mem_cons] at member
      cases member with
      | inl same => exact greatest (same ▸ smaller)
      | inr later =>
          obtain ⟨i, bound, found⟩ := List.mem_drop_iff_getElem.mp later
          have after := List.pairwise_iff_getElem.mp increasing middle (middle + 1 + i) inside
            (by omega) (by omega)
          exact greatest (List.lt_trans (found ▸ after) smaller)
  | case3 low high finished =>
      have same : low = high := by omega
      exact ⟨less, same ▸ notLess⟩

/-- In an increasing list the lesser texts stand before the place of a text, and no others do. -/
theorem placeIn_separates (increasing : texts.Pairwise (· < ·)) (t : Text) :
    ∃ l r, texts = l ++ r ∧ l.length = placeIn texts t ∧ (∀ u ∈ l, u < t) ∧ ∀ u ∈ r, ¬ u < t := by
  have separates := @searchBetween_separates texts t 0 texts.length increasing (Nat.le_refl _)
    (by simp) (by simp) (Nat.zero_le _)
  refine ⟨texts.take (placeIn texts t), texts.drop (placeIn texts t), by simp, ?_, separates⟩
  have bounded : ∀ low high, low ≤ high → searchBetween texts t low high ≤ high := by
    intro low high within
    fun_induction searchBetween texts t low high <;> omega
  have inside := bounded 0 texts.length (Nat.zero_le _)
  rw [List.length_take, placeIn, Nat.min_eq_left inside]

end Text

namespace SensitiveMethod

variable {t u : Text} {texts : List Text} {keep : Text → Bool}

/-- Puts a text in its place of an increasing list, unless it is already there. -/
def insertText (t : Text) : List Text → List Text
  | [] => [t]
  | u :: rest =>
      if t = u then u :: rest else if t < u then t :: u :: rest else u :: insertText t rest

theorem mem_insertText : u ∈ insertText t texts ↔ u = t ∨ u ∈ texts := by
  induction texts with
  | nil => simp [insertText]
  | cons first rest ih =>
      unfold insertText
      split
      · rename_i same
        simp [same]
      · split
        · exact List.mem_cons
        · rw [List.mem_cons, ih, List.mem_cons, or_left_comm]

theorem insertText_of_forall_lt (below : ∀ u ∈ texts, t < u) : insertText t texts = t :: texts := by
  cases texts with
  | nil => rfl
  | cons first rest =>
      have less := below first List.mem_cons_self
      have different : t ≠ first := by
        rintro rfl
        exact List.lt_irrefl t less
      rw [insertText, if_neg different, if_pos less]

theorem insertText_increasing (increasing : texts.Pairwise (· < ·)) (t : Text) :
    (insertText t texts).Pairwise (· < ·) := by
  induction increasing with
  | nil => exact List.pairwise_singleton _ t
  | @cons first rest before increasing ih =>
      unfold insertText
      split
      · exact .cons before increasing
      · rename_i different
        split
        · rename_i less
          refine .cons ?_ (.cons before increasing)
          intro u member
          rcases List.mem_cons.mp member with rfl | later
          · exact less
          · exact List.lt_trans less (before u later)
        · rename_i notLess
          refine .cons ?_ ih
          intro u member
          rcases mem_insertText.mp member with rfl | later
          · exact Text.lt_of_ne_of_not_lt different notLess
          · exact before u later

/-- Dropping texts and putting one in its place can be done in either order. -/
theorem filter_insertText (increasing : texts.Pairwise (· < ·)) (kept : keep t = true) :
    (insertText t texts).filter keep = insertText t (texts.filter keep) := by
  induction increasing with
  | nil => simp [insertText, kept]
  | @cons first rest before increasing ih =>
      by_cases same : t = first
      · subst t
        simp [insertText, kept]
      · by_cases less : t < first
        · have below : ∀ u ∈ (first :: rest).filter keep, t < u := by
            intro u member
            rcases List.mem_cons.mp (List.mem_filter.mp member).1 with rfl | later
            · exact less
            · exact List.lt_trans less (before u later)
          rw [insertText_of_forall_lt below, insertText, if_neg same, if_pos less,
            List.filter_cons_of_pos kept]
        · rw [insertText, if_neg same, if_neg less, List.filter_cons, List.filter_cons, ih]
          split
          · rw [insertText, if_neg same, if_neg less]
          · rfl

theorem filter_insertText_of_dropped (dropped : keep t = false) :
    (insertText t texts).filter keep = texts.filter keep := by
  induction texts with
  | nil => simp [insertText, dropped]
  | cons first rest ih =>
      unfold insertText
      split
      · rfl
      · split
        · simp [dropped]
        · rw [List.filter_cons, List.filter_cons, ih]

theorem insertText_append {l : List Text} (less : ∀ u ∈ l, u < t) (r : List Text) :
    insertText t (l ++ r) = l ++ insertText t r := by
  induction l with
  | nil => rfl
  | cons first l ih =>
      have smaller := less first List.mem_cons_self
      have different : t ≠ first := fun same => List.lt_irrefl t (same ▸ smaller)
      have notLess : ¬ t < first := List.lt_asymm smaller
      rw [List.cons_append, insertText, if_neg different, if_neg notLess,
        ih fun u member => less u (List.mem_cons_of_mem first member)]
      rfl

@[simp] theorem addPermission_sig (m : SensitiveMethod) (permission : Text) :
    (m.addPermission permission).sig = m.sig := by
  simp only [addPermission]
  split <;> rfl

/-- The place found by halving is the one that the order wants. -/
theorem addPermission_permissions {m : SensitiveMethod}
    (increasing : m.permissions.Pairwise (· < ·)) (permission : Text) :
    (m.addPermission permission).permissions = insertText permission m.permissions := by
  obtain ⟨l, r, cut, place, less, notLess⟩ := Text.placeIn_separates increasing permission
  have inserted : (l ++ r).insertIdx l.length permission = l ++ permission :: r := by
    clear cut place less
    induction l with
    | nil => rfl
    | cons first l ih => simpa using ih
  simp only [addPermission, ← place]
  rw [cut, insertText_append less, inserted, List.getElem?_append_right (Nat.le_refl _),
    Nat.sub_self]
  cases r with
  | nil => simp [insertText]
  | cons first r =>
      by_cases same : permission = first
      · simp [insertText, same, cut]
      · have smaller := Text.lt_of_ne_of_not_lt (Ne.symm same) (notLess first List.mem_cons_self)
        simp [insertText, same, smaller, Ne.symm same]

/-- A permission of an entry is found by halving, and no other text is. -/
theorem requires_iff {m : SensitiveMethod} (increasing : m.permissions.Pairwise (· < ·))
    (permission : Text) : m.requires permission = true ↔ permission ∈ m.permissions := by
  obtain ⟨l, r, cut, place, less, notLess⟩ := Text.placeIn_separates increasing permission
  rw [cut] at increasing
  rw [requires, beq_iff_eq, ← place, cut, List.getElem?_append_right (Nat.le_refl _), Nat.sub_self,
    List.mem_append]
  have notBefore : permission ∉ l := fun member => List.lt_irrefl _ (less permission member)
  cases r with
  | nil => simp [notBefore]
  | cons first r =>
      have notAfter : permission ∉ r := by
        intro member
        have smaller := List.rel_of_pairwise_cons (List.pairwise_append.mp increasing).2.1 member
        exact notLess first List.mem_cons_self smaller
      simp [notBefore, notAfter, eq_comm]

end SensitiveMethod

namespace Catalog

open SensitiveMethod

variable {c : Catalog} {sig : Signature} {entry m : SensitiveMethod} {permission key : Text}
variable {methods : List SensitiveMethod}

/-- What is kept true of a catalog: the entries are in the order of their keys, and every entry has
a permission, each once and in increasing order. -/
structure Ordered (c : Catalog) : Prop where
  keys : c.methods.Pairwise fun m m' => m.sig.key < m'.sig.key
  needs : ∀ m ∈ c.methods, m.permissions ≠ []
  increasing : ∀ m ∈ c.methods, m.permissions.Pairwise (· < ·)

/-- The permissions under a signature key, none if there is no entry. -/
def permissionsOf (c : Catalog) (key : Text) : List Text :=
  ((c.methods.find? (·.sig.key == key)).map SensitiveMethod.permissions).getD []

theorem empty_ordered : empty.Ordered where
  keys := .nil
  needs := by simp [empty]
  increasing := by simp [empty]

@[simp] theorem permissionsOf_nil (key : Text) : permissionsOf ⟨[]⟩ key = [] := rfl

theorem permissionsOf_cons (m : SensitiveMethod) (methods : List SensitiveMethod) (key : Text) :
    permissionsOf ⟨m :: methods⟩ key =
      if m.sig.key = key then m.permissions else permissionsOf ⟨methods⟩ key := by
  by_cases same : m.sig.key = key
  · simp [permissionsOf, same]
  · simp [permissionsOf, same]

theorem permissionsOf_eq_nil (above : ∀ m ∈ methods, key < m.sig.key) :
    permissionsOf ⟨methods⟩ key = [] := by
  induction methods with
  | nil => rfl
  | cons first rest ih =>
      have different : first.sig.key ≠ key := by
        intro same
        exact List.lt_irrefl key (same ▸ above first List.mem_cons_self)
      rw [permissionsOf_cons, if_neg different]
      exact ih fun m member => above m (List.mem_cons_of_mem first member)

/-- An entry after an addition is an old one, the new one or the changed one. -/
theorem mem_insert (member : m ∈ insert sig permission methods) :
    m ∈ methods ∨ m = ⟨sig, [permission]⟩ ∨
      ∃ old ∈ methods, old.sig.key = sig.key ∧ m = old.addPermission permission := by
  induction methods with
  | nil => exact Or.inr (Or.inl (List.mem_singleton.mp member))
  | cons first rest ih =>
      unfold insert at member
      split at member
      · rename_i same
        rcases List.mem_cons.mp member with rfl | later
        · exact Or.inr (Or.inr ⟨first, List.mem_cons_self, same.symm, rfl⟩)
        · exact Or.inl (List.mem_cons_of_mem first later)
      · split at member
        · rcases List.mem_cons.mp member with rfl | old
          · exact Or.inr (Or.inl rfl)
          · exact Or.inl old
        · rcases List.mem_cons.mp member with rfl | later
          · exact Or.inl List.mem_cons_self
          · refine (ih later).imp (List.mem_cons_of_mem first) (Or.imp_right ?_)
            rintro ⟨old, inRest, changed⟩
            exact ⟨old, List.mem_cons_of_mem first inRest, changed⟩

theorem key_of_mem_insert (member : m ∈ insert sig permission methods) :
    m ∈ methods ∨ m.sig.key = sig.key := by
  rcases mem_insert member with old | rfl | ⟨old, _, same, rfl⟩
  · exact Or.inl old
  · exact Or.inr rfl
  · exact Or.inr (by simpa using same)

theorem insert_keys (ordered : methods.Pairwise fun m m' => m.sig.key < m'.sig.key) :
    (insert sig permission methods).Pairwise fun m m' => m.sig.key < m'.sig.key := by
  induction ordered with
  | nil => exact List.pairwise_singleton _ _
  | @cons first rest before ordered ih =>
      unfold insert
      split
      · exact .cons (by simpa using before) ordered
      · rename_i different
        split
        · rename_i less
          refine .cons ?_ (.cons before ordered)
          intro m member
          rcases List.mem_cons.mp member with rfl | later
          · exact less
          · exact List.lt_trans less (before m later)
        · rename_i notLess
          refine .cons ?_ ih
          intro m member
          rcases key_of_mem_insert member with old | same
          · exact before m old
          · rw [same]
            exact Text.lt_of_ne_of_not_lt different notLess

theorem Ordered.add (ordered : c.Ordered) (sig : Signature) (permission : Text) :
    (c.add sig permission).Ordered where
  keys := insert_keys ordered.keys
  needs := by
    intro m member
    rcases mem_insert member with old | rfl | ⟨old, known, _, rfl⟩
    · exact ordered.needs m old
    · simp
    · rw [addPermission_permissions (ordered.increasing old known)]
      exact List.ne_nil_of_mem (mem_insertText.mpr (Or.inl rfl))
  increasing := by
    intro m member
    rcases mem_insert member with old | rfl | ⟨old, known, _, rfl⟩
    · exact ordered.increasing m old
    · exact List.pairwise_singleton _ _
    · have increasing := ordered.increasing old known
      rw [addPermission_permissions increasing]
      exact insertText_increasing increasing permission

theorem permissionsOf_insert (ordered : methods.Pairwise fun m m' => m.sig.key < m'.sig.key)
    (increasing : ∀ m ∈ methods, m.permissions.Pairwise (· < ·)) :
    permissionsOf ⟨insert sig permission methods⟩ key =
      if sig.key = key then insertText permission (permissionsOf ⟨methods⟩ key)
      else permissionsOf ⟨methods⟩ key := by
  induction ordered with
  | nil => simp [insert, permissionsOf_cons, insertText]
  | @cons first rest before ordered ih =>
      unfold insert
      split
      · rename_i same
        have inserted := addPermission_permissions (increasing first List.mem_cons_self) permission
        rw [permissionsOf_cons, permissionsOf_cons, addPermission_sig, inserted, same]
        split <;> rfl
      · rename_i different
        split
        · rename_i less
          have absent (isKey : sig.key = key) : permissionsOf ⟨first :: rest⟩ key = [] := by
            subst key
            refine permissionsOf_eq_nil fun m member => ?_
            rcases List.mem_cons.mp member with rfl | later
            · exact less
            · exact List.lt_trans less (before m later)
          rw [permissionsOf_cons]
          split
          · rename_i isKey
            rw [absent isKey]
            rfl
          · rfl
        · have rest := ih fun m member => increasing m (List.mem_cons_of_mem first member)
          rw [permissionsOf_cons, permissionsOf_cons, rest]
          split
          · rename_i isKey
            rw [if_neg fun same => different (same.trans isKey.symm)]
          · rfl

/-- An addition changes the permissions under the key of its signature alone. -/
theorem Ordered.permissionsOf_add (ordered : c.Ordered) (sig : Signature)
    (permission key : Text) : (c.add sig permission).permissionsOf key =
      if sig.key = key then insertText permission (c.permissionsOf key)
      else c.permissionsOf key :=
  permissionsOf_insert ordered.keys ordered.increasing

theorem Ordered.permissionsOf_increasing (ordered : c.Ordered) (key : Text) :
    (c.permissionsOf key).Pairwise (· < ·) := by
  unfold permissionsOf
  cases found : c.methods.find? (·.sig.key == key) with
  | none => exact .nil
  | some entry => exact ordered.increasing entry (List.mem_of_find?_eq_some found)

theorem lookup?_key (found : c.lookup? sig = some entry) : entry.sig.key = sig.key := by
  rw [lookup?] at found
  have matched := List.find?_some found
  exact beq_iff_eq.mp matched

theorem permissionsOf_of_lookup? (found : c.lookup? sig = some entry) :
    c.permissionsOf sig.key = entry.permissions := by
  rw [lookup?] at found
  rw [permissionsOf, found]
  rfl

theorem permissionsOf_of_lookup?_none (absent : c.lookup? sig = none) :
    c.permissionsOf sig.key = [] := by
  rw [lookup?] at absent
  rw [permissionsOf, absent]
  rfl

/-- A key has an entry exactly when it has permissions. -/
theorem Ordered.lookup?_isSome (ordered : c.Ordered) :
    (c.lookup? sig).isSome ↔ c.permissionsOf sig.key ≠ [] := by
  cases found : c.lookup? sig with
  | none => simp [permissionsOf_of_lookup?_none found]
  | some entry =>
      rw [permissionsOf_of_lookup? found]
      simpa using ordered.needs entry (List.mem_of_find?_eq_some found)

/-- Signatures with one key have one entry. -/
theorem lookup?_congr {sig' : Signature} (same : sig.key = sig'.key) :
    c.lookup? sig = c.lookup? sig' := by
  rw [lookup?, lookup?, same]

end Catalog

end PermissionGuard
