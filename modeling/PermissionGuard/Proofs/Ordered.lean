import PermissionGuard.Text.Basic
import Mathlib.Data.List.Nodup

/-!
Ordered lists: what dropping repeated neighbours leaves of a sorted list, that a list in strict
order is determined by its elements, and that sorting leaves elements in place when others are
dropped.
-/

namespace PermissionGuard

variable {α : Type} {a : α} {list other : List α}

theorem mem_dropAdjacent [BEq α] [LawfulBEq α] : a ∈ dropAdjacent list ↔ a ∈ list := by
  fun_induction dropAdjacent list with
  | case1 => exact Iff.rfl
  | case2 => exact Iff.rfl
  | case3 first second rest same ih =>
      rw [ih, beq_iff_eq.mp same]
      simp
  | case4 first second rest _ ih =>
      rw [List.mem_cons, ih, List.mem_cons, List.mem_cons, List.mem_cons]

theorem dropAdjacent_sublist [BEq α] (list : List α) : (dropAdjacent list).Sublist list := by
  fun_induction dropAdjacent list with
  | case1 => exact .slnil
  | case2 first => exact .refl [first]
  | case3 first second rest _ ih => exact ih.cons first
  | case4 first second rest _ ih => exact ih.cons_cons first

/-- In a sorted list equal elements are neighbours, so each is kept once. -/
theorem dropAdjacent_pairwise [BEq α] [LawfulBEq α] {le : α → α → Prop}
    (antisymm : ∀ a b, le a b → le b a → a = b) (sorted : list.Pairwise le) :
    (dropAdjacent list).Pairwise fun a b => le a b ∧ a ≠ b := by
  fun_induction dropAdjacent list with
  | case1 => exact .nil
  | case2 first => exact List.pairwise_singleton _ first
  | case3 first second rest same ih => exact ih sorted.of_cons
  | case4 first second rest different ih =>
      refine .cons ?_ (ih sorted.of_cons)
      intro later member
      have inRest := mem_dropAdjacent.mp member
      have before := List.rel_of_pairwise_cons sorted inRest
      refine ⟨before, ?_⟩
      rintro rfl
      rcases List.mem_cons.mp inRest with rfl | farther
      · exact different BEq.rfl
      · have back := List.rel_of_pairwise_cons sorted.of_cons farther
        have forth := List.rel_of_pairwise_cons sorted List.mem_cons_self
        exact different (beq_iff_eq.mpr (antisymm _ _ forth back))

theorem dropAdjacent_increasing {ids : List Int} (sorted : ids.Pairwise (· ≤ ·)) :
    (dropAdjacent ids).Pairwise (· < ·) :=
  (dropAdjacent_pairwise (fun _ _ => Int.le_antisymm) sorted).imp fun both =>
    Int.lt_iff_le_and_ne.mpr both

theorem mergeSort_sorted (ids : List Int) :
    (ids.mergeSort fun a b => decide (a ≤ b)).Pairwise (· ≤ ·) := by
  have trans (a b c : Int) (first : decide (a ≤ b) = true) (second : decide (b ≤ c) = true) :
      decide (a ≤ c) = true :=
    decide_eq_true (Int.le_trans (of_decide_eq_true first) (of_decide_eq_true second))
  have total (a b : Int) : (decide (a ≤ b) || decide (b ≤ a)) = true := by
    simpa using Int.le_total a b
  exact (List.pairwise_mergeSort trans total ids).imp of_decide_eq_true

theorem sortedIds_increasing (ids : List Int) : (sortedIds ids).Pairwise (· < ·) :=
  dropAdjacent_increasing (mergeSort_sorted ids)

/-- Lists in the same strict order with the same elements are equal. -/
theorem eq_of_pairwise_of_mem {before : α → α → Prop} (asymm : ∀ a b, before a b → ¬ before b a)
    (left : list.Pairwise before) (right : other.Pairwise before)
    (same : ∀ a, a ∈ list ↔ a ∈ other) : list = other := by
  have distinct {elements : List α} (ordered : elements.Pairwise before) : elements.Nodup := by
    refine ordered.imp ?_
    rintro a _ less rfl
    exact asymm a a less less
  refine List.Perm.eq_of_pairwise ?_ left right
    ((List.perm_ext_iff_of_nodup (distinct left) (distinct right)).mpr same)
  intro a b _ _ less greater
  exact absurd greater (asymm a b less)

/-- Of lists in the same strict order, the one with fewer elements is a part of the other. -/
theorem sublist_of_pairwise_of_subset {before : α → α → Prop}
    (asymm : ∀ a b, before a b → ¬ before b a) (left : list.Pairwise before)
    (right : other.Pairwise before) (fewer : list ⊆ other) : list.Sublist other := by
  classical
  have kept : list = other.filter fun a => a ∈ list := by
    apply eq_of_pairwise_of_mem asymm left (right.filter _)
    intro a
    rw [List.mem_filter, decide_eq_true_eq]
    exact ⟨fun member => ⟨fewer member, member⟩, And.right⟩
  rw [kept]
  exact List.filter_sublist

/-- A list is cut in one way into elements with a property and elements without. -/
theorem append_unique {holds : α → Bool} {left left' right right' : List α}
    (inLeft : ∀ a ∈ left, holds a = true) (inRight : ∀ a ∈ right, holds a = false)
    (inLeft' : ∀ a ∈ left', holds a = true) (inRight' : ∀ a ∈ right', holds a = false)
    (same : left ++ right = left' ++ right') : left = left' ∧ right = right' := by
  have cut {l r : List α} (inL : ∀ a ∈ l, holds a = true) (inR : ∀ a ∈ r, holds a = false) :
      (l ++ r).filter holds = l := by
    rw [List.filter_append, List.filter_eq_self.mpr inL,
      List.filter_eq_nil_iff.mpr fun a member => by simp [inR a member], List.append_nil]
  have equal : left = left' := by rw [← cut inLeft inRight, same, cut inLeft' inRight']
  subst left'
  exact ⟨rfl, List.append_cancel_left same⟩

/-- Elements may be dropped, or replaced by elements that sort alike, before or after sorting. -/
theorem filterMap_mergeSort {le : α → α → Bool} {change : α → Option α}
    (trans : ∀ a b c, le a b = true → le b c = true → le a c = true)
    (total : ∀ a b, (le a b || le b a) = true)
    (alike : ∀ {a b a' b'}, change a = some a' → change b = some b' → le a b = le a' b')
    (list : List α) :
    (list.mergeSort le).filterMap change = (list.filterMap change).mergeSort le := by
  induction list with
  | nil => simp
  | cons a list ih =>
      obtain ⟨before, after, sorted, rest, less⟩ := List.mergeSort_cons trans total a list
      rw [rest, List.filterMap_append] at ih
      rw [sorted, List.filterMap_append]
      cases changed : change a with
      | none => rw [List.filterMap_cons_none changed, List.filterMap_cons_none changed, ih]
      | some a' =>
          rw [List.filterMap_cons_some changed, List.filterMap_cons_some changed]
          obtain ⟨before', after', sorted', rest', less'⟩ :=
            List.mergeSort_cons trans total a' (list.filterMap change)
          -- What stands before `a'` is what `a'` does not come before, on both sides.
          have greater {x : α} {l r : List α} {whole : List α}
              (isSorted : whole.mergeSort le = l ++ x :: r) : ∀ y ∈ r, le x y = true := by
            have pairs := List.pairwise_mergeSort trans total whole
            rw [isSorted] at pairs
            exact fun y member => List.rel_of_pairwise_cons (List.pairwise_append.mp pairs).2.1 member
          have changedLess : ∀ b ∈ before.filterMap change, (!le a' b) = true := by
            intro b member
            obtain ⟨old, inBefore, isChanged⟩ := List.mem_filterMap.mp member
            rw [← alike changed isChanged]
            exact less old inBefore
          have changedGreater : ∀ b ∈ after.filterMap change, (!le a' b) = false := by
            intro b member
            obtain ⟨old, inAfter, isChanged⟩ := List.mem_filterMap.mp member
            rw [← alike changed isChanged, greater sorted old inAfter]
            rfl
          have greater' : ∀ b ∈ after', (!le a' b) = false := by
            intro b member
            rw [greater sorted' b member]
            rfl
          obtain ⟨sameBefore, sameAfter⟩ := append_unique changedLess changedGreater less' greater'
            (ih.trans rest')
          rw [sorted', sameBefore, sameAfter]

end PermissionGuard
