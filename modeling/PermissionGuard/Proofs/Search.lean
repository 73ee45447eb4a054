import PermissionGuard.Search

/-!
Facts about sets that remember the order of their elements, and about searches that keep one.
`Visited.missing` counts the candidates that were not visited yet; it bounds every search that
visits a new candidate at each step.
-/

namespace PermissionGuard

variable {α : Type} [BEq α] [LawfulBEq α] [Hashable α] {visited larger : Visited α} {a b : α}

namespace Visited

theorem mem_iff_newestFirst : a ∈ visited ↔ a ∈ visited.newestFirst := Iff.rfl

@[simp] theorem not_mem_empty (a : α) : a ∉ (Visited.empty : Visited α) := by
  simp [mem_iff_newestFirst, Visited.empty]

@[simp] theorem mem_insert : b ∈ visited.insert a ↔ b = a ∨ b ∈ visited := by
  unfold Visited.insert
  by_cases present : visited.contains a = true
  · rw [if_pos present]
    have member := (visited.contains_iff a).mp present
    constructor
    · exact Or.inr
    · rintro (rfl | before)
      · exact member
      · exact before
  · rw [if_neg present]
    exact List.mem_cons

theorem insert_of_mem (present : a ∈ visited) : visited.insert a = visited :=
  if_pos ((visited.contains_iff a).mpr present)

theorem mem_toList : a ∈ visited.toList ↔ a ∈ visited := List.mem_reverse

theorem newestFirst_insert (new : a ∉ visited) :
    (visited.insert a).newestFirst = a :: visited.newestFirst := by
  have unmarked : ¬ visited.contains a = true := fun marked =>
    new ((visited.contains_iff a).mp marked)
  simp [Visited.insert, unmarked]

theorem toList_insert (new : a ∉ visited) : (visited.insert a).toList = visited.toList ++ [a] := by
  simp [toList, newestFirst_insert new]

/-- The second set is the first one with so many new elements after the old ones. -/
def Gains (visited : Visited α) (count : Nat) (larger : Visited α) : Prop :=
  ∃ added, larger.toList = visited.toList ++ added ∧ added.Nodup ∧ (∀ a ∈ added, a ∉ visited) ∧
    added.length = count

namespace Gains

theorem refl (visited : Visited α) : visited.Gains 0 visited := ⟨[], by simp⟩

theorem insert (new : a ∉ visited) : visited.Gains 1 (visited.insert a) :=
  ⟨[a], toList_insert new, by simp [new]⟩

theorem trans {largest : Visited α} {first second : Nat} (left : visited.Gains first larger)
    (right : larger.Gains second largest) : visited.Gains (first + second) largest := by
  obtain ⟨early, grown, distinct, new, count⟩ := left
  obtain ⟨late, grown', distinct', new', count'⟩ := right
  have apart (a : α) (member : a ∈ late) : a ∉ visited ∧ a ∉ early := by
    have absent : a ∉ larger.toList := fun present => new' a member (mem_toList.mp present)
    simpa [grown, mem_toList] using absent
  have disjoint : ∀ a ∈ early, ∀ b ∈ late, a ≠ b :=
    fun a member b later same => (apart b later).2 (same ▸ member)
  refine ⟨early ++ late, by rw [grown', grown, List.append_assoc],
    List.nodup_append.mpr ⟨distinct, distinct', disjoint⟩, fun a member => ?_,
    by simp [count, count']⟩
  cases List.mem_append.mp member with
  | inl member => exact new a member
  | inr member => exact (apart a member).1

end Gains

/-- How many of the candidates were not visited yet. -/
def missing (visited : Visited α) (candidates : List α) : Nat :=
  (candidates.filter fun a => decide (a ∉ visited)).length

theorem missing_le_length (visited : Visited α) (candidates : List α) :
    visited.missing candidates ≤ candidates.length :=
  List.length_filter_le _ _

theorem missing_anti (grows : ∀ a, a ∈ visited → a ∈ larger) (candidates : List α) :
    larger.missing candidates ≤ visited.missing candidates := by
  unfold missing
  rw [← List.countP_eq_length_filter, ← List.countP_eq_length_filter]
  apply List.countP_mono_left
  intro a _ absent
  simp only [decide_eq_true_eq] at absent ⊢
  exact fun present => absent (grows a present)

theorem missing_insert_lt {candidates : List α} (candidate : a ∈ candidates)
    (new : a ∉ visited) :
    (visited.insert a).missing candidates < visited.missing candidates := by
  induction candidates with
  | nil => cases candidate
  | cons first rest ih =>
      have shrinks : (visited.insert a).missing rest ≤ visited.missing rest :=
        missing_anti (fun b present => mem_insert.mpr (Or.inr present)) rest
      by_cases same : first = a
      · subst first
        simp only [missing, List.filter_cons, mem_insert, true_or, not_true_eq_false, decide_false,
          Bool.false_eq_true, if_false, new, not_false_eq_true, decide_true, if_true,
          List.length_cons] at shrinks ⊢
        omega
      · have later := ih ((List.mem_cons.mp candidate).resolve_left (Ne.symm same))
        by_cases present : first ∈ visited <;>
          simpa [missing, List.filter_cons, same, present] using later

end Visited

variable {next : α → List α} {budget : Nat} {pending : List α}

theorem explore_again (before : a ∈ visited) :
    explore next (budget + 1) (a :: pending) visited = explore next budget pending visited :=
  if_pos ((visited.contains_iff a).mpr before)

theorem explore_visit (new : a ∉ visited) :
    explore next (budget + 1) (a :: pending) visited =
      explore next budget (pending ++ next a) (visited.insert a) :=
  if_neg fun present => new ((visited.contains_iff a).mp present)

theorem explore_grows (next : α → List α) (budget : Nat) (pending : List α)
    (present : b ∈ visited) : b ∈ explore next budget pending visited := by
  induction budget generalizing pending visited with
  | zero => exact present
  | succ budget ih =>
      cases pending with
      | nil => exact present
      | cons a pending =>
          by_cases before : a ∈ visited
          · rw [explore_again before]
            exact ih _ present
          · rw [explore_visit before]
            exact ih _ (Visited.mem_insert.mpr (Or.inr present))

/-- Pending elements are looked at in their order, so those within the budget are visited. -/
theorem mem_explore_of_pending (within : b ∈ pending.take budget) :
    b ∈ explore next budget pending visited := by
  induction budget generalizing pending visited with
  | zero => simp at within
  | succ budget ih =>
      cases pending with
      | nil => cases within
      | cons a pending =>
          rw [List.take_succ_cons, List.mem_cons] at within
          by_cases before : a ∈ visited
          · rw [explore_again before]
            rcases within with rfl | later
            · exact explore_grows _ _ _ before
            · exact ih later
          · rw [explore_visit before]
            rcases within with rfl | later
            · exact explore_grows _ _ _ (Visited.mem_insert.mpr (Or.inl rfl))
            · apply ih
              rw [List.take_append]
              exact List.mem_append.mpr (Or.inl later)

theorem mem_reach_of_root {edges : Nat} {roots : List α} (root : b ∈ roots) :
    b ∈ reach next edges roots := by
  apply mem_explore_of_pending
  rw [List.take_of_length_le (Nat.le_add_right _ _)]
  exact root

/-- The search on the list alone. The kernel can run it, which it cannot with a hash set. -/
def exploreList (next : α → List α) : Nat → List α → List α → List α
  | 0, _, found => found
  | _ + 1, [], found => found
  | budget + 1, a :: pending, found =>
      if found.contains a then exploreList next budget pending found
      else exploreList next budget (pending ++ next a) (a :: found)

theorem explore_newestFirst : (explore next budget pending visited).newestFirst =
    exploreList next budget pending visited.newestFirst := by
  induction budget generalizing pending visited with
  | zero => rfl
  | succ budget ih =>
      cases pending with
      | nil => rfl
      | cons a pending =>
          by_cases before : a ∈ visited
          · have listed : visited.newestFirst.contains a = true := List.contains_iff_mem.mpr before
            rw [explore_again before, ih, exploreList, if_pos listed]
          · have new : ¬ visited.newestFirst.contains a = true := mt List.contains_iff_mem.mp before
            rw [explore_visit before, ih, exploreList, if_neg new,
              Visited.newestFirst_insert before]

theorem reach_toList (next : α → List α) (edges : Nat) (roots : List α) :
    (reach next edges roots).toList =
      (exploreList next (roots.length + edges) roots []).reverse := by
  rw [Visited.toList, reach, explore_newestFirst]
  rfl

end PermissionGuard
