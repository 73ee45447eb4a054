import PermissionGuard.Proofs.Search
import Mathlib.Data.List.Flatten
import Mathlib.Data.List.Perm.Subperm
import Mathlib.Logic.Relation

/-!
What a search along successors finds. A search looks at every root and at the successors of every
element that it visits, so it has an end after so many rounds (`Underway.length_rounds_le`). In
whatever order it takes successors, it then visited exactly what its roots lead to
(`Underway.mem_visits_iff`), the roots first (`roots_prefix`). A search with a budget for those
rounds is one of these (`run_reach`), and so finds the same (`mem_reach_iff`).
-/

namespace PermissionGuard

variable {α : Type} {next next' : α → List α} {roots : List α} {edges : Nat} {a b : α}

/-- One element leads to another along successors, in any number of steps. -/
def Reaches (next : α → List α) : α → α → Prop :=
  Relation.ReflTransGen fun a b => b ∈ next a

/-- Some root leads to the element. -/
def ReachedFrom (next : α → List α) (roots : List α) (a : α) : Prop :=
  ∃ root ∈ roots, Reaches next root a

theorem ReachedFrom.of_root (root : a ∈ roots) : ReachedFrom next roots a :=
  ⟨a, root, .refl⟩

theorem ReachedFrom.trans (reached : ReachedFrom next roots a) (leads : Reaches next a b) :
    ReachedFrom next roots b := by
  obtain ⟨root, member, path⟩ := reached
  exact ⟨root, member, Relation.ReflTransGen.trans path leads⟩

theorem ReachedFrom.tail (reached : ReachedFrom next roots a) (step : b ∈ next a) :
    ReachedFrom next roots b :=
  reached.trans (.single step)

/-- The order and the repetitions of successors do not matter for what is reached. -/
theorem reaches_congr (same : ∀ a b, b ∈ next a ↔ b ∈ next' a) :
    Reaches next a b ↔ Reaches next' a b :=
  ⟨Relation.ReflTransGen.mono (fun a b => (same a b).mp) a b,
    Relation.ReflTransGen.mono (fun a b => (same a b).mpr) a b⟩

/-- What is closed under successors holds whatever its elements lead to. -/
theorem Reaches.closed (inside : α → Prop) (closed : ∀ a, inside a → ∀ b ∈ next a, inside b)
    (start : inside a) (leads : Reaches next a b) : inside b := by
  induction leads with
  | refl => exact start
  | tail _ step ih => exact closed _ ih _ step

theorem totalLength_eq (lists : List (List α)) : totalLength lists = lists.flatten.length := by
  have sum : ∀ count, lists.foldl (fun count list => count + list.length) count =
      count + lists.flatten.length := by
    induction lists with
    | nil => simp
    | cons first rest ih =>
        intro count
        rw [List.foldl_cons, ih, List.flatten_cons, List.length_append]
        omega
  simpa [totalLength] using sum 0

/-- The elements of a kind have at most `edges` successors together. -/
def SuccessorsWithin (next : α → List α) (kind : α → Prop) (edges : Nat) : Prop :=
  ∀ found : List α, found.Nodup → (∀ a ∈ found, kind a) → (found.flatMap next).length ≤ edges

theorem SuccessorsWithin.of_length_le {kind : α → Prop} (bound : SuccessorsWithin next kind edges)
    (fewer : ∀ a, (next' a).length ≤ (next a).length) : SuccessorsWithin next' kind edges := by
  intro found distinct inside
  have shorter : (found.flatMap next').length ≤ (found.flatMap next).length := by
    clear distinct inside
    induction found with
    | nil => exact Nat.le_refl _
    | cons a found ih =>
        simp only [List.flatMap_cons, List.length_append]
        exact Nat.add_le_add (fewer a) ih
  exact Nat.le_trans shorter (bound found distinct inside)

theorem SuccessorsWithin.of_sublist {kind : α → Prop} (bound : SuccessorsWithin next kind edges)
    (fewer : ∀ a, (next' a).Sublist (next a)) : SuccessorsWithin next' kind edges :=
  bound.of_length_le fun a => (fewer a).length_le

/-- Elements without successors need no bound. -/
theorem SuccessorsWithin.of_nonempty (bound : SuccessorsWithin next (fun a => next a ≠ []) edges)
    (kind : α → Prop) : SuccessorsWithin next kind edges := by
  intro found distinct inside
  clear inside
  have kept : (found.filter fun a => !(next a).isEmpty).flatMap next = found.flatMap next := by
    clear distinct
    induction found with
    | nil => rfl
    | cons a found ih => cases empty : next a <;> simp [empty, ih]
  rw [← kept]
  exact bound _ (distinct.filter _) fun a member => by simpa using (List.mem_filter.mp member).2

/-- A list that holds all elements of a kind bounds their successors. -/
theorem successorsWithin_of_list {kind : α → Prop} (all : List α)
    (complete : ∀ a, kind a → a ∈ all) (enough : totalLength (all.map next) ≤ edges) :
    SuccessorsWithin next kind edges := by
  intro found distinct inside
  obtain ⟨part, same, within⟩ :=
    List.subperm_of_subset distinct fun a member => complete a (inside a member)
  have shorter : (found.flatMap next).length ≤ (all.flatMap next).length := by
    rw [← (same.flatMap_right next).length_eq]
    exact (within.flatMap next).length_le
  rw [totalLength_eq, ← List.flatMap_def] at enough
  exact Nat.le_trans shorter enough

section

variable [BEq α] [LawfulBEq α] [Hashable α] {visited : Visited α}

theorem explore_nodup {budget : Nat} {pending : List α} (distinct : visited.newestFirst.Nodup) :
    (explore next budget pending visited).newestFirst.Nodup := by
  induction budget generalizing pending visited with
  | zero => exact distinct
  | succ budget ih =>
      cases pending with
      | nil => exact distinct
      | cons a pending =>
          by_cases before : a ∈ visited
          · rw [explore_again before]
            exact ih distinct
          · rw [explore_visit before]
            apply ih
            rw [Visited.newestFirst_insert before]
            exact List.nodup_cons.mpr ⟨before, distinct⟩

theorem reach_nodup (next : α → List α) (edges : Nat) (roots : List α) :
    (reach next edges roots).newestFirst.Nodup :=
  explore_nodup List.nodup_nil

theorem explore_sound {budget : Nat} {pending : List α}
    (found : b ∈ explore next budget pending visited) :
    b ∈ visited ∨ ReachedFrom next pending b := by
  induction budget generalizing pending visited with
  | zero => exact Or.inl found
  | succ budget ih =>
      cases pending with
      | nil => exact Or.inl found
      | cons a pending =>
          by_cases before : a ∈ visited
          · rw [explore_again before] at found
            rcases ih found with earlier | ⟨root, member, path⟩
            · exact Or.inl earlier
            · exact Or.inr ⟨root, List.mem_cons_of_mem a member, path⟩
          · rw [explore_visit before] at found
            rcases ih found with earlier | ⟨root, member, path⟩
            · rcases Visited.mem_insert.mp earlier with rfl | earlier
              · exact Or.inr (.of_root List.mem_cons_self)
              · exact Or.inl earlier
            · rcases List.mem_append.mp member with waiting | successor
              · exact Or.inr ⟨root, List.mem_cons_of_mem a waiting, path⟩
              · exact Or.inr ⟨a, List.mem_cons_self, path.head successor⟩

end

/-! ### The rounds of a search -/

/-- How far a search is: the elements that wait, and those whose successors were asked for, in the
order of the questions. -/
structure Traversal (α : Type) where
  pending : List α
  visits : List α

namespace Traversal

variable {t u stop : Traversal α}

/-- One round takes the first element that waits. An element that was visited before is passed over.
Any other is visited, and its successors wait behind all that waits already, in any order. -/
inductive Round (next : α → List α) : Traversal α → Traversal α → Prop
  | again {a : α} {pending visits : List α} (before : a ∈ visits) :
      Round next ⟨a :: pending, visits⟩ ⟨pending, visits⟩
  | visit {a : α} {pending visits successors : List α} (new : a ∉ visits)
      (order : successors.Perm (next a)) :
      Round next ⟨a :: pending, visits⟩ ⟨pending ++ successors, visits ++ [a]⟩

theorem Round.reorder (same : ∀ a, (next' a).Perm (next a)) (round : Round next' t u) :
    Round next t u := by
  cases round with
  | again before => exact .again before
  | visit new order => exact .visit new (order.trans (same _))

/-- There is a further round as long as an element waits. -/
theorem pending_eq_nil (ended : ∀ u, ¬ Round next t u) : t.pending = [] := by
  obtain ⟨pending, visits⟩ := t
  cases pending with
  | nil => rfl
  | cons a pending =>
      by_cases before : a ∈ visits
      · exact absurd (.again before) (ended _)
      · exact absurd (.visit before (.refl _)) (ended _)

theorem Round.distinct (round : Round next t u) (distinct : t.visits.Nodup) : u.visits.Nodup := by
  cases round with
  | again => exact distinct
  | @visit a _ visits _ new =>
      have behind := List.perm_append_singleton a visits
      exact behind.nodup_iff.mpr (List.nodup_cons.mpr ⟨new, distinct⟩)

def met (t : Traversal α) : List α := t.visits ++ t.pending

theorem Round.met_subset (round : Round next t u) : t.met ⊆ u.met := by
  intro b
  cases round with
  | again before =>
      simp only [met, List.mem_append, List.mem_cons]
      intro member
      obtain visited | rfl | waiting := member
      · exact Or.inl visited
      · exact Or.inl before
      · exact Or.inr waiting
  | visit =>
      simp only [met, List.mem_append, List.mem_cons, List.not_mem_nil, or_false]
      intro member
      obtain visited | same | waiting := member
      · exact Or.inl (Or.inl visited)
      · exact Or.inl (Or.inr same)
      · exact Or.inr (Or.inl waiting)

/-- What a search keeps true from its roots on. -/
structure Underway (next : α → List α) (roots : List α) (t : Traversal α) : Prop where
  distinct : t.visits.Nodup
  reached : ∀ a ∈ t.met, ReachedFrom next roots a
  rooted : roots ⊆ t.met
  followed : ∀ a ∈ t.visits, next a ⊆ t.met

theorem underway_start (next : α → List α) (roots : List α) : Underway next roots ⟨roots, []⟩ where
  distinct := List.nodup_nil
  reached _ := .of_root
  rooted := List.Subset.refl roots
  followed _ member := absurd member List.not_mem_nil

theorem Underway.step (underway : Underway next roots t) (round : Round next t u) :
    Underway next roots u where
  distinct := round.distinct underway.distinct
  reached := by
    intro b member
    cases round with
    | again before =>
        apply underway.reached
        simp only [met, List.mem_append, List.mem_cons] at member ⊢
        exact member.imp_right Or.inr
    | @visit a pending visits successors new order =>
        have source : a ∈ met ⟨a :: pending, visits⟩ := by simp [met]
        by_cases successor : b ∈ successors
        · exact (underway.reached a source).tail (order.mem_iff.mp successor)
        · apply underway.reached
          simpa [met, successor, or_assoc] using member
  rooted := List.Subset.trans underway.rooted round.met_subset
  followed := by
    intro b member
    have grows := round.met_subset
    cases round with
    | again => exact List.Subset.trans (underway.followed b member) grows
    | visit new order =>
        rcases List.mem_append.mp member with earlier | last
        · exact List.Subset.trans (underway.followed b earlier) grows
        · obtain rfl := List.mem_singleton.mp last
          intro c successor
          simp only [met, List.mem_append]
          exact Or.inr (Or.inr (order.mem_iff.mpr successor))

theorem Underway.run (underway : Underway next roots t)
    (run : Relation.ReflTransGen (Round next) t stop) : Underway next roots stop := by
  induction run with
  | refl => exact underway
  | tail _ round ih => exact ih.step round

/-- A search that has ended visited exactly what its roots lead to. -/
theorem Underway.mem_visits_iff (underway : Underway next roots t) (ended : t.pending = []) :
    b ∈ t.visits ↔ ReachedFrom next roots b := by
  have all : t.met = t.visits := by rw [met, ended, List.append_nil]
  have rooted := all ▸ underway.rooted
  have followed := all ▸ underway.followed
  refine ⟨fun visited => underway.reached b (all ▸ visited), fun reached => ?_⟩
  obtain ⟨root, member, path⟩ := reached
  exact path.closed (· ∈ t.visits) (fun a visited _ step => followed a visited step) (rooted member)

/-- Bounds the rounds to come: every element that waits or may still begin to wait needs one. -/
def work (next : α → List α) (edges : Nat) (t : Traversal α) : Nat :=
  t.pending.length + (edges - (t.visits.flatMap next).length)

theorem Underway.work_lt (bound : SuccessorsWithin next (ReachedFrom next roots) edges)
    (underway : Underway next roots t) (round : Round next t u) :
    u.work next edges < t.work next edges := by
  have later := underway.step round
  have within := bound u.visits later.distinct fun a visited =>
    later.reached a (List.mem_append_left _ visited)
  cases round with
  | again => simp [work]
  | visit new order =>
      have count := order.length_eq
      simp only [List.flatMap_append, List.flatMap_singleton, List.length_append] at within
      simp only [work, List.flatMap_append, List.flatMap_singleton, List.length_append,
        List.length_cons]
      omega

/-- No search goes on for ever, whatever orders it takes. -/
theorem Underway.length_rounds_le (bound : SuccessorsWithin next (ReachedFrom next roots) edges)
    (underway : Underway next roots t) {rounds : List (Traversal α)}
    (chain : List.IsChain (Round next) (t :: rounds)) : rounds.length ≤ t.work next edges := by
  induction rounds generalizing t with
  | nil => exact Nat.zero_le _
  | cons u rounds ih =>
      obtain ⟨round, rest⟩ := List.isChain_cons_cons.mp chain
      have later := ih (underway.step round) rest
      have less := underway.work_lt bound round
      rw [List.length_cons]
      omega

section

variable [BEq α] [LawfulBEq α]

/-- The visits so far, and those that follow them if no other element comes to wait. -/
def lineup (t : Traversal α) : List α := t.visits ++ (t.pending.removeAll t.visits).eraseDups

theorem Round.lineup_prefix (round : Round next t u) : t.lineup <+: u.lineup := by
  cases round with
  | again before => simp [lineup, List.cons_removeAll, before]
  | @visit a pending visits successors new =>
      have first : (a :: pending).removeAll visits = a :: pending.removeAll visits := by
        rw [List.cons_removeAll, if_pos (by simpa using new)]
      have others : (pending.removeAll visits).filter (fun b => !b == a) =
          pending.removeAll (visits ++ [a]) := by
        simp only [List.removeAll, List.filter_filter]
        apply List.filter_congr
        intro b _
        rw [Bool.eq_iff_iff]
        simp [and_comm]
      have behind : (pending ++ successors).removeAll (visits ++ [a]) =
          pending.removeAll (visits ++ [a]) ++ successors.removeAll (visits ++ [a]) :=
        List.filter_append _ _
      simp only [lineup, first, List.eraseDups_cons, others, behind, List.eraseDups_append]
      rw [List.append_cons, ← List.append_assoc]
      exact List.prefix_append _ _

theorem lineup_prefix (run : Relation.ReflTransGen (Round next) t stop) :
    t.lineup <+: stop.lineup := by
  induction run with
  | refl => exact List.prefix_refl _
  | tail _ round ih => exact ih.trans round.lineup_prefix

/-- The roots are visited first, each once, in their order. -/
theorem roots_prefix (run : Relation.ReflTransGen (Round next) ⟨roots, []⟩ stop)
    (ended : stop.pending = []) : roots.eraseDups <+: stop.visits := by
  simpa [lineup, ended] using lineup_prefix run

end

/-- A search with a budget is one of these searches, and it ends if the budget covers its rounds. -/
theorem Underway.run_explore [BEq α] [LawfulBEq α] [Hashable α] {visited : Visited α}
    {pending : List α} {budget : Nat}
    (bound : SuccessorsWithin next (ReachedFrom next roots) edges)
    (underway : Underway next roots ⟨pending, visited.toList⟩)
    (enough : work next edges ⟨pending, visited.toList⟩ ≤ budget) :
    Relation.ReflTransGen (Round next) ⟨pending, visited.toList⟩
      ⟨[], (explore next budget pending visited).toList⟩ := by
  induction budget generalizing pending visited with
  | zero =>
      have none : pending = [] := by
        simp only [work] at enough
        exact List.eq_nil_of_length_eq_zero (by omega)
      subst none
      exact .refl
  | succ budget ih =>
      cases pending with
      | nil => exact .refl
      | cons a pending =>
          by_cases before : a ∈ visited
          · rw [explore_again before]
            have round : Round next ⟨a :: pending, visited.toList⟩ ⟨pending, visited.toList⟩ :=
              .again (Visited.mem_toList.mpr before)
            have less := underway.work_lt bound round
            exact .head round (ih (underway.step round) (by omega))
          · rw [explore_visit before]
            have round : Round next ⟨a :: pending, visited.toList⟩
                ⟨pending ++ next a, (visited.insert a).toList⟩ := by
              rw [Visited.toList_insert before]
              exact .visit (fun member => before (Visited.mem_toList.mp member)) (.refl _)
            have less := underway.work_lt bound round
            exact .head round (ih (underway.step round) (by omega))

theorem run_reach [BEq α] [LawfulBEq α] [Hashable α]
    (bound : SuccessorsWithin next (ReachedFrom next roots) edges) :
    Relation.ReflTransGen (Round next) ⟨roots, []⟩ ⟨[], (reach next edges roots).toList⟩ := by
  have start : Underway next roots ⟨roots, (Visited.empty : Visited α).toList⟩ :=
    underway_start next roots
  exact start.run_explore bound (Nat.le_refl _)

end Traversal

/-- A search finds exactly what its roots lead to. -/
theorem mem_reach_iff [BEq α] [LawfulBEq α] [Hashable α]
    (bound : SuccessorsWithin next (ReachedFrom next roots) edges) :
    b ∈ reach next edges roots ↔ ReachedFrom next roots b := by
  have underway := (Traversal.underway_start next roots).run (Traversal.run_reach bound)
  exact Visited.mem_toList.symm.trans (underway.mem_visits_iff rfl)

end PermissionGuard
