import PermissionGuard.Program.Dominance
import PermissionGuard.Proofs.Reachability
import Mathlib.Data.List.Chain
import Mathlib.Data.List.Nodup

/-!
Dominance in a control flow graph. A position dominates another one when every walk from the entry
to that one passes it. The dominators of a reachable position dominate each other in one order
(`Dominates.total`), so each but the entry comes right after its immediate dominator
(`DominatorChain.immediate`), and climbing a tree of immediate dominators, which any search may have
found (`FindsDominators`), gives them all (`FindsDominators.lineage?_spec`).
-/

namespace PermissionGuard

/-- A walk along control flow from the entry, which is position 0, to a position. -/
structure EntryWalk (flow : Nat → Nat → Prop) (walk : List Nat) (i : Nat) : Prop where
  starts : walk.head? = some 0
  ends : walk.getLast? = some i
  linked : walk.IsChain flow

/-- Every walk from the entry to `i` passes `d`. -/
def Dominates (flow : Nat → Nat → Prop) (d i : Nat) : Prop :=
  ∀ walk, EntryWalk flow walk i → d ∈ walk

/-- The dominator of `i`, other than itself, that all the others dominate. -/
structure ImmediatelyDominates (flow : Nat → Nat → Prop) (d i : Nat) : Prop where
  dominates : Dominates flow d i
  strict : d ≠ i
  closest : ∀ e, Dominates flow e i → e ≠ i → Dominates flow e d

variable {flow : Nat → Nat → Prop} {walk before after : List Nat} {d e i : Nat}

/-! ### Walks -/

theorem EntryWalk.entry : EntryWalk flow [0] 0 := ⟨rfl, rfl, .singleton 0⟩

theorem EntryWalk.upTo (arrives : EntryWalk flow (before ++ d :: after) i) :
    EntryWalk flow (before ++ [d]) d where
  starts := by
    have starts := arrives.starts
    cases before <;> exact starts
  ends := by simp
  linked := arrives.linked.prefix ⟨after, by simp⟩

/-- Another way to a position of a walk may take the place of its beginning. -/
theorem EntryWalk.detour {other : List Nat} (arrives : EntryWalk flow (before ++ d :: after) i)
    (detour : EntryWalk flow other d) : EntryWalk flow (other ++ after) i where
  starts := by
    rw [List.head?_append, detour.starts]
    rfl
  ends := by
    have ends := arrives.ends
    rw [List.getLast?_append_cons] at ends
    cases after with
    | nil => simpa [detour.ends] using ends
    | cons next rest => rwa [List.getLast?_append_cons]
  linked := by
    have linked := (List.isChain_append.mp arrives.linked).2.1
    refine List.isChain_append.mpr ⟨detour.linked, linked.tail, ?_⟩
    intro x last y first
    rw [detour.ends] at last
    cases last
    exact linked.rel_head? first

theorem exists_entryWalk : (∃ walk, EntryWalk flow walk i) ↔ Relation.ReflTransGen flow 0 i := by
  constructor
  · rintro ⟨walk, starts, ends, linked⟩
    cases walk with
    | nil => cases starts
    | cons first rest =>
        cases starts
        refine List.relationReflTransGen_of_exists_isChain_cons rest linked ?_
        rwa [List.getLast?_eq_some_getLast (List.cons_ne_nil 0 rest), Option.some.injEq] at ends
  · intro leads
    obtain ⟨rest, linked, last⟩ := List.exists_isChain_cons_of_relationReflTransGen leads
    exact ⟨0 :: rest, rfl, by rw [List.getLast?_eq_some_getLast (List.cons_ne_nil 0 rest), last],
      linked⟩

/-- A position is not dominated if it is reached past the other one. -/
theorem not_dominates_iff : ¬ Dominates flow d i ↔
    d ≠ 0 ∧ Relation.ReflTransGen (fun i j => flow i j ∧ j ≠ d) 0 i := by
  rw [← exists_entryWalk]
  constructor
  · intro passed
    simp only [Dominates, not_forall] at passed
    obtain ⟨walk, arrives, avoids⟩ := passed
    refine ⟨fun isEntry => avoids (isEntry ▸ List.mem_of_head? arrives.starts), walk,
      arrives.starts, arrives.ends, ?_⟩
    refine arrives.linked.imp_of_mem_imp ?_
    exact fun i j _ member step => ⟨step, fun same => avoids (same ▸ member)⟩
  · rintro ⟨notEntry, walk, starts, ends, linked⟩ dominates
    have passes := dominates walk ⟨starts, ends, linked.imp fun _ _ step => step.1⟩
    obtain ⟨before, after, rfl⟩ := List.append_of_mem passes
    cases before using List.reverseRecOn with
    | nil => exact notEntry (by simpa using starts)
    | append_singleton before last =>
        rw [List.append_assoc, List.singleton_append, List.isChain_append_cons_cons] at linked
        exact linked.2.1.2 rfl

/-- A position that no step passes over dominates all positions from itself on. -/
theorem Dominates.of_narrow (narrow : ∀ x y, flow x y → x < d → y ≤ d) (beyond : d ≤ i) :
    Dominates flow d i := by
  by_contra avoided
  obtain ⟨notEntry, avoiding⟩ := not_dominates_iff.mp avoided
  have below (x : Nat) (reached : Relation.ReflTransGen (fun i j => flow i j ∧ j ≠ d) 0 x) :
      x < d := by
    induction reached with
    | refl => exact Nat.pos_of_ne_zero notEntry
    | tail _ step ih => exact Nat.lt_of_le_of_ne (narrow _ _ step.1 ih) step.2
  exact absurd beyond (Nat.not_le.mpr (below i avoiding))

/-- Steps from a position to itself make no difference to dominance. -/
theorem dominates_congr {flow' : Nat → Nat → Prop} (same : ∀ i j, flow' i j ↔ flow i j ∧ j ≠ i) :
    Dominates flow' d i ↔ Dominates flow d i := by
  rw [← not_iff_not, not_dominates_iff, not_dominates_iff]
  refine and_congr_right fun _ => ⟨fun leads => ?_, fun leads => ?_⟩
  · exact Relation.ReflTransGen.mono
      (fun i j step => ⟨((same i j).mp step.1).1, step.2⟩) _ _ leads
  · induction leads with
    | refl => exact .refl
    | @tail j k _ step ih =>
        by_cases stays : k = j
        · exact stays ▸ ih
        · exact ih.tail ⟨(same j k).mpr ⟨step.1, stays⟩, step.2⟩

/-! ### The order of dominators -/

theorem Dominates.refl (flow : Nat → Nat → Prop) (i : Nat) : Dominates flow i i :=
  fun _ arrives => List.mem_of_getLast? arrives.ends

theorem Dominates.entry (flow : Nat → Nat → Prop) (i : Nat) : Dominates flow 0 i :=
  fun _ arrives => List.mem_of_head? arrives.starts

theorem Dominates.trans (first : Dominates flow d e) (second : Dominates flow e i) :
    Dominates flow d i := by
  intro walk arrives
  obtain ⟨before, after, rfl⟩ := List.append_of_mem (second walk arrives)
  have passed := first _ arrives.upTo
  rw [List.mem_append, List.mem_singleton] at passed
  rcases passed with earlier | rfl
  · exact List.mem_append.mpr (Or.inl earlier)
  · exact List.mem_append.mpr (Or.inr List.mem_cons_self)

theorem Dominates.antisymm (reachable : Relation.ReflTransGen flow 0 d)
    (dominates : Dominates flow d e) (back : Dominates flow e d) : d = e := by
  obtain ⟨walk, arrives⟩ := exists_entryWalk.mpr reachable
  -- Up to its first visit of `d`, the walk passes `e`, and `d` before that.
  obtain ⟨before, after, rfl, first⟩ :=
    List.eq_append_cons_of_mem (Dominates.refl flow d walk arrives)
  have passed := back _ arrives.upTo
  rw [List.mem_append, List.mem_singleton] at passed
  rcases passed with earlier | same
  · obtain ⟨start, rest, rfl⟩ := List.append_of_mem earlier
    have shorter : EntryWalk flow (start ++ e :: (rest ++ [d])) d := by simpa using arrives.upTo
    have again := dominates _ shorter.upTo
    rw [List.mem_append, List.mem_singleton] at again
    rcases again with twice | same
    · exact absurd (List.mem_append.mpr (Or.inl twice)) first
    · exact same
  · exact same.symm

theorem Dominates.reachable (dominates : Dominates flow d i)
    (reachable : Relation.ReflTransGen flow 0 i) : Relation.ReflTransGen flow 0 d := by
  obtain ⟨walk, arrives⟩ := exists_entryWalk.mpr reachable
  obtain ⟨before, after, rfl⟩ := List.append_of_mem (dominates walk arrives)
  exact exists_entryWalk.mp ⟨_, arrives.upTo⟩

/-- After the last visit of `e`, a walk reaches a position past another dominator that is not
visited any more, so every way to `e` passes that one. -/
theorem Dominates.of_last_visit (arrives : EntryWalk flow (before ++ e :: after) i)
    (dominates : Dominates flow d i) (gone : d ∉ after) : Dominates flow d e := by
  intro other detour
  have passed := dominates _ (arrives.detour detour)
  exact (List.mem_append.mp passed).resolve_right gone

theorem exists_last_visit (kind : Nat → Prop) (member : d ∈ walk) (isKind : kind d) :
    ∃ before e after, walk = before ++ e :: after ∧ kind e ∧ ∀ x ∈ after, ¬ kind x := by
  induction walk generalizing d with
  | nil => cases member
  | cons first rest ih =>
      by_cases later : ∃ x ∈ rest, kind x
      · obtain ⟨x, inRest, isLater⟩ := later
        obtain ⟨before, e, after, rfl, isLast⟩ := ih inRest isLater
        exact ⟨first :: before, e, after, rfl, isLast⟩
      · push Not at later
        rcases List.mem_cons.mp member with rfl | inRest
        · exact ⟨[], d, rest, rfl, isKind, later⟩
        · exact absurd isKind (later d inRest)

/-- Of two dominators of a reachable position, one dominates the other. -/
theorem Dominates.total (reachable : Relation.ReflTransGen flow 0 i)
    (first : Dominates flow d i) (second : Dominates flow e i) :
    Dominates flow d e ∨ Dominates flow e d := by
  obtain ⟨walk, arrives⟩ := exists_entryWalk.mpr reachable
  obtain ⟨before, x, after, rfl, isOne, none⟩ :=
    exists_last_visit (fun x => x = d ∨ x = e) (first walk arrives) (Or.inl rfl)
  rcases isOne with rfl | rfl
  · exact Or.inr (second.of_last_visit arrives fun later => none e later (Or.inr rfl))
  · exact Or.inl (first.of_last_visit arrives fun later => none d later (Or.inl rfl))

theorem ImmediatelyDominates.unique (reachable : Relation.ReflTransGen flow 0 i)
    (first : ImmediatelyDominates flow d i) (second : ImmediatelyDominates flow e i) : d = e :=
  (second.closest d first.dominates first.strict).antisymm (first.dominates.reachable reachable)
    (first.closest e second.dominates second.strict)

/-- The dominators of a position, each before those that it dominates. -/
structure DominatorChain (flow : Nat → Nat → Prop) (list : List Nat) (i : Nat) : Prop where
  distinct : list.Nodup
  mem_iff : ∀ d, d ∈ list ↔ Dominates flow d i
  ordered : list.Pairwise (Dominates flow)

namespace DominatorChain

variable {list : List Nat}

theorem head (chain : DominatorChain flow list i) : list.head? = some 0 := by
  have entry := (chain.mem_iff 0).mpr (Dominates.entry flow i)
  cases list with
  | nil => cases entry
  | cons first rest =>
      rcases List.mem_cons.mp entry with rfl | later
      · rfl
      · -- Only the entry itself dominates the entry.
        have dominates := List.rel_of_pairwise_cons chain.ordered later
        rw [List.head?_cons, List.mem_singleton.mp (dominates [0] .entry)]

theorem last (chain : DominatorChain flow list i) (reachable : Relation.ReflTransGen flow 0 i) :
    list.getLast? = some i := by
  obtain ⟨before, after, rfl⟩ := List.append_of_mem ((chain.mem_iff i).mpr (.refl flow i))
  cases after with
  | nil => simp
  | cons next rest =>
      have later : next ∈ before ++ i :: next :: rest := by simp
      have ordered := (List.pairwise_append.mp chain.ordered).2.1
      have below := List.rel_of_pairwise_cons ordered List.mem_cons_self
      have same := below.antisymm reachable ((chain.mem_iff next).mp later)
      have distinct := (List.nodup_append.mp chain.distinct).2.1
      simp [same] at distinct

/-- Every dominator but the entry comes right after its immediate dominator. -/
theorem immediate (chain : DominatorChain flow list i)
    (reachable : Relation.ReflTransGen flow 0 i) : list.IsChain (ImmediatelyDominates flow) := by
  rw [List.isChain_iff_forall_rel_of_append_cons_cons]
  rintro d e before after rfl
  obtain ⟨_, ordered, across⟩ := List.pairwise_append.mp chain.ordered
  obtain ⟨_, distinct, _⟩ := List.nodup_append.mp chain.distinct
  refine ⟨List.rel_of_pairwise_cons ordered List.mem_cons_self, ?_, fun x dominates other => ?_⟩
  · rintro rfl
    simp at distinct
  · have ofPosition : Dominates flow e i := (chain.mem_iff e).mp (by simp)
    have listed := (chain.mem_iff x).mpr (dominates.trans ofPosition)
    simp only [List.mem_append, List.mem_cons] at listed
    rcases listed with earlier | rfl | rfl | later
    · exact across x earlier d List.mem_cons_self
    · exact .refl flow x
    · exact absurd rfl other
    · -- What comes after `e` is dominated by it and cannot dominate it.
      have below := List.rel_of_pairwise_cons ordered.of_cons later
      exact absurd (below.antisymm (ofPosition.reachable reachable) dominates).symm other

end DominatorChain

/-! ### The order of a search -/

section

variable {α : Type} {next : α → List α} {roots : List α}

/-- Every element of a list, newest first, is a root or a successor of an older one. -/
def Traced (next : α → List α) (roots : List α) : List α → Prop
  | [] => True
  | a :: older => (a ∈ roots ∨ ∃ b ∈ older, a ∈ next b) ∧ Traced next roots older

theorem explore_traced [BEq α] [LawfulBEq α] [Hashable α] {budget : Nat} {pending : List α}
    {visited : Visited α} (traced : Traced next roots visited.newestFirst)
    (sources : ∀ a ∈ pending, a ∈ roots ∨ ∃ b ∈ visited.newestFirst, a ∈ next b) :
    Traced next roots (explore next budget pending visited).newestFirst := by
  induction budget generalizing pending visited with
  | zero => exact traced
  | succ budget ih =>
      cases pending with
      | nil => exact traced
      | cons a pending =>
          by_cases before : a ∈ visited
          · rw [explore_again before]
            exact ih traced fun b member => sources b (List.mem_cons_of_mem a member)
          · rw [explore_visit before]
            apply ih
            · rw [Visited.newestFirst_insert before]
              exact ⟨sources a List.mem_cons_self, traced⟩
            · rw [Visited.newestFirst_insert before]
              intro b member
              rcases List.mem_append.mp member with waiting | successor
              · rcases sources b (List.mem_cons_of_mem a waiting) with root | ⟨c, older, step⟩
                · exact Or.inl root
                · exact Or.inr ⟨c, List.mem_cons_of_mem a older, step⟩
              · exact Or.inr ⟨a, List.mem_cons_self, successor⟩

theorem reach_traced [BEq α] [LawfulBEq α] [Hashable α] (next : α → List α) (edges : Nat)
    (roots : List α) : Traced next roots (reach next edges roots).newestFirst :=
  explore_traced trivial fun _ root => Or.inl root

end

/-- What was visited is reached through what was visited before. -/
theorem Traced.entryWalk {next : Nat → List Nat} {list later older : List Nat}
    (traced : Traced next [0] list) (split : list = later ++ i :: older) :
    ∃ walk, EntryWalk (fun i j => j ∈ next i) walk i ∧ walk ⊆ i :: older := by
  induction list generalizing later i older with
  | nil => simp at split
  | cons first rest ih =>
      obtain ⟨source, before⟩ := traced
      cases later with
      | cons _ later => exact ih before (List.cons.inj split).2
      | nil =>
          cases split
          rcases source with root | ⟨j, visited, step⟩
          · cases List.mem_singleton.mp root
            exact ⟨[0], .entry, by simp⟩
          · obtain ⟨newer, oldest, isSplit⟩ := List.append_of_mem visited
            obtain ⟨walk, arrives, within⟩ := ih before isSplit
            refine ⟨walk ++ [first], ⟨?_, by simp, ?_⟩, ?_⟩
            · rw [List.head?_append, arrives.starts]
              rfl
            · refine List.isChain_append.mpr ⟨arrives.linked, .singleton first, ?_⟩
              intro x last y isNext
              rw [arrives.ends] at last
              cases last
              cases isNext
              exact step
            · intro x passed
              rcases List.mem_append.mp passed with early | final
              · have inOlder : x ∈ rest := by
                  rw [isSplit]
                  exact List.mem_append.mpr (Or.inr (within early))
                exact List.mem_cons_of_mem first inOlder
              · exact List.mem_cons.mpr (Or.inl (List.mem_singleton.mp final))

/-- What is visited later dominates nothing that was visited before. -/
theorem Traced.order {next : Nat → List Nat} {list : List Nat} (traced : Traced next [0] list)
    (distinct : list.Nodup) :
    list.Pairwise fun later earlier => ¬ Dominates (fun i j => j ∈ next i) later earlier := by
  induction list with
  | nil => exact .nil
  | cons first rest ih =>
      obtain ⟨new, distinct⟩ := List.nodup_cons.mp distinct
      refine .cons ?_ (ih traced.2 distinct)
      intro j earlier dominates
      obtain ⟨newer, older, split⟩ := List.append_of_mem earlier
      obtain ⟨walk, arrives, within⟩ := traced.2.entryWalk split
      refine new ?_
      rw [split]
      exact List.mem_append.mpr (Or.inr (within (dominates walk arrives)))

/-! ### The lists of dominators -/

namespace FlowGraph

variable {g : FlowGraph}

theorem next_within (g : FlowGraph) (kind : Nat → Prop) :
    SuccessorsWithin g.next kind g.edgeCount := by
  refine SuccessorsWithin.of_nonempty (successorsWithin_of_list (List.range g.size) ?_ ?_) kind
  · intro i nonempty
    rw [List.mem_range]
    by_contra beyond
    have outside : g.succs[i]? = none := Array.getElem?_eq_none (Nat.le_of_not_lt beyond)
    exact nonempty (by simp [next, outside])
  · have table : (List.range g.size).map g.next = g.succs.toList := by
      apply List.ext_getElem
      · simp [size]
      · intro i _ bound
        have found : g.succs[i]? = some g.succs.toList[i] := by
          rw [← Array.getElem?_toList, List.getElem?_eq_getElem bound]
        simp [next, found]
    rw [table]
    exact Nat.le_refl _

theorem mem_reachable_iff : i ∈ g.reachable ↔ Reaches g.next 0 i := by
  rw [reachable, mem_reach_iff (g.next_within _)]
  simp [ReachedFrom]

theorem mem_reachableAvoiding_iff :
    i ∈ g.reachableAvoiding d ↔ ¬ Dominates (fun i j => j ∈ g.next i) d i := by
  have fewer (i : Nat) : ((g.next i).filter (· != d)).Sublist (g.next i) := List.filter_sublist
  rw [reachableAvoiding, mem_reach_iff ((g.next_within _).of_sublist fewer), not_dominates_iff]
  by_cases isEntry : d = 0
  · simp [isEntry, ReachedFrom]
  · simp [isEntry, ReachedFrom, Reaches, List.mem_filter]

/-- The reachable dominators of a position in the order of a search. -/
def dominators (g : FlowGraph) (i : Nat) : List Nat :=
  g.reachable.toList.filter fun d => !(g.reachableAvoiding d).contains i

theorem dominators_chain (reachable : Reaches g.next 0 i) :
    DominatorChain (fun i j => j ∈ g.next i) (g.dominators i) i := by
  have distinct : g.reachable.newestFirst.Nodup := reach_nodup _ _ _
  have members (d : Nat) : d ∈ g.dominators i ↔ Dominates (fun i j => j ∈ g.next i) d i := by
    have listed : d ∈ g.reachable.toList ↔ Reaches g.next 0 d := by
      rw [Visited.toList, List.mem_reverse]
      exact mem_reachable_iff
    have avoided : (!(g.reachableAvoiding d).contains i) = true ↔
        Dominates (fun i j => j ∈ g.next i) d i := by
      rw [Bool.not_eq_true', ← Bool.not_eq_true, Visited.contains_iff,
        mem_reachableAvoiding_iff, not_not]
    rw [dominators, List.mem_filter, listed, avoided]
    exact ⟨And.right, fun dominates => ⟨dominates.reachable reachable, dominates⟩⟩
  refine ⟨(List.nodup_reverse.mpr distinct).filter _, members, ?_⟩
  have order := (reach_traced g.next g.edgeCount [0]).order distinct
  refine ((List.pairwise_reverse.mpr order).filter _).imp_of_mem ?_
  intro d e first second notBack
  have total := Dominates.total reachable ((members d).mp first) ((members e).mp second)
  exact total.resolve_right notBack

/-! ### Trees of immediate dominators -/

/-- No position leads to itself, twice to the same one, or out of the graph. -/
structure IsSimple (g : FlowGraph) : Prop where
  distinct : ∀ i, (g.next i).Nodup
  apart : ∀ i, ∀ j ∈ g.next i, j ≠ i
  inside : ∀ i, ∀ j ∈ g.next i, j < g.size

theorem simple_next (g : FlowGraph) (i : Nat) :
    g.simple.next i = ((g.next i).filter (· != i)).eraseDups := by
  simp only [next, simple, Array.getD_eq_getD_getElem?, Array.getElem?_mapIdx]
  cases g.succs[i]? <;> rfl

theorem mem_simple_next {j : Nat} : j ∈ g.simple.next i ↔ j ∈ g.next i ∧ j ≠ i := by
  rw [simple_next, List.mem_eraseDups, List.mem_filter, bne_iff_ne]

theorem simple_size (g : FlowGraph) : g.simple.size = g.size := by simp [simple, size]

theorem nodup_eraseDups (list : List Nat) : list.eraseDups.Nodup := by
  induction length : list.length using Nat.strongRecOn generalizing list with
  | _ length ih =>
      cases list with
      | nil => exact .nil
      | cons first rest =>
          rw [List.eraseDups_cons, List.nodup_cons]
          have shorter := List.length_filter_le (fun b => !b == first) rest
          refine ⟨by simp [List.mem_eraseDups], ih _ ?_ _ rfl⟩
          rw [List.length_cons] at length
          omega

theorem simple_isSimple (inside : ∀ i, ∀ j ∈ g.next i, j < g.size) : g.simple.IsSimple where
  distinct i := by
    rw [simple_next]
    exact nodup_eraseDups _
  apart _ _ edge := (mem_simple_next.mp edge).2
  inside i j edge := by
    rw [simple_size]
    exact inside i j (mem_simple_next.mp edge).1

theorem dominates_simple (g : FlowGraph) :
    Dominates (fun i j => j ∈ g.simple.next i) = Dominates (fun i j => j ∈ g.next i) := by
  funext d i
  exact propext (dominates_congr fun _ _ => mem_simple_next)

theorem reaches_simple (g : FlowGraph) : Reaches g.simple.next 0 i ↔ Reaches g.next 0 i := by
  constructor
  · exact Relation.ReflTransGen.mono (fun _ _ step => (mem_simple_next.mp step).1) _ _
  · intro leads
    induction leads with
    | refl => exact .refl
    | @tail j k _ step ih =>
        by_cases stays : k = j
        · exact stays ▸ ih
        · exact ih.tail (mem_simple_next.mpr ⟨step, stays⟩)

/-- The tree has the immediate dominator of every position that the entry reaches but itself. -/
structure IsDominatorTree (g : FlowGraph) (tree : DominatorTree) : Prop where
  parent : ∀ i, Reaches g.next 0 i → i ≠ 0 →
    ∃ d, tree.parent? i = some d ∧ ImmediatelyDominates (fun i j => j ∈ g.next i) d i
  entry : tree.parent? 0 = none
  unreachable : ∀ i, ¬ Reaches g.next 0 i → tree.parent? i = none

end FlowGraph

/-- The search finds the immediate dominators of the positions of every simple graph. -/
def FindsDominators (finder : DominatorFinder) : Prop :=
  ∀ g : FlowGraph, g.IsSimple → 0 < g.size → g.IsDominatorTree (finder g)

namespace FlowGraph

variable {g : FlowGraph} {tree : DominatorTree} {finder : DominatorFinder}

/-- Climbing goes up the chain of dominators that leads down to a position. -/
theorem IsDominatorTree.climb_eq (isTree : g.IsDominatorTree tree) (budget : Nat)
    {above : List Nat} (reachable : Reaches g.next 0 i)
    (linked : (i :: above).IsChain fun e d => ImmediatelyDominates (fun i j => j ∈ g.next i) d e)
    (top : (i :: above).getLast? = some 0) (room : above.length < budget) :
    tree.climb budget i = i :: above := by
  induction above generalizing i budget with
  | nil =>
      cases top
      obtain ⟨budget, rfl⟩ := Nat.exists_eq_add_of_lt room
      simp [DominatorTree.climb, isTree.entry]
  | cons d above ih =>
      obtain ⟨immediate, linked⟩ := List.isChain_cons_cons.mp linked
      have notEntry : i ≠ 0 := by
        rintro rfl
        exact immediate.strict (List.mem_singleton.mp (immediate.dominates [0] .entry))
      obtain ⟨parent, found, isParent⟩ := isTree.parent i reachable notEntry
      cases isParent.unique reachable immediate
      obtain ⟨budget, rfl⟩ := Nat.exists_eq_add_of_lt room
      rw [List.length_cons] at room ⊢
      have rest := ih (above.length + 1 + budget) (immediate.dominates.reachable reachable) linked
        (by simpa using top) (by omega)
      simp only [DominatorTree.climb, found, rest]

theorem lt_size_of_reaches (inside : ∀ i, ∀ j ∈ g.next i, j < g.size) (nonempty : 0 < g.size)
    (reachable : Reaches g.next 0 i) : i < g.size := by
  cases reachable with
  | refl => exact nonempty
  | tail _ step => exact inside _ i step

theorem IsDominatorTree.lineage?_eq (isTree : g.IsDominatorTree tree)
    (inside : ∀ i, ∀ j ∈ g.next i, j < g.size) (nonempty : 0 < g.size)
    (reachable : Reaches g.next 0 i) : tree.lineage? g.size i = some (g.dominators i) := by
  have chain := dominators_chain reachable
  by_cases isEntry : i = 0
  · subst isEntry
    have single : g.dominators 0 = [0] := by
      have only (d : Nat) (member : d ∈ g.dominators 0) : d = 0 :=
        List.mem_singleton.mp ((chain.mem_iff d).mp member [0] .entry)
      have first := chain.head
      have distinct := chain.distinct
      match g.dominators 0, first, only, distinct with
      | [d], _, only, _ => rw [only d List.mem_cons_self]
      | d :: e :: _, _, only, distinct =>
          have same : d = e := (only d (by simp)).trans (only e (by simp)).symm
          simp [same] at distinct
    simp [DominatorTree.lineage?, single]
  · obtain ⟨d, found, immediate⟩ := isTree.parent i reachable isEntry
    -- The chain read upwards starts with the position and its immediate dominator.
    obtain ⟨above, upwards⟩ : ∃ above, (g.dominators i).reverse = i :: above := by
      have last := chain.last reachable
      rw [← List.head?_reverse] at last
      cases reversed : (g.dominators i).reverse with
      | nil => simp [reversed] at last
      | cons first above =>
          rw [reversed, List.head?_cons, Option.some.injEq] at last
          exact ⟨above, by rw [last]⟩
    have linked : (i :: above).IsChain
        fun e d => ImmediatelyDominates (fun i j => j ∈ g.next i) d e := by
      rw [← upwards]
      exact List.isChain_reverse.mpr (chain.immediate reachable)
    have top : (i :: above).getLast? = some 0 := by
      rw [← upwards, List.getLast?_reverse, chain.head]
    have short : above.length < g.size := by
      have distinct := chain.distinct
      have within : g.dominators i ⊆ List.range g.size := fun e member =>
        List.mem_range.mpr (lt_size_of_reaches inside nonempty
          (((chain.mem_iff e).mp member).reachable reachable))
      have shorter := (List.subperm_of_subset distinct within).length_le
      rw [← List.length_reverse, upwards, List.length_range, List.length_cons] at shorter
      omega
    have climbed := isTree.climb_eq (g.size + 1) reachable linked top (by omega)
    simp only [DominatorTree.climb, found] at climbed
    rw [DominatorTree.lineage?, if_neg isEntry, found, Option.map_some, climbed, ← upwards,
      List.reverse_reverse]

end FlowGraph

/-- Whatever search finds the immediate dominators: the dominators of a position that the entry
reaches are listed from the entry down, and there is no list for any other position. -/
theorem FindsDominators.lineage?_spec {finder : DominatorFinder} {g : FlowGraph}
    (finds : FindsDominators finder) (inside : ∀ i, ∀ j ∈ g.next i, j < g.size)
    (nonempty : 0 < g.size) :
    let list := (finder g.simple).lineage? g.size i
    (¬ Reaches g.next 0 i → list = none) ∧
    (Reaches g.next 0 i → ∃ positions, list = some positions ∧
      DominatorChain (fun i j => j ∈ g.next i) positions i) := by
  intro list
  have simple := FlowGraph.simple_isSimple inside
  have size := g.simple_size
  have isTree := finds g.simple simple (size ▸ nonempty)
  constructor
  · intro unreachable
    have notEntry : i ≠ 0 := fun isEntry => unreachable (isEntry ▸ .refl)
    have none := isTree.unreachable i (mt g.reaches_simple.mp unreachable)
    simp [list, DominatorTree.lineage?, notEntry, none]
  · intro reachable
    have reachable' := g.reaches_simple.mpr reachable
    refine ⟨_, size ▸ isTree.lineage?_eq simple.inside (size ▸ nonempty) reachable', ?_⟩
    obtain ⟨distinct, members, ordered⟩ := FlowGraph.dominators_chain reachable'
    rw [g.dominates_simple] at members ordered
    exact ⟨distinct, members, ordered⟩

/-! ### Searches that avoid one position -/

namespace FlowGraph

variable {g : FlowGraph}

theorem avoidanceTree_parent? (bound : i < g.size) : (avoidanceTree g).parent? i =
    if g.reachable.contains i then ((g.dominators i).filter (· != i)).getLast? else none := by
  have kept (list : List Nat) : list.filterMap (fun d =>
      if d == i || (g.reachableAvoiding d).contains i then none else some d) =
        (list.filter fun d => !(g.reachableAvoiding d).contains i).filter (· != i) := by
    induction list with
    | nil => rfl
    | cons d list ih =>
        by_cases same : d = i
        · cases avoided : (g.reachableAvoiding d).contains i <;> simp_all
        · cases avoided : (g.reachableAvoiding d).contains i <;> simp_all
  have entry : (avoidanceTree g).parent? i = if g.reachable.contains i then
      (g.reachable.toList.filterMap fun d =>
        if d == i || (g.reachableAvoiding d).contains i then none else some d).getLast?
      else none := by
    simp only [avoidanceTree, DominatorTree.parent?, Array.getD_eq_getD_getElem?,
      Array.getElem?_map, Array.getElem?_range, bound, if_true, Option.map_some, Option.getD_some,
      List.filterMap_map]
    rfl
  rw [entry, kept]
  rfl

/-- The last one before a position in the chain of its dominators is its immediate dominator. -/
theorem immediatelyDominates_of_getLast? (reachable : Reaches g.next 0 i)
    (last : ((g.dominators i).filter (· != i)).getLast? = some d) :
    ImmediatelyDominates (fun i j => j ∈ g.next i) d i := by
  have chain := dominators_chain reachable
  obtain ⟨before, split⟩ := List.getLast?_eq_some_iff.mp last
  have members (e : Nat) : e ∈ before ++ [d] ↔
      Dominates (fun i j => j ∈ g.next i) e i ∧ e ≠ i := by
    rw [← split, List.mem_filter, chain.mem_iff, bne_iff_ne]
  obtain ⟨dominates, strict⟩ := (members d).mp (by simp)
  refine ⟨dominates, strict, fun e dominates' strict' => ?_⟩
  have ordered := chain.ordered.filter (· != i)
  rw [split] at ordered
  rcases List.mem_append.mp ((members e).mpr ⟨dominates', strict'⟩) with earlier | final
  · exact (List.pairwise_append.mp ordered).2.2 e earlier d (by simp)
  · cases List.mem_singleton.mp final
    exact .refl _ _

theorem avoidanceTree_finds : FindsDominators avoidanceTree := by
  intro g simple nonempty
  have known (i : Nat) : g.reachable.contains i = true ↔ Reaches g.next 0 i := by
    rw [Visited.contains_iff, mem_reachable_iff]
  constructor
  case parent =>
    intro i reachable notEntry
    have bound := lt_size_of_reaches simple.inside nonempty reachable
    have entry : 0 ∈ (g.dominators i).filter (· != i) := by
      rw [List.mem_filter, (dominators_chain reachable).mem_iff, bne_iff_ne]
      exact ⟨.entry _ i, notEntry.symm⟩
    rw [avoidanceTree_parent? bound, if_pos ((known i).mpr reachable)]
    obtain ⟨d, last⟩ := Option.isSome_iff_exists.mp
      (List.getLast?_isSome.mpr (List.ne_nil_of_mem entry))
    exact ⟨d, last, immediatelyDominates_of_getLast? reachable last⟩
  case entry =>
    have reachable : Reaches g.next 0 0 := .refl
    have none : (g.dominators 0).filter (· != 0) = [] := by
      rw [List.filter_eq_nil_iff]
      intro d member
      have only := ((dominators_chain reachable).mem_iff d).mp member [0] .entry
      simpa using only
    rw [avoidanceTree_parent? nonempty, none]
    simp
  case unreachable =>
    intro i unreachable
    by_cases bound : i < g.size
    · rw [avoidanceTree_parent? bound, if_neg (mt (known i).mp unreachable)]
    · simp [avoidanceTree, DominatorTree.parent?, bound]

end FlowGraph

end PermissionGuard
