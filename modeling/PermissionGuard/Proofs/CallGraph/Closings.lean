import PermissionGuard.CallGraph.Cycles
import PermissionGuard.Proofs.Ordered
import PermissionGuard.Proofs.Program.Finished
import PermissionGuard.Proofs.Reachability
import Mathlib.Data.List.Chain

/-!
Ways to close a path. A cycle that starts with its least node is a path from that node which is
closed by the nodes that are still to come (`Closes`). Trying every successor lists the ways to
close a path, in lexicographic order (`closings`).
-/

namespace PermissionGuard.CallGraph

variable {g : CallGraph} {start v w : Int} {path inner cycle : List Int} {budget : Nat}

/-- What holds of every call graph and of its parts. -/
structure Regular (g : CallGraph) : Prop where
  keys_sorted : g.keys.Pairwise (· ≤ ·)
  succs_increasing : ∀ v, (g.succs v).Pairwise (· < ·)
  mem_keys : ∀ {v w}, w ∈ g.succs v → v ∈ g.keys
  node?_isSome : ∀ {v}, (g.node? v).isSome ↔ v ∈ g.keys
  edges_bounded : ∀ kind, SuccessorsWithin g.succs kind g.edgeBound

theorem ofArena_succs (a : Arena) (v : Int) : (ofArena a).succs v =
    ((a.method? v).map fun m => sortedIds (a.calledFrom m.id)).getD [] := by
  simp only [ofArena, Program.method?, Program.entry?]
  split <;> simp

theorem ofArena_regular (a : Arena) : (ofArena a).Regular := by
  have known {v w : Int} (edge : w ∈ (ofArena a).succs v) : v ∈ a.methodIds := by
    rw [ofArena_succs] at edge
    cases found : a.method? v with
    | none => simp [found] at edge
    | some method => exact Program.mem_methodIds.mpr ⟨method, found⟩
  constructor
  case keys_sorted =>
    exact a.methodIds_increasing.imp Int.le_of_lt
  case succs_increasing =>
    intro v
    rw [ofArena_succs]
    cases a.method? v with
    | none => exact .nil
    | some method => exact sortedIds_increasing _
  case mem_keys =>
    exact known
  case node?_isSome =>
    intro v
    simp [ofArena, Program.mem_methodIds, Option.isSome_iff_exists]
  case edges_bounded =>
    have table : a.methodIds.map (ofArena a).succs =
        (a.methods.map fun m => sortedIds (a.calledFrom m.id)).toList := by
      apply List.ext_getElem
      · simp [Program.methodIds]
      · intro i bound _
        have inRange : i < a.methods.size := by simpa [Program.methodIds] using bound
        simp [Program.methodIds, ofArena_succs, Program.method?, Program.entry?_natCast, inRange]
    refine SuccessorsWithin.of_nonempty
      (successorsWithin_of_list a.methodIds ?_ (Nat.le_of_eq ?_))
    · intro v nonempty
      obtain ⟨w, edge⟩ := List.exists_mem_of_ne_nil _ nonempty
      exact known edge
    · rw [table]
      rfl

theorem Regular.subgraph (regular : g.Regular) (ids : List Int) : (g.subgraph ids).Regular := by
  have fewer (v : Int) : ((g.subgraph ids).succs v).Sublist (g.succs v) := by
    simp only [CallGraph.subgraph]
    split
    · exact List.filter_sublist
    · exact List.nil_sublist _
  constructor
  case keys_sorted =>
    exact mergeSort_sorted ids
  case succs_increasing =>
    exact fun v => (regular.succs_increasing v).sublist (fewer v)
  case mem_keys =>
    intro v w edge
    simp only [CallGraph.subgraph] at edge
    split at edge
    · rename_i kept
      exact List.mem_mergeSort.mpr (by simpa using kept)
    · cases edge
  case node?_isSome =>
    intro v
    simp [CallGraph.subgraph]
  case edges_bounded =>
    exact fun kind => (regular.edges_bounded kind).of_sublist fewer

/-- The graph that is left of a call graph after taking a part of it for each list of nodes. -/
def narrowed (a : Arena) (parts : List (List Int)) : CallGraph :=
  parts.foldl CallGraph.subgraph (ofArena a)

theorem narrowed_regular (a : Arena) (parts : List (List Int)) : (narrowed a parts).Regular := by
  have kept : ∀ g : CallGraph, g.Regular → (parts.foldl CallGraph.subgraph g).Regular := by
    induction parts with
    | nil => exact fun g regular => regular
    | cons ids parts ih => exact fun g regular => ih _ (regular.subgraph ids)
  exact kept _ (ofArena_regular a)

/-- A cycle that starts and ends with its least node and passes every node once. -/
def IsElementaryCycle (g : CallGraph) (cycle : List Int) : Prop :=
  ∃ least inner, cycle = least :: inner ++ [least] ∧ (least :: inner).Nodup ∧
    (∀ v ∈ inner, least ≤ v) ∧ cycle.IsChain fun v w => g.hasEdge v w = true

/-- The inner nodes lead on from `v`, which was reached on a path, and back to `start`, past new
nodes that are greater than `start`. -/
inductive Closes (g : CallGraph) (start : Int) : List Int → Int → List Int → Prop
  | back {path : List Int} {v : Int} (edge : start ∈ g.succs v) : Closes g start path v []
  | pass {path : List Int} {v w : Int} {inner : List Int} (edge : w ∈ g.succs v)
      (above : start < w) (new : w ∉ v :: path) (rest : Closes g start (v :: path) w inner) :
      Closes g start path v (w :: inner)

theorem closes_iff : Closes g start path v inner ↔
    (v :: inner ++ [start]).IsChain (fun v w => g.hasEdge v w = true) ∧ inner.Nodup ∧
      ∀ w ∈ inner, start < w ∧ w ∉ v :: path := by
  induction inner generalizing v path with
  | nil =>
      constructor
      · rintro ⟨edge⟩
        simpa [hasEdge] using edge
      · rintro ⟨linked, _⟩
        exact .back (by simpa [hasEdge] using linked)
  | cons w inner ih =>
      rw [List.cons_append, List.cons_append, List.isChain_cons_cons, List.nodup_cons]
      constructor
      · rintro (_ | ⟨edge, above, new, rest⟩)
        obtain ⟨linked, distinct, inside⟩ := ih.mp rest
        refine ⟨⟨by simpa [hasEdge] using edge, linked⟩, ⟨fun again => ?_, distinct⟩, ?_⟩
        · exact (inside w again).2 List.mem_cons_self
        · intro x member
          rcases List.mem_cons.mp member with rfl | later
          · exact ⟨above, new⟩
          · exact ⟨(inside x later).1, fun before =>
              (inside x later).2 (List.mem_cons_of_mem w before)⟩
      · rintro ⟨⟨edge, linked⟩, ⟨once, distinct⟩, inside⟩
        obtain ⟨above, new⟩ := inside w List.mem_cons_self
        refine .pass (by simpa [hasEdge] using edge) above new (ih.mpr ⟨linked, distinct, ?_⟩)
        intro x later
        obtain ⟨greater, fresh⟩ := inside x (List.mem_cons_of_mem w later)
        refine ⟨greater, fun before => ?_⟩
        rcases List.mem_cons.mp before with rfl | onPath
        · exact once later
        · exact fresh onPath

/-- The cycles that go on from the last node of a path, which is kept in reverse: all ways to extend
it by new nodes that are greater than `start`. -/
def closings (g : CallGraph) (start : Int) : Nat → List Int → List (List Int)
  | 0, _ => []
  | _, [] => []
  | budget + 1, v :: path =>
      (g.succs v).flatMap fun w =>
        if w = start then [(start :: v :: path).reverse]
        else if start < w ∧ w ∉ v :: path then closings g start budget (w :: v :: path)
        else []

/-- Those of the cycles that go on to `w`. -/
def closingsVia (g : CallGraph) (start : Int) (budget : Nat) (path : List Int) (w : Int) :
    List (List Int) :=
  if w = start then [(start :: path).reverse]
  else if start < w ∧ w ∉ path then closings g start budget (w :: path)
  else []

theorem closings_succ (g : CallGraph) (start : Int) (budget : Nat) (v : Int) (path : List Int) :
    closings g start (budget + 1) (v :: path) =
      (g.succs v).flatMap (closingsVia g start budget (v :: path)) := rfl

theorem mem_closings : cycle ∈ closings g start budget (v :: path) ↔
    ∃ inner, inner.length < budget ∧ Closes g start path v inner ∧
      cycle = (v :: path).reverse ++ inner ++ [start] := by
  induction budget generalizing v path with
  | zero => simp [closings]
  | succ budget ih =>
      simp only [closings_succ, List.mem_flatMap, closingsVia]
      constructor
      · rintro ⟨w, edge, member⟩
        split at member
        · rename_i isStart
          subst isStart
          cases List.mem_singleton.mp member
          exact ⟨[], Nat.succ_pos budget, .back edge, by simp⟩
        · split at member
          · rename_i accepted
            obtain ⟨inner, short, closes, rfl⟩ := ih.mp member
            refine ⟨w :: inner, Nat.succ_lt_succ short, ?_, by simp⟩
            exact .pass edge accepted.1 accepted.2 closes
          · cases member
      · rintro ⟨inner, short, closes, rfl⟩
        cases closes with
        | back edge =>
            refine ⟨start, edge, ?_⟩
            rw [if_pos rfl]
            simp
        | @pass _ _ w inner edge above new rest =>
            refine ⟨w, edge, ?_⟩
            rw [if_neg (Int.ne_of_gt above), if_pos ⟨above, new⟩]
            exact ih.mpr ⟨inner, Nat.lt_of_succ_lt_succ short, rest, by simp⟩

theorem closings_eq_nil_iff : closings g start budget (v :: path) = [] ↔
    ∀ inner, inner.length < budget → ¬ Closes g start path v inner := by
  rw [List.eq_nil_iff_forall_not_mem]
  simp only [mem_closings]
  constructor
  · exact fun none inner short closes => none _ ⟨inner, short, closes, rfl⟩
  · rintro none _ ⟨inner, short, closes, _⟩
    exact none inner short closes

/-- The cycles along a path that go on to a node have the node behind the path. -/
theorem closings_increasing (regular : g.Regular) (start : Int) (budget : Nat)
    (path : List Int) : (closings g start budget path).Pairwise (· < ·) := by
  induction budget generalizing path with
  | zero => exact .nil
  | succ budget ih =>
      cases path with
      | nil => exact .nil
      | cons v path =>
          rw [closings_succ, List.pairwise_flatMap]
          constructor
          · intro w _
            unfold closingsVia
            split
            · exact List.pairwise_singleton _ _
            · split
              · exact ih _
              · exact .nil
          · have goesOn {w : Int} {cycle : List Int}
                (member : cycle ∈ closingsVia g start budget (v :: path) w) :
                ∃ rest, cycle = (v :: path).reverse ++ w :: rest := by
              unfold closingsVia at member
              split at member
              · rename_i isStart
                cases List.mem_singleton.mp member
                exact ⟨[], by simp [isStart]⟩
              · split at member
                · obtain ⟨inner, _, _, rfl⟩ := mem_closings.mp member
                  exact ⟨inner ++ [start], by simp⟩
                · cases member
            refine (regular.succs_increasing v).imp ?_
            intro w w' less cycle member cycle' member'
            obtain ⟨rest, rfl⟩ := goesOn member
            obtain ⟨rest', rfl⟩ := goesOn member'
            exact List.append_left_lt (List.cons_lt_cons_iff.mpr (Or.inl less))

/-- The nodes of a cycle all have successors, so a cycle has no more nodes than the graph. -/
theorem Closes.length_lt (regular : g.Regular) (closes : Closes g start [] start inner) :
    inner.length < g.keys.length := by
  obtain ⟨linked, distinct, inside⟩ := closes_iff.mp closes
  have nodes : start :: inner ⊆ g.keys := by
    intro v member
    obtain ⟨before, after, split⟩ := List.append_of_mem member
    rw [split, List.append_assoc, List.cons_append] at linked
    cases after with
    | nil =>
        have edge := (List.isChain_append_cons_cons.mp linked).2.1
        exact regular.mem_keys (by simpa [hasEdge] using edge)
    | cons w after =>
        have edge := (List.isChain_append_cons_cons.mp linked).2.1
        exact regular.mem_keys (by simpa [hasEdge] using edge)
  have once : (start :: inner).Nodup :=
    List.nodup_cons.mpr ⟨fun again => (inside start again).2 List.mem_cons_self, distinct⟩
  exact (List.subperm_of_subset once nodes).length_le

theorem isElementaryCycle_iff : g.IsElementaryCycle cycle ↔
    ∃ start inner, Closes g start [] start inner ∧ cycle = start :: inner ++ [start] := by
  constructor
  · rintro ⟨start, inner, rfl, distinct, least, linked⟩
    obtain ⟨once, distinct⟩ := List.nodup_cons.mp distinct
    refine ⟨start, inner, closes_iff.mpr ⟨linked, distinct, fun w member => ?_⟩, rfl⟩
    have other : w ≠ start := fun same => once (same ▸ member)
    have above := least w member
    exact ⟨by omega, by simpa using other⟩
  · rintro ⟨start, inner, closes, rfl⟩
    obtain ⟨linked, distinct, inside⟩ := closes_iff.mp closes
    refine ⟨start, inner, rfl, List.nodup_cons.mpr ⟨fun again => ?_, distinct⟩, ?_, linked⟩
    · exact (inside start again).2 List.mem_cons_self
    · exact fun w member => Int.le_of_lt (inside w member).1

end PermissionGuard.CallGraph
