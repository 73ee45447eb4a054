import PermissionGuard.Proofs.Propagation.Run
import Mathlib.Data.List.Chain

/-!
What a search with a history for every branch decides. The statements that it calls guarded are the
least set closed under local guards and under calls from members only (`Covered`), so cutting the
cycles of calls never loses a guard. It calls a statement unguarded exactly when a chain of
unguarded statements leads back from it to a dead end (`UnguardedChain`).
-/

namespace PermissionGuard

namespace Propagator

variable {p : Propagator} {s t c : StmtId} {chain : List StmtId}

/-- The statements that call the method of a statement. -/
def callersAt (p : Propagator) (t : StmtId) : List StmtId :=
  p.model.callersOf (p.model.enclosing t)

/-- The least set of statements that holds whatever is guarded in its own method, and whatever lies
in a method that is called, only by invocations and only from the set. -/
inductive Covered (p : Propagator) : StmtId → Prop
  | guarded {t : StmtId} (found : (p.detector.guard? t (p.model.enclosing t)).isSome) :
      Covered p t
  | called {t : StmtId} (called : p.callersAt t ≠ [])
      (invocations : ∀ c ∈ p.callersAt t, p.isInvocation c = true)
      (covered : ∀ c ∈ p.callersAt t, Covered p c) : Covered p t

/-- A chain from `s` back along callers, through different statements without a guard in their own
method. It ends in a method without callers, at a caller that is no invocation, or at a caller that
was met before or stands on the chain. -/
structure UnguardedChain (p : Propagator) (met : History) (s : StmtId) (chain : List StmtId) :
    Prop where
  starts : chain.head? = some s
  distinct : chain.Nodup
  new : ∀ t ∈ chain, t ∉ met
  unguarded : ∀ t ∈ chain, p.detector.guard? t (p.model.enclosing t) = none
  linked : chain.IsChain fun t c => c ∈ p.callersAt t
  ends : ∃ last ∈ chain.getLast?, p.callersAt last = [] ∨
    ∃ c ∈ p.callersAt last, p.isInvocation c = false ∨ c ∈ met ∨ c ∈ chain

theorem UnguardedChain.single {met : History} (new : s ∉ met)
    (unguarded : p.detector.guard? s (p.model.enclosing s) = none)
    (ends : p.callersAt s = [] ∨
      ∃ c ∈ p.callersAt s, p.isInvocation c = false ∨ c ∈ met.insert s) :
    p.UnguardedChain met s [s] where
  starts := rfl
  distinct := by simp
  new := by simpa using new
  unguarded := by simpa using unguarded
  linked := .singleton s
  ends := by
    refine ⟨s, rfl, ends.imp_right ?_⟩
    rintro ⟨c, caller, stray | back⟩
    · exact ⟨c, caller, Or.inl stray⟩
    · rcases Visited.mem_insert.mp back with same | before
      · exact ⟨c, caller, Or.inr (Or.inr (by simp [same]))⟩
      · exact ⟨c, caller, Or.inr (Or.inl before)⟩

/-- What was met before a chain from a caller of `s` includes `s`, so the chain goes on from `s`. -/
theorem UnguardedChain.extend {met : History} (new : s ∉ met)
    (unguarded : p.detector.guard? s (p.model.enclosing s) = none) (caller : c ∈ p.callersAt s)
    (above : p.UnguardedChain (met.insert s) c chain) :
    p.UnguardedChain met s (s :: chain) where
  starts := rfl
  distinct := List.nodup_cons.mpr
    ⟨fun member => above.new s member (Visited.mem_insert.mpr (Or.inl rfl)), above.distinct⟩
  new := by
    intro t member
    rcases List.mem_cons.mp member with rfl | later
    · exact new
    · exact fun before => above.new t later (Visited.mem_insert.mpr (Or.inr before))
  unguarded := by
    intro t member
    rcases List.mem_cons.mp member with rfl | later
    · exact unguarded
    · exact above.unguarded t later
  linked := by
    refine above.linked.cons ?_
    intro next head
    rw [above.starts] at head
    cases head
    exact caller
  ends := by
    obtain ⟨last, final, stuck⟩ := above.ends
    refine ⟨last, ?_, stuck.imp_right ?_⟩
    · rw [List.getLast?_cons, Option.mem_def.mp final]
      rfl
    · rintro ⟨d, farther, stray | before | back⟩
      · exact ⟨d, farther, Or.inl stray⟩
      · rcases Visited.mem_insert.mp before with same | earlier
        · exact ⟨d, farther, Or.inr (Or.inr (by simp [same]))⟩
        · exact ⟨d, farther, Or.inr (Or.inl earlier)⟩
      · exact ⟨d, farther, Or.inr (Or.inr (List.mem_cons_of_mem s back))⟩

/-- What a refused task leaves to be found: a dead end at the statement or at one of the callers. -/
def DeadEnd (p : Propagator) (met : History) : Task → Prop
  | .statement s m =>
      m = p.model.enclosing s → s ∈ met ∨ ∃ chain, p.UnguardedChain met s chain
  | .callers callers =>
      ∃ c ∈ callers, p.isInvocation c = false ∨ c ∈ met ∨ ∃ chain, p.UnguardedChain met c chain

/-- With a history for every branch, the history is what stands on the way to the statement, so a
refusal always leads to a chain. -/
theorem Runs.deadEnd (isLocal : p.branchLocal = true) {task : Task} {before after : Footprint}
    {verdict : Bool} (run : Runs p task before verdict after) (refused : verdict = false) :
    p.DeadEnd before.history task := by
  induction run with
  | again met => exact fun _ => Or.inl met
  | guarded | done => cases refused
  | uncalled new unguarded alone =>
      rintro rfl
      exact Or.inr ⟨_, .single new unguarded (Or.inl alone)⟩
  | called new unguarded _ _ ih =>
      rintro rfl
      obtain ⟨c, caller, stray | met | ⟨chain, above⟩⟩ := ih refused
      · exact Or.inr ⟨_, .single new unguarded (Or.inr ⟨c, caller, Or.inl stray⟩)⟩
      · exact Or.inr ⟨_, .single new unguarded (Or.inr ⟨c, caller, Or.inr met⟩)⟩
      · exact Or.inr ⟨_, .extend new unguarded caller above⟩
  | anomaly stray => exact ⟨_, List.mem_cons_self, Or.inl stray⟩
  | refused _ _ ih => exact ⟨_, List.mem_cons_self, Or.inr (ih rfl rfl)⟩
  | next _ _ _ _ restIH =>
      obtain ⟨c, member, stuck⟩ := restIH refused
      -- What the first caller met is forgotten before the next one is searched.
      rw [rejoin_history_local isLocal] at stuck
      exact ⟨c, List.mem_cons_of_mem _ member, stuck⟩

/-- What an accepted task says about the statement or about all the callers. -/
def Accepted (p : Propagator) : Task → Prop
  | .statement s m => m = p.model.enclosing s → p.Covered s
  | .callers callers => ∀ c ∈ callers, p.isInvocation c = true ∧ p.Covered c

theorem Runs.accepted {task : Task} {before after : Footprint} {verdict : Bool}
    (run : Runs p task before verdict after) (accepted : verdict = true) : p.Accepted task := by
  induction run with
  | again | uncalled | anomaly | refused => cases accepted
  | guarded _ found =>
      rintro rfl
      exact .guarded (by simp [found])
  | called _ _ called _ ih =>
      rintro rfl
      have callers := ih accepted
      exact .called called (fun c member => (callers c member).1)
        (fun c member => (callers c member).2)
  | done => exact fun c member => absurd member List.not_mem_nil
  | next invocation _ _ firstIH restIH =>
      intro c member
      rcases List.mem_cons.mp member with rfl | later
      · exact ⟨invocation, firstIH rfl rfl⟩
      · exact restIH accepted c later

theorem last_or_linked {R : StmtId → StmtId → Prop} (linked : chain.IsChain R)
    (member : t ∈ chain) : chain.getLast? = some t ∨ ∃ c ∈ chain, R t c := by
  induction linked with
  | nil => cases member
  | singleton a =>
      left
      simpa using (List.mem_singleton.mp member).symm
  | @cons_cons a b rest related _ ih =>
      rcases List.mem_cons.mp member with rfl | later
      · exact Or.inr ⟨b, by simp, related⟩
      · refine (ih later).imp ?_ ?_
        · intro last
          simpa using last
        · rintro ⟨c, inRest, next⟩
          exact ⟨c, List.mem_cons_of_mem a inRest, next⟩

/-- The statements of a chain only have each other to be covered by. -/
theorem UnguardedChain.not_covered (stuck : p.UnguardedChain Visited.empty s chain)
    (covered : p.Covered t) : t ∉ chain := by
  induction covered with
  | guarded found =>
      intro member
      simp [stuck.unguarded _ member] at found
  | @called t called invocations _ ih =>
      intro member
      rcases last_or_linked stuck.linked member with final | ⟨c, onChain, caller⟩
      · obtain ⟨last, isLast, alone | ⟨c, caller, stray | met | back⟩⟩ := stuck.ends
        all_goals
          obtain rfl : t = last := Option.some.inj (final.symm.trans isLast)
        · exact called alone
        · simp [invocations c caller] at stray
        · exact Visited.not_mem_empty c met
        · exact ih c caller back
      · exact ih c caller onChain

theorem check_eq_true_iff_covered (enumerated : p.model.Enumerated)
    (isLocal : p.branchLocal = true) (s : StmtId) (st : Progress) :
    (p.check s (p.model.enclosing s) st).1 = true ↔ p.Covered s := by
  have run := check_runs enumerated s (p.model.enclosing s) st
  constructor
  · exact fun accepted => run.accepted accepted rfl
  · intro covered
    by_contra refused
    rcases run.deadEnd isLocal (by simpa using refused) rfl with met | ⟨chain, stuck⟩
    · exact Visited.not_mem_empty s met
    · exact stuck.not_covered covered (List.mem_of_mem_head? stuck.starts)

theorem check_eq_false_iff_chain (enumerated : p.model.Enumerated)
    (isLocal : p.branchLocal = true) (s : StmtId) (st : Progress) :
    (p.check s (p.model.enclosing s) st).1 = false ↔
      ∃ chain, p.UnguardedChain Visited.empty s chain := by
  have run := check_runs enumerated s (p.model.enclosing s) st
  constructor
  · intro refused
    exact (run.deadEnd isLocal refused rfl).resolve_left (Visited.not_mem_empty s)
  · rintro ⟨chain, stuck⟩
    have uncovered : ¬ p.Covered s :=
      fun covered => stuck.not_covered covered (List.mem_of_mem_head? stuck.starts)
    rw [← check_eq_true_iff_covered enumerated isLocal s st] at uncovered
    simpa using uncovered

end Propagator

/-- A query with a history for every branch calls guarded exactly what is covered, and calls
unguarded exactly what an unguarded chain starts from, whatever was asked before. -/
theorem branchLocal_check_exact (a : Arena) (d : Detector) (s : StmtId) (st : Progress) :
    let p : Propagator := { model := a.model, detector := d, branchLocal := true }
    ((p.check s (a.enclosing s) st).1 = true ↔ p.Covered s) ∧
      ((p.check s (a.enclosing s) st).1 = false ↔
        ∃ chain, p.UnguardedChain Visited.empty s chain) :=
  ⟨Propagator.check_eq_true_iff_covered a.model_enumerated rfl s st,
    Propagator.check_eq_false_iff_chain a.model_enumerated rfl s st⟩

end PermissionGuard
