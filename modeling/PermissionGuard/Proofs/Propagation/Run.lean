import PermissionGuard.Propagation
import PermissionGuard.Proofs.Program.Finished

/-!
The runs of a search along callers, as derivations. A derivation says nothing of the budget, so what
holds of every search is proved by induction on it. Every answer of the search has a derivation
(`searchWithin_runs`), and on a program with finitely many statements the budget is never exhausted
(`check_runs`).
-/

namespace PermissionGuard

/-- What a search leaves behind beside its log. -/
structure Footprint where
  history : History
  stats : Stats

def Progress.footprint (st : Progress) : Footprint := ⟨st.history, st.stats⟩

namespace Footprint

def meetAgain (f : Footprint) : Footprint :=
  { f with stats := { f.stats with
      visits := f.stats.visits + 1
      recursionBreaks := f.stats.recursionBreaks + 1 } }

def enter (f : Footprint) (s : StmtId) : Footprint where
  history := f.history.insert s
  stats := { f.stats with visits := f.stats.visits + 1 }

def findGuard (f : Footprint) : Footprint :=
  { f with stats.locallyGuarded := f.stats.locallyGuarded + 1 }

def lookAtCaller (f : Footprint) : Footprint :=
  { f with stats.callerVisits := f.stats.callerVisits + 1 }

def refuseCaller (f : Footprint) : Footprint :=
  { f with stats.anomalies := f.stats.anomalies + 1 }

@[simp] theorem meetAgain_history (f : Footprint) : f.meetAgain.history = f.history := rfl

@[simp] theorem enter_history (f : Footprint) (s : StmtId) :
    (f.enter s).history = f.history.insert s := rfl

@[simp] theorem findGuard_history (f : Footprint) : f.findGuard.history = f.history := rfl

@[simp] theorem lookAtCaller_history (f : Footprint) : f.lookAtCaller.history = f.history := rfl

@[simp] theorem refuseCaller_history (f : Footprint) : f.refuseCaller.history = f.history := rfl

@[simp] theorem meetAgain_stats (f : Footprint) : f.meetAgain.stats = { f.stats with
    visits := f.stats.visits + 1, recursionBreaks := f.stats.recursionBreaks + 1 } := rfl

@[simp] theorem enter_stats (f : Footprint) (s : StmtId) :
    (f.enter s).stats = { f.stats with visits := f.stats.visits + 1 } := rfl

@[simp] theorem findGuard_stats (f : Footprint) :
    f.findGuard.stats = { f.stats with locallyGuarded := f.stats.locallyGuarded + 1 } := rfl

@[simp] theorem lookAtCaller_stats (f : Footprint) :
    f.lookAtCaller.stats = { f.stats with callerVisits := f.stats.callerVisits + 1 } := rfl

@[simp] theorem refuseCaller_stats (f : Footprint) :
    f.refuseCaller.stats = { f.stats with anomalies := f.stats.anomalies + 1 } := rfl

end Footprint

/-- What a search has to decide: whether a statement of a method is guarded, or whether all callers
of a list are. -/
inductive Task where
  | statement (s : StmtId) (m : MethodId)
  | callers (callers : List StmtId)

/-- The statement of a task that is not a caller. -/
def Task.statements : Task → List StmtId
  | .statement s _ => [s]
  | .callers _ => []

namespace Propagator

variable {p : Propagator}

/-- What the next caller sees after a caller was searched. -/
def rejoin (p : Propagator) (before after : Footprint) : Footprint :=
  if p.branchLocal then { after with history := before.history } else after

/-- The runs of the search, from a task and a footprint to a verdict and a footprint. -/
inductive Runs (p : Propagator) : Task → Footprint → Bool → Footprint → Prop
  | again {s : StmtId} {m : MethodId} {before : Footprint} (met : s ∈ before.history) :
      Runs p (.statement s m) before false before.meetAgain
  | guarded {s : StmtId} {m : MethodId} {before : Footprint} {guard : Guard}
      (new : s ∉ before.history) (found : p.detector.guard? s m = some guard) :
      Runs p (.statement s m) before true (before.enter s).findGuard
  | uncalled {s : StmtId} {m : MethodId} {before : Footprint}
      (new : s ∉ before.history) (unguarded : p.detector.guard? s m = none)
      (alone : p.model.callersOf m = []) :
      Runs p (.statement s m) before false (before.enter s)
  | called {s : StmtId} {m : MethodId} {before after : Footprint} {verdict : Bool}
      (new : s ∉ before.history) (unguarded : p.detector.guard? s m = none)
      (called : p.model.callersOf m ≠ [])
      (above : Runs p (.callers (p.model.callersOf m)) (before.enter s) verdict after) :
      Runs p (.statement s m) before verdict after
  | done {before : Footprint} : Runs p (.callers []) before true before
  | anomaly {c : StmtId} {callers : List StmtId} {before : Footprint}
      (stray : p.isInvocation c = false) :
      Runs p (.callers (c :: callers)) before false before.lookAtCaller.refuseCaller
  | refused {c : StmtId} {callers : List StmtId} {before after : Footprint}
      (invocation : p.isInvocation c = true)
      (first : Runs p (.statement c (p.model.enclosing c)) before.lookAtCaller false after) :
      Runs p (.callers (c :: callers)) before false (p.rejoin before after)
  | next {c : StmtId} {callers : List StmtId} {before middle after : Footprint} {verdict : Bool}
      (invocation : p.isInvocation c = true)
      (first : Runs p (.statement c (p.model.enclosing c)) before.lookAtCaller true middle)
      (rest : Runs p (.callers callers) (p.rejoin before middle) verdict after) :
      Runs p (.callers (c :: callers)) before verdict after

theorem rejoin_history_local (isLocal : p.branchLocal = true) (before after : Footprint) :
    (p.rejoin before after).history = before.history := by
  simp [rejoin, isLocal]

theorem rejoin_shared (shared : p.branchLocal = false) (before after : Footprint) :
    p.rejoin before after = after := by
  simp [rejoin, shared]

@[simp] theorem rejoin_stats (before after : Footprint) :
    (p.rejoin before after).stats = after.stats := by
  simp only [rejoin]
  split <;> rfl

theorem rejoin_history_congr {f g f' g' : Footprint} (start : f.history = f'.history)
    (finish : g.history = g'.history) :
    (p.rejoin f g).history = (p.rejoin f' g').history := by
  simp only [rejoin]
  split <;> assumption

/-- Both histories after a caller lie between the one before it and the one that it left. -/
theorem mem_rejoin {before after : Footprint} {t : StmtId}
    (member : t ∈ (p.rejoin before after).history) :
    t ∈ before.history ∨ t ∈ after.history := by
  cases mode : p.branchLocal with
  | true =>
      rw [rejoin_history_local mode] at member
      exact Or.inl member
  | false =>
      rw [rejoin_shared mode] at member
      exact Or.inr member

theorem mem_rejoin_of_mem {before after : Footprint}
    (grows : ∀ t, t ∈ before.history → t ∈ after.history) {t : StmtId}
    (member : t ∈ before.history) : t ∈ (p.rejoin before after).history := by
  cases mode : p.branchLocal with
  | true => rw [rejoin_history_local mode]; exact member
  | false => rw [rejoin_shared mode]; exact grows t member

/-- A search forgets nothing. -/
theorem Runs.history_grows {task : Task} {before after : Footprint} {verdict : Bool}
    (run : Runs p task before verdict after) :
    ∀ t, t ∈ before.history → t ∈ after.history := by
  induction run with
  | again => exact fun t member => member
  | guarded | uncalled => exact fun t member => Visited.mem_insert.mpr (Or.inr member)
  | called _ _ _ _ ih => exact fun t member => ih t (Visited.mem_insert.mpr (Or.inr member))
  | done | anomaly => exact fun t member => member
  | refused _ _ ih => exact fun t member => mem_rejoin_of_mem ih member
  | next _ _ _ firstIH restIH => exact fun t member => restIH t (mem_rejoin_of_mem firstIH member)

/-- The verdict and the history depend on nothing but the history before. -/
theorem Runs.deterministic {task : Task} {before after before' after' : Footprint}
    {verdict verdict' : Bool} (left : Runs p task before verdict after)
    (right : Runs p task before' verdict' after') (same : before.history = before'.history) :
    verdict = verdict' ∧ after.history = after'.history := by
  induction left generalizing before' after' verdict' with
  | again met =>
      cases right with
      | again => exact ⟨rfl, same⟩
      | guarded new | uncalled new | called new => exact absurd (same ▸ met) new
  | guarded new found =>
      cases right with
      | again met => exact absurd (same ▸ met) new
      | guarded => simp [same]
      | uncalled _ unguarded | called _ unguarded => simp [unguarded] at found
  | uncalled new unguarded alone =>
      cases right with
      | again met => exact absurd (same ▸ met) new
      | guarded _ found => simp [unguarded] at found
      | uncalled => simp [same]
      | called _ _ called => exact absurd alone called
  | called new unguarded called _ ih =>
      cases right with
      | again met => exact absurd (same ▸ met) new
      | guarded _ found => simp [unguarded] at found
      | uncalled _ _ alone => exact absurd alone called
      | called _ _ _ above => exact ih above (by simp [same])
  | done =>
      cases right with
      | done => exact ⟨rfl, same⟩
  | anomaly stray =>
      cases right with
      | anomaly => exact ⟨rfl, same⟩
      | refused invocation | next invocation => simp [stray] at invocation
  | refused invocation _ ih =>
      cases right with
      | anomaly stray => simp [stray] at invocation
      | refused _ first => exact ⟨rfl, rejoin_history_congr same (ih first same).2⟩
      | next _ first => cases (ih first same).1
  | next invocation _ _ firstIH restIH =>
      cases right with
      | anomaly stray => simp [stray] at invocation
      | refused _ first => cases (firstIH first same).1
      | next _ first rest => exact restIH rest (rejoin_history_congr same (firstIH first same).2)

/-- Queries are counted by `check` and nowhere else. -/
theorem Runs.queries {task : Task} {before after : Footprint} {verdict : Bool}
    (run : Runs p task before verdict after) : after.stats.queries = before.stats.queries := by
  induction run with
  | again | guarded | uncalled | done | anomaly => rfl
  | called _ _ _ _ ih => exact ih
  | refused _ _ ih => rw [rejoin_stats]; exact ih
  | next _ _ _ firstIH restIH => rw [restIH, rejoin_stats]; exact firstIH

theorem rejoin_footprint (before after : Progress) :
    (if p.branchLocal then { after with history := before.history } else after).footprint =
      p.rejoin before.footprint after.footprint := by
  simp only [rejoin]
  split <;> rfl

theorem searchCallers_runs {m : MethodId}
    {search : StmtId → MethodId → Progress → Option (Bool × Progress)}
    (adequate : ∀ {s m st verdict after}, search s m st = some (verdict, after) →
      Runs p (.statement s m) st.footprint verdict after.footprint)
    {callers : List StmtId} {st after : Progress} {verdict : Bool}
    (answered : p.searchCallers m search callers st = some (verdict, after)) :
    Runs p (.callers callers) st.footprint verdict after.footprint := by
  induction callers generalizing st with
  | nil => cases answered; exact .done
  | cons c callers ih =>
      cases invocation : p.isInvocation c with
      | false =>
          simp only [searchCallers, invocation, Bool.false_eq_true, if_false] at answered
          cases answered
          exact .anomaly invocation
      | true =>
          simp only [searchCallers, invocation, if_true] at answered
          split at answered
          · cases answered
          · rename_i isGuarded left found
            have first := adequate found
            cases isGuarded with
            | true =>
                have rest := ih answered
                rw [rejoin_footprint] at rest
                exact .next invocation first rest
            | false =>
                simp only [Bool.false_eq_true, if_false] at answered
                cases answered
                exact rejoin_footprint st left ▸ .refused invocation first

theorem searchWithin_runs {budget : Nat} {s : StmtId} {m : MethodId} {st after : Progress}
    {verdict : Bool} (answered : p.searchWithin budget s m st = some (verdict, after)) :
    Runs p (.statement s m) st.footprint verdict after.footprint := by
  induction budget generalizing s m st verdict after with
  | zero => cases answered
  | succ budget ih =>
      simp only [searchWithin] at answered
      split at answered
      · rename_i met
        cases answered
        exact .again ((Visited.contains_iff _ _).mp met)
      · rename_i unmet
        have new : s ∉ st.history := fun met => unmet ((Visited.contains_iff _ _).mpr met)
        split at answered
        · rename_i found
          cases answered
          exact .guarded new found
        · rename_i unguarded
          split at answered
          · rename_i alone
            cases answered
            exact .uncalled new unguarded alone
          · rename_i called
            exact .called new unguarded called (searchCallers_runs ih answered)

theorem mem_statementIds (enumerated : p.model.Enumerated) {c : StmtId}
    (invocation : p.isInvocation c = true) : c ∈ p.model.statementIds := by
  cases known : p.model.statement? c with
  | none => simp [isInvocation, known] at invocation
  | some st => exact enumerated c st known

/-- Every search for a statement of the program is answered when its budget exceeds the number of
statements that were not met. -/
def AnswersWithin (p : Propagator) (budget : Nat) : Prop :=
  ∀ c m (st : Progress), c ∈ p.model.statementIds →
    st.history.missing p.model.statementIds < budget →
      ∃ verdict after, p.searchWithin budget c m st = some (verdict, after)

theorem AnswersWithin.searchCallers {budget : Nat} (answers : p.AnswersWithin budget)
    (enumerated : p.model.Enumerated) (m : MethodId) (callers : List StmtId) (st : Progress)
    (room : st.history.missing p.model.statementIds < budget) :
    ∃ verdict after, p.searchCallers m (p.searchWithin budget) callers st =
      some (verdict, after) := by
  induction callers generalizing st with
  | nil => exact ⟨true, st, rfl⟩
  | cons c callers ih =>
      cases invocation : p.isInvocation c with
      | false => simp [Propagator.searchCallers, invocation]
      | true =>
          obtain ⟨isGuarded, left, found⟩ := answers c (p.model.enclosing c)
            { st with stats.callerVisits := st.stats.callerVisits + 1 }
            (mem_statementIds enumerated invocation) room
          have grows := (searchWithin_runs found).history_grows
          simp only [Propagator.searchCallers, invocation, if_true, found]
          cases isGuarded with
          | false => simp
          | true =>
              -- The first caller may have filled the history, which only leaves more room.
              apply ih
              split
              · exact room
              · exact Nat.lt_of_le_of_lt (Visited.missing_anti grows _) room

/-- One level of the search, for a statement that the program need not know. -/
theorem AnswersWithin.searchWithin {budget : Nat} (answers : p.AnswersWithin budget)
    (enumerated : p.model.Enumerated) (s : StmtId) (m : MethodId) (st : Progress)
    (room : s ∉ st.history →
      (st.history.insert s).missing p.model.statementIds < budget) :
    ∃ verdict after, p.searchWithin (budget + 1) s m st = some (verdict, after) := by
  simp only [Propagator.searchWithin]
  split
  · exact ⟨_, _, rfl⟩
  · rename_i unmet
    have new : s ∉ st.history := fun met => unmet ((Visited.contains_iff _ _).mpr met)
    split
    · exact ⟨_, _, rfl⟩
    · split
      · exact ⟨_, _, rfl⟩
      · exact answers.searchCallers enumerated m _ _ (room new)

theorem answersWithin (enumerated : p.model.Enumerated) (budget : Nat) :
    p.AnswersWithin budget := by
  induction budget with
  | zero =>
      intro c m st known room
      omega
  | succ budget ih =>
      intro c m st known room
      apply ih.searchWithin enumerated
      intro new
      have shrinks := Visited.missing_insert_lt known new
      omega

/-- The first statement may be unknown to the program, so it has a level of its own. -/
theorem searchWithin_budget_answers (enumerated : p.model.Enumerated) (s : StmtId) (m : MethodId)
    (st : Progress) : ∃ verdict after, p.searchWithin p.budget s m st = some (verdict, after) := by
  apply (answersWithin enumerated _).searchWithin enumerated
  intro _
  have bounded := (st.history.insert s).missing_le_length p.model.statementIds
  omega

theorem isGuarded_runs (enumerated : p.model.Enumerated) (s : StmtId) (m : MethodId)
    (st : Progress) : Runs p (.statement s m) st.footprint (p.isGuarded s m st).1
      (p.isGuarded s m st).2.footprint := by
  obtain ⟨verdict, after, answered⟩ := searchWithin_budget_answers enumerated s m st
  simpa only [isGuarded, answered, Option.getD_some] using searchWithin_runs answered

def queryStart (stats : Stats) : Footprint where
  history := Visited.empty
  stats := { stats with queries := stats.queries + 1 }

theorem check_runs (enumerated : p.model.Enumerated) (s : StmtId) (m : MethodId)
    (st : Progress) : Runs p (.statement s m) (queryStart st.stats) (p.check s m st).1
      (p.check s m st).2.footprint :=
  isGuarded_runs enumerated s m
    { st with history := Visited.empty, stats.queries := st.stats.queries + 1 }

theorem check_of_guard (enumerated : p.model.Enumerated) {s : StmtId} {m : MethodId} {guard : Guard}
    (found : p.detector.guard? s m = some guard) (st : Progress) : (p.check s m st).1 = true := by
  have run : Runs p (.statement s m) (queryStart st.stats) true _ :=
    .guarded (Visited.not_mem_empty s) found
  exact ((check_runs enumerated s m st).deterministic run rfl).1

theorem check_of_uncalled (enumerated : p.model.Enumerated) {s : StmtId} {m : MethodId}
    (unguarded : p.detector.guard? s m = none) (alone : p.model.callersOf m = [])
    (st : Progress) : (p.check s m st).1 = false := by
  have run : Runs p (.statement s m) (queryStart st.stats) false _ :=
    .uncalled (Visited.not_mem_empty s) unguarded alone
  exact ((check_runs enumerated s m st).deterministic run rfl).1

/-- A query answers the same whatever was asked before it. -/
theorem check_verdict_eq (enumerated : p.model.Enumerated) (s : StmtId) (m : MethodId)
    (st st' : Progress) : (p.check s m st).1 = (p.check s m st').1 :=
  ((check_runs enumerated s m st).deterministic (check_runs enumerated s m st') rfl).1

end Propagator

end PermissionGuard
