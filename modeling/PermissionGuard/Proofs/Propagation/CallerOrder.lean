import PermissionGuard.Proofs.Propagation.Unfolding

/-!
The order of the callers. A search looks at the callers of a method one after the other and stops
at the first that is not guarded, so their order decides how far it goes and what it has met by
then. The verdict does not depend on it. With a history for every branch a verdict depends on which
callers there are (`GuardedApart`). With one history for the query it depends on how often each
occurs, because the statement unfolds into the same statements in another order.
-/

namespace PermissionGuard

namespace Propagator

variable {p q : Propagator} {met : History} {s : StmtId} {m : MethodId} {task : Task}
variable {callers callers' nodes : List StmtId}

/-- Two searches that differ in nothing but the order of the callers and what they log. -/
structure Permuted (p q : Propagator) : Prop where
  mode : p.branchLocal = q.branchLocal
  guards : ∀ s m, p.detector.guard? s m = q.detector.guard? s m
  statements : p.model.statement? = q.model.statement?
  enclosing : p.model.enclosing = q.model.enclosing
  callers : ∀ m, (p.model.callersOf m).Perm (q.model.callersOf m)

theorem Permuted.symm (permuted : p.Permuted q) : q.Permuted p where
  mode := permuted.mode.symm
  guards s m := (permuted.guards s m).symm
  statements := permuted.statements.symm
  enclosing := permuted.enclosing.symm
  callers m := (permuted.callers m).symm

theorem Permuted.isInvocation (permuted : p.Permuted q) (c : StmtId) :
    p.isInvocation c = q.isInvocation c := by
  simp only [Propagator.isInvocation, permuted.statements]

theorem Permuted.called (permuted : p.Permuted q) (called : p.model.callersOf m ≠ []) :
    q.model.callersOf m ≠ [] := by
  intro alone
  have empty := permuted.callers m
  rw [alone] at empty
  exact called empty.eq_nil

/-! ### A history for every branch -/

/-- A statement is guarded by itself or by all its callers, none of which was met on the way to
it. -/
inductive GuardedApart (p : Propagator) : History → StmtId → MethodId → Prop
  | guarded {met : History} {s : StmtId} {m : MethodId} (new : s ∉ met)
      (found : (p.detector.guard? s m).isSome) : GuardedApart p met s m
  | called {met : History} {s : StmtId} {m : MethodId} (new : s ∉ met)
      (called : p.model.callersOf m ≠ [])
      (invocations : ∀ c ∈ p.model.callersOf m, p.isInvocation c = true)
      (above : ∀ c ∈ p.model.callersOf m,
        GuardedApart p (met.insert s) c (p.model.enclosing c)) : GuardedApart p met s m

/-- The statement of a task, or every caller of it, is guarded. -/
def TaskGuarded (p : Propagator) (met : History) : Task → Prop
  | .statement s m => p.GuardedApart met s m
  | .callers callers => ∀ c ∈ callers,
      p.isInvocation c = true ∧ p.GuardedApart met c (p.model.enclosing c)

theorem Runs.taskGuarded (isLocal : p.branchLocal = true) {before after : Footprint}
    {verdict : Bool} (run : Runs p task before verdict after) (accepted : verdict = true) :
    p.TaskGuarded before.history task := by
  induction run with
  | again | uncalled | anomaly | refused => cases accepted
  | guarded new found => exact .guarded new (Option.isSome_of_eq_some found)
  | called new _ called _ ih =>
      have callers := ih accepted
      exact .called new called (fun c member => (callers c member).1)
        (fun c member => (callers c member).2)
  | done => exact fun c member => absurd member List.not_mem_nil
  | next invocation _ _ firstIH restIH =>
      have others := restIH accepted
      rw [rejoin_history_local isLocal] at others
      intro c member
      rcases List.mem_cons.mp member with rfl | later
      · exact ⟨invocation, firstIH rfl⟩
      · exact others c later

/-- Callers that are accepted one by one are accepted together, in any order. -/
theorem Runs.callers_accepted (isLocal : p.branchLocal = true)
    (each : ∀ c ∈ callers, p.isInvocation c = true ∧
      ∀ {before after : Footprint} {verdict : Bool}, before.history = met →
        Runs p (.statement c (p.model.enclosing c)) before verdict after → verdict = true)
    {before after : Footprint} {verdict : Bool} (start : before.history = met)
    (run : Runs p (.callers callers) before verdict after) : verdict = true := by
  induction callers generalizing before with
  | nil =>
      cases run
      rfl
  | cons c callers ih =>
      obtain ⟨invocation, accepts⟩ := each c List.mem_cons_self
      cases run with
      | anomaly stray => simp [stray] at invocation
      | refused _ first =>
          have looking : before.lookAtCaller.history = met := start
          exact accepts looking first
      | next _ _ rest =>
          refine ih (fun d member => each d (List.mem_cons_of_mem c member)) ?_ rest
          rw [rejoin_history_local isLocal, start]

theorem GuardedApart.accepts (isLocal : p.branchLocal = true) (guarded : p.GuardedApart met s m)
    {before after : Footprint} {verdict : Bool} (start : before.history = met)
    (run : Runs p (.statement s m) before verdict after) : verdict = true := by
  induction guarded generalizing before after verdict with
  | guarded new found =>
      cases run with
      | again again => exact absurd (start ▸ again) new
      | guarded => rfl
      | uncalled _ unguarded | called _ unguarded => simp [unguarded] at found
  | @called met s m new called invocations _ ih =>
      cases run with
      | again again => exact absurd (start ▸ again) new
      | guarded => rfl
      | uncalled _ _ alone => exact absurd alone called
      | called _ _ _ above =>
          have entered : (before.enter s).history = met.insert s := by simp [start]
          exact Runs.callers_accepted isLocal
            (fun c caller => ⟨invocations c caller, fun start run => ih c caller start run⟩)
            entered above

/-- A query with a history for every branch, for any method and statement. -/
theorem check_local_iff (enumerated : p.model.Enumerated) (isLocal : p.branchLocal = true)
    (s : StmtId) (m : MethodId) (st : Progress) :
    (p.check s m st).1 = true ↔ p.GuardedApart Visited.empty s m := by
  have run := check_runs enumerated s m st
  exact ⟨fun accepted => run.taskGuarded isLocal accepted,
    fun guarded => guarded.accepts isLocal rfl run⟩

theorem GuardedApart.permute (permuted : p.Permuted q) (guarded : p.GuardedApart met s m) :
    q.GuardedApart met s m := by
  induction guarded with
  | guarded new found => exact .guarded new (permuted.guards _ _ ▸ found)
  | @called met s m new called invocations _ ih =>
      refine .called new (permuted.called called) ?_ ?_
      · intro c caller
        rw [← permuted.isInvocation]
        exact invocations c ((permuted.callers m).mem_iff.mpr caller)
      · intro c caller
        rw [← permuted.enclosing]
        exact ih c ((permuted.callers m).mem_iff.mpr caller)

/-! ### One history for the query -/

/-- Callers in another order unfold into the same statements. -/
theorem Unfolds.reorder (order : callers.Perm callers')
    (unfolds : p.Unfolds (.callers callers) nodes) :
    ∃ nodes', p.Unfolds (.callers callers') nodes' ∧ nodes.Perm nodes' := by
  induction order generalizing nodes with
  | nil => exact ⟨nodes, unfolds, .refl nodes⟩
  | cons c _ ih =>
      cases unfolds with
      | @next _ _ first rest invocation above others =>
          obtain ⟨rest', others', same⟩ := ih others
          exact ⟨first ++ rest', .next invocation above others', same.append_left first⟩
  | swap c d callers =>
      cases unfolds with
      | @next _ _ first _ invocation above others =>
          cases others with
          | @next _ _ second rest invocation' above' others =>
              refine ⟨second ++ (first ++ rest),
                .next invocation' above' (.next invocation above others), ?_⟩
              rw [← List.append_assoc, ← List.append_assoc]
              exact List.perm_append_comm.append_right rest
  | trans _ _ firstIH secondIH =>
      obtain ⟨middle, unfolds', same⟩ := firstIH unfolds
      obtain ⟨nodes', unfolds'', same'⟩ := secondIH unfolds'
      exact ⟨nodes', unfolds'', same.trans same'⟩

theorem Unfolds.permute (permuted : p.Permuted q) (unfolds : p.Unfolds task nodes) :
    ∃ nodes', q.Unfolds task nodes' ∧ nodes.Perm nodes' := by
  induction unfolds with
  | @guarded s m guard found =>
      exact ⟨[s], .guarded ((permuted.guards s m).symm.trans found), .refl _⟩
  | @called s m nodes unguarded called _ ih =>
      obtain ⟨middle, above, same⟩ := ih
      obtain ⟨nodes', above', same'⟩ := above.reorder (permuted.callers m)
      exact ⟨s :: nodes', .called ((permuted.guards s m).symm.trans unguarded)
        (permuted.called called) above', (same.trans same').cons s⟩
  | done => exact ⟨[], .done, .refl _⟩
  | @next c callers first rest invocation _ _ aboveIH othersIH =>
      obtain ⟨first', above, same⟩ := aboveIH
      obtain ⟨rest', others, same'⟩ := othersIH
      rw [permuted.enclosing] at above
      rw [permuted.isInvocation] at invocation
      exact ⟨first' ++ rest', .next invocation above others, same.append same'⟩

theorem Permuted.check_of_check (permuted : p.Permuted q) (enumerated : p.model.Enumerated)
    (enumerated' : q.model.Enumerated) {st : Progress} (accepted : (p.check s m st).1 = true)
    (st' : Progress) : (q.check s m st').1 = true := by
  cases mode : p.branchLocal with
  | true =>
      rw [check_local_iff enumerated mode] at accepted
      exact (check_local_iff enumerated' (permuted.mode.symm.trans mode) s m st').mpr
        (accepted.permute permuted)
  | false =>
      obtain ⟨nodes, unfolds, distinct⟩ := (check_shared_iff enumerated mode s m st).mp accepted
      obtain ⟨nodes', unfolds', same⟩ := unfolds.permute permuted
      exact unfolds'.check enumerated' (same.nodup distinct) st'

end Propagator

/-- The verdict of a query does not depend on the order of the callers: two models that list the
same callers in any two orders, with detectors that agree, give the same answer, with either kind
of history and whatever was asked before. -/
theorem check_ignores_caller_order (model : Model) (enumerated : model.Enumerated)
    (callers : MethodId → List StmtId) (reordered : ∀ m, (model.callersOf m).Perm (callers m))
    (d d' : Detector) (agree : ∀ s m, d.guard? s m = d'.guard? s m) (branchLocal : Bool)
    (s : StmtId) (m : MethodId) (st st' : Progress) :
    let p : Propagator := { model, detector := d, branchLocal }
    let q : Propagator :=
      { model := { model with callersOf := callers }, detector := d', branchLocal }
    (p.check s m st).1 = (q.check s m st').1 := by
  intro p q
  have permuted : p.Permuted q := ⟨rfl, agree, rfl, rfl, reordered⟩
  rw [Bool.eq_iff_iff]
  constructor
  · exact fun accepted => permuted.check_of_check enumerated enumerated accepted st'
  · exact fun accepted => permuted.symm.check_of_check enumerated enumerated accepted st

/-- Three methods of one statement each, where the last two have a handler and call the first, one
of them twice. -/
def forkModel : Model where
  reachable := [0, 1, 2]
  statementIds := [0, 1, 2]
  method? _ := none
  statement? s :=
    if 0 ≤ s ∧ s ≤ 2 then
      some ⟨s, s, 0, some ⟨"app.Main", "take", "void", []⟩, none, 0, []⟩
    else none
  callSites m := [m]
  callersOf m := if m = 0 then [1, 2, 1] else []
  enclosing s := s
  caughtAt _ s _ := s == 1 || s == 2
  dominatorsOf s _ := [s]

theorem check_ignores_caller_order_fork :
    let callers := fun m : MethodId => if m = 0 then [1, 1, 2] else []
    let d := Detector.ofNames forkModel "java.lang.SecurityException" []
    let q : Propagator := ⟨{ forkModel with callersOf := callers }, d, true⟩
    forkModel.Enumerated ∧ (∀ m, (forkModel.callersOf m).Perm (callers m)) ∧
      forkModel.callersOf 0 ≠ callers 0 ∧ (q.check 0 0 {}).1 = true := by
  intro callers d q
  have enumerated : forkModel.Enumerated := by
    intro (s : Int) st known
    have range : 0 ≤ s ∧ s ≤ 2 := (Option.ite_none_right_eq_some.mp known).1
    have cases : s = 0 ∨ s = 1 ∨ s = 2 := by omega
    simpa [forkModel] using cases
  have reordered (m : MethodId) : (forkModel.callersOf m).Perm (callers m) := by
    simp only [forkModel, callers]
    split
    · exact (List.Perm.swap 1 2 []).cons 1
    · exact .nil
  have isGuarded : Propagator.GuardedApart ⟨forkModel, d, true⟩ Visited.empty 0 0 := by
    refine .called (Visited.not_mem_empty 0) (by decide) (by decide) ?_
    intro c caller
    have side : c = 1 ∨ c = 2 := by simpa [forkModel, or_comm] using caller
    rcases side with rfl | rfl
    · exact .guarded (by simp [Visited.not_mem_empty]) rfl
    · exact .guarded (by simp [Visited.not_mem_empty]) rfl
  have accepted := (Propagator.check_local_iff enumerated rfl 0 0 {}).mpr isGuarded
  refine ⟨enumerated, reordered, by decide, ?_⟩
  rw [← check_ignores_caller_order forkModel enumerated callers reordered d d (fun _ _ => rfl) true
    0 0 {} {}]
  exact accepted

end PermissionGuard
