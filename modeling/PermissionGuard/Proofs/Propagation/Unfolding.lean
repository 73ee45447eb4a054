import PermissionGuard.Proofs.Propagation.Coverage

/-!
What a search with one history for a whole query decides. A covered statement unfolds into the list
of all statements that lead to it, one entry for every way along the callers. The search with one
history goes through this list and refuses the first entry that it has met, so it accepts exactly
the lists without repetition, which are those where the ways to different entries never meet.
-/

namespace PermissionGuard.Propagator

variable {p : Propagator} {s t c : StmtId} {task : Task} {nodes : List StmtId}

/-- The statements that a search goes through when it accepts a task and never looks at its
history. -/
inductive Unfolds (p : Propagator) : Task → List StmtId → Prop
  | guarded {s : StmtId} {m : MethodId} {guard : Guard}
      (found : p.detector.guard? s m = some guard) : Unfolds p (.statement s m) [s]
  | called {s : StmtId} {m : MethodId} {nodes : List StmtId}
      (unguarded : p.detector.guard? s m = none) (called : p.model.callersOf m ≠ [])
      (above : Unfolds p (.callers (p.model.callersOf m)) nodes) :
      Unfolds p (.statement s m) (s :: nodes)
  | done : Unfolds p (.callers []) []
  | next {c : StmtId} {callers first rest : List StmtId} (invocation : p.isInvocation c = true)
      (above : Unfolds p (.statement c (p.model.enclosing c)) first)
      (others : Unfolds p (.callers callers) rest) :
      Unfolds p (.callers (c :: callers)) (first ++ rest)

/-- The unfolding does not depend on the kind of history. -/
theorem Unfolds.withMode {model : Model} {d : Detector} {mode : Bool}
    (unfolds : Unfolds ⟨model, d, mode⟩ task nodes) (other : Bool) :
    Unfolds ⟨model, d, other⟩ task nodes := by
  induction unfolds with
  | guarded found => exact .guarded found
  | called unguarded called _ ih => exact .called unguarded called ih
  | done => exact .done
  | next invocation _ _ aboveIH othersIH => exact .next invocation aboveIH othersIH

/-- A search with one history that accepts a task has met every node once, and none before. -/
theorem Runs.unfolds (shared : p.branchLocal = false) {before after : Footprint} {verdict : Bool}
    (run : Runs p task before verdict after) (accepted : verdict = true) :
    ∃ nodes, p.Unfolds task nodes ∧ nodes.Nodup ∧ (∀ t ∈ nodes, t ∉ before.history) ∧
      ∀ t ∈ nodes, t ∈ after.history := by
  induction run with
  | again | uncalled | anomaly | refused => cases accepted
  | @guarded s m before guard new found =>
      refine ⟨[s], .guarded found, by simp, ?_, ?_⟩ <;> simp [new]
  | @called s m before after verdict new unguarded called above ih =>
      obtain ⟨nodes, unfolds, distinct, fresh, met⟩ := ih accepted
      have entered : s ∈ (before.enter s).history := Visited.mem_insert.mpr (Or.inl rfl)
      refine ⟨s :: nodes, .called unguarded called unfolds, ?_, ?_, ?_⟩
      · exact List.nodup_cons.mpr ⟨fun member => fresh s member entered, distinct⟩
      · intro t member
        rcases List.mem_cons.mp member with rfl | later
        · exact new
        · exact fun earlier => fresh t later (Visited.mem_insert.mpr (Or.inr earlier))
      · intro t member
        rcases List.mem_cons.mp member with rfl | later
        · exact above.history_grows t entered
        · exact met t later
  | done => exact ⟨[], .done, by simp⟩
  | @next c callers before middle after verdict invocation first rest firstIH restIH =>
      obtain ⟨firstNodes, firstUnfolds, firstDistinct, firstFresh, firstMet⟩ := firstIH rfl
      obtain ⟨restNodes, restUnfolds, restDistinct, restFresh, restMet⟩ := restIH accepted
      rw [rejoin_shared shared] at restFresh rest
      refine ⟨firstNodes ++ restNodes, .next invocation firstUnfolds restUnfolds, ?_, ?_, ?_⟩
      · refine List.nodup_append.mpr ⟨firstDistinct, restDistinct, ?_⟩
        rintro t inFirst _ inRest rfl
        exact restFresh t inRest (firstMet t inFirst)
      · intro t member
        rcases List.mem_append.mp member with inFirst | inRest
        · exact firstFresh t inFirst
        · exact fun earlier => restFresh t inRest (first.history_grows t earlier)
      · intro t member
        rcases List.mem_append.mp member with inFirst | inRest
        · exact rest.history_grows t (firstMet t inFirst)
        · exact restMet t inRest

/-- Without a repetition nothing is met twice, so both kinds of search accept. -/
theorem Unfolds.accepts (unfolds : p.Unfolds task nodes) (distinct : nodes.Nodup)
    {before after : Footprint} {verdict : Bool} (fresh : ∀ t ∈ nodes, t ∉ before.history)
    (run : Runs p task before verdict after) :
    verdict = true ∧ ∀ t ∈ after.history, t ∈ before.history ∨ t ∈ nodes := by
  induction unfolds generalizing before after verdict with
  | @guarded s m guard found =>
      cases run with
      | again met => exact absurd met (fresh s (by simp))
      | guarded =>
          refine ⟨rfl, fun t member => ?_⟩
          rcases Visited.mem_insert.mp member with rfl | earlier
          · exact Or.inr (by simp)
          · exact Or.inl earlier
      | uncalled _ unguarded | called _ unguarded => simp [unguarded] at found
  | @called s m nodes unguarded called _ ih =>
      obtain ⟨notAbove, distinctAbove⟩ := List.nodup_cons.mp distinct
      cases run with
      | again met => exact absurd met (fresh s (by simp))
      | guarded _ found => simp [unguarded] at found
      | uncalled _ _ alone => exact absurd alone called
      | called _ _ _ above =>
          have freshAbove : ∀ t ∈ nodes, t ∉ (before.enter s).history := by
            intro t member met
            rcases Visited.mem_insert.mp met with rfl | earlier
            · exact notAbove member
            · exact fresh t (List.mem_cons_of_mem s member) earlier
          obtain ⟨accepted, left⟩ := ih distinctAbove freshAbove above
          refine ⟨accepted, fun t member => ?_⟩
          rcases left t member with entered | inAbove
          · rcases Visited.mem_insert.mp entered with rfl | earlier
            · exact Or.inr (by simp)
            · exact Or.inl earlier
          · exact Or.inr (List.mem_cons_of_mem s inAbove)
  | done =>
      cases run with
      | done => exact ⟨rfl, fun t member => Or.inl member⟩
  | @next c callers firstNodes restNodes invocation _ _ firstIH restIH =>
      obtain ⟨firstDistinct, restDistinct, apart⟩ := List.nodup_append.mp distinct
      have firstFresh : ∀ t ∈ firstNodes, t ∉ before.lookAtCaller.history :=
        fun t member => fresh t (List.mem_append.mpr (Or.inl member))
      cases run with
      | anomaly stray => simp [stray] at invocation
      | refused _ first => cases (firstIH firstDistinct firstFresh first).1
      | @next _ _ _ middle _ _ _ first rest =>
          have left := (firstIH firstDistinct firstFresh first).2
          have joined : ∀ t ∈ (p.rejoin before middle).history,
              t ∈ before.history ∨ t ∈ firstNodes :=
            fun t member => (mem_rejoin member).elim Or.inl (left t)
          have restFresh : ∀ t ∈ restNodes, t ∉ (p.rejoin before middle).history := by
            intro t member met
            rcases joined t met with earlier | inFirst
            · exact fresh t (List.mem_append.mpr (Or.inr member)) earlier
            · exact apart t inFirst t member rfl
          obtain ⟨accepted, finished⟩ := restIH restDistinct restFresh rest
          refine ⟨accepted, fun t member => ?_⟩
          rcases finished t member with before | inRest
          · exact (joined t before).imp_right (fun inFirst => List.mem_append.mpr (Or.inl inFirst))
          · exact Or.inr (List.mem_append.mpr (Or.inr inRest))

theorem Unfolds.check (enumerated : p.model.Enumerated) {m : MethodId}
    (unfolds : p.Unfolds (.statement s m) nodes) (distinct : nodes.Nodup) (st : Progress) :
    (p.check s m st).1 = true :=
  (unfolds.accepts distinct (fun t _ => Visited.not_mem_empty t) (check_runs enumerated s m st)).1

/-- With one history for the query, the statements to go through must all be different. -/
theorem check_shared_iff (enumerated : p.model.Enumerated) (shared : p.branchLocal = false)
    (s : StmtId) (m : MethodId) (st : Progress) :
    (p.check s m st).1 = true ↔ ∃ nodes, p.Unfolds (.statement s m) nodes ∧ nodes.Nodup := by
  constructor
  · intro accepted
    obtain ⟨nodes, unfolds, distinct, _⟩ := (check_runs enumerated s m st).unfolds shared accepted
    exact ⟨nodes, unfolds, distinct⟩
  · rintro ⟨nodes, unfolds, distinct⟩
    exact unfolds.check enumerated distinct st

/-- One history for the query never accepts more than one for every branch. -/
theorem check_local_of_shared {model : Model} {d : Detector} (enumerated : model.Enumerated)
    {m : MethodId} {st : Progress}
    (accepted : (Propagator.check ⟨model, d, false⟩ s m st).1 = true) (st' : Progress) :
    (Propagator.check ⟨model, d, true⟩ s m st').1 = true := by
  obtain ⟨nodes, unfolds, distinct⟩ :=
    (check_shared_iff (p := ⟨model, d, false⟩) enumerated rfl s m st).mp accepted
  exact (unfolds.withMode true).check enumerated distinct st'

/-- A way along the callers of `s`. No statement on it has a guard in its own method, the last one
apart. -/
def CallerPath (p : Propagator) (s : StmtId) (path : List StmtId) : Prop :=
  path.head? = some s ∧ path.IsChain fun t c =>
    p.detector.guard? t (p.model.enclosing t) = none ∧ c ∈ p.callersAt t

theorem callerPath_single (p : Propagator) (s : StmtId) : p.CallerPath s [s] :=
  ⟨rfl, .singleton s⟩

theorem callerPath_cons {path : List StmtId}
    (unguarded : p.detector.guard? s (p.model.enclosing s) = none) (caller : c ∈ p.callersAt s)
    (above : p.CallerPath c path) : p.CallerPath s (s :: path) := by
  refine ⟨rfl, above.2.cons ?_⟩
  intro next head
  rw [above.1] at head
  cases head
  exact ⟨unguarded, caller⟩

theorem CallerPath.cases {path : List StmtId} (way : p.CallerPath s path) :
    path = [s] ∨ ∃ above, path = s :: above ∧
      p.detector.guard? s (p.model.enclosing s) = none ∧
        ∃ c ∈ p.callersAt s, p.CallerPath c above := by
  obtain ⟨starts, linked⟩ := way
  cases linked with
  | nil => cases starts
  | singleton t =>
      cases starts
      exact Or.inl rfl
  | cons_cons related rest =>
      cases starts
      exact Or.inr ⟨_, rfl, related.1, _, related.2, rfl, rest⟩

theorem CallerPath.last_cons {path : List StmtId} (way : p.CallerPath c path) :
    (s :: path).getLast? = path.getLast? := by
  cases path with
  | nil => cases way.1
  | cons first rest => exact List.getLast?_cons_cons

/-- The ways of a task: from its statement, or from one of its callers. -/
def TaskPath (p : Propagator) : Task → List StmtId → Prop
  | .statement s _, path => p.CallerPath s path
  | .callers callers, path => ∃ c ∈ callers, p.CallerPath c path

/-- The method of a task is the one that its statement lies in. -/
def Aligned (p : Propagator) : Task → Prop
  | .statement s m => m = p.model.enclosing s
  | .callers _ => True

/-- A statement unfolds into the ends of its ways. -/
theorem Unfolds.mem_iff (unfolds : p.Unfolds task nodes) (aligned : p.Aligned task) :
    t ∈ nodes ↔ ∃ path, p.TaskPath task path ∧ path.getLast? = some t := by
  induction unfolds with
  | @guarded s m guard found =>
      cases aligned
      constructor
      · intro member
        cases List.mem_singleton.mp member
        exact ⟨[t], p.callerPath_single t, rfl⟩
      · rintro ⟨path, way, ends⟩
        rcases way.cases with rfl | ⟨above, _, unguarded, _⟩
        · simpa [eq_comm] using ends
        · simp [unguarded] at found
  | @called s m nodes unguarded _ _ ih =>
      cases aligned
      rw [List.mem_cons, ih trivial]
      constructor
      · rintro (rfl | ⟨path, ⟨c, caller, way⟩, ends⟩)
        · exact ⟨[t], p.callerPath_single t, rfl⟩
        · exact ⟨s :: path, callerPath_cons unguarded caller way, way.last_cons.trans ends⟩
      · rintro ⟨path, way, ends⟩
        rcases way.cases with rfl | ⟨above, rfl, _, c, caller, rest⟩
        · exact Or.inl (by simpa [eq_comm] using ends)
        · exact Or.inr ⟨above, ⟨c, caller, rest⟩, rest.last_cons.symm.trans ends⟩
  | done => simp [TaskPath]
  | @next c callers first rest _ _ _ aboveIH othersIH =>
      rw [List.mem_append, aboveIH rfl, othersIH trivial]
      constructor
      · rintro (⟨path, way, ends⟩ | ⟨path, ⟨d, member, way⟩, ends⟩)
        · exact ⟨path, ⟨c, List.mem_cons_self, way⟩, ends⟩
        · exact ⟨path, ⟨d, List.mem_cons_of_mem c member, way⟩, ends⟩
      · rintro ⟨path, ⟨d, member, way⟩, ends⟩
        rcases List.mem_cons.mp member with rfl | later
        · exact Or.inl ⟨path, way, ends⟩
        · exact Or.inr ⟨path, ⟨d, later, way⟩, ends⟩

/-- Ways that end in the same statement are the same. -/
def UniqueEnds (p : Propagator) (task : Task) : Prop :=
  ∀ q r, p.TaskPath task q → p.TaskPath task r → q.getLast? = r.getLast? → q = r

theorem TaskPath.last_exists {path : List StmtId} (way : p.TaskPath task path) :
    ∃ last, path.getLast? = some last := by
  have nonempty : path ≠ [] := by
    rintro rfl
    cases task with
    | statement s m => cases way.1
    | callers callers =>
        obtain ⟨c, _, fromCaller⟩ := way
        cases fromCaller.1
  exact ⟨_, List.getLast?_eq_some_getLast nonempty⟩

theorem Unfolds.uniqueEnds (unfolds : p.Unfolds task nodes) (aligned : p.Aligned task)
    (distinct : nodes.Nodup) : p.UniqueEnds task := by
  induction unfolds with
  | @guarded s m guard found =>
      cases aligned
      have only {path : List StmtId} (way : p.CallerPath s path) : path = [s] := by
        rcases way.cases with single | ⟨above, _, unguarded, _⟩
        · exact single
        · simp [unguarded] at found
      intro q r left right _
      exact (only left).trans (only right).symm
  | @called s m nodes unguarded _ above ih =>
      cases aligned
      obtain ⟨notAbove, distinctAbove⟩ := List.nodup_cons.mp distinct
      -- A way that comes back to `s` would list `s` among the nodes above it.
      have noReturn {c : StmtId} {path : List StmtId} (caller : c ∈ p.callersAt s)
          (way : p.CallerPath c path) : path.getLast? ≠ some s :=
        fun ends => notAbove ((above.mem_iff trivial).mpr ⟨path, ⟨c, caller, way⟩, ends⟩)
      intro q r left right ends
      rcases CallerPath.cases left with rfl | ⟨leftAbove, rfl, _, c, leftCaller, leftWay⟩ <;>
        rcases CallerPath.cases right with rfl | ⟨rightAbove, rfl, _, d, rightCaller, rightWay⟩
      · rfl
      · exact absurd (rightWay.last_cons.symm.trans ends.symm) (noReturn rightCaller rightWay)
      · exact absurd (leftWay.last_cons.symm.trans ends) (noReturn leftCaller leftWay)
      · rw [leftWay.last_cons, rightWay.last_cons] at ends
        rw [ih trivial distinctAbove leftAbove rightAbove ⟨c, leftCaller, leftWay⟩
          ⟨d, rightCaller, rightWay⟩ ends]
  | done =>
      rintro q r ⟨c, member, _⟩
      cases member
  | @next c callers first rest _ above others aboveIH othersIH =>
      obtain ⟨firstDistinct, restDistinct, apart⟩ := List.nodup_append.mp distinct
      have noMeeting {q r : List StmtId} (left : p.CallerPath c q)
          (right : p.TaskPath (.callers callers) r) : q.getLast? ≠ r.getLast? := by
        intro ends
        obtain ⟨last, final⟩ := right.last_exists
        have inFirst := (above.mem_iff rfl).mpr ⟨q, left, ends.trans final⟩
        have inRest := (others.mem_iff trivial).mpr ⟨r, right, final⟩
        exact apart last inFirst last inRest rfl
      rintro q r ⟨d, leftMember, left⟩ ⟨e, rightMember, right⟩ ends
      rcases List.mem_cons.mp leftMember with rfl | leftLater <;>
        rcases List.mem_cons.mp rightMember with rfl | rightLater
      · exact aboveIH rfl firstDistinct q r left right ends
      · exact absurd ends (noMeeting left ⟨e, rightLater, right⟩)
      · exact absurd ends.symm (noMeeting right ⟨d, leftLater, left⟩)
      · exact othersIH trivial restDistinct q r ⟨d, leftLater, left⟩ ⟨e, rightLater, right⟩ ends

def DistinctCallers : Task → Prop
  | .statement _ _ => True
  | .callers callers => callers.Nodup

theorem Unfolds.distinct (callersDistinct : ∀ m, (p.model.callersOf m).Nodup)
    (unfolds : p.Unfolds task nodes) (aligned : p.Aligned task)
    (separate : DistinctCallers task) (unique : p.UniqueEnds task) : nodes.Nodup := by
  induction unfolds with
  | guarded => simp
  | @called s m nodes unguarded _ above ih =>
      cases aligned
      refine List.nodup_cons.mpr ⟨?_, ih trivial (callersDistinct _) ?_⟩
      · intro member
        obtain ⟨path, ⟨c, caller, way⟩, ends⟩ := (above.mem_iff trivial).mp member
        have same := unique [s] (s :: path) (p.callerPath_single s)
          (callerPath_cons unguarded caller way) (way.last_cons.trans ends).symm
        cases path with
        | nil => cases way.1
        | cons first rest => cases same
      · rintro q r ⟨c, leftCaller, left⟩ ⟨d, rightCaller, right⟩ ends
        have same := unique (s :: q) (s :: r) (callerPath_cons unguarded leftCaller left)
          (callerPath_cons unguarded rightCaller right)
          (left.last_cons.trans (ends.trans right.last_cons.symm))
        exact (List.cons.inj same).2
  | done => exact List.nodup_nil
  | @next c callers first rest _ above others aboveIH othersIH =>
      obtain ⟨notLater, laterDistinct⟩ := List.nodup_cons.mp separate
      refine List.nodup_append.mpr ⟨aboveIH rfl trivial ?_, othersIH trivial laterDistinct ?_, ?_⟩
      · intro q r left right ends
        exact unique q r ⟨c, List.mem_cons_self, left⟩ ⟨c, List.mem_cons_self, right⟩ ends
      · rintro q r ⟨d, leftLater, left⟩ ⟨e, rightLater, right⟩ ends
        exact unique q r ⟨d, List.mem_cons_of_mem c leftLater, left⟩
          ⟨e, List.mem_cons_of_mem c rightLater, right⟩ ends
      · rintro t inFirst _ inRest rfl
        obtain ⟨q, left, leftEnds⟩ := (above.mem_iff rfl).mp inFirst
        obtain ⟨r, ⟨d, later, right⟩, rightEnds⟩ := (others.mem_iff trivial).mp inRest
        have same := unique q r ⟨c, List.mem_cons_self, left⟩
          ⟨d, List.mem_cons_of_mem c later, right⟩ (leftEnds.trans rightEnds.symm)
        -- Ways from different callers differ in their first statement.
        subst r
        cases left.1.symm.trans right.1
        exact notLater later

theorem Unfolds.of_caller {callers : List StmtId} (unfolds : p.Unfolds (.callers callers) nodes)
    (member : c ∈ callers) : p.isInvocation c = true ∧
      ∃ above, p.Unfolds (.statement c (p.model.enclosing c)) above ∧ above.Sublist nodes := by
  induction callers generalizing nodes with
  | nil => cases member
  | cons first callers ih =>
      cases unfolds with
      | @next _ _ firstNodes restNodes invocation above others =>
          rcases List.mem_cons.mp member with rfl | later
          · exact ⟨invocation, firstNodes, above, List.sublist_append_left firstNodes restNodes⟩
          · obtain ⟨invocation, nodes, unfolds, within⟩ := ih others later
            exact ⟨invocation, nodes, unfolds,
              within.trans (List.sublist_append_right firstNodes restNodes)⟩

theorem unfolds_callers {callers : List StmtId}
    (each : ∀ c ∈ callers, p.isInvocation c = true ∧
      ∃ nodes, p.Unfolds (.statement c (p.model.enclosing c)) nodes) :
    ∃ nodes, p.Unfolds (.callers callers) nodes := by
  induction callers with
  | nil => exact ⟨[], .done⟩
  | cons c callers ih =>
      obtain ⟨invocation, first, above⟩ := each c List.mem_cons_self
      obtain ⟨rest, others⟩ := ih fun d member => each d (List.mem_cons_of_mem c member)
      exact ⟨first ++ rest, .next invocation above others⟩

theorem Covered.unfolds (covered : p.Covered s) :
    ∃ nodes, p.Unfolds (.statement s (p.model.enclosing s)) nodes := by
  induction covered with
  | guarded found =>
      obtain ⟨guard, isGuard⟩ := Option.isSome_iff_exists.mp found
      exact ⟨_, .guarded isGuard⟩
  | @called s called invocations _ ih =>
      cases isLocal : p.detector.guard? s (p.model.enclosing s) with
      | some guard => exact ⟨_, .guarded isLocal⟩
      | none =>
          obtain ⟨nodes, above⟩ :=
            unfolds_callers fun c caller => ⟨invocations c caller, ih c caller⟩
          exact ⟨_, .called isLocal called above⟩

/-- The gap between the two kinds of history: a statement that two ways lead back to. -/
theorem check_shared_iff_local {model : Model} {d : Detector} (enumerated : model.Enumerated)
    (callersDistinct : ∀ m, (model.callersOf m).Nodup) (s : StmtId) (st st' : Progress) :
    (Propagator.check ⟨model, d, false⟩ s (model.enclosing s) st).1 = true ↔
      (Propagator.check ⟨model, d, true⟩ s (model.enclosing s) st').1 = true ∧
        ∀ q r, CallerPath ⟨model, d, false⟩ s q → CallerPath ⟨model, d, false⟩ s r →
          q.getLast? = r.getLast? → q = r := by
  constructor
  · intro accepted
    obtain ⟨nodes, unfolds, distinct⟩ :=
      (check_shared_iff (p := ⟨model, d, false⟩) enumerated rfl _ _ st).mp accepted
    exact ⟨check_local_of_shared enumerated accepted st', unfolds.uniqueEnds rfl distinct⟩
  · rintro ⟨accepted, unique⟩
    obtain ⟨nodes, unfolds⟩ := Covered.unfolds
      ((check_eq_true_iff_covered (p := ⟨model, d, true⟩) enumerated rfl s st').mp accepted)
    have shared := unfolds.withMode false
    exact shared.check enumerated (shared.distinct callersDistinct rfl trivial unique) st

/-- The method is called, only by invocations and only where a query of its own finds guards. -/
def CalledGuarded (p : Propagator) (m : MethodId) : Prop :=
  p.model.callersOf m ≠ [] ∧ ∀ c ∈ p.model.callersOf m,
    p.isInvocation c = true ∧ (p.check c (p.model.enclosing c) {}).1 = true

/-- Without a guard in its own method, a statement is guarded by its callers alone. With one history
for the query the ways along these callers must not meet. -/
theorem check_unguarded_iff (enumerated : p.model.Enumerated)
    (callersDistinct : ∀ m, (p.model.callersOf m).Nodup)
    (unguarded : p.detector.guard? s (p.model.enclosing s) = none) (st : Progress) :
    (p.check s (p.model.enclosing s) st).1 = true ↔
      p.CalledGuarded (p.model.enclosing s) ∧
        (p.branchLocal = false → p.UniqueEnds (.statement s (p.model.enclosing s))) := by
  obtain ⟨model, d, mode⟩ := p
  have covers (c : StmtId) := check_eq_true_iff_covered (p := ⟨model, d, true⟩) enumerated rfl c {}
  cases mode with
  | true =>
      rw [check_eq_true_iff_covered enumerated rfl s st]
      constructor
      · intro covered
        cases covered with
        | guarded found => simp [unguarded] at found
        | called called invocations above =>
            exact ⟨⟨called, fun c caller => ⟨invocations c caller, (covers c).mpr (above c caller)⟩⟩,
              fun shared => nomatch shared⟩
      · rintro ⟨⟨called, guarded⟩, _⟩
        exact .called called (fun c caller => (guarded c caller).1)
          fun c caller => (covers c).mp (guarded c caller).2
  | false =>
      constructor
      · intro accepted
        refine ⟨?_, fun _ =>
          ((check_shared_iff_local enumerated callersDistinct s st {}).mp accepted).2⟩
        obtain ⟨nodes, unfolds, distinct⟩ :=
          (check_shared_iff (p := ⟨model, d, false⟩) enumerated rfl _ _ st).mp accepted
        cases unfolds with
        | guarded found => simp [unguarded] at found
        | called _ called above =>
            refine ⟨called, fun c caller => ?_⟩
            obtain ⟨invocation, sub, unfolds, within⟩ := above.of_caller caller
            have separate := (List.nodup_cons.mp distinct).2.sublist within
            exact ⟨invocation, unfolds.check enumerated separate {}⟩
      · rintro ⟨⟨called, guarded⟩, unique⟩
        refine (check_shared_iff_local enumerated callersDistinct s st {}).mpr ⟨?_, unique rfl⟩
        refine (covers s).mpr (.called called (fun c caller => (guarded c caller).1) ?_)
        intro c caller
        exact (covers c).mp (check_local_of_shared enumerated (guarded c caller).2 {})

end PermissionGuard.Propagator
