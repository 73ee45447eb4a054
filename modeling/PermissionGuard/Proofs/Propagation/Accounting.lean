import PermissionGuard.Proofs.Propagation.RecursionBreaks

/-!
What a propagator counts. Its counts and the histories that it is given are told after any requests:
the statements that it visited are those it was asked for and the callers that it did not refuse,
and a request fails in one place at most, since a search stops where it fails.
-/

namespace PermissionGuard

/-- The places where searches failed, other than at a method without callers. -/
def Stats.failures (stats : Stats) : Nat := stats.recursionBreaks + stats.anomalies

/-- A question to a propagator. A history comes with it unless the question is a query of its
own. -/
inductive Request where
  | check (s : StmtId) (m : MethodId)
  | isGuarded (s : StmtId) (m : MethodId) (history : History)

namespace Request

def isCheck : Request → Bool
  | .check _ _ => true
  | .isGuarded _ _ _ => false

def statement : Request → StmtId
  | .check s _ => s
  | .isGuarded s _ _ => s

def method : Request → MethodId
  | .check _ m => m
  | .isGuarded _ m _ => m

def history : Request → History
  | .check _ _ => Visited.empty
  | .isGuarded _ _ history => history

/-- Where the search for a request starts. -/
def start (request : Request) (stats : Stats) : Footprint where
  history := request.history
  stats := { stats with queries := stats.queries + if request.isCheck then 1 else 0 }

end Request

/-- The history that a task was given when it is done, where the callers have their own. -/
def Task.entered : Task → History → History
  | .statement s _, history => history.insert s
  | .callers _, history => history

namespace Propagator

variable {p : Propagator} {task : Task} {before after : Footprint} {verdict : Bool}

/-- The counts and the log are kept from one request to the next, a history is not. -/
def answer (p : Propagator) (st : Progress) : Request → Bool × Progress
  | .check s m => p.check s m st
  | .isGuarded s m history => p.isGuarded s m { st with history := history }

/-- A new propagator after some requests. -/
def answerAll (p : Propagator) (requests : List Request) : Progress :=
  requests.foldl (fun st request => (p.answer st request).2) {}

theorem answer_runs (enumerated : p.model.Enumerated) (st : Progress) (request : Request) :
    Runs p (.statement request.statement request.method) (request.start st.stats)
      (p.answer st request).1 (p.answer st request).2.footprint := by
  cases request with
  | check s m => exact check_runs enumerated s m st
  | isGuarded s m history => exact isGuarded_runs enumerated s m { st with history := history }

/-! ### Counts -/

/-- Every caller that is looked at is searched in its turn or refused. -/
theorem Runs.visits (run : Runs p task before verdict after) :
    after.stats.visits + after.stats.anomalies + before.stats.callerVisits =
      before.stats.visits + before.stats.anomalies + after.stats.callerVisits +
        task.statements.length := by
  induction run with
  | again | guarded | uncalled | done | anomaly => simp [Task.statements] <;> omega
  | called _ _ _ _ ih =>
      simp only [Footprint.enter_stats, Task.statements, List.length] at ih ⊢
      omega
  | refused _ _ ih =>
      simp only [Footprint.lookAtCaller_stats, rejoin_stats, Task.statements, List.length] at ih ⊢
      omega
  | next _ _ _ firstIH restIH =>
      simp only [Footprint.lookAtCaller_stats, rejoin_stats, Task.statements, List.length]
        at firstIH restIH ⊢
      omega

/-- A failure is the last thing that happens in a search, so there is one at most, and the search
does not succeed. -/
theorem Runs.failures (run : Runs p task before verdict after) :
    before.stats.failures ≤ after.stats.failures ∧
      after.stats.failures ≤ before.stats.failures + (!verdict).toNat := by
  induction run with
  | again | guarded | uncalled | done | anomaly => simp [Stats.failures] <;> omega
  | called _ _ _ _ ih | refused _ _ ih => simpa [Stats.failures] using ih
  | next _ _ _ firstIH restIH =>
      simp only [Stats.failures, Footprint.lookAtCaller_stats, rejoin_stats, Bool.not_true,
        Bool.toNat_false] at firstIH restIH ⊢
      omega

/-! ### Histories -/

/-- A shared history takes up every statement that is visited unless it is met again. -/
theorem Runs.gains (shared : p.branchLocal = false) (run : Runs p task before verdict after) :
    ∃ count, before.history.Gains count after.history ∧
      count + after.stats.recursionBreaks + before.stats.visits =
        after.stats.visits + before.stats.recursionBreaks := by
  induction run with
  | again => exact ⟨0, .refl _, by simp; omega⟩
  | guarded new | uncalled new => exact ⟨1, .insert new, by simp; omega⟩
  | called new _ _ _ ih =>
      obtain ⟨count, gains, balance⟩ := ih
      simp only [Footprint.enter_stats] at balance
      exact ⟨1 + count, (Visited.Gains.insert new).trans gains, by omega⟩
  | done | anomaly => exact ⟨0, .refl _, by simp; omega⟩
  | refused _ _ ih =>
      rw [rejoin_shared shared]
      exact ih
  | next _ _ _ firstIH restIH =>
      rw [rejoin_shared shared] at restIH
      obtain ⟨early, gains, balance⟩ := firstIH
      obtain ⟨late, gains', balance'⟩ := restIH
      simp only [Footprint.lookAtCaller_stats] at balance
      exact ⟨early + late, gains.trans gains', by omega⟩

theorem Runs.history_local (isLocal : p.branchLocal = true)
    (run : Runs p task before verdict after) : after.history = task.entered before.history := by
  induction run with
  | again met => exact (Visited.insert_of_mem met).symm
  | guarded | uncalled | done | anomaly => rfl
  | called _ _ _ _ ih => exact ih
  | refused => exact rejoin_history_local isLocal _ _
  | next _ _ _ _ restIH => exact restIH.trans (rejoin_history_local isLocal _ _)

/-! ### Any number of requests -/

/-- The counts of a propagator that had some requests to answer. -/
structure Accounted (requests : List Request) (stats : Stats) : Prop where
  queries : stats.queries = requests.countP Request.isCheck
  visits : stats.visits + stats.anomalies = requests.length + stats.callerVisits

theorem Accounted.answer {requests : List Request} {st : Progress}
    (accounted : Accounted requests st.stats) (enumerated : p.model.Enumerated)
    (request : Request) : Accounted (requests ++ [request]) (p.answer st request).2.stats := by
  have run := answer_runs enumerated st request
  have queries := run.queries
  have visits := run.visits
  simp only [Request.start, Progress.footprint, Task.statements, List.length_singleton]
    at queries visits
  have earlier := accounted.visits
  exact {
    queries := by simp [queries, accounted.queries, List.countP_append]
    visits := by
      rw [List.length_append, List.length_singleton]
      omega }

theorem answerAll_accounted (enumerated : p.model.Enumerated) (requests : List Request) :
    Accounted requests (p.answerAll requests).stats := by
  induction requests using List.reverseRecOn with
  | nil => exact ⟨rfl, rfl⟩
  | append_singleton requests request ih =>
      simpa only [answerAll, List.foldl_append, List.foldl_cons, List.foldl_nil] using
        ih.answer enumerated request

/-- After any requests, one more keeps the counts and does to its history what the mode says. -/
theorem requests_accounted (enumerated : p.model.Enumerated) (requests : List Request)
    (request : Request) :
    let before := (p.answerAll requests).stats
    let verdict := (p.answer (p.answerAll requests) request).1
    let after := (p.answer (p.answerAll requests) request).2.stats
    let history := (p.answer (p.answerAll requests) request).2.history
    Accounted (requests ++ [request]) after ∧
      before.failures ≤ after.failures ∧ after.failures ≤ before.failures + 1 ∧
      (verdict = true → after.failures = before.failures) ∧
      (p.branchLocal = false → ∃ count, request.history.Gains count history ∧
        count + after.recursionBreaks + before.visits =
          after.visits + before.recursionBreaks) ∧
      (p.branchLocal = true → history = request.history.insert request.statement) := by
  intro before verdict after history
  have accounted : Accounted (requests ++ [request]) after :=
    (answerAll_accounted enumerated requests).answer enumerated request
  have run := answer_runs enumerated (p.answerAll requests) request
  have failed : before.failures ≤ after.failures ∧
      after.failures ≤ before.failures + (!verdict).toNat := run.failures
  have once := Bool.toNat_le (!verdict)
  have accepted (yes : verdict = true) : after.failures = before.failures := by
    simp only [yes, Bool.not_true, Bool.toNat_false] at failed
    omega
  exact ⟨accounted, failed.1, by omega, accepted, run.gains, run.history_local⟩

theorem requests_accounted_mutual :
    let p : Propagator :=
      ⟨mutualCallArena.model, Detector.ofConfig mutualCallArena.model Config.default, true⟩
    let met : History := Visited.empty.insert 7
    let answer := p.answer (p.answerAll [.check 0 0, .check 1 1]) (.isGuarded 1 1 met)
    p.model.Enumerated ∧ answer.2.stats.queries = 2 ∧
      answer.2.stats.visits + answer.2.stats.anomalies = 3 + answer.2.stats.callerVisits ∧
      answer.2.history = met.insert 1 := by
  intro p met answer
  have enumerated : p.model.Enumerated := mutualCallArena.model_enumerated
  obtain ⟨accounted, _, _, _, _, given⟩ :=
    requests_accounted enumerated [.check 0 0, .check 1 1] (.isGuarded 1 1 met)
  exact ⟨enumerated, accounted.queries, accounted.visits, given rfl⟩

end Propagator

end PermissionGuard
