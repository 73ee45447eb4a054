import Mathlib.Data.List.Dedup
import Mathlib.Data.List.Perm.Subperm
import PermissionGuard.Proofs.Propagation.RecursionBreaks

/-!
How deep a search nests. The statements that a search is nested in were new to the history when they
were searched, so there are no more of them than statements of the program and the first one. A
budget fails exactly where the nesting outgrows it (`searchWithin_eq_none_iff`), and an answer stays
as it is with every larger budget (`search_terminates`).
-/

namespace PermissionGuard

/-- The statements that a program knows, each of them once. -/
def Model.knownIds (model : Model) : List StmtId :=
  (model.statementIds.filter fun s => (model.statement? s).isSome).dedup

theorem Model.length_knownIds_le (model : Model) :
    model.knownIds.length ≤ model.statementIds.length :=
  (List.dedup_sublist _).length_le.trans (List.length_filter_le _ _)

theorem Model.Enumerated.mem_knownIds {model : Model} (enumerated : model.Enumerated)
    {s : StmtId} : s ∈ model.knownIds ↔ ∃ st, model.statement? s = some st := by
  rw [Model.knownIds, List.mem_dedup, List.mem_filter, Option.isSome_iff_exists]
  exact ⟨And.right, fun known => ⟨known.elim (enumerated s), known⟩⟩

namespace Propagator

variable {p : Propagator} {s t u c : StmtId} {m : MethodId} {task : Task} {st : Progress}
variable {path callers : List StmtId} {met inner : History} {budget depth : Nat}

/-! ### The statements on the way -/

theorem isInvocation_known (enumerated : p.model.Enumerated)
    (invocation : p.isInvocation c = true) : c ∈ p.model.knownIds := by
  obtain ⟨st, known, _⟩ := (Option.any_eq_true _ _).mp invocation
  exact enumerated.mem_knownIds.mpr ⟨st, known⟩

theorem Nested.distinct (nested : p.Nested task met path t inner) :
    path.Nodup ∧ ∀ u ∈ path, u ∉ met := by
  induction nested with
  | here => simp
  | @above s t m met inner path new _ _ ih =>
      obtain ⟨distinct, outside⟩ := ih
      have apart (u : StmtId) (member : u ∈ path) : u ≠ s ∧ u ∉ met := by
        simpa using outside u member
      have fresh : s ∉ path := fun member => (apart s member).1 rfl
      exact ⟨List.nodup_cons.mpr ⟨fresh, distinct⟩,
        List.forall_mem_cons.mpr ⟨new, fun u member => (apart u member).2⟩⟩
  | first _ _ ih => exact ih
  | next _ start accepted _ ih =>
      obtain ⟨distinct, outside⟩ := ih
      exact ⟨distinct, fun u member before =>
        outside u member (mem_rejoin_of_mem accepted.history_grows (start ▸ before))⟩

/-- On the way to a search there is nothing but callers below its first statement. -/
theorem Nested.known (enumerated : p.model.Enumerated) (nested : p.Nested task met path t inner) :
    ∀ u ∈ path, u ∈ task.statements ++ p.model.knownIds := by
  induction nested with
  | here => simp
  | above _ _ _ ih =>
      exact List.forall_mem_cons.mpr ⟨List.mem_cons_self, fun u member =>
        List.mem_cons_of_mem _ (ih u member)⟩
  | first invocation _ ih =>
      have caller := isInvocation_known enumerated invocation
      intro u member
      cases List.mem_cons.mp (ih u member) with
      | inl same => exact same ▸ caller
      | inr known => exact known
  | next _ _ _ _ ih => exact ih

theorem Nested.length_le (enumerated : p.model.Enumerated)
    (nested : p.Nested (.statement s m) met path t inner) :
    path.length ≤ p.model.knownIds.length + 1 :=
  have way : path ⊆ s :: p.model.knownIds := nested.known enumerated
  (List.subperm_of_subset nested.distinct.1 way).length_le

/-! ### Budgets -/

/-- A task is nested down below at least so many statements. -/
def NestsBelow (p : Propagator) (task : Task) (met : History) (depth : Nat) : Prop :=
  ∃ path t inner, p.Nested task met path t inner ∧ depth ≤ path.length

theorem nestsBelow_zero : p.NestsBelow (.statement s m) met 0 :=
  ⟨[], s, met, .here, Nat.zero_le _⟩

theorem not_nestsBelow_met (found : s ∈ met) : ¬ p.NestsBelow (.statement s m) met (depth + 1) := by
  intro below
  obtain ⟨path, t, inner, nested, deep⟩ := below
  cases nested with
  | here => simp at deep
  | above new => exact new found

theorem nestsBelow_statement (new : s ∉ met) : p.NestsBelow (.statement s m) met (depth + 1) ↔
    p.detector.guard? s m = none ∧
      p.NestsBelow (.callers (p.model.callersOf m)) (met.insert s) depth := by
  constructor
  · intro below
    obtain ⟨path, t, inner, nested, deep⟩ := below
    cases nested with
    | here => simp at deep
    | above _ unguarded nested =>
        exact ⟨unguarded, _, _, _, nested, Nat.le_of_succ_le_succ deep⟩
  · intro both
    obtain ⟨unguarded, path, t, inner, nested, deep⟩ := both
    exact ⟨s :: path, t, inner, .above new unguarded nested, Nat.succ_le_succ deep⟩

theorem not_nestsBelow_nil : ¬ p.NestsBelow (.callers []) met depth := by
  simp [NestsBelow, not_nested_nil]

theorem not_nestsBelow_stray (stray : p.isInvocation c = false) :
    ¬ p.NestsBelow (.callers (c :: callers)) met depth := by
  simp [NestsBelow, not_nested_stray stray]

section

variable {before after middle : Footprint}

theorem nestsBelow_refused (invocation : p.isInvocation c = true)
    (refused : Runs p (.statement c (p.model.enclosing c)) before.lookAtCaller false after) :
    p.NestsBelow (.callers (c :: callers)) before.history depth ↔
      p.NestsBelow (.statement c (p.model.enclosing c)) before.history depth := by
  simp only [NestsBelow, nested_refused invocation refused]

theorem nestsBelow_accepted (invocation : p.isInvocation c = true)
    (accepted : Runs p (.statement c (p.model.enclosing c)) before.lookAtCaller true middle) :
    p.NestsBelow (.callers (c :: callers)) before.history depth ↔
      p.NestsBelow (.statement c (p.model.enclosing c)) before.history depth ∨
        p.NestsBelow (.callers callers) (p.rejoin before middle).history depth := by
  simp only [NestsBelow, nested_accepted invocation accepted, or_and_right, exists_or]

end

/-- Behind an accepted caller that does not nest so deep, only the other callers count. -/
theorem nestsBelow_onward {left : Progress} (invocation : p.isInvocation c = true)
    (accepted : Runs p (.statement c (p.model.enclosing c)) st.footprint.lookAtCaller true
      left.footprint)
    (shallow : ¬ p.NestsBelow (.statement c (p.model.enclosing c)) st.history depth) :
    p.NestsBelow (.callers (c :: callers)) st.history depth ↔
      p.NestsBelow (.callers callers)
        (if p.branchLocal then { left with history := st.history } else left).history depth := by
  have joined := congrArg Footprint.history (rejoin_footprint (p := p) st left)
  have onward : p.NestsBelow (.callers (c :: callers)) st.history depth ↔
      p.NestsBelow (.callers callers) (p.rejoin st.footprint left.footprint).history depth :=
    (nestsBelow_accepted invocation accepted).trans (or_iff_right shallow)
  rw [onward, ← joined]
  rfl

theorem searchCallers_eq_none_iff
    (unanswered : ∀ {s m st}, p.searchWithin budget s m st = none ↔
      p.NestsBelow (.statement s m) st.history budget) :
    p.searchCallers m (p.searchWithin budget) callers st = none ↔
      p.NestsBelow (.callers callers) st.history budget := by
  induction callers generalizing st with
  | nil => simp [searchCallers, not_nestsBelow_nil]
  | cons c callers ih =>
      cases invocation : p.isInvocation c with
      | false => simp [searchCallers, invocation, not_nestsBelow_stray invocation]
      | true =>
          let looking : Progress := { st with stats.callerVisits := st.stats.callerVisits + 1 }
          have first : p.searchWithin budget c (p.model.enclosing c) looking = none ↔
              p.NestsBelow (.statement c (p.model.enclosing c)) st.history budget := unanswered
          cases found : p.searchWithin budget c (p.model.enclosing c) looking with
          | none =>
              obtain ⟨path, t, inner, nested, deep⟩ := first.mp found
              have below : p.NestsBelow (.callers (c :: callers)) st.history budget :=
                ⟨path, t, inner, .first invocation nested, deep⟩
              simpa only [searchCallers, invocation, if_true, found, looking, true_iff] using below
          | some answer =>
              obtain ⟨isGuarded, left⟩ := answer
              have run : Runs p _ st.footprint.lookAtCaller isGuarded left.footprint :=
                searchWithin_runs found
              have shallow :
                  ¬ p.NestsBelow (.statement c (p.model.enclosing c)) st.history budget :=
                fun below => by simp [first.mpr below] at found
              cases isGuarded with
              | false =>
                  have settled : ¬ p.NestsBelow (.callers (c :: callers)) st.history budget :=
                    (nestsBelow_refused invocation run).not.mpr shallow
                  simpa [searchCallers, invocation, found, looking] using settled
              | true =>
                  rw [nestsBelow_onward invocation run shallow, ← ih]
                  simp only [searchCallers, invocation, if_true, found, looking]

theorem searchWithin_eq_none_iff : p.searchWithin budget s m st = none ↔
    p.NestsBelow (.statement s m) st.history budget := by
  induction budget generalizing s m st with
  | zero => simp [searchWithin, nestsBelow_zero]
  | succ budget ih =>
      simp only [searchWithin]
      split
      · rename_i met
        simp [not_nestsBelow_met ((Visited.contains_iff _ _).mp met)]
      · rename_i unmet
        have new : s ∉ st.history := fun met => unmet ((Visited.contains_iff _ _).mpr met)
        rw [nestsBelow_statement new]
        split
        · rename_i found
          simp [found]
        · rename_i unguarded
          split
          · rename_i alone
            simp [alone, not_nestsBelow_nil]
          · simpa [unguarded] using searchCallers_eq_none_iff ih

theorem searchCallers_extends
    {search search' : StmtId → MethodId → Progress → Option (Bool × Progress)}
    {answer : Bool × Progress}
    (larger : ∀ {s m st answer}, search s m st = some answer → search' s m st = some answer)
    (answered : p.searchCallers m search callers st = some answer) :
    p.searchCallers m search' callers st = some answer := by
  induction callers generalizing st with
  | nil => exact answered
  | cons c callers ih =>
      cases invocation : p.isInvocation c with
      | false => simpa [searchCallers, invocation] using answered
      | true =>
          simp only [searchCallers, invocation, if_true] at answered ⊢
          split at answered
          · cases answered
          · rename_i isGuarded left found
            rw [larger found]
            cases isGuarded with
            | true => exact ih answered
            | false => exact answered

theorem searchWithin_succ {answer : Bool × Progress}
    (answered : p.searchWithin budget s m st = some answer) :
    p.searchWithin (budget + 1) s m st = some answer := by
  induction budget generalizing s m st answer with
  | zero => cases answered
  | succ budget ih =>
      rw [searchWithin] at answered ⊢
      split at answered
      · rename_i met
        rw [if_pos met]
        exact answered
      · rename_i unmet
        rw [if_neg unmet]
        split at answered
        · exact answered
        · split at answered
          · exact answered
          · exact searchCallers_extends ih answered

theorem searchWithin_mono {answer : Bool × Progress} {larger : Nat} (le : budget ≤ larger)
    (answered : p.searchWithin budget s m st = some answer) :
    p.searchWithin larger s m st = some answer := by
  induction le with
  | refl => exact answered
  | step _ ih => exact searchWithin_succ ih

/-- The statements that a search is nested in are different and new to its history, a budget is too
small exactly if that many statements are on the way, and all that exceed the number of statements
by two give one answer. -/
theorem search_terminates (enumerated : p.model.Enumerated) (s : StmtId) (m : MethodId)
    (st : Progress) :
    (∀ path t inner, p.Nested (.statement s m) st.history path t inner →
      path.Nodup ∧ (∀ u ∈ path, u ∉ st.history) ∧ path.length ≤ p.model.knownIds.length + 1) ∧
    (∀ budget, p.searchWithin budget s m st = none ↔
      ∃ path t inner, p.Nested (.statement s m) st.history path t inner ∧
        budget ≤ path.length) ∧
    ∀ budget, p.model.knownIds.length + 2 ≤ budget →
      p.searchWithin budget s m st = some (p.isGuarded s m st) := by
  have outlasts (budget : Nat) (room : p.model.knownIds.length + 2 ≤ budget) :
      ∃ answer, p.searchWithin budget s m st = some answer := by
    rw [← Option.ne_none_iff_exists', ne_eq, searchWithin_eq_none_iff]
    intro below
    obtain ⟨path, t, inner, nested, deep⟩ := below
    have bound := nested.length_le enumerated
    omega
  obtain ⟨answer, least⟩ := outlasts _ (Nat.le_refl _)
  have room : p.model.knownIds.length + 2 ≤ p.budget :=
    Nat.add_le_add_right p.model.length_knownIds_le 2
  have same : p.isGuarded s m st = answer := by
    rw [isGuarded, searchWithin_mono room least, Option.getD_some]
  have onTheWay (path : List StmtId) (t : StmtId) (inner : History)
      (nested : p.Nested (.statement s m) st.history path t inner) : path.Nodup ∧
        (∀ u ∈ path, u ∉ st.history) ∧ path.length ≤ p.model.knownIds.length + 1 :=
    ⟨nested.distinct.1, nested.distinct.2, nested.length_le enumerated⟩
  exact ⟨onTheWay, fun budget => searchWithin_eq_none_iff,
    fun budget le => same ▸ searchWithin_mono le least⟩

theorem search_terminates_mutual :
    let p : Propagator :=
      ⟨mutualCallArena.model, Detector.ofConfig mutualCallArena.model Config.default, false⟩
    p.model.Enumerated ∧ p.model.knownIds.length = 2 ∧ p.searchWithin 2 0 0 {} = none ∧
      p.searchWithin 4 0 0 {} = some (p.isGuarded 0 0 {}) := by
  intro p
  have enumerated : p.model.Enumerated := mutualCallArena.model_enumerated
  have known : p.model.knownIds.length = 2 := by decide +kernel
  have callers : p.model.callersOf 0 = [1] := by decide +kernel
  have callers' : p.model.callersOf 1 = [0] := by decide +kernel
  have inside : p.model.enclosing 1 = 1 := by decide +kernel
  have again : p.Nested (.callers (p.model.callersOf 1)) ((Visited.empty.insert 0).insert 1) [] 0
      ((Visited.empty.insert 0).insert 1) := by
    rw [callers']
    exact .first (by decide +kernel) .here
  have above : p.Nested (.callers (p.model.callersOf 0)) (Visited.empty.insert 0) [1] 0
      ((Visited.empty.insert 0).insert 1) := by
    rw [callers]
    refine .first (by decide +kernel) ?_
    rw [inside]
    exact .above (by simp) (by decide +kernel) again
  have nested : p.Nested (.statement 0 0) Visited.empty [0, 1] 0
      ((Visited.empty.insert 0).insert 1) :=
    .above (Visited.not_mem_empty 0) (by decide +kernel) above
  obtain ⟨_, unanswered, settled⟩ := search_terminates enumerated 0 0 {}
  exact ⟨enumerated, known, (unanswered 2).mpr ⟨_, _, _, nested, Nat.le_refl 2⟩,
    settled 4 (by rw [known])⟩

end Propagator

end PermissionGuard
