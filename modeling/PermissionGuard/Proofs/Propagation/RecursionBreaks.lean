import PermissionGuard.Proofs.CallGraph.Callers
import PermissionGuard.Proofs.Propagation.Unfolding

/-!
Where a search breaks a recursion. The searches that a search is nested in are followed by
derivations (`Nested`), which tell the statements on the way and the history that the innermost
search starts from. With a history for every branch that history is the way itself, so a statement
that is found again calls itself in the end, and its method is recursive.
-/

namespace PermissionGuard

namespace Propagator

variable {p : Propagator} {s t u c : StmtId} {m : MethodId} {task : Task}
variable {path callers : List StmtId} {met inner : History}

/-- A task is nested down to the search for `t`. The statements that are searched on the way are
those of the path, and `t` is searched with the history `inner`. -/
inductive Nested (p : Propagator) : Task → History → List StmtId → StmtId → History → Prop
  | here {s : StmtId} {m : MethodId} {met : History} : Nested p (.statement s m) met [] s met
  | above {s t : StmtId} {m : MethodId} {met inner : History} {path : List StmtId}
      (new : s ∉ met) (unguarded : p.detector.guard? s m = none)
      (nested : Nested p (.callers (p.model.callersOf m)) (met.insert s) path t inner) :
      Nested p (.statement s m) met (s :: path) t inner
  | first {c t : StmtId} {met inner : History} {path callers : List StmtId}
      (invocation : p.isInvocation c = true)
      (nested : Nested p (.statement c (p.model.enclosing c)) met path t inner) :
      Nested p (.callers (c :: callers)) met path t inner
  | next {c t : StmtId} {met inner : History} {path callers : List StmtId}
      {before middle : Footprint} (invocation : p.isInvocation c = true)
      (start : before.history = met)
      (accepted : Runs p (.statement c (p.model.enclosing c)) before true middle)
      (nested : Nested p (.callers callers) (p.rejoin before middle).history path t inner) :
      Nested p (.callers (c :: callers)) met path t inner

theorem not_nested_nil : ¬ p.Nested (.callers []) met path t inner := by
  intro nested
  cases nested

theorem not_nested_stray (stray : p.isInvocation c = false) :
    ¬ p.Nested (.callers (c :: callers)) met path t inner := by
  intro nested
  cases nested with
  | first invocation | next invocation => simp [stray] at invocation

section

variable {before after middle : Footprint}

theorem nested_refused (invocation : p.isInvocation c = true)
    (refused : Runs p (.statement c (p.model.enclosing c)) before.lookAtCaller false after) :
    p.Nested (.callers (c :: callers)) before.history path t inner ↔
      p.Nested (.statement c (p.model.enclosing c)) before.history path t inner := by
  constructor
  · intro nested
    cases nested with
    | first _ nested => exact nested
    | next _ start accepted _ => cases (accepted.deterministic refused start).1
  · exact .first invocation

theorem nested_accepted (invocation : p.isInvocation c = true)
    (accepted : Runs p (.statement c (p.model.enclosing c)) before.lookAtCaller true middle) :
    p.Nested (.callers (c :: callers)) before.history path t inner ↔
      p.Nested (.statement c (p.model.enclosing c)) before.history path t inner ∨
        p.Nested (.callers callers) (p.rejoin before middle).history path t inner := by
  constructor
  · intro nested
    cases nested with
    | first _ nested => exact Or.inl nested
    | next _ start again later =>
        have same := rejoin_history_congr (p := p) start (again.deterministic accepted start).2
        exact Or.inr (same ▸ later)
  · intro nested
    cases nested with
    | inl first => exact .first invocation first
    | inr later => exact .next invocation before.lookAtCaller_history accepted later

end

/-- A task leads to a search for a statement that was met before. -/
def FindsAgain (p : Propagator) (task : Task) (met : History) (t : StmtId) : Prop :=
  ∃ path inner, p.Nested task met path t inner ∧ t ∈ inner

theorem findsAgain_met (found : s ∈ met) : p.FindsAgain (.statement s m) met s :=
  ⟨[], met, .here, found⟩

theorem findsAgain_statement (new : s ∉ met) : p.FindsAgain (.statement s m) met t ↔
    p.detector.guard? s m = none ∧
      p.FindsAgain (.callers (p.model.callersOf m)) (met.insert s) t := by
  constructor
  · intro found
    obtain ⟨path, inner, nested, again⟩ := found
    cases nested with
    | here => exact absurd again new
    | above _ unguarded nested => exact ⟨unguarded, _, _, nested, again⟩
  · intro both
    obtain ⟨unguarded, path, inner, nested, again⟩ := both
    exact ⟨s :: path, inner, .above new unguarded nested, again⟩

theorem not_findsAgain_nil : ¬ p.FindsAgain (.callers []) met t := by
  simp [FindsAgain, not_nested_nil]

theorem findsAgain_cons : p.FindsAgain (.callers (c :: callers)) met t ↔
    p.isInvocation c = true ∧ (p.FindsAgain (.statement c (p.model.enclosing c)) met t ∨
      ∃ before middle, before.history = met ∧
        Runs p (.statement c (p.model.enclosing c)) before true middle ∧
        p.FindsAgain (.callers callers) (p.rejoin before middle).history t) := by
  constructor
  · intro found
    obtain ⟨path, inner, nested, again⟩ := found
    cases nested with
    | first invocation nested => exact ⟨invocation, Or.inl ⟨_, _, nested, again⟩⟩
    | next invocation start accepted nested =>
        exact ⟨invocation, Or.inr ⟨_, _, start, accepted, _, _, nested, again⟩⟩
  · intro both
    obtain ⟨invocation, ⟨path, inner, nested, again⟩ |
      ⟨before, middle, start, accepted, path, inner, nested, again⟩⟩ := both
    · exact ⟨path, inner, .first invocation nested, again⟩
    · exact ⟨path, inner, .next invocation start accepted nested, again⟩

section

variable {before after middle : Footprint}

theorem findsAgain_refused (invocation : p.isInvocation c = true)
    (refused : Runs p (.statement c (p.model.enclosing c)) before.lookAtCaller false after) :
    p.FindsAgain (.callers (c :: callers)) before.history t ↔
      p.FindsAgain (.statement c (p.model.enclosing c)) before.history t := by
  simp only [FindsAgain, nested_refused invocation refused]

theorem findsAgain_accepted (invocation : p.isInvocation c = true)
    (accepted : Runs p (.statement c (p.model.enclosing c)) before.lookAtCaller true middle) :
    p.FindsAgain (.callers (c :: callers)) before.history t ↔
      p.FindsAgain (.statement c (p.model.enclosing c)) before.history t ∨
        p.FindsAgain (.callers callers) (p.rejoin before middle).history t := by
  simp only [FindsAgain, nested_accepted invocation accepted, or_and_right, exists_or]

end

/-! ### Counting -/

theorem Runs.recursionBreaks_le {before after : Footprint} {verdict : Bool}
    (run : Runs p task before verdict after) :
    before.stats.recursionBreaks ≤ after.stats.recursionBreaks := by
  induction run with
  | again | guarded | uncalled | done | anomaly => simp
  | called _ _ _ _ ih => simpa using ih
  | refused _ _ ih => simpa using ih
  | next _ _ _ firstIH restIH =>
      simp only [rejoin_stats, Footprint.lookAtCaller_stats] at firstIH restIH
      omega

/-- A break is counted exactly where some statement is found again. -/
theorem Runs.recursionBreaks_lt_iff {before after : Footprint} {verdict : Bool}
    (run : Runs p task before verdict after) :
    before.stats.recursionBreaks < after.stats.recursionBreaks ↔
      ∃ t, p.FindsAgain task before.history t := by
  induction run with
  | again met => simpa using ⟨_, findsAgain_met met⟩
  | guarded new found => simp [findsAgain_statement new, found]
  | uncalled new _ alone => simp [findsAgain_statement new, alone, not_findsAgain_nil]
  | called new unguarded _ _ ih => simpa [findsAgain_statement new, unguarded] using ih
  | done => simp [not_findsAgain_nil]
  | anomaly stray => simp [findsAgain_cons, stray]
  | refused invocation first ih => simpa [findsAgain_refused invocation first] using ih
  | next invocation first rest firstIH restIH =>
      have early := first.recursionBreaks_le
      have late := rest.recursionBreaks_le
      simp only [rejoin_stats, Footprint.lookAtCaller_stats,
        Footprint.lookAtCaller_history] at early late firstIH restIH
      simp only [findsAgain_accepted invocation first, exists_or, ← firstIH, ← restIH]
      omega

/-! ### Histories for every branch -/

/-- The history of a branch is the way to it. -/
theorem Nested.mem_inner (isLocal : p.branchLocal = true)
    (nested : p.Nested task met path t inner) : u ∈ inner ↔ u ∈ met ∨ u ∈ path := by
  induction nested with
  | here => simp
  | above _ _ _ ih =>
      rw [ih, Visited.mem_insert, List.mem_cons]
      tauto
  | first _ _ ih => exact ih
  | next _ start _ _ ih => rw [ih, rejoin_history_local isLocal, start]

/-- The second statement is an invocation that calls the method of the first. -/
def CalledBy (p : Propagator) (s c : StmtId) : Prop :=
  c ∈ p.callersAt s ∧ p.isInvocation c = true

/-- A task leads to a statement along invocations. -/
def LeadsTo (p : Propagator) : Task → StmtId → Prop
  | .statement s _, t => Relation.ReflTransGen p.CalledBy s t
  | .callers callers, t =>
      ∃ c ∈ callers, p.isInvocation c = true ∧ Relation.ReflTransGen p.CalledBy c t

theorem Nested.leadsTo (nested : p.Nested task met path t inner) (aligned : p.Aligned task) :
    p.LeadsTo task t ∧ ∀ u ∈ path, Relation.TransGen p.CalledBy u t := by
  induction nested with
  | here => exact ⟨.refl, by simp⟩
  | @above s t m met inner path new unguarded nested ih =>
      obtain ⟨⟨c, caller, invocation, leads⟩, onPath⟩ := ih trivial
      cases aligned
      have onward : Relation.TransGen p.CalledBy s t := .head' ⟨caller, invocation⟩ leads
      refine ⟨onward.to_reflTransGen, fun u member => ?_⟩
      rcases List.mem_cons.mp member with same | later
      · exact same ▸ onward
      · exact onPath u later
  | first invocation _ ih =>
      obtain ⟨leads, onPath⟩ := ih rfl
      exact ⟨⟨_, List.mem_cons_self, invocation, leads⟩, onPath⟩
  | next _ _ _ _ ih =>
      obtain ⟨⟨c, caller, later⟩, onPath⟩ := ih trivial
      exact ⟨⟨c, List.mem_cons_of_mem _ caller, later⟩, onPath⟩

/-- In a query of its own, what is found again stands on the way to itself. -/
theorem FindsAgain.calledBy_self (isLocal : p.branchLocal = true)
    (found : p.FindsAgain (.statement s (p.model.enclosing s)) Visited.empty t) :
    Relation.TransGen p.CalledBy t t := by
  obtain ⟨path, inner, nested, again⟩ := found
  have onPath : t ∈ path :=
    ((nested.mem_inner isLocal).mp again).resolve_left (Visited.not_mem_empty t)
  exact (nested.leadsTo rfl).2 t onPath

end Propagator

open Propagator

section

variable {a : Arena} {steps : List BuildStep} {d : Detector} {mode : Bool} {t : StmtId}

theorem Arena.BuiltBy.recursive_of_calledBy (built : a.BuiltBy steps)
    (cycle : Relation.TransGen (CalledBy ⟨a.model, d, mode⟩) t t) :
    ∃ component ∈ (CallGraph.ofArena a).recursiveComponents, a.enclosing t ∈ component := by
  have edge (c s : StmtId) (called : CalledBy ⟨a.model, d, mode⟩ s c) :
      a.enclosing s ∈ (CallGraph.ofArena a).succs (a.enclosing c) :=
    built.mem_succs_iff.mpr ⟨c, called.1, rfl, called.2⟩
  -- Callers are followed backwards, edges forwards.
  have walk : Relation.TransGen (fun x y => y ∈ (CallGraph.ofArena a).succs x)
      (a.enclosing t) (a.enclosing t) := cycle.swap.lift a.enclosing edge
  obtain ⟨callee, first, back⟩ := Relation.TransGen.head'_iff.mp walk
  exact (CallGraph.ofArena_regular a).component_of_cycle first back

/-- With a history for every branch, a query counts a break exactly where it finds a statement
again, and then the method of that statement is recursive. -/
theorem recursion_breaks_in_components (built : a.BuiltBy steps) (d : Detector) (s : StmtId)
    (st : Progress) :
    let p : Propagator := { model := a.model, detector := d, branchLocal := true }
    let after := (p.check s (a.enclosing s) st).2
    let FoundAgain := p.FindsAgain (.statement s (a.enclosing s)) Visited.empty
    let recursive := (CallGraph.ofArena a).recursiveComponents
    (st.stats.recursionBreaks < after.stats.recursionBreaks ↔ ∃ t, FoundAgain t) ∧
      (∀ t, FoundAgain t → ∃ component ∈ recursive, a.enclosing t ∈ component) ∧
      (recursive = [] → after.stats.recursionBreaks = st.stats.recursionBreaks) := by
  intro p after FoundAgain recursive
  have run := check_runs (p := p) a.model_enumerated s (a.enclosing s) st
  have counted : st.stats.recursionBreaks < after.stats.recursionBreaks ↔ ∃ t, FoundAgain t :=
    run.recursionBreaks_lt_iff
  have inComponent (t : StmtId) (found : FoundAgain t) :
      ∃ component ∈ recursive, a.enclosing t ∈ component :=
    built.recursive_of_calledBy (found.calledBy_self rfl)
  refine ⟨counted, inComponent, fun none => ?_⟩
  have grows : st.stats.recursionBreaks ≤ after.stats.recursionBreaks := run.recursionBreaks_le
  by_contra changed
  obtain ⟨t, found⟩ := counted.mp (by omega)
  obtain ⟨component, member, _⟩ := inComponent t found
  simp [none] at member

/-- Two methods that call each other. -/
def mutualCallSteps : List BuildStep :=
  let ping : Signature := ⟨"app.Main", "ping", "void", []⟩
  let pong : Signature := ⟨"app.Main", "pong", "void", []⟩
  [.method ping true false, .method pong true false, .statement 0 { target := some pong },
    .statement 1 { target := some ping }, .edge 0 1, .edge 1 0]

def mutualCallArena : Arena := Arena.ofProgram (Builder.run mutualCallSteps).program

theorem recursion_breaks_in_components_mutual :
    let p : Propagator :=
      ⟨mutualCallArena.model, Detector.ofConfig mutualCallArena.model Config.default, true⟩
    mutualCallArena.BuiltBy mutualCallSteps ∧ 0 < (p.check 0 0 {}).2.stats.recursionBreaks ∧
      ∃ component ∈ (CallGraph.ofArena mutualCallArena).recursiveComponents, 0 ∈ component := by
  intro p
  have built : mutualCallArena.BuiltBy mutualCallSteps :=
    Arena.builtBy_ofProgram mutualCallSteps (by decide)
  have found : p.FindsAgain (.statement 0 0) Visited.empty 0 := by
    have callers : p.model.callersOf 0 = [1] := by decide +kernel
    have callers' : p.model.callersOf 1 = [0] := by decide +kernel
    have inside : p.model.enclosing 1 = 1 := by decide +kernel
    have new : (1 : StmtId) ∉ (Visited.empty : History).insert 0 := by simp
    rw [findsAgain_statement (Visited.not_mem_empty 0), callers, findsAgain_cons]
    refine ⟨by decide +kernel, by decide +kernel, Or.inl ?_⟩
    rw [findsAgain_statement new, inside, callers', findsAgain_cons]
    exact ⟨by decide +kernel, by decide +kernel, Or.inl (findsAgain_met (by simp))⟩
  obtain ⟨counted, recursive, _⟩ := recursion_breaks_in_components built p.detector 0 {}
  exact ⟨built, counted.mpr ⟨0, found⟩, recursive 0 found⟩

end

end PermissionGuard
