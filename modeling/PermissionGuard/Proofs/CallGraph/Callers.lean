import PermissionGuard.Proofs.CallGraph.Cycles
import PermissionGuard.Proofs.Program.Consistency
import PermissionGuard.Proofs.Program.Described
import PermissionGuard.Proofs.Program.Tables
import PermissionGuard.Program.ModelFile

/-!
The call graph and the reachable methods, seen from the callers. Both follow the call edges of
invocations only, while the callers of a method are all statements with a call edge to it. So they
agree with the callers exactly as far as these are invocations (`caller_views`).
-/

namespace PermissionGuard

namespace Arena

variable {a : Arena} {steps : List BuildStep} {x y : MethodId} {c : StmtId} {t : Text}

theorem builtBy_of_read (read : ModelFile.read t = .ok a) : ∃ steps, a.BuiltBy steps := by
  unfold ModelFile.read at read
  split at read
  · cases read
  · split at read
    · rename_i made
      cases read
      obtain ⟨valid, same⟩ := Description.toArena_eq_ok_iff.mp made
      exact same ▸ valid.builtBy
    · cases read

theorem BuiltBy.reachableMethods_eq (built : a.BuiltBy steps) :
    a.reachableMethods = a.toProgram.reachable := by
  obtain rfl := built.eq_ofProgram
  rfl

/-- The call sites of a method are the invocations that lie in it. -/
theorem BuiltBy.mem_callSites_iff (built : a.BuiltBy steps) :
    c ∈ a.callSites x ↔ a.enclosing c = x ∧ a.isInvoke c = true := by
  constructor
  · intro site
    obtain ⟨_, _, _, invokes⟩ := a.mem_callSites.mp site
    exact ⟨built.enclosing_callSite site, invokes⟩
  · intro both
    obtain ⟨inside, invokes⟩ := both
    cases found : a.statement? c with
    | none => simp [Program.isInvoke, found] at invokes
    | some st =>
        obtain ⟨method, known, position⟩ := built.wellFormed.placed found
        have same : st.method = x := by simpa [enclosing, found] using inside
        exact a.mem_callSites.mpr ⟨method, same ▸ known, List.mem_of_getElem? position, invokes⟩

theorem BuiltBy.mem_calledFrom_iff (built : a.BuiltBy steps) :
    y ∈ a.calledFrom x ↔ ∃ c ∈ a.callersOf y, a.enclosing c = x ∧ a.isInvoke c = true := by
  have calls : y ∈ a.calledFrom x ↔ ∃ c ∈ a.callSites x, y ∈ a.callees c := by
    rw [Program.calledFrom_eq]
    exact List.mem_flatMap
  simp only [calls, built.mem_callSites_iff, built.mem_callersOf_iff, and_comm]

/-- A method has an edge to another one where an invocation in it is among the callers of that. -/
theorem BuiltBy.mem_succs_iff (built : a.BuiltBy steps) :
    y ∈ (CallGraph.ofArena a).succs x ↔
      ∃ c ∈ a.callersOf y, a.enclosing c = x ∧ a.isInvoke c = true := by
  rw [CallGraph.mem_ofArena_succs built, built.mem_calledFrom_iff]

theorem BuiltBy.hasEdge_iff (built : a.BuiltBy steps) :
    (CallGraph.ofArena a).hasEdge x y = true ↔
      ∃ c ∈ a.callersOf y, a.enclosing c = x ∧ a.isInvoke c = true := by
  rw [CallGraph.hasEdge, List.contains_iff_mem]
  exact built.mem_succs_iff

theorem BuiltBy.reachable_of_calledFrom (built : a.BuiltBy steps) (start : x ∈ a.reachableMethods)
    (calls : y ∈ a.calledFrom x) : y ∈ a.reachableMethods := by
  rw [built.reachableMethods_eq, built.wellFormed.mem_reachable_iff] at start ⊢
  obtain ⟨c, caller, _⟩ := built.mem_calledFrom_iff.mp calls
  obtain ⟨method, known, _⟩ := built.wellFormed.callees_known (built.mem_callersOf_iff.mp caller)
  exact ⟨⟨method, known⟩, fun entered => (start.2 entered).tail calls⟩

/-- A method that is called is reachable if there are no entry points, as an entry point, or from
an invocation in a reachable method. -/
theorem BuiltBy.called_reachable_iff (built : a.BuiltBy steps) (caller : c ∈ a.callersOf y) :
    y ∈ a.reachableMethods ↔ a.entryPoints = [] ∨ y ∈ a.entryPoints ∨
      ∃ c ∈ a.callersOf y, a.enclosing c ∈ a.reachableMethods ∧ a.isInvoke c = true := by
  have known : ∃ method, a.method? y = some method := by
    obtain ⟨method, known, _⟩ := built.wellFormed.callees_known (built.mem_callersOf_iff.mp caller)
    exact ⟨method, known⟩
  constructor
  · intro reachable
    rw [built.reachableMethods_eq, built.wellFormed.mem_reachable_iff] at reachable
    by_cases entered : a.entryPoints = []
    · exact Or.inl entered
    · right
      obtain ⟨entry, listed, path⟩ := reachable.2 entered
      rcases Relation.ReflTransGen.cases_tail path with same | ⟨x, before, calls⟩
      · exact Or.inl (same ▸ listed)
      · right
        obtain ⟨c, caller, inside, invokes⟩ := built.mem_calledFrom_iff.mp calls
        refine ⟨c, caller, ?_, invokes⟩
        have start := built.entryPoint_reachable listed
        rw [inside]
        exact Reaches.closed (· ∈ a.reachableMethods)
          (fun _ reachable _ calls => built.reachable_of_calledFrom reachable calls) start before
  · intro ways
    rcases ways with all | entered | ⟨c, caller, reachable, invokes⟩
    · rw [built.reachableMethods_eq, built.wellFormed.mem_reachable_iff]
      exact ⟨known, fun entered => absurd all entered⟩
    · exact built.entryPoint_reachable entered
    · exact built.reachable_of_calledFrom reachable
        (built.mem_calledFrom_iff.mpr ⟨c, caller, rfl, invokes⟩)

end Arena

/-- The call graph and the reachable methods agree with a caller that is an invocation. With one
that is not, they do so exactly where another caller stands in for it. -/
theorem caller_views {a : Arena}
    (returned : (∃ steps, a.BuiltBy steps) ∨ ∃ t, ModelFile.read t = .ok a) (y : MethodId) :
    let g := CallGraph.ofArena a
    ∀ c ∈ a.callersOf y,
      (a.isInvoke c = true → g.hasEdge (a.enclosing c) y = true ∧
        (a.enclosing c ∈ a.reachableMethods → y ∈ a.reachableMethods)) ∧
      (g.hasEdge (a.enclosing c) y = true ↔
        ∃ c' ∈ a.callersOf y, a.enclosing c' = a.enclosing c ∧ a.isInvoke c' = true) ∧
      (y ∈ a.reachableMethods ↔ a.entryPoints = [] ∨ y ∈ a.entryPoints ∨
        ∃ c' ∈ a.callersOf y, a.enclosing c' ∈ a.reachableMethods ∧ a.isInvoke c' = true) := by
  intro g c caller
  obtain ⟨steps, built⟩ : ∃ steps, a.BuiltBy steps := by
    rcases returned with built | ⟨t, read⟩
    · exact built
    · exact Arena.builtBy_of_read read
  refine ⟨fun invokes => ⟨?_, fun reachable => ?_⟩, built.hasEdge_iff,
    built.called_reachable_iff caller⟩
  · exact built.hasEdge_iff.mpr ⟨c, caller, rfl, invokes⟩
  · exact (built.called_reachable_iff caller).mpr (Or.inr (Or.inr ⟨c, caller, reachable, invokes⟩))

theorem caller_views_relay :
    let a := Arena.ofProgram (Builder.run relaySteps).program
    1 ∈ a.callersOf 1 ∧ a.enclosing 1 = 0 ∧ (CallGraph.ofArena a).hasEdge 0 1 = true ∧
      1 ∈ a.reachableMethods := by
  intro a
  have built : a.BuiltBy relaySteps := Arena.builtBy_ofProgram relaySteps (by decide +kernel)
  have caller : 1 ∈ a.callersOf 1 := by decide +kernel
  obtain ⟨edge, reachable⟩ := (caller_views (Or.inl ⟨_, built⟩) 1 1 caller).1 (by decide +kernel)
  exact ⟨caller, by decide +kernel, edge, reachable (built.entryPoint_reachable (by decide +kernel))⟩

/-- Two methods. The first is the entry point and has a call edge to the second at a statement that
is no invocation. -/
def strayCallSteps : List BuildStep :=
  [.method ⟨"app.Main", "main", "void", []⟩ true false,
    .method ⟨"app.Main", "helper", "void", []⟩ true false,
    .statement 0 {}, .edge 0 1, .entryPoint 0]

def strayCallArena : Arena := Arena.ofProgram (Builder.run strayCallSteps).program

theorem caller_views_stray :
    let a := strayCallArena
    a.BuiltBy strayCallSteps ∧ 0 ∈ a.callersOf 1 ∧ a.enclosing 0 = 0 ∧
      (CallGraph.ofArena a).hasEdge 0 1 ≠ true ∧
      ¬ (0 ∈ a.reachableMethods → 1 ∈ a.reachableMethods) := by
  intro a
  have built : a.BuiltBy strayCallSteps := Arena.builtBy_ofProgram strayCallSteps (by decide)
  have callers : a.callersOf 1 = [0] := by decide +kernel
  have caller : 0 ∈ a.callersOf 1 := by simp [callers]
  have noInvocation : a.isInvoke 0 = false := by decide +kernel
  refine ⟨built, caller, by decide +kernel, ?_, fun closed => ?_⟩
  · rw [Ne, built.hasEdge_iff, callers]
    simp [noInvocation]
  · have start := built.entryPoint_reachable (m := 0) (by decide +kernel)
    have reachable := (built.called_reachable_iff caller).mp (closed start)
    rw [callers] at reachable
    have entries : a.entryPoints = [0] := by decide +kernel
    simp [noInvocation, entries] at reachable

end PermissionGuard
