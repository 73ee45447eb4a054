import PermissionGuard.Proofs.Program.Consistency
import PermissionGuard.Proofs.Program.Tables

/-!
The entry points of a finished program and what they reach. No step of a successful construction
was refused, so the entry points are those of its steps (`BuiltBy.entryPoints_eq`), and the
reachable methods are the closure of these under the calls of the bodies (`reachable_exact`).
-/

namespace PermissionGuard

/-- The entry points that a step adds if it is not refused. -/
def BuildStep.entered : BuildStep → List MethodId
  | .entryPoint m => [m]
  | _ => []

theorem BuildStep.mem_entered {step : BuildStep} {m : MethodId} :
    m ∈ step.entered ↔ step = .entryPoint m := by
  cases step <;> simp [entered, eq_comm]

/-- An invocation in the body of the first method calls the second. -/
def Program.Calls (p : Program) (x y : MethodId) : Prop :=
  ∃ method s, p.method? x = some method ∧ s ∈ method.body ∧ p.isInvoke s = true ∧ y ∈ p.callees s

theorem Program.mem_calledFrom_iff {p : Program} {x y : MethodId} :
    y ∈ p.calledFrom x ↔ p.Calls x y := by
  unfold calledFrom Calls
  cases known : p.method? x with
  | none => simp
  | some method => simp [callSitesIn, and_assoc]

namespace Builder

variable {b : Builder} {step : BuildStep}

theorem addStatement_entryPoints (b : Builder) (m : MethodId) (spec : StatementSpec) :
    (b.addStatement m spec).1.program.entryPoints = b.program.entryPoints := by
  unfold addStatement
  split
  · rfl
  · split <;> rfl

theorem addEdge_entryPoints (b : Builder) (s : StmtId) (callee : MethodId) :
    (b.addEdge s callee).program.entryPoints = b.program.entryPoints := by
  unfold addEdge
  split
  · rfl
  · rfl
  · split
    · rfl
    · split <;> rfl

theorem addTrap_entryPoints (b : Builder) (m : MethodId) (range : ExceptionRange) :
    (b.addTrap m range).program.entryPoints = b.program.entryPoints := by
  unfold addTrap
  split
  · rfl
  · split <;> rfl

theorem addEntryPoint_entryPoints {m : MethodId}
    (faultless : (b.addEntryPoint m).errors = []) :
    (b.addEntryPoint m).program.entryPoints = b.program.entryPoints ++ [m] := by
  unfold addEntryPoint at faultless ⊢
  split at faultless
  · exact absurd faultless (fail_errors b _)
  · rfl

theorem build_entryPoints (b : Builder) :
    b.build.1.program.entryPoints = b.program.entryPoints := by
  simp only [build, buildWith]
  split <;> rfl

/-- A step without an error adds what it enters. -/
theorem apply_entryPoints (faultless : (b.apply step).errors = []) :
    (b.apply step).program.entryPoints = b.program.entryPoints ++ step.entered := by
  cases step with
  | entryPoint m => exact addEntryPoint_entryPoints faultless
  | method => exact (List.append_nil _).symm
  | statement m spec => exact (addStatement_entryPoints b m spec).trans (List.append_nil _).symm
  | edge s callee => exact (addEdge_entryPoints b s callee).trans (List.append_nil _).symm
  | trap m range => exact (addTrap_entryPoints b m range).trans (List.append_nil _).symm
  | subtype => exact (List.append_nil _).symm
  | permissions => exact (List.append_nil _).symm
  | build => exact (build_entryPoints b).trans (List.append_nil _).symm

theorem foldl_entryPoints {steps : List BuildStep}
    (faultless : (steps.foldl apply b).errors = []) :
    (steps.foldl apply b).program.entryPoints =
      b.program.entryPoints ++ steps.flatMap BuildStep.entered := by
  induction steps generalizing b with
  | nil => exact (List.append_nil _).symm
  | cons step steps ih =>
      have first : (b.apply step).errors = [] := foldl_apply_errors faultless
      rw [List.foldl_cons, ih faultless, apply_entryPoints first, List.flatMap_cons,
        List.append_assoc]

end Builder

theorem Arena.BuiltBy.entryPoints_eq {a : Arena} {steps : List BuildStep}
    (built : a.BuiltBy steps) : a.entryPoints = steps.flatMap BuildStep.entered := by
  obtain ⟨noErrors, _, rfl⟩ := Builder.build_eq_ok_iff.mp built
  exact Builder.foldl_entryPoints noErrors

theorem Arena.BuiltBy.mem_entryPoints {a : Arena} {steps : List BuildStep} {m : MethodId}
    (built : a.BuiltBy steps) : m ∈ a.entryPoints ↔ .entryPoint m ∈ steps := by
  rw [built.entryPoints_eq, List.mem_flatMap]
  constructor
  · intro entered
    obtain ⟨step, taken, enters⟩ := entered
    exact BuildStep.mem_entered.mp enters ▸ taken
  · exact fun taken => ⟨_, taken, BuildStep.mem_entered.mpr rfl⟩

/-- The reachable methods of a finished program are all of its methods if no entry point was added.
Else they are, in increasing order, those that calls lead to from an entry point. -/
theorem reachable_exact {a : Arena} {steps : List BuildStep} (built : a.BuiltBy steps) :
    ((∀ m, .entryPoint m ∉ steps) → a.reachableMethods = a.methodIds) ∧
    ((∃ m, .entryPoint m ∈ steps) → a.reachableMethods.Pairwise (· < ·) ∧
      ∀ e, e ∈ a.reachableMethods ↔
        ∃ entry, .entryPoint entry ∈ steps ∧ Relation.ReflTransGen a.Calls entry e) := by
  have reachable : a.reachableMethods = a.toProgram.reachable := by
    rw [built.eq_self]
    rfl
  have wellFormed := built.wellFormed
  constructor
  · intro none
    have entries : a.entryPoints = [] := by
      rw [List.eq_nil_iff_forall_not_mem]
      exact fun m entered => none m (built.mem_entryPoints.mp entered)
    rw [reachable, Program.reachable, entries]
    rfl
  · intro some
    obtain ⟨m, taken⟩ := some
    have entries : a.entryPoints ≠ [] := List.ne_nil_of_mem (built.mem_entryPoints.mpr taken)
    refine ⟨built.reachable_increasing, fun e => ?_⟩
    rw [reachable, wellFormed.mem_reachable_iff]
    constructor
    · intro inside
      obtain ⟨entry, listed, path⟩ := inside.2 entries
      exact ⟨entry, built.mem_entryPoints.mp listed,
        Relation.ReflTransGen.mono (fun _ _ => Program.mem_calledFrom_iff.mp) _ _ path⟩
    · intro chain
      obtain ⟨entry, added, path⟩ := chain
      have listed := built.mem_entryPoints.mpr added
      refine ⟨?_, fun _ => ⟨entry, listed,
        Relation.ReflTransGen.mono (fun _ _ => Program.mem_calledFrom_iff.mpr) _ _ path⟩⟩
      cases path with
      | refl => exact wellFormed.entryPoint_known listed
      | tail _ last =>
          obtain ⟨_, _, _, _, _, called⟩ := last
          obtain ⟨method, known, _⟩ := wellFormed.callees_known called
          exact ⟨method, known⟩

/-- Two methods that call each other, one that they call, one with a call edge at a statement that is
no invocation, and one that only calls. The first is an entry point twice. -/
def handoverSteps : List BuildStep :=
  let sig (name : Text) : Signature := ⟨"app.Main", name, "void", []⟩
  [.method (sig "main") true false, .entryPoint 0, .build, .method (sig "retry") true false,
    .method (sig "open") true false, .method (sig "close") true false,
    .method (sig "test") true false,
    .statement 0 { target := some (sig "retry") }, .statement 1 { target := some (sig "main") },
    .statement 2 {}, .statement 4 { target := some (sig "main") },
    .edge 0 1, .edge 1 0, .edge 1 2, .edge 2 3, .edge 3 0, .entryPoint 0]

theorem reachable_exact_handover :
    let a := Arena.ofProgram (Builder.run handoverSteps).program
    a.BuiltBy handoverSteps ∧ a.reachableMethods = [0, 1, 2] ∧
      Relation.ReflTransGen a.Calls 0 2 ∧ ¬ Relation.ReflTransGen a.Calls 0 3 := by
  intro a
  have built : a.BuiltBy handoverSteps := Arena.builtBy_ofProgram handoverSteps (by decide +kernel)
  have list : a.reachableMethods = [0, 1, 2] :=
    (Program.reachable_eq_filter a.toProgram).trans (by decide +kernel)
  have onlyMain (m : MethodId) : .entryPoint m ∈ handoverSteps ↔ m = 0 := by simp [handoverSteps]
  have exactly := ((reachable_exact built).2 ⟨0, by simp [handoverSteps]⟩).2
  simp only [list, onlyMain, exists_eq_left] at exactly
  exact ⟨built, list, (exactly 2).mp (by decide), (exactly 3).not.mp (by decide)⟩

end PermissionGuard
