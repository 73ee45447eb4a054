import PermissionGuard.Proofs.Misuse.Collection
import PermissionGuard.Proofs.Propagation.Unfolding

/-!
What the records say about the ways to a sensitive call. A history for the whole query only adds
records to those with a history for every branch. A call that is not recorded is guarded on every
way from an entry point that nothing calls. The callers of an entry point speak for it too: where
all of them are guarded, an unguarded way from the entry point may be overlooked.
-/

namespace PermissionGuard

open Collector Propagator

section

variable {a : Arena} {steps : List BuildStep} {m : MethodId} {s : StmtId}
variable {path : List (MethodId × StmtId)}

/-- One history for a query accepts exactly the statements that a history for every branch accepts
and of which no two caller paths end in the same statement. So it keeps every record. -/
theorem shared_history_exact (built : a.BuiltBy steps) (d : Detector) (s : StmtId)
    (st st' : Progress) :
    let shared : Propagator := { model := a.model, detector := d, branchLocal := false }
    let branches : Propagator := { model := a.model, detector := d, branchLocal := true }
    ((shared.check s (a.enclosing s) st).1 = true ↔
      (branches.check s (a.enclosing s) st').1 = true ∧
        ∀ q r, shared.CallerPath s q → shared.CallerPath s r →
          q.getLast? = r.getLast? → q = r) ∧
    (∀ m, (shared.check s m st).1 = true → (branches.check s m st').1 = true) ∧
    ∀ catalog config, ∀ r ∈ ((ofArena a catalog config d true).collect st').1,
      r ∈ ((ofArena a catalog config d false).collect st).1 := by
  intro shared branches
  refine ⟨check_shared_iff_local a.model_enumerated built.callersOf_nodup s st st', ?_, ?_⟩
  · exact fun m accepted => check_local_of_shared a.model_enumerated accepted st'
  · intro catalog config r member
    obtain ⟨call, refused⟩ := mem_collect_ofArena.mp member
    refine mem_collect_ofArena.mpr ⟨call, ?_⟩
    rw [Bool.eq_false_iff] at refused ⊢
    exact fun accepted => refused (check_local_of_shared a.model_enumerated accepted {})

/-- A method that opens the camera, two methods that call it, and one guarded call of both. -/
def diamondSteps : List BuildStep :=
  let take : Signature := ⟨"app.Main", "take", "void", []⟩
  let left : Signature := ⟨"app.Main", "left", "void", []⟩
  let right : Signature := ⟨"app.Main", "right", "void", []⟩
  [.method take true false, .method left true false, .method right true false,
    .method ⟨"app.Main", "run", "void", []⟩ true false,
    .statement 0 { target := some cameraOpen }, .statement 1 { target := some take },
    .statement 2 { target := some take }, .statement 3 { target := some left },
    .edge 1 0, .edge 2 0, .edge 3 1, .edge 3 2, .trap 3 securityHandler]

def diamondArena : Arena := Arena.ofProgram (Builder.run diamondSteps).program

def diamondDetector : Detector := Detector.ofConfig diamondArena.model Config.default

theorem shared_history_exact_diamond :
    let shared : Propagator := ⟨diamondArena.model, diamondDetector, false⟩
    let branches : Propagator := ⟨diamondArena.model, diamondDetector, true⟩
    diamondArena.BuiltBy diamondSteps ∧ (branches.check 0 0 {}).1 = true ∧
      (shared.check 0 0 {}).1 ≠ true := by
  intro shared branches
  have built : diamondArena.BuiltBy diamondSteps :=
    Arena.builtBy_ofProgram diamondSteps (by decide)
  have trapped : securityHandler ∈ diamondArena.traps 3 := by decide
  have caught : diamondDetector.guard? 3 3 = some .exceptionHandler :=
    Detector.guard?_of_trap rfl rfl trapped (by decide) rfl
  have top : branches.Covered 3 := .guarded (Option.isSome_of_eq_some caught)
  have side {c : StmtId} (callers : branches.callersAt c = [3]) : branches.Covered c := by
    refine .called ?_ ?_ ?_ <;> rw [callers]
    · decide
    · decide
    · simpa using top
  have bottom : branches.Covered 0 := by
    have callers : branches.callersAt 0 = [1, 2] := by decide +kernel
    refine .called ?_ ?_ ?_ <;> rw [callers]
    · decide
    · decide
    · simpa using ⟨side (by decide +kernel), side (by decide +kernel)⟩
  have left : shared.CallerPath 0 [0, 1, 3] :=
    ⟨rfl, .cons_cons (by decide +kernel) (.cons_cons (by decide +kernel) (.singleton _))⟩
  have right : shared.CallerPath 0 [0, 2, 3] :=
    ⟨rfl, .cons_cons (by decide +kernel) (.cons_cons (by decide +kernel) (.singleton _))⟩
  refine ⟨built, (check_eq_true_iff_covered diamondArena.model_enumerated rfl 0 {}).mpr bottom, ?_⟩
  intro accepted
  have exactness := (shared_history_exact built diamondDetector 0 {} {}).1
  have same := (exactness.mp accepted).2 [0, 1, 3] [0, 2, 3] left right rfl
  exact absurd same (by decide)

/-- Calls from method `m` on, each of the method with the next call in its body, down to the
call `s`. -/
inductive CallPath (a : Arena) : MethodId → StmtId → List (MethodId × StmtId) → Prop
  | last {m : MethodId} {s : StmtId} (site : s ∈ a.callSites m) : CallPath a m s [(m, s)]
  | enter {m callee : MethodId} {t s : StmtId} {path : List (MethodId × StmtId)}
      (site : t ∈ a.callSites m) (edge : callee ∈ a.callees t)
      (rest : CallPath a callee s path) : CallPath a m s ((m, t) :: path)

theorem CallPath.starts (way : CallPath a m s path) :
    ∃ t, (m, t) ∈ path ∧ t ∈ a.callSites m := by
  cases way with
  | last site => exact ⟨s, by simp, site⟩
  | @enter _ _ t _ _ site => exact ⟨t, by simp, site⟩

theorem CallPath.ends (way : CallPath a m s path) : ∃ m', (m', s) ∈ path ∧ s ∈ a.callSites m' := by
  induction way with
  | @last m _ site => exact ⟨m, by simp, site⟩
  | enter _ _ _ ih =>
      obtain ⟨m', member, site⟩ := ih
      exact ⟨m', List.mem_cons_of_mem _ member, site⟩

/-- A guarded call passes its guards back along a way without guards, to the callers of the method
where the way starts. -/
theorem CallPath.calledGuarded (built : a.BuiltBy steps) {d : Detector} {mode : Bool}
    (way : CallPath a m s path) (unguarded : ∀ step ∈ path, d.guard? step.2 step.1 = none)
    (accepted : (Propagator.check ⟨a.model, d, mode⟩ s (a.enclosing s) {}).1 = true) :
    ∀ step ∈ path, CalledGuarded ⟨a.model, d, mode⟩ step.1 := by
  have passes {m : MethodId} {t : StmtId} (site : t ∈ a.callSites m)
      (unguarded : d.guard? t m = none)
      (accepted : (Propagator.check ⟨a.model, d, mode⟩ t (a.enclosing t) {}).1 = true) :
      CalledGuarded ⟨a.model, d, mode⟩ m := by
    obtain rfl := built.enclosing_callSite site
    exact ((check_unguarded_iff (p := ⟨a.model, d, mode⟩) a.model_enumerated
      built.callersOf_nodup unguarded {}).mp accepted).1
  induction way with
  | last site =>
      intro step member
      cases List.mem_singleton.mp member
      exact passes site (unguarded _ member) accepted
  | @enter m callee t s path site edge rest ih =>
      -- The method entered next is called by `t`, so its guarded callers include `t`.
      have above := ih (fun step later => unguarded step (List.mem_cons_of_mem _ later)) accepted
      obtain ⟨next, inPath, nextSite⟩ := rest.starts
      obtain ⟨method, known, _⟩ := a.mem_callSites.mp nextSite
      have caller : t ∈ a.callersOf callee := (built.mem_callersOf known).mpr edge
      have guardedCall := ((above _ inPath).2 t caller).2
      intro step member
      rcases List.mem_cons.mp member with rfl | later
      · exact passes site (unguarded _ member) guardedCall
      · exact above step later

/-- The analysis keeps quiet about a sensitive call exactly when a query calls it guarded. -/
theorem unreported_iff (built : a.BuiltBy steps) {catalog : Catalog} {config : Config}
    {sensitive : SensitiveMethod} (call : SensitiveCall a catalog config m s sensitive) :
    (∀ r ∈ (Misuse.analyze a.model catalog config).1, r.stmt ≠ s) ↔
      ((Misuse.collector a.model catalog config).propagator.check s (a.enclosing s) {}).1 = true := by
  have enclosing {m : MethodId} {s : StmtId} {sensitive : SensitiveMethod}
      (call : SensitiveCall a catalog config m s sensitive) : a.enclosing s = m := by
    obtain ⟨method, known, _, _, _, inBody⟩ := call.inApplication
    exact built.enclosing_eq known inBody
  constructor
  · intro unreported
    by_contra refused
    rw [enclosing call, Bool.not_eq_true] at refused
    exact unreported ⟨s, m, sensitive⟩ (mem_collect_ofArena.mpr ⟨call, refused⟩) rfl
  · rintro accepted r member rfl
    obtain ⟨reported, refused⟩ := mem_collect_ofArena.mp member
    rw [← enclosing reported] at refused
    exact Bool.false_ne_true (refused.symm.trans accepted)

/-- A way from an entry point to a sensitive call that is not recorded has a guard on it, unless the
entry point is itself called and all its callers are guarded. A way without guards is overlooked
exactly when every method on it is called like this and, with one history for a query, the ways
along the callers never meet. -/
theorem unreported_entry_path (built : a.BuiltBy steps) (catalog : Catalog) (config : Config)
    {sensitive : SensitiveMethod} (call : SensitiveCall a catalog config m s sensitive) :
    let p := (Misuse.collector a.model catalog config).propagator
    let unreported := ∀ r ∈ (Misuse.analyze a.model catalog config).1, r.stmt ≠ s
    ∀ entry ∈ a.entryPoints, ∀ path, CallPath a entry s path →
      (unreported → ¬ p.CalledGuarded entry →
        ∃ step ∈ path, (p.detector.guard? step.2 step.1).isSome) ∧
      ((∀ step ∈ path, p.detector.guard? step.2 step.1 = none) →
        (unreported ↔ (∀ step ∈ path, p.CalledGuarded step.1) ∧
          (p.branchLocal = false → ∀ q r, p.CallerPath s q → p.CallerPath s r →
            q.getLast? = r.getLast? → q = r))) := by
  intro p unreported entry _ path way
  have accepts : unreported ↔ (p.check s (a.enclosing s) {}).1 = true := unreported_iff built call
  constructor
  · intro quiet exposed
    by_contra noGuard
    have unguarded : ∀ step ∈ path, p.detector.guard? step.2 step.1 = none := by
      intro step member
      by_contra found
      exact noGuard ⟨step, member, Option.isSome_iff_ne_none.mpr found⟩
    obtain ⟨t, first, _⟩ := way.starts
    exact exposed (way.calledGuarded built unguarded (accepts.mp quiet) _ first)
  · intro unguarded
    obtain ⟨last, inPath, site⟩ := way.ends
    have inLast := built.enclosing_callSite site
    have final := check_unguarded_iff (p := p) a.model_enumerated built.callersOf_nodup
      (inLast ▸ unguarded _ inPath) {}
    rw [accepts]
    constructor
    · intro accepted
      exact ⟨way.calledGuarded built unguarded accepted, (final.mp accepted).2⟩
    · rintro ⟨called, unique⟩
      have calledLast : p.CalledGuarded (a.enclosing s) := by
        rw [inLast]
        exact called _ inPath
      exact final.mpr ⟨calledLast, unique⟩

/-- A method that opens the camera and one that calls it inside a handler, both entry points. -/
def entrySteps : List BuildStep :=
  let main : Signature := ⟨"app.Main", "main", "void", []⟩
  [.method main true false, .method ⟨"app.Main", "run", "void", []⟩ true false,
    .statement 0 { target := some cameraOpen }, .statement 1 { target := some main },
    .edge 1 0, .trap 1 securityHandler, .entryPoint 0, .entryPoint 1]

def entryArena : Arena := Arena.ofProgram (Builder.run entrySteps).program

theorem entryArena_builtBy : entryArena.BuiltBy entrySteps :=
  Arena.builtBy_ofProgram entrySteps (by decide)

theorem entryArena_call :
    SensitiveCall entryArena cameraCatalog Config.default 0 0 cameraEntry where
  reachable := entryArena_builtBy.entryPoint_reachable (by decide)
  inApplication := ⟨_, rfl, by decide⟩
  found := ⟨_, _, rfl, rfl, by decide⟩

theorem entryArena_unreported :
    ∀ r ∈ (Misuse.analyze entryArena.model cameraCatalog Config.default).1, r.stmt ≠ 0 := by
  have trapped : securityHandler ∈ entryArena.traps 1 := by decide
  have caught : (Detector.ofConfig entryArena.model Config.default).guard? 1 1 =
      some .exceptionHandler := Detector.guard?_of_trap rfl rfl trapped (by decide) rfl
  have callers : entryArena.callersOf 0 = [1] := by decide +kernel
  have above : Unfolds (Misuse.collector entryArena.model cameraCatalog Config.default).propagator
      (.callers (entryArena.callersOf 0)) [1] := by
    rw [callers]
    exact .next (by decide) (.guarded caught) .done
  refine (unreported_iff entryArena_builtBy entryArena_call).mpr
    (Unfolds.check entryArena.model_enumerated (.called (by decide +kernel) ?_ above) ?_ {})
  · exact fun uncalled => absurd (callers.symm.trans uncalled) (by decide)
  · decide

theorem unreported_entry_path_handler :
    let d := Detector.ofConfig entryArena.model Config.default
    CallPath entryArena 1 0 [(1, 1), (0, 0)] ∧
      ∃ step ∈ [(1, 1), (0, 0)], (d.guard? step.2 step.1).isSome := by
  have way : CallPath entryArena 1 0 [(1, 1), (0, 0)] :=
    .enter (by decide) (by decide) (.last (by decide))
  refine ⟨way, (unreported_entry_path entryArena_builtBy cameraCatalog Config.default
    entryArena_call 1 (by decide) _ way).1 entryArena_unreported ?_⟩
  rintro ⟨called, _⟩
  exact called (by decide +kernel)

theorem entry_point_overlooked :
    let d := Detector.ofConfig entryArena.model Config.default
    entryArena.BuiltBy entrySteps ∧
      SensitiveCall entryArena cameraCatalog Config.default 0 0 cameraEntry ∧
      (∀ r ∈ (Misuse.analyze entryArena.model cameraCatalog Config.default).1, r.stmt ≠ 0) ∧
      ¬ ∀ entry ∈ entryArena.entryPoints, ∀ path, CallPath entryArena entry 0 path →
        ∃ step ∈ path, (d.guard? step.2 step.1).isSome := by
  refine ⟨entryArena_builtBy, entryArena_call, entryArena_unreported, fun guarded => ?_⟩
  obtain ⟨step, member, found⟩ := guarded 0 (by decide) [(0, 0)] (.last (by decide))
  cases List.mem_singleton.mp member
  revert found
  decide +kernel

end

end PermissionGuard
