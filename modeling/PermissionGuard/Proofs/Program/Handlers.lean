import PermissionGuard.Proofs.Hierarchy
import PermissionGuard.Proofs.Program.Numbering

/-!
Which types a handler catches. The hierarchy of a program holds what the steps of its construction
recorded, whether other steps failed or not (`run_hierarchy`), and a handler catches the types from
which recorded pairs lead up to the type that it names (`handler_matching_exact`).
-/

namespace PermissionGuard

open Description (record record_edges)

variable {type super : Text}

/-- A type that is recorded as its own supertype leads nowhere new. -/
theorem Hierarchy.record_isSubtype_iff (records : List (Text × Text)) :
    (record empty records).isSubtype type super = true ↔
      Relation.ReflTransGen (fun child parent => (child, parent) ∈ records) type super := by
  have edge (child parent : Text) : parent ∈ (record empty records).supertypes child ↔
      (child, parent) ∈ records ∧ child ≠ parent := by
    simp [mem_supertypes, record_edges, empty]
  have back (path : Relation.ReflTransGen (fun child parent => (child, parent) ∈ records)
      type super) : Reaches (record empty records).supertypes type super := by
    induction path with
    | refl => exact .refl
    | @tail child parent _ recorded ih =>
        by_cases same : child = parent
        · exact same ▸ ih
        · exact ih.tail ((edge child parent).mpr ⟨recorded, same⟩)
  rw [isSubtype_iff]
  exact ⟨Relation.ReflTransGen.mono (fun child parent step => ((edge child parent).mp step).1) _ _,
    back⟩

/-- The pair of types that a step records. -/
def BuildStep.recorded : BuildStep → List (Text × Text)
  | .subtype child parent => [(child, parent)]
  | _ => []

theorem BuildStep.mem_recorded {step : BuildStep} {child parent : Text} :
    (child, parent) ∈ step.recorded ↔ step = .subtype child parent := by
  cases step <;> simp [recorded, eq_comm]

namespace Builder

theorem apply_hierarchy (b : Builder) (step : BuildStep) :
    (b.apply step).program.hierarchy = record b.program.hierarchy step.recorded := by
  cases step with
  | method | subtype | permissions => rfl
  | statement m spec =>
      simp only [apply, addStatement]
      split
      · rfl
      · split <;> rfl
  | edge s callee =>
      simp only [apply, addEdge]
      split
      · rfl
      · rfl
      · split
        · rfl
        · split <;> rfl
  | trap m range =>
      simp only [apply, addTrap]
      split
      · rfl
      · split <;> rfl
  | entryPoint m =>
      simp only [apply, addEntryPoint]
      split <;> rfl
  | build =>
      simp only [apply, build, buildWith]
      split <;> rfl

theorem foldl_hierarchy (steps : List BuildStep) (b : Builder) :
    (steps.foldl apply b).program.hierarchy =
      record b.program.hierarchy (steps.flatMap BuildStep.recorded) := by
  induction steps generalizing b with
  | nil => rfl
  | cons step steps ih =>
      rw [List.foldl_cons, ih, apply_hierarchy, List.flatMap_cons]
      exact List.foldl_append.symm

theorem run_hierarchy (steps : List BuildStep) : (run steps).program.hierarchy =
    record Hierarchy.empty (steps.flatMap BuildStep.recorded) :=
  foldl_hierarchy steps empty

end Builder

namespace Arena

variable {a : Arena} {steps : List BuildStep} {s : StmtId} {m : MethodId}

theorem BuiltBy.isSubtype_iff (built : a.BuiltBy steps) :
    a.hierarchy.isSubtype type super = true ↔
      Relation.ReflTransGen (fun child parent => .subtype child parent ∈ steps) type super := by
  obtain rfl := built.eq_ofProgram
  have recorded (child parent : Text) :
      (child, parent) ∈ steps.flatMap BuildStep.recorded ↔ .subtype child parent ∈ steps := by
    simp [List.mem_flatMap, BuildStep.mem_recorded]
  change (Builder.run steps).program.hierarchy.isSubtype type super = true ↔ _
  rw [Builder.run_hierarchy, Hierarchy.record_isSubtype_iff]
  simp only [recorded]

theorem caughtAt_iff (a : Arena) : a.caughtAt type s m = true ↔
    ∃ st, a.statement? s = some st ∧ a.enclosing s = m ∧ ∃ trap ∈ a.traps m,
      trap.first ≤ st.index ∧ st.index < trap.last ∧
        a.hierarchy.isSubtype type trap.caught = true := by
  cases known : a.statement? s with
  | none => simp [caughtAt, known]
  | some st => simp [caughtAt, enclosing, known, ExceptionRange.covers, and_assoc]

end Arena

/-- Subtypes are what recorded pairs lead to. A search that takes the supertypes of each type in any
order finds nothing else with any budget, so it may stop early, and with a budget for all pairs it
finds each of them. A handler of a finished program catches, at the positions of its range, the
types below the one that it names. -/
theorem handler_matching_exact {a : Arena} {steps : List BuildStep} (built : a.BuiltBy steps)
    (records : List (Text × Text)) (order : Text → List Text)
    (orders : (record Hierarchy.empty records).Orders order) :
    let h := record Hierarchy.empty records
    (∀ type super, h.isSubtype type super = true ↔
      Relation.ReflTransGen (fun child parent => (child, parent) ∈ records) type super) ∧
    (∀ type super budget,
      ((reach order budget [type]).contains super = true → h.isSubtype type super = true) ∧
      (h.edges.length ≤ budget →
        (reach order budget [type]).contains super = h.isSubtype type super)) ∧
    ∀ type s m, a.caughtAt type s m = true ↔
      ∃ st, a.statement? s = some st ∧ a.enclosing s = m ∧ ∃ trap ∈ a.traps m,
        trap.first ≤ st.index ∧ st.index < trap.last ∧
          Relation.ReflTransGen (fun child parent => .subtype child parent ∈ steps)
            type trap.caught := by
  intro h
  have sound (type super : Text) (budget : Nat)
      (found : (reach order budget [type]).contains super = true) :
      h.isSubtype type super = true :=
    orders.isSubtype_of_found ((Visited.contains_iff _ _).mp found)
  have complete (type super : Text) (budget : Nat) (enough : h.edges.length ≤ budget) :
      (reach order budget [type]).contains super = h.isSubtype type super := by
    rw [Bool.eq_iff_iff]
    exact ⟨sound type super budget,
      fun below => (Visited.contains_iff _ _).mpr (orders.found_of_isSubtype enough below)⟩
  refine ⟨fun _ _ => Hierarchy.record_isSubtype_iff records,
    fun type super budget => ⟨sound type super budget, complete type super budget⟩,
    fun type s m => ?_⟩
  simp only [a.caughtAt_iff, built.isSubtype_iff]

/-- One method with a handler around the second of its three statements. Its type and the type above
it are recorded as supertypes of each other. -/
def handlerSteps : List BuildStep :=
  [.subtype "app.Denied" "app.Failure", .method ⟨"app.Main", "main", "void", []⟩ true false,
    .statement 0 {}, .statement 0 {}, .statement 0 {}, .trap 0 ⟨1, 2, "app.Failure"⟩,
    .subtype "app.Failure" "app.Denied", .subtype "app.Failure" "app.Failure",
    .subtype "app.Failure" "app.Object", .subtype "app.Denied" "app.Failure"]

theorem handler_matching_exact_loop :
    let a := Arena.ofProgram (Builder.run handlerSteps).program
    let records := handlerSteps.flatMap BuildStep.recorded
    let h := record Hierarchy.empty records
    a.BuiltBy handlerSteps ∧ h.Orders (fun type => (h.parents type).reverse) ∧
      h.isSubtype "app.Denied" "app.Object" = true ∧ h.isSubtype "app.Object" "app.Denied" ≠ true ∧
      a.caughtAt "app.Denied" 1 0 = true ∧ a.caughtAt "app.Denied" 2 0 ≠ true := by
  intro a records h
  have built : a.BuiltBy handlerSteps := Arena.builtBy_ofProgram handlerSteps (by decide +kernel)
  have orders : h.Orders fun type => (h.parents type).reverse := fun type => List.reverse_perm _
  obtain ⟨subtypes, _, caught⟩ := handler_matching_exact built records _ orders
  have toFailure : (("app.Denied" : Text), ("app.Failure" : Text)) ∈ records := by decide +kernel
  have toObject : (("app.Failure" : Text), ("app.Object" : Text)) ∈ records := by decide +kernel
  have noneAbove : ∀ pair ∈ records, pair.1 ≠ ("app.Object" : Text) := by decide +kernel
  have notDenied : h.isSubtype "app.Object" "app.Denied" ≠ true := by
    intro below
    cases ((subtypes _ _).mp below).cases_head with
    | inl same => exact absurd same (by decide +kernel)
    | inr leads =>
        obtain ⟨parent, recorded, _⟩ := leads
        exact noneAbove _ recorded rfl
  have traps : a.traps 0 = [⟨1, 2, "app.Failure"⟩] := by decide +kernel
  have inside : a.caughtAt "app.Denied" 1 0 = true := by
    refine (caught _ _ _).mpr ⟨⟨1, 0, 1, none, none, 0, []⟩, by decide +kernel, by decide +kernel,
      ⟨1, 2, "app.Failure"⟩, by simp [traps], by decide, by decide, .single ?_⟩
    simp [handlerSteps]
  have outside : a.caughtAt "app.Denied" 2 0 ≠ true := by
    intro isCaught
    obtain ⟨st, known, _, trap, member, _, before, _⟩ := (caught _ _ _).mp isCaught
    have third : a.statement? 2 = some ⟨2, 0, 2, none, none, 0, []⟩ := by decide +kernel
    cases third.symm.trans known
    rw [traps, List.mem_singleton] at member
    cases member
    exact absurd before (by decide)
  exact ⟨built, orders, (subtypes _ _).mpr (.tail (.single toFailure) toObject), notDenied, inside,
    outside⟩

end PermissionGuard
