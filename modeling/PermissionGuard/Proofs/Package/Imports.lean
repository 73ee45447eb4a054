import PermissionGuard.Package.Imports
import PermissionGuard.Proofs.Reachability
import Mathlib.Data.List.Nodup

/-!
Which packages a visit asks about. The imports of every package bound the rounds of a visit
(`successorsWithin_edgeCount`), and it asks once about the roots and about what is imported through
packages that pass, in whatever order the imports of a package are taken (`visit_exact`).
-/

namespace PermissionGuard.ImportGraph

variable {g reordered : ImportGraph} {follow : Text → Bool} {roots : List Text}
  {importer imported : Text}

/-- The imports that a visit adds when it asks about a package. -/
def followed (g : ImportGraph) (follow : Text → Bool) (package : Text) : List Text :=
  if follow package then g.importsOf package else []

theorem visit_eq :
    g.visit follow roots = (reach (g.followed follow) g.edgeCount roots).toList := rfl

theorem mem_followed :
    imported ∈ g.followed follow importer ↔
      follow importer = true ∧ imported ∈ g.importsOf importer := by
  unfold followed
  split <;> simp_all

theorem length_flatMap_importsOf (package : Text) (list : List Text)
    (rest : List (Text × List Text)) (found : List Text) :
    (found.flatMap (importsOf ⟨(package, list) :: rest⟩)).length ≤
      found.count package * list.length + (found.flatMap (importsOf ⟨rest⟩)).length := by
  induction found with
  | nil => simp
  | cons first found ih =>
      simp only [List.flatMap_cons, List.length_append, List.count_cons]
      by_cases same : first = package
      · subst first
        simp only [importsOf, List.lookup_cons, beq_self_eq_true, Option.getD_some, if_true,
          Nat.add_mul, Nat.one_mul] at ih ⊢
        omega
      · have other : (first == package) = false := beq_false_of_ne same
        simp only [importsOf, List.lookup_cons, other] at ih ⊢
        simp only [Bool.false_eq_true, if_false, Nat.add_zero]
        omega

/-- Different packages have their imports on different lines of the graph. -/
theorem successorsWithin_edgeCount (g : ImportGraph) (kind : Text → Prop) :
    SuccessorsWithin g.importsOf kind g.edgeCount := by
  intro found distinct _
  obtain ⟨imports⟩ := g
  rw [edgeCount, totalLength_eq]
  induction imports with
  | nil => simp [importsOf]
  | cons line rest ih =>
      obtain ⟨package, list⟩ := line
      have once : found.count package * list.length ≤ 1 * list.length :=
        Nat.mul_le_mul_right _ (List.nodup_iff_count_le_one.mp distinct package)
      have lines := length_flatMap_importsOf package list rest found
      simp only [List.map_cons, List.flatten_cons, List.length_append] at ih ⊢
      omega

theorem followed_within (g : ImportGraph) (follow : Text → Bool) (roots : List Text) :
    SuccessorsWithin (g.followed follow) (ReachedFrom (g.followed follow) roots) g.edgeCount := by
  refine (g.successorsWithin_edgeCount _).of_length_le fun package => ?_
  unfold followed
  split <;> simp

/-- The same imports of every package, in some other order. -/
def Reorders (reordered g : ImportGraph) : Prop :=
  ∀ package, (reordered.importsOf package).Perm (g.importsOf package)

theorem Reorders.followed (reorders : reordered.Reorders g) (follow : Text → Bool)
    (package : Text) : (reordered.followed follow package).Perm (g.followed follow package) := by
  unfold ImportGraph.followed
  split
  · exact reorders package
  · exact .refl []

/-- The roots in the order of their first occurrences, and behind them the other packages that
chains of imports lead to from a root, where every importer on a chain passes. -/
structure PrunedClosure (g : ImportGraph) (follow : Text → Bool) (roots visits : List Text) :
    Prop where
  once : visits.Nodup
  mem_iff : ∀ package, package ∈ visits ↔ ∃ root ∈ roots, Relation.ReflTransGen
    (fun importer imported => follow importer = true ∧ imported ∈ g.importsOf importer) root package
  rootsFirst : roots.eraseDups <+: visits

theorem prunedClosure_of_run {stop : Traversal Text}
    (run : Relation.ReflTransGen (Traversal.Round (g.followed follow)) ⟨roots, []⟩ stop)
    (ended : stop.pending = []) : g.PrunedClosure follow roots stop.visits where
  once := ((Traversal.underway_start _ roots).run run).distinct
  mem_iff package := by
    rw [((Traversal.underway_start _ roots).run run).mem_visits_iff ended]
    simp only [ReachedFrom, Reaches, mem_followed]
  rootsFirst := Traversal.roots_prefix run ended

theorem Reorders.run_visit (reorders : reordered.Reorders g) (follow : Text → Bool)
    (roots : List Text) :
    Relation.ReflTransGen (Traversal.Round (g.followed follow)) ⟨roots, []⟩
      ⟨[], reordered.visit follow roots⟩ := by
  have run := Traversal.run_reach (reordered.followed_within follow roots)
  rw [← visit_eq] at run
  exact Relation.ReflTransGen.mono
    (fun _ _ round => round.reorder (reorders.followed follow)) _ _ run

/-- A visit of imports has an end after so many rounds, in whatever order it takes the imports of
the packages. It stops only when no package waits, and then it asked once about the packages of the
pruned closure and about no other. -/
theorem visit_exact (reorders : reordered.Reorders g) (follow : Text → Bool) (roots : List Text) :
    let Round := Traversal.Round (g.followed follow)
    let start : Traversal Text := ⟨roots, []⟩
    (∀ rounds, List.IsChain Round (start :: rounds) →
      rounds.length ≤ roots.length + g.edgeCount) ∧
    (∀ stop, Relation.ReflTransGen Round start stop → (∀ later, ¬ Round stop later) →
      stop.pending = [] ∧ g.PrunedClosure follow roots stop.visits) ∧
    Relation.ReflTransGen Round start ⟨[], reordered.visit follow roots⟩ ∧
    g.PrunedClosure follow roots (reordered.visit follow roots) := by
  intro Round start
  have underway := Traversal.underway_start (g.followed follow) roots
  have visits := reorders.run_visit follow roots
  refine ⟨fun rounds chain => ?_, fun stop run ended => ?_, visits,
    prunedClosure_of_run visits rfl⟩
  · have bounded := underway.length_rounds_le (g.followed_within follow roots) chain
    simpa [Traversal.work] using bounded
  · have empty := Traversal.pending_eq_nil ended
    exact ⟨empty, prunedClosure_of_run run empty⟩

/-- Every list of imports turned round. -/
def reversed (g : ImportGraph) : ImportGraph :=
  ⟨g.imports.map fun (package, list) => (package, list.reverse)⟩

theorem reversed_reorders (g : ImportGraph) : g.reversed.Reorders g := by
  obtain ⟨imports⟩ := g
  intro package
  induction imports with
  | nil => exact .refl []
  | cons line rest ih =>
      obtain ⟨first, list⟩ := line
      by_cases same : package = first
      · simp [reversed, importsOf, same, List.reverse_perm]
      · have other : (package == first) = false := beq_false_of_ne same
        simpa [reversed, importsOf, List.lookup_cons, other] using ih

/-- Two packages that import each other and share an import, and one that is not to pass. -/
def cyclicImports : ImportGraph :=
  ⟨[("app", ["util", "fmt", "log"]), ("util", ["log", "app"]), ("log", ["fmt"]), ("fmt", ["os"])]⟩

theorem visit_exact_cycle :
    let follow : Text → Bool := fun package => package != "fmt"
    let roots : List Text := ["util", "app", "util"]
    let visits : List Text := ["util", "app", "log", "fmt"]
    let leads := fun importer imported =>
      follow importer = true ∧ imported ∈ cyclicImports.importsOf importer
    cyclicImports.reversed.Reorders cyclicImports ∧
      cyclicImports.reversed.visit follow roots = visits ∧
      (∃ root ∈ roots, Relation.ReflTransGen leads root "fmt") ∧
      (¬ ∃ root ∈ roots, Relation.ReflTransGen leads root "os") ∧
      ∀ rounds, List.IsChain (Traversal.Round (cyclicImports.followed follow))
        (⟨roots, []⟩ :: rounds) → rounds.length ≤ 10 := by
  intro follow roots visits leads
  have reorders := cyclicImports.reversed_reorders
  have list : cyclicImports.reversed.visit follow roots = visits :=
    (reach_toList _ _ _).trans (by decide +kernel)
  obtain ⟨bounded, _, _, closure⟩ := visit_exact reorders follow roots
  have exactly := closure.mem_iff
  rw [list] at exactly
  exact ⟨reorders, list, (exactly "fmt").mp (by decide), (exactly "os").not.mp (by decide), bounded⟩

end PermissionGuard.ImportGraph
