import PermissionGuard.Proofs.CallGraph.Callers
import PermissionGuard.Proofs.CallGraph.ComponentCycles

/-!
The part of a call graph that can be reached. No edge leaves the reachable methods, so what leads to
each other does so in their part too, and the part has the recursion of the whole graph as far as it
can be reached (`reachable_part_exact`).
-/

namespace PermissionGuard

namespace CallGraph

open PermissionGuard.Graph

variable {g : CallGraph} {v w : Int} {ids component cycle : List Int}

/-- No edge leaves the nodes of the list. -/
def ClosedUnderSuccs (g : CallGraph) (ids : List Int) : Prop :=
  ∀ v ∈ ids, ∀ w ∈ g.succs v, w ∈ ids

theorem reaches_of_subgraph (leads : Reaches (g.subgraph ids).succs v w) : Reaches g.succs v w :=
  Relation.ReflTransGen.mono (fun _ _ edge => (mem_subgraph_succs.mp edge).2.2) _ _ leads

namespace ClosedUnderSuccs

theorem mem_of_reaches (closed : g.ClosedUnderSuccs ids) (inside : v ∈ ids)
    (leads : Reaches g.succs v w) : w ∈ ids :=
  Reaches.closed (· ∈ ids) closed inside leads

theorem edge (closed : g.ClosedUnderSuccs ids) (inside : v ∈ ids) (edge : w ∈ g.succs v) :
    w ∈ (g.subgraph ids).succs v :=
  mem_subgraph_succs.mpr ⟨inside, closed v inside w edge, edge⟩

theorem reaches (closed : g.ClosedUnderSuccs ids) (inside : v ∈ ids)
    (leads : Reaches g.succs v w) : Reaches (g.subgraph ids).succs v w := by
  induction leads with
  | refl => exact .refl
  | tail before step ih => exact ih.tail (closed.edge (closed.mem_of_reaches inside before) step)

theorem mutual_iff (closed : g.ClosedUnderSuccs ids) (inside : v ∈ ids) :
    Mutual (g.subgraph ids).succs v w ↔ Mutual g.succs v w := by
  have inPart (both : Mutual g.succs v w) : Mutual (g.subgraph ids).succs v w :=
    ⟨closed.reaches inside both.1, closed.reaches (closed.mem_of_reaches inside both.1) both.2⟩
  exact ⟨fun both => ⟨reaches_of_subgraph both.1, reaches_of_subgraph both.2⟩, inPart⟩

theorem saturated (closed : g.ClosedUnderSuccs ids) : g.Saturated ids :=
  fun _ inside _ both => closed.mem_of_reaches inside both.1

end ClosedUnderSuccs

/-- The recursive components are the classes of the nodes that lead back to themselves. -/
theorem Regular.mem_recursiveComponents_iff (regular : g.Regular) :
    component ∈ g.recursiveComponents ↔ component.Pairwise (· < ·) ∧ ∃ v ∈ component,
      (∃ w ∈ g.succs v, Reaches g.succs w v) ∧ ∀ w, w ∈ component ↔ Mutual g.succs v w := by
  have increasing {listed : List Int} (member : listed ∈ g.recursiveComponents) :
      listed.Pairwise (· < ·) := by
    obtain ⟨found, _, _, sorted⟩ := mem_recursiveComponents.mp member
    exact sorted ▸ sortedIds_increasing found
  constructor
  · intro listed
    have nonempty : component ≠ [] :=
      fun empty => nil_not_mem_recursiveComponents regular (empty ▸ listed)
    obtain ⟨v, inside⟩ := List.exists_mem_of_ne_nil component nonempty
    exact ⟨increasing listed, v, inside, regular.leads_back_of_component listed inside,
      fun w => regular.mem_component_iff listed inside⟩
  · intro isClass
    obtain ⟨sorted, v, _, ⟨w, edge, back⟩, members⟩ := isClass
    obtain ⟨listed, member, inside⟩ := regular.component_of_cycle edge back
    have same : component = listed :=
      eq_of_pairwise_of_mem (fun _ _ => Int.lt_asymm) sorted (increasing member)
        fun u => (members u).trans (regular.mem_component_iff member inside).symm
    exact same ▸ member

/-- What no edge leaves has a component as a whole or not at all. -/
theorem ClosedUnderSuccs.mem_recursiveComponents (closed : g.ClosedUnderSuccs ids)
    (regular : g.Regular) : component ∈ (g.subgraph ids).recursiveComponents ↔
      component ∈ g.recursiveComponents ∧ ∃ v ∈ component, v ∈ ids := by
  constructor
  · intro listed
    obtain ⟨sorted, v, inside, ⟨w, edge, back⟩, members⟩ :=
      (regular.subgraph ids).mem_recursiveComponents_iff.mp listed
    obtain ⟨inPart, _, edge⟩ := mem_subgraph_succs.mp edge
    refine ⟨regular.mem_recursiveComponents_iff.mpr ⟨sorted, v, inside,
      ⟨w, edge, reaches_of_subgraph back⟩, ?_⟩, v, inside, inPart⟩
    exact fun u => (members u).trans (closed.mutual_iff inPart)
  · intro both
    obtain ⟨listed, v, inside, inPart⟩ := both
    obtain ⟨sorted, _⟩ := regular.mem_recursiveComponents_iff.mp listed
    obtain ⟨w, edge, back⟩ := regular.leads_back_of_component listed inside
    have edge' := closed.edge inPart edge
    have back' := closed.reaches (closed v inPart w edge) back
    refine (regular.subgraph ids).mem_recursiveComponents_iff.mpr
      ⟨sorted, v, inside, ⟨w, edge', back'⟩, ?_⟩
    exact fun u => (regular.mem_component_iff listed inside).trans (closed.mutual_iff inPart).symm

/-- The nodes of a recursive component of a part are nodes of the part. -/
theorem Regular.component_within (regular : g.Regular)
    (listed : component ∈ (g.subgraph ids).recursiveComponents) : component ⊆ ids := by
  intro v inside
  obtain ⟨_, edge, _⟩ := (regular.subgraph ids).leads_back_of_component listed inside
  exact (mem_subgraph_succs.mp edge).1

theorem IsElementaryCycle.within (elementary : (g.subgraph ids).IsElementaryCycle cycle) :
    cycle ⊆ ids := by
  intro v passed
  obtain ⟨_, edge, _⟩ := elementary.isClosedWalk.leads_back passed
  exact (mem_subgraph_succs.mp edge).1

theorem subgraph_subgraph (within : component ⊆ ids) :
    (g.subgraph ids).subgraph component = g.subgraph component := by
  have nodes (id : Int) : ((g.subgraph ids).subgraph component).node? id =
      (g.subgraph component).node? id := by
    by_cases inside : id ∈ component
    · simp [CallGraph.subgraph, inside, within inside]
    · simp [CallGraph.subgraph, inside]
  have succs (id : Int) : ((g.subgraph ids).subgraph component).succs id =
      (g.subgraph component).succs id := by
    by_cases inside : id ∈ component
    · simp only [CallGraph.subgraph, inside, within inside, Std.HashSet.contains_ofList,
        List.contains_iff_mem, if_true, List.filter_filter]
      refine List.filter_congr fun w _ => ?_
      by_cases kept : w ∈ component
      · simp [kept, within kept]
      · simp [kept]
    · simp [CallGraph.subgraph, inside]
  calc (g.subgraph ids).subgraph component
      = { g.subgraph component with
          node? := ((g.subgraph ids).subgraph component).node?
          succs := ((g.subgraph ids).subgraph component).succs } := rfl
    _ = g.subgraph component := by rw [funext nodes, funext succs]

end CallGraph

open CallGraph

/-- The recursive components and the elementary cycles of the reachable part of a call graph are
those of the whole graph that have a reachable method, whatever search finds the components in the
search for cycles. All their methods can be reached, and a component has the same edges in both. -/
theorem reachable_part_exact {a : Arena} {steps : List BuildStep} (built : a.BuiltBy steps)
    (finder : ComponentFinder) (finds : FindsComponents finder) :
    let whole := CallGraph.ofArena a
    let part := whole.subgraph a.reachableMethods
    (∀ component, component ∈ part.recursiveComponents ↔
      component ∈ whole.recursiveComponents ∧ ∃ m ∈ component, m ∈ a.reachableMethods) ∧
    (∀ component ∈ part.recursiveComponents, (∀ m ∈ component, m ∈ a.reachableMethods) ∧
      part.subgraph component = whole.subgraph component) ∧
    (∀ cycle, cycle ∈ elementaryCyclesBy finder part ↔
      cycle ∈ elementaryCyclesBy finder whole ∧ ∃ m ∈ cycle, m ∈ a.reachableMethods) ∧
    ∀ cycle ∈ elementaryCyclesBy finder part, ∀ m ∈ cycle, m ∈ a.reachableMethods := by
  intro whole part
  have regular : whole.Regular := CallGraph.ofArena_regular a
  have ranged : whole.Ranged := CallGraph.ofArena_ranged built
  have closed : whole.ClosedUnderSuccs a.reachableMethods := by
    intro v inside w edge
    exact built.reachable_of_calledFrom inside
      (built.mem_calledFrom_iff.mpr (built.mem_succs_iff.mp edge))
  have components (component : List Int) : component ∈ part.recursiveComponents ↔
      component ∈ whole.recursiveComponents ∧ ∃ m ∈ component, m ∈ a.reachableMethods :=
    closed.mem_recursiveComponents regular
  have inPart (cycle : List Int) :
      cycle ∈ elementaryCyclesBy finder part ↔ part.IsElementaryCycle cycle :=
    finds.mem_elementaryCycles (regular.subgraph _) (ranged.subgraph _)
  have inWhole (cycle : List Int) :
      cycle ∈ elementaryCyclesBy finder whole ↔ whole.IsElementaryCycle cycle :=
    finds.mem_elementaryCycles regular ranged
  refine ⟨components, fun component listed => ?_, fun cycle => ?_, fun cycle found => ?_⟩
  · have within := regular.component_within listed
    exact ⟨within, CallGraph.subgraph_subgraph within⟩
  · rw [inPart, inWhole]
    exact closed.saturated.isElementaryCycle_iff
  · exact ((inPart cycle).mp found).within

/-- An entry point and two methods that it calls and that call each other. Of the methods that
nothing reaches one calls itself and the other one of those two. -/
def unusedRecursionSteps : List BuildStep :=
  let sig (name : Text) : Signature := ⟨"app.Main", name, "void", []⟩
  [.method (sig "main") true false, .method (sig "ping") true false,
    .method (sig "pong") true false, .method (sig "unused") true false,
    .method (sig "test") true false, .entryPoint 0,
    .statement 0 { target := some (sig "ping") }, .statement 1 { target := some (sig "pong") },
    .statement 2 { target := some (sig "ping") }, .statement 3 { target := some (sig "unused") },
    .statement 4 { target := some (sig "ping") },
    .edge 0 1, .edge 1 2, .edge 2 1, .edge 3 3, .edge 4 1]

theorem reachable_part_exact_unused :
    let a := Arena.ofProgram (Builder.run unusedRecursionSteps).program
    let whole := CallGraph.ofArena a
    let part := whole.subgraph a.reachableMethods
    a.BuiltBy unusedRecursionSteps ∧ FindsComponents depthFirst ∧ a.reachableMethods = [0, 1, 2] ∧
      (∃ component ∈ part.recursiveComponents, 1 ∈ component) ∧
      (∃ component ∈ whole.recursiveComponents,
        3 ∈ component ∧ component ∉ part.recursiveComponents) ∧
      [1, 2, 1] ∈ elementaryCyclesBy depthFirst part ∧
      [3, 3] ∈ elementaryCyclesBy depthFirst whole ∧
      [3, 3] ∉ elementaryCyclesBy depthFirst part := by
  intro a whole part
  have built : a.BuiltBy unusedRecursionSteps :=
    Arena.builtBy_ofProgram unusedRecursionSteps (by decide +kernel)
  have reachable : a.reachableMethods = [0, 1, 2] :=
    (Program.reachable_eq_filter a.toProgram).trans (by decide +kernel)
  have regular : whole.Regular := CallGraph.ofArena_regular a
  have found {cycle : List Int} (elementary : whole.IsElementaryCycle cycle) :
      cycle ∈ elementaryCyclesBy depthFirst whole :=
    (depthFirst_finds.mem_elementaryCycles regular (CallGraph.ofArena_ranged built)).mpr elementary
  have mutualCycle : [1, 2, 1] ∈ elementaryCyclesBy depthFirst whole :=
    found ⟨1, [2], rfl, by decide, by decide, by decide +kernel⟩
  have ownCycle : [3, 3] ∈ elementaryCyclesBy depthFirst whole :=
    found ⟨3, [], rfl, by decide, by decide, by decide +kernel⟩
  have forth : 2 ∈ whole.succs 1 := by decide +kernel
  have back : 1 ∈ whole.succs 2 := by decide +kernel
  have itself : 3 ∈ whole.succs 3 := by decide +kernel
  obtain ⟨called, isCalled, one⟩ := regular.component_of_cycle forth (.single back)
  obtain ⟨unused, isUnused, three⟩ := regular.component_of_cycle itself .refl
  obtain ⟨components, insides, cycles, _⟩ := reachable_part_exact built depthFirst depthFirst_finds
  have noPart : unused ∉ part.recursiveComponents := by
    intro listed
    have inside := (insides unused listed).1 3 three
    simp [reachable] at inside
  have inPart := (components called).mpr ⟨isCalled, 1, one, by simp [reachable]⟩
  exact ⟨built, depthFirst_finds, reachable, ⟨called, inPart, one⟩,
    ⟨unused, isUnused, three, noPart⟩, (cycles _).mpr ⟨mutualCycle, by simp [reachable]⟩, ownCycle,
    (cycles _).not.mpr (by simp [reachable])⟩

end PermissionGuard
