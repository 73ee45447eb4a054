import PermissionGuard.Proofs.CallGraph.Cycles
import Mathlib.Data.List.Cycle

/-!
The cycles of a call graph, component by component. A node that leads back to itself lies on an
elementary cycle (`exists_cycle_through`), the nodes of a cycle lie in one component, and the
components share no node. So taking the cycles of one component after the other gives every cycle
once, also when the search for cycles finds its components in another way
(`component_cycles_exact`).
-/

namespace PermissionGuard

variable {α : Type} {r : α → α → Prop} {next : α → List α} {a b : α} {list : List α}

/-- A closed walk may be started at each of its elements. -/
theorem exists_rotation (closed : Cycle.Chain r (list : Cycle α)) (member : a ∈ list) :
    ∃ before after, list = before ++ a :: after ∧ (a :: (after ++ before) ++ [a]).IsChain r := by
  obtain ⟨before, after, rfl⟩ := List.append_of_mem member
  have rotated : ((before ++ a :: after : List α) : Cycle α) = (a :: (after ++ before) : List α) :=
    Cycle.coe_eq_coe.mpr List.isRotated_append
  rw [rotated] at closed
  exact ⟨before, after, rfl, closed⟩

theorem mem_closed : b ∈ a :: list ++ [a] ↔ b ∈ a :: list := by
  rw [List.mem_append, List.mem_singleton]
  exact or_iff_left_of_imp fun last => last ▸ List.mem_cons_self

/-- What leads to an element does so without passing anything twice. -/
theorem Reaches.simple_path (leads : Reaches next a b) :
    ∃ path, (a :: path).IsChain (fun a b => b ∈ next a) ∧ (a :: path).Nodup ∧
      (a :: path).getLast? = some b := by
  induction leads using Relation.ReflTransGen.head_induction_on with
  | refl => exact ⟨[], by simp⟩
  | @head a c step _ ih =>
      obtain ⟨path, linked, distinct, last⟩ := ih
      by_cases again : a ∈ c :: path
      · -- The way back to `a` is a detour.
        obtain ⟨detour, rest, split⟩ := List.append_of_mem again
        rw [split] at linked distinct last
        refine ⟨rest, (List.isChain_append.mp linked).2.1, distinct.of_append_right, ?_⟩
        rwa [List.getLast?_append_cons] at last
      · refine ⟨c :: path, List.isChain_cons_cons.mpr ⟨step, linked⟩,
          List.nodup_cons.mpr ⟨again, distinct⟩, ?_⟩
        rwa [List.getLast?_cons_cons]

namespace CallGraph

open PermissionGuard.Graph

variable {g : CallGraph} {finder : ComponentFinder} {v w : Int} {walk cycle component : List Int}

/-- A walk along edges, of at least one, that ends where it starts. -/
def IsClosedWalk (g : CallGraph) (walk : List Int) : Prop :=
  ∃ first inner, walk = first :: inner ++ [first] ∧ walk.IsChain fun v w => g.hasEdge v w = true

theorem hasEdge_iff : g.hasEdge v w = true ↔ w ∈ g.succs v := List.contains_iff_mem

theorem IsClosedWalk.leads_back (closed : g.IsClosedWalk walk) (member : v ∈ walk) :
    ∃ w ∈ g.succs v, Reaches g.succs w v := by
  obtain ⟨first, inner, rfl, linked⟩ := closed
  have chained : Cycle.Chain (fun v w => g.hasEdge v w = true) (first :: inner : List Int) := linked
  obtain ⟨before, after, _, around⟩ := exists_rotation chained (mem_closed.mp member)
  simp only [hasEdge_iff] at around
  obtain ⟨w, rest, goesOn⟩ : ∃ w rest, (after ++ before) ++ [v] = w :: rest :=
    List.exists_cons_of_ne_nil (by simp)
  rw [List.cons_append, goesOn] at around
  refine ⟨w, (List.isChain_cons_cons.mp around).1, ?_⟩
  refine List.relationReflTransGen_of_exists_isChain_cons rest
    (List.isChain_cons_cons.mp around).2 ?_
  simp [← goesOn]

/-- A node that leads back to itself lies on a cycle that passes every node once. -/
theorem exists_cycle_through (edge : w ∈ g.succs v) (back : Reaches g.succs w v) :
    ∃ cycle, g.IsElementaryCycle cycle ∧ v ∈ cycle := by
  obtain ⟨path, linked, distinct, last⟩ := back.simple_path
  have nonempty : w :: path ≠ [] := List.cons_ne_nil w path
  have ends : (w :: path).getLast nonempty = v := by
    rwa [List.getLast?_eq_some_getLast nonempty, Option.some.injEq] at last
  have inside : v ∈ w :: path := ends ▸ List.getLast_mem nonempty
  have closed : Cycle.Chain (fun v w => g.hasEdge v w = true) (w :: path : List Int) := by
    simp only [hasEdge_iff]
    rw [Cycle.chain_ne_nil _ nonempty, ends]
    exact List.isChain_cons_cons.mpr ⟨edge, linked⟩
  -- The cycle is turned so that it starts with its least node.
  obtain ⟨least, isLeast⟩ : ∃ least, (w :: path).min? = some least :=
    Option.isSome_iff_exists.mp (by simp)
  obtain ⟨member, lower⟩ := List.min?_eq_some_iff.mp isLeast
  obtain ⟨before, after, split, around⟩ := exists_rotation closed member
  have turned : (w :: path).Perm (least :: (after ++ before)) := by
    rw [split]
    exact List.perm_append_comm
  refine ⟨_, ⟨least, after ++ before, rfl, turned.nodup_iff.mp distinct, ?_, around⟩, ?_⟩
  · exact fun x passed => lower x (turned.mem_iff.mpr (List.mem_cons_of_mem least passed))
  · exact List.mem_append.mpr (Or.inl (turned.mem_iff.mp inside))

/-! ### The cycles of a component -/

theorem FindsComponents.mem_elementaryCycles (finds : FindsComponents finder) (regular : g.Regular)
    (ranged : g.Ranged) : cycle ∈ elementaryCyclesBy finder g ↔ g.IsElementaryCycle cycle :=
  finds.mem_cyclesAmong regular ranged (Nat.le_refl _)

theorem FindsComponents.elementaryCycles_nodup (finds : FindsComponents finder)
    (regular : g.Regular) (ranged : g.Ranged) : (elementaryCyclesBy finder g).Nodup := by
  refine (cyclesAmong_exact finds regular ranged regular.lastKeys (Nat.le_refl _)).2.imp ?_
  rintro cycle _ less rfl
  exact List.lt_irrefl cycle less

theorem IsElementaryCycle.isClosedWalk (elementary : g.IsElementaryCycle cycle) :
    g.IsClosedWalk cycle := by
  obtain ⟨least, inner, same, _, _, linked⟩ := elementary
  exact ⟨least, inner, same, linked⟩

/-- With each of its nodes a list has all that lead to it and back. -/
def Saturated (g : CallGraph) (ids : List Int) : Prop :=
  ∀ v ∈ ids, ∀ w, Mutual g.succs v w → w ∈ ids

/-- The nodes of a cycle lead to each other, so the cycle stays among them. -/
theorem Saturated.isElementaryCycle_iff {ids : List Int} (saturated : g.Saturated ids) :
    (g.subgraph ids).IsElementaryCycle cycle ↔
      g.IsElementaryCycle cycle ∧ ∃ v ∈ cycle, v ∈ ids := by
  simp only [CallGraph.isElementaryCycle_iff]
  constructor
  · rintro ⟨start, inner, closes, rfl⟩
    obtain ⟨_, w, edge, _⟩ := closes.reaches
    exact ⟨⟨start, inner, closes.of_subgraph, rfl⟩, start, List.mem_cons_self,
      (mem_subgraph_succs.mp edge).1⟩
  · rintro ⟨⟨start, inner, closes, rfl⟩, v, passed, inside⟩
    have together (x : Int) (member : x ∈ start :: inner) : Mutual g.succs start x := by
      rcases List.mem_cons.mp member with rfl | between
      · exact ⟨.refl, .refl⟩
      · exact closes.reaches.1 x between
    have first : start ∈ ids := saturated v inside start (together v (mem_closed.mp passed)).symm
    have within (x : Int) (member : x ∈ start :: inner) : x ∈ ids :=
      saturated start first x (together x member)
    exact ⟨start, inner, closes.subgraph first within, rfl⟩

theorem Regular.cycle_of_component (regular : g.Regular)
    (listed : component ∈ g.recursiveComponents) :
    (g.subgraph component).IsElementaryCycle cycle ↔
      g.IsElementaryCycle cycle ∧ ∃ v ∈ cycle, v ∈ component :=
  Saturated.isElementaryCycle_iff fun _ inside _ both =>
    (regular.mem_component_iff listed inside).mpr both

theorem Regular.leads_back_of_component (regular : g.Regular)
    (listed : component ∈ g.recursiveComponents) (inside : v ∈ component) :
    ∃ w ∈ g.succs v, Reaches g.succs w v := by
  obtain ⟨found, member, cyclic, rfl⟩ := mem_recursiveComponents.mp listed
  have inFound : v ∈ found := mem_sortedIds.mp inside
  have distinct : found.Nodup := (List.nodup_flatten.mp regular.decomposes.distinct).1 found member
  exact leads_back_of_isCyclic distinct inFound
    (fun u => (regular.decomposes.mem_iff found member v inFound u).mp) cyclic

theorem Regular.recursiveComponents_disjoint (regular : g.Regular) :
    g.recursiveComponents.Pairwise List.Disjoint := by
  have apart := (List.nodup_flatten.mp regular.decomposes.distinct).2
  rw [recursiveComponents, List.pairwise_map]
  refine (apart.filter _).imp ?_
  intro found later disjoint v inside inside'
  exact disjoint (mem_sortedIds.mp inside) (mem_sortedIds.mp inside')

/-- The cycles of the recursive components of a graph, one component after the other. -/
def componentCycles (finder : ComponentFinder) (g : CallGraph) : List (List Int) :=
  g.recursiveComponents.flatMap fun component => elementaryCyclesBy finder (g.subgraph component)

theorem FindsComponents.componentCycles_nodup (finds : FindsComponents finder)
    (regular : g.Regular) (ranged : g.Ranged) : (componentCycles finder g).Nodup := by
  have members {component cycle : List Int}
      (found : cycle ∈ elementaryCyclesBy finder (g.subgraph component)) :
      (g.subgraph component).IsElementaryCycle cycle :=
    (finds.mem_elementaryCycles (regular.subgraph component) (ranged.subgraph component)).mp found
  rw [componentCycles, List.Nodup, List.pairwise_flatMap]
  refine ⟨fun component _ => finds.elementaryCycles_nodup (regular.subgraph component)
    (ranged.subgraph component), ?_⟩
  refine regular.recursiveComponents_disjoint.imp ?_
  rintro component later disjoint cycle found _ found' rfl
  -- A cycle that two components had in common would give them a common node.
  obtain ⟨start, inner, closes, rfl⟩ := isElementaryCycle_iff.mp (members found)
  obtain ⟨start', inner', closes', same⟩ := isElementaryCycle_iff.mp (members found')
  cases (List.cons.inj same).1
  have known := closes.mem_keys (regular.subgraph component) start List.mem_cons_self
  have known' := closes'.mem_keys (regular.subgraph later) start List.mem_cons_self
  exact disjoint (mem_subgraph_keys.mp known) (mem_subgraph_keys.mp known')

/-- The cycles found for a recursive component are those of the graph through its nodes. -/
theorem FindsComponents.mem_cycles_of_component (finds : FindsComponents finder)
    (regular : g.Regular) (ranged : g.Ranged) (listed : component ∈ g.recursiveComponents) :
    cycle ∈ elementaryCyclesBy finder (g.subgraph component) ↔
      g.IsElementaryCycle cycle ∧ ∃ v ∈ cycle, v ∈ component :=
  (finds.mem_elementaryCycles (regular.subgraph component) (ranged.subgraph component)).trans
    (regular.cycle_of_component listed)

theorem FindsComponents.mem_componentCycles (finds : FindsComponents finder) (regular : g.Regular)
    (ranged : g.Ranged) : cycle ∈ componentCycles finder g ↔ g.IsElementaryCycle cycle := by
  rw [componentCycles, List.mem_flatMap]
  constructor
  · rintro ⟨component, listed, found⟩
    exact ((finds.mem_cycles_of_component regular ranged listed).mp found).1
  · intro elementary
    obtain ⟨start, inner, closes, same⟩ := isElementaryCycle_iff.mp elementary
    obtain ⟨_, w, edge, back⟩ := closes.reaches
    obtain ⟨component, listed, inside⟩ := regular.component_of_cycle edge back
    refine ⟨component, listed, (finds.mem_cycles_of_component regular ranged listed).mpr ?_⟩
    exact ⟨elementary, start, by simp [same], inside⟩

/-- For a call graph, or any part of it such as that of the reachable methods, and whatever search
finds the components in the search for cycles: going through the recursive components finds every
elementary cycle once, every node of a component lies on a cycle found for it, and the nodes of the
components are those on closed walks. -/
theorem component_cycles_exact {a : Arena} {steps : List BuildStep} (built : a.BuiltBy steps)
    (parts : List (List Int)) (finder : ComponentFinder) (finds : FindsComponents finder) :
    let g := narrowed a parts
    (componentCycles finder g).Perm (elementaryCyclesBy finder g) ∧
    (∀ component ∈ g.recursiveComponents, ∀ m ∈ component,
      ∃ cycle ∈ elementaryCyclesBy finder (g.subgraph component), m ∈ cycle) ∧
    ∀ m, (∃ component ∈ g.recursiveComponents, m ∈ component) ↔
      ∃ walk, g.IsClosedWalk walk ∧ m ∈ walk := by
  intro g
  have regular : g.Regular := narrowed_regular a parts
  have ranged : g.Ranged := narrowed_ranged built parts
  refine ⟨?_, fun component listed m inside => ?_, fun m => ⟨?_, ?_⟩⟩
  · refine (List.perm_ext_iff_of_nodup (finds.componentCycles_nodup regular ranged)
      (finds.elementaryCycles_nodup regular ranged)).mpr fun cycle => ?_
    rw [finds.mem_componentCycles regular ranged, finds.mem_elementaryCycles regular ranged]
  · obtain ⟨w, edge, back⟩ := regular.leads_back_of_component listed inside
    obtain ⟨cycle, elementary, passed⟩ := exists_cycle_through edge back
    exact ⟨cycle, (finds.mem_cycles_of_component regular ranged listed).mpr
      ⟨elementary, m, passed, inside⟩, passed⟩
  · rintro ⟨component, listed, inside⟩
    obtain ⟨w, edge, back⟩ := regular.leads_back_of_component listed inside
    obtain ⟨cycle, elementary, passed⟩ := exists_cycle_through edge back
    exact ⟨cycle, elementary.isClosedWalk, passed⟩
  · rintro ⟨walk, closed, passed⟩
    obtain ⟨w, edge, back⟩ := closed.leads_back passed
    exact regular.component_of_cycle edge back

/-- In the graph with two cycles that share a method both are found for one component. -/
theorem component_cycles_exact_crossed :
    let a := Arena.ofProgram (Builder.run crossedCyclesSteps).program
    let g := narrowed a []
    a.BuiltBy crossedCyclesSteps ∧ FindsComponents depthFirst ∧
      (componentCycles depthFirst g).Perm (elementaryCyclesBy depthFirst g) ∧
      (∃ component ∈ g.recursiveComponents, 1 ∈ component) ∧
      ¬ ∃ component ∈ g.recursiveComponents, 0 ∈ component := by
  intro a g
  have built : a.BuiltBy crossedCyclesSteps :=
    Arena.builtBy_ofProgram crossedCyclesSteps (by decide +kernel)
  obtain ⟨perm, _, onWalks⟩ := component_cycles_exact built [] depthFirst depthFirst_finds
  have edge {v w : Int} (called : w ∈ a.calledFrom v) : (narrowed a []).hasEdge v w = true :=
    hasEdge_iff.mpr ((mem_ofArena_succs built).mpr called)
  have forth := @edge 1 2 (by decide +kernel)
  have back := @edge 2 1 (by decide +kernel)
  refine ⟨built, depthFirst_finds, perm, (onWalks 1).mpr ⟨[1, 2, 1], ?_, by decide⟩, ?_⟩
  · exact ⟨1, [2], rfl, by simp [forth, back]⟩
  · -- No method calls the entry.
    intro listed
    obtain ⟨walk, closed, passed⟩ := (onWalks 0).mp listed
    obtain ⟨w, leaves, leads⟩ := closed.leads_back passed
    have uncalled (v : Int) (enters : 0 ∈ (narrowed a []).succs v) : False := by
      have called := (mem_ofArena_succs built).mp enters
      rw [Program.calledFrom_eq] at called
      obtain ⟨c, _, callee⟩ := List.mem_flatMap.mp called
      have caller : c ∈ a.callersOf 0 := built.mem_callersOf_iff.mpr callee
      have nobody : a.callersOf 0 = [] := by decide +kernel
      simp [nobody] at caller
    rcases Relation.ReflTransGen.cases_tail leads with rfl | ⟨v, _, enters⟩
    · exact uncalled 0 leaves
    · exact uncalled v enters

end CallGraph

end PermissionGuard
