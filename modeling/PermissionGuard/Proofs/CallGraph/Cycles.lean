import PermissionGuard.Proofs.CallGraph.Circuits
import PermissionGuard.Proofs.CallGraph.LeastComponent

/-!
The elementary cycles of a call graph. The nodes of a cycle lead to each other, so a cycle stays in
the component of its least node, also in the part of the graph that has only the greater nodes.
Searching the components with the least node of all that are left finds every cycle, whatever search
finds the components (`elementaryCycles_exact`).
-/

namespace PermissionGuard.CallGraph

open PermissionGuard.Graph

variable {g : CallGraph} {finder : ComponentFinder} {start v w : Int}
variable {path inner component ids : List Int} {budget : Nat}

/-! ### Cycles in parts of a graph -/

theorem mem_subgraph_keys : v ∈ (g.subgraph ids).keys ↔ v ∈ ids := List.mem_mergeSort

theorem Closes.of_subgraph (closes : Closes (g.subgraph ids) start path v inner) :
    Closes g start path v inner := by
  induction closes with
  | back edge => exact .back (mem_subgraph_succs.mp edge).2.2
  | pass edge above new _ ih => exact .pass (mem_subgraph_succs.mp edge).2.2 above new ih

theorem Closes.subgraph (closes : Closes g start path v inner) (isStart : start ∈ ids)
    (within : ∀ x ∈ v :: inner, x ∈ ids) : Closes (g.subgraph ids) start path v inner := by
  induction closes with
  | back edge => exact .back (mem_subgraph_succs.mpr ⟨within _ List.mem_cons_self, isStart, edge⟩)
  | @pass path v w inner edge above new _ ih =>
      have later : ∀ x ∈ w :: inner, x ∈ ids := fun x member =>
        within x (List.mem_cons_of_mem v member)
      have edge' := mem_subgraph_succs.mpr
        ⟨within v List.mem_cons_self, later w List.mem_cons_self, edge⟩
      exact .pass edge' above new (ih later)

theorem Closes.mem_keys (regular : g.Regular) (closes : Closes g start path v inner) :
    ∀ x ∈ v :: inner, x ∈ g.keys := by
  induction closes with
  | back edge => simpa using regular.mem_keys edge
  | pass edge _ _ _ ih =>
      intro x member
      rcases List.mem_cons.mp member with rfl | later
      · exact regular.mem_keys edge
      · exact ih x later

theorem Closes.reaches (closes : Closes g start path v inner) :
    (∀ x ∈ inner, Reaches g.succs v x ∧ Reaches g.succs x start) ∧
      ∃ w ∈ g.succs v, Reaches g.succs w start := by
  induction closes with
  | back edge => exact ⟨fun x member => absurd member List.not_mem_nil, start, edge, .refl⟩
  | @pass path v w inner edge _ _ _ ih =>
      obtain ⟨between, u, step, leads⟩ := ih
      have back : Reaches g.succs w start := Relation.ReflTransGen.head step leads
      refine ⟨fun x member => ?_, w, edge, back⟩
      rcases List.mem_cons.mp member with rfl | later
      · exact ⟨.single edge, back⟩
      · exact ⟨Relation.ReflTransGen.head edge (between x later).1, (between x later).2⟩

/-! ### Components with cycles -/

theorem Regular.decomposes (regular : g.Regular) : Decomposes g.succs g.keys g.components :=
  components_decomposes (regular.edges_bounded _)

theorem mem_recursiveComponents : component ∈ g.recursiveComponents ↔
    ∃ found ∈ g.components, g.isCyclic found = true ∧ sortedIds found = component := by
  simp only [recursiveComponents, List.mem_map, List.mem_filter, and_assoc]

/-- A recursive component is the class of each of its nodes. -/
theorem Regular.mem_component_iff (regular : g.Regular)
    (listed : component ∈ g.recursiveComponents) (inside : v ∈ component) :
    w ∈ component ↔ Mutual g.succs v w := by
  obtain ⟨found, member, _, rfl⟩ := mem_recursiveComponents.mp listed
  rw [mem_sortedIds]
  exact regular.decomposes.mem_iff found member v (mem_sortedIds.mp inside) w

/-- A node that leads back to itself has a recursive component. -/
theorem Regular.component_of_cycle (regular : g.Regular) (edge : w ∈ g.succs v)
    (back : Reaches g.succs w v) : ∃ component ∈ g.recursiveComponents, v ∈ component := by
  have decomposes := regular.decomposes
  obtain ⟨found, member, inside⟩ := List.mem_flatten.mp
    ((decomposes.mem_flatten v).mpr (.of_root (regular.mem_keys edge)))
  have together : w ∈ found :=
    (decomposes.mem_iff found member v inside w).mpr ⟨.single edge, back⟩
  exact ⟨sortedIds found, mem_recursiveComponents.mpr
    ⟨found, member, isCyclic_of_edge inside together edge, rfl⟩, mem_sortedIds.mpr inside⟩

theorem nil_not_mem_recursiveComponents (regular : g.Regular) : [] ∉ g.recursiveComponents := by
  intro listed
  obtain ⟨found, member, _, empty⟩ := mem_recursiveComponents.mp listed
  have nothing : found = [] := by
    refine List.eq_nil_iff_forall_not_mem.mpr fun v inside => ?_
    have impossible := mem_sortedIds.mpr inside
    rw [empty] at impossible
    cases impossible
  exact regular.decomposes.nonempty (nothing ▸ member)

/-! ### All cycles -/

theorem mem_dropWhile_le {ids : List Int} (sorted : ids.Pairwise (· ≤ ·)) :
    v ∈ ids.dropWhile (· ≤ start) ↔ v ∈ ids ∧ start < v := by
  induction ids with
  | nil => simp
  | cons first ids ih =>
      rw [List.dropWhile_cons]
      split
      · rename_i low
        rw [ih sorted.of_cons, List.mem_cons]
        have notAbove : ¬ start < first := by simpa using low
        grind
      · rename_i high
        have above : start < first := by simpa using high
        refine ⟨fun member => ⟨member, ?_⟩, And.left⟩
        rcases List.mem_cons.mp member with rfl | later
        · exact above
        · exact Int.lt_of_lt_of_le above (List.rel_of_pairwise_cons sorted later)

/-- The last keys of a graph, in order. -/
structure LastKeys (g : CallGraph) (keys : List Int) : Prop where
  sorted : keys.Pairwise (· ≤ ·)
  upward : ∀ key ∈ keys, ∀ v ∈ g.keys, key ≤ v → v ∈ keys

theorem LastKeys.rest {key : Int} {later : List Int} (keys : g.LastKeys (key :: later))
    (known : start ∈ key :: later) : g.LastKeys (later.dropWhile (· ≤ start)) ∧
      ∀ v, v ∈ later.dropWhile (· ≤ start) ↔ v ∈ key :: later ∧ start < v := by
  have least : key ≤ start := by
    rcases List.mem_cons.mp known with rfl | after
    · exact Int.le_refl _
    · exact List.rel_of_pairwise_cons keys.sorted after
  have members (v : Int) : v ∈ later.dropWhile (· ≤ start) ↔ v ∈ key :: later ∧ start < v := by
    rw [mem_dropWhile_le keys.sorted.of_cons, List.mem_cons]
    refine ⟨fun ⟨member, above⟩ => ⟨Or.inr member, above⟩, fun ⟨member, above⟩ => ⟨?_, above⟩⟩
    exact member.resolve_left fun same => by omega
  refine ⟨⟨keys.sorted.of_cons.sublist (List.dropWhile_sublist _), ?_⟩, members⟩
  intro low member v known above
  obtain ⟨inside, greater⟩ := (members low).mp member
  exact (members v).mpr ⟨keys.upward low inside v known above, Int.lt_of_lt_of_le greater above⟩

/-- A cycle with its least node among the last keys is a cycle of their part of the graph. -/
theorem Closes.among {keys : List Int} (regular : g.Regular) (last : g.LastKeys keys)
    (closes : Closes g start [] start inner) (known : start ∈ keys) :
    Closes (g.subgraph keys) start [] start inner := by
  refine closes.subgraph known fun x member => ?_
  refine last.upward start known x (closes.mem_keys regular x member) ?_
  rcases List.mem_cons.mp member with rfl | inside
  · exact Int.le_refl _
  · exact Int.le_of_lt ((closes_iff.mp closes).2.2 x inside).1

/-- The cycles through the least node of all components are found in its component. -/
theorem IsLeastClass.cyclesThrough {others : List Int}
    (isLeast : g.IsLeastClass start (start :: others)) (regular : g.Regular)
    (room : g.keys.length ≤ budget) :
    let cycles := (g.subgraph (start :: others)).cyclesThrough budget start
    (∀ cycle, cycle ∈ cycles ↔
      ∃ inner, Closes g start [] start inner ∧ cycle = start :: inner ++ [start]) ∧
    cycles.Pairwise (· < ·) := by
  intro cycles
  have regular' := regular.subgraph (start :: others)
  have fits : (g.subgraph (start :: others)).keys.length ≤ budget := by
    have shorter := (List.subperm_of_subset (isLeast.increasing.imp Int.ne_of_lt)
      (isLeast.subset_keys regular)).length_le
    have same : (g.subgraph (start :: others)).keys.length = (start :: others).length :=
      List.length_mergeSort _
    omega
  have equal : cycles = closings (g.subgraph (start :: others)) start budget [start] := by
    apply cyclesThrough_eq
    · intro v w edge
      have member := (mem_subgraph_succs.mp edge).2.1
      refine ⟨?_, mem_subgraph_keys.mpr member⟩
      rcases List.mem_cons.mp member with rfl | later
      · exact Int.le_refl _
      · exact Int.le_of_lt (List.rel_of_pairwise_cons isLeast.increasing later)
    · exact mem_subgraph_keys.mpr List.mem_cons_self
    · exact fits
  refine ⟨fun cycle => ?_, equal ▸ closings_increasing regular' start budget [start]⟩
  rw [equal, mem_closings]
  constructor
  · rintro ⟨inner, _, closes, rfl⟩
    exact ⟨inner, closes.of_subgraph, by simp⟩
  · rintro ⟨inner, closes, rfl⟩
    have closes' : Closes (g.subgraph (start :: others)) start [] start inner := by
      refine closes.subgraph List.mem_cons_self fun x member => ?_
      rcases List.mem_cons.mp member with rfl | between
      · exact List.mem_cons_self
      · exact (isLeast.mem_iff x).mpr (closes.reaches.1 x between)
    exact ⟨inner, Nat.lt_of_lt_of_le (closes'.length_lt regular') fits, closes', by simp⟩

/-- The least node of a cycle among the last keys leads back to itself in their part. -/
theorem Closes.leads_back {keys : List Int} (regular : g.Regular) (last : g.LastKeys keys)
    (closes : Closes g start [] start inner) (known : start ∈ keys) :
    ∃ w ∈ (g.subgraph keys).succs start, Reaches (g.subgraph keys).succs w start :=
  (closes.among regular last known).reaches.2

/-- The cycles among the last keys of a graph are those that have their least node there. -/
theorem cyclesAmong_exact {keys : List Int} (finds : FindsComponents finder) (regular : g.Regular)
    (ranged : g.Ranged) (last : g.LastKeys keys) (room : keys.length ≤ budget) :
    (∀ cycle, cycle ∈ cyclesAmong finder g budget keys ↔ ∃ start ∈ keys, ∃ inner,
      Closes g start [] start inner ∧ cycle = start :: inner ++ [start]) ∧
    (cyclesAmong finder g budget keys).Pairwise (· < ·) := by
  fun_induction cyclesAmong finder g budget keys with
  | case1 => simp
  | case2 key later part start others least ih =>
      have regular' : part.Regular := regular.subgraph (key :: later)
      have fits : part.keys.length ≤ budget := by
        simpa [part, CallGraph.subgraph, List.length_mergeSort] using room
      obtain ⟨_, _, ⟨⟩, isLeast⟩ :=
        leastComponent?_eq_some finds regular' (ranged.subgraph (key :: later)) least
      obtain ⟨through, increasing⟩ := isLeast.cyclesThrough regular' fits
      have known : start ∈ key :: later :=
        mem_subgraph_keys.mp (isLeast.subset_keys regular' List.mem_cons_self)
      obtain ⟨rest, members⟩ := last.rest known
      have shorter := (List.dropWhile_sublist (l := later) (· ≤ start)).length_le
      rw [List.length_cons] at room
      obtain ⟨others, increasing'⟩ := ih rest (by omega)
      constructor
      · intro cycle
        rw [List.mem_append, through, others]
        constructor
        · rintro (⟨inner, closes, rfl⟩ | ⟨s, member, inner, closes, rfl⟩)
          · exact ⟨start, known, inner, closes.of_subgraph, rfl⟩
          · exact ⟨s, ((members s).mp member).1, inner, closes, rfl⟩
        · -- No cycle has a least node below that of the least component.
          rintro ⟨s, member, inner, closes, rfl⟩
          obtain ⟨w, edge, back⟩ := closes.leads_back regular last member
          rcases Int.lt_or_eq_of_le (isLeast.lower s w edge back) with less | rfl
          · exact Or.inr ⟨s, (members s).mpr ⟨member, less⟩, inner, closes, rfl⟩
          · exact Or.inl ⟨inner, closes.among regular last member, rfl⟩
      · refine List.pairwise_append.mpr ⟨increasing, increasing', ?_⟩
        intro cycle member cycle' member'
        obtain ⟨inner, _, rfl⟩ := (through cycle).mp member
        obtain ⟨s, after, inner', _, rfl⟩ := (others cycle').mp member'
        exact List.cons_lt_cons_iff.mpr (Or.inl ((members s).mp after).2)
  | case3 key later part noComponent =>
      have regular' : part.Regular := regular.subgraph (key :: later)
      have ranged' : part.Ranged := ranged.subgraph (key :: later)
      refine ⟨fun cycle => ⟨fun member => absurd member List.not_mem_nil, ?_⟩, .nil⟩
      rintro ⟨s, member, inner, closes, rfl⟩
      obtain ⟨w, edge, back⟩ := closes.leads_back regular last member
      cases least : leastComponent? finder part with
      | none => exact absurd back (leastComponent?_eq_none finds regular' ranged' least edge)
      | some nodes =>
          obtain ⟨start, others, rfl, _⟩ := leastComponent?_eq_some finds regular' ranged' least
          exact absurd least (noComponent start others)

theorem Regular.lastKeys (regular : g.Regular) : g.LastKeys g.keys :=
  ⟨regular.keys_sorted, fun _ _ _ known _ => known⟩

theorem FindsComponents.mem_cyclesAmong {cycle : List Int} (finds : FindsComponents finder)
    (regular : g.Regular) (ranged : g.Ranged) (room : g.keys.length ≤ budget) :
    cycle ∈ cyclesAmong finder g budget g.keys ↔ g.IsElementaryCycle cycle := by
  rw [isElementaryCycle_iff]
  refine ((cyclesAmong_exact finds regular ranged regular.lastKeys room).1 cycle).trans
    ⟨fun ⟨start, _, found⟩ => ⟨start, found⟩, ?_⟩
  rintro ⟨start, inner, closes, rfl⟩
  exact ⟨start, closes.mem_keys regular start List.mem_cons_self, inner, closes, rfl⟩

/-- Whatever search finds the components, the elementary cycles of a call graph, or of any part of
it, are listed exactly and in strictly increasing lexicographic order. A larger budget finds no
others. -/
theorem elementaryCycles_exact {a : Arena} {steps : List BuildStep} (built : a.BuiltBy steps)
    (parts : List (List Int)) (finder : ComponentFinder) (finds : FindsComponents finder) :
    let g := narrowed a parts
    (∀ cycle, cycle ∈ elementaryCyclesBy finder g ↔ g.IsElementaryCycle cycle) ∧
    (elementaryCyclesBy finder g).Pairwise (· < ·) ∧
    ∀ more, cyclesAmong finder g (g.keys.length + more) g.keys = elementaryCyclesBy finder g := by
  intro g
  have regular : g.Regular := narrowed_regular a parts
  have ranged : g.Ranged := narrowed_ranged built parts
  have members (more : Nat) (cycle : List Int) :
      cycle ∈ cyclesAmong finder g (g.keys.length + more) g.keys ↔ g.IsElementaryCycle cycle :=
    finds.mem_cyclesAmong regular ranged (Nat.le_add_right _ _)
  have increasing (more : Nat) :
      (cyclesAmong finder g (g.keys.length + more) g.keys).Pairwise (· < ·) :=
    (cyclesAmong_exact finds regular ranged regular.lastKeys (Nat.le_add_right _ _)).2
  refine ⟨members 0, increasing 0, fun more => ?_⟩
  exact eq_of_pairwise_of_mem (fun _ _ => List.lt_asymm) (increasing more) (increasing 0)
    fun cycle => (members more cycle).trans (members 0 cycle).symm

/-- Four methods on two cycles that share a method, one on a cycle of its own, and an entry. -/
def crossedCyclesSteps : List BuildStep :=
  let sig (name : Text) : Signature := ⟨"app.M", name, "void", []⟩
  let call (m : MethodId) (name : Text) : BuildStep := .statement m { target := some (sig name) }
  [.method (sig "main") true false, .method (sig "a") true false, .method (sig "b") true false,
    .method (sig "c") true false, .method (sig "d") true false, .method (sig "e") true false,
    call 0 "a", call 1 "b", call 1 "d", call 2 "a", call 2 "c", call 3 "c", call 4 "e",
    call 5 "d", call 5 "a",
    .edge 0 1, .edge 1 2, .edge 2 4, .edge 3 1, .edge 4 3, .edge 5 3, .edge 6 5, .edge 7 4,
    .edge 8 1]

theorem elementaryCycles_exact_crossed :
    let a := Arena.ofProgram (Builder.run crossedCyclesSteps).program
    let g := narrowed a [[5, 4, 3, 1]]
    a.BuiltBy crossedCyclesSteps ∧ FindsComponents depthFirst ∧
      [1, 4, 5, 1] ∈ elementaryCyclesBy depthFirst g ∧
      [3, 3] ∈ elementaryCyclesBy depthFirst g ∧ [4, 5, 4] ∈ elementaryCyclesBy depthFirst g ∧
      [1, 2, 1] ∉ elementaryCyclesBy depthFirst g := by
  intro a g
  have built : a.BuiltBy crossedCyclesSteps :=
    Arena.builtBy_ofProgram crossedCyclesSteps (by decide +kernel)
  have edge {v w : Int} (called : w ∈ a.calledFrom v) (leaves : v ∈ [5, 4, 3, 1])
      (enters : w ∈ [5, 4, 3, 1]) : (narrowed a [[5, 4, 3, 1]]).hasEdge v w = true :=
    List.contains_iff_mem.mpr
      (mem_subgraph_succs.mpr ⟨leaves, enters, (mem_ofArena_succs built).mpr called⟩)
  have oneFour := @edge 1 4 (by decide +kernel) (by decide) (by decide)
  have fourFive := @edge 4 5 (by decide +kernel) (by decide) (by decide)
  have fiveOne := @edge 5 1 (by decide +kernel) (by decide) (by decide)
  have fiveFour := @edge 5 4 (by decide +kernel) (by decide) (by decide)
  have threeThree := @edge 3 3 (by decide +kernel) (by decide) (by decide)
  obtain ⟨members, _⟩ := elementaryCycles_exact built [[5, 4, 3, 1]] depthFirst depthFirst_finds
  refine ⟨built, depthFirst_finds, (members _).mpr ?_, (members _).mpr ?_, (members _).mpr ?_, ?_⟩
  · exact ⟨1, [4, 5], rfl, by decide, by decide, by simp [oneFour, fourFive, fiveOne]⟩
  · exact ⟨3, [], rfl, by decide, by decide, by simp [threeThree]⟩
  · exact ⟨4, [5], rfl, by decide, by decide, by simp [fourFive, fiveFour]⟩
  · -- Method 2 is not in the part.
    intro found
    obtain ⟨_, _, _, _, _, linked⟩ := (members _).mp found
    have edge := (List.isChain_cons_cons.mp linked).1
    exact absurd (mem_subgraph_succs.mp (List.contains_iff_mem.mp edge)).2.1 (by decide)

end PermissionGuard.CallGraph
