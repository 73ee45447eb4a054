import PermissionGuard.Proofs.Dominance
import PermissionGuard.Proofs.Program.Consistency
import PermissionGuard.Proofs.Program.ControlFlow
import PermissionGuard.Proofs.Program.Tables

/-!
The dominators of the statements of a finished program. Whatever search finds the immediate
dominators, the list of a statement holds the statements of its method that every walk from the
entry to it passes, in the order of dominance (`dominator_lists_exact`).
-/

namespace PermissionGuard

/-- A relation between positions, as one between the statements of a body. -/
def Method.Relates (method : Method) (related : Nat → Nat → Prop) (t u : StmtId) : Prop :=
  ∃ d e, method.body[d]? = some t ∧ method.body[e]? = some u ∧ related d e

open Program

variable {p : Program} {m : MethodId} {method : Method} {i : Nat} {s : StmtId}

/-- What holds of the positions of a chain of dominators holds of the statements there. -/
theorem DominatorChain.statements {list : List Nat}
    (chain : DominatorChain (p.FlowsTo method) list i)
    (reachable : Relation.ReflTransGen (p.FlowsTo method) 0 i) (distinct : method.body.Nodup)
    (position : method.body[i]? = some s) (within : ∀ d ∈ list, d < method.body.length) :
    let statements := list.filterMap (method.body[·]?)
    statements.Nodup ∧
    (∀ t, t ∈ statements ↔ method.Relates (Dominates (p.FlowsTo method)) t s) ∧
    statements.head? = method.body[0]? ∧ statements.getLast? = some s ∧
    statements.Pairwise (method.Relates (Dominates (p.FlowsTo method))) ∧
    statements.IsChain (method.Relates (ImmediatelyDominates (p.FlowsTo method))) := by
  intro statements
  have there (d : Nat) (member : d ∈ list) : method.body[d]? = some (method.body.getD d 0) := by
    simp [within d member]
  have named : statements = list.map (method.body.getD · 0) := by
    rw [← List.filterMap_eq_map]
    exact List.filterMap_congr there
  have injective {d e : Nat} (first : d ∈ list) (second : e ∈ list)
      (same : method.body.getD d 0 = method.body.getD e 0) : d = e := by
    have equal := (there d first).trans ((congrArg some same).trans (there e second).symm)
    exact (List.getElem?_inj (within d first) distinct).mp equal
  refine ⟨?_, fun t => ?_, ?_, ?_, ?_, ?_⟩
  · rw [named]
    exact chain.distinct.map_on fun d first e second => injective first second
  · rw [List.mem_filterMap]
    constructor
    · rintro ⟨d, listed, isThere⟩
      exact ⟨d, i, isThere, position, (chain.mem_iff d).mp listed⟩
    · rintro ⟨d, e, isThere, atEnd, dominates⟩
      have bound := (List.getElem?_eq_some_iff.mp atEnd).1
      cases (List.getElem?_inj bound distinct).mp (atEnd.trans position.symm)
      exact ⟨d, (chain.mem_iff d).mpr dominates, isThere⟩
  · rw [named, List.head?_map, chain.head]
    exact (there 0 (List.mem_of_head? chain.head)).symm
  · have last := chain.last reachable
    rw [named, List.getLast?_map, last, Option.map_some, ← there i (List.mem_of_getLast? last),
      position]
  · rw [named, List.pairwise_map]
    refine chain.ordered.imp_of_mem ?_
    exact fun first second dominates => ⟨_, _, there _ first, there _ second, dominates⟩
  · rw [named, List.isChain_map]
    refine (chain.immediate reachable).imp_of_mem_imp ?_
    exact fun d e first second immediate => ⟨d, e, there d first, there e second, immediate⟩

namespace Arena.BuiltWith

variable {a : Arena} {steps : List BuildStep} {finder : DominatorFinder}

theorem wellFormed (built : a.BuiltWith finder steps) : a.toProgram.WellFormed :=
  built.finished.wellFormed

theorem staysInside (built : a.BuiltWith finder steps) (known : a.method? m = some method) :
    a.StaysInside method :=
  fun _ member _ found => built.finished.succs_inside (m := m) known member found

theorem flowsTo_eq (built : a.BuiltWith finder steps) (known : a.method? m = some method) :
    a.FlowsTo method = fun i j => j ∈ (a.flowGraph method).next i := by
  funext i j
  exact propext (built.wellFormed.mem_flowGraph_next known (built.staysInside known)).symm

/-- The list of a statement comes from a chain of all positions that dominate its own. -/
theorem exists_chain (finds : FindsDominators finder) (built : a.BuiltWith finder steps)
    (known : a.method? m = some method) (position : method.body[i]? = some s) :
    (¬ Relation.ReflTransGen (a.FlowsTo method) 0 i → a.dominatorsOf s m = []) ∧
    (Relation.ReflTransGen (a.FlowsTo method) 0 i → ∃ positions,
      a.dominatorsOf s m = positions.filterMap (method.body[·]?) ∧
        DominatorChain (a.FlowsTo method) positions i) := by
  have bound := (List.getElem?_eq_some_iff.mp position).1
  have size : (a.flowGraph method).size = method.body.length := by
    simp [FlowGraph.size, flowGraph]
  have inside (i j : Nat) (edge : j ∈ (a.flowGraph method).next i) :
      j < (a.flowGraph method).size := by
    rw [size]
    exact ((built.wellFormed.mem_flowGraph_next known (built.staysInside known)).mp edge).inside
      (built.staysInside known)
  obtain ⟨unreachable, reached⟩ :=
    finds.lineage?_spec (i := i) inside (size ▸ Nat.zero_lt_of_lt bound)
  rw [built.flowsTo_eq known, built.dominatorsOf_eq known position,
    Program.dominatingPositions?, ← size]
  constructor
  · intro absent
    rw [unreachable absent]
    rfl
  · intro reachable
    obtain ⟨positions, found, chain⟩ := reached reachable
    exact ⟨positions, by rw [found]; rfl, chain⟩

/-- A statement that dominates one that the entry reaches is in the list of that one. -/
theorem mem_dominatorsOf {d : Nat} {t : StmtId} (finds : FindsDominators finder)
    (built : a.BuiltWith finder steps) (known : a.method? m = some method)
    (position : method.body[i]? = some s) (place : method.body[d]? = some t)
    (reachable : Relation.ReflTransGen (a.FlowsTo method) 0 i)
    (dominates : Dominates (a.FlowsTo method) d i) : t ∈ a.dominatorsOf s m := by
  obtain ⟨positions, isList, chain⟩ := (built.exists_chain finds known position).2 reachable
  rw [isList]
  exact List.mem_filterMap.mpr ⟨d, (chain.mem_iff d).mpr dominates, place⟩

end Arena.BuiltWith

/-- The dominators of a statement of a finished program, whatever search finds the immediate
dominators. If the entry of its method does not reach it there are none. Else they are, each once,
the statements of the method on every walk from the entry to it, from the entry down to the
statement itself: each dominates all later ones, and comes right before the one whose immediate
dominator it is. In another method the statement has none. -/
theorem dominator_lists_exact {finder : DominatorFinder} (finds : FindsDominators finder)
    {a : Arena} {steps : List BuildStep} (built : a.BuiltWith finder steps)
    (known : a.method? m = some method) (position : method.body[i]? = some s) :
    let flow := a.FlowsTo method
    let list := a.dominatorsOf s m
    (¬ Relation.ReflTransGen flow 0 i → list = []) ∧
    (Relation.ReflTransGen flow 0 i →
      list.Nodup ∧ (∀ t, t ∈ list ↔ method.Relates (Dominates flow) t s) ∧
      list.head? = method.body[0]? ∧ list.getLast? = some s ∧
      list.Pairwise (method.Relates (Dominates flow)) ∧
      list.IsChain (method.Relates (ImmediatelyDominates flow))) ∧
    ∀ other, other ≠ m → a.dominatorsOf s other = [] := by
  intro flow list
  have wellFormed := built.wellFormed
  have bound := (List.getElem?_eq_some_iff.mp position).1
  obtain ⟨unreachable, reached⟩ := built.exists_chain finds known position
  refine ⟨unreachable, fun reachable => ?_, fun other different => ?_⟩
  · obtain ⟨positions, isList, chain⟩ := reached reachable
    simp only [list, isList]
    refine chain.statements reachable
      ((wellFormed.body_increasing known).imp Int.ne_of_lt) position ?_
    intro d member
    have reachable' := ((chain.mem_iff d).mp member).reachable reachable
    exact (built.staysInside known).reachable_lt (Nat.zero_lt_of_lt bound) reachable'
  · obtain ⟨st, isStatement, inMethod, _⟩ := wellFormed.body_statement known position
    have elsewhere : (st.method == other) = false := by
      rw [inMethod]
      simpa using different.symm
    simp [Arena.dominatorsOf, isStatement, elsewhere]

/-- A branch that joins again, in a loop back to the entry, with an edge from a statement to itself
and a last statement that is never reached. -/
def loopSteps : List BuildStep :=
  [.method ⟨"app.Main", "run", "void", []⟩ true false,
    .statement 0 { succs := some [1, 2, 1] }, .statement 0 { succs := some [3] }, .statement 0 {},
    .statement 0 { succs := some [0, 3, 4] }, .statement 0 { succs := some [] },
    .statement 0 { succs := some [4, 1] }]

theorem dominator_lists_exact_loop :
    let finder := FlowGraph.avoidanceTree
    let a := Arena.ofProgramWith finder (Builder.run loopSteps).program
    let method : Method := ⟨0, ⟨"app.Main", "run", "void", []⟩, true, false, [0, 1, 2, 3, 4, 5], []⟩
    FindsDominators finder ∧ a.BuiltWith finder loopSteps ∧ a.method? 0 = some method ∧
      (a.dominatorsOf 4 0).head? = some 0 ∧ (a.dominatorsOf 4 0).getLast? = some 4 ∧
      3 ∈ a.dominatorsOf 4 0 ∧ 1 ∉ a.dominatorsOf 4 0 ∧
      a.dominatorsOf 5 0 = [] ∧ a.dominatorsOf 4 1 = [] := by
  intro finder a method
  have built : a.BuiltWith finder loopSteps := Arena.builtBy_ofProgram loopSteps (by decide)
  have known : a.method? 0 = some method := by decide
  have flow := built.flowsTo_eq known
  have edges : (a.flowGraph method).succs = #[[1, 2, 1], [3], [3], [0, 3, 4], [], [4, 1]] := by
    decide +kernel
  have next (j : Nat) : (a.flowGraph method).next j =
      #[[1, 2, 1], [3], [3], [0, 3, 4], [], [4, 1]].getD j [] := by
    rw [FlowGraph.next, edges]
  have walk : EntryWalk (a.FlowsTo method) [0, 2, 3, 4] 4 :=
    ⟨rfl, rfl, by simp [flow, next]⟩
  have narrow : ∀ x y, a.FlowsTo method x y → x < 3 → y ≤ 3 := by
    intro x y leads before
    rw [flow, next] at leads
    have steps : ∀ x < 3, ∀ y ∈ #[[1, 2, 1], [3], [3], [0, 3, 4], [], [4, 1]].getD x [], y ≤ 3 := by
      decide
    exact steps x before y leads
  have noWay : ¬ Relation.ReflTransGen (a.FlowsTo method) 0 5 := by
    intro leads
    rw [flow] at leads
    have kept : ∀ x < 5, ∀ y ∈ #[[1, 2, 1], [3], [3], [0, 3, 4], [], [4, 1]].getD x [], y < 5 := by
      decide
    have inside := Reaches.closed (· < 5) (fun x below y step => kept x below y (next x ▸ step))
      (by decide) leads
    exact absurd inside (by decide)
  obtain ⟨_, reached, elsewhere⟩ :=
    dominator_lists_exact FlowGraph.avoidanceTree_finds built known (i := 4) rfl
  obtain ⟨unreachable, _⟩ :=
    dominator_lists_exact FlowGraph.avoidanceTree_finds built known (i := 5) rfl
  obtain ⟨_, members, first, last, _⟩ := reached (exists_entryWalk.mp ⟨_, walk⟩)
  refine ⟨FlowGraph.avoidanceTree_finds, built, known, first, last, ?_, ?_, unreachable noWay,
    elsewhere 1 (by decide)⟩
  · exact (members 3).mpr ⟨3, 4, rfl, rfl, .of_narrow narrow (by decide)⟩
  · -- Position 1 is on one side of the branch only.
    intro listed
    obtain ⟨d, e, place, final, dominates⟩ := (members 1).mp listed
    have distinct : method.body.Nodup := by decide
    have here : method.body[1]? = method.body[d]? := place.symm
    have there : method.body[4]? = method.body[e]? := final.symm
    cases (List.getElem?_inj (by decide) distinct).mp here
    cases (List.getElem?_inj (by decide) distinct).mp there
    exact absurd (dominates _ walk) (by decide)

end PermissionGuard
