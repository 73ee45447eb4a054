import PermissionGuard.Proofs.CallGraph.Closings
import PermissionGuard.Proofs.Graph.Components
import PermissionGuard.Proofs.Program.Consistency
import PermissionGuard.Proofs.Program.Tables

/-!
The least component with a cycle. Of the search that finds the components only that is known what it
owes: it lists the components of the numbers below the order of a graph, as far as visits show the
graph (`FindsComponents`). In a graph whose edges stay below its order that is enough: the component
that is chosen has the least node of all that lead back to themselves (`leastComponent?_eq_some`).
-/

namespace PermissionGuard

open PermissionGuard.Graph

/-- Visits of the nodes of a view lead to nodes. -/
def GraphView.IsClosed (view : GraphView) : Prop :=
  ∀ v ∈ view.nodes, ∀ w ∈ view.next v, w ∈ view.nodes

/-- A list of the strongly connected components of the nodes of a view. -/
structure GraphView.IsDecomposition (view : GraphView) (found : List (List Int)) : Prop where
  mem_flatten : ∀ v, v ∈ found.flatten ↔ v ∈ view.nodes
  distinct : found.flatten.Nodup
  mem_iff : ∀ component ∈ found, ∀ v ∈ component, ∀ w, w ∈ component ↔ Mutual view.next v w

namespace CallGraph

variable {g : CallGraph} {finder : ComponentFinder} {start v w : Int} {component ids : List Int}

/-- The search lists the strongly connected components of the nodes of every view. -/
def FindsComponents (finder : ComponentFinder) : Prop :=
  ∀ view : GraphView, view.IsClosed → view.IsDecomposition (finder view)

theorem depthFirst_finds : FindsComponents depthFirst := by
  intro view closed
  have reached (v : Int) : ReachedFrom view.next view.nodes v ↔ v ∈ view.nodes := by
    refine ⟨fun ⟨root, isRoot, path⟩ => ?_, .of_root⟩
    exact Reaches.closed (· ∈ view.nodes) closed isRoot path
  have decomposes : Decomposes view.next view.nodes (depthFirst view) :=
    components_decomposes
      (successorsWithin_of_list view.nodes (fun v => (reached v).mp) (Nat.le_refl _))
  exact ⟨fun v => (decomposes.mem_flatten v).trans (reached v), decomposes.distinct,
    decomposes.mem_iff⟩

/-! ### What visits show of a call graph -/

theorem visitUntil_never (seen ws : List Int) :
    visitUntil (fun _ => false) seen ws = (seen ++ ws, false) := by
  induction ws generalizing seen with
  | nil => simp [visitUntil]
  | cons w ws ih => simp [visitUntil, ih]

theorem Regular.view_next (regular : g.Regular) : g.view.next = g.succs := by
  funext v
  cases node : g.node? v with
  | some shown => simp [view, GraphView.next, visit, node, visitUntil_never]
  | none =>
      have nothing : g.succs v = [] := by
        refine List.eq_nil_iff_forall_not_mem.mpr fun w edge => ?_
        have shown := regular.node?_isSome.mpr (regular.mem_keys edge)
        simp [node] at shown
      simp [view, GraphView.next, visit, node, nothing]

/-- The edges of a graph lead to numbers below its order. -/
def Ranged (g : CallGraph) : Prop := ∀ v, ∀ w ∈ g.succs v, w ∈ g.view.nodes

theorem mem_sortedIds {ids : List Int} : v ∈ sortedIds ids ↔ v ∈ ids :=
  mem_dropAdjacent.trans List.mem_mergeSort

theorem mem_ofArena_succs {a : Arena} {steps : List BuildStep} (built : a.BuiltBy steps) :
    w ∈ (ofArena a).succs v ↔ w ∈ a.calledFrom v := by
  rw [ofArena_succs]
  cases known : a.method? v with
  | none => simp [Program.calledFrom, known]
  | some method =>
      rw [Option.map_some, Option.getD_some, built.wellFormed.method_id known]
      exact mem_sortedIds

theorem ofArena_ranged {a : Arena} {steps : List BuildStep} (built : a.BuiltBy steps) :
    (ofArena a).Ranged := by
  intro v w edge
  have called := (mem_ofArena_succs built).mp edge
  rw [Program.calledFrom_eq] at called
  obtain ⟨c, _, callee⟩ := List.mem_flatMap.mp called
  obtain ⟨method, known, _⟩ := built.wellFormed.callees_known callee
  exact Program.mem_methodIds.mpr ⟨method, known⟩

theorem mem_subgraph_succs : w ∈ (g.subgraph ids).succs v ↔ v ∈ ids ∧ w ∈ ids ∧ w ∈ g.succs v := by
  simp only [CallGraph.subgraph]
  split
  · rename_i kept
    have inside : v ∈ ids := by simpa using kept
    rw [List.mem_filter]
    simp [inside, and_comm]
  · rename_i dropped
    have outside : v ∉ ids := by simpa using dropped
    simp [outside]

/-- A part of a graph has the order of the whole. -/
theorem Ranged.subgraph (ranged : g.Ranged) (ids : List Int) : (g.subgraph ids).Ranged :=
  fun v w edge => ranged v w (mem_subgraph_succs.mp edge).2.2

theorem narrowed_ranged {a : Arena} {steps : List BuildStep} (built : a.BuiltBy steps)
    (parts : List (List Int)) : (narrowed a parts).Ranged := by
  have kept : ∀ g : CallGraph, g.Ranged → (parts.foldl CallGraph.subgraph g).Ranged := by
    induction parts with
    | nil => exact fun g ranged => ranged
    | cons ids parts ih => exact fun g ranged => ih _ (ranged.subgraph ids)
  exact kept _ (ofArena_ranged built)

/-- What is found for a graph that visits show as it is. -/
theorem FindsComponents.decomposition (finds : FindsComponents finder) (regular : g.Regular)
    (ranged : g.Ranged) : g.view.IsDecomposition (finder g.view) := by
  refine finds g.view fun v _ w edge => ranged v w ?_
  rwa [regular.view_next] at edge

/-! ### Choosing among the components -/

/-- The component is one of those to choose from. -/
def Counts (g : CallGraph) (found : List Int) : Prop :=
  ∃ first rest, found = first :: rest ∧ (g.node? first).isSome ∧ g.isCyclic found = true

def inOrder (ids : List Int) : List Int := ids.mergeSort fun a b => decide (a ≤ b)

/-- The best of some components: none only if none counts, and else one with the least node. -/
structure IsBest (g : CallGraph) (found : List (List Int)) (best : Option (List Int)) : Prop where
  mem : ∀ nodes ∈ best, ∃ component ∈ found, g.Counts component ∧ nodes = inOrder component
  le : ∀ component ∈ found, g.Counts component →
    ∃ nodes ∈ best, nodes.headD 0 ≤ (inOrder component).headD 0

theorem better_of_not_counts {best : Option (List Int)} (not : ¬ g.Counts component) :
    g.better best component = best := by
  cases component with
  | nil => rfl
  | cons first rest =>
      have skipped : ((g.node? first).isNone || !g.isCyclic (first :: rest)) = true := by
        by_contra kept
        refine not ⟨first, rest, rfl, ?_⟩
        simpa [Option.isSome_iff_ne_none] using kept
      simp only [better, skipped, if_true]

theorem better_of_counts (best : Option (List Int)) (counts : g.Counts component) :
    ∃ nodes ∈ g.better best component, nodes.headD 0 ≤ (inOrder component).headD 0 ∧
      (∀ least ∈ best, nodes.headD 0 ≤ least.headD 0) ∧
      (nodes = inOrder component ∨ nodes ∈ best) := by
  obtain ⟨first, rest, rfl, shown, cyclic⟩ := counts
  have kept : ((g.node? first).isNone || !g.isCyclic (first :: rest)) = false := by
    simp [Option.isNone_eq_false_iff.mpr shown, cyclic]
  simp only [better, kept, Bool.false_eq_true, if_false]
  cases best with
  | none => exact ⟨_, rfl, Int.le_refl _, by simp, Or.inl rfl⟩
  | some least =>
      dsimp only
      split
      · rename_i less
        refine ⟨_, rfl, Int.le_refl _, ?_, Or.inl rfl⟩
        rintro _ ⟨⟩
        exact Int.le_of_lt less
      · rename_i notLess
        refine ⟨_, rfl, Int.not_lt.mp notLess, ?_, Or.inr rfl⟩
        rintro _ ⟨⟩
        exact Int.le_refl _

theorem IsBest.better {found : List (List Int)} {best : Option (List Int)}
    (isBest : g.IsBest found best) (component : List Int) :
    g.IsBest (found ++ [component]) (g.better best component) := by
  by_cases counts : g.Counts component
  · obtain ⟨nodes, chosen, le, lower, source⟩ := better_of_counts best counts
    constructor
    case mem =>
      intro nodes' chosen'
      cases Option.mem_unique chosen chosen'
      rcases source with rfl | before
      · exact ⟨component, by simp, counts, rfl⟩
      · obtain ⟨earlier, member, rest⟩ := isBest.mem nodes before
        exact ⟨earlier, List.mem_append_left _ member, rest⟩
    case le =>
      intro other member counts'
      refine ⟨nodes, chosen, ?_⟩
      rcases List.mem_append.mp member with before | last
      · obtain ⟨least, isLeast, small⟩ := isBest.le other before counts'
        exact Int.le_trans (lower least isLeast) small
      · cases List.mem_singleton.mp last
        exact le
  · rw [better_of_not_counts counts]
    constructor
    case mem =>
      intro nodes chosen
      obtain ⟨earlier, member, rest⟩ := isBest.mem nodes chosen
      exact ⟨earlier, List.mem_append_left _ member, rest⟩
    case le =>
      intro other member counts'
      rcases List.mem_append.mp member with before | last
      · exact isBest.le other before counts'
      · cases List.mem_singleton.mp last
        exact absurd counts' counts

theorem IsBest.foldl {found later : List (List Int)} {best : Option (List Int)}
    (isBest : g.IsBest found best) : g.IsBest (found ++ later) (later.foldl g.better best) := by
  induction later generalizing found best with
  | nil => simpa using isBest
  | cons component later ih => simpa using ih (isBest.better component)

theorem leastComponent?_isBest (finder : ComponentFinder) (g : CallGraph) :
    g.IsBest (finder g.view) (leastComponent? finder g) :=
  have none : g.IsBest [] none := ⟨by simp, by simp⟩
  none.foldl

/-! ### The chosen component in the graph -/

/-- A component with a node and a successor of it has a cycle. -/
theorem isCyclic_of_edge (inside : v ∈ component) (together : w ∈ component)
    (edge : w ∈ g.succs v) : g.isCyclic component = true := by
  match component, inside, together with
  | [u], inside, together =>
      cases List.mem_singleton.mp inside
      cases List.mem_singleton.mp together
      simpa [isCyclic, hasEdge] using edge
  | _ :: _ :: _, _, _ => rfl

/-- The nodes of a component with a cycle lead back to themselves. -/
theorem leads_back_of_isCyclic (distinct : component.Nodup) (inside : v ∈ component)
    (together : ∀ u ∈ component, Mutual g.succs v u) (cyclic : g.isCyclic component = true) :
    ∃ w ∈ g.succs v, Reaches g.succs w v := by
  by_cases alone : ∀ u ∈ component, u = v
  · -- A single node only counts with an edge to itself.
    have single : component = [v] := by
      match component, inside, alone, distinct with
      | [u], inside, _, _ => rw [List.mem_singleton.mp inside]
      | u :: u' :: rest, _, alone, distinct =>
          have same := (alone u (by simp)).trans (alone u' (by simp)).symm
          simp [same] at distinct
    rw [single] at cyclic
    exact ⟨v, List.contains_iff_mem.mp cyclic, .refl⟩
  · push Not at alone
    obtain ⟨u, member, different⟩ := alone
    obtain ⟨leads, back⟩ := together u member
    rcases Relation.ReflTransGen.cases_head leads with same | ⟨w, edge, rest⟩
    · exact absurd same.symm different
    · exact ⟨w, edge, Relation.ReflTransGen.trans rest back⟩

/-- The component of the least node that leads back to itself. -/
structure IsLeastClass (g : CallGraph) (start : Int) (component : List Int) : Prop where
  increasing : component.Pairwise (· < ·)
  mem_iff : ∀ w, w ∈ component ↔ Mutual g.succs start w
  leads_back : ∃ w ∈ g.succs start, Reaches g.succs w start
  lower : ∀ v, ∀ w ∈ g.succs v, Reaches g.succs w v → start ≤ v

theorem IsLeastClass.subset_keys (isLeast : g.IsLeastClass start component) (regular : g.Regular) :
    component ⊆ g.keys := by
  intro v inside
  obtain ⟨_, back⟩ := (isLeast.mem_iff v).mp inside
  rcases Relation.ReflTransGen.cases_head back with rfl | ⟨w, edge, _⟩
  · obtain ⟨w, edge, _⟩ := isLeast.leads_back
    exact regular.mem_keys edge
  · exact regular.mem_keys edge

/-- A node that leads back to itself is in a component that counts. -/
theorem FindsComponents.exists_counts (finds : FindsComponents finder) (regular : g.Regular)
    (ranged : g.Ranged) (edge : w ∈ g.succs v) (back : Reaches g.succs w v) :
    ∃ component ∈ finder g.view, g.Counts component ∧ v ∈ component := by
  have found := finds.decomposition regular ranged
  have known : v ∈ g.view.nodes :=
    Reaches.closed (· ∈ g.view.nodes) (fun u _ => ranged u) (ranged v w edge) back
  obtain ⟨component, member, inside⟩ := List.mem_flatten.mp ((found.mem_flatten v).mpr known)
  have members := found.mem_iff component member
  rw [regular.view_next] at members
  have cyclic := isCyclic_of_edge inside ((members v inside w).mpr ⟨.single edge, back⟩) edge
  obtain ⟨first, rest, rfl⟩ := List.exists_cons_of_ne_nil (List.ne_nil_of_mem inside)
  have distinct := (List.nodup_flatten.mp found.distinct).1 _ member
  obtain ⟨u, leaves, _⟩ := leads_back_of_isCyclic distinct List.mem_cons_self
    (fun u => (members first List.mem_cons_self u).mp) cyclic
  exact ⟨_, member, ⟨first, rest, rfl, regular.node?_isSome.mpr (regular.mem_keys leaves), cyclic⟩,
    inside⟩

theorem leastComponent?_eq_none (finds : FindsComponents finder) (regular : g.Regular)
    (ranged : g.Ranged) (none : leastComponent? finder g = none) (edge : w ∈ g.succs v) :
    ¬ Reaches g.succs w v := by
  intro back
  obtain ⟨component, member, counts, _⟩ := finds.exists_counts regular ranged edge back
  obtain ⟨nodes, chosen, _⟩ := (leastComponent?_isBest finder g).le component member counts
  simp [none] at chosen

theorem leastComponent?_eq_some (finds : FindsComponents finder) (regular : g.Regular)
    (ranged : g.Ranged) {nodes : List Int} (some : leastComponent? finder g = some nodes) :
    ∃ start others, nodes = start :: others ∧ g.IsLeastClass start nodes := by
  have found := finds.decomposition regular ranged
  have best := leastComponent?_isBest finder g
  obtain ⟨component, member, counts, rfl⟩ := best.mem nodes some
  have members := found.mem_iff component member
  rw [regular.view_next] at members
  have sorted : (inOrder component).Pairwise (· ≤ ·) := mergeSort_sorted component
  have distinct := (List.nodup_flatten.mp found.distinct).1 component member
  have same {v : Int} : v ∈ inOrder component ↔ v ∈ component := List.mem_mergeSort
  obtain ⟨first, rest, isFirst, _, cyclic⟩ := counts
  have nonempty : inOrder component ≠ [] :=
    List.ne_nil_of_mem (same.mpr (isFirst ▸ List.mem_cons_self : first ∈ component))
  obtain ⟨start, others, split⟩ := List.exists_cons_of_ne_nil nonempty
  have inside : start ∈ component := same.mp (split ▸ List.mem_cons_self)
  have isClass (w : Int) : w ∈ component ↔ Mutual g.succs start w := members start inside w
  refine ⟨start, others, split, ?_⟩
  constructor
  case increasing =>
    have apart : (inOrder component).Nodup := (List.mergeSort_perm _ _).nodup_iff.mpr distinct
    exact sorted.imp₂ (fun _ _ le ne => Int.lt_iff_le_and_ne.mpr ⟨le, ne⟩) apart
  case mem_iff =>
    exact fun w => same.trans (isClass w)
  case leads_back =>
    exact leads_back_of_isCyclic distinct inside (fun u => (isClass u).mp) cyclic
  case lower =>
    intro v w edge back
    obtain ⟨other, member', counts', inside'⟩ := finds.exists_counts regular ranged edge back
    obtain ⟨least, chosen, le⟩ := best.le other member' counts'
    cases Option.mem_unique (show inOrder component ∈ leastComponent? finder g from some) chosen
    have sorted' : (inOrder other).Pairwise (· ≤ ·) := mergeSort_sorted other
    have listed : v ∈ inOrder other := List.mem_mergeSort.mpr inside'
    rw [split, List.headD_cons] at le
    cases sortedOther : inOrder other with
    | nil => simp [sortedOther] at listed
    | cons head tail =>
        rw [sortedOther] at le listed sorted'
        rcases List.mem_cons.mp listed with rfl | later
        · exact le
        · exact Int.le_trans le (List.rel_of_pairwise_cons sorted' later)

end CallGraph

end PermissionGuard
