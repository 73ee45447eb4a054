import PermissionGuard.Proofs.Graph.DepthFirst
import Mathlib.Data.List.Nodup

/-!
The components that a depth-first search lists. No component leads to a newer one, and nothing is
left on the stack, so the nodes of different components never lead to each other and every node that
is reached has its component (`components_exact`).
-/

namespace PermissionGuard.Graph

variable {α : Type} {next : α → List α} {v w : α} {listed : List (List α)} {nodes : List α}
variable {edges : Nat}

/-- Two nodes lead to each other. -/
def Mutual (next : α → List α) (v w : α) : Prop := Reaches next v w ∧ Reaches next w v

theorem Settled.closed (settled : Settled next listed) (inside : v ∈ listed.flatten)
    (leads : Reaches next v w) : w ∈ listed.flatten :=
  Reaches.closed (· ∈ listed.flatten) (fun _ inside _ => settled.mem_of_step inside) inside leads

/-- A node of a component leads to none of a newer one. -/
theorem Settled.pairwise (settled : Settled next listed) (distinct : listed.flatten.Nodup) :
    listed.Pairwise fun newer older => ∀ v ∈ older, ∀ w ∈ newer, ¬ Reaches next v w := by
  induction settled with
  | nil => exact .nil
  | cons _ _ _ rest ih =>
      obtain ⟨_, later, apart⟩ := List.nodup_append.mp distinct
      refine .cons ?_ (ih later)
      intro older member v inside w newest leads
      have back := rest.closed (List.mem_flatten.mpr ⟨older, member, inside⟩) leads
      exact apart w newest w back rfl

/-- A component is the class of each of its nodes. -/
theorem Settled.mem_iff (settled : Settled next listed) (distinct : listed.flatten.Nodup)
    {component : List α} (member : component ∈ listed) (inside : v ∈ component) :
    w ∈ component ↔ Mutual next v w := by
  induction settled with
  | nil => cases member
  | @cons newest earlier _ together closed rest ih =>
      obtain ⟨_, later, apart⟩ := List.nodup_append.mp distinct
      rcases List.mem_cons.mp member with rfl | before
      · refine ⟨fun inside' => ⟨together v inside w inside', together w inside' v inside⟩, ?_⟩
        intro both
        have listed := (Settled.cons (List.ne_nil_of_mem inside) together closed rest).closed
          (List.mem_append_left _ inside) both.1
        refine (List.mem_append.mp listed).resolve_right fun older => ?_
        exact apart v inside v (rest.closed older both.2) rfl
      · exact ih later before

theorem Settled.nil_not_mem (settled : Settled next listed) : [] ∉ listed := by
  induction settled with
  | nil => exact List.not_mem_nil
  | cons nonempty _ _ _ ih => exact mt List.mem_cons.mp (not_or.mpr ⟨nonempty.symm, ih⟩)

/-- A list of the components of all that some nodes reach, none of which leads to a later one. -/
structure Decomposes (next : α → List α) (nodes : List α) (found : List (List α)) : Prop where
  mem_flatten : ∀ v, v ∈ found.flatten ↔ ReachedFrom next nodes v
  distinct : found.flatten.Nodup
  nonempty : [] ∉ found
  mem_iff : ∀ component ∈ found, ∀ v ∈ component, ∀ w, w ∈ component ↔ Mutual next v w
  ordered : found.Pairwise fun component later =>
    ∀ v ∈ component, ∀ w ∈ later, ¬ Reaches next v w

theorem Decomposes.together_iff {found : List (List α)} (decomposes : Decomposes next nodes found)
    (reached : ReachedFrom next nodes v) :
    (∃ component ∈ found, v ∈ component ∧ w ∈ component) ↔ Mutual next v w := by
  constructor
  · rintro ⟨component, member, inside, inside'⟩
    exact (decomposes.mem_iff component member v inside w).mp inside'
  · intro both
    obtain ⟨component, member, inside⟩ :=
      List.mem_flatten.mp ((decomposes.mem_flatten v).mpr reached)
    exact ⟨component, member, inside, (decomposes.mem_iff component member v inside w).mpr both⟩

variable [BEq α] [LawfulBEq α] [Hashable α]

/-- The number of nodes that are reached is at most the number of roots and successors. -/
theorem reach_length_le (bound : SuccessorsWithin next (ReachedFrom next nodes) edges) :
    (reach next edges nodes).newestFirst.length ≤ nodes.length + edges := by
  have members {v : α} : v ∈ (reach next edges nodes).newestFirst ↔ ReachedFrom next nodes v :=
    mem_reach_iff bound
  have sources : (reach next edges nodes).newestFirst ⊆
      nodes ++ (reach next edges nodes).newestFirst.flatMap next := by
    intro v member
    obtain ⟨root, isRoot, path⟩ := members.mp member
    rcases Relation.ReflTransGen.cases_tail path with rfl | ⟨w, there, step⟩
    · exact List.mem_append.mpr (Or.inl isRoot)
    · exact List.mem_append.mpr
        (Or.inr (List.mem_flatMap.mpr ⟨w, members.mpr ⟨root, isRoot, there⟩, step⟩))
  have shorter := (List.subperm_of_subset (reach_nodup next edges nodes) sources).length_le
  have fits := bound _ (reach_nodup next edges nodes) fun v member => members.mp member
  rw [List.length_append] at shorter
  omega

variable [LawfulHashable α]

theorem walkAll_follows (bound : SuccessorsWithin next (ReachedFrom next nodes) edges) :
    ∃ low, Follows next nodes 0 {} low (walkAll next edges nodes) := by
  have members {v : α} : v ∈ (reach next edges nodes).newestFirst ↔ ReachedFrom next nodes v :=
    mem_reach_iff bound
  refine ⟨_, follows_foldl (reach next edges nodes).newestFirst ?_ ?_ ?_ ?_⟩
  · exact fun v member w step => members.mpr ((members.mp member).tail step)
  · exact fun v member => members.mpr (.of_root member)
  · exact fun v known => absurd known Std.HashMap.not_mem_empty
  · have fits := reach_length_le bound
    omega

theorem components_decomposes (bound : SuccessorsWithin next (ReachedFrom next nodes) edges) :
    Decomposes next nodes (components next edges nodes) := by
  obtain ⟨low, run⟩ := walkAll_follows bound
  have followed := run.followed (sound_start next) (fun u onPath => absurd onPath List.not_mem_nil)
    (Nat.zero_le _)
  have sound := followed.sound
  have settled := sound.components
  set walk := walkAll next edges nodes
  have flat (v : α) : v ∈ walk.components.reverse.flatten ↔ v ∈ walk.components.flatten := by
    simp [List.mem_flatten]
  have entered (v : α) : v ∈ walk.number ↔ v ∈ walk.components.flatten := by
    rw [sound.entered, sound.stack_eq_nil]
    simp
  have members (v : α) : v ∈ walk.components.flatten ↔ ReachedFrom next nodes v := by
    constructor
    · intro listed
      refine (run.entered_sound ((entered v).mpr listed)).resolve_left ?_
      exact Std.HashMap.not_mem_empty
    · rintro ⟨root, member, path⟩
      exact settled.closed ((entered root).mp (followed.entered root member)) path
  have distinct := (List.nodup_append.mp sound.distinct).2.1
  constructor
  case mem_flatten =>
    exact fun v => (flat v).trans (members v)
  case distinct =>
    exact ((List.reverse_perm walk.components).flatten.nodup_iff).mpr distinct
  case nonempty =>
    exact fun empty => settled.nil_not_mem (List.mem_reverse.mp empty)
  case mem_iff =>
    intro component member v inside w
    exact settled.mem_iff distinct (List.mem_reverse.mp member) inside
  case ordered =>
    exact List.pairwise_reverse.mpr (settled.pairwise distinct)

theorem components_eq_of_le {more : Nat}
    (bound : SuccessorsWithin next (ReachedFrom next nodes) edges) (larger : edges ≤ more) :
    components next more nodes = components next edges nodes := by
  obtain ⟨_, run⟩ := walkAll_follows bound
  obtain ⟨_, run'⟩ := walkAll_follows
    (fun found distinct within => Nat.le_trans (bound found distinct within) larger)
  rw [components, components, (run'.deterministic run).2]

/-- With a budget for the successors of all nodes that are reached, the search for components ends.
Every node that is reached, and no other, is listed once. Two such nodes are in one component
exactly when they lead to each other, no component leads to a later one, and a larger budget changes
nothing. -/
theorem components_exact (next : α → List α) (nodes all : List α) (edges : Nat)
    (finite : ∀ v, ReachedFrom next nodes v → v ∈ all)
    (enough : totalLength (all.map next) ≤ edges) :
    let found := components next edges nodes
    (∀ v, v ∈ found.flatten ↔ ReachedFrom next nodes v) ∧
    found.flatten.Nodup ∧ [] ∉ found ∧
    (∀ v w, ReachedFrom next nodes v → ReachedFrom next nodes w →
      ((∃ component ∈ found, v ∈ component ∧ w ∈ component) ↔
        Reaches next v w ∧ Reaches next w v)) ∧
    (found.Pairwise fun component later =>
      ∀ v ∈ component, ∀ w ∈ later, ¬ Reaches next v w) ∧
    ∀ more, edges ≤ more → components next more nodes = found := by
  intro found
  have bound := successorsWithin_of_list all finite enough
  have decomposes : Decomposes next nodes found := components_decomposes bound
  exact ⟨decomposes.mem_flatten, decomposes.distinct, decomposes.nonempty,
    fun v w reached _ => decomposes.together_iff reached, decomposes.ordered,
    fun more larger => components_eq_of_le bound larger⟩

/-- Three nodes in a ring, with a doubled edge, that leads to a node with an edge to itself. -/
def ring : Nat → List Nat
  | 0 => [1, 1]
  | 1 => [2]
  | 2 => [0, 3]
  | v => [v]

theorem components_exact_ring :
    let found := components ring 6 [2, 2]
    found.flatten.Nodup ∧ (∃ component ∈ found, 0 ∈ component ∧ 1 ∈ component) ∧
      ¬ ∃ component ∈ found, 0 ∈ component ∧ 3 ∈ component := by
  intro found
  have finite (v : Nat) (reached : ReachedFrom ring [2, 2] v) : v ∈ [0, 1, 2, 3] := by
    obtain ⟨root, member, path⟩ := reached
    exact Reaches.closed (· ∈ [0, 1, 2, 3]) (by decide) (by grind) path
  obtain ⟨_, distinct, _, together, _⟩ :=
    components_exact ring [2, 2] [0, 1, 2, 3] 6 finite (by decide)
  have toOne : Reaches ring 0 1 := .single (by decide)
  have toTwo : Reaches ring 0 2 := toOne.tail (by decide)
  have toThree : Reaches ring 0 3 := toTwo.tail (by decide)
  have fromTwo : Reaches ring 2 0 := .single (by decide)
  have fromOne : Reaches ring 1 0 := Relation.ReflTransGen.head (by decide) fromTwo
  have reached {v : Nat} (path : Reaches ring 0 v) : ReachedFrom ring [2, 2] v :=
    ⟨2, by decide, Relation.ReflTransGen.trans fromTwo path⟩
  refine ⟨distinct, (together 0 1 (reached .refl) (reached toOne)).mpr ⟨toOne, fromOne⟩, ?_⟩
  intro same
  have back := ((together 0 3 (reached .refl) (reached toThree)).mp same).2
  have stays : (0 : Nat) = 3 := Reaches.closed (· = 3) (by simp [ring]) rfl back
  exact absurd stays (by decide)

end PermissionGuard.Graph
