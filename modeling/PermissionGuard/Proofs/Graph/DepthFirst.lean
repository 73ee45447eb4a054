import PermissionGuard.Graph.Components
import PermissionGuard.Proofs.Reachability

/-!
Depth-first search with a stack. The search is a derivation (`Follows`) that says nothing of the
budget. What it keeps true (`Sound`) is that the complete components lead to nothing outside them,
and that a node stays on the stack only while it leads to one with a lower number. Following a list
of nodes finds the lowest number on the stack that they lead to (`Followed`), so a node from which
none lower than its own is found has its component on top of the stack.
-/

namespace PermissionGuard.Graph

variable {α : Type} {next : α → List α} {v w : α} {ws path above below : List α}

/-- Complete components, newest first: the nodes of each lead to each other, and to nodes of earlier
components only. -/
inductive Settled (next : α → List α) : List (List α) → Prop
  | nil : Settled next []
  | cons {component : List α} {earlier : List (List α)} (nonempty : component ≠ [])
      (together : ∀ v ∈ component, ∀ w ∈ component, Reaches next v w)
      (closed : ∀ v ∈ component, ∀ w ∈ next v, w ∈ (component :: earlier).flatten)
      (rest : Settled next earlier) : Settled next (component :: earlier)

theorem Settled.mem_of_step {listed : List (List α)} (settled : Settled next listed)
    (inside : v ∈ listed.flatten) (step : w ∈ next v) : w ∈ listed.flatten := by
  induction settled with
  | nil => cases inside
  | cons _ _ closed _ ih =>
      rcases List.mem_append.mp inside with newest | earlier
      · exact closed v newest w step
      · exact List.mem_append_right _ (ih earlier)

/-! ### Searches and their invariants -/

variable [BEq α] [Hashable α] {walk inside after : Walk α} {low low' lowest : Nat}

/-- The number of a node that was entered. -/
def Walk.num (walk : Walk α) (v : α) : Nat := walk.number.getD v 0

@[simp] theorem Walk.settle_number (walk : Walk α) (v : α) :
    (walk.settle v).number = walk.number := rfl

@[simp] theorem Walk.leave_number (walk : Walk α) (v : α) (number lowest : Nat) :
    (walk.leave v number lowest).number = walk.number := by
  unfold Walk.leave
  split <;> rfl

/-- Follows the nodes of a list, from one lowest number and search to another. -/
inductive Follows (next : α → List α) : List α → Nat → Walk α → Nat → Walk α → Prop
  | done {low : Nat} {walk : Walk α} : Follows next [] low walk low walk
  | settled {w : α} {ws : List α} {low low' : Nat} {walk after : Walk α}
      (known : w ∈ walk.number) (before : w ∈ walk.settled)
      (rest : Follows next ws low walk low' after) : Follows next (w :: ws) low walk low' after
  | back {w : α} {ws : List α} {low low' : Nat} {walk after : Walk α} (known : w ∈ walk.number)
      (waiting : w ∉ walk.settled) (rest : Follows next ws (min low (walk.num w)) walk low' after) :
      Follows next (w :: ws) low walk low' after
  | enter {w : α} {ws : List α} {low low' lowest : Nat} {walk inside after : Walk α}
      (new : w ∉ walk.number)
      (below : Follows next (next w) walk.number.size (walk.enter w) lowest inside)
      (rest : Follows next ws (min low lowest) (inside.leave w walk.number.size lowest) low'
        after) : Follows next (w :: ws) low walk low' after

theorem Follows.deterministic {other : Nat} {after' : Walk α}
    (run : Follows next ws low walk low' after) (run' : Follows next ws low walk other after') :
    low' = other ∧ after = after' := by
  induction run generalizing other after' with
  | done => cases run'; exact ⟨rfl, rfl⟩
  | settled known before _ ih =>
      cases run' with
      | settled _ _ rest => exact ih rest
      | back _ waiting => exact absurd before waiting
      | enter new => exact absurd known new
  | back known waiting _ ih =>
      cases run' with
      | settled _ before => exact absurd before waiting
      | back _ _ rest => exact ih rest
      | enter new => exact absurd known new
  | enter new _ _ belowIH restIH =>
      cases run' with
      | settled known | back known => exact absurd known new
      | enter _ below rest =>
          obtain ⟨rfl, rfl⟩ := belowIH below
          exact restIH rest

/-- What holds while the nodes of a path are entered and not left. -/
structure Sound (next : α → List α) (path : List α) (walk : Walk α) : Prop where
  entered : ∀ v, v ∈ walk.number ↔ v ∈ walk.stack ∨ v ∈ walk.components.flatten
  settled : ∀ v, v ∈ walk.settled ↔ v ∈ walk.components.flatten
  distinct : (walk.stack ++ walk.components.flatten).Nodup
  numbered : ∀ v ∈ walk.number, walk.num v < walk.number.size
  sorted : walk.stack.Pairwise fun v w => walk.num w < walk.num v
  components : Settled next walk.components
  onStack : ∀ v ∈ path, v ∈ walk.stack
  /-- A node of the path leads to what was entered after it. -/
  leads : ∀ v ∈ path, ∀ w ∈ walk.stack, walk.num v ≤ walk.num w → Reaches next v w
  followed : ∀ v ∈ walk.stack, v ∉ path → ∀ w ∈ next v, w ∈ walk.number
  /-- A node that was left stays on the stack for a node with a lower number. -/
  returns : ∀ v ∈ walk.stack, v ∉ path →
    ∃ w ∈ walk.stack, walk.num w < walk.num v ∧ Reaches next v w

theorem sound_start (next : α → List α) : Sound next [] ({} : Walk α) := by
  constructor <;> simp [Settled.nil]

theorem Sound.mem_number (sound : Sound next path walk) (member : v ∈ walk.stack) :
    v ∈ walk.number :=
  (sound.entered v).mpr (Or.inl member)

/-- A node that leads to one with a lower number is left on the stack. -/
theorem Sound.keep (sound : Sound next (v :: path) walk) (followed : ∀ w ∈ next v, w ∈ walk.number)
    (returns : ∃ w ∈ walk.stack, walk.num w < walk.num v ∧ Reaches next v w) :
    Sound next path walk :=
  { sound with
    onStack := fun w onPath => sound.onStack w (List.mem_cons_of_mem v onPath)
    leads := fun w onPath => sound.leads w (List.mem_cons_of_mem v onPath)
    followed := by
      intro w member left
      by_cases same : w = v
      · exact same ▸ followed
      · exact sound.followed w member (mt List.mem_cons.mp (not_or.mpr ⟨same, left⟩))
    returns := by
      intro w member left
      by_cases same : w = v
      · exact same ▸ returns
      · exact sound.returns w member (mt List.mem_cons.mp (not_or.mpr ⟨same, left⟩)) }

theorem Sound.not_settled (sound : Sound next path walk) (onStack : v ∈ walk.stack) :
    v ∉ walk.components.flatten :=
  fun settled => (List.nodup_append.mp sound.distinct).2.2 v onStack v settled rfl

theorem Sound.not_mem_below (sound : Sound next path walk) (stack : walk.stack = above ++ below)
    (higher : v ∈ above) : v ∉ below := by
  have distinct := (List.nodup_append.mp sound.distinct).1
  rw [stack] at distinct
  exact fun lower => (List.nodup_append.mp distinct).2.2 v higher v lower rfl

/-- The search is about to leave a node, and what is on the stack from the top down to it leads
nowhere below it. -/
structure Isolated (next : α → List α) (path : List α) (walk : Walk α) (v : α)
    (above below : List α) : Prop where
  sound : Sound next (v :: path) walk
  stack : walk.stack = above ++ v :: below
  onPath : ∀ u ∈ path, u ∈ below
  followed : ∀ w ∈ next v, w ∈ walk.number
  kept : ∀ x ∈ above ++ [v], ∀ y ∈ next x, y ∉ below

namespace Isolated

theorem split (isolated : Isolated next path walk v above below) :
    walk.stack = (above ++ [v]) ++ below := by
  rw [isolated.stack, List.append_cons]

theorem mem_stack (isolated : Isolated next path walk v above below) {x : α} :
    x ∈ walk.stack ↔ x ∈ above ++ [v] ∨ x ∈ below := by
  rw [isolated.split, List.mem_append]

theorem not_mem_below (isolated : Isolated next path walk v above below) {x : α}
    (inside : x ∈ above ++ [v]) : x ∉ below :=
  isolated.sound.not_mem_below isolated.split inside

/-- The nodes above the last were left. -/
theorem not_mem_path (isolated : Isolated next path walk v above below) {x : α}
    (inside : x ∈ above ++ [v]) (other : x ≠ v) : x ∉ v :: path := by
  intro opened
  exact isolated.not_mem_below inside
    (isolated.onPath x ((List.mem_cons.mp opened).resolve_left other))

/-- What they lead to is among them or settled. -/
theorem closed (isolated : Isolated next path walk v above below) {x y : α}
    (inside : x ∈ above ++ [v]) (step : y ∈ next x) :
    y ∈ ((above ++ [v]) :: walk.components).flatten := by
  have entered : y ∈ walk.number := by
    by_cases last : x = v
    · exact isolated.followed y (last ▸ step)
    · exact isolated.sound.followed x (isolated.mem_stack.mpr (Or.inl inside))
        (isolated.not_mem_path inside last) y step
  rcases (isolated.sound.entered y).mp entered with onStack | settled
  · have within := (isolated.mem_stack.mp onStack).resolve_right (isolated.kept x inside y step)
    exact List.mem_append_left _ within
  · exact List.mem_append_right _ settled

theorem mem_of_reaches (isolated : Isolated next path walk v above below) {x y : α}
    (inside : x ∈ above ++ [v]) (leads : Reaches next x y) (onStack : y ∈ walk.stack) :
    y ∈ above ++ [v] := by
  have stays : y ∈ ((above ++ [v]) :: walk.components).flatten := by
    refine Reaches.closed (· ∈ ((above ++ [v]) :: walk.components).flatten) ?_
      (List.mem_append_left _ inside) leads
    intro z within w step
    rcases List.mem_append.mp within with here | settled
    · exact isolated.closed here step
    · exact List.mem_append_right _ (isolated.sound.components.mem_of_step settled step)
  exact (List.mem_append.mp stays).resolve_right (isolated.sound.not_settled onStack)

/-- They all lead back to the last: each leads to one with a lower number, which is among them. -/
theorem returns (isolated : Isolated next path walk v above below) {x : α}
    (inside : x ∈ above ++ [v]) : Reaches next x v := by
  induction number : walk.num x using Nat.strongRecOn generalizing x with
  | ind number ih =>
      by_cases last : x = v
      · exact last ▸ .refl
      · obtain ⟨y, onStack, less, leads⟩ := isolated.sound.returns x
          (isolated.mem_stack.mpr (Or.inl inside)) (isolated.not_mem_path inside last)
        have within := isolated.mem_of_reaches inside leads onStack
        exact Relation.ReflTransGen.trans leads (ih _ (number ▸ less) within rfl)

/-- The last leads to all of them, since they were entered after it. -/
theorem leads (isolated : Isolated next path walk v above below) {x : α}
    (inside : x ∈ above ++ [v]) : Reaches next v x := by
  apply isolated.sound.leads v List.mem_cons_self x (isolated.mem_stack.mpr (Or.inl inside))
  have sorted := isolated.sound.sorted
  rw [isolated.stack] at sorted
  rcases List.mem_append.mp inside with higher | last
  · exact Nat.le_of_lt ((List.pairwise_append.mp sorted).2.2 x higher v List.mem_cons_self)
  · cases List.mem_singleton.mp last
    exact Nat.le_refl _

end Isolated

/-- A node with the lowest number of all on the stack could not have been left. -/
theorem Sound.stack_eq_nil (sound : Sound next [] walk) : walk.stack = [] := by
  have none (v : α) (onStack : v ∈ walk.stack) : False := by
    induction number : walk.num v using Nat.strongRecOn generalizing v with
    | ind number ih =>
        obtain ⟨w, lower, less, _⟩ := sound.returns v onStack List.not_mem_nil
        exact ih _ (number ▸ less) w lower rfl
  exact List.eq_nil_iff_forall_not_mem.mpr none

/-- What following the nodes of a list does. The lowest number found is at most that of every node
on the stack before that the nodes, or what was left on top of it, lead to. -/
structure Followed (next : α → List α) (path ws : List α) (low : Nat) (walk : Walk α) (low' : Nat)
    (after : Walk α) : Prop where
  sound : Sound next path after
  size_le : walk.number.size ≤ after.number.size
  numbers : ∀ v ∈ walk.number, v ∈ after.number ∧ after.num v = walk.num v
  stack : walk.stack <:+ after.stack
  entered : ∀ w ∈ ws, w ∈ after.number
  low_le : low' ≤ low
  nodes_ge : ∀ w ∈ ws, w ∈ walk.stack → low' ≤ walk.num w
  above_ge : ∀ v ∈ after.stack, v ∉ walk.stack → ∀ w ∈ next v, w ∈ walk.stack → low' ≤ walk.num w
  attained : low' = low ∨ ∃ w ∈ ws, ∃ x ∈ after.stack, after.num x = low' ∧ Reaches next w x

theorem Followed.nil (sound : Sound next path walk) : Followed next path [] low walk low walk where
  sound := sound
  size_le := Nat.le_refl _
  numbers _ known := ⟨known, rfl⟩
  stack := List.suffix_rfl
  entered _ member := absurd member List.not_mem_nil
  low_le := Nat.le_refl _
  nodes_ge _ member := absurd member List.not_mem_nil
  above_ge _ member new := absurd member new
  attained := Or.inl rfl

/-- Follows one node after the other. -/
theorem Followed.cons {middle : Nat} (before : Sound next path walk)
    (first : Followed next path [w] low walk middle inside)
    (rest : Followed next path ws middle inside low' after) :
    Followed next path (w :: ws) low walk low' after where
  sound := rest.sound
  size_le := Nat.le_trans first.size_le rest.size_le
  numbers v known := by
    obtain ⟨later, same⟩ := first.numbers v known
    obtain ⟨finally', same'⟩ := rest.numbers v later
    exact ⟨finally', same'.trans same⟩
  stack := first.stack.trans rest.stack
  entered v member := by
    rcases List.mem_cons.mp member with rfl | later
    · exact (rest.numbers v (first.entered v List.mem_cons_self)).1
    · exact rest.entered v later
  low_le := Nat.le_trans rest.low_le first.low_le
  nodes_ge v member onStack := by
    rcases List.mem_cons.mp member with rfl | later
    · exact Nat.le_trans rest.low_le (first.nodes_ge v List.mem_cons_self onStack)
    · rw [← (first.numbers v (before.mem_number onStack)).2]
      exact rest.nodes_ge v later (first.stack.subset onStack)
  above_ge v member new y step onStack := by
    by_cases earlier : v ∈ inside.stack
    · exact Nat.le_trans rest.low_le (first.above_ge v earlier new y step onStack)
    · rw [← (first.numbers y (before.mem_number onStack)).2]
      exact rest.above_ge v member earlier y step (first.stack.subset onStack)
  attained := by
    rcases rest.attained with same | ⟨v, member, x, onStack, number, leads⟩
    · rcases first.attained with start | ⟨v, member, x, onStack, number, leads⟩
      · exact Or.inl (same.trans start)
      · cases List.mem_singleton.mp member
        refine Or.inr ⟨w, List.mem_cons_self, x, rest.stack.subset onStack, ?_, leads⟩
        rw [(rest.numbers x (first.sound.mem_number onStack)).2, number, same]
    · exact Or.inr ⟨v, List.mem_cons_of_mem w member, x, onStack, number, leads⟩

/-- A node with a component is passed. -/
theorem Followed.of_settled (sound : Sound next path walk) (known : w ∈ walk.number)
    (settled : w ∈ walk.settled) : Followed next path [w] low walk low walk :=
  { Followed.nil sound with
    entered := by simpa using known
    nodes_ge := by
      intro v member onStack
      cases List.mem_singleton.mp member
      exact absurd ((sound.settled w).mp settled) (sound.not_settled onStack)
    attained := Or.inl rfl }

/-- A node on the stack has a number that is found. -/
theorem Followed.of_stack (sound : Sound next path walk) (known : w ∈ walk.number)
    (waiting : w ∉ walk.settled) :
    Followed next path [w] low walk (min low (walk.num w)) walk := by
  have onStack : w ∈ walk.stack :=
    ((sound.entered w).mp known).resolve_right fun settled =>
      waiting ((sound.settled w).mpr settled)
  exact { Followed.nil sound with
    entered := by simpa using known
    low_le := Nat.min_le_left _ _
    nodes_ge := by
      intro v member _
      cases List.mem_singleton.mp member
      exact Nat.min_le_right _ _
    attained := by
      rcases Nat.le_total low (walk.num w) with less | greater
      · exact Or.inl (Nat.min_eq_left less)
      · refine Or.inr ⟨w, List.mem_cons_self, w, onStack, ?_, .refl⟩
        exact (Nat.min_eq_right greater).symm }

/-! ### Entering and leaving nodes -/

variable [LawfulBEq α]

theorem Isolated.settle_eq (isolated : Isolated next path walk v above below) :
    walk.settle v = { walk with
      stack := below
      settled := walk.settled.insertMany (above ++ [v])
      components := (above ++ [v]) :: walk.components } := by
  have component : walk.stack.takeWhile (· != v) = above := by
    rw [isolated.stack, List.takeWhile_append_of_pos, List.takeWhile_cons_of_neg, List.append_nil]
    · simp
    · intro w higher
      refine bne_iff_ne.mpr fun same => ?_
      exact isolated.sound.not_mem_below isolated.stack higher (same ▸ List.mem_cons_self)
  have rest : walk.stack.drop (above ++ [v]).length = below := by
    rw [isolated.split, List.drop_left]
  simp only [Walk.settle, component, rest]

variable [LawfulHashable α]

theorem Walk.mem_enter : w ∈ (walk.enter v).number ↔ w = v ∨ w ∈ walk.number := by
  rw [Walk.enter, Std.HashMap.mem_insert, beq_iff_eq, eq_comm]

theorem Walk.enter_size (new : v ∉ walk.number) :
    (walk.enter v).number.size = walk.number.size + 1 := by
  rw [Walk.enter, Std.HashMap.size_insert, if_neg new]

theorem Walk.enter_num_self (walk : Walk α) (v : α) : (walk.enter v).num v = walk.number.size := by
  simp [Walk.num, Walk.enter]

theorem Walk.enter_num (new : v ∉ walk.number) (known : w ∈ walk.number) :
    (walk.enter v).num w = walk.num w := by
  have other : (v == w) = false := beq_eq_false_iff_ne.mpr fun same => new (same ▸ known)
  simp [Walk.num, Walk.enter, Std.HashMap.getD_insert, other]

theorem Sound.enter (sound : Sound next path walk) (new : v ∉ walk.number)
    (reached : ∀ u ∈ path, Reaches next u v) : Sound next (v :: path) (walk.enter v) := by
  have same {w : α} (member : w ∈ walk.stack) : (walk.enter v).num w = walk.num w :=
    walk.enter_num new (sound.mem_number member)
  have lower {w : α} (member : w ∈ walk.stack) : walk.num w < walk.number.size :=
    sound.numbered w (sound.mem_number member)
  constructor
  case entered =>
    intro w
    rw [Walk.mem_enter, sound.entered]
    simp only [Walk.enter, List.mem_cons]
    exact or_assoc.symm
  case settled =>
    exact sound.settled
  case distinct =>
    exact List.nodup_cons.mpr
      ⟨fun member => new ((sound.entered v).mpr (List.mem_append.mp member)), sound.distinct⟩
  case numbered =>
    intro w member
    rw [walk.enter_size new]
    rcases Walk.mem_enter.mp member with rfl | before
    · rw [walk.enter_num_self]
      exact Nat.lt_succ_self _
    · rw [walk.enter_num new before]
      exact Nat.lt_succ_of_lt (sound.numbered w before)
  case sorted =>
    refine .cons (fun w member => ?_) (sound.sorted.imp_of_mem fun {u w} member member' less => ?_)
    · rw [walk.enter_num_self, same member]
      exact lower member
    · rw [same member, same member']
      exact less
  case components =>
    exact sound.components
  case onStack =>
    intro w member
    rcases List.mem_cons.mp member with rfl | before
    · exact List.mem_cons_self
    · exact List.mem_cons_of_mem v (sound.onStack w before)
  case leads =>
    intro u onPath w member newer
    rcases List.mem_cons.mp onPath with rfl | before
    · rcases List.mem_cons.mp member with rfl | below
      · exact .refl
      · rw [walk.enter_num_self, same below] at newer
        exact absurd (lower below) (Nat.not_lt.mpr newer)
    · rcases List.mem_cons.mp member with rfl | below
      · exact reached u before
      · rw [same (sound.onStack u before), same below] at newer
        exact sound.leads u before w below newer
  case followed =>
    intro w member left x step
    obtain ⟨other, notOpen⟩ := not_or.mp (mt List.mem_cons.mpr left)
    have below := (List.mem_cons.mp member).resolve_left other
    exact Walk.mem_enter.mpr (Or.inr (sound.followed w below notOpen x step))
  case returns =>
    intro w member left
    obtain ⟨other, notOpen⟩ := not_or.mp (mt List.mem_cons.mpr left)
    have below := (List.mem_cons.mp member).resolve_left other
    obtain ⟨x, onStack, less, leads⟩ := sound.returns w below notOpen
    refine ⟨x, List.mem_cons_of_mem v onStack, ?_, leads⟩
    rw [same onStack, same below]
    exact less

/-- Taking the component off the stack leaves the nodes below it as they were. -/
theorem Isolated.settle (isolated : Isolated next path walk v above below) :
    Sound next path (walk.settle v) := by
  have sound := isolated.sound
  have onStack {u : α} (lower : u ∈ below) : u ∈ walk.stack := isolated.mem_stack.mpr (Or.inr lower)
  have left {u : α} (lower : u ∈ below) (notOpen : u ∉ path) : u ∉ v :: path := by
    refine mt List.mem_cons.mp (not_or.mpr ⟨?_, notOpen⟩)
    rintro rfl
    exact isolated.not_mem_below (by simp) lower
  have sorted := sound.sorted
  rw [isolated.split] at sorted
  rw [isolated.settle_eq]
  constructor
  case entered =>
    intro w
    rw [sound.entered, isolated.mem_stack]
    simp only [List.flatten_cons, List.mem_append]
    tauto
  case settled =>
    intro w
    rw [Std.HashSet.mem_insertMany_list, sound.settled, List.flatten_cons, List.mem_append,
      List.contains_iff_mem]
    exact or_comm
  case distinct =>
    have distinct := sound.distinct
    rw [isolated.split, List.append_assoc] at distinct
    exact (List.perm_append_comm_assoc _ _ _).nodup_iff.mp distinct
  case numbered =>
    exact sound.numbered
  case sorted =>
    exact (List.pairwise_append.mp sorted).2.1
  case components =>
    refine .cons (by simp) (fun x inside y inside' => ?_) (fun x inside y => isolated.closed inside)
      sound.components
    exact Relation.ReflTransGen.trans (isolated.returns inside) (isolated.leads inside')
  case onStack =>
    exact isolated.onPath
  case leads =>
    exact fun u opened w lower => sound.leads u (List.mem_cons_of_mem v opened) w (onStack lower)
  case followed =>
    exact fun w lower notOpen => sound.followed w (onStack lower) (left lower notOpen)
  case returns =>
    intro w lower notOpen
    obtain ⟨x, member, less, leads⟩ := sound.returns w (onStack lower) (left lower notOpen)
    refine ⟨x, (isolated.mem_stack.mp member).resolve_left fun higher => ?_, less, leads⟩
    have greater := (List.pairwise_append.mp sorted).2.2 x higher w lower
    exact Nat.lt_asymm less greater

/-- A new node is entered, its successors are followed, and it is left: with its component if
nothing lower than its own number was found, and else on the stack. -/
theorem Followed.leave (sound : Sound next path walk) (new : w ∉ walk.number)
    (bounded : low ≤ walk.number.size)
    (below : Followed next (w :: path) (next w) walk.number.size (walk.enter w) lowest inside) :
    Followed next path [w] low walk (min low lowest)
      (inside.leave w walk.number.size lowest) := by
  obtain ⟨self, number⟩ := below.numbers w (Walk.mem_enter.mpr (Or.inl rfl))
  rw [walk.enter_num_self] at number
  have absent : w ∉ walk.stack := fun onStack => new (sound.mem_number onStack)
  have known {v : α} (before : v ∈ walk.number) :
      v ∈ inside.number ∧ inside.num v = walk.num v := by
    obtain ⟨later, same⟩ := below.numbers v (Walk.mem_enter.mpr (Or.inr before))
    exact ⟨later, same.trans (walk.enter_num new before)⟩
  obtain ⟨above, stack⟩ := below.stack
  replace stack : inside.stack = above ++ w :: walk.stack := stack.symm
  have size_le : walk.number.size ≤ inside.number.size := by
    have grows := below.size_le
    rw [walk.enter_size new] at grows
    omega
  -- The lowest number bounds what the nodes down to `w` lead to below it.
  have bounds {x y : α} (member : x ∈ above ++ [w]) (step : y ∈ next x) (lower : y ∈ walk.stack) :
      lowest ≤ walk.num y := by
    have before := sound.mem_number lower
    rw [← walk.enter_num new before]
    rcases List.mem_append.mp member with higher | last
    · exact below.above_ge x (by simp [stack, higher]) (below.sound.not_mem_below stack higher) y
        step (List.mem_cons_of_mem w lower)
    · cases List.mem_singleton.mp last
      exact below.nodes_ge y step (List.mem_cons_of_mem w lower)
  unfold Walk.leave
  split
  · rename_i complete
    have kept : ∀ x ∈ above ++ [w], ∀ y ∈ next x, y ∉ walk.stack := by
      intro x member y step lower
      have least := bounds member step lower
      have less := sound.numbered y (sound.mem_number lower)
      omega
    have isolated : Isolated next path inside w above walk.stack :=
      ⟨below.sound, stack, sound.onStack, below.entered, kept⟩
    have rest : (inside.settle w).stack = walk.stack := by rw [isolated.settle_eq]
    have unchanged : min low lowest = low := Nat.min_eq_left (complete ▸ bounded)
    rw [unchanged]
    constructor
    case sound => exact isolated.settle
    case size_le => exact size_le
    case numbers => exact fun v before => known before
    case stack => exact rest ▸ List.suffix_rfl
    case entered => simpa using self
    case low_le => exact Nat.le_refl _
    case nodes_ge => simp [absent]
    case above_ge => exact fun v member fresh => absurd (rest ▸ member) fresh
    case attained => exact Or.inl rfl
  · rename_i incomplete
    have less : lowest < inside.num w := by
      have fewer := below.low_le
      omega
    obtain ⟨v, step, x, onStack, isLowest, leads⟩ := below.attained.resolve_left incomplete
    have returns : Reaches next w x := Relation.ReflTransGen.head step leads
    constructor
    case sound => exact below.sound.keep below.entered ⟨x, onStack, isLowest ▸ less, returns⟩
    case size_le => exact size_le
    case numbers => exact fun v before => known before
    case stack => exact stack ▸ (List.suffix_cons w _).trans (List.suffix_append above _)
    case entered => simpa using self
    case low_le => exact Nat.min_le_left _ _
    case nodes_ge => simp [absent]
    case above_ge =>
      intro v member fresh y step lower
      refine Nat.le_trans (Nat.min_le_right _ _) (bounds ?_ step lower)
      rw [stack, List.append_cons] at member
      exact (List.mem_append.mp member).resolve_right fresh
    case attained =>
      rcases Nat.le_total low lowest with small | large
      · exact Or.inl (Nat.min_eq_left small)
      · refine Or.inr ⟨w, List.mem_cons_self, x, onStack, ?_, returns⟩
        rw [Nat.min_eq_right large, isLowest]

/-- A search keeps its invariants when every node of the path leads to the nodes it follows. -/
theorem Follows.followed (run : Follows next ws low walk low' after) (sound : Sound next path walk)
    (leads : ∀ u ∈ path, ∀ w ∈ ws, Reaches next u w) (bounded : low ≤ walk.number.size) :
    Followed next path ws low walk low' after := by
  induction run generalizing path with
  | done => exact .nil sound
  | @settled w ws _ _ _ _ known before _ ih =>
      refine .cons sound (.of_settled sound known before) (ih sound ?_ bounded)
      exact fun u onPath v member => leads u onPath v (List.mem_cons_of_mem w member)
  | @back w ws _ _ _ _ known waiting _ ih =>
      refine .cons sound (.of_stack sound known waiting) (ih sound ?_ ?_)
      · exact fun u onPath v member => leads u onPath v (List.mem_cons_of_mem w member)
      · exact Nat.le_trans (Nat.min_le_left _ _) bounded
  | @enter w ws low _ lowest walk inside _ new _ _ belowIH restIH =>
      have reached : ∀ u ∈ path, Reaches next u w := fun u onPath =>
        leads u onPath w List.mem_cons_self
      have below := belowIH (sound.enter new reached) (by
        intro u onPath x step
        rcases List.mem_cons.mp onPath with rfl | earlier
        · exact .single step
        · exact (reached u earlier).tail step) (by
        rw [walk.enter_size new]
        exact Nat.le_succ _)
      have first := Followed.leave sound new bounded below
      refine .cons sound first (restIH first.sound ?_ ?_)
      · exact fun u onPath v member => leads u onPath v (List.mem_cons_of_mem w member)
      · exact Nat.le_trans (Nat.min_le_left _ _) (Nat.le_trans bounded first.size_le)

/-! ### Runs within a budget -/

theorem Follows.entered_sound (run : Follows next ws low walk low' after)
    (found : v ∈ after.number) : v ∈ walk.number ∨ ReachedFrom next ws v := by
  induction run with
  | done => exact Or.inl found
  | settled _ _ _ ih | back _ _ _ ih =>
      rcases ih found with before | ⟨root, member, path⟩
      · exact Or.inl before
      · exact Or.inr ⟨root, List.mem_cons_of_mem _ member, path⟩
  | enter _ _ _ belowIH restIH =>
      rcases restIH found with within | ⟨root, member, path⟩
      · rw [Walk.leave_number] at within
        rcases belowIH within with start | ⟨root, successor, path⟩
        · rcases Walk.mem_enter.mp start with rfl | before
          · exact Or.inr (.of_root List.mem_cons_self)
          · exact Or.inl before
        · exact Or.inr ⟨_, List.mem_cons_self, path.head successor⟩
      · exact Or.inr ⟨root, List.mem_cons_of_mem _ member, path⟩

theorem Follows.size_le (run : Follows next ws low walk low' after) :
    walk.number.size ≤ after.number.size := by
  induction run with
  | done => exact Nat.le_refl _
  | settled _ _ _ ih | back _ _ _ ih => exact ih
  | enter new _ _ belowIH restIH =>
      rw [Walk.enter_size new] at belowIH
      rw [Walk.leave_number] at restIH
      omega

theorem follow_of_mem (visit : Walk α → α → Nat × Walk α) (known : w ∈ walk.number) :
    follow visit (low, walk) w =
      if w ∈ walk.settled then (low, walk) else (min low (walk.num w), walk) := by
  have found : walk.number[w]? = some (walk.num w) := Std.HashMap.getElem?_eq_some_getD known
  simp [follow, found]

theorem follow_of_not_mem (visit : Walk α → α → Nat × Walk α) (new : w ∉ walk.number) :
    follow visit (low, walk) w = (min low (visit walk w).1, (visit walk w).2) := by
  simp [follow, Std.HashMap.getElem?_eq_none new]

theorem Walk.size_lt {all : List α} (entered : ∀ v ∈ walk.number, v ∈ all) (candidate : w ∈ all)
    (new : w ∉ walk.number) : walk.number.size < all.length := by
  have distinct : (w :: walk.number.keys).Nodup := by
    refine List.nodup_cons.mpr ⟨fun member => new (Std.HashMap.mem_keys.mp member), ?_⟩
    exact Std.HashMap.distinct_keys.imp fun different => beq_eq_false_iff_ne.mp different
  have within : w :: walk.number.keys ⊆ all :=
    List.cons_subset.mpr ⟨candidate, fun v member => entered v (Std.HashMap.mem_keys.mp member)⟩
  have shorter := (List.subperm_of_subset distinct within).length_le
  rw [List.length_cons, Std.HashMap.length_keys] at shorter
  exact shorter

/-- A budget that exceeds the nodes still to be entered is never exhausted. -/
theorem follows_foldl (all : List α) (closed : ∀ v ∈ all, ∀ w ∈ next v, w ∈ all) {budget : Nat}
    (start : ∀ v ∈ ws, v ∈ all) (entered : ∀ v ∈ walk.number, v ∈ all)
    (room : all.length ≤ budget + walk.number.size) :
    Follows next ws low walk (ws.foldl (follow (visit next budget)) (low, walk)).1
      (ws.foldl (follow (visit next budget)) (low, walk)).2 := by
  induction budget generalizing ws low walk with
  | zero =>
      -- Without room every node was entered before.
      induction ws generalizing low with
      | nil => exact .done
      | cons w ws ih =>
          have known : w ∈ walk.number := by
            by_contra new
            have fewer := Walk.size_lt entered (start w List.mem_cons_self) new
            omega
          have later : ∀ v ∈ ws, v ∈ all := fun v member => start v (List.mem_cons_of_mem w member)
          rw [List.foldl_cons, follow_of_mem _ known]
          split
          · exact .settled known ‹_› (ih later)
          · exact .back known ‹_› (ih later)
  | succ budget budgetIH =>
      induction ws generalizing low walk with
      | nil => exact .done
      | cons w ws ih =>
          have candidate := start w List.mem_cons_self
          have later : ∀ v ∈ ws, v ∈ all := fun v member => start v (List.mem_cons_of_mem w member)
          rw [List.foldl_cons]
          by_cases known : w ∈ walk.number
          · rw [follow_of_mem _ known]
            split
            · exact .settled known ‹_› (ih later entered room)
            · exact .back known ‹_› (ih later entered room)
          · rw [follow_of_not_mem _ known]
            have size := walk.enter_size known
            have within : ∀ v ∈ (walk.enter w).number, v ∈ all := by
              intro v member
              rcases Walk.mem_enter.mp member with rfl | before
              · exact candidate
              · exact entered v before
            have below : Follows next (next w) walk.number.size (walk.enter w) _ _ :=
              budgetIH (closed w candidate) within (by omega)
            refine .enter known below (ih later ?_ ?_)
            · intro v member
              rw [Walk.leave_number] at member
              rcases below.entered_sound member with before | ⟨root, successor, path⟩
              · exact within v before
              · exact Reaches.closed (· ∈ all) closed (closed w candidate root successor) path
            · have grows := below.size_le
              rw [Walk.leave_number]
              omega

end PermissionGuard.Graph
