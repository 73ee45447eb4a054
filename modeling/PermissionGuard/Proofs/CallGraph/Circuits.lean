import PermissionGuard.Proofs.CallGraph.Closings

/-!
The search for the cycles through a node. A node that is blocked off the path leads to blocked nodes
only and waits for each of them (`Consistent`), so nothing closes the path past it, and passing it
by loses no cycle. Releasing a node never reaches what was blocked before the node was: the search
finds the ways to close the path, each once and in order (`cyclesThrough_eq`).
-/

namespace PermissionGuard.CallGraph

variable {g : CallGraph} {start v w : Int} {path pending inner ws : List Int} {budget : Nat}
variable {search after : CycleSearch}

/-! ### Blocking and releasing -/

namespace CycleSearch

@[simp] theorem mem_block : w ∈ (search.block v).blocked ↔ w = v ∨ w ∈ search.blocked := by
  rw [block, Std.HashSet.mem_insert, beq_iff_eq, eq_comm]

@[simp] theorem mem_unblock : w ∈ (search.unblock v).blocked ↔ w ≠ v ∧ w ∈ search.blocked := by
  rw [unblock, Std.HashSet.mem_erase, beq_eq_false_iff_ne, ne_comm]

theorem waitingFor_unblock (search : CycleSearch) (v w : Int) :
    (search.unblock v).waitingFor w = if v = w then [] else search.waitingFor w := by
  simp only [waitingFor, unblock, Std.HashMap.getD_erase, beq_iff_eq]

theorem mem_waitingFor_await {x : Int} : x ∈ (search.await v ws).waitingFor w ↔
    x ∈ search.waitingFor w ∨ w ∈ ws ∧ x = v := by
  induction ws generalizing search with
  | nil => simp [await, waitingFor]
  | cons first ws ih =>
      have step : search.await v (first :: ws) = (search.await v [first]).await v ws := rfl
      have single : x ∈ (search.await v [first]).waitingFor w ↔
          x ∈ search.waitingFor w ∨ w = first ∧ x = v := by
        simp only [await, waitingFor, List.foldl_cons, List.foldl_nil, Std.HashMap.getD_insert,
          beq_iff_eq]
        split
        · rename_i same
          subst same
          rw [List.mem_insert_iff]
          tauto
        · rename_i different
          simp [Ne.symm different]
      rw [step, ih, single, List.mem_cons]
      tauto

@[simp] theorem release_cycles (pending : List Int) (search : CycleSearch) :
    (search.release pending).cycles = search.cycles := by
  fun_induction release pending search with
  | case1 => rfl
  | case2 _ _ _ _ ih => exact ih
  | case3 _ _ _ _ ih => exact ih

theorem mem_waitingFor_of_release (waits : w ∈ (search.release pending).waitingFor v) :
    w ∈ search.waitingFor v := by
  fun_induction release pending search with
  | case1 => exact waits
  | case2 search u pending _ ih =>
      have before := ih waits
      rw [waitingFor_unblock] at before
      split at before
      · cases before
      · exact before
  | case3 _ _ _ _ ih => exact ih waits

/-- Nodes of a kind that nothing else waits with stay blocked. -/
theorem mem_release {kept : Int → Prop}
    (isolated : ∀ v, ¬ kept v → ∀ w ∈ search.waitingFor v, ¬ kept w)
    (outside : ∀ v ∈ pending, ¬ kept v) (blocked : w ∈ search.blocked) (keeps : kept w) :
    w ∈ (search.release pending).blocked := by
  fun_induction release pending search with
  | case1 => exact blocked
  | case2 search u pending _ ih =>
      have first := outside u List.mem_cons_self
      apply ih
      · intro v other x waits
        rw [waitingFor_unblock] at waits
        split at waits
        · cases waits
        · exact isolated v other x waits
      · intro v member
        rcases List.mem_append.mp member with waits | later
        · exact isolated u first v waits
        · exact outside v (List.mem_cons_of_mem u later)
      · exact mem_unblock.mpr ⟨fun same => first (same ▸ keeps), blocked⟩
  | case3 search u pending _ ih =>
      exact ih isolated (fun v later => outside v (List.mem_cons_of_mem u later)) blocked

end CycleSearch

/-- What holds while a path is extended and some nodes are to be released. -/
structure Consistent (g : CallGraph) (start : Int) (path pending : List Int)
    (search : CycleSearch) : Prop where
  onPath : ∀ v ∈ path, v ∈ search.blocked
  stuck : ∀ v ∈ search.blocked, v ∉ path → v ∉ pending → ∀ w ∈ g.succs v,
    w ≠ start ∧ w ∈ search.blocked ∧ v ∈ search.waitingFor w
  free : ∀ v, v ∉ search.blocked → search.waitingFor v = []

theorem consistent_start (g : CallGraph) (start : Int) : Consistent g start [] [] {} := by
  constructor <;> simp [CycleSearch.waitingFor]

theorem Consistent.block (consistent : Consistent g start path [] search) (v : Int) :
    Consistent g start (v :: path) [] (search.block v) where
  onPath w member := by
    rcases List.mem_cons.mp member with rfl | before
    · simp
    · simp [consistent.onPath w before]
  stuck w blocked off notPending x step := by
    obtain ⟨other, offPath⟩ := not_or.mp (mt List.mem_cons.mpr off)
    have before := (CycleSearch.mem_block.mp blocked).resolve_left other
    obtain ⟨notStart, blocked', waits⟩ := consistent.stuck w before offPath notPending x step
    exact ⟨notStart, by simp [blocked'], waits⟩
  free w free := consistent.free w fun before => free (by simp [before])

/-- Releasing what is pending leaves no node that waits for a node that is free. -/
theorem Consistent.release {kept : Int → Prop} (consistent : Consistent g start path pending search)
    (isolated : ∀ v, ¬ kept v → ∀ w ∈ search.waitingFor v, ¬ kept w)
    (outside : ∀ v ∈ pending, ¬ kept v) (keeps : ∀ v ∈ path, kept v) :
    Consistent g start path [] (search.release pending) := by
  have onPath (v : Int) (member : v ∈ path) : v ∈ (search.release pending).blocked :=
    CycleSearch.mem_release isolated outside (consistent.onPath v member) (keeps v member)
  suffices closed : (∀ v ∈ (search.release pending).blocked, v ∉ path → ∀ w ∈ g.succs v,
      w ≠ start ∧ w ∈ (search.release pending).blocked ∧
        v ∈ (search.release pending).waitingFor w) ∧
      ∀ v, v ∉ (search.release pending).blocked → (search.release pending).waitingFor v = [] from
    ⟨onPath, fun v blocked off _ => closed.1 v blocked off, closed.2⟩
  have stuck := consistent.stuck
  have free := consistent.free
  clear consistent isolated outside keeps onPath
  -- A node that waits for a released node becomes pending with it, so `stuck` holds of the rest.
  fun_induction CycleSearch.release pending search with
  | case1 => exact ⟨fun v blocked off => stuck v blocked off List.not_mem_nil, free⟩
  | case2 search u pending _ ih =>
      apply ih
      · intro v blocked off notPending w step
        obtain ⟨other, before⟩ := CycleSearch.mem_unblock.mp blocked
        obtain ⟨notWaiting, notLater⟩ := not_or.mp (mt List.mem_append.mpr notPending)
        obtain ⟨notStart, blocked', waits⟩ :=
          stuck v before off (mt List.mem_cons.mp (not_or.mpr ⟨other, notLater⟩)) w step
        have different : w ≠ u := fun same => notWaiting (same ▸ waits)
        refine ⟨notStart, CycleSearch.mem_unblock.mpr ⟨different, blocked'⟩, ?_⟩
        rwa [CycleSearch.waitingFor_unblock, if_neg different.symm]
      · intro v unblocked
        rw [CycleSearch.waitingFor_unblock]
        split
        · rfl
        · rename_i other
          exact free v fun blocked =>
            unblocked (CycleSearch.mem_unblock.mpr ⟨Ne.symm other, blocked⟩)
  | case3 search u pending unblocked ih =>
      refine ih (fun v blocked off notPending => stuck v blocked off ?_) free
      rintro (_ | ⟨_, later⟩)
      · exact unblocked blocked
      · exact notPending later

/-- A node that was left without a cycle waits for all its successors, which are blocked. -/
theorem Consistent.await (consistent : Consistent g start (v :: path) [] search)
    (none : ∀ w ∈ g.succs v, w ≠ start ∧ w ∈ search.blocked) :
    Consistent g start path [] (search.await v (g.succs v)) where
  onPath w member := consistent.onPath w (List.mem_cons_of_mem v member)
  stuck w blocked off notPending x step := by
    by_cases same : w = v
    · subst same
      obtain ⟨notStart, blocked'⟩ := none x step
      exact ⟨notStart, blocked', CycleSearch.mem_waitingFor_await.mpr (Or.inr ⟨step, rfl⟩)⟩
    · obtain ⟨notStart, blocked', waits⟩ := consistent.stuck w blocked
        (mt List.mem_cons.mp (not_or.mpr ⟨same, off⟩)) notPending x step
      exact ⟨notStart, blocked', CycleSearch.mem_waitingFor_await.mpr (Or.inl waits)⟩
  free w free := by
    refine List.eq_nil_iff_forall_not_mem.mpr fun x waits => ?_
    rcases CycleSearch.mem_waitingFor_await.mp waits with before | ⟨step, _⟩
    · rw [consistent.free w free] at before
      cases before
    · exact free (none w step).2

/-- Nothing closes a path past a node that is blocked off it. -/
theorem Consistent.not_closes (consistent : Consistent g start path [] search)
    (blocked : v ∈ search.blocked) (off : v ∉ path) {avoided : List Int} (longer : path ⊆ avoided) :
    ¬ Closes g start avoided v inner := by
  intro closes
  induction closes with
  | back edge => exact (consistent.stuck _ blocked off List.not_mem_nil start edge).1 rfl
  | @pass avoided v w inner edge above new rest ih =>
      obtain ⟨_, blocked', _⟩ := consistent.stuck v blocked off List.not_mem_nil w edge
      exact ih blocked' (fun onPath => new (List.mem_cons_of_mem v (longer onPath)))
        fun x member => List.mem_cons_of_mem v (longer member)

/-! ### Extending a path -/

/-- What a part of the search does that finds some cycles: what was blocked stays so, and only nodes
that were free come to wait for others. -/
structure Finds (g : CallGraph) (start : Int) (path : List Int) (cycles : List (List Int))
    (search after : CycleSearch) : Prop where
  consistent : Consistent g start path [] after
  kept : ∀ v ∈ search.blocked, v ∈ after.blocked
  waits : ∀ v, ∀ w ∈ after.waitingFor v, w ∈ search.waitingFor v ∨ w ∉ search.blocked
  recorded : after.cycles = cycles.reverse ++ search.cycles

variable {cycles cycles' : List (List Int)} {later : CycleSearch}

theorem Finds.none (consistent : Consistent g start path [] search) :
    Finds g start path [] search search where
  consistent := consistent
  kept _ blocked := blocked
  waits _ _ waits := Or.inl waits
  recorded := rfl

theorem Finds.one (consistent : Consistent g start path [] search) (cycle : List Int) :
    Finds g start path [cycle] search (search.record cycle) where
  consistent := ⟨consistent.onPath, consistent.stuck, consistent.free⟩
  kept _ blocked := blocked
  waits _ _ waits := Or.inl waits
  recorded := rfl

theorem Finds.trans (first : Finds g start path cycles search after)
    (second : Finds g start path cycles' after later) :
    Finds g start path (cycles ++ cycles') search later where
  consistent := second.consistent
  kept v blocked := second.kept v (first.kept v blocked)
  waits v w waits := by
    rcases second.waits v w waits with before | free
    · exact first.waits v w before
    · exact Or.inr fun blocked => free (first.kept w blocked)
  recorded := by rw [second.recorded, first.recorded, List.reverse_append, List.append_assoc]

/-- The search leaves `v` with the cycles that were found from it. -/
theorem Finds.leave (consistent : Consistent g start path [] search) (free : v ∉ search.blocked)
    (below : Finds g start (v :: path) cycles (search.block v) after)
    (none : cycles = [] → ∀ w ∈ g.succs v, w ≠ start ∧ w ∈ after.blocked) :
    Finds g start path cycles search
      (if !cycles.isEmpty then after.release [v] else after.await v (g.succs v)) := by
  have kept {w : Int} (blocked : w ∈ search.blocked) : w ∈ after.blocked :=
    below.kept w (CycleSearch.mem_block.mpr (Or.inr blocked))
  have waits {x w : Int} (waits : w ∈ after.waitingFor x) :
      w ∈ search.waitingFor x ∨ w ∉ search.blocked := by
    refine (below.waits x w waits).imp_right fun free blocked => ?_
    exact free (CycleSearch.mem_block.mpr (Or.inr blocked))
  split
  · -- What waits for a node that was free when `v` was entered was free then too.
    have isolated (x : Int) (unblocked : x ∉ search.blocked) (w : Int)
        (waiting : w ∈ after.waitingFor x) : w ∉ search.blocked := by
      refine (waits waiting).resolve_left fun before => ?_
      rw [consistent.free x unblocked] at before
      cases before
    have outside : ∀ x ∈ [v], x ∉ search.blocked := by simpa using free
    have pending : Consistent g start path [v] after := by
      refine ⟨fun w member => kept (consistent.onPath w member), fun w blocked off notPending => ?_,
        below.consistent.free⟩
      refine below.consistent.stuck w blocked ?_ List.not_mem_nil
      exact mt List.mem_cons.mp (not_or.mpr ⟨mt List.mem_singleton.mpr notPending, off⟩)
    exact {
      consistent := pending.release isolated outside consistent.onPath
      kept := fun w blocked => CycleSearch.mem_release isolated outside (kept blocked) blocked
      waits := fun x w waiting => waits (CycleSearch.mem_waitingFor_of_release waiting)
      recorded := by rw [CycleSearch.release_cycles]; exact below.recorded }
  · rename_i empty
    have nothing : cycles = [] := by simpa using empty
    exact {
      consistent := below.consistent.await (none nothing)
      kept := fun w => kept
      waits := by
        intro x w waiting
        rcases CycleSearch.mem_waitingFor_await.mp waiting with before | ⟨_, rfl⟩
        · exact waits before
        · exact Or.inr free
      recorded := below.recorded }

/-- The part of the search for one node that is not blocked. -/
def Searches (g : CallGraph) (start : Int) (path : List Int) (budget : Nat) : Prop :=
  ∀ search v, Consistent g start path [] search → v ∉ search.blocked → v ∈ g.keys →
    let result := circuit g start budget path search v
    Finds g start path (closings g start budget (v :: path)) search result.2 ∧
      result.1 = !(closings g start budget (v :: path)).isEmpty ∧
      (result.1 = false → v ∈ result.2.blocked)

theorem extend_finds (searches : Searches g start path budget)
    (consistent : Consistent g start path [] search) (known : w ∈ g.keys) (least : start ≤ w)
    (found : Bool) :
    let result := extend start path (circuit g start budget path) (found, search) w
    Finds g start path (closingsVia g start budget path w) search result.2 ∧
      result.1 = (found || !(closingsVia g start budget path w).isEmpty) ∧
      (result.1 = false → w ≠ start ∧ w ∈ result.2.blocked) := by
  unfold extend closingsVia
  by_cases isStart : w = start
  · simp only [isStart, if_true]
    exact ⟨.one consistent _, by simp, fun none => by simp at none⟩
  · simp only [isStart, if_false]
    have above : start < w := by omega
    by_cases blocked : w ∈ search.blocked
    · -- A blocked node is on the path or closes nothing.
      have nothing : (if start < w ∧ w ∉ path then closings g start budget (w :: path) else []) =
          [] := by
        split
        · rename_i new
          refine closings_eq_nil_iff.mpr fun inner _ => ?_
          exact consistent.not_closes blocked new.2 (List.Subset.refl path)
        · rfl
      simp only [nothing, if_pos blocked]
      exact ⟨.none consistent, by simp, fun _ => ⟨isStart, blocked⟩⟩
    · have new : w ∉ path := fun onPath => blocked (consistent.onPath w onPath)
      obtain ⟨finds, found', left⟩ := searches search w consistent blocked known
      simp only [if_neg blocked, if_pos (And.intro above new)]
      refine ⟨finds, by rw [found'], fun none => ⟨isStart, left ?_⟩⟩
      exact (Bool.or_eq_false_iff.mp none).2

/-- Following successors one after the other finds the cycles through each in turn. -/
theorem extend_foldl_finds (searches : Searches g start path budget)
    (consistent : Consistent g start path [] search)
    (known : ∀ w ∈ ws, start ≤ w ∧ w ∈ g.keys) (found : Bool) :
    let result := ws.foldl (extend start path (circuit g start budget path)) (found, search)
    let cycles := ws.flatMap (closingsVia g start budget path)
    Finds g start path cycles search result.2 ∧ result.1 = (found || !cycles.isEmpty) ∧
      (result.1 = false → ∀ w ∈ ws, w ≠ start ∧ w ∈ result.2.blocked) := by
  induction ws generalizing search found with
  | nil => exact ⟨.none consistent, by simp, by simp⟩
  | cons w ws ih =>
      obtain ⟨least, inside⟩ := known w List.mem_cons_self
      obtain ⟨first, found', left⟩ := extend_finds searches consistent inside least found
      rw [List.foldl_cons, List.flatMap_cons]
      set middle := extend start path (circuit g start budget path) (found, search) w
      obtain ⟨rest, found'', left'⟩ := ih first.consistent
        (fun v member => known v (List.mem_cons_of_mem w member)) middle.1
      refine ⟨first.trans rest, ?_, ?_⟩
      · rw [found'', found', Bool.or_assoc]
        cases closingsVia g start budget path w <;> simp
      · intro none v member
        rcases List.mem_cons.mp member with rfl | later
        · have unfound : middle.1 = false := by
            rw [found''] at none
            exact (Bool.or_eq_false_iff.mp none).1
          obtain ⟨notStart, blocked⟩ := left unfound
          exact ⟨notStart, rest.kept v blocked⟩
        · exact left' none v later

/-- With room for every node on the path, the search finds all ways to close it. -/
theorem searches (known : ∀ v, ∀ w ∈ g.succs v, start ≤ w ∧ w ∈ g.keys) (distinct : path.Nodup)
    (within : path ⊆ g.keys) (room : g.keys.length ≤ budget + path.length) :
    Searches g start path budget := by
  induction budget generalizing path with
  | zero =>
      -- The path has every node already.
      intro search v consistent free inside
      have new : v ∉ path := fun onPath => free (consistent.onPath v onPath)
      have shorter := (List.subperm_of_subset (List.nodup_cons.mpr ⟨new, distinct⟩)
        (List.cons_subset.mpr ⟨inside, within⟩)).length_le
      rw [List.length_cons] at shorter
      omega
  | succ budget ih =>
      intro search v consistent free inside
      have new : v ∉ path := fun onPath => free (consistent.onPath v onPath)
      have below := ih (List.nodup_cons.mpr ⟨new, distinct⟩)
        (List.cons_subset.mpr ⟨inside, within⟩) (by rw [List.length_cons]; omega)
      obtain ⟨finds, found, left⟩ :=
        extend_foldl_finds below (consistent.block v) (known v) false
      rw [Bool.false_or] at found
      simp only [circuit, closings_succ]
      rw [found] at left ⊢
      refine ⟨finds.leave consistent free fun nothing => left (by rw [nothing]; rfl), rfl, ?_⟩
      intro none
      rw [none]
      exact finds.kept v (CycleSearch.mem_block.mpr (Or.inl rfl))

/-- The cycles that are found through a node are the ways to close the path of that node alone. -/
theorem cyclesThrough_eq (known : ∀ v, ∀ w ∈ g.succs v, start ≤ w ∧ w ∈ g.keys)
    (inside : start ∈ g.keys) (room : g.keys.length ≤ budget) :
    g.cyclesThrough budget start = closings g start budget [start] := by
  have found := (searches known List.nodup_nil (List.nil_subset _) room {} start
    (consistent_start g start) Std.HashSet.not_mem_empty inside).1
  rw [cyclesThrough, found.recorded]
  simp

end PermissionGuard.CallGraph
