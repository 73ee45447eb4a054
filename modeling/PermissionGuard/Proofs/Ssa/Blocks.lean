import PermissionGuard.Ssa.Lowering

/-!
The positions of a function's instructions, block after block. The statements of a function stand at
the positions of its instructions (`statements_positionOf`), and their successors say how control
goes within the blocks and from block to block (`flows_iff`).
-/

namespace PermissionGuard

section

variable {α β : Type} {items : List α} {part : α → List β} {item : α} {n i x : Nat}

/-- In a concatenation the elements of a list come after all those of the lists before it. -/
theorem getElem?_flatMap_after (listed : items[n]? = some item) (bound : i < (part item).length) :
    (items.flatMap part)[((items.take n).flatMap part).length + i]? = (part item)[i]? := by
  induction items generalizing n with
  | nil => simp at listed
  | cons first rest ih =>
      cases n with
      | zero =>
          cases listed
          simp [List.getElem?_append_left bound]
      | succ n =>
          rw [List.flatMap_cons, List.take_succ_cons, List.flatMap_cons, List.length_append,
            Nat.add_assoc, List.getElem?_append_right (Nat.le_add_right _ _),
            Nat.add_sub_cancel_left]
          exact ih listed

/-- Every position of a concatenation is one in a list of it. -/
theorem exists_after_of_lt (bound : x < (items.flatMap part).length) :
    ∃ n item i, items[n]? = some item ∧ i < (part item).length ∧
      x = ((items.take n).flatMap part).length + i := by
  induction items generalizing x with
  | nil => simp at bound
  | cons first rest ih =>
      rw [List.flatMap_cons, List.length_append] at bound
      rcases Nat.lt_or_ge x (part first).length with inside | beyond
      · exact ⟨0, first, x, rfl, inside, by simp⟩
      · obtain ⟨n, item, i, listed, within, same⟩ :=
          ih (x := x - (part first).length) (by omega)
        refine ⟨n + 1, item, i, listed, within, ?_⟩
        rw [List.take_succ_cons, List.flatMap_cons, List.length_append]
        omega

end

namespace Ssa

namespace Function

variable {f : Function} {block : Block} {instr : Instr} {p : Program} {n i x y next start : Nat}

/-- No block is empty, and control goes on to blocks of the same function. -/
def Regular (f : Function) : Prop :=
  ∀ block ∈ f.blocks, block.instrs ≠ [] ∧ ∀ next ∈ block.succs, next < f.blocks.length

instance (f : Function) : Decidable f.Regular :=
  inferInstanceAs (Decidable (∀ block ∈ f.blocks,
    block.instrs ≠ [] ∧ ∀ next ∈ block.succs, next < f.blocks.length))

/-- The position of an instruction of a block: all instructions of the blocks before it come
first. -/
def positionOf (f : Function) (n i : Nat) : Nat :=
  ((f.blocks.take n).flatMap Block.instrs).length + i

/-- Control goes from one position to another: to the next instruction of a block, or from the last
one of a block to the first one of a block that may come next. -/
inductive Flows (f : Function) : Nat → Nat → Prop
  | within {n i : Nat} {block : Block} (listed : f.blocks[n]? = some block)
      (more : i + 1 < block.instrs.length) : Flows f (f.positionOf n i) (f.positionOf n (i + 1))
  | across {n i next : Nat} {block : Block} (listed : f.blocks[n]? = some block)
      (last : i + 1 = block.instrs.length) (successor : next ∈ block.succs) :
      Flows f (f.positionOf n i) (f.positionOf next 0)

theorem instrs_positionOf (listed : f.blocks[n]? = some block) (bound : i < block.instrs.length) :
    f.instrs[f.positionOf n i]? = block.instrs[i]? :=
  getElem?_flatMap_after listed bound

theorem positionOf_lt (listed : f.blocks[n]? = some block) (bound : i < block.instrs.length) :
    f.positionOf n i < f.instrs.length := by
  have found := instrs_positionOf listed bound
  rw [List.getElem?_eq_getElem bound] at found
  exact (List.getElem?_eq_some_iff.mp found).1

theorem exists_positionOf (bound : x < f.instrs.length) :
    ∃ n block i, f.blocks[n]? = some block ∧ i < block.instrs.length ∧ x = f.positionOf n i :=
  exists_after_of_lt bound

theorem Regular.target_lt (regular : f.Regular) (listed : f.blocks[n]? = some block)
    (successor : next ∈ block.succs) : f.positionOf next 0 < f.instrs.length := by
  have known := (regular block (List.mem_of_getElem? listed)).2 next successor
  have there := List.getElem?_eq_getElem known
  have full := (regular _ (List.getElem_mem known)).1
  exact positionOf_lt there (List.length_pos_iff.mpr full)

/-! ### Statements -/

/-- The statement of the instruction at a place of a block. -/
def specAt (p : Program) (f : Function) (block : Block) (i : Nat) (instr : Instr) :
    StatementSpec where
  target := match instr with
    | .invoke _ callee _ _ => some (p.calleeSignature callee)
    | _ => none
  succs :=
    if i + 1 = block.instrs.length then
      some (block.succs.map fun next => (f.positionOf next 0 : Int))
    else none
  line := instr.line

theorem blockStarts_getD (bound : n < f.blocks.length) :
    f.blockStarts.getD n 0 = f.positionOf n 0 := by
  have starts (blocks : List Block) (before : List Nat) (count : Nat) :
      (blocks.foldl (fun x block => (x.1 ++ [x.2], x.2 + block.instrs.length))
        (before, count)).1 = before ++ (List.range blocks.length).map fun n =>
          count + ((blocks.take n).flatMap Block.instrs).length := by
    induction blocks generalizing before count with
    | nil => simp
    | cons block blocks ih =>
        rw [List.foldl_cons, ih, List.length_cons, List.range_succ_eq_map]
        simp [Nat.add_assoc, Function.comp_def]
  have all : f.blockStarts = [] ++ (List.range f.blocks.length).map fun n =>
      0 + ((f.blocks.take n).flatMap Block.instrs).length := starts f.blocks [] 0
  rw [all]
  simp [bound, positionOf]

@[simp] theorem blockStatements_length (p : Program) (starts : List Nat) (block : Block) :
    (blockStatements p starts block).length = block.instrs.length := by
  simp [blockStatements]

theorem Regular.statements_positionOf (regular : f.Regular) (p : Program)
    (listed : f.blocks[n]? = some block) (there : block.instrs[i]? = some instr) :
    (f.statements p)[f.positionOf n i]? = some (specAt p f block i instr) := by
  have bound := (List.getElem?_eq_some_iff.mp there).1
  have within : i < (blockStatements p f.blockStarts block).length := by simpa using bound
  have found : (f.statements p)[f.positionOf n i]? =
      (blockStatements p f.blockStarts block)[i]? := by
    have size : ((f.blocks.take n).flatMap Block.instrs).length =
        ((f.blocks.take n).flatMap (blockStatements p f.blockStarts)).length := by
      simp [List.length_flatMap]
    rw [statements, positionOf, size, getElem?_flatMap_after listed within]
  have targets : (block.succs.map fun next => Int.ofNat (f.blockStarts.getD next 0)) =
      block.succs.map fun next => (f.positionOf next 0 : Int) := by
    refine List.map_congr_left fun next successor => ?_
    rw [blockStarts_getD ((regular block (List.mem_of_getElem? listed)).2 next successor)]
    rfl
  rw [found]
  simp only [blockStatements, List.getElem?_map, List.getElem?_zipIdx, there, Option.map_some,
    Nat.zero_add, targets]
  rfl

theorem statements_length (p : Program) (f : Function) :
    (f.statements p).length = f.instrs.length := by
  simp [statements, instrs, List.length_flatMap]

/-- What the successors of the statements say is how control goes. -/
theorem Regular.flows_iff (regular : f.Regular) (p : Program) : f.Flows x y ↔
    ∃ spec, (f.statements p)[x]? = some spec ∧
      match spec.succs with
      | none => y = x + 1 ∧ y < f.instrs.length
      | some targets => (y : Int) ∈ targets := by
  constructor
  · intro flows
    cases flows with
    | within listed more =>
        have there := List.getElem?_eq_getElem (Nat.lt_of_succ_lt more)
        refine ⟨_, regular.statements_positionOf p listed there, ?_⟩
        simp only [specAt, if_neg (Nat.ne_of_lt more)]
        exact ⟨rfl, positionOf_lt listed more⟩
    | across listed last successor =>
        have there := List.getElem?_eq_getElem (Nat.lt_of_succ_le (Nat.le_of_eq last))
        refine ⟨_, regular.statements_positionOf p listed there, ?_⟩
        simp only [specAt, if_pos last]
        exact List.mem_map_of_mem successor
  · rintro ⟨spec, stated, leads⟩
    have bound := (List.getElem?_eq_some_iff.mp stated).1
    rw [statements_length] at bound
    obtain ⟨n, block, i, listed, within, rfl⟩ := exists_positionOf bound
    have known := regular.statements_positionOf p listed (List.getElem?_eq_getElem within)
    cases stated.symm.trans known
    by_cases last : i + 1 = block.instrs.length
    · simp only [specAt, if_pos last, List.mem_map, Int.natCast_inj] at leads
      obtain ⟨next, successor, rfl⟩ := leads
      exact .across listed last successor
    · simp only [specAt, if_neg last] at leads
      rw [leads.1]
      exact .within listed (Nat.lt_of_le_of_ne within last)

/-- No statement names a successor outside of the function. -/
theorem Regular.succs_inside (regular : f.Regular) {spec : StatementSpec}
    (stated : (f.statements p)[x]? = some spec) :
    ∀ succ ∈ spec.succs.getD [], 0 ≤ succ ∧ succ < f.instrs.length := by
  have bound := (List.getElem?_eq_some_iff.mp stated).1
  rw [statements_length] at bound
  obtain ⟨n, block, i, listed, within, rfl⟩ := exists_positionOf bound
  cases stated.symm.trans (regular.statements_positionOf p listed (List.getElem?_eq_getElem within))
  intro succ named
  by_cases last : i + 1 = block.instrs.length
  · simp only [specAt, if_pos last, Option.getD_some, List.mem_map] at named
    obtain ⟨next, successor, rfl⟩ := named
    have inside := regular.target_lt listed successor
    omega
  · simp [specAt, last] at named

/-- The handlers of a method: one from the first deferred call that recovers to the end. -/
def handlers (p : Program) (f : Function) : List ExceptionRange :=
  (f.recoveryStart? p).toList.map fun (start : Nat) => ⟨start, f.instrs.length, panicType⟩

theorem recoveryStart?_lt (starts : f.recoveryStart? p = some start) : start < f.instrs.length := by
  unfold recoveryStart? at starts
  split at starts
  · cases starts
  · rename_i entry blocks listed
    have first := (List.findIdx?_eq_some_iff_getElem.mp starts).1
    rw [instrs, listed, List.flatMap_cons, List.length_append]
    omega

end Function

end Ssa

end PermissionGuard
