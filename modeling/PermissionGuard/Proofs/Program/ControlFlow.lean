import PermissionGuard.Proofs.Program.Representation
import Mathlib.Logic.Relation

/-!
Control flow between the positions of a body, as the statements there say it (`FlowsTo`). It is what
the flow graph of the body has if no statement names a successor outside.
-/

namespace PermissionGuard

namespace Program

variable {p : Program} {m : MethodId} {method : Method} {i j : Nat}

/-- Control may go from one position of a body to another: to a successor that the statement names,
or to the next position if it names none. -/
def FlowsTo (p : Program) (method : Method) (i j : Nat) : Prop :=
  ∃ s st, method.body[i]? = some s ∧ p.statement? s = some st ∧
    match st.succs with
    | none => j = i + 1 ∧ j < method.body.length
    | some targets => (j : Int) ∈ targets

/-- No statement of a body names a successor outside. -/
def StaysInside (p : Program) (method : Method) : Prop :=
  ∀ s ∈ method.body, ∀ st, p.statement? s = some st →
    ∀ succ ∈ st.succs.getD [], 0 ≤ succ ∧ succ < method.body.length

theorem FlowsTo.inside (inside : p.StaysInside method) (flows : p.FlowsTo method i j) :
    j < method.body.length := by
  obtain ⟨s, st, position, found, leads⟩ := flows
  split at leads
  · exact leads.2
  · rename_i targets explicit
    have within := inside s (List.mem_of_getElem? position) st found j (by simpa [explicit])
    omega

/-- The flow graph of a body has the edges that its statements say. -/
theorem WellFormed.mem_flowGraph_next (wellFormed : p.WellFormed)
    (known : p.method? m = some method) (inside : p.StaysInside method) :
    j ∈ (p.flowGraph method).next i ↔ p.FlowsTo method i j := by
  have row : (p.flowGraph method).next i = ((method.body[i]?).map fun s =>
      ((p.statement? s).map (successors method.body.length)).getD []).getD [] := by
    simp [FlowGraph.next, flowGraph]
  rw [row]
  cases position : method.body[i]? with
  | none => simp [FlowsTo, position]
  | some s =>
      obtain ⟨st, found, _, atIndex⟩ := wellFormed.body_statement known position
      have within := inside s (List.mem_of_getElem? position) st found
      simp only [FlowsTo, position, found, Option.map_some, Option.getD_some, Option.some.injEq,
        exists_and_left, exists_eq_left', successors, atIndex]
      cases explicit : st.succs with
      | none =>
          rw [List.mem_ite_nil_right, List.mem_singleton, and_comm]
          exact and_congr_right fun same => same ▸ Iff.rfl
      | some targets =>
          rw [List.mem_map]
          constructor
          · rintro ⟨succ, listed, rfl⟩
            have bounds := within succ (by simpa [explicit])
            rwa [Int.toNat_of_nonneg bounds.1]
          · exact fun listed => ⟨j, listed, rfl⟩

theorem StaysInside.reachable_lt (inside : p.StaysInside method) (bound : 0 < method.body.length)
    (reachable : Relation.ReflTransGen (p.FlowsTo method) 0 i) : i < method.body.length := by
  cases reachable with
  | refl => exact bound
  | tail _ step => exact step.inside inside

end Program

end PermissionGuard
