import PermissionGuard.Proofs.Program.Finished
import Mathlib.Order.Bounds.Basic

/-!
The finished programs. Whatever the steps of the construction were, a program that is finished has
its callers and callees in line, leads from a signature to the first method that has it, and keeps
the control flow inside the bodies.
-/

namespace PermissionGuard

namespace Program

variable {p : Program} {key : Text} {m : MethodId}

/-- The numbers of the methods with a signature key. -/
def numbersOf (p : Program) (key : Text) : Set MethodId :=
  {m | ∃ method, p.method? m = some method ∧ method.sig.key = key}

theorem methodByKey?_isLeast (found : p.methodByKey? key = some m) :
    IsLeast (p.numbersOf key) m := by
  obtain ⟨i, first, rfl⟩ := Option.map_eq_some_iff.mp found
  obtain ⟨bound, same, earlier⟩ := Array.findIdx?_eq_some_iff_getElem.mp first
  constructor
  · refine ⟨p.methods[i], ?_, beq_iff_eq.mp same⟩
    rw [Int.ofNat_eq_natCast, method?, entry?_natCast, Array.getElem?_eq_getElem bound]
  · rintro (m : Int) ⟨method, known, keyed⟩
    obtain ⟨nonnegative, there⟩ := entry?_eq_some_iff.mp known
    obtain ⟨_, rfl⟩ := Array.getElem?_eq_some_iff.mp there
    rcases Nat.lt_or_ge m.toNat i with less | least
    · exact absurd (beq_iff_eq.mpr keyed) (earlier m.toNat less)
    · exact Int.le_trans (Int.ofNat_le.mpr least) (Int.toNat_of_nonneg nonnegative).le

theorem methodByKey?_eq_none_iff : p.methodByKey? key = none ↔ p.numbersOf key = ∅ := by
  rw [methodByKey?, Option.map_eq_none_iff, Array.findIdx?_eq_none_iff,
    Set.eq_empty_iff_forall_notMem]
  constructor
  · rintro absent m ⟨method, known, keyed⟩
    have other := absent method (Array.mem_of_getElem? (entry?_eq_some_iff.mp known).2)
    exact beq_eq_false_iff_ne.mp other keyed
  · intro absent method member
    obtain ⟨m, known⟩ := mem_methods.mp (Array.mem_toList_iff.mpr member)
    exact beq_eq_false_iff_ne.mpr fun keyed => absent m ⟨method, known, keyed⟩

/-- A signature belongs to the first method that was added with its key. -/
theorem methodByKey?_eq_some_iff : p.methodByKey? key = some m ↔ IsLeast (p.numbersOf key) m := by
  refine ⟨methodByKey?_isLeast, fun least => ?_⟩
  cases found : p.methodByKey? key with
  | none => exact absurd least.1 (by simp [methodByKey?_eq_none_iff.mp found])
  | some first => rw [(methodByKey?_isLeast found).unique least]

theorem WellFormed.callees_known (wellFormed : p.WellFormed) {s : StmtId}
    (called : m ∈ p.callees s) :
    ∃ method, p.method? m = some method ∧ method.concrete = true := by
  cases found : p.statement? s with
  | none => simp [callees, found] at called
  | some st => exact wellFormed.callees_concrete found (by simpa [callees, found] using called)

end Program

namespace Arena

variable {a : Arena} {steps : List BuildStep} {m : MethodId} {s c : StmtId} {method : Method}

/-- Unknown methods have no callers and are not called. -/
theorem BuiltBy.mem_callersOf_iff (built : a.BuiltBy steps) :
    c ∈ a.callersOf m ↔ m ∈ a.callees c := by
  cases known : a.method? m with
  | some method => exact built.mem_callersOf known
  | none =>
      rw [built.callersOf_unknown known]
      refine ⟨fun member => absurd member List.not_mem_nil, fun called => ?_⟩
      obtain ⟨method, again, _⟩ := built.wellFormed.callees_known called
      cases known.symm.trans again

theorem BuiltBy.succs_inside (built : a.BuiltBy steps) {st : Statement}
    (known : a.method? m = some method) (member : s ∈ method.body)
    (found : a.statement? s = some st) :
    ∀ succ ∈ st.succs.getD [], 0 ≤ succ ∧ succ < method.body.length := by
  obtain ⟨_, noStrays, rfl⟩ := Builder.build_eq_ok_iff.mp built
  rw [List.flatMap_eq_nil_iff] at noStrays
  have inside := noStrays method (Program.mem_methods.mpr ⟨m, known⟩)
  exact Builder.strayedSuccessors_eq_nil_iff.mp inside s member st found

end Arena

/-- Two methods with one signature, of which the first is called from two bodies, and an abstract
method. The program is finished once in between. -/
def relaySteps : List BuildStep :=
  let run : Signature := ⟨"app.Main", "run", "void", []⟩
  let take : Signature := ⟨"app.Main", "take", "void", []⟩
  [.permissions ["android.permission.CAMERA"], .subtype "app.Main" "java.lang.Object",
    .method run true false, .method take true false, .method take true true,
    .method ⟨"app.Shape", "area", "int", []⟩ false false,
    .statement 1 {}, .statement 0 { target := some take, line := 3 }, .build,
    .statement 1 { target := some run, succs := some [0] },
    .edge 2 0, .edge 2 1, .edge 1 1, .edge 2 1,
    .trap 0 ⟨0, 1, "java.lang.SecurityException"⟩, .entryPoint 0]

end PermissionGuard
