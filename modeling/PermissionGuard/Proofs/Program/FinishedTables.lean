import PermissionGuard.Proofs.Ordered
import PermissionGuard.Proofs.Program.TableBuilder
import PermissionGuard.Proofs.Program.Tables

/-!
Finished tables. Whatever the steps were, they are finished exactly if the program of the steps is,
with the same errors, and answer every query as it does (`buildWith_model`). In particular they are
consistent: who calls whom is said alike from both sides, the invocations are those of the bodies,
and a signature leads to the first method that has it (`built_arena_consistent`).
-/

namespace PermissionGuard

open Program (entry?_map entry?)

namespace Tables

variable {t : Tables} {edges : Std.HashMap StmtId (Std.HashSet MethodId)} {m : MethodId}
variable {c s : StmtId} {finder : DominatorFinder}

/-! ### Answers of the tables -/

theorem program_traps (aligned : t.traps.size = t.methods.size) (m : MethodId) :
    ((t.program.method? m).map Method.traps).getD [] = t.trapsOf m := by
  rw [program_method? aligned]
  cases known : t.method? m with
  | none => simp [trapsOf, ofMethod, known]
  | some row => rfl

namespace Coherent

theorem callSitesOf_eq (coherent : t.Coherent edges) (finder : DominatorFinder) (m : MethodId) :
    t.callSitesOf m = (Arena.ofProgramWith finder t.program).callSites m := by
  have there : (Arena.ofProgramWith finder t.program).method? m = _ :=
    program_method? coherent.traps_size m
  rw [callSitesOf, ofMethod, Arena.callSites, there]
  cases known : t.method? m with
  | none => rfl
  | some row =>
      simp only [coherent.callSites (coherent.isMethod known), Option.getD_some, Option.map_some]
      rfl

theorem callersOf_nodup (coherent : t.Coherent edges) (m : MethodId) : (t.callersOf m).Nodup := by
  cases known : t.method? m with
  | none => simp [callersOf, ofMethod, known]
  | some row =>
      obtain ⟨callers, found⟩ := exists_entry? coherent.callers_size known
      simpa [callersOf, ofMethod, known, found] using coherent.callers_nodup found

/-- Both ends of a call edge know of it. -/
theorem mem_callersOf_iff (coherent : t.Coherent edges) (wellFormed : t.program.WellFormed) :
    c ∈ t.callersOf m ↔ m ∈ t.calleesOf c := by
  rw [← program_callees coherent.callees_size]
  cases known : t.method? m with
  | none =>
      rw [callersOf, ofMethod, known]
      refine ⟨fun member => absurd member List.not_mem_nil, fun called => ?_⟩
      obtain ⟨method, isMethod, _⟩ := wellFormed.callees_known called
      rw [program_method? coherent.traps_size, known] at isMethod
      cases isMethod
  | some row =>
      obtain ⟨callers, found⟩ := exists_entry? coherent.callers_size known
      rw [callersOf, ofMethod, known]
      simp only [found, Option.getD_some]
      exact coherent.mem_callers found

theorem calledFrom_eq (coherent : t.Coherent edges) : t.calledFrom = t.program.calledFrom := by
  rw [Program.calledFrom_eq]
  funext m
  rw [calledFrom, coherent.callSitesOf_eq FlowGraph.avoidanceTree,
    ← funext (program_callees coherent.callees_size)]
  rfl

theorem edgeCount_eq (coherent : t.Coherent edges) :
    totalLength t.callees.toList = t.program.edgeCount := by
  have column : t.program.stmts.toList.map Statement.callees = t.callees.toList := by
    refine List.ext_getElem? fun i => ?_
    simp only [program, List.getElem?_map, Array.getElem?_toList, Array.getElem?_zipWith]
    have aligned := coherent.callees_size
    by_cases bound : i < t.stmts.size
    · rw [Array.getElem?_eq_getElem bound, Array.getElem?_eq_getElem (aligned ▸ bound)]
      rfl
    · have bound' : ¬ i < t.callees.size := aligned ▸ bound
      rw [Array.getElem?_eq_none (Nat.not_lt.mp bound),
        Array.getElem?_eq_none (Nat.not_lt.mp bound')]
      rfl
  rw [Program.edgeCount, column]

theorem methodIds_eq (coherent : t.Coherent edges) : t.methodIds = t.program.methodIds := by
  rw [methodIds, Program.methodIds, program_methods_size coherent.traps_size]

/-- The closure of the calls by the tables is that of the program. -/
theorem closure_eq (coherent : t.Coherent edges) : t.closure = t.program.reachable := by
  rw [closure, Program.reachable, coherent.calledFrom_eq, coherent.edgeCount_eq,
    coherent.methodIds_eq]
  rfl

theorem enclosing_eq (coherent : t.Coherent edges) (finder : DominatorFinder) (s : StmtId) :
    t.enclosing s = (Arena.ofProgramWith finder t.program).enclosing s := by
  have there : (Arena.ofProgramWith finder t.program).statement? s = _ :=
    program_statement? coherent.callees_size s
  rw [Arena.enclosing, there, Option.map_map]
  rfl

theorem caughtAt_eq (coherent : t.Coherent edges) (finder : DominatorFinder) (type : Text)
    (s : StmtId) (m : MethodId) :
    t.caughtAt type s m = (Arena.ofProgramWith finder t.program).caughtAt type s m := by
  have there : (Arena.ofProgramWith finder t.program).statement? s = _ :=
    program_statement? coherent.callees_size s
  have traps : (Arena.ofProgramWith finder t.program).traps m = t.trapsOf m :=
    program_traps coherent.traps_size m
  rw [Arena.caughtAt, there, traps, caughtAt]
  cases t.statement? s <;> rfl

/-! ### Finished tables -/

theorem finish_dominatorsOf (coherent : t.Coherent edges) (finder : DominatorFinder) (s : StmtId)
    (m : MethodId) : (TableBuilder.finish finder t).dominatorsOf s m =
      (Arena.ofProgramWith finder t.program).dominatorsOf s m := by
  have there : (Arena.ofProgramWith finder t.program).statement? s = _ :=
    program_statement? coherent.callees_size s
  have same : (TableBuilder.finish finder t).statement? s = t.statement? s := rfl
  rw [Arena.dominatorsOf, there, dominatorsOf, same]
  cases known : t.statement? s with
  | none => rfl
  | some row =>
      simp only [ofStatement, same, known, Option.map_some]
      rfl

theorem finish_callersOf (finder : DominatorFinder) (t : Tables) (m : MethodId) :
    (TableBuilder.finish finder t).callersOf m =
      (t.callersOf m).mergeSort fun a b => decide (a ≤ b) := by
  simp only [callersOf, ofMethod, TableBuilder.finish, method?, entry?_map]
  cases entry? t.methods m with
  | none => simp
  | some row => cases entry? t.callers m <;> simp

theorem finish_callersOf_increasing (coherent : t.Coherent edges) (finder : DominatorFinder)
    (m : MethodId) : ((TableBuilder.finish finder t).callersOf m).Pairwise (· < ·) := by
  have distinct := (coherent.finish finder).callersOf_nodup m
  have sorted : ((TableBuilder.finish finder t).callersOf m).Pairwise (· ≤ ·) := by
    rw [finish_callersOf]
    exact mergeSort_sorted _
  exact (sorted.and distinct).imp fun ⟨le, ne⟩ => Int.lt_iff_le_and_ne.mpr ⟨le, ne⟩

/-- Finished tables answer every query as the finished program of their rows does. -/
theorem model_eq {steps : List BuildStep} (coherent : t.Coherent edges)
    (built : (Arena.ofProgramWith finder t.program).BuiltWith finder steps) :
    (TableBuilder.finish finder t).model = (Arena.ofProgramWith finder t.program).model := by
  have finished := coherent.finish finder
  have statements : t.statementIds = t.program.statementIds := by
    rw [statementIds, Program.statementIds, program_stmts_size coherent.callees_size]
  have callers (m : MethodId) : (TableBuilder.finish finder t).callersOf m =
      (Arena.ofProgramWith finder t.program).callersOf m := by
    refine eq_of_pairwise_of_mem (fun _ _ => Int.lt_asymm)
      (coherent.finish_callersOf_increasing finder m) (built.finished.callersOf_increasing m) ?_
    intro c
    refine (finished.mem_callersOf_iff built.finished.wellFormed).trans ?_
    rw [← program_callees finished.callees_size]
    exact (built.finished.mem_callersOf_iff (m := m)).symm
  simp only [model, Arena.model, Model.mk.injEq]
  refine ⟨coherent.closure_eq, statements, ?_, ?_, ?_, funext callers, ?_, ?_, ?_⟩
  · exact funext fun m => (program_method? coherent.traps_size m).symm
  · exact funext fun s => (program_statement? coherent.callees_size s).symm
  · exact funext fun m => finished.callSitesOf_eq finder m
  · exact funext fun s => finished.enclosing_eq finder s
  · exact funext fun type => funext fun s => funext fun m => finished.caughtAt_eq finder type s m
  · exact funext fun s => funext fun m => coherent.finish_dominatorsOf finder s m

end Coherent

/-- The steps end in a successful build of the tables, with a search for dominators. -/
def BuiltWith (finder : DominatorFinder) (t : Tables) (steps : List BuildStep) : Prop :=
  ((TableBuilder.run finder steps).buildWith finder).2 = .ok t

/-- Tables that are finished are those of the steps, and their program is finished too. -/
theorem BuiltWith.finished {steps : List BuildStep} (built : t.BuiltWith finder steps) :
    let before := (TableBuilder.run finder steps).tables
    t = TableBuilder.finish finder before ∧
      (Arena.ofProgramWith finder before.program).BuiltWith finder steps := by
  obtain ⟨faultless, same⟩ := TableBuilder.buildWith_eq_ok_iff.mp built
  rw [(TableBuilder.run_coherent finder steps).strayed_eq] at faultless
  obtain ⟨noErrors, noStrays⟩ := List.append_eq_nil_iff.mp faultless
  refine ⟨same, ?_⟩
  rw [Arena.BuiltWith, ← TableBuilder.run_view finder steps]
  exact Builder.buildWith_eq_ok_iff.mpr ⟨noErrors, noStrays, rfl⟩

/-- A signature leads to the method that it leads to in the program of the steps. -/
theorem BuiltWith.methodBySignature?_eq {steps : List BuildStep} (built : t.BuiltWith finder steps)
    (key : Text) : t.methodBySignature? key = (Builder.run steps).program.methodByKey? key := by
  have program : (TableBuilder.run finder steps).tables.program = _ :=
    congrArg Builder.program (TableBuilder.run_view finder steps)
  rw [← program, ← (TableBuilder.run_coherent finder steps).bySig, built.finished.1]
  rfl

end Tables

/-- Whatever steps were taken, tables are finished exactly if the program is, with the same errors,
and then they answer every query as it does. -/
theorem TableBuilder.buildWith_model (finder : DominatorFinder) (steps : List BuildStep) :
    ((run finder steps).buildWith finder).2.map Tables.model =
      ((Builder.run steps).buildWith finder).2.map Arena.model := by
  have coherent := run_coherent finder steps
  cases result : ((run finder steps).buildWith finder).2 with
  | ok t =>
      obtain ⟨rfl, built⟩ := Tables.BuiltWith.finished result
      rw [built]
      exact congrArg Except.ok (coherent.model_eq built)
  | error causes =>
      simp only [buildWith, coherent.strayed_eq] at result
      split at result
      · cases result
      · rename_i faults
        cases result
        rw [← run_view finder steps, Builder.buildWith]
        simp only [view, faults]
        rfl

/-! ### Consistency -/

namespace Tables

variable {t : Tables} {finder : DominatorFinder} {steps : List BuildStep}

/-- The numbers of the methods with a signature key. -/
def numbersOf (t : Tables) (key : Text) : Set MethodId :=
  {m | ∃ row, t.method? m = some row ∧ row.sig.key = key}

/-- Numbers are positions, bodies and statements name each other, and every column says what the
rows and the other columns say. -/
structure Consistent (t : Tables) : Prop where
  method_id : ∀ {m row}, t.method? m = some row → row.id = m
  statement_id : ∀ {s row}, t.statement? s = some row → row.id = s
  /-- A statement stands in the body of its method, at its position. -/
  placed : ∀ {s st}, t.statement? s = some st →
    ∃ row, t.method? st.method = some row ∧ row.body[st.index]? = some s
  /-- The statement at a position of a body knows the body and the position. -/
  body_statement : ∀ {m row i s}, t.method? m = some row → row.body[i]? = some s →
    ∃ st, t.statement? s = some st ∧ st.method = m ∧ st.index = i
  body_increasing : ∀ {m row}, t.method? m = some row → row.body.Pairwise (· < ·)
  callSitesOf_eq : ∀ {m row}, t.method? m = some row →
    t.callSitesOf m = row.body.filter t.isInvoke
  callSitesOf_unknown : ∀ {m}, t.method? m = none → t.callSitesOf m = []
  mem_callersOf_iff : ∀ {c m}, c ∈ t.callersOf m ↔ m ∈ t.calleesOf c
  callersOf_increasing : ∀ m, (t.callersOf m).Pairwise (· < ·)
  calleesOf_nodup : ∀ c, (t.calleesOf c).Nodup
  callee_concrete : ∀ {c m}, m ∈ t.calleesOf c →
    ∃ row, t.method? m = some row ∧ row.concrete = true
  abstract_bare : ∀ {m row}, t.method? m = some row → row.concrete = false →
    row.body = [] ∧ t.callersOf m = []
  methodBySignature_least : ∀ {key m},
    t.methodBySignature? key = some m ↔ IsLeast (t.numbersOf key) m
  methodBySignature_absent : ∀ {key}, t.methodBySignature? key = none ↔ t.numbersOf key = ∅
  /-- Every explicit successor is a position of the body. -/
  succs_inside : ∀ {m row s st}, t.method? m = some row → s ∈ row.body →
    t.statement? s = some st → ∀ succ ∈ st.succs.getD [], 0 ≤ succ ∧ succ < row.body.length

namespace Coherent

variable {edges : Std.HashMap StmtId (Std.HashSet MethodId)} {m : MethodId} {s : StmtId}

theorem exists_row (coherent : t.Coherent edges) {method : Method}
    (known : t.program.method? m = some method) :
    ∃ row, t.method? m = some row ∧ row.withTraps (t.trapsOf m) = method := by
  rw [program_method? coherent.traps_size] at known
  exact Option.map_eq_some_iff.mp known

theorem numbersOf_eq (coherent : t.Coherent edges) (key : Text) :
    t.numbersOf key = t.program.numbersOf key := by
  ext m
  constructor
  · rintro ⟨row, known, same⟩
    exact ⟨_, coherent.isMethod known, same⟩
  · rintro ⟨method, known, same⟩
    obtain ⟨row, there, rfl⟩ := coherent.exists_row known
    exact ⟨row, there, same⟩

theorem placed (coherent : t.Coherent edges) (wellFormed : t.program.WellFormed)
    {st : StatementRow} (known : t.statement? s = some st) :
    ∃ row, t.method? st.method = some row ∧ row.body[st.index]? = some s := by
  obtain ⟨method, isMethod, position⟩ := wellFormed.placed (coherent.isStatement known)
  obtain ⟨row, there, rfl⟩ := coherent.exists_row isMethod
  exact ⟨row, there, position⟩

theorem body_statement (coherent : t.Coherent edges) (wellFormed : t.program.WellFormed)
    {row : MethodRow} {i : Nat} (known : t.method? m = some row)
    (position : row.body[i]? = some s) :
    ∃ st, t.statement? s = some st ∧ st.method = m ∧ st.index = i := by
  obtain ⟨st, found, place⟩ := wellFormed.body_statement (coherent.isMethod known) position
  rw [program_statement? coherent.callees_size] at found
  obtain ⟨st, there, rfl⟩ := Option.map_eq_some_iff.mp found
  exact ⟨st, there, place⟩

theorem callSitesOf_row (coherent : t.Coherent edges) {row : MethodRow}
    (known : t.method? m = some row) : t.callSitesOf m = row.body.filter t.isInvoke := by
  have found := coherent.callSites (coherent.isMethod known)
  have invokes := funext (program_isInvoke coherent.callees_size)
  rw [callSitesOf, ofMethod, known]
  simp only [found, Option.getD_some, Program.callSitesIn, invokes]
  rfl

theorem calleesOf_nodup (coherent : t.Coherent edges) (wellFormed : t.program.WellFormed)
    (s : StmtId) : (t.calleesOf s).Nodup := by
  cases known : t.statement? s with
  | none => simp [calleesOf, ofStatement, known]
  | some st => exact wellFormed.callees_nodup (coherent.isStatement known)

theorem callee_concrete (coherent : t.Coherent edges) (wellFormed : t.program.WellFormed)
    (called : m ∈ t.calleesOf s) : ∃ row, t.method? m = some row ∧ row.concrete = true := by
  rw [← program_callees coherent.callees_size] at called
  obtain ⟨method, isMethod, isConcrete⟩ := wellFormed.callees_known called
  obtain ⟨row, there, rfl⟩ := coherent.exists_row isMethod
  exact ⟨row, there, isConcrete⟩

/-- Nothing is in the body of a method that is not concrete, and nothing calls it. -/
theorem abstract_bare (coherent : t.Coherent edges) (wellFormed : t.program.WellFormed)
    {row : MethodRow} (known : t.method? m = some row) (isAbstract : row.concrete = false) :
    row.body = [] ∧ t.callersOf m = [] := by
  simp only [List.eq_nil_iff_forall_not_mem]
  refine ⟨fun s member => ?_, fun c caller => ?_⟩
  · have isConcrete := wellFormed.body_concrete (coherent.isMethod known) member
    exact Bool.false_ne_true (isAbstract.symm.trans isConcrete)
  · have called := (coherent.mem_callersOf_iff wellFormed).mp caller
    obtain ⟨callee, again, isConcrete⟩ := coherent.callee_concrete wellFormed called
    cases known.symm.trans again
    exact Bool.false_ne_true (isAbstract.symm.trans isConcrete)

end Coherent

end Tables

/-- Every arena that is built is consistent, whatever steps were taken with whatever arguments,
builds in between included. -/
theorem built_arena_consistent {finder : DominatorFinder} {steps : List BuildStep} {t : Tables}
    (built : t.BuiltWith finder steps) : t.Consistent := by
  obtain ⟨same, finished⟩ := built.finished
  have before := TableBuilder.run_coherent finder steps
  have coherent := before.finish finder
  have increasing := before.finish_callersOf_increasing finder
  rw [← same] at coherent increasing
  have wellFormed : t.program.WellFormed := by
    rw [same]
    exact TableBuilder.run_wellFormed finder steps
  constructor
  case method_id =>
    intro m row known
    exact wellFormed.method_id (coherent.isMethod known)
  case statement_id =>
    intro s row known
    exact wellFormed.statement_id (coherent.isStatement known)
  case placed => exact coherent.placed wellFormed
  case body_statement => exact coherent.body_statement wellFormed
  case body_increasing =>
    intro m row known
    exact wellFormed.body_increasing (coherent.isMethod known)
  case callSitesOf_eq => exact coherent.callSitesOf_row
  case callSitesOf_unknown =>
    intro m unknown
    rw [Tables.callSitesOf, Tables.ofMethod, unknown]
  case mem_callersOf_iff => exact coherent.mem_callersOf_iff wellFormed
  case callersOf_increasing => exact increasing
  case calleesOf_nodup => exact coherent.calleesOf_nodup wellFormed
  case callee_concrete => exact coherent.callee_concrete wellFormed
  case abstract_bare => exact coherent.abstract_bare wellFormed
  case methodBySignature_least =>
    intro key m
    rw [Tables.methodBySignature?, coherent.bySig, coherent.numbersOf_eq]
    exact Program.methodByKey?_eq_some_iff
  case methodBySignature_absent =>
    intro key
    rw [Tables.methodBySignature?, coherent.bySig, coherent.numbersOf_eq]
    exact Program.methodByKey?_eq_none_iff
  case succs_inside =>
    intro m row s st known member found
    have inside := Arena.BuiltWith.finished finished
    rw [same] at known found
    exact inside.succs_inside (m := m) (before.isMethod known) member (before.isStatement found)

theorem built_arena_consistent_relay :
    ∃ t : Tables, t.BuiltWith FlowGraph.avoidanceTree relaySteps ∧ t.Consistent ∧
      t.callersOf 1 = [1, 2] ∧ t.methodBySignature? "<app.Main: void take()>" = some 1 := by
  let finder := FlowGraph.avoidanceTree
  have finished : ((Builder.run relaySteps).buildWith finder).2 =
      .ok (Arena.ofProgram (Builder.run relaySteps).program) :=
    Arena.builtBy_ofProgram relaySteps (by decide +kernel)
  have answers := TableBuilder.buildWith_model finder relaySteps
  rw [finished] at answers
  cases result : ((TableBuilder.run finder relaySteps).buildWith finder).2 with
  | error causes =>
      rw [result] at answers
      cases answers
  | ok t =>
      rw [result] at answers
      have same : t.model = (Arena.ofProgram (Builder.run relaySteps).program).model :=
        Except.ok.inj answers
      refine ⟨t, result, built_arena_consistent result, ?_, ?_⟩
      · have callers := congrArg (Model.callersOf · 1) same
        exact callers.trans (by decide +kernel)
      · rw [Tables.BuiltWith.methodBySignature?_eq result]
        decide +kernel

end PermissionGuard
