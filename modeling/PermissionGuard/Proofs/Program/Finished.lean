import PermissionGuard.Proofs.Program.Representation
import PermissionGuard.Proofs.Search

/-!
What the tables of a finished program say about its methods and statements. An error stays recorded
whatever the later steps are, so the steps of a finished program were all taken.
-/

namespace PermissionGuard

theorem Hierarchy.isSubtype_refl (h : Hierarchy) (type : Text) : h.isSubtype type type = true :=
  (Visited.contains_iff _ _).mpr (mem_reach_of_root List.mem_cons_self)

/-- The statement numbers of a model are all the statements that it knows. -/
def Model.Enumerated (model : Model) : Prop :=
  ∀ s st, model.statement? s = some st → s ∈ model.statementIds

namespace Program

variable {p : Program}

theorem mem_methodIds {m : MethodId} :
    m ∈ p.methodIds ↔ ∃ method, p.method? m = some method := by
  simp only [methodIds, List.mem_map, List.mem_range, method?]
  constructor
  · rintro ⟨i, bound, rfl⟩
    exact ⟨p.methods[i], by
      rw [Int.ofNat_eq_natCast, entry?_natCast, Array.getElem?_eq_getElem bound]⟩
  · rintro ⟨method, known⟩
    obtain ⟨nonnegative, found⟩ := entry?_eq_some_iff.mp known
    exact ⟨m.toNat, (Array.getElem?_eq_some_iff.mp found).1, Int.toNat_of_nonneg nonnegative⟩

theorem methodIds_increasing (p : Program) : p.methodIds.Pairwise (· < ·) := by
  rw [methodIds, List.pairwise_map]
  exact List.pairwise_lt_range.imp fun less => Int.ofNat_lt.mpr less

theorem WellFormed.statements_increasing (wellFormed : p.WellFormed) :
    p.stmts.toList.Pairwise fun st st' => st.id < st'.id := by
  have numbered (i : Nat) (bound : i < p.stmts.size) : p.stmts[i].id = i := by
    apply wellFormed.statement_id
    rw [statement?, entry?_natCast, Array.getElem?_eq_getElem bound]
  rw [List.pairwise_iff_getElem]
  intro i j iBound jBound less
  simp only [Array.getElem_toList, Array.length_toList] at iBound jBound ⊢
  rw [numbered i iBound, numbered j jBound]
  exact Int.ofNat_lt.mpr less

theorem WellFormed.mem_stmts (wellFormed : p.WellFormed) {st : Statement} :
    st ∈ p.stmts.toList ↔ p.statement? st.id = some st := by
  rw [Array.mem_toList_iff, Array.mem_iff_getElem?]
  constructor
  · rintro ⟨i, found⟩
    have known : p.statement? i = some st := by rw [statement?, entry?_natCast, found]
    rw [wellFormed.statement_id known, known]
  · intro known
    exact ⟨_, (entry?_eq_some_iff.mp known).2⟩

theorem mem_methods {method : Method} :
    method ∈ p.methods.toList ↔ ∃ m, p.method? m = some method := by
  rw [Array.mem_toList_iff, Array.mem_iff_getElem?]
  constructor
  · rintro ⟨i, found⟩
    exact ⟨i, by rw [method?, entry?_natCast, found]⟩
  · rintro ⟨m, known⟩
    exact ⟨_, (entry?_eq_some_iff.mp known).2⟩

end Program

namespace Builder

variable {b : Builder}

/-! ### Errors stay recorded -/

theorem fail_errors (b : Builder) (error : BuildError) : (b.fail error).errors ≠ [] := by
  simp [fail]

theorem addEdge_errors {s : StmtId} {callee : MethodId}
    (faultless : (b.addEdge s callee).errors = []) : b.errors = [] := by
  unfold addEdge at faultless
  split at faultless
  · exact absurd faultless (fail_errors b _)
  · exact absurd faultless (fail_errors b _)
  · split at faultless
    · exact absurd faultless (fail_errors b _)
    · split at faultless <;> exact faultless

theorem addStatement_errors {m : MethodId} {spec : StatementSpec}
    (faultless : (b.addStatement m spec).1.errors = []) : b.errors = [] := by
  unfold addStatement at faultless
  split at faultless
  · exact absurd faultless (fail_errors b _)
  · split at faultless
    · exact absurd faultless (fail_errors b _)
    · exact faultless

theorem addTrap_errors {m : MethodId} {range : ExceptionRange}
    (faultless : (b.addTrap m range).errors = []) : b.errors = [] := by
  unfold addTrap at faultless
  split at faultless
  · exact absurd faultless (fail_errors b _)
  · split at faultless
    · exact absurd faultless (fail_errors b _)
    · exact faultless

theorem addEntryPoint_errors {m : MethodId}
    (faultless : (b.addEntryPoint m).errors = []) : b.errors = [] := by
  unfold addEntryPoint at faultless
  split at faultless
  · exact absurd faultless (fail_errors b _)
  · exact faultless

theorem build_errors (faultless : b.build.1.errors = []) : b.errors = [] := by
  simp only [build, buildWith] at faultless
  split at faultless <;> exact (List.append_eq_nil_iff.mp faultless).1

theorem apply_errors {step : BuildStep} (faultless : (b.apply step).errors = []) :
    b.errors = [] := by
  cases step with
  | method => exact faultless
  | statement => exact addStatement_errors faultless
  | edge => exact addEdge_errors faultless
  | trap => exact addTrap_errors faultless
  | subtype => exact faultless
  | entryPoint => exact addEntryPoint_errors faultless
  | permissions => exact faultless
  | build => exact build_errors faultless

theorem foldl_apply_errors {steps : List BuildStep}
    (faultless : (steps.foldl apply b).errors = []) : b.errors = [] := by
  induction steps generalizing b with
  | nil => exact faultless
  | cons step steps ih => exact apply_errors (ih faultless)

/-! ### The last build -/

theorem buildWith_eq_ok_iff {finder : DominatorFinder} {a : Arena} :
    (b.buildWith finder).2 = .ok a ↔ b.errors = [] ∧
      b.program.methods.toList.flatMap (strayedSuccessors b.program) = [] ∧
        a = Arena.ofProgramWith finder b.program := by
  simp only [buildWith]
  split
  · rename_i faultless
    obtain ⟨noErrors, noStrays⟩ := List.append_eq_nil_iff.mp (List.isEmpty_iff.mp faultless)
    simp only [noErrors, noStrays, true_and, Except.ok.injEq]
    exact eq_comm
  · rename_i faults
    constructor
    · intro built
      cases built
    · rintro ⟨noErrors, noStrays, _⟩
      exact absurd (by simp [noErrors, noStrays]) faults

theorem build_eq_ok_iff {a : Arena} : b.build.2 = .ok a ↔ b.errors = [] ∧
    b.program.methods.toList.flatMap (strayedSuccessors b.program) = [] ∧
      a = Arena.ofProgram b.program :=
  buildWith_eq_ok_iff

theorem strayedSuccessors_eq_nil_iff {p : Program} {method : Method} :
    strayedSuccessors p method = [] ↔ ∀ s ∈ method.body, ∀ st, p.statement? s = some st →
      ∀ succ ∈ st.succs.getD [], 0 ≤ succ ∧ succ < method.body.length := by
  simp only [strayedSuccessors, List.flatMap_eq_nil_iff, List.mem_filterMap,
    List.map_eq_nil_iff, List.filter_eq_nil_iff, forall_exists_index, and_imp, Bool.or_eq_true,
    decide_eq_true_eq, not_or, Int.not_lt, ge_iff_le, Int.not_le]
  constructor
  · exact fun valid s member st found => valid st s member found
  · exact fun valid st s member found => valid s member st found

end Builder

namespace Arena

variable {a : Arena} {steps : List BuildStep} {m : MethodId} {s c : StmtId} {method : Method}

theorem model_enumerated (a : Arena) : a.model.Enumerated := by
  intro s st known
  obtain ⟨nonnegative, found⟩ := Program.entry?_eq_some_iff.mp known
  have bound := (Array.getElem?_eq_some_iff.mp found).1
  exact List.mem_map.mpr ⟨s.toNat, List.mem_range.mpr bound, Int.toNat_of_nonneg nonnegative⟩

/-- The steps end in a successful build of the program, with a search for dominators. -/
def BuiltWith (finder : DominatorFinder) (a : Arena) (steps : List BuildStep) : Prop :=
  ((Builder.run steps).buildWith finder).2 = .ok a

/-- The steps end in a successful build of the program. -/
def BuiltBy (a : Arena) (steps : List BuildStep) : Prop := (Builder.run steps).build.2 = .ok a

theorem BuiltBy.builtWith (built : a.BuiltBy steps) : a.BuiltWith FlowGraph.avoidanceTree steps :=
  built

theorem BuiltBy.eq_ofProgram (built : a.BuiltBy steps) :
    a = Arena.ofProgram (Builder.run steps).program :=
  (Builder.build_eq_ok_iff.mp built).2.2

theorem BuiltBy.eq_self (built : a.BuiltBy steps) : a = Arena.ofProgram a.toProgram := by
  rw [built.eq_ofProgram]
  rfl

theorem builtBy_ofProgram (steps : List BuildStep)
    (faultless : (Builder.run steps).build.1.errors = []) :
    (Arena.ofProgram (Builder.run steps).program).BuiltBy steps := by
  simp only [BuiltBy, Builder.build, Builder.buildWith] at faultless ⊢
  split at faultless
  · rename_i noErrors
    rw [if_pos noErrors]
    rfl
  · rename_i errors
    exact absurd (List.isEmpty_iff.mpr faultless) errors

theorem BuiltWith.eq_self {finder : DominatorFinder} (built : a.BuiltWith finder steps) :
    a = Arena.ofProgramWith finder a.toProgram := by
  obtain ⟨_, _, rfl⟩ := Builder.buildWith_eq_ok_iff.mp built
  rfl

/-- The search for dominators makes no difference to whether a program can be finished. -/
theorem BuiltWith.finished {finder : DominatorFinder} (built : a.BuiltWith finder steps) :
    (Arena.ofProgram a.toProgram).BuiltBy steps := by
  obtain ⟨noErrors, noStrays, rfl⟩ := Builder.buildWith_eq_ok_iff.mp built
  exact Builder.build_eq_ok_iff.mpr ⟨noErrors, noStrays, rfl⟩

theorem BuiltBy.wellFormed (built : a.BuiltBy steps) : a.toProgram.WellFormed := by
  rw [built.eq_ofProgram]
  exact Builder.run_wellFormed steps

theorem BuiltBy.callersOf_eq (built : a.BuiltBy steps) (known : a.method? m = some method) :
    a.callersOf m = (a.stmts.toList.filter fun st => st.callees.contains m).map Statement.id := by
  obtain rfl := built.eq_ofProgram
  obtain ⟨nonnegative, found⟩ := Program.entry?_eq_some_iff.mp known
  have bound := (Array.getElem?_eq_some_iff.mp found).1
  simp only [callersOf, ofProgram, ofProgramWith, Program.callerTable, Program.methodIds,
    Program.entry?, Int.not_lt.mpr nonnegative, if_false] at bound ⊢
  simp [bound, Int.toNat_of_nonneg nonnegative]

/-- The callers of a method are the statements with a call edge to it. -/
theorem BuiltBy.mem_callersOf (built : a.BuiltBy steps) (known : a.method? m = some method) :
    c ∈ a.callersOf m ↔ m ∈ a.callees c := by
  rw [built.callersOf_eq known]
  simp only [List.mem_map, List.mem_filter, List.contains_iff_mem, Program.callees]
  constructor
  · rintro ⟨st, ⟨member, calls⟩, rfl⟩
    rw [built.wellFormed.mem_stmts.mp member]
    exact calls
  · intro calls
    cases found : a.statement? c with
    | none => simp [found] at calls
    | some st =>
        have number := built.wellFormed.statement_id found
        refine ⟨st, ⟨built.wellFormed.mem_stmts.mpr (number ▸ found), ?_⟩, number⟩
        simpa [found] using calls

theorem BuiltBy.callersOf_unknown (built : a.BuiltBy steps) (unknown : a.method? m = none) :
    a.callersOf m = [] := by
  obtain rfl := built.eq_ofProgram
  simp only [callersOf, ofProgram, ofProgramWith, Program.callerTable, Program.methodIds,
    Program.method?, Program.entry?] at unknown ⊢
  split
  · rfl
  · rename_i nonnegative
    simp only [nonnegative, if_false, Array.getElem?_eq_none_iff] at unknown
    simp [unknown]

theorem BuiltBy.callersOf_increasing (built : a.BuiltBy steps) (m : MethodId) :
    (a.callersOf m).Pairwise (· < ·) := by
  cases known : a.method? m with
  | some method =>
      rw [built.callersOf_eq known, List.pairwise_map]
      exact built.wellFormed.statements_increasing.filter _
  | none => simp [built.callersOf_unknown known]

theorem BuiltBy.callersOf_nodup (built : a.BuiltBy steps) (m : MethodId) :
    (a.callersOf m).Nodup :=
  (built.callersOf_increasing m).imp fun less => Int.ne_of_lt less

theorem BuiltBy.reachable_increasing (built : a.BuiltBy steps) :
    a.reachableMethods.Pairwise (· < ·) := by
  obtain rfl := built.eq_ofProgram
  change ((Builder.run steps).program.reachable).Pairwise (· < ·)
  unfold Program.reachable
  split
  · exact Program.methodIds_increasing _
  · exact (Program.methodIds_increasing _).filter _

theorem BuiltBy.entryPoint_reachable (built : a.BuiltBy steps) (entered : m ∈ a.entryPoints) :
    m ∈ a.reachableMethods := by
  obtain rfl := built.eq_ofProgram
  have known := built.wellFormed.entryPoint_known entered
  change m ∈ (Builder.run steps).program.reachable
  unfold Program.reachable
  split
  · exact Program.mem_methodIds.mpr known
  · exact List.mem_filter.mpr ⟨Program.mem_methodIds.mpr known,
      (Visited.contains_iff _ _).mpr (mem_reach_of_root entered)⟩

theorem mem_callSites (a : Arena) :
    s ∈ a.callSites m ↔ ∃ method, a.method? m = some method ∧ s ∈ method.body ∧
      a.isInvoke s = true := by
  cases known : a.method? m with
  | none => simp [callSites, known]
  | some method => simp [callSites, known, Program.callSitesIn]

theorem BuiltBy.callSites_nodup (built : a.BuiltBy steps) (m : MethodId) :
    (a.callSites m).Nodup := by
  cases known : a.method? m with
  | none => simp [callSites, known]
  | some method =>
      simp only [callSites, known, Program.callSitesIn]
      exact ((built.wellFormed.body_increasing known).filter _).imp fun less => Int.ne_of_lt less

/-- A statement of a body lies in the method of the body, at its position. -/
theorem BuiltBy.body_statement (built : a.BuiltBy steps) (known : a.method? m = some method)
    (member : s ∈ method.body) :
    ∃ st, a.statement? s = some st ∧ st.method = m ∧ method.body[st.index]? = some s := by
  obtain ⟨i, position⟩ := List.getElem?_of_mem member
  obtain ⟨st, found, inMethod, atIndex⟩ := built.wellFormed.body_statement known position
  exact ⟨st, found, inMethod, atIndex ▸ position⟩

theorem BuiltBy.enclosing_eq (built : a.BuiltBy steps) (known : a.method? m = some method)
    (member : s ∈ method.body) : a.enclosing s = m := by
  obtain ⟨st, found, inMethod, _⟩ := built.body_statement known member
  simp [enclosing, found, inMethod]

theorem BuiltBy.enclosing_callSite (built : a.BuiltBy steps) (site : s ∈ a.callSites m) :
    a.enclosing s = m := by
  obtain ⟨method, known, inBody, _⟩ := a.mem_callSites.mp site
  exact built.enclosing_eq known inBody

/-- A handler catches the type that it names. -/
theorem caughtAt_of_trap (a : Arena) {st : Statement} {trap : ExceptionRange}
    (known : a.statement? s = some st) (inMethod : st.method = m) (member : trap ∈ a.traps m)
    (covers : trap.covers st.index = true) : a.caughtAt trap.caught s m = true := by
  simp only [caughtAt, known, inMethod, beq_self_eq_true, Bool.true_and, List.any_eq_true, Bool.and_eq_true]
  exact ⟨trap, member, covers, a.hierarchy.isSubtype_refl trap.caught⟩

end Arena

end PermissionGuard
