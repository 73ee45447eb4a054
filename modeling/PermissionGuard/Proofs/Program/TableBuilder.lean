import PermissionGuard.Program.TableBuilder
import PermissionGuard.Proofs.Program.Consistency

/-!
The tables say what the program says. After every sequence of steps the rows make up the program of
the same steps, and each column holds what its relation is in that program (`run_view`,
`run_coherent`).
-/

namespace PermissionGuard

open Program (entry?_eq_some_iff entry?_push entry?_modify entry?_map entry?_lt entry?)

/-! ### Rows with a column beside them -/

section

variable {α β γ : Type} {join : α → β → γ} {rows : Array α} {column : Array β}

theorem entry?_zipWith (join : α → β → γ) (rows : Array α) (column : Array β) (id : Int) :
    entry? (rows.zipWith join column) id =
      ( entry? rows id).bind fun row => ( entry? column id).map (join row) := by
  unfold Program.entry?
  split
  · rfl
  · rw [Array.getElem?_zipWith]
    cases rows[id.toNat]? <;> cases column[id.toNat]? <;> rfl

theorem zipWith_push (aligned : column.size = rows.size) (row : α) (cell : β) :
    (rows.push row).zipWith join (column.push cell) =
      (rows.zipWith join column).push (join row cell) := by
  refine Array.ext_getElem? fun i => ?_
  simp only [Array.getElem?_zipWith, Array.getElem?_push, Array.size_zipWith, aligned,
    Nat.min_self]
  by_cases new : i = rows.size
  · simp only [new, if_true]
  · simp only [new, if_false]

theorem zipWith_modify_rows (i : Nat) {change : α → α} {change' : γ → γ}
    (commutes : ∀ row cell, join (change row) cell = change' (join row cell)) :
    (rows.modify i change).zipWith join column = (rows.zipWith join column).modify i change' := by
  refine Array.ext_getElem? fun j => ?_
  simp only [Array.getElem?_zipWith, Array.getElem?_modify]
  by_cases here : i = j
  · cases rows[j]? <;> cases column[j]? <;> simp [here, commutes]
  · simp [here]

theorem zipWith_modify_column (i : Nat) {change : β → β} {change' : γ → γ}
    (commutes : ∀ row cell, join row (change cell) = change' (join row cell)) :
    rows.zipWith join (column.modify i change) = (rows.zipWith join column).modify i change' := by
  refine Array.ext_getElem? fun j => ?_
  simp only [Array.getElem?_zipWith, Array.getElem?_modify]
  by_cases here : i = j
  · cases rows[j]? <;> cases column[j]? <;> simp [here, commutes]
  · simp [here]

theorem flatMap_zipWith {δ : Type} {read : γ → List δ} {read' : α → List δ}
    (agree : ∀ row cell, read (join row cell) = read' row) (rows : List α) (column : List β)
    (aligned : column.length = rows.length) :
    (List.zipWith join rows column).flatMap read = rows.flatMap read' := by
  induction rows generalizing column with
  | nil => simp
  | cons row rows ih =>
      cases column with
      | nil => simp at aligned
      | cons cell column =>
          rw [List.zipWith_cons_cons, List.flatMap_cons, List.flatMap_cons, agree,
            ih column (by simpa using aligned)]

/-- Two arrays of one size have entries under the same numbers. -/
theorem exists_entry? (aligned : column.size = rows.size) {id : Int} {row : α}
    (known : entry? rows id = some row) : ∃ cell, entry? column id = some cell := by
  obtain ⟨nonnegative, found⟩ := entry?_eq_some_iff.mp known
  have bound := (Array.getElem?_eq_some_iff.mp found).1
  rw [← aligned] at bound
  exact ⟨_, entry?_eq_some_iff.mpr ⟨nonnegative, Array.getElem?_eq_getElem bound⟩⟩

end

namespace Tables

variable {t : Tables}

theorem program_method? (aligned : t.traps.size = t.methods.size) (m : MethodId) :
    t.program.method? m = (t.method? m).map (·.withTraps (t.trapsOf m)) := by
  rw [Program.method?, program, entry?_zipWith, method?]
  cases known : entry? t.methods m with
  | none => rfl
  | some row =>
      obtain ⟨traps, found⟩ := exists_entry? aligned known
      simp [trapsOf, ofMethod, method?, known, found]

theorem program_statement? (aligned : t.callees.size = t.stmts.size) (s : StmtId) :
    t.program.statement? s = (t.statement? s).map (·.withCallees (t.calleesOf s)) := by
  rw [Program.statement?, program, entry?_zipWith, statement?]
  cases known : entry? t.stmts s with
  | none => rfl
  | some row =>
      obtain ⟨callees, found⟩ := exists_entry? aligned known
      simp [calleesOf, ofStatement, statement?, known, found]

theorem program_callees (aligned : t.callees.size = t.stmts.size) (s : StmtId) :
    t.program.callees s = t.calleesOf s := by
  rw [Program.callees, program_statement? aligned]
  cases known : t.statement? s with
  | none => simp [calleesOf, ofStatement, known]
  | some row => rfl

theorem program_isInvoke (aligned : t.callees.size = t.stmts.size) (s : StmtId) :
    t.program.isInvoke s = t.isInvoke s := by
  rw [Program.isInvoke, program_statement? aligned, isInvoke, Option.any_map]
  rfl

theorem program_methods_size (aligned : t.traps.size = t.methods.size) :
    t.program.methods.size = t.methods.size := by
  simp [program, aligned]

theorem program_stmts_size (aligned : t.callees.size = t.stmts.size) :
    t.program.stmts.size = t.stmts.size := by
  simp [program, aligned]

/-! ### Columns in line with the rows -/

/-- Every column holds for every number what its relation is in the program of the rows, and so does
the set of call edges. -/
structure Coherent (t : Tables) (edges : Std.HashMap StmtId (Std.HashSet MethodId)) : Prop where
  traps_size : t.traps.size = t.methods.size
  callees_size : t.callees.size = t.stmts.size
  callSites_size : t.callSites.size = t.methods.size
  callers_size : t.callers.size = t.methods.size
  callSites : ∀ {m method}, t.program.method? m = some method →
    entry? t.callSites m = some (t.program.callSitesIn method)
  callers_nodup : ∀ {m callers}, entry? t.callers m = some callers → callers.Nodup
  mem_callers : ∀ {m callers c}, entry? t.callers m = some callers →
    (c ∈ callers ↔ m ∈ t.program.callees c)
  bySig : ∀ key, t.bySig[key]? = t.program.methodByKey? key
  edges : ∀ {c m}, m ∈ edges.getD c ∅ ↔ m ∈ t.program.callees c

theorem empty_coherent : empty.Coherent ∅ where
  traps_size := rfl
  callees_size := rfl
  callSites_size := rfl
  callers_size := rfl
  callSites := by simp [empty, program, Program.method?, Program.entry?]
  callers_nodup := by simp [empty, Program.entry?]
  mem_callers := by simp [empty, Program.entry?]
  bySig := by simp [empty, program, Program.methodByKey?]
  edges := by simp [empty, program, Program.callees, Program.statement?, Program.entry?]

/-! ### What a step does to the program of the rows -/

theorem pushMethod_program (aligned : t.traps.size = t.methods.size) (sig : Signature)
    (concrete library : Bool) :
    (t.pushMethod sig concrete library).program = t.program.pushMethod sig concrete library := by
  simp only [program, pushMethod, Program.pushMethod, zipWith_push aligned, Array.size_zipWith,
    aligned, Nat.min_self]
  rfl

theorem pushStatement_program (aligned : t.callees.size = t.stmts.size) (m : MethodId)
    (row : MethodRow) (traps : List ExceptionRange) (spec : StatementSpec) :
    (t.pushStatement m row spec).program =
      t.program.pushStatement m (row.withTraps traps) spec := by
  simp only [program, pushStatement, Program.pushStatement, zipWith_push aligned,
    Array.size_zipWith, aligned, Nat.min_self, Program.mk.injEq, and_true]
  refine ⟨zipWith_modify_rows m.toNat ?_, rfl⟩
  exact fun _ _ => rfl

theorem pushEdge_program (t : Tables) (s : StmtId) (callee : MethodId) :
    (t.pushEdge s callee).program = t.program.pushCallee s callee := by
  simp only [program, pushEdge, Program.pushCallee, Program.mk.injEq, true_and, and_true]
  refine zipWith_modify_column s.toNat ?_
  exact fun _ _ => rfl

theorem pushTrap_program (t : Tables) (m : MethodId) (range : ExceptionRange) :
    (t.pushTrap m range).program = t.program.pushRange m range := by
  simp only [program, pushTrap, Program.pushRange, Program.mk.injEq, and_true]
  refine zipWith_modify_column m.toNat ?_
  exact fun _ _ => rfl

end Tables

/-! ### What a step does to the relations of a program -/

namespace Program

variable {p : Program} {m : MethodId} {method : Method} {s : StmtId}

theorem entry?_size {α : Type} (entries : Array α) : entry? entries entries.size = none := by
  rw [entry?_natCast]
  exact Array.getElem?_eq_none (Nat.le_refl _)

theorem pushStatement_callees (p : Program) (m : MethodId) (method : Method) (spec : StatementSpec)
    (s : StmtId) : (p.pushStatement m method spec).callees s = p.callees s := by
  rw [callees, callees, pushStatement_statement?]
  split
  · rename_i last
    rw [last, statement?, entry?_size]
    rfl
  · rfl

theorem pushStatement_isInvoke (p : Program) (m : MethodId) (method : Method)
    (spec : StatementSpec) (s : StmtId) : (p.pushStatement m method spec).isInvoke s =
      if s = p.stmts.size then spec.target.isSome else p.isInvoke s := by
  rw [isInvoke, isInvoke, pushStatement_statement?]
  split <;> rfl

/-- A new statement is no part of the bodies that were there before. -/
theorem WellFormed.callSitesIn_pushStatement (wellFormed : p.WellFormed) {old : Method}
    (known : p.method? m = some old) (m' : MethodId) (method : Method) (spec : StatementSpec) :
    old.body.filter (p.pushStatement m' method spec).isInvoke = p.callSitesIn old := by
  refine List.filter_congr fun s member => ?_
  rw [pushStatement_isInvoke, if_neg (Int.ne_of_lt (wellFormed.body_below known member))]

theorem pushCallee_callees {st : Statement} (caller : p.statement? s = some st) (callee : MethodId)
    (s' : StmtId) : (p.pushCallee s callee).callees s' =
      if s' = s then p.callees s ++ [callee] else p.callees s' := by
  rw [callees, pushCallee_statement? caller, callees, callees]
  split
  · rw [caller]
    rfl
  · rfl

theorem pushCallee_isInvoke {st : Statement} (caller : p.statement? s = some st)
    (callee : MethodId) : (p.pushCallee s callee).isInvoke = p.isInvoke := by
  funext s'
  rw [isInvoke, isInvoke, pushCallee_statement? caller]
  split
  · rename_i same
    rw [same, caller]
    rfl
  · rfl

theorem methodByKey?_pushMethod (p : Program) (sig : Signature) (concrete library : Bool)
    (key : Text) : (p.pushMethod sig concrete library).methodByKey? key =
      (p.methodByKey? key).or
        (if sig.key = key then some (p.methods.size : MethodId) else none) := by
  rw [methodByKey?, pushMethod, Array.findIdx?_push, methodByKey?]
  cases p.methods.findIdx? (·.sig.key == key) with
  | some first => rfl
  | none => by_cases same : sig.key = key <;> simp [same]

/-- A change that keeps the signature keeps the first method of every key. -/
theorem methodByKey?_modify (p : Program) (i : Nat) (key : Text) {change : Method → Method}
    (kept : ∀ method, (change method).sig = method.sig) :
    Program.methodByKey? { p with methods := p.methods.modify i change } key =
      p.methodByKey? key := by
  have keys : (p.methods.modify i change).map (·.sig.key) = p.methods.map (·.sig.key) := by
    refine Array.ext_getElem? fun j => ?_
    rw [Array.getElem?_map, Array.getElem?_map, Array.getElem?_modify]
    split
    · cases p.methods[j]? <;> simp [kept]
    · rfl
  have first := congrArg (Array.findIdx? (· == key)) keys
  rw [Array.findIdx?_map, Array.findIdx?_map] at first
  exact congrArg (Option.map Int.ofNat) first

end Program

/-! ### What a step does to the columns -/

namespace Tables.Coherent

variable {t : Tables} {edges : Std.HashMap StmtId (Std.HashSet MethodId)}

theorem isStatement (coherent : t.Coherent edges) {s : StmtId} {st : StatementRow}
    (known : t.statement? s = some st) :
    t.program.statement? s = some (st.withCallees (t.calleesOf s)) := by
  rw [program_statement? coherent.callees_size, known]
  rfl

theorem isMethod (coherent : t.Coherent edges) {m : MethodId} {row : MethodRow}
    (known : t.method? m = some row) :
    t.program.method? m = some (row.withTraps (t.trapsOf m)) := by
  rw [program_method? coherent.traps_size, known]
  rfl

theorem pushMethod (coherent : t.Coherent edges) (wellFormed : t.program.WellFormed)
    (sig : Signature) (concrete library : Bool) :
    (t.pushMethod sig concrete library).Coherent edges := by
  have made := pushMethod_program coherent.traps_size sig concrete library
  have size := program_methods_size coherent.traps_size
  constructor
  case traps_size => simp [Tables.pushMethod, coherent.traps_size]
  case callees_size => exact coherent.callees_size
  case callSites_size => simp [Tables.pushMethod, coherent.callSites_size]
  case callers_size => simp [Tables.pushMethod, coherent.callers_size]
  case callSites =>
    intro m method known
    rw [made, Program.pushMethod_method?, size] at known
    rw [made, Tables.pushMethod, entry?_push, coherent.callSites_size]
    split at known
    · rename_i new
      cases known
      rw [if_pos new]
      rfl
    · rename_i old
      rw [if_neg old]
      exact coherent.callSites known
  case callers_nodup =>
    intro m callers found
    rw [Tables.pushMethod, entry?_push] at found
    split at found
    · cases found
      exact .nil
    · exact coherent.callers_nodup found
  case mem_callers =>
    intro m callers c found
    rw [made]
    rw [Tables.pushMethod, entry?_push, coherent.callers_size, ← size] at found
    split at found
    · rename_i new
      cases found
      -- A call edge leads to a method that is known, and that has a smaller number.
      refine ⟨fun member => absurd member List.not_mem_nil, fun called => ?_⟩
      obtain ⟨method, known, _⟩ := wellFormed.callees_known called
      exact absurd new (Int.ne_of_lt (entry?_lt known))
    · exact coherent.mem_callers found
  case bySig =>
    intro key
    rw [made, Program.methodByKey?_pushMethod, Tables.pushMethod, Std.HashMap.getElem?_insertIfNew,
      ← coherent.bySig, size]
    by_cases same : sig.key = key
    · subst same
      simp only [Std.HashMap.mem_iff_isSome_getElem?]
      cases t.bySig[sig.key]? <;> simp
    · simp [same]
  case edges =>
    rw [made]
    exact coherent.edges

theorem pushStatement (coherent : t.Coherent edges) (wellFormed : t.program.WellFormed)
    {m : MethodId} {row : MethodRow} (known : t.method? m = some row) (spec : StatementSpec) :
    (t.pushStatement m row spec).Coherent edges := by
  have made := pushStatement_program coherent.callees_size m row (t.trapsOf m) spec
  have size := program_stmts_size coherent.callees_size
  have isMethod := coherent.isMethod known
  have kept := coherent.callSites isMethod
  constructor
  case traps_size => simp [Tables.pushStatement, coherent.traps_size]
  case callees_size => simp [Tables.pushStatement, coherent.callees_size]
  case callSites_size =>
    rw [Tables.pushStatement]
    split <;> simp [coherent.callSites_size]
  case callers_size => simp [Tables.pushStatement, coherent.callers_size]
  case callSites =>
    intro m' method found
    rw [made] at found ⊢
    rw [Program.callSitesIn]
    have others (other : m' ≠ m) : entry? (t.pushStatement m row spec).callSites m' =
        entry? t.callSites m' := by
      rw [Tables.pushStatement]
      split
      · rw [entry?_modify kept, if_neg other]
      · rfl
    rw [Program.pushStatement_method? isMethod] at found
    split at found
    · rename_i same
      subst m'
      cases found
      have last := Program.pushStatement_isInvoke t.program m (row.withTraps (t.trapsOf m)) spec
        t.stmts.size
      rw [size, if_pos rfl] at last
      rw [size, List.filter_append, wellFormed.callSitesIn_pushStatement isMethod, List.filter_cons,
        last, List.filter_nil]
      rw [Tables.pushStatement]
      split
      · rw [entry?_modify kept, if_pos rfl]
      · rw [kept, List.append_nil]
    · rename_i other
      rw [others other, coherent.callSites found]
      exact congrArg some (wellFormed.callSitesIn_pushStatement found m _ spec).symm
  case callers_nodup => exact coherent.callers_nodup
  case mem_callers =>
    intro m' callers c found
    rw [made, Program.pushStatement_callees]
    exact coherent.mem_callers found
  case bySig =>
    intro key
    rw [made]
    refine (coherent.bySig key).trans ?_
    refine (t.program.methodByKey?_modify m.toNat key ?_).symm
    exact fun _ => rfl
  case edges =>
    intro c m'
    rw [made, Program.pushStatement_callees]
    exact coherent.edges

theorem pushEdge (coherent : t.Coherent edges) {s : StmtId} {st : Statement} {callee : MethodId}
    {row : MethodRow} (caller : t.program.statement? s = some st)
    (known : t.method? callee = some row) (new : callee ∉ t.program.callees s) :
    (t.pushEdge s callee).Coherent
      (edges.insert s ((edges.getD s ∅).insert callee)) := by
  have made := t.pushEdge_program s callee
  obtain ⟨callers, before⟩ := exists_entry? coherent.callers_size known
  have calling := coherent.mem_callers (c := s) before
  have after (m : MethodId) : entry? (t.pushEdge s callee).callers m =
      if m = callee then some (callers ++ [s]) else entry? t.callers m :=
    entry?_modify before _ m
  constructor
  case traps_size => exact coherent.traps_size
  case callees_size => simp [Tables.pushEdge, coherent.callees_size]
  case callSites_size => exact coherent.callSites_size
  case callers_size => simp [Tables.pushEdge, coherent.callers_size]
  case callSites =>
    intro m method found
    rw [made, Program.callSitesIn, Program.pushCallee_isInvoke caller]
    exact coherent.callSites found
  case callers_nodup =>
    intro m list found
    rw [after] at found
    split at found
    · cases found
      refine List.nodup_append.mpr ⟨coherent.callers_nodup before, by simp, ?_⟩
      intro c member _ last
      cases List.mem_singleton.mp last
      exact fun same => new (calling.mp (same ▸ member))
    · exact coherent.callers_nodup found
  case mem_callers =>
    intro m list c found
    rw [made, Program.pushCallee_callees caller]
    rw [after] at found
    split at found
    · rename_i same
      subst m
      cases found
      rw [List.mem_append, List.mem_singleton, coherent.mem_callers before]
      split
      · rename_i same
        subst c
        simp
      · rename_i other
        simp [other]
    · rename_i other
      rw [coherent.mem_callers found]
      split
      · rename_i same
        subst c
        simp [other]
      · rfl
  case bySig =>
    intro key
    rw [made]
    exact coherent.bySig key
  case edges =>
    intro c m
    rw [made, Program.pushCallee_callees caller, Std.HashMap.getD_insert]
    by_cases same : c = s
    · subst c
      rw [beq_self_eq_true, if_pos rfl, if_pos rfl, Std.HashSet.mem_insert, coherent.edges,
        beq_iff_eq, List.mem_append, List.mem_singleton]
      exact or_comm.trans (or_congr Iff.rfl eq_comm)
    · simp [same, Ne.symm same, coherent.edges]

theorem pushTrap (coherent : t.Coherent edges) {m : MethodId} {row : MethodRow}
    (known : t.method? m = some row) (range : ExceptionRange) :
    (t.pushTrap m range).Coherent edges := by
  have made := t.pushTrap_program m range
  have isMethod := coherent.isMethod known
  have kept := coherent.callSites isMethod
  constructor
  case traps_size => simp [Tables.pushTrap, coherent.traps_size]
  case callees_size => exact coherent.callees_size
  case callSites_size => exact coherent.callSites_size
  case callers_size => exact coherent.callers_size
  case callSites =>
    intro m' method found
    rw [made] at found ⊢
    rw [Program.pushRange_method? isMethod] at found
    split at found
    · rename_i same
      subst m'
      cases found
      exact kept
    · exact coherent.callSites found
  case callers_nodup => exact coherent.callers_nodup
  case mem_callers =>
    rw [made]
    exact coherent.mem_callers
  case bySig =>
    intro key
    rw [made]
    refine (coherent.bySig key).trans (t.program.methodByKey?_modify m.toNat key ?_).symm
    exact fun _ => rfl
  case edges =>
    rw [made]
    exact coherent.edges

/-- Sorting the callers moves none of them, and no relation reads what else is filled in. -/
theorem finish (coherent : t.Coherent edges) (finder : DominatorFinder) :
    (TableBuilder.finish finder t).Coherent edges := by
  have sorted {m : MethodId} {callers : List StmtId}
      (found : entry? (TableBuilder.finish finder t).callers m = some callers) :
      ∃ before, entry? t.callers m = some before ∧ callers.Perm before := by
    rw [TableBuilder.finish, entry?_map] at found
    obtain ⟨before, original, rfl⟩ := Option.map_eq_some_iff.mp found
    exact ⟨before, original, List.mergeSort_perm _ _⟩
  constructor
  case traps_size => exact coherent.traps_size
  case callees_size => exact coherent.callees_size
  case callSites_size => exact coherent.callSites_size
  case callers_size => simp [TableBuilder.finish, coherent.callers_size]
  case callSites => exact coherent.callSites
  case callers_nodup =>
    intro m callers found
    obtain ⟨before, original, same⟩ := sorted found
    exact same.nodup_iff.mpr (coherent.callers_nodup original)
  case mem_callers =>
    intro m callers c found
    obtain ⟨before, original, same⟩ := sorted found
    exact same.mem_iff.trans (coherent.mem_callers original)
  case bySig => exact coherent.bySig
  case edges => exact coherent.edges

end Tables.Coherent

/-! ### Steps -/

/-- What the tables and the errors are in a builder without columns. -/
def TableBuilder.view (b : TableBuilder) : Builder := ⟨b.tables.program, b.errors⟩

namespace Tables.Coherent

open TableBuilder

variable {b : TableBuilder}

theorem addMethod_view (coherent : b.tables.Coherent b.edges) (sig : Signature)
    (concrete library : Bool) : (b.addMethod sig concrete library).map view id =
      b.view.addMethod sig concrete library := by
  have pushed := Tables.pushMethod_program coherent.traps_size sig concrete library
  have size := Tables.program_methods_size coherent.traps_size
  refine Prod.ext (congrArg (Builder.mk · b.errors) pushed) ?_
  exact congrArg Int.ofNat size.symm

theorem addStatement_view (coherent : b.tables.Coherent b.edges) (m : MethodId)
    (spec : StatementSpec) : (b.addStatement m spec).map view id = b.view.addStatement m spec := by
  have size := Tables.program_stmts_size coherent.callees_size
  have there : b.view.program.method? m = _ := Tables.program_method? coherent.traps_size m
  rw [addStatement, Builder.addStatement, there]
  cases b.tables.method? m with
  | none => rfl
  | some row =>
      have pushed := Tables.pushStatement_program coherent.callees_size m row
        (b.tables.trapsOf m) spec
      simp only [Option.map_some, MethodRow.withTraps]
      split
      · rfl
      · refine Prod.ext (congrArg (Builder.mk · b.errors) pushed) ?_
        exact congrArg (some ∘ Int.ofNat) size.symm

theorem addEdge_view (coherent : b.tables.Coherent b.edges) (s : StmtId) (callee : MethodId) :
    (b.addEdge s callee).view = b.view.addEdge s callee := by
  have found : b.view.program.statement? s = _ := Tables.program_statement? coherent.callees_size s
  have there (m : MethodId) : b.view.program.method? m = _ :=
    Tables.program_method? coherent.traps_size m
  have repeated : (b.edges.getD s ∅).contains callee = (b.tables.calleesOf s).contains callee := by
    rw [Bool.eq_iff_iff, List.contains_iff_mem, Std.HashSet.contains_iff_mem, coherent.edges,
      Tables.program_callees coherent.callees_size]
  rw [addEdge, Builder.addEdge, found, there]
  cases b.tables.statement? s with
  | none => rfl
  | some st =>
      cases b.tables.method? callee with
      | none => rfl
      | some row =>
          have pushed := b.tables.pushEdge_program s callee
          simp only [Option.map_some, MethodRow.withTraps, StatementRow.withCallees, repeated,
            there, Option.map_map]
          split
          · rfl
          · split
            · rfl
            · exact congrArg (Builder.mk · b.errors) pushed

theorem addTrap_view (coherent : b.tables.Coherent b.edges) (m : MethodId)
    (range : ExceptionRange) : (b.addTrap m range).view = b.view.addTrap m range := by
  have there : b.view.program.method? m = _ := Tables.program_method? coherent.traps_size m
  rw [addTrap, Builder.addTrap, there]
  cases b.tables.method? m with
  | none => rfl
  | some row =>
      have pushed := b.tables.pushTrap_program m range
      simp only [Option.map_some, MethodRow.withTraps]
      split
      · rfl
      · exact congrArg (Builder.mk · b.errors) pushed

theorem addEntryPoint_view (coherent : b.tables.Coherent b.edges) (m : MethodId) :
    (b.addEntryPoint m).view = b.view.addEntryPoint m := by
  have there : b.view.program.method? m = _ := Tables.program_method? coherent.traps_size m
  rw [addEntryPoint, Builder.addEntryPoint, there]
  cases b.tables.method? m <;> rfl

theorem strayedSuccessors_eq (coherent : b.tables.Coherent b.edges) (row : MethodRow)
    (traps : List ExceptionRange) :
    Builder.strayedSuccessors b.tables.program (row.withTraps traps) =
      strayedSuccessors b.tables row := by
  have read (body : List StmtId) (fault : Nat → List Int → List BuildError) :
      (body.filterMap b.tables.program.statement?).flatMap
          (fun st => fault st.index (st.succs.getD [])) =
        (body.filterMap b.tables.statement?).flatMap
          (fun st => fault st.index (st.succs.getD [])) := by
    induction body with
    | nil => rfl
    | cons s body ih =>
        rw [List.filterMap_cons, List.filterMap_cons,
          Tables.program_statement? coherent.callees_size]
        cases b.tables.statement? s with
        | none => exact ih
        | some st =>
            simp only [Option.map_some, List.flatMap_cons, ih]
            rfl
  exact read row.body fun index succs =>
    (succs.filter fun (succ : Int) => succ < 0 || succ ≥ row.body.length).map
      (BuildError.successorOutOfBody index row.sig ·)

theorem strayed_eq (coherent : b.tables.Coherent b.edges) :
    b.tables.methods.toList.flatMap (strayedSuccessors b.tables) =
      b.tables.program.methods.toList.flatMap (Builder.strayedSuccessors b.tables.program) := by
  rw [Tables.program, Array.toList_zipWith]
  refine (flatMap_zipWith coherent.strayedSuccessors_eq _ _ ?_).symm
  rw [Array.length_toList, Array.length_toList, coherent.traps_size]

theorem buildWith_view (coherent : b.tables.Coherent b.edges) (finder : DominatorFinder) :
    (b.buildWith finder).1.view = b.view.build.1 := by
  simp only [buildWith, Builder.build, Builder.buildWith, coherent.strayed_eq]
  split <;> split <;> rfl

end Tables.Coherent

namespace TableBuilder

variable {b : TableBuilder} {finder : DominatorFinder}

def apply (finder : DominatorFinder) (b : TableBuilder) : BuildStep → TableBuilder
  | .method sig concrete library => (b.addMethod sig concrete library).1
  | .statement m spec => (b.addStatement m spec).1
  | .edge s callee => b.addEdge s callee
  | .trap m range => b.addTrap m range
  | .subtype child parent => b.addSubtype child parent
  | .entryPoint m => b.addEntryPoint m
  | .permissions permissions => b.setPermissions permissions
  | .build => (b.buildWith finder).1

def run (finder : DominatorFinder) (steps : List BuildStep) : TableBuilder :=
  steps.foldl (apply finder) empty

/-- A step on tables is the same step on their program. -/
theorem apply_view (coherent : b.tables.Coherent b.edges) (finder : DominatorFinder)
    (step : BuildStep) : (b.apply finder step).view = b.view.apply step := by
  cases step with
  | method sig concrete library =>
      exact congrArg Prod.fst (coherent.addMethod_view sig concrete library)
  | statement m spec => exact congrArg Prod.fst (coherent.addStatement_view m spec)
  | edge s callee => exact coherent.addEdge_view s callee
  | trap m range => exact coherent.addTrap_view m range
  | subtype child parent => rfl
  | entryPoint m => exact coherent.addEntryPoint_view m
  | permissions permissions => rfl
  | build => exact coherent.buildWith_view finder

/-- A step keeps every column in line with the rows. -/
theorem apply_coherent (coherent : b.tables.Coherent b.edges)
    (wellFormed : b.tables.program.WellFormed) (finder : DominatorFinder) (step : BuildStep) :
    (b.apply finder step).tables.Coherent (b.apply finder step).edges := by
  cases step with
  | method sig concrete library => exact coherent.pushMethod wellFormed sig concrete library
  | statement m spec =>
      simp only [apply, addStatement]
      split
      · exact coherent
      · rename_i row known
        split
        · exact coherent
        · exact coherent.pushStatement wellFormed known spec
  | edge s callee =>
      simp only [apply, addEdge]
      split
      · exact coherent
      · exact coherent
      · rename_i st row caller known
        split
        · exact coherent
        · split
          · exact coherent
          · rename_i new
            rw [Std.HashSet.contains_iff_mem, coherent.edges] at new
            exact coherent.pushEdge (coherent.isStatement caller) known new
  | trap m range =>
      simp only [apply, addTrap]
      split
      · exact coherent
      · rename_i row known
        split
        · exact coherent
        · exact coherent.pushTrap known range
  | subtype child parent => exact { coherent with }
  | entryPoint m =>
      simp only [apply, addEntryPoint]
      split
      · exact coherent
      · exact { coherent with }
  | permissions permissions => exact { coherent with }
  | build =>
      simp only [apply, buildWith]
      split
      · exact coherent.finish finder
      · exact coherent

theorem foldl_apply (finder : DominatorFinder) (steps : List BuildStep)
    (coherent : b.tables.Coherent b.edges) (wellFormed : b.tables.program.WellFormed) :
    (steps.foldl (apply finder) b).view = steps.foldl Builder.apply b.view ∧
      (steps.foldl (apply finder) b).tables.Coherent (steps.foldl (apply finder) b).edges := by
  induction steps generalizing b with
  | nil => exact ⟨rfl, coherent⟩
  | cons step steps ih =>
      have same := apply_view coherent finder step
      have next : (b.apply finder step).tables.program.WellFormed := by
        change (b.apply finder step).view.program.WellFormed
        rw [same]
        exact wellFormed.edit (b.view.apply_edit step)
      obtain ⟨view, columns⟩ := ih (apply_coherent coherent wellFormed finder step) next
      exact ⟨view.trans (by rw [same]; rfl), columns⟩

theorem empty_view : empty.view = Builder.empty := by
  simp [empty, view, Tables.empty, Tables.program, Builder.empty, Program.empty]

theorem run_tracks (finder : DominatorFinder) (steps : List BuildStep) :
    (run finder steps).view = Builder.run steps ∧
      (run finder steps).tables.Coherent (run finder steps).edges := by
  have wellFormed : empty.tables.program.WellFormed := by
    rw [show empty.tables.program = _ from congrArg Builder.program empty_view]
    exact Program.empty_wellFormed
  obtain ⟨same, coherent⟩ := foldl_apply finder steps Tables.empty_coherent wellFormed
  refine ⟨same.trans ?_, coherent⟩
  rw [empty_view]
  rfl

/-- The tables of some steps make up the program of the same steps, with the same errors. -/
theorem run_view (finder : DominatorFinder) (steps : List BuildStep) :
    (run finder steps).view = Builder.run steps :=
  (run_tracks finder steps).1

/-- Whatever steps were taken, every column is in line with the rows. -/
theorem run_coherent (finder : DominatorFinder) (steps : List BuildStep) :
    (run finder steps).tables.Coherent (run finder steps).edges :=
  (run_tracks finder steps).2

theorem run_wellFormed (finder : DominatorFinder) (steps : List BuildStep) :
    (run finder steps).tables.program.WellFormed := by
  have same := congrArg Builder.program (run_view finder steps)
  rw [show (run finder steps).tables.program = _ from same]
  exact Builder.run_wellFormed steps

theorem buildWith_eq_ok_iff {t : Tables} : (b.buildWith finder).2 = .ok t ↔
    b.errors ++ b.tables.methods.toList.flatMap (strayedSuccessors b.tables) = [] ∧
      t = finish finder b.tables := by
  simp only [buildWith, ← List.isEmpty_iff]
  split
  · rename_i faultless
    simp only [faultless, true_and, Except.ok.injEq]
    exact eq_comm
  · rename_i faults
    simp [faults]

end TableBuilder

end PermissionGuard
