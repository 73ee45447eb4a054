import PermissionGuard.Proofs.Program.Numbering
import PermissionGuard.Proofs.Ssa.Blocks
import PermissionGuard.Proofs.Ssa.Functions

/-!
The steps that lower a program. Placing the bodies one after the other gives every method a
statement for each instruction of its function (`Filled`), adding the call edges changes nothing but
callees (`linked_edges`), and no step is rejected.
-/

namespace PermissionGuard.Ssa.Lowering

open PermissionGuard.Program (Amended amended_self pushStatement_method?
  pushStatement_statement_cases pushRange_method?)

variable {p : Program} {config : Config} {exclude : List Text} {b c d : Builder}
variable {functions : List (FunctionId × Function)} {id : FunctionId} {f : Function} {k : Nat}
variable {method method' : Method} {m : MethodId} {s : StmtId}

/-! ### Bodies -/

/-- A statement is what the instruction at its position of a function says, and calls nothing. -/
def Stated (p : Program) (functions : List (FunctionId × Function)) (st : Statement) : Prop :=
  ∃ (k : Nat) (id : FunctionId) (f : Function) (spec : StatementSpec),
    st.method = k ∧ functions[k]? = some (id, f) ∧ (f.statements p)[st.index]? = some spec ∧
      st.target = spec.target ∧ st.succs = spec.succs ∧ st.line = spec.line ∧ st.callees = []

/-- The second builder has another method under a number, and otherwise differs only in
statements. -/
structure Placed (p : Program) (functions : List (FunctionId × Function)) (b : Builder) (k : Nat)
    (method : Method) (c : Builder) : Prop where
  errors : c.errors = b.errors
  entryPoints : c.program.entryPoints = b.program.entryPoints
  amended : b.program.Amended k method c.program
  stated : (∀ s st, b.program.statement? s = some st → Stated p functions st) →
    ∀ s st, c.program.statement? s = some st → Stated p functions st

theorem Placed.refl (known : b.program.method? k = some method) :
    Placed p functions b k method b :=
  ⟨rfl, rfl, amended_self known, id⟩

theorem Placed.trans (first : Placed p functions b k method c)
    (second : Placed p functions c k method' d) : Placed p functions b k method' d where
  errors := second.errors.trans first.errors
  entryPoints := second.entryPoints.trans first.entryPoints
  amended := first.amended.trans second.amended
  stated stated := second.stated (first.stated stated)

theorem placed_statement (listed : functions[k]? = some (id, f))
    (known : b.program.method? k = some method) (isConcrete : method.concrete = true)
    {spec : StatementSpec} (next : (f.statements p)[method.body.length]? = some spec) :
    Placed p functions b k
      { method with body := method.body ++ [(b.program.stmts.size : StmtId)] }
      (b.addStatement k spec).1 := by
  have added : (b.addStatement k spec).1 =
      { b with program := b.program.pushStatement k method spec } := by
    simp only [Builder.addStatement, known, isConcrete]
    rfl
  rw [added]
  refine ⟨rfl, rfl, pushStatement_method? known spec, fun stated s st found => ?_⟩
  rcases pushStatement_statement_cases found with ⟨_, rfl⟩ | old
  · exact ⟨k, id, f, spec, rfl, listed, next, rfl, rfl, rfl, rfl⟩
  · exact stated s st old

/-- The rest of a function's statements goes after what is placed of them. -/
theorem placed_statements (listed : functions[k]? = some (id, f)) (rest : List StatementSpec)
    (known : b.program.method? k = some method) (isConcrete : rest ≠ [] → method.concrete = true)
    (remaining : (f.statements p).drop method.body.length = rest) :
    ∃ body : List StmtId, body.length = method.body.length + rest.length ∧
      Placed p functions b k { method with body := body }
        (rest.foldl (fun b spec => (b.addStatement k spec).1) b) := by
  induction rest generalizing b method with
  | nil => exact ⟨method.body, rfl, Placed.refl known⟩
  | cons spec rest ih =>
      obtain ⟨next, later⟩ := remaining_cons remaining
      have first := placed_statement listed known (isConcrete (List.cons_ne_nil _ _)) next
      obtain ⟨body, size, others⟩ := ih first.amended.known
        (fun _ => isConcrete (List.cons_ne_nil _ _))
        (by rwa [List.length_append, List.length_singleton])
      refine ⟨body, ?_, first.trans others⟩
      rw [size, List.length_append, List.length_singleton, List.length_cons]
      omega

theorem placed_range (known : b.program.method? k = some method) {range : ExceptionRange}
    (valid : 0 ≤ range.first ∧ range.first ≤ range.last) :
    Placed p functions b k { method with traps := method.traps ++ [range] }
      (b.addTrap k range) := by
  have added : b.addTrap k range = { b with program := b.program.pushRange k range } := by
    have accepted : ¬ (range.first < 0 ∨ range.last < range.first) := by omega
    simp only [Builder.addTrap, known, if_neg accepted]
    rfl
  rw [added]
  exact ⟨rfl, rfl, pushRange_method? known range, fun stated => stated⟩

/-- The method of a function with a body and its handlers. -/
def withBody (p : Program) (config : Config) (exclude : List Text) (k : Nat) (f : Function)
    (body : List StmtId) : Method :=
  { bare config exclude k f with body := body, traps := f.handlers p }

theorem placed_body (listed : functions[k]? = some (id, f))
    (known : b.program.method? k = some (bare config exclude k f)) :
    ∃ body : List StmtId, body.length = f.instrs.length ∧
      Placed p functions b k (withBody p config exclude k f body) (addBody p b k f) := by
  have isConcrete (some : f.statements p ≠ []) : f.hasBody = true := by
    cases blocks : f.blocks with
    | nil => simp [Function.statements, blocks] at some
    | cons entry rest => simp [Function.hasBody, blocks]
  obtain ⟨body, size, placed⟩ := placed_statements listed (f.statements p) known isConcrete rfl
  refine ⟨body, by simpa [bare, Function.statements_length] using size, ?_⟩
  unfold addBody withBody Function.handlers
  cases starts : f.recoveryStart? p with
  | none => exact placed
  | some start =>
      have before := Function.recoveryStart?_lt starts
      exact placed.trans (placed_range placed.amended.known (by dsimp only; omega))

/-- The methods are declared, and the bodies of so many of them are placed. -/
structure Filled (p : Program) (config : Config) (exclude : List Text)
    (functions : List (FunctionId × Function)) (count : Nat) (b : Builder) : Prop where
  errors : b.errors = []
  entryPoints : b.program.entryPoints = []
  known : ∀ m method, b.program.method? m = some method →
    ∃ i : Nat, m = i ∧ i < functions.length
  waiting : ∀ {i : Nat} {id f}, count ≤ i → functions[i]? = some (id, f) →
    b.program.method? i = some (bare config exclude i f)
  placed : ∀ {i : Nat} {id f}, i < count → functions[i]? = some (id, f) →
    ∃ body : List StmtId, body.length = f.instrs.length ∧
      b.program.method? i = some (withBody p config exclude i f body)
  stated : ∀ s st, b.program.statement? s = some st → Stated p functions st

theorem Declared.filled {table : MethodTable}
    (declared : Declared config exclude functions b table) :
    Filled p config exclude functions 0 b where
  errors := declared.errors
  entryPoints := declared.entryPoints
  known := by
    intro m method found
    obtain ⟨nonnegative, there⟩ := PermissionGuard.Program.entry?_eq_some_iff.mp found
    have bound := (Array.getElem?_eq_some_iff.mp there).1
    exact ⟨m.toNat, (Int.toNat_of_nonneg nonnegative).symm, declared.size ▸ bound⟩
  waiting _ listed := declared.method listed
  placed below := absurd below (Nat.not_lt_zero _)
  stated := by
    intro s st found
    rw [PermissionGuard.Program.statement?, declared.stmts] at found
    simp [PermissionGuard.Program.entry?] at found

theorem Filled.next (filled : Filled p config exclude functions k b)
    (listed : functions[k]? = some (id, f)) :
    Filled p config exclude functions (k + 1) (addBody p b k f) := by
  obtain ⟨body, size, placed⟩ := placed_body (p := p) listed (filled.waiting (Nat.le_refl k) listed)
  have kept {i : Nat} (other : i ≠ k) :
      (addBody p b k f).program.method? i = b.program.method? i :=
    (placed.amended i).trans (if_neg fun same => other (Int.ofNat.inj same))
  constructor
  case errors => exact placed.errors.trans filled.errors
  case entryPoints => exact placed.entryPoints.trans filled.entryPoints
  case known =>
    intro m method found
    rw [placed.amended m] at found
    split at found
    · rename_i same
      exact ⟨k, same, (List.getElem?_eq_some_iff.mp listed).1⟩
    · exact filled.known m method found
  case waiting =>
    intro i id' f' later listed'
    rw [kept (Nat.ne_of_gt later)]
    exact filled.waiting (Nat.le_of_succ_le later) listed'
  case placed =>
    intro i id' f' below listed'
    rcases Nat.lt_succ_iff_lt_or_eq.mp below with before | rfl
    · rw [kept (Nat.ne_of_lt before)]
      exact filled.placed before listed'
    · cases listed.symm.trans listed'
      exact ⟨body, size, placed.amended.known⟩
  case stated => exact placed.stated filled.stated

/-- The bodies of the functions from a number on are placed one after the other. -/
theorem Filled.rest {table : MethodTable} (numbers : Numbers table functions)
    (rest : List (FunctionId × Function)) (filled : Filled p config exclude functions k b)
    (remaining : functions.drop k = rest) :
    Filled p config exclude functions (k + rest.length)
      (rest.foldl (fun b (id, f) => addBody p b (table.getD id 0) f) b) := by
  induction rest generalizing b k with
  | nil => exact filled
  | cons x rest ih =>
      obtain ⟨id, f⟩ := x
      obtain ⟨listed, later⟩ := remaining_cons remaining
      have number : table.getD id 0 = k := by
        rw [Std.HashMap.getD_eq_getD_getElem?, (numbers id k).mpr ⟨k, f, rfl, listed⟩]
        rfl
      have others := ih (filled.next listed) later
      simp only [List.foldl_cons, number, List.length_cons]
      rw [Nat.add_comm rest.length 1, ← Nat.add_assoc]
      exact others

/-! ### Calls -/

/-- The statement and the method that an edge is between, if it is a call of a function with a body
from an instruction. -/
def ends? (p : Program) (table : MethodTable) (methods : MethodId → Option Method)
    (edge : CallEdge) : Option (StmtId × MethodId) := do
  let caller ← methods (← table[edge.caller]?)
  let s ← caller.body[← edge.site]?
  let callee ← edge.callee
  let m ← table[callee]?
  if (← p.function? callee).hasBody then some (s, m) else none

theorem addEdge_eq (p : Program) (table : MethodTable) (b : Builder) (edge : CallEdge) :
    addEdge p table b edge =
      ((ends? p table b.program.method? edge).map fun x => b.addEdge x.1 x.2).getD b := by
  simp only [addEdge, ends?, Option.bind_eq_bind, Option.map_bind, Function.comp_def, apply_ite,
    Option.map_some, Option.map_none]

theorem ends?_eq_some_iff {table : MethodTable} {methods : MethodId → Option Method}
    {edge : CallEdge} : ends? p table methods edge = some (s, m) ↔
      ∃ caller x callee k method f, edge = ⟨caller, some x, some callee⟩ ∧
        table[caller]? = some k ∧ methods k = some method ∧ method.body[x]? = some s ∧
        table[callee]? = some m ∧ p.function? callee = some f ∧ f.hasBody = true := by
  obtain ⟨caller, site, callee⟩ := edge
  simp only [ends?, Option.bind_eq_bind, Option.bind_eq_some_iff, Option.ite_none_right_eq_some]
  constructor
  · rintro ⟨k, numbered, method, known, x, rfl, _, there, g, rfl, _, numbered', f, found, full,
      same⟩
    cases same
    exact ⟨caller, x, g, k, method, f, rfl, numbered, known, there, numbered', found, full⟩
  · rintro ⟨_, x, g, k, method, f, same, numbered, known, there, numbered', found, full⟩
    cases same
    exact ⟨k, numbered, method, known, x, rfl, s, there, g, rfl, m, numbered', f, found, full, rfl⟩

/-- The second builder has these call edges more, and is otherwise the same. -/
structure Linked (b : Builder) (pairs : List (StmtId × MethodId)) (c : Builder) : Prop where
  errors : c.errors = b.errors
  entryPoints : c.program.entryPoints = b.program.entryPoints
  method : c.program.method? = b.program.method?
  statement : ∀ {s st}, b.program.statement? s = some st →
    ∃ callees, c.program.statement? s = some { st with callees := callees } ∧
      ∀ m, m ∈ callees ↔ m ∈ st.callees ∨ (s, m) ∈ pairs

theorem Linked.refl (b : Builder) : Linked b [] b where
  errors := rfl
  entryPoints := rfl
  method := rfl
  statement {_ st} found := ⟨st.callees, found, by simp⟩

theorem Linked.cons {x : StmtId × MethodId} {pairs : List (StmtId × MethodId)}
    (first : Linked b [x] c) (rest : Linked c pairs d) : Linked b (x :: pairs) d where
  errors := rest.errors.trans first.errors
  entryPoints := rest.entryPoints.trans first.entryPoints
  method := rest.method.trans first.method
  statement {s st} found := by
    obtain ⟨_, found', some'⟩ := first.statement found
    obtain ⟨callees, found'', all⟩ := rest.statement found'
    refine ⟨callees, found'', fun m => ?_⟩
    rw [all, some', List.mem_singleton, List.mem_cons, or_assoc]

theorem linked_edge {st : Statement} (caller : b.program.statement? s = some st)
    (known : b.program.method? m = some method) (isConcrete : method.concrete = true) :
    Linked b [(s, m)] (b.addEdge s m) := by
  simp only [Builder.addEdge, caller, known, isConcrete, Bool.not_true, Bool.false_eq_true,
    if_false]
  split
  · rename_i present
    have member : m ∈ st.callees := by simpa using present
    refine ⟨rfl, rfl, rfl, fun {s' st'} found => ⟨st'.callees, found, fun m' => ?_⟩⟩
    constructor
    · exact Or.inl
    · rintro (before | again)
      · exact before
      · cases List.mem_singleton.mp again
        cases caller.symm.trans found
        exact member
  · refine ⟨rfl, rfl, rfl, fun {s' st'} found => ?_⟩
    have grown := PermissionGuard.Program.pushCallee_statement? caller m s'
    by_cases same : s' = s
    · subst same
      cases caller.symm.trans found
      rw [if_pos rfl] at grown
      exact ⟨_, grown, by simp⟩
    · rw [if_neg same, found] at grown
      exact ⟨st'.callees, grown, by simp [same]⟩

/-- Adding the edges between statements and concrete methods of the program. -/
theorem linked_edges {table : MethodTable} (edges : List CallEdge)
    (valid : ∀ edge ∈ edges, ∀ s m, ends? p table b.program.method? edge = some (s, m) →
      (∃ st, b.program.statement? s = some st) ∧
        ∃ method, b.program.method? m = some method ∧ method.concrete = true) :
    Linked b (edges.filterMap (ends? p table b.program.method?))
      (edges.foldl (addEdge p table) b) := by
  induction edges generalizing b with
  | nil => exact Linked.refl b
  | cons edge edges ih =>
      have later := fun other member => valid other (List.mem_cons_of_mem edge member)
      rw [List.foldl_cons, addEdge_eq]
      cases between : ends? p table b.program.method? edge with
      | none =>
          rw [List.filterMap_cons_none between]
          exact ih later
      | some x =>
          obtain ⟨⟨st, caller⟩, method, known, isConcrete⟩ :=
            valid edge List.mem_cons_self x.1 x.2 between
          have first := linked_edge caller known isConcrete
          rw [List.filterMap_cons_some between]
          refine first.cons ?_
          rw [← first.method]
          refine ih fun other member s m between => ?_
          rw [first.method] at between ⊢
          obtain ⟨⟨st, there⟩, callee⟩ := later other member s m between
          obtain ⟨_, kept, _⟩ := first.statement there
          exact ⟨⟨_, kept⟩, callee⟩

theorem foldl_addEntryPoint {number : FunctionId → MethodId} (roots : List FunctionId)
    (known : ∀ root ∈ roots, ∃ method, b.program.method? (number root) = some method) :
    roots.foldl (fun b root => b.addEntryPoint (number root)) b =
      { b with program.entryPoints := b.program.entryPoints ++ roots.map number } := by
  induction roots generalizing b with
  | nil => simp
  | cons root roots ih =>
      obtain ⟨method, found⟩ := known root List.mem_cons_self
      have first : b.addEntryPoint (number root) =
          { b with program.entryPoints := b.program.entryPoints ++ [number root] } := by
        simp only [Builder.addEntryPoint, found]
      have rest := ih
        (b := { b with program.entryPoints := b.program.entryPoints ++ [number root] })
        fun other member => known other (List.mem_cons_of_mem _ member)
      rw [List.foldl_cons, first, rest]
      simp

end PermissionGuard.Ssa.Lowering
