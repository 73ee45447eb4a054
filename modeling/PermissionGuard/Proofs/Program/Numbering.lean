import PermissionGuard.Proofs.Program.Described

/-!
The numbers of a described program. Methods and statements are numbered in the order of their
entries, so every one of them can be read off the description (`Realizes`): nothing else is in the
program that is built, and it is built exactly when the description is valid.
-/

namespace PermissionGuard

/-- Adding only what is new keeps every element at its first place. -/
theorem foldl_appendNew (edges found : List MethodId) :
    edges.foldl appendNew found = found ++ (edges.filter fun m => !found.contains m).eraseDups := by
  induction edges generalizing found with
  | nil => simp
  | cons first rest ih =>
      rw [List.foldl_cons, ih, appendNew]
      by_cases present : found.contains first = true
      · rw [if_pos present, List.filter_cons_of_neg (by simp only [present]; decide)]
      · rw [if_neg present, List.filter_cons_of_pos (by simpa using present), List.eraseDups_cons,
          List.filter_filter, List.append_assoc, List.singleton_append]
        congr 3
        apply List.filter_congr
        intro m _
        rw [Bool.eq_iff_iff]
        simp [and_comm]

namespace Program

/-- The second program has another method under a number, and the same methods otherwise. -/
def Amended (p : Program) (m : MethodId) (method : Method) (q : Program) : Prop :=
  ∀ id, q.method? id = if id = m then some method else p.method? id

variable {p q r : Program} {m : MethodId} {method method' : Method}

theorem amended_self (known : p.method? m = some method) : p.Amended m method p := by
  intro id
  split
  · rename_i same
    rw [same, known]
  · rfl

theorem Amended.trans (first : p.Amended m method q) (second : q.Amended m method' r) :
    p.Amended m method' r := by
  intro id
  rw [second id]
  split
  · rfl
  · rename_i other
    rw [first id, if_neg other]

theorem Amended.known (amended : p.Amended m method q) : q.method? m = some method :=
  (amended m).trans (if_pos rfl)

end Program

namespace Description

open Program

variable {d : Description} {p : Program} {entry : MethodEntry} {statement : StatementEntry}
variable {m : Nat} {method : Method}

theorem callees_eq_eraseDups (d : Description) (statement : StatementEntry) :
    d.callees statement = ((d.directCalls statement ++
      statement.targets.filterMap d.resolve?).map Int.ofNat).eraseDups := by
  rw [callees, foldl_appendNew, List.nil_append]
  exact congrArg List.eraseDups (List.filter_eq_self.mpr fun _ _ => rfl)

def numbersFrom (first count : Nat) : List StmtId := (List.range' first count).map Int.ofNat

/-- The number of the first statement of a method: as many statements as the methods before it
have come first. -/
def firstNumber (d : Description) (m : Nat) : Nat :=
  ((d.methods.take m).flatMap MethodEntry.body).length

theorem firstNumber_succ (described : d.methods[m]? = some entry) :
    d.firstNumber (m + 1) = d.firstNumber m + entry.body.length := by
  simp [firstNumber, List.take_add_one, described]

theorem getElem?_numbersFrom {first count i : Nat} (bound : i < count) :
    (numbersFrom first count)[i]? = some ((first + i : Nat) : StmtId) := by
  simp [numbersFrom, bound]

theorem place_statement (known : p.method? m = some method) (statement : StatementEntry) :
    (d.place m p statement).stmts.size = p.stmts.size + 1 ∧
      p.Amended m { method with body := method.body ++ [(p.stmts.size : StmtId)] }
        (d.place m p statement) := by
  simp only [place, known]
  exact ⟨Array.size_push _, pushStatement_method? known statement.spec⟩

/-- Placing a body gives its statements the next free numbers. -/
theorem foldl_place (known : p.method? m = some method) (body : List StatementEntry) :
    (body.foldl (d.place m) p).stmts.size = p.stmts.size + body.length ∧
      p.Amended m { method with body := method.body ++ numbersFrom p.stmts.size body.length }
        (body.foldl (d.place m) p) := by
  induction body generalizing p method with
  | nil => simpa [numbersFrom] using amended_self known
  | cons statement rest ih =>
      obtain ⟨grown, placed⟩ := place_statement (d := d) known statement
      obtain ⟨size, others⟩ := ih placed.known
      rw [grown] at size others
      refine ⟨?_, ?_⟩
      · rw [List.foldl_cons, size, List.length_cons]
        omega
      · simpa [numbersFrom, List.range'_succ] using placed.trans others

theorem foldl_pushRange (known : p.method? m = some method) (traps : List TrapEntry) :
    let q := traps.foldl (fun p trap => p.pushRange m trap.range) p
    q.stmts = p.stmts ∧
      p.Amended m { method with traps := method.traps ++ traps.map TrapEntry.range } q := by
  induction traps generalizing p method with
  | nil => simpa using amended_self known
  | cons trap rest ih =>
      have pushed : p.Amended m { method with traps := method.traps ++ [trap.range] }
          (p.pushRange m trap.range) := pushRange_method? known trap.range
      obtain ⟨same, others⟩ := ih pushed.known
      exact ⟨same, by simpa using pushed.trans others⟩

/-- A method with the body and the exception ranges of an entry added to it. -/
def filledIn (entry : MethodEntry) (first : Nat) (method : Method) : Method :=
  { method with
    body := method.body ++ numbersFrom first entry.body.length
    traps := method.traps ++ entry.traps.map TrapEntry.range }

theorem placeBody_fills (known : p.method? m = some method) (entry : MethodEntry) :
    (d.placeBody p entry m).stmts.size = p.stmts.size + entry.body.length ∧
      p.Amended m (filledIn entry p.stmts.size method) (d.placeBody p entry m) := by
  obtain ⟨size, placed⟩ := foldl_place (d := d) known entry.body
  obtain ⟨same, trapped⟩ := foldl_pushRange placed.known entry.traps
  exact ⟨(congrArg Array.size same).trans size, placed.trans trapped⟩

/-- The bodies of the methods from a number on are placed one after the other. -/
theorem foldl_placeBody_fills {rest : List MethodEntry} {k : Nat} (headed : p.headers = d.headers)
    (size : p.stmts.size = d.firstNumber k) (remaining : d.methods.drop k = rest) :
    let q := (rest.zipIdx k).foldl (fun p (entry, m) => d.placeBody p entry m) p
    q.stmts.size = d.firstNumber (k + rest.length) ∧
      (∀ i : Nat, i < k → q.method? i = p.method? i) ∧
      ∀ (i : Nat) entry method, k ≤ i → d.methods[i]? = some entry → p.method? i = some method →
        q.method? i = some (filledIn entry (d.firstNumber i) method) := by
  -- The methods below `k` are done, and those from `k` on are still as they were declared.
  induction rest generalizing p k with
  | nil =>
      refine ⟨size, fun i _ => rfl, ?_⟩
      intro i entry method above described _
      have beyond := List.drop_eq_nil_iff.mp remaining
      have bound := (List.getElem?_eq_some_iff.mp described).1
      omega
  | cons entry rest ih =>
      obtain ⟨described, others⟩ := remaining_cons remaining
      obtain ⟨method, known, _⟩ := method_of_entry headed described
      obtain ⟨grown, placed⟩ := placeBody_fills (d := d) known entry
      have kept (i : Nat) (other : i ≠ k) : (d.placeBody p entry k).method? i = p.method? i :=
        (placed i).trans (if_neg fun same => other (Int.ofNat.inj same))
      obtain ⟨total, before, after⟩ := ih (placeBody_headers headed entry k)
        (by rw [grown, size, firstNumber_succ described]) others
      refine ⟨?_, ?_, ?_⟩
      · rw [List.length_cons, Nat.add_comm rest.length 1, ← Nat.add_assoc]
        exact total
      · intro i below
        exact (before i (Nat.lt_succ_of_lt below)).trans (kept i (Nat.ne_of_lt below))
      · intro i later declared above isLater isDeclared
        rcases Nat.eq_or_lt_of_le above with rfl | above
        · cases described.symm.trans isLater
          cases known.symm.trans isDeclared
          rw [← size]
          exact (before k (Nat.lt_succ_self k)).trans placed.known
        · refine after i later declared above isLater ?_
          rw [kept i (Nat.ne_of_gt above), isDeclared]

theorem record_edges (h : Hierarchy) (records : List (Text × Text)) :
    (record h records).edges = h.edges ++ records.filter fun edge => edge.1 ≠ edge.2 := by
  induction records generalizing h with
  | nil => simp [record]
  | cons edge records ih =>
      have rest : (record h (edge :: records)).edges =
          (record (h.addSubtype edge.1 edge.2) records).edges := rfl
      rw [rest, ih, Hierarchy.addSubtype]
      by_cases same : edge.1 = edge.2
      · simp [same]
      · simp [same]

theorem mem_supertypes_iff {child parent : Text} : (child, parent) ∈ d.supertypes ↔
    ∃ parents, (child, parents) ∈ d.hierarchy ∧ parent ∈ parents := by
  simp only [supertypes, List.mem_flatMap, List.mem_mergeSort, List.mem_map, Prod.exists,
    Prod.mk.injEq]
  constructor
  · rintro ⟨_, parents, recorded, _, member, rfl, rfl⟩
    exact ⟨parents, recorded, member⟩
  · rintro ⟨parents, recorded, member⟩
    exact ⟨child, parents, recorded, parent, member, rfl, rfl⟩

/-- The method of an entry: its number is its place, and its statements are numbered after those
of the methods before it. -/
def methodAt (d : Description) (m : Nat) (entry : MethodEntry) (sig : Signature) : Method where
  id := m
  sig := sig
  concrete := entry.concrete
  library := entry.library
  body := numbersFrom (d.firstNumber m) entry.body.length
  traps := entry.traps.map TrapEntry.range

/-- The statement of an entry. It calls the method that its invocation names, if that is concrete,
and then its targets, each method once. -/
def statementAt (d : Description) (m i : Nat) (statement : StatementEntry) : Statement where
  id := (d.firstNumber m + i : Nat)
  method := m
  index := i
  target := (Signature.parse statement.invoke).toOption
  succs := statement.succs
  line := statement.line
  callees := ((d.directCalls statement ++ statement.targets.filterMap d.resolve?).map
    Int.ofNat).eraseDups

theorem Valid.program_fills (valid : d.Valid) :
    d.program.stmts.size = d.firstNumber d.methods.length ∧
      ∀ {m : Nat} {entry}, d.methods[m]? = some entry →
        ∃ sig, Signature.parse entry.signature = .ok sig ∧
          d.program.method? m = some (d.methodAt m entry sig) := by
  obtain ⟨bare, unstated⟩ := declared_bare d
  have headed := frame_declared_headers valid.methods
  have numbered : (d.methods.foldl declare d.frame).stmts.size = d.firstNumber 0 := by
    rw [unstated]
    rfl
  obtain ⟨size, _, methods⟩ := foldl_placeBody_fills headed numbered rfl
  refine ⟨?_, ?_⟩
  · rw [program, foldl_enter, ← Nat.zero_add d.methods.length]
    exact size
  · intro m entry described
    obtain ⟨method, known, read, isConcrete, isLibrary⟩ := method_of_entry headed described
    have filled : d.program.method? m = some (filledIn entry (d.firstNumber m) method) := by
      rw [program, foldl_enter]
      exact methods m entry method (Nat.zero_le m) described known
    have number := valid.denotes.wellFormed.method_id filled
    change method.id = m at number
    obtain ⟨noBody, noTraps⟩ := bare m method known
    refine ⟨method.sig, read, filled.trans ?_⟩
    simp only [filledIn, methodAt, noBody, noTraps, number, isConcrete, isLibrary,
      List.nil_append]

theorem Valid.statement_at (valid : d.Valid) {i : Nat} (described : d.methods[m]? = some entry)
    (position : entry.body[i]? = some statement) :
    d.program.statement? (d.firstNumber m + i : Nat) = some (d.statementAt m i statement) := by
  obtain ⟨sig, _, known⟩ := valid.program_fills.2 described
  obtain ⟨s, st, there, found, atIndex, describes⟩ :=
    valid.denotes.statement_at described known position
  rw [methodAt, getElem?_numbersFrom (List.getElem?_eq_some_iff.mp position).1] at there
  cases there
  have number := valid.denotes.wellFormed.statement_id found
  obtain ⟨inMethod, _, _, target, succs, line, callees⟩ := describes
  rw [found, statementAt, ← callees_eq_eraseDups]
  cases st
  simp only at number atIndex inMethod target succs line callees
  rw [number, atIndex, inMethod, target, succs, line, callees]
  rfl

end Description

open Description

/-- The finished program has what the description says and nothing else. -/
structure Arena.Realizes (a : Arena) (d : Description) : Prop where
  methods_size : a.methods.size = d.methods.length
  stmts_size : a.stmts.size = d.firstNumber d.methods.length
  method_at : ∀ {m : Nat} {entry}, d.methods[m]? = some entry →
    ∃ sig, Signature.parse entry.signature = .ok sig ∧
      a.method? m = some (d.methodAt m entry sig)
  statement_at : ∀ {m i : Nat} {entry statement}, d.methods[m]? = some entry →
    entry.body[i]? = some statement →
      a.statement? (d.firstNumber m + i : Nat) = some (d.statementAt m i statement)
  entryPoints : a.entryPoints = (d.entryPoints.filterMap d.resolve?).map Int.ofNat
  permissions : a.permissions = d.permissions
  edge_iff : ∀ {child parent}, (child, parent) ∈ a.hierarchy.edges ↔
    child ≠ parent ∧ ∃ parents, (child, parents) ∈ d.hierarchy ∧ parent ∈ parents

theorem Description.Valid.realizes {d : Description} (valid : d.Valid) :
    (Arena.ofProgram d.program).Realizes d := by
  constructor
  case methods_size =>
    change d.program.methods.size = d.methods.length
    simpa [Program.headers, headers] using congrArg List.length valid.denotes.headed
  case stmts_size =>
    exact valid.program_fills.1
  case method_at =>
    exact valid.program_fills.2
  case statement_at =>
    exact valid.statement_at
  case entryPoints =>
    exact valid.denotes.entryPoints
  case permissions =>
    change d.program.permissions = d.permissions
    rw [program, foldl_enter]
    exact congrArg (·.2.2) (placed_surroundings d)
  case edge_iff =>
    intro child parent
    change (child, parent) ∈ d.program.hierarchy.edges ↔ _
    rw [valid.denotes.hierarchy, record_edges, Hierarchy.empty, List.nil_append, List.mem_filter,
      mem_supertypes_iff, decide_eq_true_eq, and_comm]

/-- A description is accepted exactly when it is valid, and the program that is built then has its
methods, statements, calls, exception ranges, entry points and supertypes, in its order. -/
theorem accepted_exactly_when_valid (d : Description) :
    ((∃ a, d.toArena = .ok a) ↔ d.Valid) ∧ ∀ a, d.toArena = .ok a → a.Realizes d := by
  refine ⟨⟨?_, ?_⟩, ?_⟩
  · rintro ⟨a, accepted⟩
    exact (toArena_eq_ok_iff.mp accepted).1
  · intro valid
    exact ⟨_, toArena_eq_ok_iff.mpr ⟨valid, rfl⟩⟩
  · intro a accepted
    obtain ⟨valid, rfl⟩ := toArena_eq_ok_iff.mp accepted
    exact valid.realizes

/-- Two methods with one signature, of which the first is called by name and again as a target of
the same statement, before it is described. -/
def relayDescription : Description where
  permissions := ["android.permission.CAMERA"]
  entryPoints := ["<app.Main: void run()>"]
  hierarchy := [("app.Main", ["java.lang.Object", "app.Main"])]
  methods :=
    [{ signature := "<app.Main: void run()>"
       body := [{ line := 3 },
         { invoke := "<app.Main: void take()>"
           targets := ["<app.Main: void run()>", "<app.Main: void take()>"]
           succs := some [0, 1], line := 4 }]
       traps := [⟨0, 1, "java.lang.SecurityException"⟩] },
     { signature := "< app.Main: void take() >", body := [{ invoke := "<app.Shape: int area()>" }] },
     { signature := "<app.Main: void take()>", library := true },
     { signature := "<app.Shape: int area()>", concrete := false }]

theorem accepted_exactly_when_valid_relay :
    ∃ a, relayDescription.toArena = .ok a ∧ a.Realizes relayDescription ∧ a.callees 1 = [1, 0] := by
  obtain ⟨accepted, realized⟩ := accepted_exactly_when_valid relayDescription
  obtain ⟨a, built⟩ := accepted.mpr (by decide +kernel)
  have realizes := realized a built
  have second : a.statement? 1 = some _ := realizes.statement_at (m := 0) (i := 1) rfl rfl
  refine ⟨a, built, realizes, ?_⟩
  rw [Program.callees, second]
  decide +kernel

end PermissionGuard
