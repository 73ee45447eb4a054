import PermissionGuard.Program.Description
import PermissionGuard.Proofs.Program.Finished

/-!
What a description describes. A description is accepted exactly when it is valid, and the program
that is built then is the one that places its entries one after the other
(`toArena_eq_ok_iff_program`).
-/

namespace PermissionGuard

/-- Adds an element at the end of a list that does not hold it yet. -/
def appendNew (found : List MethodId) (m : MethodId) : List MethodId :=
  if found.contains m then found else found ++ [m]

theorem mem_foldl_appendNew {found edges : List MethodId} {m : MethodId} :
    m ∈ edges.foldl appendNew found ↔ m ∈ found ∨ m ∈ edges := by
  induction edges generalizing found with
  | nil => simp
  | cons first rest ih =>
      rw [List.foldl_cons, ih, List.mem_cons, appendNew]
      split
      · rename_i present
        have member : first ∈ found := by simpa using present
        constructor
        · rintro (before | later)
          · exact Or.inl before
          · exact Or.inr (Or.inr later)
        · rintro (before | rfl | later)
          · exact Or.inl before
          · exact Or.inl member
          · exact Or.inr later
      · rw [List.mem_append, List.mem_singleton, or_assoc]

namespace Description

variable {d : Description} {written : Text} {entry : MethodEntry} {statement : StatementEntry}

/-- The key of a written signature, if it can be read. -/
def keyOf? (written : Text) : Option Text := (Signature.parse written).toOption.map Signature.key

/-- The number of the first described method with a written signature. -/
def resolve? (d : Description) (written : Text) : Option Nat :=
  (keyOf? written).bind fun key =>
    d.methods.findIdx? fun entry => keyOf? entry.signature == some key

/-- Whether a number belongs to a method that is described as concrete. -/
def isConcrete (d : Description) (m : Nat) : Bool := (d.methods[m]?).any MethodEntry.concrete

/-- The method that an invocation names, if it is described as concrete. -/
def directCalls (d : Description) (statement : StatementEntry) : List Nat :=
  (d.resolve? statement.invoke).toList.filter d.isConcrete

/-- The methods that a statement calls, each once. -/
def callees (d : Description) (statement : StatementEntry) : List MethodId :=
  ((d.directCalls statement ++ statement.targets.filterMap d.resolve?).map Int.ofNat).foldl
    appendNew []

end Description

def StatementEntry.spec (statement : StatementEntry) : StatementSpec where
  target := (Signature.parse statement.invoke).toOption
  succs := statement.succs
  line := statement.line

def TrapEntry.range (trap : TrapEntry) : ExceptionRange := ⟨trap.first, trap.last, trap.caught⟩

namespace Program

variable {p : Program} {m : MethodId} {method : Method}

theorem modify_push_last {α : Type} (entries : Array α) (x : α) (change : α → α) :
    (entries.push x).modify entries.size change = entries.push (change x) := by
  apply Array.ext_getElem?
  intro i
  rw [Array.getElem?_modify, Array.getElem?_push, Array.getElem?_push]
  by_cases last : entries.size = i
  · simp [last]
  · simp [last, Ne.symm last]

/-- The program with one more statement at the end of the body of a method, and its call edges. -/
def pushCaller (p : Program) (m : MethodId) (method : Method) (spec : StatementSpec)
    (callees : List MethodId) : Program :=
  { p.pushStatement m method spec with
    stmts := p.stmts.push
      ⟨p.stmts.size, m, method.body.length, spec.target, spec.succs, spec.line, callees⟩ }

/-- What a description gives of a method before its body. -/
abbrev Header : Type := Except Signature.ParseError Signature × Bool × Bool

def headers (p : Program) : List Header :=
  p.methods.toList.map fun method => (.ok method.sig, method.concrete, method.library)

theorem modify_headers {i : Nat} {change : Method → Method}
    (kept : ∀ method, (change method).sig = method.sig ∧
      (change method).concrete = method.concrete ∧ (change method).library = method.library) :
    { p with methods := p.methods.modify i change }.headers = p.headers := by
  apply List.ext_getElem?
  intro j
  simp only [headers, List.getElem?_map, Array.getElem?_toList, Array.getElem?_modify]
  split
  · cases p.methods[j]? <;> simp [kept]
  · rfl

@[simp] theorem pushCaller_headers (p : Program) (m : MethodId) (method : Method)
    (spec : StatementSpec) (callees : List MethodId) :
    (p.pushCaller m method spec callees).headers = p.headers :=
  modify_headers fun _ => ⟨rfl, rfl, rfl⟩

@[simp] theorem pushRange_headers (p : Program) (m : MethodId) (range : ExceptionRange) :
    (p.pushRange m range).headers = p.headers :=
  modify_headers fun _ => ⟨rfl, rfl, rfl⟩

theorem pushMethod_headers (p : Program) (sig : Signature) (concrete library : Bool) :
    (p.pushMethod sig concrete library).headers = p.headers ++ [(.ok sig, concrete, library)] := by
  simp [headers, pushMethod]

end Program

namespace Description

open Program

variable {d : Description} {p : Program} {written : Text} {entry : MethodEntry} {m : Nat}

def headers (d : Description) : List Header :=
  d.methods.map fun entry => (Signature.parse entry.signature, entry.concrete, entry.library)

theorem method_of_entry (headed : p.headers = d.headers) (described : d.methods[m]? = some entry) :
    ∃ method, p.method? m = some method ∧ Signature.parse entry.signature = .ok method.sig ∧
      method.concrete = entry.concrete ∧ method.library = entry.library := by
  have header := congrArg (·[m]?) headed
  simp only [Program.headers, headers, List.getElem?_map, Array.getElem?_toList, described,
    Option.map_some, Option.map_eq_some_iff, Prod.mk.injEq] at header
  obtain ⟨method, found, sig, isConcrete, isLibrary⟩ := header
  exact ⟨method, by rw [Program.method?, entry?_natCast, found], sig.symm, isConcrete, isLibrary⟩

theorem entry_of_method (headed : p.headers = d.headers) {id : MethodId} {method : Method}
    (known : p.method? id = some method) :
    ∃ m entry, id = (m : Nat) ∧ d.methods[m]? = some entry ∧
      Signature.parse entry.signature = .ok method.sig ∧ method.concrete = entry.concrete ∧
        method.library = entry.library := by
  obtain ⟨nonnegative, found⟩ := entry?_eq_some_iff.mp known
  have header := congrArg (·[id.toNat]?) headed
  simp only [Program.headers, headers, List.getElem?_map, Array.getElem?_toList, found,
    Option.map_some] at header
  obtain ⟨entry, described, same⟩ := Option.map_eq_some_iff.mp header.symm
  simp only [Prod.mk.injEq] at same
  exact ⟨id.toNat, entry, (Int.toNat_of_nonneg nonnegative).symm, described, same.1, same.2.1.symm,
    same.2.2.symm⟩

theorem methodByKey?_eq (headed : p.headers = d.headers) (key : Text) :
    p.methodByKey? key =
      (d.methods.findIdx? fun entry => keyOf? entry.signature == some key).map Int.ofNat := by
  have search := congrArg (List.findIdx? fun (header : Header) =>
    header.1.toOption.map Signature.key == some key) headed
  simp only [Program.headers, headers, List.findIdx?_map] at search
  rw [← List.findIdx?_toArray, Array.toArray_toList] at search
  have same : p.methods.findIdx? (·.sig.key == key) = _ := search
  rw [methodByKey?, same]
  rfl

theorem keyOf?_of_ok {sig : Signature} (read : Signature.parse written = .ok sig) :
    keyOf? written = some sig.key := by
  rw [keyOf?, read]
  rfl

theorem keyOf?_of_error {cause : Signature.ParseError}
    (unread : Signature.parse written = .error cause) : keyOf? written = none := by
  rw [keyOf?, unread]
  rfl

theorem resolve?_of_error {cause : Signature.ParseError}
    (unread : Signature.parse written = .error cause) : d.resolve? written = none := by
  rw [resolve?, keyOf?_of_error unread]
  rfl

theorem methodByKey?_of_ok (headed : p.headers = d.headers) {sig : Signature}
    (read : Signature.parse written = .ok sig) :
    p.methodByKey? sig.key = (d.resolve? written).map Int.ofNat := by
  rw [methodByKey?_eq headed, resolve?, keyOf?_of_ok read]
  rfl

theorem described_of_resolve? (resolved : d.resolve? written = some m) :
    ∃ entry, d.methods[m]? = some entry ∧ (keyOf? written).isSome ∧
      keyOf? entry.signature = keyOf? written := by
  obtain ⟨key, named, found⟩ := Option.bind_eq_some_iff.mp resolved
  obtain ⟨bound, same, _⟩ := List.findIdx?_eq_some_iff_getElem.mp found
  exact ⟨d.methods[m], List.getElem?_eq_getElem bound, by simp [named],
    (beq_iff_eq.mp same).trans named.symm⟩

theorem lookup_eq_ok_iff {b : Builder} (headed : b.program.headers = d.headers) (written : Text)
    (callee : MethodId) :
    lookup b written = .ok callee ↔ ∃ m : Nat, d.resolve? written = some m ∧ callee = m := by
  unfold lookup
  cases read : Signature.parse written with
  | error cause => simp [resolve?_of_error read]
  | ok sig =>
      simp only [methodByKey?_of_ok headed read]
      cases d.resolve? written with
      | none => simp
      | some m => simp [eq_comm]

end Description

/-! ### Steps without errors -/

theorem bind_eq_ok_iff {ε α β : Type} {x : Except ε α} {f : α → Except ε β} {b : β} :
    (x >>= f) = .ok b ↔ ∃ a, x = .ok a ∧ f a = .ok b := by
  cases x with
  | error cause => simp [bind, Except.bind]
  | ok a => simp [bind, Except.bind]

theorem forall_mem_zipIdx_fst {α : Type} {items : List α} {holds : α → Prop} :
    (∀ x ∈ items, holds x) ↔ ∀ x ∈ items.zipIdx, holds x.1 := by
  conv => lhs; rw [← List.zipIdx_map_fst 0 items]
  exact List.forall_mem_map

theorem foldl_zipIdx_fst {α β : Type} (items : List α) (f : β → α → β) (start : β) :
    items.foldl f start = items.zipIdx.foldl (fun state x => f state x.1) start := by
  conv => lhs; rw [← List.zipIdx_map_fst 0 items]
  exact List.foldl_map

/-- The first of what remains of a list stands at the position that was reached. -/
theorem remaining_cons {α : Type} {items rest : List α} {x : α} {k : Nat}
    (remaining : items.drop k = x :: rest) : items[k]? = some x ∧ items.drop (k + 1) = rest := by
  constructor
  · rw [← List.head?_drop, remaining]
    rfl
  · rw [← List.drop_drop, remaining]
    rfl

theorem foldlM_errors {α ε : Type} {f : Builder → α → Except ε Builder}
    (kept : ∀ {b x c}, f b x = .ok c → c.errors = [] → b.errors = []) {items : List α}
    {b c : Builder} (folded : items.foldlM f b = .ok c) (faultless : c.errors = []) :
    b.errors = [] := by
  induction items generalizing b with
  | nil =>
      cases folded
      exact faultless
  | cons x items ih =>
      rw [List.foldlM_cons, bind_eq_ok_iff] at folded
      obtain ⟨next, first, rest⟩ := folded
      exact kept first (ih rest)

/-- Steps that all succeed without errors when their items are valid, and never else. The states
between the steps are those of a pure fold. -/
theorem foldlM_eq_ok_iff {α σ ε : Type} {f : Builder → α → Except ε Builder} (state : σ → Builder)
    (valid : α → Prop) (step : σ → α → σ) (inv : σ → Prop) {items : List α}
    (clean : ∀ s, (state s).errors = [])
    (kept : ∀ {b x c}, f b x = .ok c → c.errors = [] → b.errors = [])
    (single : ∀ x ∈ items, ∀ s, inv s → ∀ c : Builder, c.errors = [] →
      (f (state s) x = .ok c ↔ valid x ∧ c = state (step s x)))
    (preserved : ∀ x ∈ items, ∀ s, inv s → inv (step s x)) {s : σ} (start : inv s) {c : Builder}
    (faultless : c.errors = []) :
    items.foldlM f (state s) = .ok c ↔ (∀ x ∈ items, valid x) ∧ c = state (items.foldl step s) := by
  induction items generalizing s with
  | nil => simp [pure, Except.pure, eq_comm]
  | cons x items ih =>
      have later := fun s (holds : inv s) => ih
        (fun y member => single y (List.mem_cons_of_mem x member))
        (fun y member => preserved y (List.mem_cons_of_mem x member)) (s := s) holds
      have first := single x List.mem_cons_self s start
      have holds := preserved x List.mem_cons_self s start
      rw [List.foldlM_cons, List.foldl_cons, List.forall_mem_cons, bind_eq_ok_iff]
      constructor
      · rintro ⟨next, done, rest⟩
        obtain ⟨isValid, rfl⟩ := (first next (foldlM_errors kept rest faultless)).mp done
        obtain ⟨others, final⟩ := (later _ holds).mp rest
        exact ⟨⟨isValid, others⟩, final⟩
      · rintro ⟨⟨isValid, others⟩, final⟩
        exact ⟨_, (first _ (clean _)).mpr ⟨isValid, rfl⟩, (later _ holds).mpr ⟨others, final⟩⟩

namespace Description

open Program

variable {d : Description} {p : Program} {m : MethodId} {method : Method} {spec : StatementSpec}
variable {statement : StatementEntry}

theorem isConcrete_iff (headed : p.headers = d.headers) {i : Nat} :
    d.isConcrete i = true ↔ ∃ method, p.method? i = some method ∧ method.concrete = true := by
  simp only [isConcrete, Option.any_eq_true]
  constructor
  · rintro ⟨entry, described, concrete⟩
    obtain ⟨method, known, _, same, _⟩ := method_of_entry headed described
    exact ⟨method, known, same.trans concrete⟩
  · rintro ⟨method, known, concrete⟩
    obtain ⟨j, entry, same, described, _, isConcrete, _⟩ := entry_of_method headed known
    cases Int.ofNat.inj same
    exact ⟨entry, described, isConcrete.symm.trans concrete⟩

theorem addEdge_pushCaller (headed : p.headers = d.headers) (callees : List MethodId) {i : Nat}
    (concrete : d.isConcrete i = true) :
    Builder.addEdge ⟨p.pushCaller m method spec callees, []⟩ p.stmts.size i =
      ⟨p.pushCaller m method spec (appendNew callees i), []⟩ := by
  obtain ⟨callee, known, isConcrete⟩ :=
    (isConcrete_iff (p := p.pushCaller m method spec callees) (by simpa using headed)).mp concrete
  have opened : (p.pushCaller m method spec callees).statement? p.stmts.size =
      some ⟨p.stmts.size, m, method.body.length, spec.target, spec.succs, spec.line, callees⟩ := by
    simp [pushCaller, Program.statement?, entry?_push]
  simp only [Builder.addEdge, opened, known, isConcrete, Bool.not_true, Bool.false_eq_true,
    if_false]
  by_cases present : callees.contains (i : MethodId) = true
  · rw [if_pos present, appendNew, if_pos present]
  · rw [if_neg present, appendNew, if_neg present]
    simp [pushCaller, modify_push_last]

theorem addEdge_abstract (headed : p.headers = d.headers) {s : StmtId} {i : Nat}
    (abstract : d.isConcrete i = false) :
    (Builder.addEdge ⟨p, []⟩ s i).errors ≠ [] := by
  unfold Builder.addEdge
  split
  · exact Builder.fail_errors _ _
  · exact Builder.fail_errors _ _
  · rename_i callee _ known
    cases concrete : callee.concrete with
    | false => exact Builder.fail_errors _ _
    | true => simp [(isConcrete_iff headed).mpr ⟨callee, known, concrete⟩] at abstract

/-- A target names a described method that is concrete. -/
def ValidTarget (d : Description) (written : Text) : Prop :=
  ∃ m, d.resolve? written = some m ∧ d.isConcrete m = true

/-- Adds the call edge to a target. -/
def addTarget (s : StmtId) (fault : LookupError → DescriptionError) (b : Builder)
    (written : Text) : Except DescriptionError Builder :=
  match lookup b written with
  | .ok callee => .ok (b.addEdge s callee)
  | .error cause => .error (fault cause)

theorem addTarget_errors {s : StmtId} {fault : LookupError → DescriptionError} {b c : Builder}
    {written : Text} (added : addTarget s fault b written = .ok c) (faultless : c.errors = []) :
    b.errors = [] := by
  unfold addTarget at added
  split at added
  · cases added
    exact Builder.addEdge_errors faultless
  · cases added

theorem addTargets_eq_ok_iff (headed : p.headers = d.headers)
    (fault : LookupError → DescriptionError) (targets : List Text) (callees : List MethodId)
    {c : Builder} (faultless : c.errors = []) :
    targets.foldlM (addTarget p.stmts.size fault) ⟨p.pushCaller m method spec callees, []⟩ =
        .ok c ↔
      (∀ written ∈ targets, d.ValidTarget written) ∧
        c = ⟨p.pushCaller m method spec
          (((targets.filterMap d.resolve?).map Int.ofNat).foldl appendNew callees), []⟩ := by
  rw [List.foldl_map, List.foldl_filterMap]
  refine foldlM_eq_ok_iff (fun callees => ⟨p.pushCaller m method spec callees, []⟩) d.ValidTarget
    _ (fun _ => True) (fun _ => rfl) addTarget_errors ?_ (fun _ _ _ _ => trivial) trivial faultless
  intro written _ callees _ c faultless
  have headed' : (p.pushCaller m method spec callees).headers = d.headers := by simpa using headed
  have found := lookup_eq_ok_iff (b := ⟨p.pushCaller m method spec callees, []⟩) headed' written
  unfold addTarget
  cases looked : lookup ⟨p.pushCaller m method spec callees, []⟩ written with
  | error cause =>
      constructor
      · intro added
        cases added
      · rintro ⟨⟨i, resolved, _⟩, _⟩
        cases looked.symm.trans ((found i).mpr ⟨i, resolved, rfl⟩)
  | ok callee =>
      obtain ⟨i, resolved, rfl⟩ := (found callee).mp looked
      cases concrete : d.isConcrete i with
      | true =>
          simp only [addEdge_pushCaller headed callees concrete, resolved, Except.ok.injEq]
          exact ⟨fun same => ⟨⟨i, resolved, concrete⟩, same.symm⟩, fun both => both.2.symm⟩
      | false =>
          constructor
          · intro added
            cases added
            exact absurd faultless (addEdge_abstract headed' concrete)
          · rintro ⟨⟨j, again, isConcrete⟩, _⟩
            cases resolved.symm.trans again
            simp [concrete] at isConcrete

theorem addDirectEdge_pushCaller (headed : p.headers = d.headers) {sig : Signature}
    (read : Signature.parse statement.invoke = .ok sig) :
    addDirectEdge ⟨p.pushCaller m method spec [], []⟩ p.stmts.size sig =
      ⟨p.pushCaller m method spec (((d.directCalls statement).map Int.ofNat).foldl appendNew []),
        []⟩ := by
  have headed' : (p.pushCaller m method spec []).headers = d.headers := by simpa using headed
  unfold addDirectEdge directCalls
  simp only [methodByKey?_of_ok headed' read]
  cases d.resolve? statement.invoke with
  | none => rfl
  | some i =>
      have concrete : ((p.pushCaller m method spec []).method? i).any Method.concrete =
          d.isConcrete i := by
        rw [Bool.eq_iff_iff, isConcrete_iff headed', Option.any_eq_true]
      simp only [Option.map_some, Int.ofNat_eq_natCast, concrete]
      cases concrete : d.isConcrete i with
      | true =>
          simp only [addEdge_pushCaller headed [] concrete, if_true]
          simp [concrete]
      | false => simp [concrete]

theorem addDirectEdge_errors {b : Builder} {s : StmtId} {sig : Signature}
    (faultless : (addDirectEdge b s sig).errors = []) : b.errors = [] := by
  unfold addDirectEdge at faultless
  split at faultless
  · split at faultless
    · exact Builder.addEdge_errors faultless
    · exact faultless
  · exact faultless

theorem parse_nil : Signature.parse [] = .error .notEnclosed := rfl

/-- The invocation of a statement, if it has one, can be read. -/
def Readable (statement : StatementEntry) : Prop :=
  statement.invoke = [] ∨ (keyOf? statement.invoke).isSome

/-- The invocation of a statement can be read, and all its targets can be called. -/
def ValidStatement (d : Description) (statement : StatementEntry) : Prop :=
  Readable statement ∧ ∀ written ∈ statement.targets, d.ValidTarget written

theorem addStatement_of_readable (readable : Readable statement) (name : Text) (b : Builder)
    (index : Nat) :
    let opened := b.addStatement m statement.spec
    let s := opened.2.getD (-1)
    addStatement m name b index statement =
      statement.targets.foldlM (addTarget s (.badStatement index name))
        (match statement.spec.target with
        | some sig => addDirectEdge opened.1 s sig
        | none => opened.1) := by
  by_cases silent : statement.invoke = []
  · simp only [addStatement, StatementEntry.spec, silent, parse_nil]
    rfl
  · cases read : Signature.parse statement.invoke with
    | error cause => simp [Readable, silent, keyOf?_of_error read] at readable
    | ok sig =>
        simp only [addStatement, StatementEntry.spec, List.isEmpty_iff, silent, read]
        rfl

theorem readable_of_addStatement {name : Text} {b c : Builder} {index : Nat}
    (added : addStatement m name b index statement = .ok c) : Readable statement := by
  by_cases silent : statement.invoke = []
  · exact Or.inl silent
  · cases read : Signature.parse statement.invoke with
    | error cause => simp [addStatement, silent, read, bind, Except.bind] at added
    | ok sig => exact Or.inr (by simp [keyOf?_of_ok read])

theorem addStatement_errors {name : Text} {b c : Builder} {index : Nat}
    (added : addStatement m name b index statement = .ok c) (faultless : c.errors = []) :
    b.errors = [] := by
  rw [addStatement_of_readable (readable_of_addStatement added)] at added
  have edged := foldlM_errors addTarget_errors added faultless
  split at edged
  · exact Builder.addStatement_errors (addDirectEdge_errors edged)
  · exact Builder.addStatement_errors edged

/-- Adding a statement to a concrete method. -/
theorem addStatement_eq_ok_iff (headed : p.headers = d.headers) (known : p.method? m = some method)
    (concrete : method.concrete = true) (name : Text) (index : Nat) {c : Builder}
    (faultless : c.errors = []) :
    addStatement m name ⟨p, []⟩ index statement = .ok c ↔ d.ValidStatement statement ∧
      c = ⟨p.pushCaller m method statement.spec (d.callees statement), []⟩ := by
  have opened : Builder.addStatement ⟨p, []⟩ m statement.spec =
      (⟨p.pushCaller m method statement.spec [], []⟩, some (p.stmts.size : StmtId)) := by
    simp only [Builder.addStatement, known, concrete]
    rfl
  have edged : (match statement.spec.target with
      | some sig => addDirectEdge ⟨p.pushCaller m method statement.spec [], []⟩ p.stmts.size sig
      | none => ⟨p.pushCaller m method statement.spec [], []⟩) =
      ⟨p.pushCaller m method statement.spec
        (((d.directCalls statement).map Int.ofNat).foldl appendNew []), []⟩ := by
    cases read : Signature.parse statement.invoke with
    | error cause =>
        simp [StatementEntry.spec, read, Except.toOption, directCalls, resolve?_of_error read]
    | ok sig =>
        rw [← addDirectEdge_pushCaller headed read]
        simp [StatementEntry.spec, read, Except.toOption]
  have called : d.callees statement =
      ((statement.targets.filterMap d.resolve?).map Int.ofNat).foldl appendNew
        (((d.directCalls statement).map Int.ofNat).foldl appendNew []) := by
    rw [callees, List.map_append, List.foldl_append]
  have added (readable : Readable statement) : addStatement m name ⟨p, []⟩ index statement =
      statement.targets.foldlM (addTarget p.stmts.size (.badStatement index name))
        ⟨p.pushCaller m method statement.spec
          (((d.directCalls statement).map Int.ofNat).foldl appendNew []), []⟩ := by
    rw [addStatement_of_readable readable, ← edged, opened]
    rfl
  rw [called]
  constructor
  · intro done
    have readable := readable_of_addStatement done
    rw [added readable] at done
    obtain ⟨valid, final⟩ := (addTargets_eq_ok_iff headed _ _ _ faultless).mp done
    exact ⟨⟨readable, valid⟩, final⟩
  · rintro ⟨⟨readable, valid⟩, final⟩
    rw [added readable]
    exact (addTargets_eq_ok_iff headed _ _ _ faultless).mpr ⟨valid, final⟩

/-- The program with one more described statement. -/
def place (d : Description) (m : Nat) (p : Program) (statement : StatementEntry) : Program :=
  match p.method? m with
  | some method => p.pushCaller m method statement.spec (d.callees statement)
  | none => p

/-- The program with the described body and exception ranges of a method. -/
def placeBody (d : Description) (p : Program) (entry : MethodEntry) (m : Nat) : Program :=
  entry.traps.foldl (fun p trap => p.pushRange m trap.range) (entry.body.foldl (d.place m) p)

theorem place_headers (headed : p.headers = d.headers) (m : Nat) :
    (d.place m p statement).headers = d.headers := by
  unfold place
  split
  · simpa using headed
  · exact headed

theorem foldl_place_headers (headed : p.headers = d.headers) (m : Nat)
    (body : List StatementEntry) : (body.foldl (d.place m) p).headers = d.headers :=
  List.foldlRecOn (motive := fun p => p.headers = d.headers) body (d.place m) headed
    fun _ headed _ _ => place_headers headed m

def ValidTrap (trap : TrapEntry) : Prop := 0 ≤ trap.first ∧ trap.first ≤ trap.last

/-- What a body and its exception ranges have to satisfy. -/
def ValidBody (d : Description) (entry : MethodEntry) : Prop :=
  (∀ statement ∈ entry.body, d.ValidStatement statement) ∧ ∀ trap ∈ entry.traps, ValidTrap trap

variable {entry : MethodEntry}

theorem addTraps_eq_ok_iff {m : Nat} (known : ∃ method, p.method? m = some method)
    (traps : List TrapEntry) {c : Builder} (faultless : c.errors = []) :
    (pure (traps.foldl (fun b trap => b.addTrap m ⟨trap.first, trap.last, trap.caught⟩) ⟨p, []⟩) :
        Except DescriptionError Builder) = .ok c ↔
      (∀ trap ∈ traps, ValidTrap trap) ∧
        c = ⟨traps.foldl (fun p trap => p.pushRange m trap.range) p, []⟩ := by
  rw [← List.foldlM_pure]
  refine foldlM_eq_ok_iff (fun p => ⟨p, []⟩) ValidTrap _
    (fun p => ∃ method, p.method? m = some method) (fun _ => rfl) ?_ ?_ ?_ known faultless
  · intro b trap c added faultless
    cases added
    exact Builder.addTrap_errors faultless
  · rintro trap _ p ⟨method, known⟩ c faultless
    simp only [Builder.addTrap, known, pure, Except.pure, Except.ok.injEq]
    split
    · rename_i invalid
      constructor
      · rintro rfl
        exact absurd faultless (Builder.fail_errors _ _)
      · rintro ⟨⟨first, last⟩, _⟩
        omega
    · rename_i valid
      refine ⟨fun same => ⟨⟨?_, ?_⟩, same.symm⟩, fun both => both.2.symm⟩ <;> omega
  · rintro trap _ p ⟨method, known⟩
    rw [pushRange_method? known]
    exact ⟨_, if_pos rfl⟩

theorem addTraps_errors {b c : Builder} {m : MethodId} {traps : List TrapEntry}
    (added : (pure (traps.foldl (fun b trap =>
      b.addTrap m ⟨trap.first, trap.last, trap.caught⟩) b) : Except DescriptionError Builder) =
        .ok c)
    (faultless : c.errors = []) : b.errors = [] := by
  rw [← List.foldlM_pure] at added
  refine foldlM_errors ?_ added faultless
  intro b trap c added faultless
  cases added
  exact Builder.addTrap_errors faultless

theorem addBody_errors {b c : Builder} {m : Nat} (added : addBody b m entry = .ok c)
    (faultless : c.errors = []) : b.errors = [] := by
  obtain ⟨next, placed, trapped⟩ := bind_eq_ok_iff.mp added
  exact foldlM_errors (fun stated => addStatement_errors stated) placed
    (addTraps_errors trapped faultless)

/-- Adding the statements of a described method, of which an abstract one has none. -/
theorem addStatements_eq_ok_iff {m : Nat} (headed : p.headers = d.headers)
    (described : d.methods[m]? = some entry) (lawful : entry.concrete = false → entry.body = [])
    {c : Builder} (faultless : c.errors = []) :
    entry.body.zipIdx.foldlM (fun b (statement, index) =>
        addStatement m entry.signature b index statement) ⟨p, []⟩ = .ok c ↔
      (∀ statement ∈ entry.body, d.ValidStatement statement) ∧
        c = ⟨entry.body.foldl (d.place m) p, []⟩ := by
  rw [forall_mem_zipIdx_fst, foldl_zipIdx_fst]
  refine foldlM_eq_ok_iff (fun p => ⟨p, []⟩)
    (fun (x : StatementEntry × Nat) => d.ValidStatement x.1) _ (fun p => p.headers = d.headers)
    (fun _ => rfl) (fun stated => addStatement_errors stated) ?_
    (fun x _ p headed => place_headers headed m) headed faultless
  rintro ⟨statement, index⟩ member p headed c faultless
  obtain ⟨method, known, _, concrete, _⟩ := method_of_entry headed described
  have isConcrete : method.concrete = true := by
    rw [concrete]
    cases kind : entry.concrete with
    | true => rfl
    | false => simp [lawful kind] at member
  simp only [place, known]
  exact addStatement_eq_ok_iff headed known isConcrete entry.signature index faultless

/-- Adding the body of a described method, which is empty if the method is abstract. -/
theorem addBody_eq_ok_iff {m : Nat} (headed : p.headers = d.headers)
    (described : d.methods[m]? = some entry) (lawful : entry.concrete = false → entry.body = [])
    {c : Builder} (faultless : c.errors = []) :
    addBody ⟨p, []⟩ m entry = .ok c ↔ d.ValidBody entry ∧ c = ⟨d.placeBody p entry m, []⟩ := by
  obtain ⟨method, known, _⟩ := method_of_entry (foldl_place_headers headed m entry.body) described
  have traps := addTraps_eq_ok_iff ⟨method, known⟩ entry.traps faultless
  rw [addBody, bind_eq_ok_iff]
  constructor
  · rintro ⟨next, placed, trapped⟩
    obtain ⟨valid, rfl⟩ := (addStatements_eq_ok_iff headed described lawful
      (addTraps_errors trapped faultless)).mp placed
    obtain ⟨validTraps, final⟩ := traps.mp trapped
    exact ⟨⟨valid, validTraps⟩, final⟩
  · rintro ⟨⟨valid, validTraps⟩, final⟩
    exact ⟨_, (addStatements_eq_ok_iff headed described lawful rfl).mpr ⟨valid, rfl⟩,
      traps.mpr ⟨validTraps, final⟩⟩

/-! ### Whole descriptions -/

/-- The recorded supertypes, the types in increasing order. -/
def supertypes (d : Description) : List (Text × Text) :=
  (d.hierarchy.mergeSort fun x y => x.1.le y.1).flatMap fun (child, parents) =>
    parents.map fun parent => (child, parent)

/-- A hierarchy with more recorded supertypes. -/
def record (h : Hierarchy) (records : List (Text × Text)) : Hierarchy :=
  records.foldl (fun h (child, parent) => h.addSubtype child parent) h

/-- The program before any method is described. -/
def frame (d : Description) : Program :=
  { Program.empty with
    hierarchy := record Hierarchy.empty d.supertypes
    permissions := d.permissions }

theorem addHierarchy_eq (d : Description) :
    addHierarchy d.hierarchy (Builder.empty.setPermissions d.permissions) = ⟨d.frame, []⟩ := by
  have recorded (records : List (Text × Text)) (b : Builder) :
      records.foldl (fun b (child, parent) => b.addSubtype child parent) b =
        { b with program.hierarchy := record b.program.hierarchy records } := by
    induction records generalizing b with
    | nil => rfl
    | cons record records ih => rw [List.foldl_cons, ih]; rfl
  have flat := recorded d.supertypes (Builder.empty.setPermissions d.permissions)
  rw [supertypes, List.foldl_flatMap] at flat
  simp only [List.foldl_map] at flat
  exact flat

/-- The program with one more described method, still without its body. -/
def declare (p : Program) (entry : MethodEntry) : Program :=
  match Signature.parse entry.signature with
  | .ok sig => p.pushMethod sig entry.concrete entry.library
  | .error _ => p

/-- The signature of a method can be read, and the method has no body if it is abstract. -/
def ValidMethod (entry : MethodEntry) : Prop :=
  (keyOf? entry.signature).isSome ∧ (entry.concrete = false → entry.body = [])

theorem addMethod_eq_ok_iff (index : Nat) {c : Builder} :
    addMethod ⟨p, []⟩ index entry = .ok c ↔ ValidMethod entry ∧ c = ⟨declare p entry, []⟩ := by
  unfold addMethod declare
  cases read : Signature.parse entry.signature with
  | error cause => simp [ValidMethod, keyOf?_of_error read]
  | ok sig =>
      have lawful : (!entry.concrete && !entry.body.isEmpty) = false ↔
          (entry.concrete = false → entry.body = []) := by
        cases entry.concrete <;> simp
      simp only [ValidMethod, keyOf?_of_ok read, Option.isSome_some, true_and, ← lawful]
      split
      · rename_i unlawful
        simp [unlawful]
      · rename_i isLawful
        simp only [Bool.not_eq_true] at isLawful
        simp only [isLawful, true_and, Except.ok.injEq]
        exact eq_comm

theorem addMethod_errors {b c : Builder} {index : Nat} (added : addMethod b index entry = .ok c)
    (faultless : c.errors = []) : b.errors = [] := by
  unfold addMethod at added
  split at added
  · cases added
  · split at added
    · cases added
    · cases added
      exact faultless

theorem addMethods_eq_ok_iff (d : Description) {c : Builder} (faultless : c.errors = []) :
    d.methods.zipIdx.foldlM (fun b (entry, index) => addMethod b index entry) ⟨d.frame, []⟩ =
        .ok c ↔
      (∀ entry ∈ d.methods, ValidMethod entry) ∧ c = ⟨d.methods.foldl declare d.frame, []⟩ := by
  rw [forall_mem_zipIdx_fst, foldl_zipIdx_fst]
  refine foldlM_eq_ok_iff (fun p => ⟨p, []⟩) (fun (x : MethodEntry × Nat) => ValidMethod x.1) _
    (fun _ => True) (fun _ => rfl) ?_ (fun x _ p _ c _ => addMethod_eq_ok_iff x.2)
    (fun _ _ _ _ => trivial) trivial faultless
  exact fun added => addMethod_errors added

theorem declared_headers {entries : List MethodEntry}
    (valid : ∀ entry ∈ entries, ValidMethod entry) (p : Program) :
    (entries.foldl declare p).headers = p.headers ++ entries.map fun entry =>
      (Signature.parse entry.signature, entry.concrete, entry.library) := by
  induction entries generalizing p with
  | nil => simp
  | cons entry entries ih =>
      rw [List.foldl_cons, ih fun later member => valid later (List.mem_cons_of_mem _ member)]
      have readable := (valid entry List.mem_cons_self).1
      cases read : Signature.parse entry.signature with
      | error cause => simp [keyOf?_of_error read] at readable
      | ok sig => simp [declare, read, pushMethod_headers]

theorem frame_declared_headers (valid : ∀ entry ∈ d.methods, ValidMethod entry) :
    (d.methods.foldl declare d.frame).headers = d.headers := by
  rw [declared_headers valid]
  rfl

theorem placeBody_headers (headed : p.headers = d.headers) (entry : MethodEntry) (m : Nat) :
    (d.placeBody p entry m).headers = d.headers :=
  List.foldlRecOn (motive := fun p => p.headers = d.headers) entry.traps _
    (foldl_place_headers headed m entry.body)
    fun p headed trap _ => (pushRange_headers p m trap.range).trans headed

theorem addBodies_eq_ok_iff (headed : p.headers = d.headers)
    (valid : ∀ entry ∈ d.methods, ValidMethod entry) {c : Builder} (faultless : c.errors = []) :
    d.methods.zipIdx.foldlM (fun b (entry, index) => addBody b index entry) ⟨p, []⟩ = .ok c ↔
      (∀ entry ∈ d.methods, d.ValidBody entry) ∧
        c = ⟨d.methods.zipIdx.foldl (fun p (entry, m) => d.placeBody p entry m) p, []⟩ := by
  rw [forall_mem_zipIdx_fst]
  refine foldlM_eq_ok_iff (fun p => ⟨p, []⟩) (fun (x : MethodEntry × Nat) => d.ValidBody x.1) _
    (fun p => p.headers = d.headers) (fun _ => rfl) (fun added => addBody_errors added) ?_
    (fun x _ p headed => placeBody_headers headed x.1 x.2) headed faultless
  rintro ⟨entry, m⟩ member p headed c faultless
  have described : d.methods[m]? = some entry := List.mem_zipIdx_iff_getElem?.mp member
  exact addBody_eq_ok_iff headed described (valid entry (List.mem_of_getElem? described)).2
    faultless

/-- The program with one more entry point. -/
def enter (d : Description) (p : Program) (written : Text) : Program :=
  match d.resolve? written with
  | some m => { p with entryPoints := p.entryPoints ++ [(m : MethodId)] }
  | none => p

theorem addEntryPoint_errors {b c : Builder} {written : Text}
    (added : addEntryPoint b written = .ok c) (faultless : c.errors = []) : b.errors = [] := by
  unfold addEntryPoint at added
  split at added
  · cases added
    exact Builder.addEntryPoint_errors faultless
  · cases added

theorem addEntryPoints_eq_ok_iff (headed : p.headers = d.headers) {c : Builder}
    (faultless : c.errors = []) :
    d.entryPoints.foldlM addEntryPoint ⟨p, []⟩ = .ok c ↔
      (∀ written ∈ d.entryPoints, (d.resolve? written).isSome) ∧
        c = ⟨d.entryPoints.foldl d.enter p, []⟩ := by
  refine foldlM_eq_ok_iff (fun p => ⟨p, []⟩) (fun written => (d.resolve? written).isSome) _
    (fun p => p.headers = d.headers) (fun _ => rfl) ?_ ?_ ?_ headed faultless
  · exact fun added => addEntryPoint_errors added
  · intro written _ p headed c _
    have found := lookup_eq_ok_iff (b := ⟨p, []⟩) headed written
    unfold addEntryPoint
    cases resolved : d.resolve? written with
    | none =>
        cases looked : lookup ⟨p, []⟩ written with
        | error cause => simp
        | ok callee =>
            obtain ⟨m, again, _⟩ := (found callee).mp looked
            cases resolved.symm.trans again
    | some m =>
        obtain ⟨entry, described, _⟩ := described_of_resolve? resolved
        obtain ⟨method, known, _⟩ := method_of_entry headed described
        simp only [(found m).mpr ⟨m, resolved, rfl⟩, Builder.addEntryPoint, known, enter, resolved,
          Option.isSome_some, true_and, Except.ok.injEq]
        exact eq_comm
  · intro written _ p headed
    unfold enter
    split <;> exact headed

theorem foldl_placeBody_headers (headed : p.headers = d.headers)
    (entries : List (MethodEntry × Nat)) :
    (entries.foldl (fun p (entry, m) => d.placeBody p entry m) p).headers = d.headers :=
  List.foldlRecOn (motive := fun p : Program => p.headers = d.headers) entries _ headed
    fun _ headed x _ => placeBody_headers headed x.1 x.2

/-- The program that a description denotes: its methods, then their bodies and exception ranges,
then the entry points. -/
def program (d : Description) : Program :=
  d.entryPoints.foldl d.enter (d.methods.zipIdx.foldl (fun p (entry, m) => d.placeBody p entry m)
    (d.methods.foldl declare d.frame))

/-- A description is accepted when its entries are valid and no successor leaves its body, and the
program built is the one that it denotes. -/
theorem toArena_eq_ok_iff_program {a : Arena} : d.toArena = .ok a ↔
    (∀ entry ∈ d.methods, ValidMethod entry) ∧ (∀ entry ∈ d.methods, d.ValidBody entry) ∧
      (∀ written ∈ d.entryPoints, (d.resolve? written).isSome) ∧
      d.program.methods.toList.flatMap (Builder.strayedSuccessors d.program) = [] ∧
      a = Arena.ofProgram d.program := by
  simp only [toArena, addHierarchy_eq, bind_eq_ok_iff]
  constructor
  · rintro ⟨first, declared, second, placed, third, entered, built⟩
    split at built
    · rename_i arena finished
      cases built
      obtain ⟨faultless, noStrays, rfl⟩ := Builder.build_eq_ok_iff.mp finished
      have clean := foldlM_errors (fun added => addEntryPoint_errors added) entered faultless
      have clean' := foldlM_errors (fun added => addBody_errors added) placed clean
      obtain ⟨validMethods, rfl⟩ := (addMethods_eq_ok_iff d clean').mp declared
      have headed := frame_declared_headers validMethods
      obtain ⟨validBodies, rfl⟩ := (addBodies_eq_ok_iff headed validMethods clean).mp placed
      obtain ⟨validEntries, rfl⟩ :=
        (addEntryPoints_eq_ok_iff (foldl_placeBody_headers headed _) faultless).mp entered
      exact ⟨validMethods, validBodies, validEntries, noStrays, rfl⟩
    · cases built
  · rintro ⟨validMethods, validBodies, validEntries, noStrays, rfl⟩
    have headed := frame_declared_headers validMethods
    have finished := (Builder.build_eq_ok_iff (b := ⟨d.program, []⟩)).mpr ⟨rfl, noStrays, rfl⟩
    refine ⟨_, (addMethods_eq_ok_iff d rfl).mpr ⟨validMethods, rfl⟩,
      _, (addBodies_eq_ok_iff headed validMethods rfl).mpr ⟨validBodies, rfl⟩,
      ⟨d.program, []⟩, (addEntryPoints_eq_ok_iff (foldl_placeBody_headers headed _) rfl).mpr
        ⟨validEntries, rfl⟩, ?_⟩
    simp only [finished]
    rfl

end Description

end PermissionGuard
