import PermissionGuard.Program.Builder

/-!
What every sequence of construction steps keeps true of the program under construction: numbers are
positions, bodies and statements name each other, and call edges lead into concrete methods.
-/

namespace PermissionGuard

theorem getElem?_concat_eq_some {α : Type} {list : List α} {x y : α} {k : Nat} :
    (list ++ [x])[k]? = some y ↔ list[k]? = some y ∨ k = list.length ∧ y = x := by
  rcases Nat.lt_trichotomy k list.length with below | rfl | beyond
  · simp [List.getElem?_append_left below, Nat.ne_of_lt below]
  · simp [eq_comm]
  · have outside : list[k]? = none := List.getElem?_eq_none (Nat.le_of_lt beyond)
    have outside' : (list ++ [x])[k]? = none := by
      rw [List.getElem?_eq_none_iff, List.length_append, List.length_singleton]
      exact beyond
    rw [outside, outside']
    simp [Nat.ne_of_gt beyond]

namespace Program

variable {α : Type} {entries : Array α} {x : α} {id : Int}

theorem entry?_eq_some_iff :
    entry? entries id = some x ↔ 0 ≤ id ∧ entries[id.toNat]? = some x := by
  unfold entry?
  by_cases negative : id < 0
  · rw [if_pos negative]
    constructor
    · intro found
      cases found
    · intro found
      exact absurd negative (Int.not_lt.mpr found.1)
  · rw [if_neg negative]
    exact ⟨fun found => ⟨Int.not_lt.mp negative, found⟩, fun found => found.2⟩

theorem entry?_natCast (entries : Array α) (i : Nat) : entry? entries (i : Int) = entries[i]? := by
  have nonnegative : ¬ (i : Int) < 0 := by omega
  simp [ entry?, nonnegative]

theorem entry?_push (entries : Array α) (x : α) (id : Int) :
    entry? (entries.push x) id = if id = entries.size then some x else entry? entries id := by
  unfold entry?
  by_cases negative : id < 0
  · have other : id ≠ entries.size := by omega
    simp [negative, other]
  · have same : id.toNat = entries.size ↔ id = entries.size := by omega
    simp [negative, Array.getElem?_push, same]

theorem entry?_modify {key : Int} (known : entry? entries key = some x) (f : α → α) (id : Int) :
    entry? (entries.modify key.toNat f) id =
      if id = key then some (f x) else entry? entries id := by
  obtain ⟨nonnegative, found⟩ := entry?_eq_some_iff.mp known
  unfold entry?
  by_cases negative : id < 0
  · have other : id ≠ key := by omega
    simp [negative, other]
  · have same : key.toNat = id.toNat ↔ id = key := by omega
    by_cases equal : id = key
    · subst id
      simp [negative, Array.getElem?_modify, found]
    · simp [negative, Array.getElem?_modify, same, equal]

theorem entry?_map {β : Type} (f : α → β) (entries : Array α) (id : Int) :
    entry? (entries.map f) id = ( entry? entries id).map f := by
  unfold entry?
  split
  · rfl
  · rw [Array.getElem?_map]

theorem entry?_lt (known : entry? entries id = some x) : id < entries.size := by
  obtain ⟨nonnegative, found⟩ := entry?_eq_some_iff.mp known
  have bound := (Array.getElem?_eq_some_iff.mp found).1
  omega

def pushMethod (p : Program) (sig : Signature) (concrete library : Bool) : Program :=
  { p with methods := p.methods.push ⟨p.methods.size, sig, concrete, library, [], []⟩ }

/-- The program with one more statement at the end of the body of a method. -/
def pushStatement (p : Program) (m : MethodId) (method : Method) (spec : StatementSpec) :
    Program :=
  { p with
    stmts := p.stmts.push
      ⟨p.stmts.size, m, method.body.length, spec.target, spec.succs, spec.line, []⟩
    methods := p.methods.modify m.toNat fun method =>
      { method with body := method.body ++ [(p.stmts.size : StmtId)] } }

def pushCallee (p : Program) (s : StmtId) (callee : MethodId) : Program :=
  { p with stmts := p.stmts.modify s.toNat fun st => { st with callees := st.callees ++ [callee] } }

def pushRange (p : Program) (m : MethodId) (range : ExceptionRange) : Program :=
  { p with methods := p.methods.modify m.toNat fun method =>
      { method with traps := method.traps ++ [range] } }

/-- What one construction step can do to a program. -/
inductive Edit (p : Program) : Program → Prop
  | unchanged : Edit p p
  | method (sig : Signature) (concrete library : Bool) : Edit p (p.pushMethod sig concrete library)
  | statement {m : MethodId} {method : Method} (spec : StatementSpec)
      (known : p.method? m = some method) (isConcrete : method.concrete = true) :
      Edit p (p.pushStatement m method spec)
  | edge {s : StmtId} {st : Statement} {callee : MethodId} {method : Method}
      (caller : p.statement? s = some st) (known : p.method? callee = some method)
      (isConcrete : method.concrete = true) (new : callee ∉ st.callees) :
      Edit p (p.pushCallee s callee)
  | trap {m : MethodId} {method : Method} {range : ExceptionRange}
      (known : p.method? m = some method) (valid : 0 ≤ range.first ∧ range.first ≤ range.last) :
      Edit p (p.pushRange m range)
  | subtype (child parent : Text) :
      Edit p { p with hierarchy := p.hierarchy.addSubtype child parent }
  | entryPoint {m : MethodId} {method : Method} (known : p.method? m = some method) :
      Edit p { p with entryPoints := p.entryPoints ++ [m] }
  | permissions (permissions : List Text) : Edit p { p with permissions := permissions }

/-- The representation invariant of programs. -/
structure WellFormed (p : Program) : Prop where
  method_id : ∀ {m method}, p.method? m = some method → method.id = m
  statement_id : ∀ {s st}, p.statement? s = some st → st.id = s
  /-- The statement at a position of a body knows the body and the position. -/
  body_statement : ∀ {m method i s}, p.method? m = some method → method.body[i]? = some s →
    ∃ st, p.statement? s = some st ∧ st.method = m ∧ st.index = i
  /-- A statement stands in the body of its method, at its position. -/
  placed : ∀ {s st}, p.statement? s = some st →
    ∃ method, p.method? st.method = some method ∧ method.body[st.index]? = some s
  body_increasing : ∀ {m method}, p.method? m = some method → method.body.Pairwise (· < ·)
  body_concrete : ∀ {m method s}, p.method? m = some method → s ∈ method.body →
    method.concrete = true
  callees_concrete : ∀ {s st m}, p.statement? s = some st → m ∈ st.callees →
    ∃ method, p.method? m = some method ∧ method.concrete = true
  callees_nodup : ∀ {s st}, p.statement? s = some st → st.callees.Nodup
  entryPoint_known : ∀ {m}, m ∈ p.entryPoints → ∃ method, p.method? m = some method

variable {p : Program}

theorem empty_wellFormed : empty.WellFormed := by
  have noMethod (m : MethodId) : empty.method? m = none := by simp [method?, entry?, empty]
  have noStatement (s : StmtId) : empty.statement? s = none := by
    simp [statement?, entry?, empty]
  constructor <;> simp [noMethod, noStatement]
  simp [empty]

theorem pushMethod_method? (p : Program) (sig : Signature) (concrete library : Bool)
    (m : MethodId) : (p.pushMethod sig concrete library).method? m =
      if m = p.methods.size then some ⟨p.methods.size, sig, concrete, library, [], []⟩
      else p.method? m :=
  entry?_push _ _ m

theorem pushStatement_statement? (p : Program) (m : MethodId) (method : Method)
    (spec : StatementSpec) (s : StmtId) : (p.pushStatement m method spec).statement? s =
      if s = p.stmts.size then
        some ⟨p.stmts.size, m, method.body.length, spec.target, spec.succs, spec.line, []⟩
      else p.statement? s :=
  entry?_push _ _ s

theorem pushStatement_method? {m : MethodId} {method : Method} (known : p.method? m = some method)
    (spec : StatementSpec) (m' : MethodId) : (p.pushStatement m method spec).method? m' =
      if m' = m then some { method with body := method.body ++ [(p.stmts.size : StmtId)] }
      else p.method? m' :=
  entry?_modify known _ m'

theorem pushStatement_statement_cases {m : MethodId} {method : Method} {spec : StatementSpec}
    {s : StmtId} {st : Statement}
    (found : (p.pushStatement m method spec).statement? s = some st) :
    s = p.stmts.size ∧
        st = ⟨p.stmts.size, m, method.body.length, spec.target, spec.succs, spec.line, []⟩ ∨
      p.statement? s = some st := by
  rw [pushStatement_statement?] at found
  split at found
  · rename_i same
    cases found
    exact Or.inl ⟨same, rfl⟩
  · exact Or.inr found

theorem pushStatement_method_cases {m m' : MethodId} {method new : Method} {spec : StatementSpec}
    (known : p.method? m = some method)
    (found : (p.pushStatement m method spec).method? m' = some new) :
    m' = m ∧ new = { method with body := method.body ++ [(p.stmts.size : StmtId)] } ∨
      p.method? m' = some new := by
  rw [pushStatement_method? known] at found
  split at found
  · rename_i same
    cases found
    exact Or.inl ⟨same, rfl⟩
  · exact Or.inr found

/-- The new statement has the first free number. -/
theorem pushStatement_statement_kept {m : MethodId} {method : Method} {spec : StatementSpec}
    {s : StmtId} {st : Statement} (old : p.statement? s = some st) :
    (p.pushStatement m method spec).statement? s = some st := by
  rw [pushStatement_statement?, if_neg (Int.ne_of_lt (entry?_lt old)), old]

/-- Bodies only grow at their end. -/
theorem pushStatement_method_kept {m m' : MethodId} {method old : Method} {spec : StatementSpec}
    (known : p.method? m = some method) (found : p.method? m' = some old) :
    ∃ new, (p.pushStatement m method spec).method? m' = some new ∧ new.concrete = old.concrete ∧
      ∀ {i : Nat} {s}, old.body[i]? = some s → new.body[i]? = some s := by
  rw [pushStatement_method? known]
  split
  · rename_i same
    subst m'
    cases known.symm.trans found
    refine ⟨_, rfl, rfl, ?_⟩
    intro i s position
    rw [List.getElem?_append_left (List.getElem?_eq_some_iff.mp position).1, position]
  · exact ⟨old, found, rfl, fun position => position⟩

theorem pushCallee_statement? {s : StmtId} {st : Statement} (caller : p.statement? s = some st)
    (callee : MethodId) (s' : StmtId) : (p.pushCallee s callee).statement? s' =
      if s' = s then some { st with callees := st.callees ++ [callee] } else p.statement? s' :=
  entry?_modify caller _ s'

theorem pushRange_method? {m : MethodId} {method : Method} (known : p.method? m = some method)
    (range : ExceptionRange) (m' : MethodId) : (p.pushRange m range).method? m' =
      if m' = m then some { method with traps := method.traps ++ [range] } else p.method? m' :=
  entry?_modify known _ m'

namespace WellFormed

theorem pushMethod (wellFormed : p.WellFormed) (sig : Signature) (concrete library : Bool) :
    (p.pushMethod sig concrete library).WellFormed := by
  -- What was known keeps its number, which is below the new one.
  have kept {m : MethodId} {method : Method} (known : p.method? m = some method) :
      (p.pushMethod sig concrete library).method? m = some method := by
    rw [pushMethod_method?, if_neg (Int.ne_of_lt (entry?_lt known)), known]
  have before {m : MethodId} {method : Method}
      (found : (p.pushMethod sig concrete library).method? m = some method) :
      method.id = m ∧ method.body = [] ∨ p.method? m = some method := by
    rw [pushMethod_method?] at found
    split at found
    · rename_i same
      cases found
      exact Or.inl ⟨same.symm, rfl⟩
    · exact Or.inr found
  constructor
  case method_id =>
    intro m method found
    rcases before found with new | old
    · exact new.1
    · exact wellFormed.method_id old
  case statement_id =>
    exact wellFormed.statement_id
  case body_statement =>
    intro m method i s found position
    rcases before found with new | old
    · simp [new.2] at position
    · exact wellFormed.body_statement old position
  case placed =>
    intro s st found
    obtain ⟨method, known, position⟩ := wellFormed.placed found
    exact ⟨method, kept known, position⟩
  case body_increasing =>
    intro m method found
    rcases before found with new | old
    · simp [new.2]
    · exact wellFormed.body_increasing old
  case body_concrete =>
    intro m method s found member
    rcases before found with new | old
    · simp [new.2] at member
    · exact wellFormed.body_concrete old member
  case callees_concrete =>
    intro s st m found callee
    obtain ⟨method, known, isConcrete⟩ := wellFormed.callees_concrete found callee
    exact ⟨method, kept known, isConcrete⟩
  case callees_nodup =>
    exact wellFormed.callees_nodup
  case entryPoint_known =>
    intro m member
    obtain ⟨method, known⟩ := wellFormed.entryPoint_known member
    exact ⟨method, kept known⟩

theorem body_below (wellFormed : p.WellFormed) {m : MethodId} {method : Method} {s : StmtId}
    (known : p.method? m = some method) (member : s ∈ method.body) : s < p.stmts.size := by
  obtain ⟨i, position⟩ := List.getElem?_of_mem member
  obtain ⟨st, old, _⟩ := wellFormed.body_statement known position
  exact entry?_lt old

theorem pushStatement (wellFormed : p.WellFormed) {m : MethodId} {method : Method}
    (spec : StatementSpec) (known : p.method? m = some method)
    (isConcrete : method.concrete = true) : (p.pushStatement m method spec).WellFormed := by
  constructor
  case method_id =>
    intro m' new found
    rcases pushStatement_method_cases known found with ⟨rfl, rfl⟩ | old
    · have numbered := wellFormed.method_id known
      exact numbered
    · exact wellFormed.method_id old
  case statement_id =>
    intro s st found
    rcases pushStatement_statement_cases found with ⟨rfl, rfl⟩ | old
    · rfl
    · exact wellFormed.statement_id old
  case body_statement =>
    intro m' new i s found position
    rcases pushStatement_method_cases known found with ⟨rfl, rfl⟩ | old
    · rcases Nat.lt_or_ge i method.body.length with inside | outside
      · rw [List.getElem?_append_left inside] at position
        obtain ⟨st, there, place⟩ := wellFormed.body_statement known position
        exact ⟨st, pushStatement_statement_kept there, place⟩
      · rw [List.getElem?_append_right outside, List.getElem?_singleton] at position
        split at position
        · cases position
          refine ⟨_, by rw [pushStatement_statement?, if_pos rfl], rfl, ?_⟩
          change method.body.length = i
          omega
        · cases position
    · obtain ⟨st, there, place⟩ := wellFormed.body_statement old position
      exact ⟨st, pushStatement_statement_kept there, place⟩
  case placed =>
    intro s st found
    rcases pushStatement_statement_cases found with ⟨rfl, rfl⟩ | old
    · refine ⟨_, by rw [pushStatement_method? known, if_pos rfl], ?_⟩
      simp
    · obtain ⟨there, isMethod, position⟩ := wellFormed.placed old
      obtain ⟨new, kept, _, positions⟩ := pushStatement_method_kept known isMethod
      exact ⟨new, kept, positions position⟩
  case body_increasing =>
    intro m' new found
    rcases pushStatement_method_cases known found with ⟨rfl, rfl⟩ | old
    · refine List.pairwise_append.mpr ⟨wellFormed.body_increasing known, by simp, ?_⟩
      intro s member t last
      cases List.mem_singleton.mp last
      exact wellFormed.body_below known member
    · exact wellFormed.body_increasing old
  case body_concrete =>
    intro m' new s found member
    rcases pushStatement_method_cases known found with ⟨rfl, rfl⟩ | old
    · exact isConcrete
    · exact wellFormed.body_concrete old member
  case callees_concrete =>
    intro s st callee found member
    rcases pushStatement_statement_cases found with ⟨rfl, rfl⟩ | old
    · cases member
    · obtain ⟨there, isMethod, oldConcrete⟩ := wellFormed.callees_concrete old member
      obtain ⟨new, kept, same, _⟩ := pushStatement_method_kept known isMethod
      exact ⟨new, kept, same.trans oldConcrete⟩
  case callees_nodup =>
    intro s st found
    rcases pushStatement_statement_cases found with ⟨rfl, rfl⟩ | old
    · exact List.nodup_nil
    · exact wellFormed.callees_nodup old
  case entryPoint_known =>
    intro m' member
    obtain ⟨old, there⟩ := wellFormed.entryPoint_known member
    obtain ⟨new, kept, _⟩ := pushStatement_method_kept known there
    exact ⟨new, kept⟩

theorem pushCallee (wellFormed : p.WellFormed) {s : StmtId} {st : Statement} {callee : MethodId}
    {method : Method} (caller : p.statement? s = some st) (known : p.method? callee = some method)
    (isConcrete : method.concrete = true) (new : callee ∉ st.callees) :
    (p.pushCallee s callee).WellFormed := by
  -- Only the callees of one statement differ.
  have before {s' : StmtId} {st' : Statement}
      (found : (p.pushCallee s callee).statement? s' = some st') :
      ∃ old, p.statement? s' = some old ∧ st'.id = old.id ∧ st'.method = old.method ∧
        st'.index = old.index ∧ (st'.callees = old.callees ∨
          st'.callees = old.callees ++ [callee] ∧ callee ∉ old.callees) := by
    rw [pushCallee_statement? caller] at found
    split at found
    · rename_i same
      cases found
      exact ⟨st, same ▸ caller, rfl, rfl, rfl, Or.inr ⟨rfl, new⟩⟩
    · exact ⟨st', found, rfl, rfl, rfl, Or.inl rfl⟩
  have kept {s' : StmtId} {old : Statement} (found : p.statement? s' = some old) :
      ∃ st', (p.pushCallee s callee).statement? s' = some st' ∧ st'.method = old.method ∧
        st'.index = old.index := by
    rw [pushCallee_statement? caller]
    split
    · rename_i same
      subst s'
      cases caller.symm.trans found
      exact ⟨_, rfl, rfl, rfl⟩
    · exact ⟨old, found, rfl, rfl⟩
  constructor
  case method_id =>
    exact wellFormed.method_id
  case statement_id =>
    intro s' st' found
    obtain ⟨old, there, sameId, _⟩ := before found
    exact sameId.trans (wellFormed.statement_id there)
  case body_statement =>
    intro m method i s' found position
    obtain ⟨old, there, inMethod, atIndex⟩ := wellFormed.body_statement found position
    obtain ⟨st', after, sameMethod, sameIndex⟩ := kept there
    exact ⟨st', after, sameMethod.trans inMethod, sameIndex.trans atIndex⟩
  case placed =>
    intro s' st' found
    obtain ⟨old, there, _, sameMethod, sameIndex, _⟩ := before found
    rw [sameMethod, sameIndex]
    exact wellFormed.placed there
  case body_increasing =>
    exact wellFormed.body_increasing
  case body_concrete =>
    exact wellFormed.body_concrete
  case callees_concrete =>
    intro s' st' m found member
    obtain ⟨old, there, _, _, _, same | ⟨more, _⟩⟩ := before found
    · exact wellFormed.callees_concrete there (same ▸ member)
    · rw [more] at member
      rcases List.mem_append.mp member with earlier | last
      · exact wellFormed.callees_concrete there earlier
      · cases List.mem_singleton.mp last
        exact ⟨method, known, isConcrete⟩
  case callees_nodup =>
    intro s' st' found
    obtain ⟨old, there, _, _, _, same | ⟨more, absent⟩⟩ := before found
    · exact same ▸ wellFormed.callees_nodup there
    · rw [more, List.nodup_append]
      refine ⟨wellFormed.callees_nodup there, by simp, ?_⟩
      intro m member last final
      cases List.mem_singleton.mp final
      exact fun same => absent (same ▸ member)
  case entryPoint_known =>
    exact wellFormed.entryPoint_known

theorem pushRange (wellFormed : p.WellFormed) {m : MethodId} {method : Method}
    (range : ExceptionRange) (known : p.method? m = some method) :
    (p.pushRange m range).WellFormed := by
  -- Only the ranges of one method differ, and the invariant does not speak of them.
  have before {m' : MethodId} {new : Method}
      (found : (p.pushRange m range).method? m' = some new) :
      ∃ old, p.method? m' = some old ∧ new.id = old.id ∧ new.body = old.body ∧
        new.concrete = old.concrete := by
    rw [pushRange_method? known] at found
    split at found
    · rename_i same
      cases found
      exact ⟨method, same ▸ known, rfl, rfl, rfl⟩
    · exact ⟨new, found, rfl, rfl, rfl⟩
  have kept {m' : MethodId} {old : Method} (found : p.method? m' = some old) :
      ∃ new, (p.pushRange m range).method? m' = some new ∧ new.body = old.body ∧
        new.concrete = old.concrete := by
    rw [pushRange_method? known]
    split
    · rename_i same
      subst m'
      cases known.symm.trans found
      exact ⟨_, rfl, rfl, rfl⟩
    · exact ⟨old, found, rfl, rfl⟩
  constructor
  case method_id =>
    intro m' new found
    obtain ⟨old, there, sameId, _⟩ := before found
    exact sameId.trans (wellFormed.method_id there)
  case statement_id =>
    exact wellFormed.statement_id
  case body_statement =>
    intro m' new i s found position
    obtain ⟨old, there, _, sameBody, _⟩ := before found
    exact wellFormed.body_statement there (sameBody ▸ position)
  case placed =>
    intro s st found
    obtain ⟨old, there, position⟩ := wellFormed.placed found
    obtain ⟨new, after, sameBody, _⟩ := kept there
    exact ⟨new, after, sameBody ▸ position⟩
  case body_increasing =>
    intro m' new found
    obtain ⟨old, there, _, sameBody, _⟩ := before found
    exact sameBody ▸ wellFormed.body_increasing there
  case body_concrete =>
    intro m' new s found member
    obtain ⟨old, there, _, sameBody, sameConcrete⟩ := before found
    exact sameConcrete.trans (wellFormed.body_concrete there (sameBody ▸ member))
  case callees_concrete =>
    intro s st m' found member
    obtain ⟨old, there, oldConcrete⟩ := wellFormed.callees_concrete found member
    obtain ⟨new, after, _, sameConcrete⟩ := kept there
    exact ⟨new, after, sameConcrete.trans oldConcrete⟩
  case callees_nodup =>
    exact wellFormed.callees_nodup
  case entryPoint_known =>
    intro m' member
    obtain ⟨old, there⟩ := wellFormed.entryPoint_known member
    obtain ⟨new, after, _⟩ := kept there
    exact ⟨new, after⟩

theorem edit {q : Program} (wellFormed : p.WellFormed) (edit : p.Edit q) : q.WellFormed := by
  cases edit with
  | unchanged => exact wellFormed
  | method sig concrete library => exact wellFormed.pushMethod sig concrete library
  | statement spec known isConcrete => exact wellFormed.pushStatement spec known isConcrete
  | edge caller known isConcrete new => exact wellFormed.pushCallee caller known isConcrete new
  | trap known valid => exact wellFormed.pushRange _ known
  | subtype child parent => exact { wellFormed with }
  | entryPoint known =>
      refine { wellFormed with entryPoint_known := ?_ }
      intro m member
      rcases List.mem_append.mp member with earlier | last
      · exact wellFormed.entryPoint_known earlier
      · cases List.mem_singleton.mp last
        exact ⟨_, known⟩
  | permissions permissions => exact { wellFormed with }

end WellFormed

end Program

/-- A step of the construction of a program, with any arguments. -/
inductive BuildStep where
  | method (sig : Signature) (concrete library : Bool)
  | statement (m : MethodId) (spec : StatementSpec)
  | edge (s : StmtId) (callee : MethodId)
  | trap (m : MethodId) (range : ExceptionRange)
  | subtype (child parent : Text)
  | entryPoint (m : MethodId)
  | permissions (permissions : List Text)
  | build

namespace Builder

def apply (b : Builder) : BuildStep → Builder
  | .method sig concrete library => (b.addMethod sig concrete library).1
  | .statement m spec => (b.addStatement m spec).1
  | .edge s callee => b.addEdge s callee
  | .trap m range => b.addTrap m range
  | .subtype child parent => b.addSubtype child parent
  | .entryPoint m => b.addEntryPoint m
  | .permissions permissions => b.setPermissions permissions
  | .build => b.build.1

def run (steps : List BuildStep) : Builder := steps.foldl apply empty

theorem apply_edit (b : Builder) (step : BuildStep) : b.program.Edit (b.apply step).program := by
  cases step with
  | method sig concrete library => exact .method sig concrete library
  | statement m spec =>
      simp only [apply, addStatement]
      split
      · exact .unchanged
      · rename_i method known
        split
        · exact .unchanged
        · rename_i isConcrete
          exact .statement spec known (by simpa using isConcrete)
  | edge s callee =>
      simp only [apply, addEdge]
      split
      · exact .unchanged
      · exact .unchanged
      · rename_i st method caller known
        split
        · exact .unchanged
        · rename_i isConcrete
          split
          · exact .unchanged
          · rename_i new
            exact .edge caller known (by simpa using isConcrete) (by simpa using new)
  | trap m range =>
      simp only [apply, addTrap]
      split
      · exact .unchanged
      · rename_i method known
        split
        · exact .unchanged
        · rename_i valid
          exact .trap known (by omega)
  | subtype child parent => exact .subtype child parent
  | entryPoint m =>
      simp only [apply, addEntryPoint]
      split
      · exact .unchanged
      · rename_i method known
        exact .entryPoint known
  | permissions permissions => exact .permissions permissions
  | build =>
      simp only [apply, build, buildWith]
      split <;> exact .unchanged

/-- Every sequence of steps keeps the invariant. -/
theorem run_wellFormed (steps : List BuildStep) : (run steps).program.WellFormed := by
  have kept : ∀ b : Builder, b.program.WellFormed →
      (steps.foldl apply b).program.WellFormed := by
    induction steps with
    | nil => exact fun b wellFormed => wellFormed
    | cons step steps ih =>
        exact fun b wellFormed => ih (b.apply step) (wellFormed.edit (b.apply_edit step))
  exact kept empty Program.empty_wellFormed

end Builder

end PermissionGuard
