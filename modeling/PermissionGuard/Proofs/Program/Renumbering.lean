import PermissionGuard.Proofs.Program.Tables
import Mathlib.Logic.Relator

/-!
Programs that differ in the numbers of their methods and statements. Corresponding methods have
bodies of the same statements (`Renumbered`), so the statements correspond by their positions
(`SameStatement`), the flow graphs are equal, and the same methods are reachable.
-/

namespace PermissionGuard

/-- The methods are alike but for their numbers and those of their statements. -/
structure Method.Alike (method method' : Method) : Prop where
  sig : method'.sig = method.sig
  concrete : method'.concrete = method.concrete
  library : method'.library = method.library
  traps : method'.traps = method.traps
  size : method'.body.length = method.body.length

/-- The statements are alike and call corresponding methods. -/
structure Statement.Alike (same : MethodId → MethodId → Prop) (st st' : Statement) : Prop where
  target : st'.target = st.target
  succs : st'.succs = st.succs
  line : st'.line = st.line
  callees : ∀ {m m'}, same m m' → (m ∈ st.callees ↔ m' ∈ st'.callees)

namespace Program

/-- The methods of two programs correspond and are alike. -/
structure Renumbered (p q : Program) (same : MethodId → MethodId → Prop) : Prop where
  unique : Relator.BiUnique same
  forth : ∀ {m method}, p.method? m = some method → ∃ m', same m m'
  back : ∀ {m' method'}, q.method? m' = some method' → ∃ m, same m m'
  method : ∀ {m m'}, same m m' →
    ∃ method method', p.method? m = some method ∧ q.method? m' = some method' ∧
      method.Alike method'
  statement : ∀ {s s' st st'}, p.statement? s = some st → q.statement? s' = some st' →
    same st.method st'.method → st.index = st'.index → st.Alike same st'
  entryPoints : ∀ {m m'}, same m m' → (m ∈ p.entryPoints ↔ m' ∈ q.entryPoints)
  hierarchy : q.hierarchy = p.hierarchy

/-- The statements stand at the same position of corresponding methods. -/
def SameStatement (p q : Program) (same : MethodId → MethodId → Prop) (s s' : StmtId) : Prop :=
  ∃ st st', p.statement? s = some st ∧ q.statement? s' = some st' ∧
    same st.method st'.method ∧ st.index = st'.index

variable {p q : Program} {same : MethodId → MethodId → Prop} {m m' : MethodId} {s s' : StmtId}
variable {method method' : Method}

theorem Renumbered.symm (renumbered : p.Renumbered q same) : q.Renumbered p (flip same) where
  unique := ⟨fun _ _ _ left right => renumbered.unique.2 left right,
    fun _ _ _ left right => renumbered.unique.1 left right⟩
  forth := renumbered.back
  back := renumbered.forth
  method related := by
    obtain ⟨method, method', known, known', alike⟩ := renumbered.method related
    exact ⟨method', method, known', known, alike.sig.symm, alike.concrete.symm,
      alike.library.symm, alike.traps.symm, alike.size.symm⟩
  statement known known' related index := by
    have alike := renumbered.statement known' known related index.symm
    exact ⟨alike.target.symm, alike.succs.symm, alike.line.symm, fun both =>
      (alike.callees both).symm⟩
  entryPoints related := (renumbered.entryPoints related).symm
  hierarchy := renumbered.hierarchy.symm

theorem SameStatement.symm (related : p.SameStatement q same s s') :
    q.SameStatement p (flip same) s' s := by
  obtain ⟨st, st', known, known', inMethods, index⟩ := related
  exact ⟨st', st, known', known, inMethods, index.symm⟩

theorem Renumbered.alike (renumbered : p.Renumbered q same) (related : same m m')
    (known : p.method? m = some method) (known' : q.method? m' = some method') :
    method.Alike method' := by
  obtain ⟨_, _, left, right, alike⟩ := renumbered.method related
  cases known.symm.trans left
  cases known'.symm.trans right
  exact alike

/-- Positions of corresponding bodies hold corresponding statements. -/
theorem Renumbered.sameStatement (wellFormed : p.WellFormed) (wellFormed' : q.WellFormed)
    (related : same m m') (known : p.method? m = some method)
    (known' : q.method? m' = some method') {i : Nat} (position : method.body[i]? = some s)
    (position' : method'.body[i]? = some s') : p.SameStatement q same s s' := by
  obtain ⟨st, found, inMethod, index⟩ := wellFormed.body_statement known position
  obtain ⟨st', found', inMethod', index'⟩ := wellFormed'.body_statement known' position'
  refine ⟨st, st', found, found', ?_, index.trans index'.symm⟩
  rw [inMethod, inMethod']
  exact related

theorem Renumbered.position (renumbered : p.Renumbered q same) (related : same m m')
    (known : p.method? m = some method) (known' : q.method? m' = some method') {i : Nat}
    (position : method.body[i]? = some s) : ∃ s', method'.body[i]? = some s' := by
  have bound : i < method'.body.length := by
    rw [(renumbered.alike related known known').size]
    exact (List.getElem?_eq_some_iff.mp position).1
  exact ⟨_, List.getElem?_eq_getElem bound⟩

/-- Every statement has a counterpart in the body of the corresponding method. -/
theorem Renumbered.counterpart (renumbered : p.Renumbered q same) (wellFormed : p.WellFormed)
    (wellFormed' : q.WellFormed) {st : Statement} (found : p.statement? s = some st) :
    ∃ s', p.SameStatement q same s s' := by
  obtain ⟨method, known, position⟩ := wellFormed.placed found
  obtain ⟨m', related⟩ := renumbered.forth known
  obtain ⟨_, method', _, known', _⟩ := renumbered.method related
  obtain ⟨s', position'⟩ := renumbered.position related known known' position
  exact ⟨s', Renumbered.sameStatement wellFormed wellFormed' related known known' position
    position'⟩

/-- A statement is determined by its method and its position. -/
theorem WellFormed.statement_unique (wellFormed : p.WellFormed) {st st' : Statement}
    (found : p.statement? s = some st) (found' : p.statement? s' = some st')
    (inMethod : st.method = st'.method) (index : st.index = st'.index) : s = s' := by
  obtain ⟨method, known, position⟩ := wellFormed.placed found
  obtain ⟨method', known', position'⟩ := wellFormed.placed found'
  rw [inMethod] at known
  cases known.symm.trans known'
  rw [index] at position
  exact Option.some.inj (position.symm.trans position')

theorem Renumbered.sameStatement_unique (renumbered : p.Renumbered q same)
    (wellFormed : p.WellFormed) (wellFormed' : q.WellFormed) :
    Relator.BiUnique (p.SameStatement q same) := by
  constructor
  · rintro s t s' ⟨st, st', found, found', inMethods, index⟩ ⟨tt, tt', other, other', above, index'⟩
    cases found'.symm.trans other'
    exact wellFormed.statement_unique found other (renumbered.unique.1 inMethods above)
      (index.trans index'.symm)
  · rintro s s' t' ⟨st, st', found, found', inMethods, index⟩
      ⟨tt, tt', other, other', above, index'⟩
    cases found.symm.trans other
    exact wellFormed'.statement_unique found' other' (renumbered.unique.2 inMethods above)
      (index.symm.trans index')

theorem Renumbered.callees (renumbered : p.Renumbered q same)
    (corresponds : p.SameStatement q same s s') (related : same m m') :
    m ∈ p.callees s ↔ m' ∈ q.callees s' := by
  obtain ⟨st, st', found, found', inMethods, index⟩ := corresponds
  have alike := renumbered.statement found found' inMethods index
  simpa [Program.callees, found, found'] using alike.callees related

theorem Renumbered.isInvoke (renumbered : p.Renumbered q same)
    (corresponds : p.SameStatement q same s s') : q.isInvoke s' = p.isInvoke s := by
  obtain ⟨st, st', found, found', inMethods, index⟩ := corresponds
  have alike := renumbered.statement found found' inMethods index
  simp [Program.isInvoke, found, found', Statement.isInvoke, alike.target]

/-- Corresponding methods have the same flow of control. -/
theorem Renumbered.flowGraph (renumbered : p.Renumbered q same) (wellFormed : p.WellFormed)
    (wellFormed' : q.WellFormed) (related : same m m') (known : p.method? m = some method)
    (known' : q.method? m' = some method') : q.flowGraph method' = p.flowGraph method := by
  have size := (renumbered.alike related known known').size
  simp only [Program.flowGraph, size]
  congr 2
  apply List.ext_getElem?
  intro i
  rw [List.getElem?_map, List.getElem?_map]
  cases position : method.body[i]? with
  | none =>
      have outside : method'.body[i]? = none := by
        rw [List.getElem?_eq_none_iff] at position ⊢
        omega
      rw [outside]
      rfl
  | some s =>
      obtain ⟨s', position'⟩ := renumbered.position related known known' position
      rw [position']
      obtain ⟨st, st', found, found', inMethods, index⟩ :=
        Renumbered.sameStatement wellFormed wellFormed' related known known' position position'
      have alike := renumbered.statement found found' inMethods index
      simp only [Option.map_some, found, found', successors, alike.succs, index]

/-- A method calls the counterparts of what its counterpart calls. -/
theorem Renumbered.calledFrom (renumbered : p.Renumbered q same) (wellFormed : p.WellFormed)
    (wellFormed' : q.WellFormed) (related : same m m') {callee : MethodId}
    (calls : callee ∈ p.calledFrom m) : ∃ callee', same callee callee' ∧
      callee' ∈ q.calledFrom m' := by
  rw [calledFrom_eq] at calls
  obtain ⟨s, site, edge⟩ := List.mem_flatMap.mp calls
  obtain ⟨method, known, inBody, invoke⟩ := (Arena.mem_callSites _).mp site
  obtain ⟨i, position⟩ := List.getElem?_of_mem inBody
  obtain ⟨_, method', _, known', _⟩ := renumbered.method related
  obtain ⟨s', position'⟩ := renumbered.position related known known' position
  have corresponds : p.SameStatement q same s s' :=
    Renumbered.sameStatement wellFormed wellFormed' related known known' position position'
  have ⟨st, _, found, _⟩ := corresponds
  have member : callee ∈ st.callees := by simpa [Program.callees, found] using edge
  obtain ⟨target, knownTarget, _⟩ := wellFormed.callees_concrete found member
  obtain ⟨callee', relatedCallee⟩ := renumbered.forth knownTarget
  refine ⟨callee', relatedCallee, ?_⟩
  rw [calledFrom_eq]
  refine List.mem_flatMap.mpr ⟨s', (Arena.mem_callSites _).mpr
    ⟨method', known', List.mem_of_getElem? position', ?_⟩,
    (renumbered.callees corresponds relatedCallee).mp edge⟩
  exact (renumbered.isInvoke corresponds).trans invoke

theorem Renumbered.reachedFrom (renumbered : p.Renumbered q same) (wellFormed : p.WellFormed)
    (wellFormed' : q.WellFormed) (reached : ReachedFrom p.calledFrom p.entryPoints m) :
    ∃ m', same m m' ∧ ReachedFrom q.calledFrom q.entryPoints m' := by
  obtain ⟨root, entered, path⟩ := reached
  induction path with
  | refl =>
      obtain ⟨method, known⟩ := wellFormed.entryPoint_known entered
      obtain ⟨root', related⟩ := renumbered.forth known
      exact ⟨root', related, .of_root ((renumbered.entryPoints related).mp entered)⟩
  | tail _ calls ih =>
      obtain ⟨m', related, reached'⟩ := ih
      obtain ⟨callee', relatedCallee, calls'⟩ :=
        renumbered.calledFrom wellFormed wellFormed' related calls
      exact ⟨callee', relatedCallee, reached'.tail calls'⟩

theorem Renumbered.reachable (renumbered : p.Renumbered q same) (wellFormed : p.WellFormed)
    (wellFormed' : q.WellFormed) (related : same m m') (reachable : m ∈ p.reachable) :
    m' ∈ q.reachable := by
  obtain ⟨_, method', _, known', _⟩ := renumbered.method related
  rw [wellFormed.mem_reachable_iff] at reachable
  rw [wellFormed'.mem_reachable_iff]
  refine ⟨⟨method', known'⟩, fun entered' => ?_⟩
  have entered : p.entryPoints ≠ [] := by
    obtain ⟨entry', member'⟩ := List.exists_mem_of_ne_nil _ entered'
    obtain ⟨method, known⟩ := wellFormed'.entryPoint_known member'
    obtain ⟨entry, relatedEntry⟩ := renumbered.back known
    exact List.ne_nil_of_mem ((renumbered.entryPoints relatedEntry).mpr member')
  obtain ⟨m'', related', reached'⟩ :=
    renumbered.reachedFrom wellFormed wellFormed' (reachable.2 entered)
  rw [renumbered.unique.2 related related']
  exact reached'

end Program

end PermissionGuard
