import PermissionGuard.Proofs.Program.Finished
import PermissionGuard.Proofs.Reachability

/-!
The tables of a well-formed program. Bodies share no statement, so every call edge counts once
towards what a method calls, the reachable methods are the closure of the calls
(`mem_reachable_iff`), and the table of dominators holds what climbing the tree of each body gives
(`dominatorsOf_eq`).
-/

namespace PermissionGuard

namespace Program

variable {p : Program} {m : MethodId} {method : Method} {s : StmtId}

theorem calledFrom_eq (p : Program) :
    p.calledFrom = fun m => ((Arena.ofProgram p).callSites m).flatMap p.callees := by
  funext m
  unfold calledFrom Arena.callSites
  cases known : p.method? m with
  | none => simp [Arena.ofProgram, Arena.ofProgramWith, known]
  | some method => simp [Arena.ofProgram, Arena.ofProgramWith, known]

namespace WellFormed

/-- A statement lies in one body. -/
theorem method_eq (wellFormed : p.WellFormed) {m m' : MethodId} {method method' : Method}
    (known : p.method? m = some method) (known' : p.method? m' = some method')
    (inBody : s ∈ method.body) (inBody' : s ∈ method'.body) : m = m' := by
  obtain ⟨i, position⟩ := List.getElem?_of_mem inBody
  obtain ⟨i', position'⟩ := List.getElem?_of_mem inBody'
  obtain ⟨st, found, inMethod, _⟩ := wellFormed.body_statement known position
  obtain ⟨st', found', inMethod', _⟩ := wellFormed.body_statement known' position'
  cases found.symm.trans found'
  exact inMethod.symm.trans inMethod'

theorem callSites_nodup (wellFormed : p.WellFormed) {found : List MethodId}
    (distinct : found.Nodup) : (found.flatMap (Arena.ofProgram p).callSites).Nodup := by
  rw [List.Nodup, List.pairwise_flatMap]
  constructor
  · intro m _
    unfold Arena.callSites
    split
    · rename_i method known
      exact ((wellFormed.body_increasing known).filter _).imp fun less => Int.ne_of_lt less
    · exact .nil
  · refine distinct.imp ?_
    intro m m' different s site s' site' same
    subst s'
    obtain ⟨method, known, inBody, _⟩ := (Arena.mem_callSites _).mp site
    obtain ⟨method', known', inBody', _⟩ := (Arena.mem_callSites _).mp site'
    exact different (wellFormed.method_eq known known' inBody inBody')

theorem callees_within (p : Program) (kind : StmtId → Prop) :
    SuccessorsWithin p.callees kind p.edgeCount := by
  refine SuccessorsWithin.of_nonempty (successorsWithin_of_list p.statementIds ?_ ?_) kind
  · intro s nonempty
    cases found : p.statement? s with
    | none => simp [callees, found] at nonempty
    | some st =>
        obtain ⟨nonnegative, inTable⟩ := entry?_eq_some_iff.mp found
        have bound := (Array.getElem?_eq_some_iff.mp inTable).1
        exact List.mem_map.mpr
          ⟨s.toNat, List.mem_range.mpr bound, Int.toNat_of_nonneg nonnegative⟩
  · have table : p.statementIds.map p.callees = p.stmts.toList.map Statement.callees := by
      apply List.ext_getElem
      · simp [statementIds]
      · intro i bound _
        have inRange : i < p.stmts.size := by simpa [statementIds] using bound
        simp [statementIds, callees, statement?, entry?_natCast, inRange]
    rw [table]
    exact Nat.le_refl _

theorem calledFrom_within (wellFormed : p.WellFormed) (kind : MethodId → Prop) :
    SuccessorsWithin p.calledFrom kind p.edgeCount := by
  intro found distinct _
  rw [calledFrom_eq, ← List.flatMap_assoc]
  exact callees_within p (fun _ => True) _ (wellFormed.callSites_nodup distinct)
    fun _ _ => trivial

/-- The reachable methods are those that calls lead to from the entry points, or all methods if
there is no entry point. -/
theorem mem_reachable_iff (wellFormed : p.WellFormed) :
    m ∈ p.reachable ↔ (∃ method, p.method? m = some method) ∧
      (p.entryPoints ≠ [] → ReachedFrom p.calledFrom p.entryPoints m) := by
  unfold reachable
  cases entries : p.entryPoints with
  | nil => simp [mem_methodIds]
  | cons first rest =>
      rw [if_neg (by simp), List.mem_filter, mem_methodIds, Visited.contains_iff,
        mem_reach_iff (wellFormed.calledFrom_within _)]
      simp

end WellFormed

/-- The reachable methods by a search that the kernel can run. -/
theorem reachable_eq_filter (p : Program) : p.reachable =
    if p.entryPoints.isEmpty then p.methodIds
    else p.methodIds.filter
      (exploreList p.calledFrom (p.entryPoints.length + p.edgeCount) p.entryPoints []).contains := by
  unfold reachable
  split
  · rfl
  · refine List.filter_congr fun m _ => ?_
    rw [Bool.eq_iff_iff, Visited.contains_iff, ← Visited.mem_toList, reach_toList, List.mem_reverse,
      List.contains_iff_mem]

end Program

/-! ### Dominators -/

section

open Program

variable {p : Program} {finder : DominatorFinder} {m : MethodId} {method : Method} {s : StmtId}

/-- Writes the lists of a table at the numbers of their statements. -/
def tabulate (pairs : List (StmtId × List StmtId)) (table : Array (List StmtId)) :
    Array (List StmtId) :=
  pairs.foldl (fun table (s, list) => table.setIfInBounds s.toNat list) table

theorem tabulate_keeps {pairs : List (StmtId × List StmtId)} {table : Array (List StmtId)}
    {i : Nat} {list : List StmtId} (present : table[i]? = some list)
    (agree : ∀ pair ∈ pairs, pair.1.toNat = i → pair.2 = list) :
    (tabulate pairs table)[i]? = some list := by
  induction pairs generalizing table with
  | nil => exact present
  | cons pair pairs ih =>
      refine ih ?_ fun later member => agree later (List.mem_cons_of_mem _ member)
      rw [Array.getElem?_setIfInBounds]
      split
      · rename_i same
        have bound := (Array.getElem?_eq_some_iff.mp present).1
        rw [if_pos (same ▸ bound), agree pair List.mem_cons_self same]
      · exact present

/-- A list that is written, and that no other list replaces, is found again. -/
theorem tabulate_finds {pairs : List (StmtId × List StmtId)} {table : Array (List StmtId)}
    {s : StmtId} {list : List StmtId} (member : (s, list) ∈ pairs) (bound : s.toNat < table.size)
    (agree : ∀ pair ∈ pairs, pair.1.toNat = s.toNat → pair.2 = list) :
    (tabulate pairs table)[s.toNat]? = some list := by
  induction pairs generalizing table with
  | nil => cases member
  | cons pair pairs ih =>
      have rest : ∀ later ∈ pairs, later.1.toNat = s.toNat → later.2 = list :=
        fun later inRest => agree later (List.mem_cons_of_mem _ inRest)
      rcases List.mem_cons.mp member with rfl | later
      · change (tabulate pairs (table.setIfInBounds s.toNat list))[s.toNat]? = some list
        refine tabulate_keeps ?_ rest
        rw [Array.getElem?_setIfInBounds, if_pos rfl, if_pos bound]
      · exact ih later (by simpa using bound) rest

theorem ofProgramWith_dominators (finder : DominatorFinder) (p : Program) :
    (Arena.ofProgramWith finder p).dominators =
      tabulate (p.methods.toList.flatMap (p.dominatorLists finder))
        (Array.replicate p.stmts.size []) := by
  rw [tabulate, List.foldl_flatMap]
  rfl

/-- The positions that dominate one of a body, by the tree of the body. -/
def Program.dominatingPositions? (finder : DominatorFinder) (p : Program) (method : Method)
    (i : Nat) : Option (List Nat) :=
  (finder (p.flowGraph method).simple).lineage? method.body.length i

theorem mem_dominatorLists {list : List StmtId} :
    (s, list) ∈ p.dominatorLists finder method ↔ ∃ (i : Nat) (positions : List Nat),
      method.body[i]? = some s ∧ p.dominatingPositions? finder method i = some positions ∧
        list = positions.filterMap (method.body[·]?) := by
  simp only [dominatorLists, List.mem_filterMap, Prod.exists, List.mem_zipIdx_iff_getElem?,
    Option.map_eq_some_iff, Prod.mk.injEq, List.size_toArray, List.getElem?_toArray]
  constructor
  · rintro ⟨s, i, position, positions, found, rfl, rfl⟩
    exact ⟨i, positions, position, found, rfl⟩
  · rintro ⟨i, positions, position, found, rfl⟩
    exact ⟨s, i, position, positions, found, rfl, rfl⟩

/-- The dominators of a statement are the positions that dominate its own, as statements of the
same body. -/
theorem Program.WellFormed.dominatorsOf_eq (wellFormed : p.WellFormed)
    (known : p.method? m = some method) {i : Nat} (position : method.body[i]? = some s) :
    (Arena.ofProgramWith finder p).dominatorsOf s m =
      ((p.dominatingPositions? finder method i).getD []).filterMap (method.body[·]?) := by
  obtain ⟨st, found, inMethod, atIndex⟩ := wellFormed.body_statement known position
  obtain ⟨nonnegative, inTable⟩ := entry?_eq_some_iff.mp found
  have bound : s.toNat < p.stmts.size := (Array.getElem?_eq_some_iff.mp inTable).1
  have statement : (Arena.ofProgramWith finder p).statement? s = some st := found
  -- Only the position of the statement itself has a list for its number.
  have own (pair : StmtId × List StmtId)
      (member : pair ∈ p.methods.toList.flatMap (p.dominatorLists finder))
      (sameNumber : pair.1.toNat = s.toNat) : ∃ positions,
        p.dominatingPositions? finder method i = some positions ∧
          pair.2 = positions.filterMap (method.body[·]?) := by
    obtain ⟨s', list⟩ := pair
    obtain ⟨method', inMethods, isList⟩ := List.mem_flatMap.mp member
    obtain ⟨i', positions, position', atPosition, rfl⟩ := mem_dominatorLists.mp isList
    obtain ⟨id, known'⟩ := mem_methods.mp inMethods
    obtain ⟨st', found', inMethod', atIndex'⟩ := wellFormed.body_statement known' position'
    have same : s' = s := by
      rw [← Int.toNat_of_nonneg nonnegative, ← sameNumber,
        Int.toNat_of_nonneg (entry?_eq_some_iff.mp found').1]
    subst s'
    cases found.symm.trans found'
    rw [← inMethod', inMethod] at known'
    cases known.symm.trans known'
    cases atIndex.symm.trans atIndex'
    exact ⟨positions, atPosition, rfl⟩
  have entry : (Arena.ofProgramWith finder p).dominators[s.toNat]? = some
      (((p.dominatingPositions? finder method i).getD []).filterMap (method.body[·]?)) := by
    rw [ofProgramWith_dominators]
    cases listed : p.dominatingPositions? finder method i with
    | none =>
        refine tabulate_keeps (by simp [bound]) fun pair member sameNumber => ?_
        obtain ⟨positions, some, _⟩ := own pair member sameNumber
        cases listed.symm.trans some
    | some positions =>
        refine tabulate_finds (List.mem_flatMap.mpr ⟨method, mem_methods.mpr ⟨m, known⟩,
          mem_dominatorLists.mpr ⟨i, positions, position, listed, rfl⟩⟩) (by simpa using bound) ?_
        intro pair member sameNumber
        obtain ⟨_, some, same⟩ := own pair member sameNumber
        cases listed.symm.trans some
        exact same
  simp [Arena.dominatorsOf, statement, inMethod, entry?, Int.not_lt.mpr nonnegative, entry]

theorem Arena.BuiltWith.dominatorsOf_eq {a : Arena} {steps : List BuildStep}
    (built : a.BuiltWith finder steps) (known : a.method? m = some method) {i : Nat}
    (position : method.body[i]? = some s) : a.dominatorsOf s m =
      ((a.dominatingPositions? finder method i).getD []).filterMap (method.body[·]?) := by
  rw [built.eq_self]
  exact built.finished.wellFormed.dominatorsOf_eq known position

end

end PermissionGuard
