import PermissionGuard.Misuse.Basic
import PermissionGuard.Proofs.Propagation.Run

/-!
What a collector finds: one record for every call of a sensitive method that is not guarded, in the
strict order of their places, whatever was asked before.
-/

namespace PermissionGuard

namespace Collector

variable {c : Collector}

/-- The order of places: by signature key, then by method number, then by position. -/
def PlaceBefore (a b : Text × MethodId × Nat) : Prop :=
  a.1 < b.1 ∨ a.1 = b.1 ∧ (a.2.1 < b.2.1 ∨ a.2.1 = b.2.1 ∧ a.2.2 < b.2.2)

theorem PlaceBefore.trans {a b d : Text × MethodId × Nat} (first : PlaceBefore a b)
    (second : PlaceBefore b d) : PlaceBefore a d := by
  rcases first with key | ⟨key, first⟩ <;> rcases second with key' | ⟨key', second⟩
  · exact Or.inl (List.lt_trans key key')
  · exact Or.inl (key' ▸ key)
  · exact Or.inl (key ▸ key')
  · refine Or.inr ⟨key.trans key', ?_⟩
    rcases first with less | ⟨same, less⟩ <;> rcases second with less' | ⟨same', less'⟩
    · exact Or.inl (Int.lt_trans less less')
    · exact Or.inl (same' ▸ less)
    · exact Or.inl (same ▸ less')
    · exact Or.inr ⟨same.trans same', Nat.lt_trans less less'⟩

theorem placeBefore_trichotomy (a b : Text × MethodId × Nat) :
    PlaceBefore a b ∨ a = b ∨ PlaceBefore b a := by
  by_cases less : a.1 < b.1
  · exact Or.inl (Or.inl less)
  · by_cases greater : b.1 < a.1
    · exact Or.inr (Or.inr (Or.inl greater))
    · have key : a.1 = b.1 := List.le_antisymm greater less
      rcases Int.lt_trichotomy a.2.1 b.2.1 with less | same | greater
      · exact Or.inl (Or.inr ⟨key, Or.inl less⟩)
      · rcases Nat.lt_trichotomy a.2.2 b.2.2 with less | index | greater
        · exact Or.inl (Or.inr ⟨key, Or.inr ⟨same, less⟩⟩)
        · exact Or.inr (Or.inl (Prod.ext key (Prod.ext same index)))
        · exact Or.inr (Or.inr (Or.inr ⟨key.symm, Or.inr ⟨same.symm, greater⟩⟩))
      · exact Or.inr (Or.inr (Or.inr ⟨key.symm, Or.inl greater⟩))

theorem placeLe_iff {a b : Text × MethodId × Nat} :
    placeLe a b = true ↔ a = b ∨ PlaceBefore a b := by
  unfold placeLe
  by_cases key : a.1 = b.1
  · have notLess : ¬ a.1 < b.1 := key ▸ List.lt_irrefl b.1
    by_cases method : a.2.1 = b.2.1
    · simp only [key, method, ne_eq, not_true_eq_false, if_false, decide_eq_true_eq]
      constructor
      · intro index
        rcases Nat.lt_or_eq_of_le index with less | same
        · exact Or.inr (Or.inr ⟨key, Or.inr ⟨method, less⟩⟩)
        · exact Or.inl (Prod.ext key (Prod.ext method same))
      · rintro (rfl | less | ⟨_, less | ⟨_, less⟩⟩)
        · exact Nat.le_refl _
        · exact absurd less notLess
        · exact absurd less (method ▸ Int.lt_irrefl b.2.1)
        · exact Nat.le_of_lt less
    · simp only [key, method, ne_eq, not_true_eq_false, if_false, not_false_eq_true, if_true,
        decide_eq_true_eq]
      constructor
      · exact fun less => Or.inr (Or.inr ⟨key, Or.inl less⟩)
      · rintro (rfl | less | ⟨_, less | ⟨same, _⟩⟩)
        · exact absurd rfl method
        · exact absurd less notLess
        · exact less
        · exact absurd same method
  · simp only [ne_eq, key, not_false_eq_true, if_true, Text.le, Bool.not_eq_true',
      decide_eq_false_iff_not]
    constructor
    · intro notGreater
      rcases placeBefore_trichotomy a b with before | same | after
      · exact Or.inr before
      · exact Or.inl same
      · rcases after with greater | ⟨same, _⟩
        · exact absurd greater notGreater
        · exact absurd same.symm key
    · rintro (rfl | less | ⟨same, _⟩)
      · exact absurd rfl key
      · exact List.lt_asymm less
      · exact absurd same key

theorem placeLe_trans (c : Collector) (r r' r'' : Misuse)
    (first : placeLe (c.place r) (c.place r') = true)
    (second : placeLe (c.place r') (c.place r'') = true) :
    placeLe (c.place r) (c.place r'') = true := by
  rw [placeLe_iff] at first second ⊢
  rcases first with same | before
  · exact same ▸ second
  · rcases second with same | before'
    · exact Or.inr (same ▸ before)
    · exact Or.inr (before.trans before')

theorem placeLe_total (c : Collector) (r r' : Misuse) :
    (placeLe (c.place r) (c.place r') || placeLe (c.place r') (c.place r)) = true := by
  rw [Bool.or_eq_true, placeLe_iff, placeLe_iff]
  rcases placeBefore_trichotomy (c.place r) (c.place r') with before | same | after
  · exact Or.inl (Or.inr before)
  · exact Or.inl (Or.inl same)
  · exact Or.inr (Or.inr after)

theorem mergeSort_places (c : Collector) {records : List Misuse}
    (distinct : records.Pairwise fun r r' => c.place r ≠ c.place r') :
    (records.mergeSort fun a b => placeLe (c.place a) (c.place b)).Pairwise
      fun r r' => PlaceBefore (c.place r) (c.place r') := by
  -- Sorting gives the order up to equal places, and no two places are equal.
  have sorted := List.pairwise_mergeSort c.placeLe_trans c.placeLe_total records
  have apart : (records.mergeSort fun a b => placeLe (c.place a) (c.place b)).Pairwise
      fun r r' => c.place r ≠ c.place r' :=
    (List.mergeSort_perm records _).symm.pairwise distinct fun different => different.symm
  refine (sorted.and apart).imp ?_
  rintro r r' ⟨ordered, different⟩
  exact (placeLe_iff.mp ordered).resolve_left different

/-- The answer of a query of its own about a record. -/
def verdict (c : Collector) (r : Misuse) : Bool := (c.propagator.check r.stmt r.method {}).1

/-- The candidates that are not guarded, in the order of the candidates. -/
def refused (c : Collector) (candidates : List (Misuse × Signature)) : List Misuse :=
  (candidates.filter fun candidate => !c.verdict candidate.1).map Prod.fst

theorem examine_fst (enumerated : c.propagator.model.Enumerated) (found : List Misuse)
    (st : Progress) (candidate : Misuse × Signature) :
    (c.examine (found, st) candidate).1 = (c.refused [candidate]).reverse ++ found := by
  have same : (c.propagator.check candidate.1.stmt candidate.1.method st).1 =
      c.verdict candidate.1 :=
    Propagator.check_verdict_eq enumerated _ _ st {}
  simp only [examine, refused, same]
  cases answer : c.verdict candidate.1 <;> simp [answer]

theorem examine_queries (enumerated : c.propagator.model.Enumerated) (found : List Misuse)
    (st : Progress) (candidate : Misuse × Signature) :
    (c.examine (found, st) candidate).2.stats.queries = st.stats.queries + 1 := by
  have counted := (Propagator.check_runs enumerated candidate.1.stmt candidate.1.method st).queries
  simp only [examine]
  split <;> exact counted

/-- Examining candidates one after the other keeps the refused ones, newest first, and asks once
for each candidate. -/
theorem foldl_examine (enumerated : c.propagator.model.Enumerated)
    (candidates : List (Misuse × Signature)) (found : List Misuse) (st : Progress) :
    (candidates.foldl c.examine (found, st)).1 = (c.refused candidates).reverse ++ found ∧
      (candidates.foldl c.examine (found, st)).2.stats.queries =
        st.stats.queries + candidates.length := by
  induction candidates generalizing found st with
  | nil => simp [refused]
  | cons candidate candidates ih =>
      obtain ⟨records, queries⟩ := ih (c.examine (found, st) candidate).1
        (c.examine (found, st) candidate).2
      rw [List.foldl_cons]
      constructor
      · rw [records, examine_fst enumerated]
        simp [refused, List.filter_cons]
        split <;> simp
      · rw [queries, examine_queries enumerated, List.length_cons]
        omega

theorem collect_fst (enumerated : c.propagator.model.Enumerated) (st : Progress) :
    (c.collect st).1 = (c.refused c.candidates).mergeSort
      fun a b => placeLe (c.place a) (c.place b) := by
  have records := (foldl_examine enumerated c.candidates [] st).1
  simp only [collect, records, List.append_nil, List.reverse_reverse]

theorem collect_queries (enumerated : c.propagator.model.Enumerated) (st : Progress) :
    (c.collect st).2.stats.queries = st.stats.queries + c.candidates.length :=
  (foldl_examine enumerated c.candidates [] st).2

theorem mem_collect (enumerated : c.propagator.model.Enumerated) {st : Progress} {r : Misuse} :
    r ∈ (c.collect st).1 ↔ (∃ target, (r, target) ∈ c.candidates) ∧ c.verdict r = false := by
  rw [collect_fst enumerated, List.mem_mergeSort]
  simp only [refused, List.mem_map, List.mem_filter, Bool.not_eq_true']
  constructor
  · rintro ⟨⟨_, target⟩, ⟨candidate, unguarded⟩, rfl⟩
    exact ⟨⟨target, candidate⟩, unguarded⟩
  · rintro ⟨⟨target, candidate⟩, unguarded⟩
    exact ⟨(r, target), ⟨candidate, unguarded⟩, rfl⟩

/-- The candidate at a call site, if the catalog knows what is called there. -/
def candidateAt (c : Collector) (m : MethodId) (s : StmtId) : Option (Misuse × Signature) := do
  let target ← (← c.model.statement? s).target
  let sensitive ← c.catalog.lookup? target
  some (⟨s, m, sensitive⟩, target)

theorem candidates_eq (c : Collector) : c.candidates =
    (c.model.reachable.filter c.isApplication).flatMap fun m =>
      (c.model.callSites m).filterMap (c.candidateAt m) := rfl

theorem candidateAt_eq_some {m : MethodId} {s : StmtId} {r : Misuse} {target : Signature} :
    c.candidateAt m s = some (r, target) ↔ r.method = m ∧ r.stmt = s ∧
      ∃ st, c.model.statement? s = some st ∧ st.target = some target ∧
        c.catalog.lookup? target = some r.sensitive := by
  simp only [candidateAt, Option.bind_eq_bind, Option.bind_eq_some_iff, Option.some.injEq,
    Prod.mk.injEq]
  constructor
  · rintro ⟨st, known, _, isTarget, entry, found, rfl, rfl⟩
    exact ⟨rfl, rfl, st, known, isTarget, found⟩
  · rintro ⟨rfl, rfl, st, known, isTarget, found⟩
    exact ⟨st, known, target, isTarget, r.sensitive, found, rfl, rfl⟩

theorem mem_candidates {r : Misuse} {target : Signature} :
    (r, target) ∈ c.candidates ↔ r.method ∈ c.model.reachable ∧ c.isApplication r.method = true ∧
      r.stmt ∈ c.model.callSites r.method ∧ ∃ st, c.model.statement? r.stmt = some st ∧
        st.target = some target ∧ c.catalog.lookup? target = some r.sensitive := by
  simp only [candidates_eq, List.mem_flatMap, List.mem_filter, List.mem_filterMap,
    candidateAt_eq_some]
  constructor
  · rintro ⟨_, ⟨reachable, application⟩, _, site, rfl, rfl, matched⟩
    exact ⟨reachable, application, site, matched⟩
  · rintro ⟨reachable, application, site, matched⟩
    exact ⟨r.method, ⟨reachable, application⟩, r.stmt, site, rfl, rfl, matched⟩

theorem candidates_distinct (reachable : c.model.reachable.Nodup)
    (sites : ∀ m, (c.model.callSites m).Nodup) :
    (c.candidates.map fun candidate => (candidate.1.method, candidate.1.stmt)).Nodup := by
  rw [List.Nodup, List.pairwise_map, candidates_eq, List.pairwise_flatMap]
  constructor
  · intro m _
    rw [List.pairwise_filterMap]
    refine (sites m).imp ?_
    rintro s s' different ⟨r, target⟩ made ⟨r', target'⟩ made' same
    obtain ⟨_, rfl, _⟩ := candidateAt_eq_some.mp made
    obtain ⟨_, rfl, _⟩ := candidateAt_eq_some.mp made'
    exact different (Prod.mk.inj same).2
  · refine (reachable.filter _).imp ?_
    rintro m m' different ⟨r, target⟩ member ⟨r', target'⟩ member' same
    obtain ⟨s, _, made⟩ := List.mem_filterMap.mp member
    obtain ⟨s', _, made'⟩ := List.mem_filterMap.mp member'
    obtain ⟨rfl, _⟩ := candidateAt_eq_some.mp made
    obtain ⟨rfl, _⟩ := candidateAt_eq_some.mp made'
    exact different (Prod.mk.inj same).1

/-- A collector over a finished program, with any guards and either kind of history. -/
def ofArena (a : Arena) (catalog : Catalog) (config : Config) (d : Detector) (mode : Bool) :
    Collector where
  model := a.model
  catalog
  propagator := { model := a.model, detector := d, branchLocal := mode }
  isLibrary := config.isLibrary

end Collector

/-- A call in application code that can be reached, of a method with an entry in the catalog. -/
structure SensitiveCall (a : Arena) (catalog : Catalog) (config : Config) (m : MethodId)
    (s : StmtId) (entry : SensitiveMethod) : Prop where
  reachable : m ∈ a.reachableMethods
  inApplication : ∃ method, a.method? m = some method ∧ method.concrete = true ∧
    method.library = false ∧ (∀ start ∈ config.libraryPrefixes, ¬ start <+: method.sig.className) ∧
      s ∈ method.body
  found : ∃ st target, a.statement? s = some st ∧ st.target = some target ∧
    catalog.lookup? target = some entry

section

variable {a : Arena} {catalog : Catalog} {config : Config} {d : Detector} {mode : Bool}

open Collector

theorem isLibrary_eq_false {className : Text} :
    config.isLibrary className = false ↔
      ∀ start ∈ config.libraryPrefixes, ¬ start <+: className := by
  simp only [Config.isLibrary, Text.startsWith, List.any_eq_false, List.isPrefixOf_iff_prefix]

theorem isApplication_iff {m : MethodId} :
    (ofArena a catalog config d mode).isApplication m = true ↔
      ∃ method, a.method? m = some method ∧ method.concrete = true ∧ method.library = false ∧
        ∀ start ∈ config.libraryPrefixes, ¬ start <+: method.sig.className := by
  cases known : a.method? m with
  | none => simp [isApplication, ofArena, Arena.model, known]
  | some method =>
      simp [isApplication, ofArena, Arena.model, known, isLibrary_eq_false, and_assoc]

theorem candidate_iff_sensitiveCall {r : Misuse} :
    (∃ target, (r, target) ∈ (ofArena a catalog config d mode).candidates) ↔
      SensitiveCall a catalog config r.method r.stmt r.sensitive := by
  simp only [mem_candidates, isApplication_iff]
  constructor
  · rintro ⟨target, reachable, ⟨method, known, application⟩, site, st, statement, found⟩
    obtain ⟨_, same, inBody, _⟩ := a.mem_callSites.mp site
    cases known.symm.trans same
    exact ⟨reachable, ⟨method, known, application.1, application.2.1, application.2.2, inBody⟩,
      st, target, statement, found⟩
  · rintro ⟨reachable, ⟨method, known, isConcrete, noLibrary, noPrefix, inBody⟩,
      st, target, statement, isTarget, found⟩
    refine ⟨target, reachable, ⟨method, known, isConcrete, noLibrary, noPrefix⟩, ?_,
      st, statement, isTarget, found⟩
    refine a.mem_callSites.mpr ⟨method, known, inBody, ?_⟩
    simp [Program.isInvoke, statement, Statement.isInvoke, isTarget]

/-- The records are the sensitive calls that a query of its own does not call guarded. -/
theorem mem_collect_ofArena {st : Progress} {r : Misuse} :
    r ∈ ((ofArena a catalog config d mode).collect st).1 ↔
      SensitiveCall a catalog config r.method r.stmt r.sensitive ∧
        (Propagator.check ⟨a.model, d, mode⟩ r.stmt r.method {}).1 = false := by
  rw [mem_collect a.model_enumerated, candidate_iff_sensitiveCall]
  rfl

theorem place_injective {steps : List BuildStep} (built : a.BuiltBy steps) {r r' : Misuse}
    (left : SensitiveCall a catalog config r.method r.stmt r.sensitive)
    (right : SensitiveCall a catalog config r'.method r'.stmt r'.sensitive)
    (same : (ofArena a catalog config d mode).place r = (ofArena a catalog config d mode).place r') :
    (r.method, r.stmt) = (r'.method, r'.stmt) := by
  obtain ⟨method, known, _, _, _, inBody⟩ := left.inApplication
  obtain ⟨method', known', _, _, _, inBody'⟩ := right.inApplication
  obtain ⟨st, statement, _, position⟩ := built.body_statement known inBody
  obtain ⟨st', statement', _, position'⟩ := built.body_statement known' inBody'
  simp only [place, ofArena, Arena.model, statement, statement', Option.map_some,
    Option.getD_some, Prod.mk.injEq] at same
  obtain ⟨_, sameMethod, sameIndex⟩ := same
  rw [sameMethod] at known
  cases known.symm.trans known'
  rw [sameIndex] at position
  rw [sameMethod, Option.some.inj (position.symm.trans position')]

theorem collect_increasing {steps : List BuildStep} (built : a.BuiltBy steps) (st : Progress) :
    ((ofArena a catalog config d mode).collect st).1.Pairwise fun r r' =>
      PlaceBefore ((ofArena a catalog config d mode).place r)
        ((ofArena a catalog config d mode).place r') := by
  rw [collect_fst a.model_enumerated]
  apply mergeSort_places
  have reachable : a.model.reachable.Nodup :=
    built.reachable_increasing.imp fun less => Int.ne_of_lt less
  have distinct := List.pairwise_map.mp
    (candidates_distinct (c := ofArena a catalog config d mode) reachable built.callSites_nodup)
  rw [refused, List.pairwise_map]
  -- Two candidates at one place would be the same call site.
  refine List.Pairwise.imp_of_mem ?_ (distinct.filter _)
  intro x y inLeft inRight different same
  have left := candidate_iff_sensitiveCall.mp ⟨x.2, (List.mem_filter.mp inLeft).1⟩
  have right := candidate_iff_sensitiveCall.mp ⟨y.2, (List.mem_filter.mp inRight).1⟩
  exact different (place_injective built left right same)

theorem placeBefore_irrefl (place : Text × MethodId × Nat) : ¬ PlaceBefore place place := by
  rintro (less | ⟨_, less | ⟨_, less⟩⟩)
  · exact List.lt_irrefl _ less
  · exact Int.lt_irrefl _ less
  · exact Nat.lt_irrefl _ less

/-- Collecting gives one record for each sensitive call that is not guarded and no other, in the
strict order of their places. It asks one query for each sensitive call, and what was asked before
changes nothing. -/
theorem collect_exact {steps : List BuildStep} (built : a.BuiltBy steps) (catalog : Catalog)
    (config : Config) (d : Detector) (mode : Bool) (st : Progress) :
    let c := ofArena a catalog config d mode
    let records := (c.collect st).1
    (∀ r, r ∈ records ↔ SensitiveCall a catalog config r.method r.stmt r.sensitive ∧
      (c.propagator.check r.stmt r.method {}).1 = false) ∧
    (records.map fun r => (r.method, r.stmt)).Nodup ∧
    (records.Pairwise fun r r' => PlaceBefore (c.place r) (c.place r')) ∧
    (∃ sites : List (MethodId × StmtId), sites.Nodup ∧
      (∀ m s, (m, s) ∈ sites ↔ ∃ entry, SensitiveCall a catalog config m s entry) ∧
      (c.collect st).2.stats.queries = st.stats.queries + sites.length) ∧
    ∀ st', (c.collect st').1 = records := by
  intro c records
  have increasing : records.Pairwise fun r r' => PlaceBefore (c.place r) (c.place r') :=
    collect_increasing built st
  refine ⟨fun r => mem_collect_ofArena, ?_, increasing, ?_, ?_⟩
  · refine List.pairwise_map.mpr (increasing.imp ?_)
    intro r r' before same
    obtain ⟨sameMethod, sameStmt⟩ := Prod.mk.inj same
    have samePlace : c.place r = c.place r' := by simp only [place, sameMethod, sameStmt]
    exact placeBefore_irrefl _ (samePlace ▸ before)
  · refine ⟨c.candidates.map fun candidate => (candidate.1.method, candidate.1.stmt), ?_, ?_, ?_⟩
    · exact candidates_distinct (built.reachable_increasing.imp fun less => Int.ne_of_lt less)
        built.callSites_nodup
    · intro m s
      rw [List.mem_map]
      constructor
      · rintro ⟨⟨r, target⟩, member, same⟩
        cases same
        exact ⟨r.sensitive, candidate_iff_sensitiveCall.mp ⟨target, member⟩⟩
      · rintro ⟨entry, call⟩
        obtain ⟨target, member⟩ := candidate_iff_sensitiveCall.mpr
          (show SensitiveCall a catalog config (Misuse.mk s m entry).method
            (Misuse.mk s m entry).stmt (Misuse.mk s m entry).sensitive from call)
        exact ⟨_, member, rfl⟩
    · rw [collect_queries a.model_enumerated, List.length_map]
  · intro st'
    exact (collect_fst a.model_enumerated st').trans (collect_fst a.model_enumerated st).symm

theorem Detector.guard?_of_trap {s : StmtId} {m : MethodId} {st : Statement}
    {trap : ExceptionRange} (known : a.statement? s = some st) (inMethod : st.method = m)
    (member : trap ∈ a.traps m) (covers : trap.covers st.index = true)
    (failure : trap.caught = config.failureType) :
    (Detector.ofConfig a.model config).guard? s m = some .exceptionHandler := by
  have caught := a.caughtAt_of_trap known inMethod member covers
  rw [failure] at caught
  exact if_pos caught

/-- A handler of what a sensitive call raises, around the first statement of a body. -/
def securityHandler : ExceptionRange := ⟨0, 1, "java.lang.SecurityException"⟩

def cameraOpen : Signature := ⟨"android.hardware.Camera", "open", "android.hardware.Camera", []⟩

def cameraEntry : SensitiveMethod := ⟨cameraOpen, ["android.permission.CAMERA"]⟩

def cameraCatalog : Catalog := Catalog.empty.add cameraOpen "android.permission.CAMERA"

/-- Two methods with the same signature that open the camera, and one that does it in a handler. -/
def twinSteps : List BuildStep :=
  let run : Signature := ⟨"app.Main", "run", "void", []⟩
  [.method run true false, .method run true false,
    .method ⟨"app.Main", "tryRun", "void", []⟩ true false,
    .statement 1 { target := some cameraOpen }, .statement 0 { target := some cameraOpen },
    .statement 2 { target := some cameraOpen }, .trap 2 securityHandler]

def twinArena : Arena := Arena.ofProgram (Builder.run twinSteps).program

theorem collect_exact_twins :
    let d := Detector.ofConfig twinArena.model Config.default
    let records := ((ofArena twinArena cameraCatalog Config.default d false).collect
      { stats := { queries := 7 } }).1
    twinArena.BuiltBy twinSteps ∧ ⟨1, 0, cameraEntry⟩ ∈ records ∧ ⟨0, 1, cameraEntry⟩ ∈ records ∧
      ⟨2, 2, cameraEntry⟩ ∉ records := by
  intro d records
  have built : twinArena.BuiltBy twinSteps := Arena.builtBy_ofProgram twinSteps (by decide)
  have first : SensitiveCall twinArena cameraCatalog Config.default 0 1 cameraEntry :=
    ⟨by decide, ⟨_, rfl, by decide⟩, _, _, rfl, rfl, by decide⟩
  have second : SensitiveCall twinArena cameraCatalog Config.default 1 0 cameraEntry :=
    ⟨by decide, ⟨_, rfl, by decide⟩, _, _, rfl, rfl, by decide⟩
  have refused {s : StmtId} {m : MethodId} (unguarded : d.guard? s m = none)
      (alone : twinArena.callersOf m = []) :
      (Propagator.check ⟨twinArena.model, d, false⟩ s m {}).1 = false :=
    Propagator.check_of_uncalled twinArena.model_enumerated unguarded alone {}
  have trapped : securityHandler ∈ twinArena.traps 2 := by decide
  have caught : d.guard? 2 2 = some .exceptionHandler :=
    Detector.guard?_of_trap rfl rfl trapped (by decide) rfl
  obtain ⟨members, _⟩ :=
    collect_exact built cameraCatalog Config.default d false { stats := { queries := 7 } }
  refine ⟨built, (members _).mpr ⟨first, refused (by decide +kernel) (by decide +kernel)⟩,
    (members _).mpr ⟨second, refused (by decide +kernel) (by decide +kernel)⟩, ?_⟩
  intro member
  have accepted := Propagator.check_of_guard (p := ⟨twinArena.model, d, false⟩)
    twinArena.model_enumerated caught {}
  exact Bool.false_ne_true (((members _).mp member).2.symm.trans accepted)

end

end PermissionGuard
