import PermissionGuard.Proofs.Hierarchy
import PermissionGuard.Proofs.Misuse.Collection
import PermissionGuard.Proofs.Ordered
import PermissionGuard.Proofs.Program.Tables
import PermissionGuard.Proofs.Propagation.Simulation

/-!
More guards never make a misuse. Two constructions that differ in exception ranges and supertypes
give programs with the same statements, callers and dominators (`Program.MoreGuarded`), so the
second keeps every guard of the first, and its records are among those of the first.
-/

namespace PermissionGuard

/-- The second steps are the first with more exception ranges and supertypes between them. -/
inductive AddsGuards : List BuildStep → List BuildStep → Prop
  | done : AddsGuards [] []
  | same {steps more : List BuildStep} (step : BuildStep) (rest : AddsGuards steps more) :
      AddsGuards (step :: steps) (step :: more)
  | trap {steps more : List BuildStep} (m : MethodId) (range : ExceptionRange)
      (rest : AddsGuards steps more) : AddsGuards steps (.trap m range :: more)
  | subtype {steps more : List BuildStep} (child parent : Text)
      (rest : AddsGuards steps more) : AddsGuards steps (.subtype child parent :: more)

/-- The other method has the same ranges and possibly more. -/
def Method.MoreGuarded (method other : Method) : Prop :=
  ∃ traps, other = { method with traps } ∧ method.traps ⊆ traps

theorem Method.MoreGuarded.refl (method : Method) : method.MoreGuarded method :=
  ⟨method.traps, rfl, List.Subset.refl _⟩

namespace Program

/-- The other program has more exception ranges and supertypes, and is the same otherwise. -/
structure MoreGuarded (p q : Program) : Prop where
  stmts : q.stmts = p.stmts
  size : q.methods.size = p.methods.size
  method : ∀ m, Option.Rel Method.MoreGuarded (p.method? m) (q.method? m)
  edges : p.hierarchy.edges ⊆ q.hierarchy.edges
  entryPoints : q.entryPoints = p.entryPoints

variable {p q : Program} {m : MethodId} {method : Method}

theorem MoreGuarded.refl (p : Program) : p.MoreGuarded p where
  stmts := rfl
  size := rfl
  method m := by
    cases p.method? m with
    | none => exact .none
    | some method => exact .some (.refl method)
  edges := List.Subset.refl _
  entryPoints := rfl

/-- The method with the same number in the other program. -/
theorem MoreGuarded.known (more : p.MoreGuarded q) (known : p.method? m = some method) :
    ∃ traps, q.method? m = some { method with traps } ∧ method.traps ⊆ traps := by
  have related := more.method m
  rw [known] at related
  cases found : q.method? m with
  | none => rw [found] at related; cases related
  | some other =>
      rw [found] at related
      cases related with
      | some both =>
          obtain ⟨traps, rfl, kept⟩ := both
          exact ⟨traps, rfl, kept⟩

theorem MoreGuarded.unknown (more : p.MoreGuarded q) (unknown : p.method? m = none) :
    q.method? m = none := by
  have related := more.method m
  rw [unknown] at related
  cases found : q.method? m with
  | none => rfl
  | some other => rw [found] at related; cases related

theorem MoreGuarded.pushMethod (more : p.MoreGuarded q) (sig : Signature)
    (concrete library : Bool) :
    (p.pushMethod sig concrete library).MoreGuarded (q.pushMethod sig concrete library) where
  stmts := more.stmts
  size := by simp [Program.pushMethod, more.size]
  method m := by
    rw [pushMethod_method?, pushMethod_method?, more.size]
    split
    · exact .some (.refl _)
    · exact more.method m
  edges := more.edges
  entryPoints := more.entryPoints

theorem MoreGuarded.pushStatement (more : p.MoreGuarded q) {traps : List ExceptionRange}
    (spec : StatementSpec) (known : p.method? m = some method)
    (known' : q.method? m = some { method with traps }) (kept : method.traps ⊆ traps) :
    (p.pushStatement m method spec).MoreGuarded
      (q.pushStatement m { method with traps } spec) where
  stmts := by simp [Program.pushStatement, more.stmts]
  size := by simp [Program.pushStatement, more.size]
  method m' := by
    rw [pushStatement_method? known, pushStatement_method? known', more.stmts]
    split
    · exact .some ⟨traps, rfl, kept⟩
    · exact more.method m'
  edges := more.edges
  entryPoints := more.entryPoints

theorem MoreGuarded.pushCallee (more : p.MoreGuarded q) (s : StmtId) (callee : MethodId) :
    (p.pushCallee s callee).MoreGuarded (q.pushCallee s callee) where
  stmts := by simp [Program.pushCallee, more.stmts]
  size := more.size
  method := more.method
  edges := more.edges
  entryPoints := more.entryPoints

theorem MoreGuarded.pushRange (more : p.MoreGuarded q) {traps : List ExceptionRange}
    (range : ExceptionRange) (known : p.method? m = some method)
    (known' : q.method? m = some { method with traps }) (kept : method.traps ⊆ traps) :
    (p.pushRange m range).MoreGuarded (q.pushRange m range) where
  stmts := more.stmts
  size := by simp [Program.pushRange, more.size]
  method m' := by
    rw [pushRange_method? known, pushRange_method? known']
    split
    · exact .some ⟨traps ++ [range], rfl, List.append_subset.mpr
        ⟨List.Subset.trans kept (List.subset_append_left _ _), List.subset_append_right _ _⟩⟩
    · exact more.method m'
  edges := more.edges
  entryPoints := more.entryPoints

/-- A range that only the other program has. -/
theorem MoreGuarded.extraRange (more : p.MoreGuarded q) (range : ExceptionRange)
    (known' : q.method? m = some method) : p.MoreGuarded (q.pushRange m range) where
  stmts := more.stmts
  size := by simp [Program.pushRange, more.size]
  method m' := by
    rw [pushRange_method? known']
    split
    · rename_i same
      subst m'
      cases known : p.method? m with
      | none => cases known'.symm.trans (more.unknown known)
      | some old =>
          obtain ⟨traps, there, kept⟩ := more.known known
          cases known'.symm.trans there
          exact .some ⟨traps ++ [range], rfl,
            List.Subset.trans kept (List.subset_append_left _ _)⟩
    · exact more.method m'
  edges := more.edges
  entryPoints := more.entryPoints

end Program

theorem Hierarchy.edges_subset_addSubtype (h : Hierarchy) (child parent : Text) :
    h.edges ⊆ (h.addSubtype child parent).edges := by
  unfold Hierarchy.addSubtype
  split
  · exact List.Subset.refl _
  · exact List.subset_append_left _ _

theorem Hierarchy.addSubtype_subset {h h' : Hierarchy} (more : h.edges ⊆ h'.edges)
    (child parent : Text) :
    (h.addSubtype child parent).edges ⊆ (h'.addSubtype child parent).edges := by
  unfold Hierarchy.addSubtype
  split
  · exact more
  · exact List.append_subset.mpr
      ⟨List.Subset.trans more (List.subset_append_left _ _), List.subset_append_right _ _⟩

namespace Builder

open Program

variable {b c : Builder}

/-- A step taken in both programs. The errors may differ, but they change no program. -/
theorem apply_moreGuarded (more : b.program.MoreGuarded c.program) (step : BuildStep) :
    (b.apply step).program.MoreGuarded (c.apply step).program := by
  have statements (s : StmtId) : c.program.statement? s = b.program.statement? s := by
    rw [Program.statement?, more.stmts, Program.statement?]
  cases step with
  | method sig concrete library => exact more.pushMethod sig concrete library
  | statement m spec =>
      simp only [apply, addStatement]
      cases known : b.program.method? m with
      | none =>
          simp only [more.unknown known]
          exact more
      | some method =>
          obtain ⟨traps, known', kept⟩ := more.known known
          simp only [known']
          split
          · exact more
          · have pushed := more.pushStatement spec known known' kept
            exact pushed
  | edge s callee =>
      simp only [apply, addEdge, statements]
      cases b.program.statement? s with
      | none => exact more
      | some st =>
          cases known : b.program.method? callee with
          | none =>
              simp only [more.unknown known]
              exact more
          | some method =>
              obtain ⟨traps, known', _⟩ := more.known known
              simp only [known']
              split
              · exact more
              · split
                · exact more
                · exact more.pushCallee s callee
  | trap m range =>
      simp only [apply, addTrap]
      cases known : b.program.method? m with
      | none =>
          simp only [more.unknown known]
          exact more
      | some method =>
          obtain ⟨traps, known', kept⟩ := more.known known
          simp only [known']
          split
          · exact more
          · exact more.pushRange range known known' kept
  | subtype child parent =>
      exact { more with edges := Hierarchy.addSubtype_subset more.edges child parent }
  | entryPoint m =>
      simp only [apply, addEntryPoint]
      cases known : b.program.method? m with
      | none =>
          simp only [more.unknown known]
          exact more
      | some method =>
          obtain ⟨traps, known', _⟩ := more.known known
          simp only [known']
          exact { more with entryPoints := congrArg (· ++ [m]) more.entryPoints }
  | permissions permissions => exact { more with }
  | build =>
      simp only [apply, build, buildWith]
      split <;> split <;> exact more

theorem extraTrap_moreGuarded (more : b.program.MoreGuarded c.program) (m : MethodId)
    (range : ExceptionRange) : b.program.MoreGuarded (c.addTrap m range).program := by
  unfold addTrap
  split
  · exact more
  · rename_i method known
    split
    · exact more
    · exact more.extraRange range known

theorem run_moreGuarded {steps more : List BuildStep} (added : AddsGuards steps more) :
    (run steps).program.MoreGuarded (run more).program := by
  have kept : ∀ b c : Builder, b.program.MoreGuarded c.program →
      (steps.foldl apply b).program.MoreGuarded (more.foldl apply c).program := by
    induction added with
    | done => exact fun b c related => related
    | same step _ ih => exact fun b c related => ih _ _ (apply_moreGuarded related step)
    | trap m range _ ih => exact fun b c related => ih _ _ (extraTrap_moreGuarded related m range)
    | subtype child parent _ ih =>
        intro b c related
        refine ih b (c.addSubtype child parent) { related with edges := ?_ }
        exact List.Subset.trans related.edges (Hierarchy.edges_subset_addSubtype _ _ _)
  exact kept empty empty (.refl _)

end Builder

/-! ### Tables -/

namespace Program.MoreGuarded

variable {p q : Program} {m : MethodId}

theorem statement? (more : p.MoreGuarded q) : q.statement? = p.statement? := by
  funext s
  rw [Program.statement?, more.stmts, Program.statement?]

theorem methodIds (more : p.MoreGuarded q) : q.methodIds = p.methodIds := by
  rw [Program.methodIds, more.size, Program.methodIds]

theorem isInvoke (more : p.MoreGuarded q) : q.isInvoke = p.isInvoke := by
  funext s
  rw [Program.isInvoke, more.statement?, Program.isInvoke]

theorem callees (more : p.MoreGuarded q) : q.callees = p.callees := by
  funext s
  rw [Program.callees, more.statement?, Program.callees]

theorem calledFrom (more : p.MoreGuarded q) : q.calledFrom = p.calledFrom := by
  funext m
  simp only [Program.calledFrom]
  cases known : p.method? m with
  | none => rw [more.unknown known]
  | some method =>
      obtain ⟨traps, known', _⟩ := more.known known
      rw [known']
      simp only [Program.callSitesIn, more.isInvoke, more.callees]

theorem reachable (more : p.MoreGuarded q) : q.reachable = p.reachable := by
  simp only [Program.reachable, more.entryPoints, more.methodIds, more.calledFrom,
    Program.edgeCount, more.stmts]

theorem callerTable (more : p.MoreGuarded q) : q.callerTable = p.callerTable := by
  simp only [Program.callerTable, more.methodIds, more.stmts]

/-- The dominators of a body depend on its statements alone. -/
theorem dominatorLists (more : p.MoreGuarded q) (finder : DominatorFinder) :
    q.methods.toList.map (q.dominatorLists finder) =
      p.methods.toList.map (p.dominatorLists finder) := by
  apply List.ext_getElem?
  intro i
  have method := more.method i
  rw [Program.method?, entry?_natCast, Program.method?, entry?_natCast] at method
  rw [List.getElem?_map, List.getElem?_map, Array.getElem?_toList, Array.getElem?_toList]
  generalize p.methods[i]? = left, q.methods[i]? = right at method
  cases method with
  | none => rfl
  | some both =>
      obtain ⟨traps, rfl, _⟩ := both
      simp only [Option.map_some, Program.dominatorLists, flowGraph, more.statement?]

theorem dominators (more : p.MoreGuarded q) :
    (Arena.ofProgram q).dominators = (Arena.ofProgram p).dominators := by
  rw [Arena.ofProgram, Arena.ofProgram, ofProgramWith_dominators, ofProgramWith_dominators,
    List.flatMap_def, List.flatMap_def, more.dominatorLists, more.stmts]

end Program.MoreGuarded

section

open Collector Propagator

variable {a b : Arena} {steps more : List BuildStep}

/-- What the analyses see of two programs, of which the second has more guards. -/
structure Arena.MoreGuarded (a b : Arena) : Prop where
  program : a.toProgram.MoreGuarded b.toProgram
  callers : b.callers = a.callers
  dominators : b.dominators = a.dominators
  reachable : b.reachableMethods = a.reachableMethods

theorem Arena.BuiltBy.moreGuarded (built : a.BuiltBy steps) (built' : b.BuiltBy more)
    (added : AddsGuards steps more) : a.MoreGuarded b := by
  have related := Builder.run_moreGuarded added
  obtain rfl := built.eq_ofProgram
  obtain rfl := built'.eq_ofProgram
  exact ⟨related, related.callerTable, related.dominators, related.reachable⟩

namespace Arena.MoreGuarded

variable {s : StmtId} {m : MethodId} {failureType : Text} {checks checks' : List Text}

theorem enclosing (related : a.MoreGuarded b) : b.enclosing = a.enclosing := by
  funext s
  rw [Arena.enclosing, related.program.statement?, Arena.enclosing]

theorem callersOf (related : a.MoreGuarded b) : b.callersOf = a.callersOf := by
  funext m
  rw [Arena.callersOf, related.callers, Arena.callersOf]

theorem dominatorsOf (related : a.MoreGuarded b) : b.dominatorsOf = a.dominatorsOf := by
  funext s m
  rw [Arena.dominatorsOf, related.program.statement?, related.dominators, Arena.dominatorsOf]

theorem traps (related : a.MoreGuarded b) (m : MethodId) : a.traps m ⊆ b.traps m := by
  simp only [Arena.traps]
  cases known : a.method? m with
  | none => exact List.nil_subset _
  | some method =>
      obtain ⟨traps, known', kept⟩ := related.program.known known
      rw [known']
      exact kept

theorem caughtAt (related : a.MoreGuarded b) (caught : a.caughtAt failureType s m = true) :
    b.caughtAt failureType s m = true := by
  simp only [Arena.caughtAt, related.program.statement?] at caught ⊢
  cases known : a.statement? s with
  | none => simp [known] at caught
  | some st =>
      simp only [known, Bool.and_eq_true, List.any_eq_true] at caught ⊢
      obtain ⟨inMethod, trap, member, covers, catches⟩ := caught
      exact ⟨inMethod, trap, related.traps m member, covers,
        Hierarchy.isSubtype_mono related.program.edges catches⟩

theorem isCheckCall (related : a.MoreGuarded b) (moreChecks : checks ⊆ checks')
    (found : (Detector.ofNames a.model failureType checks).isCheckCall s = true) :
    (Detector.ofNames b.model failureType checks').isCheckCall s = true := by
  simp only [Detector.isCheckCall, Detector.ofNames, Arena.model,
    related.program.statement?] at found ⊢
  cases known : a.statement? s with
  | none => simp [known] at found
  | some st =>
      simp only [known, Option.any_eq_true, List.contains_iff_mem] at found ⊢
      obtain ⟨target, isTarget, isCheck⟩ := found
      exact ⟨target, isTarget, moreChecks isCheck⟩

theorem guard? (related : a.MoreGuarded b) (moreChecks : checks ⊆ checks')
    (found : ((Detector.ofNames a.model failureType checks).guard? s m).isSome) :
    ((Detector.ofNames b.model failureType checks').guard? s m).isSome := by
  rw [Detector.guard?_isSome] at found ⊢
  rcases found with caught | checked
  · exact Or.inl (related.caughtAt caught)
  · right
    simp only [Detector.proactivelyChecked, List.any_eq_true] at checked ⊢
    obtain ⟨t, dominates, isCheck⟩ := checked
    refine ⟨t, ?_, related.isCheckCall moreChecks isCheck⟩
    change t ∈ b.dominatorsOf s m
    rw [related.dominatorsOf]
    exact dominates

/-- Every statement stands for itself. -/
theorem simulates (related : a.MoreGuarded b) (moreChecks : checks ⊆ checks') (mode : Bool) :
    Simulates ⟨a.model, .ofNames a.model failureType checks, mode⟩
      ⟨b.model, .ofNames b.model failureType checks', mode⟩ (· = ·) where
  keeps_guard := by
    rintro s _ rfl found
    change (Detector.guard? _ s (b.enclosing s)).isSome
    rw [related.enclosing]
    exact related.guard? moreChecks found
  keeps_invocation := by
    rintro s _ rfl invocation
    simpa only [isInvocation, Arena.model, related.program.statement?] using invocation
  forth := by
    rintro s _ rfl c caller
    refine ⟨c, ?_, rfl⟩
    simpa only [callersAt, Arena.model, related.enclosing, related.callersOf] using caller
  back := by
    rintro s _ rfl c caller
    refine ⟨c, ?_, rfl⟩
    simpa only [callersAt, Arena.model, related.enclosing, related.callersOf] using caller
  unique := ⟨fun _ _ _ left right => left.trans right.symm,
    fun _ _ _ left right => left.symm.trans right⟩

theorem sensitiveCall (related : a.MoreGuarded b) {catalog : Catalog} {config : Config}
    {entry : SensitiveMethod} (call : SensitiveCall b catalog config m s entry) :
    SensitiveCall a catalog config m s entry where
  reachable := related.reachable ▸ call.reachable
  inApplication := by
    obtain ⟨method', known', application⟩ := call.inApplication
    cases known : a.method? m with
    | none => cases known'.symm.trans (related.program.unknown known)
    | some method =>
        obtain ⟨traps, there, _⟩ := related.program.known known
        cases known'.symm.trans there
        exact ⟨method, rfl, application⟩
  found := by
    obtain ⟨st, target, statement, found⟩ := call.found
    rw [related.program.statement?] at statement
    exact ⟨st, target, statement, found⟩

theorem place (related : a.MoreGuarded b) (catalog : Catalog) (config : Config)
    (d d' : Detector) (mode : Bool) :
    (ofArena b catalog config d' mode).place = (ofArena a catalog config d mode).place := by
  have name (m : MethodId) : b.model.methodName m = a.model.methodName m := by
    simp only [Model.methodName, Arena.model]
    cases known : a.method? m with
    | none => rw [related.program.unknown known]
    | some method =>
        obtain ⟨traps, known', _⟩ := related.program.known known
        rw [known']
  have index (s : StmtId) : b.model.statement? s = a.model.statement? s :=
    congrFun related.program.statement? s
  funext r
  simp only [Collector.place, ofArena, name, index]

end Arena.MoreGuarded

/-- With more exception ranges, more supertypes and more names of checks, every query that found
guards finds them, and the records are a part of those before, in the same order. -/
theorem more_guards_fewer_records (built : a.BuiltBy steps) (built' : b.BuiltBy more)
    (added : AddsGuards steps more) (failureType : Text) {checks checks' : List Text}
    (moreChecks : checks ⊆ checks') (mode : Bool) (st st' : Progress) :
    let d := Detector.ofNames a.model failureType checks
    let d' := Detector.ofNames b.model failureType checks'
    (∀ s, (Propagator.check ⟨a.model, d, mode⟩ s (a.enclosing s) st).1 = true →
      (Propagator.check ⟨b.model, d', mode⟩ s (b.enclosing s) st').1 = true) ∧
    ∀ catalog config, ((ofArena b catalog config d' mode).collect st').1.Sublist
      ((ofArena a catalog config d mode).collect st).1 := by
  intro d d'
  have related := built.moreGuarded built' added
  have accepted (s : StmtId) (st st' : Progress)
      (accepted : (Propagator.check ⟨a.model, d, mode⟩ s (a.enclosing s) st).1 = true) :
      (Propagator.check ⟨b.model, d', mode⟩ s (b.enclosing s) st').1 = true :=
    (related.simulates moreChecks mode).check a.model_enumerated b.model_enumerated
      built.callersOf_nodup built'.callersOf_nodup rfl accepted
  refine ⟨fun s => accepted s st st', fun catalog config => ?_⟩
  have increasing : ((ofArena b catalog config d' mode).collect st').1.Pairwise _ :=
    collect_increasing built' st'
  rw [related.place catalog config d d' mode] at increasing
  refine sublist_of_pairwise_of_subset ?_ increasing (collect_increasing built st) ?_
  · exact fun r r' before after => placeBefore_irrefl _ (before.trans after)
  · intro r member
    obtain ⟨call, refused⟩ := mem_collect_ofArena.mp member
    have before := related.sensitiveCall call
    refine mem_collect_ofArena.mpr ⟨before, ?_⟩
    obtain ⟨method, known, _, _, _, inBody⟩ := before.inApplication
    have enclosed := built.enclosing_eq known inBody
    rw [Bool.eq_false_iff] at refused ⊢
    intro guarded
    have kept := accepted r.stmt {} {} (enclosed.symm ▸ guarded)
    rw [related.enclosing, enclosed] at kept
    exact refused kept

/-- A method that opens the camera, called by one that another calls. -/
def openSteps : List BuildStep :=
  let take : Signature := ⟨"app.Main", "take", "void", []⟩
  let pass : Signature := ⟨"app.Main", "pass", "void", []⟩
  [.method take true false, .method pass true false,
    .method ⟨"app.Main", "run", "void", []⟩ true false,
    .statement 0 { target := some cameraOpen }, .statement 1 { target := some take },
    .statement 2 { target := some pass }, .edge 1 0, .edge 2 1]

/-- The last method catches a supertype of what opening the camera raises. -/
def handledSteps : List BuildStep :=
  .subtype "java.lang.SecurityException" "java.lang.Exception" :: openSteps ++
    [.trap 2 ⟨0, 1, "java.lang.Exception"⟩]

def openArena : Arena := Arena.ofProgram (Builder.run openSteps).program

def handledArena : Arena := Arena.ofProgram (Builder.run handledSteps).program

theorem more_guards_fewer_records_handler :
    let d := Detector.ofNames openArena.model "java.lang.SecurityException" []
    let d' := Detector.ofNames handledArena.model "java.lang.SecurityException" ["check"]
    openArena.BuiltBy openSteps ∧ handledArena.BuiltBy handledSteps ∧
      AddsGuards openSteps handledSteps ∧
      ((ofArena handledArena cameraCatalog Config.default d' false).collect {}).1.Sublist
        ((ofArena openArena cameraCatalog Config.default d false).collect {}).1 := by
  intro d d'
  have built : openArena.BuiltBy openSteps := Arena.builtBy_ofProgram openSteps (by decide)
  have built' : handledArena.BuiltBy handledSteps :=
    Arena.builtBy_ofProgram handledSteps (by decide)
  have added : AddsGuards openSteps handledSteps :=
    .subtype _ _ (.same _ (.same _ (.same _ (.same _ (.same _ (.same _ (.same _ (.same _
      (.trap _ _ .done)))))))))
  exact ⟨built, built', added, (more_guards_fewer_records built built' added
    "java.lang.SecurityException" (List.nil_subset _) false {} {}).2 cameraCatalog
    Config.default⟩

end

end PermissionGuard
