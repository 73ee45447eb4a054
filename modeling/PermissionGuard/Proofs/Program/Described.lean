import PermissionGuard.Proofs.Program.Denotation
import Mathlib.Logic.Function.Basic

/-!
The methods and statements of a described program. Placing the entries of a description one after
the other puts every statement where its entry stands (`Filled`), so the program that is built has
the methods, bodies, exception ranges and calls of the description and no others (`Denotes`), and a
description is accepted exactly when it is valid (`toArena_eq_ok_iff`).
-/

namespace PermissionGuard.Description

open Program

variable {d : Description} {p : Program} {entry : MethodEntry} {statement : StatementEntry}
variable {m : Nat} {count : Nat → Nat} {ranges : Nat → List ExceptionRange}

/-- A statement stands where the entry of its method has it, and is as described there. -/
structure Describes (d : Description) (st : Statement) (m : Nat) (entry : MethodEntry)
    (statement : StatementEntry) : Prop where
  inMethod : st.method = m
  method : d.methods[m]? = some entry
  position : entry.body[st.index]? = some statement
  target : st.target = statement.spec.target
  succs : st.succs = statement.succs
  line : st.line = statement.line
  callees : st.callees = d.callees statement

/-- A program with the described methods, of which so many statements and these exception ranges
are placed. -/
structure Filled (d : Description) (count : Nat → Nat) (ranges : Nat → List ExceptionRange)
    (p : Program) : Prop where
  headed : p.headers = d.headers
  body_length : ∀ {i : Nat} {method}, p.method? i = some method → method.body.length = count i
  traps : ∀ {i : Nat} {method}, p.method? i = some method → method.traps = ranges i
  statement : ∀ {s st}, p.statement? s = some st →
    ∃ m entry statement, d.Describes st m entry statement

theorem Filled.place (filled : d.Filled count ranges p) (described : d.methods[m]? = some entry)
    (next : entry.body[count m]? = some statement) :
    d.Filled (Function.update count m (count m + 1)) ranges (d.place m p statement) := by
  obtain ⟨method, known, _⟩ := method_of_entry filled.headed described
  have placed : d.place m p statement =
      p.pushCaller m method statement.spec (d.callees statement) := by
    simp only [Description.place, known]
  have methods (i : Nat) := pushStatement_method? known statement.spec i
  have statements (s : StmtId) := entry?_push p.stmts ⟨p.stmts.size, m, method.body.length,
    statement.spec.target, statement.spec.succs, statement.spec.line, d.callees statement⟩ s
  constructor
  case headed =>
    exact place_headers filled.headed m
  case body_length =>
    intro i new found
    rw [placed] at found
    have found' := (methods i).symm.trans found
    split at found'
    · rename_i same
      cases Int.ofNat.inj same
      cases found'
      simp [filled.body_length known]
    · rename_i other
      have different : i ≠ m := fun same => other (same ▸ rfl)
      rw [Function.update_of_ne different]
      exact filled.body_length found'
  case traps =>
    intro i new found
    rw [placed] at found
    have found' := (methods i).symm.trans found
    split at found'
    · rename_i same
      cases Int.ofNat.inj same
      cases found'
      exact (filled.traps known :)
    · exact filled.traps found'
  case statement =>
    intro s st found
    rw [placed] at found
    have found' := (statements s).symm.trans found
    split at found'
    · cases found'
      refine ⟨m, entry, statement, rfl, described, ?_, rfl, rfl, rfl, rfl⟩
      rw [filled.body_length known]
      exact next
    · exact filled.statement found'

/-- The rest of a body goes after what is placed of it. -/
theorem Filled.placeAll (described : d.methods[m]? = some entry) (rest : List StatementEntry)
    (filled : d.Filled count ranges p) (remaining : entry.body.drop (count m) = rest) :
    d.Filled (Function.update count m (count m + rest.length)) ranges
      (rest.foldl (d.place m) p) := by
  induction rest generalizing p count with
  | nil => simpa using filled
  | cons statement rest ih =>
      obtain ⟨next, others⟩ := remaining_cons remaining
      have advanced := ih (filled.place described next) (by rwa [Function.update_self])
      rw [Function.update_idem, Function.update_self] at advanced
      rw [List.foldl_cons, List.length_cons, Nat.add_comm rest.length 1, ← Nat.add_assoc]
      exact advanced

theorem Filled.pushRange (filled : d.Filled count ranges p)
    (known : ∃ method, p.method? m = some method) (range : ExceptionRange) :
    d.Filled count (Function.update ranges m (ranges m ++ [range])) (p.pushRange m range) := by
  obtain ⟨method, known⟩ := known
  have methods (i : Nat) := pushRange_method? known range i
  constructor
  case headed =>
    exact (pushRange_headers p m range).trans filled.headed
  case body_length =>
    intro i new found
    rw [methods] at found
    split at found
    · rename_i same
      cases Int.ofNat.inj same
      cases found
      exact (filled.body_length known :)
    · exact filled.body_length found
  case traps =>
    intro i new found
    rw [methods] at found
    split at found
    · rename_i same
      cases Int.ofNat.inj same
      cases found
      simp [filled.traps known]
    · rename_i other
      have different : i ≠ m := fun same => other (same ▸ rfl)
      rw [Function.update_of_ne different]
      exact filled.traps found
  case statement =>
    exact filled.statement

theorem Filled.pushAll (described : d.methods[m]? = some entry) (traps : List TrapEntry)
    (filled : d.Filled count ranges p) :
    d.Filled count (Function.update ranges m (ranges m ++ traps.map TrapEntry.range))
      (traps.foldl (fun p trap => p.pushRange m trap.range) p) := by
  induction traps generalizing p ranges with
  | nil => simpa using filled
  | cons trap traps ih =>
      obtain ⟨method, known, _⟩ := method_of_entry filled.headed described
      have advanced := ih (filled.pushRange ⟨method, known⟩ trap.range)
      rw [Function.update_idem, Function.update_self, List.append_assoc] at advanced
      exact advanced

theorem Filled.placeBody (filled : d.Filled count ranges p)
    (described : d.methods[m]? = some entry) (unplaced : count m = 0) (bare : ranges m = []) :
    d.Filled (Function.update count m entry.body.length)
      (Function.update ranges m (entry.traps.map TrapEntry.range)) (d.placeBody p entry m) := by
  have placed := filled.placeAll described entry.body (by rw [unplaced]; rfl)
  have trapped := placed.pushAll described entry.traps
  rw [unplaced, Nat.zero_add, bare, List.nil_append] at trapped
  exact trapped

/-- What the methods below a number have of their bodies when they are placed in their order. -/
def placedBelow {α : Type} (d : Description) (part : MethodEntry → List α) (k i : Nat) : List α :=
  if i < k then ((d.methods[i]?).map part).getD [] else []

theorem placedBelow_succ {α β : Type} (part : MethodEntry → List α) (view : List α → β)
    (described : d.methods[m]? = some entry) :
    Function.update (fun i => view (d.placedBelow part m i)) m (view (part entry)) =
      fun i => view (d.placedBelow part (m + 1) i) := by
  funext i
  by_cases same : i = m
  · subst i
    simp [placedBelow, described]
  · rw [Function.update_of_ne same]
    have below : i < m + 1 ↔ i < m := by omega
    simp only [placedBelow, below]

theorem Filled.placeBodies {rest : List MethodEntry} {k : Nat}
    (filled : d.Filled (fun i => (d.placedBelow MethodEntry.body k i).length)
      (fun i => (d.placedBelow MethodEntry.traps k i).map TrapEntry.range) p)
    (remaining : d.methods.drop k = rest) :
    d.Filled (fun i => (d.placedBelow MethodEntry.body (k + rest.length) i).length)
      (fun i => (d.placedBelow MethodEntry.traps (k + rest.length) i).map TrapEntry.range)
      ((rest.zipIdx k).foldl (fun p (entry, m) => d.placeBody p entry m) p) := by
  induction rest generalizing p k with
  | nil => exact filled
  | cons entry rest ih =>
      obtain ⟨described, others⟩ := remaining_cons remaining
      have placed := filled.placeBody described (by simp [placedBelow]) (by simp [placedBelow])
      rw [placedBelow_succ MethodEntry.body List.length described,
        placedBelow_succ MethodEntry.traps (List.map TrapEntry.range) described] at placed
      have advanced := ih placed others
      rw [List.zipIdx_cons, List.foldl_cons, List.length_cons, Nat.add_comm rest.length 1,
        ← Nat.add_assoc]
      exact advanced

/-- The declared methods are still empty. -/
theorem declared_bare (d : Description) :
    (∀ i method, (d.methods.foldl declare d.frame).method? i = some method →
      method.body = [] ∧ method.traps = []) ∧
      (d.methods.foldl declare d.frame).stmts = #[] := by
  refine List.foldlRecOn (motive := fun p : Program => (∀ i method, p.method? i = some method →
    method.body = [] ∧ method.traps = []) ∧ p.stmts = #[]) d.methods declare ?_ ?_
  · exact ⟨fun i method found => by simp [frame, Program.empty, Program.method?, entry?] at found,
      rfl⟩
  · rintro p ⟨bare, none⟩ entry _
    unfold declare
    split
    · refine ⟨fun i method found => ?_, none⟩
      rw [pushMethod_method?] at found
      split at found
      · cases found
        exact ⟨rfl, rfl⟩
      · exact bare i method found
    · exact ⟨bare, none⟩

theorem declared_filled (valid : ∀ entry ∈ d.methods, ValidMethod entry) :
    d.Filled (fun _ => 0) (fun _ => []) (d.methods.foldl declare d.frame) := by
  obtain ⟨bare, unstated⟩ := declared_bare d
  constructor
  case headed =>
    exact frame_declared_headers valid
  case body_length =>
    intro i method found
    rw [(bare _ _ found).1]
    rfl
  case traps =>
    intro i method found
    exact (bare _ _ found).2
  case statement =>
    intro s st found
    rw [Program.statement?, unstated] at found
    simp [ entry?] at found

/-- Entering methods changes the entry points alone. -/
theorem foldl_enter (d : Description) (writtens : List Text) (p : Program) :
    writtens.foldl d.enter p =
      { p with entryPoints := p.entryPoints ++
          (writtens.filterMap d.resolve?).map Int.ofNat } := by
  induction writtens generalizing p with
  | nil => simp
  | cons written writtens ih =>
      rw [List.foldl_cons, ih]
      unfold enter
      cases resolved : d.resolve? written with
      | none => simp [resolved]
      | some m => simp [resolved]

/-- What neither methods nor statements change. -/
def surroundings (p : Program) : Hierarchy × List MethodId × List Text :=
  (p.hierarchy, p.entryPoints, p.permissions)

theorem declare_surroundings (p : Program) (entry : MethodEntry) :
    surroundings (declare p entry) = surroundings p := by
  unfold declare
  split <;> rfl

theorem placeBody_surroundings (d : Description) (p : Program) (entry : MethodEntry) (m : Nat) :
    surroundings (d.placeBody p entry m) = surroundings p := by
  have placed : surroundings (entry.body.foldl (d.place m) p) = surroundings p := by
    refine List.foldlRecOn (motive := fun q => surroundings q = surroundings p) entry.body _ rfl ?_
    intro q same statement _
    rw [← same]
    unfold place
    split <;> rfl
  exact List.foldlRecOn (motive := fun q => surroundings q = surroundings p) entry.traps _ placed
    fun q same trap _ => same

theorem placed_surroundings (d : Description) :
    surroundings (d.methods.zipIdx.foldl (fun p (entry, m) => d.placeBody p entry m)
      (d.methods.foldl declare d.frame)) = surroundings d.frame := by
  have declared : surroundings (d.methods.foldl declare d.frame) = surroundings d.frame :=
    List.foldlRecOn (motive := fun q => surroundings q = surroundings d.frame) d.methods _ rfl
      fun q same entry _ => (declare_surroundings q entry).trans same
  exact List.foldlRecOn (motive := fun q => surroundings q = surroundings d.frame) d.methods.zipIdx
    _ declared fun q same x _ => (placeBody_surroundings d q x.1 x.2).trans same

theorem program_filled (valid : ∀ entry ∈ d.methods, ValidMethod entry) :
    d.Filled (fun i => (d.placedBelow MethodEntry.body d.methods.length i).length)
      (fun i => (d.placedBelow MethodEntry.traps d.methods.length i).map TrapEntry.range)
      d.program := by
  have declared := declared_filled valid
  have placed := Filled.placeBodies (d := d) (k := 0) (by simpa [placedBelow] using declared) rfl
  rw [Nat.zero_add] at placed
  rw [program, foldl_enter]
  exact { placed with }

/-! ### Steps of the construction -/

/-- The steps of a construction lead to the builder. -/
def Made (b : Builder) : Prop := ∃ steps, Builder.run steps = b

theorem Made.apply {b : Builder} (made : Made b) (step : BuildStep) : Made (b.apply step) := by
  obtain ⟨steps, rfl⟩ := made
  exact ⟨steps ++ [step], by simp [Builder.run]⟩

theorem Made.foldlM {α ε : Type} {f : Builder → α → Except ε Builder}
    (kept : ∀ {b x c}, f b x = .ok c → Made b → Made c) {items : List α} {b c : Builder}
    (folded : items.foldlM f b = .ok c) (made : Made b) : Made c := by
  induction items generalizing b with
  | nil =>
      cases folded
      exact made
  | cons x items ih =>
      rw [List.foldlM_cons, bind_eq_ok_iff] at folded
      obtain ⟨next, first, rest⟩ := folded
      exact ih rest (kept first made)

theorem made_frame (d : Description) : Made ⟨d.frame, []⟩ := by
  have recorded (records : List (Text × Text)) {p : Program} (made : Made ⟨p, []⟩) :
      Made ⟨{ p with hierarchy := record p.hierarchy records }, []⟩ := by
    induction records generalizing p with
    | nil => exact made
    | cons r records ih => exact ih (made.apply (.subtype r.1 r.2))
  exact recorded d.supertypes (Made.apply ⟨[], rfl⟩ (.permissions d.permissions))

theorem made_addMethod {b c : Builder} {index : Nat} (added : addMethod b index entry = .ok c)
    (made : Made b) : Made c := by
  unfold addMethod at added
  split at added
  · cases added
  · rename_i sig _
    split at added
    · cases added
    · cases added
      exact made.apply (.method sig entry.concrete entry.library)

theorem made_addDirectEdge {b : Builder} {s : StmtId} {sig : Signature} (made : Made b) :
    Made (addDirectEdge b s sig) := by
  unfold addDirectEdge
  split
  · rename_i callee _
    split
    · exact made.apply (.edge s callee)
    · exact made
  · exact made

theorem made_addTarget {b c : Builder} {s : StmtId} {fault : LookupError → DescriptionError}
    {written : Text} (added : addTarget s fault b written = .ok c) (made : Made b) : Made c := by
  unfold addTarget at added
  split at added
  · rename_i callee _
    cases added
    exact made.apply (.edge s callee)
  · cases added

theorem made_addStatement {b c : Builder} {id : MethodId} {name : Text} {index : Nat}
    (added : addStatement id name b index statement = .ok c) (made : Made b) : Made c := by
  rw [addStatement_of_readable (readable_of_addStatement added)] at added
  have opened : Made (b.addStatement id statement.spec).1 :=
    made.apply (.statement id statement.spec)
  refine Made.foldlM made_addTarget added ?_
  split
  · exact made_addDirectEdge opened
  · exact opened

theorem made_addBody {b c : Builder} (added : addBody b m entry = .ok c) (made : Made b) :
    Made c := by
  obtain ⟨next, placed, trapped⟩ := bind_eq_ok_iff.mp added
  have middle : Made next := Made.foldlM (fun added => made_addStatement added) placed made
  cases trapped
  exact List.foldlRecOn (motive := Made) entry.traps _ middle
    fun b made trap _ => made.apply (.trap m trap.range)

theorem made_addEntryPoint {b c : Builder} {written : Text}
    (added : addEntryPoint b written = .ok c) (made : Made b) : Made c := by
  unfold addEntryPoint at added
  split at added
  · rename_i m _
    cases added
    exact made.apply (.entryPoint m)
  · cases added

theorem program_made (validMethods : ∀ entry ∈ d.methods, ValidMethod entry)
    (validBodies : ∀ entry ∈ d.methods, d.ValidBody entry)
    (validEntries : ∀ written ∈ d.entryPoints, (d.resolve? written).isSome) :
    Made ⟨d.program, []⟩ := by
  have headed := frame_declared_headers validMethods
  have declared := (addMethods_eq_ok_iff d rfl).mpr ⟨validMethods, rfl⟩
  have placed := (addBodies_eq_ok_iff headed validMethods rfl).mpr ⟨validBodies, rfl⟩
  have entered := (addEntryPoints_eq_ok_iff
    (foldl_placeBody_headers headed d.methods.zipIdx) rfl).mpr ⟨validEntries, rfl⟩
  exact Made.foldlM (fun added => made_addEntryPoint added) entered
    (Made.foldlM (fun added => made_addBody added) placed
      (Made.foldlM (fun added => made_addMethod added) declared (made_frame d)))

/-- What holds of the program that a description denotes. -/
structure Denotes (d : Description) (p : Program) : Prop where
  wellFormed : p.WellFormed
  headed : p.headers = d.headers
  body_length : ∀ {m : Nat} {entry method}, d.methods[m]? = some entry →
    p.method? m = some method → method.body.length = entry.body.length
  traps : ∀ {m : Nat} {entry method}, d.methods[m]? = some entry → p.method? m = some method →
    method.traps = entry.traps.map TrapEntry.range
  statement : ∀ {s st}, p.statement? s = some st →
    ∃ m entry statement, d.Describes st m entry statement
  entryPoints : p.entryPoints = (d.entryPoints.filterMap d.resolve?).map Int.ofNat
  hierarchy : p.hierarchy = record Hierarchy.empty d.supertypes

theorem program_denotes (validMethods : ∀ entry ∈ d.methods, ValidMethod entry)
    (validBodies : ∀ entry ∈ d.methods, d.ValidBody entry)
    (validEntries : ∀ written ∈ d.entryPoints, (d.resolve? written).isSome) :
    d.Denotes d.program := by
  have filled := program_filled validMethods
  have complete {α : Type} (part : MethodEntry → List α) {m : Nat} {entry : MethodEntry}
      (described : d.methods[m]? = some entry) :
      d.placedBelow part d.methods.length m = part entry := by
    rw [placedBelow, if_pos (List.getElem?_eq_some_iff.mp described).1, described]
    rfl
  obtain ⟨steps, made⟩ := program_made validMethods validBodies validEntries
  have wellFormed := Builder.run_wellFormed steps
  rw [made] at wellFormed
  constructor
  case wellFormed =>
    exact wellFormed
  case headed =>
    exact filled.headed
  case body_length =>
    intro m entry method described known
    rw [filled.body_length known, complete _ described]
  case traps =>
    intro m entry method described known
    rw [filled.traps known, complete _ described]
  case statement =>
    exact filled.statement
  case entryPoints =>
    rw [program, foldl_enter]
    exact congrArg (· ++ _) (congrArg (·.2.1) (placed_surroundings d))
  case hierarchy =>
    rw [program, foldl_enter]
    exact congrArg (·.1) (placed_surroundings d)

/-- No successor leaves the body. -/
def ValidFlow (entry : MethodEntry) : Prop :=
  ∀ statement ∈ entry.body, ∀ succ ∈ statement.succs.getD [],
    0 ≤ succ ∧ succ < entry.body.length

theorem Denotes.statement_at (denotes : d.Denotes p) {method : Method} {i : Nat}
    (described : d.methods[m]? = some entry) (known : p.method? m = some method)
    (position : entry.body[i]? = some statement) :
    ∃ s st, method.body[i]? = some s ∧ p.statement? s = some st ∧ st.index = i ∧
      d.Describes st m entry statement := by
  have bound : i < method.body.length := by
    rw [denotes.body_length described known]
    exact (List.getElem?_eq_some_iff.mp position).1
  have place : method.body[i]? = some method.body[i] := List.getElem?_eq_getElem bound
  obtain ⟨st, found, inMethod, atIndex⟩ := denotes.wellFormed.body_statement known place
  obtain ⟨m', entry', statement', describes⟩ := denotes.statement found
  cases Int.ofNat.inj (describes.inMethod.symm.trans inMethod)
  cases described.symm.trans describes.method
  have same := describes.position
  rw [atIndex] at same
  cases position.symm.trans same
  exact ⟨_, st, place, found, atIndex, describes⟩

theorem Denotes.flow_iff (denotes : d.Denotes p) :
    p.methods.toList.flatMap (Builder.strayedSuccessors p) = [] ↔
      ∀ entry ∈ d.methods, ValidFlow entry := by
  simp only [List.flatMap_eq_nil_iff, Builder.strayedSuccessors_eq_nil_iff]
  constructor
  · intro valid entry member statement inBody succ leads
    obtain ⟨m, described⟩ := List.getElem?_of_mem member
    obtain ⟨i, position⟩ := List.getElem?_of_mem inBody
    obtain ⟨method, known, _⟩ := method_of_entry denotes.headed described
    obtain ⟨s, st, place, found, _, describes⟩ :=
      denotes.statement_at described known position
    rw [← denotes.body_length described known]
    exact valid method (mem_methods.mpr ⟨m, known⟩) s (List.mem_of_getElem? place) st found succ
      (describes.succs ▸ leads)
  · intro valid method inMethods s inBody st found succ leads
    obtain ⟨id, known⟩ := mem_methods.mp inMethods
    obtain ⟨m, entry, statement, describes⟩ := denotes.statement found
    obtain ⟨i, position⟩ := List.getElem?_of_mem inBody
    obtain ⟨st', found', inMethod, _⟩ := denotes.wellFormed.body_statement known position
    cases found.symm.trans found'
    rw [← inMethod, describes.inMethod] at known
    rw [denotes.body_length describes.method known]
    exact valid entry (List.mem_of_getElem? describes.method) statement
      (List.mem_of_getElem? describes.position) succ (describes.succs ▸ leads)

/-- What a description has to satisfy. -/
structure Valid (d : Description) : Prop where
  methods : ∀ entry ∈ d.methods, ValidMethod entry
  bodies : ∀ entry ∈ d.methods, d.ValidBody entry
  entryPoints : ∀ written ∈ d.entryPoints, (d.resolve? written).isSome
  flow : ∀ entry ∈ d.methods, ValidFlow entry

instance (written : Text) : Decidable (d.ValidTarget written) :=
  decidable_of_iff ((d.resolve? written).any d.isConcrete = true) (Option.any_eq_true _ _)

instance (statement : StatementEntry) : Decidable (d.ValidStatement statement) :=
  inferInstanceAs (Decidable ((_ ∨ _) ∧ _))

instance : DecidablePred ValidMethod := fun _ => inferInstanceAs (Decidable (_ ∧ _))

instance : DecidablePred ValidTrap := fun _ => inferInstanceAs (Decidable (_ ∧ _))

instance (entry : MethodEntry) : Decidable (d.ValidBody entry) :=
  inferInstanceAs (Decidable (_ ∧ _))

instance : DecidablePred ValidFlow := fun entry =>
  inferInstanceAs (Decidable (∀ statement ∈ entry.body, ∀ succ ∈ statement.succs.getD [], _ ∧ _))

instance (d : Description) : Decidable d.Valid :=
  decidable_of_iff ((∀ entry ∈ d.methods, ValidMethod entry) ∧
      (∀ entry ∈ d.methods, d.ValidBody entry) ∧
      (∀ written ∈ d.entryPoints, (d.resolve? written).isSome) ∧
      ∀ entry ∈ d.methods, ValidFlow entry)
    ⟨fun ⟨methods, bodies, entryPoints, flow⟩ => ⟨methods, bodies, entryPoints, flow⟩,
      fun valid => ⟨valid.methods, valid.bodies, valid.entryPoints, valid.flow⟩⟩

theorem Valid.denotes (valid : d.Valid) : d.Denotes d.program :=
  program_denotes valid.methods valid.bodies valid.entryPoints

/-- A description is accepted exactly when it is valid, and gives the program that it denotes. -/
theorem toArena_eq_ok_iff {a : Arena} :
    d.toArena = .ok a ↔ d.Valid ∧ a = Arena.ofProgram d.program := by
  rw [toArena_eq_ok_iff_program]
  constructor
  · rintro ⟨methods, bodies, entryPoints, noStrays, same⟩
    have denotes := program_denotes methods bodies entryPoints
    exact ⟨⟨methods, bodies, entryPoints, denotes.flow_iff.mp noStrays⟩, same⟩
  · rintro ⟨valid, same⟩
    exact ⟨valid.methods, valid.bodies, valid.entryPoints, valid.denotes.flow_iff.mpr valid.flow,
      same⟩

theorem Valid.builtBy (valid : d.Valid) : ∃ steps, (Arena.ofProgram d.program).BuiltBy steps := by
  obtain ⟨steps, made⟩ := program_made valid.methods valid.bodies valid.entryPoints
  refine ⟨steps, ?_⟩
  rw [Arena.BuiltBy, made, Builder.build_eq_ok_iff]
  exact ⟨rfl, valid.denotes.flow_iff.mpr valid.flow, rfl⟩

end PermissionGuard.Description
