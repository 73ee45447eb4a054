import PermissionGuard.Proofs.Program.Dominators
import PermissionGuard.Proofs.Ssa.Construction

/-!
What a lowered program has of its functions, whichever these are. If no block is empty, a program
is always lowered: every function has one method, whose statements are its instructions, block after
block, with the control flow within and between the blocks and with the calls that the call edges
say (`lowering_keeps_flow_and_calls`).
-/

namespace PermissionGuard.Ssa

open Description (Made)

variable {p : Program} {ids : List FunctionId} {finder : DominatorFinder}
variable {config : Config} {exclude : List Text} {edges : List CallEdge}
variable {id : FunctionId} {f : Function} {m : MethodId} {s : StmtId} {x : Nat}

namespace Program

/-- All functions of a program are regular. -/
def Regular (p : Program) : Prop := ∀ f ∈ p.functions, f.Regular

instance (p : Program) : Decidable p.Regular :=
  inferInstanceAs (Decidable (∀ f ∈ p.functions, f.Regular))

/-- A call edge leads from an instruction of a function to the function of a method, and that one
has a body. -/
def CallsAt (p : Program) (ids : List FunctionId) (edges : List CallEdge) (caller : FunctionId)
    (x : Nat) (m : MethodId) : Prop :=
  ∃ callee f, ⟨caller, some x, some callee⟩ ∈ edges ∧ p.IsMethod ids m callee f ∧ f.hasBody = true

end Program

/-- A statement stands for an instruction: it has its line, and it is an invocation exactly if that
is a call, and then of the signature called. -/
structure StandsFor (p : Program) (st : Statement) (instr : Instr) : Prop where
  isInvoke : st.isInvoke = true ↔ ∃ kind callee args line, instr = .invoke kind callee args line
  target : ∀ kind callee args line, instr = .invoke kind callee args line →
    st.target = some (p.calleeSignature callee)
  line : st.line = instr.line

theorem standsFor_specAt {st : Statement} {block : Block} {i : Nat} {instr : Instr}
    (target : st.target = (f.specAt p block i instr).target) (line : st.line = instr.line) :
    StandsFor p st instr := by
  refine ⟨?_, ?_, line⟩
  · rw [Statement.isInvoke, target]
    cases instr <;> simp [Function.specAt]
  · rintro kind callee args line rfl
    exact target

/-- The method has the signature of the function and one statement for every instruction of it,
block after block. Its control flow and its calls are those of the function. -/
structure Program.Carries (p : Program) (ids : List FunctionId) (edges : List CallEdge) (a : Arena)
    (id : FunctionId) (f : Function) (method : Method) : Prop where
  sig : method.sig = f.signature
  concrete : method.concrete = f.hasBody
  length : method.body.length = f.instrs.length
  statement : ∀ {n i block instr}, f.blocks[n]? = some block → block.instrs[i]? = some instr →
    ∃ s st, method.body[f.positionOf n i]? = some s ∧ a.statement? s = some st ∧
      StandsFor p st instr
  flow : ∀ x y, y ∈ (a.flowGraph method).next x ↔ f.Flows x y
  entry : ∀ x, x ∈ (a.flowGraph method).reachable ↔
    Relation.ReflTransGen f.Flows (f.positionOf 0 0) x
  callees : ∀ {x s}, method.body[x]? = some s →
    (a.callees s).Nodup ∧ ∀ m, m ∈ a.callees s ↔ p.CallsAt ids edges id x m

namespace Lowering

section

variable (p : Program) (ids : List FunctionId) (config : Config) (exclude : List Text)
variable (edges : List CallEdge)

/-- The builder before any function is lowered. -/
def frame : Builder :=
  if config.failureType = panicType then Builder.empty
  else Builder.empty.addSubtype config.failureType panicType

def declared : Builder × MethodTable :=
  addMethods config exclude (p.sortedFunctions ids) (frame config)

def filled : Builder :=
  (p.sortedFunctions ids).foldl
    (fun b (id, f) => addBody p b ((declared p ids config exclude).2.getD id 0) f)
    (declared p ids config exclude).1

def linked : Builder :=
  edges.foldl (addEdge p (declared p ids config exclude).2) (filled p ids config exclude)

def entered : Builder :=
  p.mainRoots.foldl (fun b f => b.addEntryPoint ((declared p ids config exclude).2.getD f 0))
    (linked p ids config exclude edges)

end

theorem lowerWith_of_built {a : Arena}
    (built : ((entered p ids config exclude edges).buildWith finder).2 = .ok a) :
    (lowerWith finder p ids edges config exclude).1 = .ok a := by
  unfold lowerWith
  dsimp only
  split
  · rename_i failed
    cases built.symm.trans failed
  · rename_i done
    cases built.symm.trans done
    rfl

theorem declared_holds (lists : p.Lists ids) (config : Config) (exclude : List Text) :
    Declared config exclude (p.sortedFunctions ids) (declared p ids config exclude).1
      (declared p ids config exclude).2 := by
  refine addMethods_declared _ (p.sortedFunctions_nodup lists.distinct) ?_
  have numbers : Numbers ∅ [] := by
    intro id m
    simp
  unfold frame
  split
  · exact ⟨rfl, by simp, rfl, rfl, rfl, numbers⟩
  · exact ⟨rfl, by simp, rfl, rfl, rfl, numbers⟩

theorem number_iff (lists : p.Lists ids) :
    (declared p ids config exclude).2[id]? = some m ↔ ∃ f, p.IsMethod ids m id f := by
  rw [(declared_holds lists config exclude).numbers]
  exact exists_comm

theorem getD_number (lists : p.Lists ids) (config : Config) (exclude : List Text)
    (numbered : p.IsMethod ids m id f) : (declared p ids config exclude).2.getD id 0 = m := by
  rw [Std.HashMap.getD_eq_getD_getElem?, (number_iff lists).mpr ⟨f, numbered⟩]
  rfl

theorem filled_holds (lists : p.Lists ids) (config : Config) (exclude : List Text) :
    Filled p config exclude (p.sortedFunctions ids) (p.sortedFunctions ids).length
      (filled p ids config exclude) := by
  have declared := declared_holds lists config exclude
  have placed := (declared.filled (p := p)).rest declared.numbers (p.sortedFunctions ids) rfl
  rwa [Nat.zero_add] at placed

theorem filled_method (lists : p.Lists ids) (config : Config) (exclude : List Text)
    (numbered : p.IsMethod ids m id f) :
    ∃ (k : Nat) (body : List StmtId), m = k ∧ body.length = f.instrs.length ∧
      (filled p ids config exclude).program.method? m =
        some (withBody p config exclude k f body) := by
  obtain ⟨k, rfl, listed⟩ := numbered
  have bound := (List.getElem?_eq_some_iff.mp listed).1
  obtain ⟨body, size, known⟩ := (filled_holds lists config exclude).placed bound listed
  exact ⟨k, body, rfl, size, known⟩

theorem isMethod_of_known (lists : p.Lists ids) {method : Method}
    (known : (filled p ids config exclude).program.method? m = some method) :
    ∃ id f, p.IsMethod ids m id f := by
  obtain ⟨k, rfl, bound⟩ := (filled_holds lists config exclude).known m method known
  exact ⟨_, _, k, rfl, List.getElem?_eq_getElem bound⟩

/-! ### Steps of the construction -/

theorem made_frame (config : Config) : Made (frame config) := by
  unfold frame
  split
  · exact ⟨[], rfl⟩
  · exact ⟨[.subtype config.failureType panicType], rfl⟩

theorem made_declared (p : Program) (ids : List FunctionId) (config : Config)
    (exclude : List Text) : Made (declared p ids config exclude).1 :=
  List.foldlRecOn (motive := fun x : Builder × MethodTable => Made x.1) (p.sortedFunctions ids) _
    (made_frame config)
    fun _ made y _ => made.apply (.method y.2.signature y.2.hasBody (isLibrary config exclude y.2))

theorem made_addBody {b : Builder} (made : Made b) (m : MethodId) (f : Function) :
    Made (addBody p b m f) := by
  have placed : Made ((f.statements p).foldl (fun b spec => (b.addStatement m spec).1) b) :=
    List.foldlRecOn (motive := Made) (f.statements p) _ made
      fun _ made spec _ => made.apply (.statement m spec)
  unfold addBody
  dsimp only
  split
  · exact placed.apply (.trap m _)
  · exact placed

theorem made_filled (p : Program) (ids : List FunctionId) (config : Config)
    (exclude : List Text) : Made (filled p ids config exclude) :=
  List.foldlRecOn (motive := Made) (p.sortedFunctions ids) _ (made_declared p ids config exclude)
    fun _ made y _ => made_addBody made _ y.2

theorem made_linked (p : Program) (ids : List FunctionId) (config : Config)
    (exclude : List Text) (edges : List CallEdge) : Made (linked p ids config exclude edges) := by
  refine List.foldlRecOn (motive := Made) edges _ (made_filled p ids config exclude) ?_
  intro b made edge _
  rw [addEdge_eq]
  cases ends? p (declared p ids config exclude).2 b.program.method? edge with
  | none => exact made
  | some x => exact made.apply (.edge x.1 x.2)

theorem made_entered (p : Program) (ids : List FunctionId) (config : Config)
    (exclude : List Text) (edges : List CallEdge) : Made (entered p ids config exclude edges) :=
  List.foldlRecOn (motive := Made) p.mainRoots _ (made_linked p ids config exclude edges)
    fun _ made _ _ => made.apply (.entryPoint _)

theorem filled_wellFormed (p : Program) (ids : List FunctionId) (config : Config)
    (exclude : List Text) : (filled p ids config exclude).program.WellFormed := by
  obtain ⟨steps, made⟩ := made_filled p ids config exclude
  exact made ▸ Builder.run_wellFormed steps

/-! ### Calls and entry points -/

variable {method : Method} {m' : MethodId}

/-- The pairs of a statement and a method that get a call edge are those of the call edges. -/
theorem mem_ends (lists : p.Lists ids) (numbered : p.IsMethod ids m id f)
    (known : (filled p ids config exclude).program.method? m = some method)
    (position : method.body[x]? = some s) :
    (s, m') ∈ edges.filterMap
        (ends? p (declared p ids config exclude).2 (filled p ids config exclude).program.method?) ↔
      p.CallsAt ids edges id x m' := by
  have wellFormed := filled_wellFormed p ids config exclude
  obtain ⟨st, found, inMethod, atIndex⟩ := wellFormed.body_statement known position
  simp only [List.mem_filterMap, ends?_eq_some_iff, number_iff lists]
  constructor
  · rintro ⟨_, member, caller, y, callee, k, other, g, rfl, ⟨h, numbered'⟩, known', position',
      ⟨g', calleeNumber⟩, isFunction, full⟩
    obtain ⟨st', found', inMethod', atIndex'⟩ := wellFormed.body_statement known' position'
    cases found.symm.trans found'
    rw [← inMethod', inMethod] at numbered'
    obtain ⟨rfl, _⟩ := numbered.unique numbered'
    cases isFunction.symm.trans calleeNumber.function?
    exact ⟨callee, g, atIndex'.symm.trans atIndex ▸ member, calleeNumber, full⟩
  · rintro ⟨callee, g, member, calleeNumber, full⟩
    exact ⟨_, member, id, x, callee, m, method, g, rfl, ⟨f, numbered⟩, known, position,
      ⟨g, calleeNumber⟩, calleeNumber.function?, full⟩

theorem linked_holds (lists : p.Lists ids) (config : Config) (exclude : List Text)
    (edges : List CallEdge) : Linked (filled p ids config exclude)
      (edges.filterMap
        (ends? p (declared p ids config exclude).2 (filled p ids config exclude).program.method?))
      (linked p ids config exclude edges) := by
  refine linked_edges edges fun edge _ s m between => ?_
  rw [ends?_eq_some_iff] at between
  obtain ⟨caller, x, callee, k, method, g, rfl, _, known, position, numbered, isFunction, full⟩ :=
    between
  obtain ⟨st, found, _⟩ := (filled_wellFormed p ids config exclude).body_statement known position
  obtain ⟨g', calleeNumber⟩ := (number_iff lists).mp numbered
  cases isFunction.symm.trans calleeNumber.function?
  obtain ⟨_, _, _, _, there⟩ := filled_method lists config exclude calleeNumber
  exact ⟨⟨st, found⟩, _, there, full⟩

theorem entered_eq (lists : p.Lists ids) (config : Config) (exclude : List Text)
    (edges : List CallEdge) :
    entered p ids config exclude edges = { linked p ids config exclude edges with
      program.entryPoints := p.mainRoots.map ((declared p ids config exclude).2.getD · 0) } := by
  have links := linked_holds lists config exclude edges
  have known : ∀ root ∈ p.mainRoots, ∃ method, (linked p ids config exclude edges).program.method?
      ((declared p ids config exclude).2.getD root 0) = some method := by
    intro _ start
    obtain ⟨m, f, numbered⟩ := lists.root_isMethod start
    obtain ⟨_, _, _, _, there⟩ := filled_method lists config exclude numbered
    rw [getD_number lists config exclude numbered, links.method]
    exact ⟨_, there⟩
  have unentered := links.entryPoints.trans (filled_holds lists config exclude).entryPoints
  rw [entered, foldl_addEntryPoint p.mainRoots known, unentered, List.nil_append]

theorem entered_method? (lists : p.Lists ids) (config : Config) (exclude : List Text)
    (edges : List CallEdge) (m : MethodId) :
    (entered p ids config exclude edges).program.method? m =
      (filled p ids config exclude).program.method? m := by
  rw [entered_eq lists, ← (linked_holds lists config exclude edges).method]
  rfl

/-- The statement at a position of a method's body is what the instruction at that position of the
function says, and calls what the call edges say. -/
theorem entered_statement (lists : p.Lists ids) (edges : List CallEdge)
    (numbered : p.IsMethod ids m id f)
    (known : (filled p ids config exclude).program.method? m = some method)
    (position : method.body[x]? = some s) :
    ∃ st spec, (entered p ids config exclude edges).program.statement? s = some st ∧
      (f.statements p)[x]? = some spec ∧ st.target = spec.target ∧ st.succs = spec.succs ∧
      st.line = spec.line ∧ ∀ m', m' ∈ st.callees ↔ p.CallsAt ids edges id x m' := by
  obtain ⟨st, found, inMethod, atIndex⟩ :=
    (filled_wellFormed p ids config exclude).body_statement known position
  obtain ⟨k, id', f', spec, same, listed, there, target, succs, line, none⟩ :=
    (filled_holds lists config exclude).stated s st found
  obtain ⟨rfl, rfl⟩ := numbered.unique ⟨k, inMethod.symm.trans same, listed⟩
  obtain ⟨callees, found', all⟩ := (linked_holds lists config exclude edges).statement found
  refine ⟨{ st with callees := callees }, spec, ?_, atIndex ▸ there, target, succs, line, ?_⟩
  · rw [entered_eq lists]
    exact found'
  · intro m'
    rw [all, none, mem_ends lists numbered known position]
    simp

/-! ### Whole programs -/

theorem regular_function (regular : p.Regular) (numbered : p.IsMethod ids m id f) : f.Regular :=
  regular f (Array.mem_of_getElem? numbered.function?)

/-- A program of regular functions is lowered without any error. -/
theorem entered_builds (lists : p.Lists ids) (regular : p.Regular) (finder : DominatorFinder)
    (config : Config) (exclude : List Text) (edges : List CallEdge) :
    ((entered p ids config exclude edges).buildWith finder).2 =
      .ok (Arena.ofProgramWith finder (entered p ids config exclude edges).program) := by
  have clean : (entered p ids config exclude edges).errors = [] := by
    rw [entered_eq lists]
    exact (linked_holds lists config exclude edges).errors.trans
      (filled_holds lists config exclude).errors
  refine Builder.buildWith_eq_ok_iff.mpr ⟨clean, List.flatMap_eq_nil_iff.mpr ?_, rfl⟩
  intro method member
  obtain ⟨m, found⟩ := PermissionGuard.Program.mem_methods.mp member
  rw [entered_method? lists] at found
  obtain ⟨id, f, numbered⟩ := isMethod_of_known lists found
  obtain ⟨k, body, _, size, known⟩ := filled_method lists config exclude numbered
  cases found.symm.trans known
  refine Builder.strayedSuccessors_eq_nil_iff.mpr fun s inBody st stated succ named => ?_
  obtain ⟨x, position⟩ := List.getElem?_of_mem inBody
  obtain ⟨st', spec, stated', there, _, succs, _⟩ :=
    entered_statement lists edges numbered found position
  cases stated.symm.trans stated'
  rw [succs] at named
  rw [withBody, size]
  exact (regular_function regular numbered).succs_inside there succ named

theorem entered_builtWith (lists : p.Lists ids) (regular : p.Regular) (finder : DominatorFinder)
    (config : Config) (exclude : List Text) (edges : List CallEdge) :
    ∃ steps, (Arena.ofProgramWith finder (entered p ids config exclude edges).program).BuiltWith
      finder steps := by
  obtain ⟨steps, made⟩ := made_entered p ids config exclude edges
  refine ⟨steps, ?_⟩
  rw [Arena.BuiltWith, made]
  exact entered_builds lists regular finder config exclude edges

theorem entered_carries (lists : p.Lists ids) (regular : p.Regular) (finder : DominatorFinder)
    (config : Config) (exclude : List Text) (edges : List CallEdge)
    (numbered : p.IsMethod ids m id f) :
    ∃ method, (entered p ids config exclude edges).program.method? m = some method ∧
      p.Carries ids edges (Arena.ofProgramWith finder (entered p ids config exclude edges).program)
        id f method := by
  obtain ⟨steps, built⟩ := entered_builtWith lists regular finder config exclude edges
  have isRegular := regular_function regular numbered
  obtain ⟨k, body, _, size, known⟩ := filled_method lists config exclude numbered
  have known' := (entered_method? lists config exclude edges m).trans known
  have statement {x : Nat} {s : StmtId} (position : body[x]? = some s) :=
    entered_statement lists edges numbered known position
  have flow (x y : Nat) : y ∈ ((entered p ids config exclude edges).program.flowGraph
      (withBody p config exclude k f body)).next x ↔ f.Flows x y := by
    refine (built.wellFormed.mem_flowGraph_next known' (built.staysInside known')).trans ?_
    rw [isRegular.flows_iff p, ← size]
    constructor
    · rintro ⟨s, st, position, found, leads⟩
      obtain ⟨st', spec, found', there, _, succs, _⟩ := statement position
      cases found.symm.trans found'
      exact ⟨spec, there, succs ▸ leads⟩
    · rintro ⟨spec, there, leads⟩
      have bound := (List.getElem?_eq_some_iff.mp there).1
      rw [Function.statements_length, ← size] at bound
      obtain ⟨st, spec', found, there', _, succs, _⟩ := statement (List.getElem?_eq_getElem bound)
      cases there.symm.trans there'
      exact ⟨_, st, List.getElem?_eq_getElem bound, found, succs ▸ leads⟩
  refine ⟨_, known', ?_⟩
  constructor
  case sig => rfl
  case concrete => rfl
  case length => exact size
  case statement =>
    intro n i block instr listed there
    have bound := Function.positionOf_lt listed (List.getElem?_eq_some_iff.mp there).1
    rw [← size] at bound
    obtain ⟨st, spec, found, stated, target, _, line, _⟩ :=
      statement (List.getElem?_eq_getElem bound)
    cases stated.symm.trans (isRegular.statements_positionOf p listed there)
    exact ⟨_, st, List.getElem?_eq_getElem bound, found, standsFor_specAt target line⟩
  case flow => exact flow
  case entry =>
    intro x
    rw [FlowGraph.mem_reachable_iff, Reaches]
    have same : (fun x y => y ∈ ((entered p ids config exclude edges).program.flowGraph
        (withBody p config exclude k f body)).next x) = f.Flows := by
      funext x y
      exact propext (flow x y)
    exact same ▸ Iff.rfl
  case callees =>
    intro x s position
    obtain ⟨st, spec, found, _, _, _, _, calls⟩ := statement position
    have listed : (Arena.ofProgramWith finder
        (entered p ids config exclude edges).program).callees s = st.callees := by
      simp [PermissionGuard.Program.callees, Arena.ofProgramWith, found]
    rw [listed]
    exact ⟨built.wellFormed.callees_nodup found, calls⟩

end Lowering

/-- A program whose functions are regular is always lowered, whichever functions it has besides
those that a run starts with. The methods are those of its functions, one for each, and each has the
instructions of its function as its statements, with their control flow and calls. The entry points
are the methods of the functions that a run starts with. -/
theorem lowering_keeps_flow_and_calls (regular : p.Regular) (lists : p.Lists ids)
    (finder : DominatorFinder) (edges : List CallEdge) (config : Config) (exclude : List Text) :
    ∃ a, (Lowering.lowerWith finder p ids edges config exclude).1 = .ok a ∧
      (∀ id f, (∃! m, p.IsMethod ids m id f) ↔ id ∈ ids ∧ p.function? id = some f) ∧
      (∀ m, (∃ method, a.method? m = some method) ↔ ∃ id f, p.IsMethod ids m id f) ∧
      (∀ m id f, p.IsMethod ids m id f →
        ∃ method, a.method? m = some method ∧ p.Carries ids edges a id f method) ∧
      ∀ m, m ∈ a.entryPoints ↔ ∃ root ∈ p.mainRoots, ∃ f, p.IsMethod ids m root f := by
  refine ⟨_, Lowering.lowerWith_of_built
      (Lowering.entered_builds lists regular finder config exclude edges),
    fun id f => Program.existsUnique_isMethod lists.distinct, fun m => ⟨?_, ?_⟩, ?_, fun m => ?_⟩
  · rintro ⟨method, known⟩
    exact Lowering.isMethod_of_known lists
      ((Lowering.entered_method? lists config exclude edges m).symm.trans known)
  · rintro ⟨id, f, numbered⟩
    obtain ⟨_, _, _, _, known⟩ := Lowering.filled_method lists config exclude numbered
    exact ⟨_, (Lowering.entered_method? lists config exclude edges m).trans known⟩
  · exact fun m id f => Lowering.entered_carries lists regular finder config exclude edges
  · have listed : (Lowering.entered p ids config exclude edges).program.entryPoints =
        p.mainRoots.map ((Lowering.declared p ids config exclude).2.getD · 0) := by
      rw [Lowering.entered_eq lists]
    change m ∈ (Lowering.entered p ids config exclude edges).program.entryPoints ↔ _
    rw [listed, List.mem_map]
    constructor
    · rintro ⟨root, start, rfl⟩
      obtain ⟨m, f, numbered⟩ := lists.root_isMethod start
      exact ⟨root, start, f, (Lowering.getD_number lists config exclude numbered).symm ▸ numbered⟩
    · rintro ⟨root, start, f, numbered⟩
      exact ⟨root, start, Lowering.getD_number lists config exclude numbered⟩

/-- A function that is left through a branch back to its start or on to its end, beside a block that
nothing leads to. It defers a function that recovers and calls a method through an interface, which
no package has and no instruction mentions. -/
def retryProgram : Program where
  functions := #[
    { name := "main", package := some "app", blocks := [
        ⟨[.invoke .defer (.function 1) [] 3,
          .invoke .call (.method (.named "app.Door") "open" {}) [1] 4], [1, 1]⟩,
        ⟨[.other [] 5], [0, 2]⟩,
        ⟨[.invoke .go (.value 0 {}) [] 6], []⟩,
        ⟨[.other [1] 7], [3]⟩] },
    { name := "restore", package := some "app", blocks := [
        ⟨[.invoke .call (.builtin "recover" {}) [] 9], []⟩] },
    { name := "wait", package := some "time" },
    { name := "open", receiver := some (.named "app.Gate"), package := some "app", blocks := [
        ⟨[.other [] 12], []⟩] }]
  packages := [⟨"app", "main", [0, 1]⟩]

/-- A call that is listed twice, a callee without a body and one found by dispatch, and edges that
belong to no statement of the program. -/
def retryEdges : List CallEdge :=
  [⟨0, some 0, some 1⟩, ⟨0, some 1, some 2⟩, ⟨0, some 1, some 3⟩, ⟨0, some 0, some 1⟩,
    ⟨0, none, some 1⟩, ⟨0, some 5, some 1⟩, ⟨7, some 0, some 1⟩]

theorem lowering_keeps_flow_and_calls_retry :
    let ids : List FunctionId := [3, 1, 0, 2]
    retryProgram.Regular ∧ retryProgram.Lists ids ∧ ∃ a f m method callee s,
      (Lowering.lowerWith FlowGraph.avoidanceTree retryProgram ids retryEdges Config.default []).1 =
        .ok a ∧
        retryProgram.function? 0 = some f ∧ a.method? m = some method ∧ m ∈ a.entryPoints ∧
        retryProgram.Carries ids retryEdges a 0 f method ∧ method.body.length = 5 ∧
        0 ∈ (a.flowGraph method).next 2 ∧ method.body[1]? = some s ∧ a.callees s = [callee] ∧
        retryProgram.IsMethod ids callee 3 retryProgram.functions[3] := by
  intro ids
  have regular : retryProgram.Regular := by decide
  have lists : retryProgram.Lists ids := ⟨by decide, by decide⟩
  refine ⟨regular, lists, ?_⟩
  obtain ⟨a, lowered, functions, _, methods, starts⟩ := lowering_keeps_flow_and_calls regular lists
    FlowGraph.avoidanceTree retryEdges Config.default []
  obtain ⟨m, numbered, _⟩ := (functions 0 _).mpr ⟨by decide, rfl⟩
  obtain ⟨callee, target, _⟩ := (functions 3 _).mpr ⟨by decide, rfl⟩
  obtain ⟨method, known, carries⟩ := methods m 0 _ numbered
  have entered : m ∈ a.entryPoints := (starts m).mpr ⟨0, by decide, _, numbered⟩
  have length : method.body.length = 5 := carries.length
  have position : method.body[1]? = some method.body[1] := List.getElem?_eq_getElem (by omega)
  have back : (retryProgram.functions[0]).Flows
      ((retryProgram.functions[0]).positionOf 1 0) ((retryProgram.functions[0]).positionOf 0 0) :=
    .across rfl rfl List.mem_cons_self
  refine ⟨a, _, m, method, callee, method.body[1], lowered, rfl, known, entered, carries, length,
    (carries.flow _ _).mpr back, position, ?_, target⟩
  -- Of the functions that the edges at the call lead to only one has a body.
  obtain ⟨distinct, calls⟩ := carries.callees position
  refine List.perm_singleton.mp
    ((List.perm_ext_iff_of_nodup distinct (List.nodup_singleton _)).mpr fun other => ?_)
  rw [calls other, List.mem_singleton]
  constructor
  · rintro ⟨g, f, edge, numbered', full⟩
    have known := numbered'.function?
    obtain rfl | rfl : g = 2 ∨ g = 3 := by simpa [retryEdges] using edge
    · cases known
      cases full
    · cases known
      exact ((functions 3 _).mpr ⟨by decide, rfl⟩).unique numbered' target
  · rintro rfl
    exact ⟨3, _, by decide, target, rfl⟩

end PermissionGuard.Ssa
