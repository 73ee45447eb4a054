import PermissionGuard.Proofs.Program.Dominators
import PermissionGuard.Proofs.Ssa.Lowering

/-!
The handlers that deferred recoveries become. A function has one if its entry block defers a
function that recovers, and it reaches from the first such instruction to the end of the body. The
instructions before that one lie in the entry block too and lead only on to the next, so control
passes it before anything else that the handler covers (`recovery_ranges_exact`).
-/

namespace PermissionGuard

namespace Ssa

variable {p : Program} {f : Function} {instr : Instr} {i x y : Nat}

/-- A function calls the builtin `recover` itself. -/
def Function.CallsRecover (f : Function) : Prop :=
  ∃ block ∈ f.blocks, ∃ sig args line,
    .invoke .call (.builtin "recover" sig) args line ∈ block.instrs

/-- An instruction defers a function that is known and calls `recover`. -/
def Program.DefersRecovery (p : Program) (instr : Instr) : Prop :=
  ∃ callee args line g deferred, instr = .invoke .defer callee args line ∧
    callee.static? = some g ∧ p.function? g = some deferred ∧ deferred.CallsRecover

/-- A place of the entry block holds its first instruction that defers a recovery. -/
def Function.RecoversFrom (p : Program) (f : Function) (i : Nat) : Prop :=
  ∃ entry instr, f.blocks.head? = some entry ∧ entry.instrs[i]? = some instr ∧
    p.DefersRecovery instr ∧
    ∀ j earlier, j < i → entry.instrs[j]? = some earlier → ¬ p.DefersRecovery earlier

theorem Function.recovers_iff : f.recovers = true ↔ f.CallsRecover := by
  simp only [recovers, instrs, List.any_eq_true, List.mem_flatMap, CallsRecover]
  constructor
  · rintro ⟨instr, ⟨block, listed, inBlock⟩, recovers⟩
    split at recovers
    · rename_i callee args line
      cases callee with
      | builtin name sig =>
          have named : name = Text.ofString "recover" := by simpa [Callee.isRecover] using recovers
          exact ⟨block, listed, sig, args, line, named ▸ inBlock⟩
      | _ => simp [Callee.isRecover] at recovers
    · cases recovers
  · rintro ⟨block, listed, sig, args, line, inBlock⟩
    exact ⟨_, ⟨block, listed, inBlock⟩, by simp [Callee.isRecover]⟩

/-- The place of the first element that a test accepts. -/
theorem findIdx?_eq_some_iff_first {α : Type} {test : α → Bool} {Accepted : α → Prop} {l : List α}
    (decides : ∀ a, test a = true ↔ Accepted a) : l.findIdx? test = some i ↔
      ∃ a, l[i]? = some a ∧ Accepted a ∧
        ∀ j earlier, j < i → l[j]? = some earlier → ¬ Accepted earlier := by
  rw [List.findIdx?_eq_some_iff_getElem]
  constructor
  · rintro ⟨bound, accepted, first⟩
    refine ⟨_, List.getElem?_eq_getElem bound, (decides _).mp accepted, ?_⟩
    intro j earlier before there
    obtain ⟨_, rfl⟩ := List.getElem?_eq_some_iff.mp there
    exact fun isOne => first j before ((decides _).mpr isOne)
  · rintro ⟨a, there, accepted, first⟩
    obtain ⟨bound, rfl⟩ := List.getElem?_eq_some_iff.mp there
    refine ⟨bound, (decides _).mpr accepted, fun j before isOne => ?_⟩
    have there := List.getElem?_eq_getElem (Nat.lt_trans before bound)
    exact first j _ before there ((decides _).mp isOne)

theorem Function.recoveryStart?_eq_some_iff : f.recoveryStart? p = some i ↔ f.RecoversFrom p i := by
  unfold recoveryStart? RecoversFrom
  cases f.blocks with
  | nil => simp
  | cons entry rest =>
      simp only [List.head?_cons, Option.some.injEq, exists_and_left, exists_eq_left']
      refine findIdx?_eq_some_iff_first fun instr => ?_
      unfold Program.DefersRecovery
      split
      · rename_i callee args line
        simp only [Option.any_eq_true, Option.bind_eq_some_iff, Function.recovers_iff]
        constructor
        · rintro ⟨deferred, ⟨g, known, isFunction⟩, recovers⟩
          exact ⟨callee, args, line, g, deferred, rfl, known, isFunction, recovers⟩
        · rintro ⟨_, _, _, g, deferred, same, known, isFunction, recovers⟩
          cases same
          exact ⟨deferred, ⟨g, known, isFunction⟩, recovers⟩
      · rename_i other
        constructor
        · intro absurd
          cases absurd
        · rintro ⟨callee, args, line, _, _, rfl, _⟩
          exact absurd rfl (other callee args line)

theorem Function.RecoversFrom.unique {j : Nat} (first : f.RecoversFrom p i)
    (second : f.RecoversFrom p j) : i = j := by
  rw [← recoveryStart?_eq_some_iff] at first second
  exact Option.some.inj (first.symm.trans second)

/-- A method has one handler, from the first deferred recovery to its end, or none. -/
theorem Function.mem_handlers {range : ExceptionRange} : range ∈ f.handlers p ↔
    ∃ i : Nat, f.RecoversFrom p i ∧ range = ⟨i, f.instrs.length, panicType⟩ := by
  simp only [handlers, List.mem_map, Option.mem_toList, recoveryStart?_eq_some_iff,
    @eq_comm _ _ range]

theorem Function.handlers_length (p : Program) (f : Function) : (f.handlers p).length ≤ 1 := by
  cases starts : f.recoveryStart? p <;> simp [handlers, starts]

/-! ### The way through the entry block -/

variable {entry : Block}

theorem Function.positionOf_entry (f : Function) (i : Nat) : f.positionOf 0 i = i := by
  simp [positionOf]

/-- Until the end of the entry block control goes on to the next instruction only. -/
theorem Function.Flows.within_entry (flows : f.Flows x y) (first : f.blocks.head? = some entry)
    (inside : i < entry.instrs.length) (before : x < i) : y ≤ i := by
  cases flows with
  | within listed more => exact before
  | @across n k _ block listed last successor =>
      cases n with
      | zero =>
          rw [← List.head?_eq_getElem?, first] at listed
          cases listed
          rw [positionOf_entry] at before
          omega
      | succ n =>
          have longer : entry.instrs.length ≤ f.positionOf (n + 1) k := by
            obtain ⟨rest, blocks⟩ := List.head?_eq_some_iff.mp first
            rw [positionOf, blocks, List.take_succ_cons, List.flatMap_cons, List.length_append]
            omega
          omega

/-- Control passes the first deferred recovery before all that comes after it in the body. -/
theorem Function.RecoversFrom.dominates (starts : f.RecoversFrom p i) (later : i ≤ x) :
    Dominates f.Flows i x := by
  obtain ⟨entry, instr, first, there, _⟩ := starts
  have inside := (List.getElem?_eq_some_iff.mp there).1
  exact Dominates.of_narrow (fun _ _ flows before => flows.within_entry first inside before) later

/-! ### Lowered functions -/

variable {a : Arena} {m : MethodId} {method : Method} {config : Config} {exclude : List Text}
variable {id : FunctionId}

/-- A statement of a method installs a recovery for all that comes after it in the body: it stands
for the first deferred recovery, it is a dominator of every later statement that is reached, and no
walk comes to a later position without having passed it. -/
structure Program.Installs (p : Program) (a : Arena) (m : MethodId) (f : Function) (method : Method)
    (i : Nat) (s : StmtId) : Prop where
  position : method.body[i]? = some s
  defers : ∃ st instr, a.statement? s = some st ∧ f.instrs[i]? = some instr ∧
    StandsFor p st instr ∧ p.DefersRecovery instr
  dominates : ∀ {j t}, i ≤ j → method.body[j]? = some t →
    Relation.ReflTransGen (a.FlowsTo method) 0 j → s ∈ a.dominatorsOf t m
  passed : ∀ {before j after target}, EntryWalk (a.FlowsTo method) (before ++ j :: after) target →
    i ≤ j → i ∈ before ++ [j]

section

variable {ids : List FunctionId} {edges : List CallEdge} {steps : List BuildStep}
variable {finder : DominatorFinder}

theorem Program.Carries.flowsTo_eq (carries : p.Carries ids edges a id f method)
    (built : a.BuiltWith finder steps) (known : a.method? m = some method) :
    a.FlowsTo method = f.Flows := by
  funext x y
  rw [built.flowsTo_eq known]
  exact propext (carries.flow x y)

theorem Program.Carries.installs (carries : p.Carries ids edges a id f method)
    (finds : FindsDominators finder) (built : a.BuiltWith finder steps)
    (known : a.method? m = some method) (starts : f.RecoversFrom p i) :
    ∃ s, p.Installs a m f method i s := by
  have flow := carries.flowsTo_eq built known
  have ⟨entry, instr, first, there, defers, _⟩ := starts
  have listed : f.blocks[0]? = some entry := List.head?_eq_getElem? ▸ first
  have bound := (List.getElem?_eq_some_iff.mp there).1
  obtain ⟨s, st, position, found, stands⟩ := carries.statement listed there
  have inBody := Function.instrs_positionOf listed bound
  rw [Function.positionOf_entry] at position inBody
  refine ⟨s, position, ⟨st, instr, found, inBody.trans there, stands, defers⟩, ?_, ?_⟩
  · intro j t later isThere reachable
    have dominates := starts.dominates later
    exact built.mem_dominatorsOf finds known isThere position reachable (flow ▸ dominates)
  · intro before j after target arrives later
    exact starts.dominates later _ (flow ▸ arrives.upTo)

end

/-- The handlers of a lowered program. A function gets one if its entry block defers a recovery, and
it reaches from the first such instruction to the end of the body. The statement of that instruction
dominates every statement that the handler covers and control reaches, so it is executed first. -/
theorem recovery_ranges_exact {ids : List FunctionId} {finder : DominatorFinder}
    (regular : p.Regular) (lists : p.Lists ids) (finds : FindsDominators finder)
    (edges : List CallEdge) (config : Config) (exclude : List Text) :
    ∃ a, (Lowering.lowerWith finder p ids edges config exclude).1 = .ok a ∧
      (∀ m method, a.method? m = some method → ∃ id f, p.IsMethod ids m id f) ∧
      ∀ m id f, p.IsMethod ids m id f → ∃ method, a.method? m = some method ∧
        method.body.length = f.instrs.length ∧ method.traps.length ≤ 1 ∧
        (∀ range, range ∈ method.traps ↔
          ∃ i : Nat, f.RecoversFrom p i ∧ range = ⟨i, method.body.length, panicType⟩) ∧
        ∀ i, f.RecoversFrom p i → ∃ s, p.Installs a m f method i s := by
  refine ⟨_, Lowering.lowerWith_of_built
      (Lowering.entered_builds lists regular finder config exclude edges),
    fun m method known => ?_, fun m id f numbered => ?_⟩
  · exact Lowering.isMethod_of_known lists
      ((Lowering.entered_method? lists config exclude edges m).symm.trans known)
  · obtain ⟨steps, built⟩ := Lowering.entered_builtWith lists regular finder config exclude edges
    obtain ⟨k, body, _, size, known⟩ := Lowering.filled_method lists config exclude numbered
    obtain ⟨method, known', carries⟩ :=
      Lowering.entered_carries lists regular finder config exclude edges numbered
    cases known.symm.trans
      ((Lowering.entered_method? lists config exclude edges m).symm.trans known')
    refine ⟨_, known', size, f.handlers_length p, fun range => ?_, fun i starts => ?_⟩
    · simp only [Lowering.withBody, size]
      exact Function.mem_handlers
    · exact carries.installs finds built known' starts

/-- The entry block of the first function defers one that recovers only through another, then a
closure that recovers, and then the same once more. It is entered again from a block that comes
later, and a block stands in between that nothing leads to. The last function defers a recovery
outside of its entry block. -/
def deferringProgram : Program where
  functions := #[
    { name := "serve", package := some "app", blocks := [
        ⟨[.invoke .defer (.function 2) [] 3, .other [1] 4, .invoke .defer (.closure 1) [] 4,
          .invoke .defer (.function 1) [] 5], [2, 3]⟩,
        ⟨[.other [] 0], [1]⟩,
        ⟨[.invoke .call (.function 3) [] 7, .other [] 0], [0]⟩,
        ⟨[.other [] 0], []⟩] },
    { name := "restore", package := some "app", blocks := [
        ⟨[.invoke .call (.builtin "recover" {}) [] 11], []⟩] },
    { name := "restoreAll", package := some "app", blocks := [
        ⟨[.invoke .call (.function 1) [] 15], []⟩] },
    { name := "try", package := some "app", blocks := [
        ⟨[.other [] 0], [1]⟩, ⟨[.invoke .defer (.function 1) [] 20], []⟩] }]
  packages := [⟨"app", "app", [0, 1, 2, 3]⟩]

theorem recovery_ranges_exact_loop :
    let ids : List FunctionId := [2, 0, 3, 1]
    let finder := FlowGraph.avoidanceTree
    deferringProgram.Regular ∧ deferringProgram.Lists ids ∧ FindsDominators finder ∧
      ∃ a m method m' method',
        (Lowering.lowerWith finder deferringProgram ids [] Config.default []).1 = .ok a ∧
          a.method? m = some method ∧ a.method? m' = some method' ∧
          method.traps = [⟨2, 8, panicType⟩] ∧ method'.traps = [] ∧
          ∃ s t, method.body[2]? = some s ∧ method.body[7]? = some t ∧ s ∈ a.dominatorsOf t m := by
  intro ids finder
  have regular : deferringProgram.Regular := by decide
  have lists : deferringProgram.Lists ids := ⟨by decide, by decide⟩
  have finds : FindsDominators finder := FlowGraph.avoidanceTree_finds
  refine ⟨regular, lists, finds, ?_⟩
  obtain ⟨a, lowered, _, handled⟩ :=
    recovery_ranges_exact regular lists finds [] Config.default []
  have listed : 0 ∈ ids ∧ deferringProgram.function? 0 = some deferringProgram.functions[0] :=
    ⟨by decide, rfl⟩
  obtain ⟨m, numbered, _⟩ := (Program.existsUnique_isMethod lists.distinct).mpr listed
  have listed' : 3 ∈ ids ∧ deferringProgram.function? 3 = some deferringProgram.functions[3] :=
    ⟨by decide, rfl⟩
  obtain ⟨m', numbered', _⟩ := (Program.existsUnique_isMethod lists.distinct).mpr listed'
  obtain ⟨method, known, size, few, ranges, installs⟩ := handled m 0 _ numbered
  obtain ⟨method', known', _, _, ranges', _⟩ := handled m' 3 _ numbered'
  have starts : (deferringProgram.functions[0]).RecoversFrom deferringProgram 2 :=
    Function.recoveryStart?_eq_some_iff.mp (by decide)
  have alone : method.traps = [⟨2, 8, panicType⟩] := by
    have member := (ranges ⟨2, 8, panicType⟩).mpr ⟨2, starts, by rw [size]; rfl⟩
    obtain ⟨range, only⟩ := List.length_eq_one_iff.mp
      (Nat.le_antisymm few (List.length_pos_of_mem member))
    rw [only] at member ⊢
    rw [List.mem_singleton.mp member]
  have none : method'.traps = [] := by
    refine List.eq_nil_iff_forall_not_mem.mpr fun range member => ?_
    obtain ⟨i, starts', _⟩ := (ranges' range).mp member
    have missing : (deferringProgram.functions[3]).recoveryStart? deferringProgram = none := by
      decide
    cases missing.symm.trans (Function.recoveryStart?_eq_some_iff.mpr starts')
  obtain ⟨s, installed⟩ := installs 2 starts
  have last : 7 < method.body.length := by rw [size]; decide
  refine ⟨a, m, method, m', method', lowered, known, known', alone, none, s, method.body[7],
    installed.position, List.getElem?_eq_getElem last,
    installed.dominates (by decide) (List.getElem?_eq_getElem last) ?_⟩
  -- The entry block is gone through once and left for the last block.
  obtain ⟨steps, built⟩ := Lowering.entered_builtWith lists regular finder Config.default [] []
  obtain ⟨_, there, carries⟩ :=
    Lowering.entered_carries lists regular finder Config.default [] [] numbered
  cases lowered.symm.trans (Lowering.lowerWith_of_built
    (Lowering.entered_builds lists regular finder Config.default [] []))
  cases known.symm.trans there
  rw [carries.flowsTo_eq built known]
  have within (i : Nat) (more : i + 1 < 4) : (deferringProgram.functions[0]).Flows i (i + 1) := by
    have flows := Function.Flows.within (f := deferringProgram.functions[0]) (n := 0) rfl more
    rwa [Function.positionOf_entry, Function.positionOf_entry] at flows
  have successor : 3 ∈ (deferringProgram.functions[0]).blocks[0].succs := by decide
  have across : (deferringProgram.functions[0]).Flows 3 7 :=
    .across (f := deferringProgram.functions[0]) (n := 0) (i := 3) rfl rfl successor
  exact .tail (.tail (.tail (.single (within 0 (by decide))) (within 1 (by decide)))
    (within 2 (by decide))) across

end Ssa

end PermissionGuard
