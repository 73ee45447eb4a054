import PermissionGuard.Proofs.Program.Representation
import PermissionGuard.Proofs.Reachability
import PermissionGuard.Ssa.Lowering
import Mathlib.Data.List.Induction
import Mathlib.Data.List.Nodup

/-!
The functions of a program and the numbers of their methods. The functions come as a list that has
each of them once and those that a run starts with among them (`Lists`). Every function has one
number, its place in the order of names (`existsUnique_isMethod`), and the table of numbers holds
exactly these (`addMethods_declared`).
-/

namespace PermissionGuard.Ssa

namespace Program

variable {p : Program} {ids : List FunctionId} {id root : FunctionId} {f : Function} {m : MethodId}

/-- The list has no function twice, and the functions that a run starts with. -/
structure Lists (p : Program) (ids : List FunctionId) : Prop where
  distinct : ids.Nodup
  roots : ∀ root ∈ p.mainRoots, root ∈ ids

theorem mem_sortedFunctions :
    (id, f) ∈ p.sortedFunctions ids ↔ id ∈ ids ∧ p.function? id = some f := by
  simp only [sortedFunctions, List.mem_map, List.mem_mergeSort, List.mem_filterMap,
    Option.map_eq_some_iff]
  constructor
  · rintro ⟨_, ⟨_, member, _, found, rfl⟩, same⟩
    cases same
    exact ⟨member, found⟩
  · rintro ⟨member, found⟩
    exact ⟨_, ⟨id, member, f, found, rfl⟩, rfl⟩

theorem sortedFunctions_nodup (p : Program) (distinct : ids.Nodup) :
    ((p.sortedFunctions ids).map Prod.fst).Nodup := by
  rw [sortedFunctions, List.map_map]
  refine ((List.mergeSort_perm _ _).map _).nodup_iff.mpr ?_
  rw [List.map_filterMap]
  refine distinct.filterMap fun id id' found listed listed' => ?_
  simp only [Option.mem_def, Option.map_map, Option.map_eq_some_iff, Function.comp_apply]
    at listed listed'
  obtain ⟨_, _, rfl⟩ := listed
  obtain ⟨_, _, rfl⟩ := listed'
  rfl

/-- The method of a function is numbered with the place of the function in the order of names. -/
def IsMethod (p : Program) (ids : List FunctionId) (m : MethodId) (id : FunctionId) (f : Function) :
    Prop :=
  ∃ k : Nat, m = k ∧ (p.sortedFunctions ids)[k]? = some (id, f)

theorem IsMethod.function? (numbered : p.IsMethod ids m id f) : p.function? id = some f := by
  obtain ⟨k, _, listed⟩ := numbered
  exact (mem_sortedFunctions.mp (List.mem_of_getElem? listed)).2

theorem IsMethod.unique {id' : FunctionId} {f' : Function} (numbered : p.IsMethod ids m id f)
    (numbered' : p.IsMethod ids m id' f') : id = id' ∧ f = f' := by
  obtain ⟨k, rfl, listed⟩ := numbered
  obtain ⟨j, same, listed'⟩ := numbered'
  cases Int.ofNat.inj same
  cases listed.symm.trans listed'
  exact ⟨rfl, rfl⟩

/-- The functions of the list are those with a method, and each has one. -/
theorem existsUnique_isMethod (distinct : ids.Nodup) :
    (∃! m, p.IsMethod ids m id f) ↔ id ∈ ids ∧ p.function? id = some f := by
  rw [← mem_sortedFunctions]
  constructor
  · rintro ⟨_, ⟨k, _, listed⟩, _⟩
    exact List.mem_of_getElem? listed
  · intro member
    obtain ⟨k, listed⟩ := List.getElem?_of_mem member
    refine ⟨k, ⟨k, rfl, listed⟩, ?_⟩
    rintro _ ⟨j, rfl, listed'⟩
    have first : ((p.sortedFunctions ids).map Prod.fst)[k]? = some id := by simp [listed]
    have second : ((p.sortedFunctions ids).map Prod.fst)[j]? = some id := by simp [listed']
    have bound := (List.getElem?_eq_some_iff.mp second).1
    rw [(List.getElem?_inj bound (p.sortedFunctions_nodup distinct)).mp (second.trans first.symm)]

theorem mem_allFunctions_of_member {package : Package} (known : package ∈ p.packages)
    (member : id ∈ package.members) : id ∈ p.allFunctions :=
  List.mem_reverse.mpr (mem_reach_of_root (List.mem_flatMap.mpr ⟨package, known, member⟩))

theorem member_of_member? {package : Package} {name : Text}
    (found : p.member? package name = some root) :
    root ∈ package.members ∧ ∃ f, p.function? root = some f := by
  refine ⟨List.mem_of_find?_eq_some found, ?_⟩
  have named := List.find?_some found
  obtain ⟨f, known, _⟩ := (Option.any_eq_true _ _).mp named
  exact ⟨f, known⟩

/-- A run starts with functions of packages. -/
theorem mem_mainRoots (start : root ∈ p.mainRoots) :
    (∃ package ∈ p.packages, root ∈ package.members) ∧ ∃ f, p.function? root = some f := by
  simp only [mainRoots, List.mem_flatMap, List.mem_filter, List.mem_append,
    Option.mem_toList] at start
  obtain ⟨package, ⟨known, _⟩, named⟩ := start
  obtain ⟨member, isFunction⟩ := named.elim member_of_member? member_of_member?
  exact ⟨⟨package, known, member⟩, isFunction⟩

theorem allFunctions_lists (p : Program) : p.Lists p.allFunctions where
  distinct := List.nodup_reverse.mpr (reach_nodup _ _ _)
  roots _ start := by
    obtain ⟨⟨_, known, member⟩, _⟩ := mem_mainRoots start
    exact mem_allFunctions_of_member known member

theorem Lists.root_isMethod (lists : p.Lists ids) (start : root ∈ p.mainRoots) :
    ∃ m f, p.IsMethod ids m root f := by
  obtain ⟨_, f, isFunction⟩ := mem_mainRoots start
  obtain ⟨m, numbered, _⟩ :=
    (existsUnique_isMethod lists.distinct).mpr ⟨lists.roots root start, isFunction⟩
  exact ⟨m, f, numbered⟩

end Program

namespace Lowering

variable {config : Config} {exclude : List Text} {b : Builder} {id : FunctionId} {f : Function}
variable {functions : List (FunctionId × Function)} {m : MethodId} {k : Nat}

/-- The method of a function before its body is placed. -/
def bare (config : Config) (exclude : List Text) (k : Nat) (f : Function) : Method :=
  ⟨k, f.signature, f.hasBody, isLibrary config exclude f, [], []⟩

/-- The table holds the place of every function of the list, and nothing else. -/
def Numbers (table : MethodTable) (functions : List (FunctionId × Function)) : Prop :=
  ∀ (id : FunctionId) (m : MethodId), table[id]? = some m ↔
    ∃ (k : Nat) (f : Function), m = k ∧ functions[k]? = some (id, f)

/-- The builder has the methods of the functions and nothing else, and the table their numbers. -/
structure Declared (config : Config) (exclude : List Text)
    (functions : List (FunctionId × Function)) (b : Builder) (table : MethodTable) : Prop where
  size : b.program.methods.size = functions.length
  method : ∀ {k : Nat} {id f}, functions[k]? = some (id, f) →
    b.program.method? k = some (bare config exclude k f)
  stmts : b.program.stmts = #[]
  entryPoints : b.program.entryPoints = []
  errors : b.errors = []
  numbers : Numbers table functions

theorem addMethods_concat (functions : List (FunctionId × Function)) (x : FunctionId × Function)
    (b : Builder) : addMethods config exclude (functions ++ [x]) b =
      let (b, table) := addMethods config exclude functions b
      let (b, m) := b.addMethod x.2.signature x.2.hasBody (isLibrary config exclude x.2)
      (b, table.insert x.1 m) := by
  simp [addMethods]

theorem Numbers.insert {table : MethodTable} (numbers : Numbers table functions)
    (x : FunctionId × Function) (new : x.1 ∉ functions.map Prod.fst) :
    Numbers (table.insert x.1 functions.length) (functions ++ [x]) := by
  intro id m
  simp only [getElem?_concat_eq_some, Std.HashMap.getElem?_insert, beq_iff_eq]
  by_cases same : x.1 = id
  · rw [if_pos same, Option.some.injEq]
    constructor
    · rintro rfl
      exact ⟨functions.length, x.2, rfl, Or.inr ⟨rfl, same ▸ rfl⟩⟩
    · rintro ⟨k, f, rfl, before | ⟨rfl, _⟩⟩
      · exact absurd (List.mem_map.mpr ⟨_, List.mem_of_getElem? before, same.symm⟩) new
      · rfl
  · rw [if_neg same, numbers]
    constructor
    · rintro ⟨k, f, rfl, before⟩
      exact ⟨k, f, rfl, Or.inl before⟩
    · rintro ⟨k, f, rfl, before | ⟨_, rfl⟩⟩
      · exact ⟨k, f, rfl, before⟩
      · exact absurd rfl same

/-- Adding methods gives the functions the numbers of their places. -/
theorem addMethods_declared (functions : List (FunctionId × Function))
    (distinct : (functions.map Prod.fst).Nodup) (start : Declared config exclude [] b ∅) :
    Declared config exclude functions (addMethods config exclude functions b).1
      (addMethods config exclude functions b).2 := by
  induction functions using List.reverseRecOn with
  | nil => exact start
  | append_singleton functions x ih =>
      rw [List.map_append, List.map_singleton, ← List.concat_eq_append,
        List.nodup_concat] at distinct
      have declared := ih distinct.2
      have size := declared.size
      have found := PermissionGuard.Program.pushMethod_method?
        (addMethods config exclude functions b).1.program x.2.signature x.2.hasBody
        (isLibrary config exclude x.2)
      rw [addMethods_concat]
      constructor
      case size =>
        refine (Array.size_push _).trans ((congrArg (· + 1) size).trans ?_)
        rw [List.length_append, List.length_singleton]
      case method =>
        intro k id f listed
        refine (found k).trans ?_
        rw [size]
        rcases getElem?_concat_eq_some.mp listed with before | ⟨rfl, rfl⟩
        · have bound := (List.getElem?_eq_some_iff.mp before).1
          rw [if_neg (Int.ne_of_lt (Int.ofNat_lt.mpr bound)), declared.method before]
        · rw [if_pos rfl]
          rfl
      case stmts => exact declared.stmts
      case entryPoints => exact declared.entryPoints
      case errors => exact declared.errors
      case numbers =>
        have numbers := declared.numbers.insert x distinct.1
        rwa [← size] at numbers

end Lowering

end PermissionGuard.Ssa
