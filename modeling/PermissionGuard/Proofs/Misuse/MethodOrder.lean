import PermissionGuard.Proofs.Misuse.Renumbering
import PermissionGuard.Proofs.Program.Described

/-!
The order of the methods in a description. With different signature keys a written signature names
one entry wherever it stands, so reordered descriptions are accepted together, give renumbered
programs (`Reordered.renumbered`), and lead to the same report.
-/

namespace PermissionGuard

namespace Description

open Program

variable {d d' : Description} {p q : Program} {written : Text} {entry entry' : MethodEntry}
variable {i i' : Nat} {m m' : MethodId} {statement : StatementEntry}

/-- No two entries have signatures with the same key. -/
def DistinctKeys (entries : List MethodEntry) : Prop :=
  entries.Pairwise fun entry entry' =>
    ∀ key, keyOf? entry.signature = some key → keyOf? entry'.signature ≠ some key

theorem index_unique (distinct : DistinctKeys d.methods) {key : Text}
    (described : d.methods[i]? = some entry) (described' : d.methods[i']? = some entry')
    (named : keyOf? entry.signature = some key) (named' : keyOf? entry'.signature = some key) :
    i = i' := by
  obtain ⟨bound, rfl⟩ := List.getElem?_eq_some_iff.mp described
  obtain ⟨bound', rfl⟩ := List.getElem?_eq_some_iff.mp described'
  have apart := List.pairwise_iff_getElem.mp distinct
  rcases Nat.lt_trichotomy i i' with less | same | greater
  · exact absurd named' (apart i i' bound bound' less key named)
  · exact same
  · exact absurd named (apart i' i bound' bound greater key named')

theorem resolve?_eq_some_iff (distinct : DistinctKeys d.methods)
    (described : d.methods[i]? = some entry) :
    d.resolve? written = some i ↔
      (keyOf? written).isSome ∧ keyOf? entry.signature = keyOf? written := by
  constructor
  · intro resolved
    obtain ⟨entry', described', named, sameKey⟩ := described_of_resolve? resolved
    cases described.symm.trans described'
    exact ⟨named, sameKey⟩
  · rintro ⟨named, sameKey⟩
    obtain ⟨key, isKey⟩ := Option.isSome_iff_exists.mp named
    cases resolved : d.resolve? written with
    | none =>
        rw [resolve?, isKey, Option.bind_some, List.findIdx?_eq_none_iff] at resolved
        have absent := resolved entry (List.mem_of_getElem? described)
        simp [sameKey, isKey] at absent
    | some j =>
        obtain ⟨entry', described', _, sameKey'⟩ := described_of_resolve? resolved
        rw [index_unique distinct described described' (sameKey.trans isKey)
          (sameKey'.trans isKey)]

/-- Numbers of the same entry in two descriptions. -/
def SameEntry (d d' : Description) (m m' : MethodId) : Prop :=
  ∃ (i i' : Nat) (entry : MethodEntry), m = i ∧ m' = i' ∧ d.methods[i]? = some entry ∧
    d'.methods[i']? = some entry

/-- Two descriptions with the same entries in any order. -/
structure Reordered (d d' : Description) : Prop where
  methods : d.methods.Perm d'.methods
  distinct : DistinctKeys d.methods
  entryPoints : d'.entryPoints = d.entryPoints
  hierarchy : d'.hierarchy = d.hierarchy

theorem Reordered.symm (reordered : d.Reordered d') : d'.Reordered d where
  methods := reordered.methods.symm
  distinct := reordered.methods.pairwise reordered.distinct
    fun apart key named named' => apart key named' named
  entryPoints := reordered.entryPoints.symm
  hierarchy := reordered.hierarchy.symm

theorem SameEntry.symm (related : d.SameEntry d' m m') : d'.SameEntry d m' m := by
  obtain ⟨i, i', entry, left, right, described, described'⟩ := related
  exact ⟨i', i, entry, right, left, described', described⟩

theorem Reordered.counterpart (reordered : d.Reordered d')
    (described : d.methods[i]? = some entry) :
    ∃ i' : Nat, d'.methods[i']? = some entry ∧ d.SameEntry d' i i' := by
  have member := reordered.methods.mem_iff.mp (List.mem_of_getElem? described)
  obtain ⟨i', described'⟩ := List.getElem?_of_mem member
  exact ⟨i', described', i, i', entry, rfl, rfl, described, described'⟩

/-- A written signature names the same entry in both descriptions. -/
theorem Reordered.resolve? (reordered : d.Reordered d') (related : d.SameEntry d' i i')
    (resolved : d.resolve? written = some i) : d'.resolve? written = some i' := by
  obtain ⟨j, j', entry, left, right, described, described'⟩ := related
  cases Int.ofNat.inj left
  cases Int.ofNat.inj right
  rw [resolve?_eq_some_iff reordered.distinct described] at resolved
  exact (resolve?_eq_some_iff reordered.symm.distinct described').mpr resolved

theorem Reordered.resolves (reordered : d.Reordered d') (resolved : d.resolve? written = some i) :
    ∃ i' : Nat, d'.resolve? written = some i' ∧ d.SameEntry d' i i' := by
  obtain ⟨entry, described, _⟩ := described_of_resolve? resolved
  obtain ⟨i', _, related⟩ := reordered.counterpart described
  exact ⟨i', reordered.resolve? related resolved, related⟩

theorem SameEntry.isConcrete (related : d.SameEntry d' i i') :
    d'.isConcrete i' = d.isConcrete i := by
  obtain ⟨j, j', entry, left, right, described, described'⟩ := related
  cases Int.ofNat.inj left
  cases Int.ofNat.inj right
  simp [Description.isConcrete, described, described']

theorem Reordered.valid (reordered : d.Reordered d') (valid : d.Valid) : d'.Valid := by
  have members {entry : MethodEntry} (member : entry ∈ d'.methods) : entry ∈ d.methods :=
    reordered.methods.mem_iff.mpr member
  constructor
  case methods =>
    exact fun entry member => valid.methods entry (members member)
  case bodies =>
    intro entry member
    obtain ⟨statements, traps⟩ := valid.bodies entry (members member)
    refine ⟨fun statement inBody => ⟨(statements statement inBody).1, ?_⟩, traps⟩
    intro written target
    obtain ⟨m, resolved, concrete⟩ := (statements statement inBody).2 written target
    obtain ⟨m', resolved', related⟩ := reordered.resolves resolved
    exact ⟨m', resolved', related.isConcrete.trans concrete⟩
  case entryPoints =>
    intro written entered
    rw [reordered.entryPoints] at entered
    obtain ⟨m, resolved⟩ := Option.isSome_iff_exists.mp (valid.entryPoints written entered)
    obtain ⟨m', resolved', _⟩ := reordered.resolves resolved
    simp [resolved']
  case flow =>
    exact fun entry member => valid.flow entry (members member)

/-- A statement calls the counterparts of what it calls. -/
theorem Reordered.callees (reordered : d.Reordered d') (related : d.SameEntry d' m m')
    (calls : m ∈ d.callees statement) : m' ∈ d'.callees statement := by
  obtain ⟨i, i', entry, rfl, rfl, described, described'⟩ := related
  have related : d.SameEntry d' i i' := ⟨i, i', entry, rfl, rfl, described, described'⟩
  simp only [Description.callees, mem_foldl_appendNew, List.not_mem_nil, false_or, List.mem_map,
    List.mem_append, directCalls, List.mem_filter, Option.mem_toList, List.mem_filterMap] at calls ⊢
  obtain ⟨j, named, same⟩ := calls
  cases Int.ofNat.inj same
  refine ⟨i', ?_, rfl⟩
  rcases named with ⟨direct, concrete⟩ | ⟨written, target, resolved⟩
  · exact Or.inl ⟨reordered.resolve? related direct, related.isConcrete.trans concrete⟩
  · exact Or.inr ⟨written, target, reordered.resolve? related resolved⟩

theorem Reordered.entered (reordered : d.Reordered d') (denotes : d.Denotes p)
    (denotes' : d'.Denotes q) (related : d.SameEntry d' m m') (entered : m ∈ p.entryPoints) :
    m' ∈ q.entryPoints := by
  obtain ⟨i, i', entry, rfl, rfl, described, described'⟩ := related
  have related : d.SameEntry d' i i' := ⟨i, i', entry, rfl, rfl, described, described'⟩
  rw [denotes.entryPoints] at entered
  rw [denotes'.entryPoints, reordered.entryPoints]
  simp only [List.mem_map, List.mem_filterMap] at entered ⊢
  obtain ⟨j, ⟨written, member, resolved⟩, same⟩ := entered
  cases Int.ofNat.inj same
  exact ⟨i', ⟨written, member, reordered.resolve? related resolved⟩, rfl⟩

theorem Reordered.unique (reordered : d.Reordered d') (valid : d.Valid) :
    Relator.LeftUnique (d.SameEntry d') := by
  rintro _ _ _ ⟨i, i', entry, rfl, rfl, described, described'⟩
    ⟨j, j', entry', rfl, right, other, other'⟩
  cases Int.ofNat.inj right
  cases described'.symm.trans other'
  obtain ⟨key, named⟩ := Option.isSome_iff_exists.mp
    (valid.methods entry (List.mem_of_getElem? described)).1
  rw [index_unique reordered.distinct described other named named]

/-- Reordering a description renumbers the methods and statements of its program. -/
theorem Reordered.renumbered (reordered : d.Reordered d') (valid : d.Valid)
    (denotes : d.Denotes p) (denotes' : d'.Denotes q) : p.Renumbered q (d.SameEntry d') := by
  constructor
  case unique =>
    refine ⟨reordered.unique valid, ?_⟩
    intro m m' m'' left right
    exact reordered.symm.unique (reordered.valid valid) left.symm right.symm
  case forth =>
    intro m method known
    obtain ⟨i, entry, rfl, described, _⟩ := entry_of_method denotes.headed known
    obtain ⟨i', _, related⟩ := reordered.counterpart described
    exact ⟨i', related⟩
  case back =>
    intro m' method' known'
    obtain ⟨i', entry, rfl, described', _⟩ := entry_of_method denotes'.headed known'
    obtain ⟨i, _, related⟩ := reordered.symm.counterpart described'
    exact ⟨i, related.symm⟩
  case method =>
    rintro _ _ ⟨i, i', entry, rfl, rfl, described, described'⟩
    obtain ⟨method, known, read, concrete, library⟩ := method_of_entry denotes.headed described
    obtain ⟨method', known', read', concrete', library'⟩ :=
      method_of_entry denotes'.headed described'
    refine ⟨method, method', known, known', ?_, concrete'.trans concrete.symm,
      library'.trans library.symm, ?_, ?_⟩
    · exact Except.ok.inj (read'.symm.trans read)
    · rw [denotes'.traps described' known', denotes.traps described known]
    · rw [denotes'.body_length described' known', denotes.body_length described known]
  case statement =>
    intro s s' st st' found found' inMethods index
    obtain ⟨m, entry, statement, describes⟩ := denotes.statement found
    obtain ⟨m', entry', statement', describes'⟩ := denotes'.statement found'
    obtain ⟨i, i', same, left, right, described, described'⟩ := inMethods
    cases Int.ofNat.inj (describes.inMethod.symm.trans left)
    cases Int.ofNat.inj (describes'.inMethod.symm.trans right)
    cases described.symm.trans describes.method
    cases described'.symm.trans describes'.method
    -- Both stand at the same place of the same entry.
    have position := describes.position
    rw [index] at position
    cases position.symm.trans describes'.position
    refine ⟨describes'.target.trans describes.target.symm,
      describes'.succs.trans describes.succs.symm, describes'.line.trans describes.line.symm, ?_⟩
    intro k k' related
    rw [describes.callees, describes'.callees]
    exact ⟨reordered.callees related, reordered.symm.callees related.symm⟩
  case entryPoints =>
    intro m m' related
    exact ⟨reordered.entered denotes denotes' related,
      reordered.symm.entered denotes' denotes related.symm⟩
  case hierarchy =>
    rw [denotes'.hierarchy, denotes.hierarchy, supertypes, reordered.hierarchy, supertypes]

theorem Denotes.keysDistinct (denotes : d.Denotes p) (distinct : DistinctKeys d.methods) :
    p.KeysDistinct := by
  intro m m' method method' known known' sameKey
  obtain ⟨i, entry, rfl, described, read, _⟩ := entry_of_method denotes.headed known
  obtain ⟨i', entry', rfl, described', read', _⟩ := entry_of_method denotes.headed known'
  have named := keyOf?_of_ok read
  rw [sameKey] at named
  rw [index_unique distinct described described' named (keyOf?_of_ok read')]

theorem Reordered.reportItems_eq (reordered : d.Reordered d') {a b : Arena}
    (accepted : d.toArena = .ok a) (accepted' : d'.toArena = .ok b) (catalog : Catalog)
    (config : Config) : reportItems a catalog config = reportItems b catalog config := by
  obtain ⟨valid, rfl⟩ := toArena_eq_ok_iff.mp accepted
  obtain ⟨valid', rfl⟩ := toArena_eq_ok_iff.mp accepted'
  obtain ⟨steps, built⟩ := valid.builtBy
  obtain ⟨steps', built'⟩ := valid'.builtBy
  have renumbered := reordered.renumbered valid valid.denotes valid'.denotes
  exact Renumbered.reportItems_eq built built' renumbered
    (valid.denotes.keysDistinct reordered.distinct)
    (valid'.denotes.keysDistinct reordered.symm.distinct) catalog config

end Description

open Description

/-- The order of the methods in a description shows in nothing that is reported: with different
signature keys, reordered descriptions are accepted together, and the reports of their misuses are
equal as text and as JSON. -/
theorem report_ignores_method_order (d : Description) {methods : List MethodEntry}
    (reordered : d.methods.Perm methods) (distinct : DistinctKeys d.methods) :
    let other : Description := { d with methods }
    ((∃ a, d.toArena = .ok a) ↔ ∃ b, other.toArena = .ok b) ∧
      ∀ a b, d.toArena = .ok a → other.toArena = .ok b → ∀ catalog config,
        Report.text (reportItems a catalog config) = Report.text (reportItems b catalog config) ∧
          Report.json (reportItems a catalog config) =
            Report.json (reportItems b catalog config) := by
  intro other
  have related : d.Reordered other := ⟨reordered, distinct, rfl, rfl⟩
  have accepts {d d' : Description} (related : d.Reordered d') :
      (∃ a, d.toArena = .ok a) → ∃ b, d'.toArena = .ok b := by
    rintro ⟨a, accepted⟩
    have valid := (toArena_eq_ok_iff.mp accepted).1
    exact ⟨_, toArena_eq_ok_iff.mpr ⟨related.valid valid, rfl⟩⟩
  refine ⟨⟨accepts related, accepts related.symm⟩, ?_⟩
  intro a b accepted accepted' catalog config
  have items := related.reportItems_eq accepted accepted' catalog config
  exact ⟨congrArg Report.text items, congrArg Report.json items⟩

/-- A method that opens the camera and an entry point that calls it, both ways round. -/
def cameraMethods : List MethodEntry :=
  [{ signature := "<app.Main: void take()>"
     body := [{ invoke := "<android.hardware.Camera: android.hardware.Camera open()>" }] },
   { signature := "<app.Main: void run()>"
     body := [{ invoke := "<app.Main: void take()>" }, { line := 7 }] }]

def cameraDescription : Description :=
  { methods := cameraMethods, entryPoints := ["<app.Main: void run()>"] }

theorem cameraMethods_distinct : DistinctKeys cameraMethods := by
  refine .cons ?_ (.cons (fun _ member => absurd member List.not_mem_nil) .nil)
  intro entry member key named named'
  cases List.mem_singleton.mp member
  exact absurd (named.trans named'.symm) (by decide)

theorem cameraDescription_valid : cameraDescription.Valid := by decide +kernel

theorem report_ignores_method_order_reversed :
    let other : Description := { cameraDescription with methods := cameraMethods.reverse }
    cameraMethods.Perm cameraMethods.reverse ∧ DistinctKeys cameraMethods ∧
      ∃ a b, cameraDescription.toArena = .ok a ∧ other.toArena = .ok b ∧
        Report.text (reportItems a cameraCatalog Config.default) =
          Report.text (reportItems b cameraCatalog Config.default) := by
  intro other
  have reordered : cameraMethods.Perm cameraMethods.reverse := (List.reverse_perm _).symm
  have accepted : cameraDescription.toArena = .ok (Arena.ofProgram cameraDescription.program) :=
    toArena_eq_ok_iff.mpr ⟨cameraDescription_valid, rfl⟩
  obtain ⟨together, reports⟩ :=
    report_ignores_method_order cameraDescription reordered cameraMethods_distinct
  obtain ⟨b, accepted'⟩ := together.mp ⟨_, accepted⟩
  exact ⟨reordered, cameraMethods_distinct, _, b, accepted, accepted',
    (reports _ b accepted accepted' cameraCatalog Config.default).1⟩

end PermissionGuard
