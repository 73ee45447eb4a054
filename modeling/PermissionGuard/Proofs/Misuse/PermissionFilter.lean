import PermissionGuard.Proofs.Catalog.Restriction
import PermissionGuard.Proofs.Misuse.Collection
import PermissionGuard.Proofs.Ordered

/-!
A choice of permissions restricts the report and changes nothing else. With the catalog of the
chosen permissions, the candidates are those with an entry left, in the same order
(`candidates_narrowed`), each is asked about as before, and sorting leaves them in the same order.
-/

namespace PermissionGuard

open Catalog

/-- The same call with the entry of another catalog, if there is one. -/
def Misuse.narrow (catalog : Catalog) (r : Misuse) : Option Misuse :=
  (catalog.lookup? r.sensitive.sig).map fun entry => { r with sensitive := entry }

namespace Collector

def narrowCandidate (catalog : Catalog) (candidate : Misuse × Signature) :
    Option (Misuse × Signature) :=
  (candidate.1.narrow catalog).map (·, candidate.2)

variable {c : Collector} {part : Catalog} {kept : Text → Bool}

theorem narrow_eq_some {r r' : Misuse} (narrowed : r.narrow part = some r') :
    r'.stmt = r.stmt ∧ r'.method = r.method ∧
      part.lookup? r.sensitive.sig = some r'.sensitive := by
  obtain ⟨entry, found, rfl⟩ := Option.map_eq_some_iff.mp narrowed
  exact ⟨rfl, rfl, found⟩

theorem candidateAt_narrowed (restricted : c.catalog.RestrictedTo kept part) (m : MethodId)
    (s : StmtId) : { c with catalog := part }.candidateAt m s =
      (c.candidateAt m s).bind (narrowCandidate part) := by
  simp only [candidateAt, Option.bind_eq_bind, Option.bind_assoc]
  congr 1
  funext st
  congr 1
  funext target
  cases found : c.catalog.lookup? target with
  | none =>
      cases left : part.lookup? target with
      | none => rfl
      | some entry =>
          obtain ⟨old, present, _⟩ := restricted.lookup?_eq_some left
          cases found.symm.trans present
  | some entry =>
      rw [← lookup?_congr (lookup?_key found)]
      simp only [Option.bind_some, narrowCandidate, Misuse.narrow]
      cases part.lookup? entry.sig <;> rfl

theorem candidates_narrowed (restricted : c.catalog.RestrictedTo kept part) :
    { c with catalog := part }.candidates =
      c.candidates.filterMap (narrowCandidate part) := by
  rw [candidates_eq, candidates_eq, List.filterMap_flatMap]
  congr 1
  funext m
  rw [List.filterMap_filterMap]
  congr 1
  funext s
  exact candidateAt_narrowed restricted m s

/-- A narrowed call is asked about as before. -/
theorem refused_narrowed (c : Collector) (part : Catalog)
    (candidates : List (Misuse × Signature)) :
    { c with catalog := part }.refused (candidates.filterMap (narrowCandidate part)) =
      (c.refused candidates).filterMap (Misuse.narrow part) := by
  induction candidates with
  | nil => rfl
  | cons x candidates ih =>
      simp only [refused] at ih ⊢
      cases narrowed : x.1.narrow part with
      | none =>
          rw [List.filterMap_cons_none (by simp [narrowCandidate, narrowed]), ih, List.filter_cons]
          split
          · rw [List.map_cons, List.filterMap_cons_none narrowed]
          · rfl
      | some r =>
          obtain ⟨sameStmt, sameMethod, _⟩ := narrow_eq_some narrowed
          have verdict : { c with catalog := part }.verdict r = c.verdict x.1 := by
            simp only [Collector.verdict, sameStmt, sameMethod]
          rw [List.filterMap_cons_some (b := (r, x.2)) (by simp [narrowCandidate, narrowed]),
            List.filter_cons, List.filter_cons, verdict]
          split
          · rw [List.map_cons, List.map_cons, List.filterMap_cons_some narrowed, ih]
          · exact ih

/-- With a restricted catalog a collector finds what it found before, as far as an entry is left. -/
theorem collect_narrowed (enumerated : c.propagator.model.Enumerated)
    (restricted : c.catalog.RestrictedTo kept part) (st st' : Progress) :
    ({ c with catalog := part }.collect st').1 =
      (c.collect st).1.filterMap (Misuse.narrow part) := by
  rw [collect_fst (c := { c with catalog := part }) enumerated, collect_fst enumerated,
    candidates_narrowed restricted, refused_narrowed]
  have place {r r' : Misuse} (narrowed : r.narrow part = some r') : c.place r' = c.place r := by
    obtain ⟨sameStmt, sameMethod, _⟩ := narrow_eq_some narrowed
    simp only [Collector.place, sameStmt, sameMethod]
  refine (filterMap_mergeSort c.placeLe_trans c.placeLe_total ?_ _).symm
  intro r s r' s' left right
  rw [place left, place right]

end Collector

/-- A record for the same call, with the chosen ones of its permissions. -/
structure Misuse.RestrictedTo (r : Misuse) (permissions : List Text) (r' : Misuse) : Prop where
  stmt : r'.stmt = r.stmt
  method : r'.method = r.method
  key : r'.sensitive.sig.key = r.sensitive.sig.key
  permissions : r'.sensitive.permissions = r.sensitive.permissions.filter permissions.contains

theorem forall₂_filterMap {α β : Type} {related : α → β → Prop} {change : α → Option β}
    {keep : α → Bool} {list : List α}
    (each : ∀ a ∈ list, (change a).isSome = keep a ∧ ∀ b, change a = some b → related a b) :
    List.Forall₂ related (list.filter keep) (list.filterMap change) := by
  induction list with
  | nil => exact .nil
  | cons a list ih =>
      obtain ⟨kept, isRelated⟩ := each a List.mem_cons_self
      have rest := ih fun b member => each b (List.mem_cons_of_mem a member)
      cases changed : change a with
      | none =>
          rw [List.filterMap_cons_none changed, List.filter_cons_of_neg (by simp [← kept, changed])]
          exact rest
      | some b =>
          rw [List.filterMap_cons_some changed, List.filter_cons_of_pos (by simp [← kept, changed])]
          exact .cons (isRelated b changed) rest

theorem SensitiveMethod.any_permission_iff {entry : SensitiveMethod}
    (increasing : entry.permissions.Pairwise (· < ·)) (permissions : List Text) :
    entry.permissions.any permissions.contains = true ↔
      ∃ permission ∈ permissions, entry.requires permission = true := by
  simp only [List.any_eq_true, SensitiveMethod.requires_iff increasing, List.contains_iff_mem]
  constructor
  · rintro ⟨permission, needs, chosen⟩
    exact ⟨permission, chosen, needs⟩
  · rintro ⟨permission, chosen, needs⟩
    exact ⟨permission, needs, chosen⟩

/-- The misuses under a restricted catalog are those of the entries that are left. -/
theorem Catalog.RestrictedTo.analyze {full part : Catalog} {permissions : List Text}
    (restricted : full.RestrictedTo permissions.contains part) (a : Arena) (config : Config) :
    List.Forall₂ (fun r r' => r.RestrictedTo permissions r')
      ((Misuse.analyze a.model full config).1.filter fun r =>
        permissions.any r.sensitive.requires)
      (Misuse.analyze a.model part config).1 := by
  have narrowed := Collector.collect_narrowed (c := Misuse.collector a.model full config)
    a.model_enumerated restricted {} {}
  change List.Forall₂ _ _
    ({ Misuse.collector a.model full config with catalog := part }.collect {}).1
  rw [narrowed]
  refine forall₂_filterMap fun r recorded => ?_
  -- The entry of a record is the entry of its own signature.
  obtain ⟨target, candidate⟩ := (Collector.mem_collect a.model_enumerated).mp recorded |>.1
  obtain ⟨_, _, _, _, _, _, found⟩ := Collector.mem_candidates.mp candidate
  have own : full.lookup? r.sensitive.sig = some r.sensitive :=
    (lookup?_congr (lookup?_key found)).trans found
  constructor
  · have increasing := restricted.full.increasing _ (List.mem_of_find?_eq_some own)
    rw [Misuse.narrow, Option.isSome_map, restricted.lookup?_isSome own, Bool.eq_iff_iff,
      SensitiveMethod.any_permission_iff increasing, List.any_eq_true]
  · intro r' isNarrowed
    obtain ⟨stmt, method, left⟩ := Collector.narrow_eq_some isNarrowed
    obtain ⟨entry, present, same, _⟩ := restricted.lookup?_eq_some left
    cases own.symm.trans present
    exact ⟨stmt, method, lookup?_key left, same⟩

/-- Reading a mapping for some permissions is a restriction. A mapping that is accepted as a whole
is accepted for them too. An entry is left exactly when it needs one of them, with those that it
needs in the same order. The misuses found are those of methods that need one of them, call by call
and in the same order. -/
theorem permission_filter_restricts {t : Text} {full : Catalog}
    (accepted : Mapping.read t [] = .ok full) {permissions : List Text}
    (chosen : permissions ≠ []) :
    ∃ part, Mapping.read t permissions = .ok part ∧
      (∀ sig, (part.lookup? sig).isSome ↔ ∃ entry, full.lookup? sig = some entry ∧
        ∃ permission ∈ permissions, entry.requires permission = true) ∧
      (∀ sig entry entry', full.lookup? sig = some entry → part.lookup? sig = some entry' →
        entry'.permissions = entry.permissions.filter permissions.contains) ∧
      ∀ (a : Arena) (config : Config),
        List.Forall₂ (fun r r' => r.RestrictedTo permissions r')
          ((Misuse.analyze a.model full config).1.filter fun r =>
            permissions.any r.sensitive.requires)
          (Misuse.analyze a.model part config).1 := by
  obtain ⟨part, read, restricted⟩ := Mapping.read_restricted accepted chosen
  have requires_iff {sig : Signature} {entry : SensitiveMethod}
      (present : full.lookup? sig = some entry) :=
    SensitiveMethod.any_permission_iff
      (restricted.full.increasing entry (List.mem_of_find?_eq_some present)) permissions
  refine ⟨part, read, ?_, ?_, restricted.analyze⟩
  · intro sig
    constructor
    · intro left
      obtain ⟨entry', found⟩ := Option.isSome_iff_exists.mp left
      obtain ⟨entry, present, _, needs⟩ := restricted.lookup?_eq_some found
      exact ⟨entry, present, (requires_iff present).mp needs⟩
    · rintro ⟨entry, present, needs⟩
      rw [restricted.lookup?_isSome present]
      exact (requires_iff present).mpr needs
  · intro sig entry entry' present found
    obtain ⟨same, present', left, _⟩ := restricted.lookup?_eq_some found
    cases present.symm.trans present'
    exact left

def socketConnect : Signature := ⟨"java.net.Socket", "connect", "void", []⟩

/-- Two sections that share a method. -/
def twoSections : Text :=
  "Permission:CAMERA\n1 Callers:\n<android.hardware.Camera: android.hardware.Camera open()> (2)\n" ++
    "Permission:INTERNET\n<java.net.Socket: void connect()>\n" ++
    "<android.hardware.Camera: android.hardware.Camera open()>\n"

def twoEntries : Catalog :=
  ⟨[⟨cameraOpen, ["CAMERA", "INTERNET"]⟩, ⟨socketConnect, ["INTERNET"]⟩]⟩

theorem permission_filter_restricts_sections :
    Mapping.read twoSections [] = .ok twoEntries ∧
      ∃ part, Mapping.read twoSections ["CAMERA"] = .ok part ∧
        (part.lookup? cameraOpen).map SensitiveMethod.permissions = some [("CAMERA" : Text)] ∧
          part.lookup? socketConnect = none := by
  have accepted : Mapping.read twoSections [] = .ok twoEntries := by
    have known : (Mapping.read twoSections []).toOption = some twoEntries := by decide +kernel
    cases read : Mapping.read twoSections [] with
    | error cause => simp [read, Except.toOption] at known
    | ok catalog => simpa [read, Except.toOption] using known
  have chosen : [("CAMERA" : Text)] ≠ [] := by simp
  obtain ⟨part, read, present, restricted, _⟩ := permission_filter_restricts accepted chosen
  refine ⟨accepted, part, read, ?_, ?_⟩
  · have shared : twoEntries.lookup? cameraOpen =
        some ⟨cameraOpen, ["CAMERA", "INTERNET"]⟩ := by decide
    have left := (present cameraOpen).mpr ⟨_, shared, "CAMERA", by simp, by decide +kernel⟩
    obtain ⟨entry, found⟩ := Option.isSome_iff_exists.mp left
    rw [found, Option.map_some, restricted cameraOpen _ entry shared found]
    decide
  · have single : twoEntries.lookup? socketConnect = some ⟨socketConnect, ["INTERNET"]⟩ := by
      decide
    rw [← Option.not_isSome_iff_eq_none, present socketConnect]
    rintro ⟨entry, found, permission, chosen, needs⟩
    cases single.symm.trans found
    cases List.mem_singleton.mp chosen
    exact absurd needs (by decide +kernel)

end PermissionGuard
