import PermissionGuard.Proofs.Catalog.Entries
import PermissionGuard.Proofs.Ordered
import PermissionGuard.Proofs.Signature.Key
import Mathlib.Data.List.Dedup

/-!
Catalogs that are made by additions. An addition keeps that a catalog holds, under every key, what
was added with a signature of that key (`Holds.add`), so a run of additions does too. Signatures that
were read from texts are told apart by their keys, and then the catalog is the relation that was
added: nothing depends on the order or on repetitions.
-/

namespace PermissionGuard

/-- The signature was read from some text. -/
def Signature.Parsed (sig : Signature) : Prop := ∃ t, parse t = .ok sig

theorem Signature.Parsed.canonical {sig : Signature} (parsed : sig.Parsed) : sig.Canonical := by
  obtain ⟨t, read⟩ := parsed
  exact canonical_of_parse read

theorem Text.sortedSet_increasing (texts : List Text) : (sortedSet texts).Pairwise (· < ·) := by
  have le_iff (a b : Text) : le a b = true ↔ a ≤ b := by simp [le, List.not_lt]
  have sorted : (sorted texts).Pairwise (· ≤ ·) := by
    have trans (a b c : Text) : le a b → le b c → le a c := by
      rw [le_iff, le_iff, le_iff]
      exact List.le_trans
    have total (a b : Text) : le a b || le b a := by
      rw [Bool.or_eq_true, le_iff, le_iff]
      exact List.le_total a b
    exact (List.pairwise_mergeSort trans total texts).imp (le_iff _ _).mp
  refine (dropAdjacent_pairwise (fun _ _ => List.le_antisymm) sorted).imp ?_
  intro a b both
  exact lt_of_ne_of_not_lt both.2.symm both.1

namespace Catalog

open SensitiveMethod

variable {c c' : Catalog} {sig : Signature} {entry m : SensitiveMethod} {permission key : Text}
variable {needs needs' : List (Signature × Text)}

/-- Records that methods need permissions, one after the other. -/
def addAll (c : Catalog) (needs : List (Signature × Text)) : Catalog :=
  needs.foldl (fun c need => c.add need.1 need.2) c

/-- The catalog holds what was added: under a key the permissions of all signatures with that key,
and for every entry a signature that was added. -/
structure Holds (c : Catalog) (needs : List (Signature × Text)) : Prop where
  ordered : c.Ordered
  mem_permissionsOf : ∀ {key permission}, permission ∈ c.permissionsOf key ↔
    ∃ sig : Signature, sig.key = key ∧ (sig, permission) ∈ needs
  added : ∀ m ∈ c.methods, ∃ permission, (m.sig, permission) ∈ needs

theorem empty_holds : empty.Holds [] where
  ordered := empty_ordered
  mem_permissionsOf := by simp [empty]
  added := by simp [empty]

theorem Holds.add (holds : c.Holds needs) (sig : Signature) (permission : Text) :
    (c.add sig permission).Holds (needs ++ [(sig, permission)]) where
  ordered := holds.ordered.add sig permission
  mem_permissionsOf := by
    intro key p
    rw [holds.ordered.permissionsOf_add]
    split
    · rename_i same
      rw [mem_insertText, holds.mem_permissionsOf]
      grind
    · rename_i different
      rw [holds.mem_permissionsOf]
      grind
  added := by
    intro m member
    rcases mem_insert member with old | new | ⟨old, known, _, changed⟩
    · obtain ⟨p, earlier⟩ := holds.added m old
      exact ⟨p, by simp [earlier]⟩
    · exact ⟨permission, by simp [new]⟩
    · obtain ⟨p, earlier⟩ := holds.added old known
      exact ⟨p, by simp [changed, earlier]⟩

theorem Holds.addAll (holds : c.Holds needs) (more : List (Signature × Text)) :
    (c.addAll more).Holds (needs ++ more) := by
  induction more generalizing c needs with
  | nil => simpa [Catalog.addAll] using holds
  | cons need more ih =>
      have rest := ih (holds.add need.1 need.2)
      simpa [Catalog.addAll] using rest

/-! ### Entries -/

theorem Ordered.lookup?_of_mem (ordered : c.Ordered) (member : m ∈ c.methods) :
    c.lookup? m.sig = some m := by
  obtain ⟨methods⟩ := c
  have keys : methods.Pairwise fun m m' => m.sig.key < m'.sig.key := ordered.keys
  change m ∈ methods at member
  change methods.find? (·.sig.key == m.sig.key) = some m
  clear ordered
  induction keys with
  | nil => cases member
  | @cons first rest before _ ih =>
      rcases List.mem_cons.mp member with same | later
      · simp [same]
      · have less := before m later
        have different : first.sig.key ≠ m.sig.key := by
          intro same
          rw [same] at less
          exact List.lt_irrefl _ less
        rw [List.find?_cons_of_neg (by simpa using different)]
        exact ih later

theorem lookup?_mem (found : c.lookup? sig = some entry) : entry ∈ c.methods :=
  List.mem_of_find?_eq_some found

section Canonical

variable (holds : c.Holds needs) (canonical : ∀ need ∈ needs, need.1.Canonical)
include holds canonical

theorem Holds.mem_permissionsOf_key (known : sig.Canonical) :
    permission ∈ c.permissionsOf sig.key ↔ (sig, permission) ∈ needs := by
  rw [holds.mem_permissionsOf]
  constructor
  · intro found
    obtain ⟨other, same, member⟩ := found
    have equal : other = sig := (canonical _ member).eq_of_key known same
    exact equal ▸ member
  · exact fun member => ⟨sig, rfl, member⟩

theorem Holds.lookup?_isSome (known : sig.Canonical) :
    (c.lookup? sig).isSome ↔ ∃ permission, (sig, permission) ∈ needs := by
  rw [holds.ordered.lookup?_isSome, Ne, List.eq_nil_iff_forall_not_mem]
  simp [holds.mem_permissionsOf_key canonical known]

theorem Holds.lookup?_sig (known : sig.Canonical) (found : c.lookup? sig = some entry) :
    entry.sig = sig := by
  obtain ⟨p, member⟩ := holds.added entry (lookup?_mem found)
  exact (canonical _ member).eq_of_key known (lookup?_key found)

theorem Holds.mem_permissions (known : sig.Canonical) (found : c.lookup? sig = some entry) :
    permission ∈ entry.permissions ↔ (sig, permission) ∈ needs := by
  rw [← permissionsOf_of_lookup? found]
  exact holds.mem_permissionsOf_key canonical known

theorem Holds.entry_exists (added : (sig, permission) ∈ needs) :
    ∃ entry ∈ c.methods, c.lookup? sig = some entry := by
  have found := (holds.lookup?_isSome canonical (canonical _ added)).mpr ⟨permission, added⟩
  obtain ⟨entry, found⟩ := Option.isSome_iff_exists.mp found
  exact ⟨entry, lookup?_mem found, found⟩

theorem Holds.mem_signatures :
    sig ∈ c.methods.map SensitiveMethod.sig ↔ ∃ permission, (sig, permission) ∈ needs := by
  constructor
  · intro listed
    obtain ⟨m, member, same⟩ := List.mem_map.mp listed
    exact same ▸ holds.added m member
  · intro added
    obtain ⟨p, member⟩ := added
    obtain ⟨entry, listed, found⟩ := holds.entry_exists canonical member
    exact List.mem_map.mpr ⟨entry, listed, holds.lookup?_sig canonical (canonical _ member) found⟩

theorem Holds.size_eq : c.size = (needs.map Prod.fst).dedup.length := by
  have distinct : (c.methods.map SensitiveMethod.sig).Nodup := by
    rw [List.Nodup, List.pairwise_map]
    refine holds.ordered.keys.imp ?_
    intro m m' less same
    rw [same] at less
    exact List.lt_irrefl _ less
  have same : (c.methods.map SensitiveMethod.sig).Perm (needs.map Prod.fst).dedup := by
    rw [List.perm_ext_iff_of_nodup distinct (List.nodup_dedup _)]
    intro sig
    rw [holds.mem_signatures canonical]
    simp
  simpa [size] using same.length_eq

theorem Holds.mem_catalogPermissions :
    permission ∈ c.permissions ↔ ∃ sig, (sig, permission) ∈ needs := by
  rw [permissions, Text.sortedSet, mem_dropAdjacent, Text.sorted, List.mem_mergeSort,
    List.mem_flatMap]
  constructor
  · intro listed
    obtain ⟨m, member, needed⟩ := listed
    obtain ⟨p, added⟩ := holds.added m member
    have found := holds.ordered.lookup?_of_mem member
    exact ⟨m.sig, (holds.mem_permissions canonical (canonical _ added) found).mp needed⟩
  · intro added
    obtain ⟨sig, member⟩ := added
    obtain ⟨entry, listed, found⟩ := holds.entry_exists canonical member
    exact ⟨entry, listed,
      (holds.mem_permissions canonical (canonical _ member) found).mpr member⟩

/-- An entry is found in every catalog that holds the same. -/
theorem Holds.mem_of_mem (holds' : c'.Holds needs') (same : ∀ need, need ∈ needs' ↔ need ∈ needs)
    (member : m ∈ c.methods) : m ∈ c'.methods := by
  have canonical' : ∀ need ∈ needs', need.1.Canonical :=
    fun need added => canonical need ((same need).mp added)
  obtain ⟨p, added⟩ := holds.added m member
  have known : m.sig.Canonical := canonical _ added
  obtain ⟨entry, listed, found'⟩ := holds'.entry_exists canonical' ((same _).mpr added)
  have found := holds.ordered.lookup?_of_mem member
  have permissions : entry.permissions = m.permissions := by
    apply eq_of_pairwise_of_mem (fun _ _ => List.lt_asymm)
      (holds'.ordered.increasing entry listed) (holds.ordered.increasing m member)
    intro p
    rw [holds'.mem_permissions canonical' known found', holds.mem_permissions canonical known found,
      same]
  have equal : entry = m := by
    have sigs := holds'.lookup?_sig canonical' known found'
    cases entry
    cases m
    simp_all
  exact equal ▸ listed

theorem Holds.eq_of_same (holds' : c'.Holds needs')
    (same : ∀ need, need ∈ needs' ↔ need ∈ needs) : c' = c := by
  have canonical' : ∀ need ∈ needs', need.1.Canonical :=
    fun need added => canonical need ((same need).mp added)
  have methods : c'.methods = c.methods := by
    apply eq_of_pairwise_of_mem (fun _ _ => List.lt_asymm) holds'.ordered.keys holds.ordered.keys
    intro m
    exact ⟨holds'.mem_of_mem canonical' holds fun need => (same need).symm,
      holds.mem_of_mem canonical holds' same⟩
  cases c
  cases c'
  simpa using methods

end Canonical

/-- A catalog is exactly the relation that was added to it, when the signatures were read from
texts. -/
theorem additions_exact (needs : List (Signature × Text))
    (parsed : ∀ need ∈ needs, need.1.Parsed) :
    let c := empty.addAll needs
    (∀ q : Signature, q.Parsed →
      ((c.lookup? q).isSome ↔ ∃ permission, (q, permission) ∈ needs) ∧
      ∀ entry, c.lookup? q = some entry →
        entry.sig = q ∧ entry.permissions.Pairwise (· < ·) ∧
        (∀ permission, permission ∈ entry.permissions ↔ (q, permission) ∈ needs) ∧
        ∀ permission, entry.requires permission = true ↔ (q, permission) ∈ needs) ∧
    c.methods.Pairwise (fun m m' => m.sig.key < m'.sig.key) ∧
    (∀ sig, sig ∈ c.methods.map SensitiveMethod.sig ↔ ∃ permission, (sig, permission) ∈ needs) ∧
    c.size = (needs.map Prod.fst).dedup.length ∧
    c.permissions.Pairwise (· < ·) ∧
    (∀ permission, permission ∈ c.permissions ↔ ∃ sig, (sig, permission) ∈ needs) ∧
    ∀ needs' : List (Signature × Text), (∀ need, need ∈ needs' ↔ need ∈ needs) →
      empty.addAll needs' = c := by
  intro c
  have holds : c.Holds needs := empty_holds.addAll needs
  have canonical : ∀ need ∈ needs, need.1.Canonical :=
    fun need member => (parsed need member).canonical
  refine ⟨fun q read => ⟨holds.lookup?_isSome canonical read.canonical, fun entry found => ?_⟩,
    holds.ordered.keys, fun sig => holds.mem_signatures canonical, holds.size_eq canonical,
    Text.sortedSet_increasing _, fun p => holds.mem_catalogPermissions canonical,
    fun needs' same => holds.eq_of_same canonical (empty_holds.addAll needs') same⟩
  have increasing := holds.ordered.increasing entry (lookup?_mem found)
  refine ⟨holds.lookup?_sig canonical read.canonical found, increasing,
    fun p => holds.mem_permissions canonical read.canonical found, fun p => ?_⟩
  rw [requires_iff increasing]
  exact holds.mem_permissions canonical read.canonical found

/-- Two methods that need one permission, given in no order and with a repetition. -/
def mergedNeeds : List (Signature × Text) :=
  [(Signature.nestedSignature, "WRITE"), (Signature.flatSignature, "READ"),
    (Signature.nestedSignature, "READ"), (Signature.nestedSignature, "WRITE")]

theorem additions_exact_merged :
    ∃ entry, (empty.addAll mergedNeeds).lookup? Signature.nestedSignature = some entry ∧
      entry.permissions = ["READ", "WRITE"] ∧
      (empty.addAll mergedNeeds).size = 2 ∧
      (empty.addAll mergedNeeds).permissions = ["READ", "WRITE"] ∧
      empty.addAll mergedNeeds.reverse = empty.addAll mergedNeeds := by
  have nested : Signature.nestedSignature.Parsed :=
    ⟨"<store.DB: (int, error) load:(func(a, b) (c, d),][)>", by rfl⟩
  have flat : Signature.flatSignature.Parsed :=
    ⟨"<store.DB: (int, error) load:(func(a, b),(c, d),][)>", by rfl⟩
  have parsed : ∀ need ∈ mergedNeeds, need.1.Parsed := by
    simp [mergedNeeds, nested, flat]
  obtain ⟨lookups, _, _, size, increasing, permissions, order⟩ := additions_exact mergedNeeds parsed
  obtain ⟨entry, found⟩ := Option.isSome_iff_exists.mp
    ((lookups _ nested).1.mpr ⟨"READ", by simp [mergedNeeds]⟩)
  obtain ⟨_, sorted, needed, _⟩ := (lookups _ nested).2 entry found
  have different : Signature.nestedSignature ≠ Signature.flatSignature := by decide
  have expected : ([("READ" : Text), "WRITE"]).Pairwise (· < ·) := by decide
  refine ⟨entry, found, ?_, size.trans (by decide), ?_, order _ fun need => List.mem_reverse⟩
  · apply eq_of_pairwise_of_mem (fun _ _ => List.lt_asymm) sorted expected
    intro p
    rw [needed p]
    simp only [mergedNeeds, List.mem_cons, List.not_mem_nil, Prod.mk.injEq, different]
    tauto
  · apply eq_of_pairwise_of_mem (fun _ _ => List.lt_asymm) increasing expected
    intro p
    rw [permissions p]
    simp only [mergedNeeds, List.mem_cons, List.not_mem_nil, Prod.mk.injEq, exists_or,
      exists_eq_left]
    tauto

end Catalog

end PermissionGuard
