import PermissionGuard.Catalog.Mapping
import PermissionGuard.Proofs.Catalog.Entries

/-!
Reading the sections of some permissions only. A reader that skips sections stays in step with one
that reads all of them: both know where a section starts and ends, and the first holds of every
entry the permissions that it reads (`Catalog.RestrictedTo`).
-/

namespace PermissionGuard

namespace Catalog

open SensitiveMethod

variable {c c' : Catalog} {kept : Text → Bool} {sig : Signature} {entry : SensitiveMethod}
variable {permission : Text}

/-- The second catalog holds the kept permissions of the first. -/
structure RestrictedTo (c : Catalog) (kept : Text → Bool) (c' : Catalog) : Prop where
  full : c.Ordered
  part : c'.Ordered
  permissions : ∀ key, c'.permissionsOf key = (c.permissionsOf key).filter kept

theorem restrictedTo_empty (kept : Text → Bool) : empty.RestrictedTo kept empty :=
  ⟨empty_ordered, empty_ordered, fun _ => rfl⟩

theorem RestrictedTo.add (restricted : c.RestrictedTo kept c') (isKept : kept permission = true) :
    (c.add sig permission).RestrictedTo kept (c'.add sig permission) where
  full := restricted.full.add sig permission
  part := restricted.part.add sig permission
  permissions key := by
    rw [restricted.part.permissionsOf_add, restricted.full.permissionsOf_add,
      restricted.permissions]
    split
    · exact (filter_insertText (restricted.full.permissionsOf_increasing key) isKept).symm
    · rfl

theorem RestrictedTo.skip (restricted : c.RestrictedTo kept c')
    (dropped : kept permission = false) : (c.add sig permission).RestrictedTo kept c' where
  full := restricted.full.add sig permission
  part := restricted.part
  permissions key := by
    rw [restricted.full.permissionsOf_add, restricted.permissions]
    split
    · exact (filter_insertText_of_dropped dropped).symm
    · rfl

/-- An entry is left of another one, with those of its permissions that are kept. -/
theorem RestrictedTo.lookup?_eq_some (restricted : c.RestrictedTo kept c')
    {entry' : SensitiveMethod} (found : c'.lookup? sig = some entry') :
    ∃ entry, c.lookup? sig = some entry ∧ entry'.permissions = entry.permissions.filter kept ∧
      entry.permissions.any kept = true := by
  have left := restricted.permissions sig.key
  rw [permissionsOf_of_lookup? found] at left
  have needs := restricted.part.needs entry' (List.mem_of_find?_eq_some found)
  cases full : c.lookup? sig with
  | none => simp [left, permissionsOf_of_lookup?_none full] at needs
  | some entry =>
      rw [permissionsOf_of_lookup? full] at left
      refine ⟨entry, rfl, left, ?_⟩
      obtain ⟨permission, member⟩ := List.exists_mem_of_ne_nil _ needs
      rw [left, List.mem_filter] at member
      exact List.any_eq_true.mpr ⟨permission, member⟩

/-- An entry is kept when one of its permissions is. -/
theorem RestrictedTo.lookup?_isSome (restricted : c.RestrictedTo kept c')
    (found : c.lookup? sig = some entry) :
    (c'.lookup? sig).isSome = entry.permissions.any kept := by
  rw [Bool.eq_iff_iff, restricted.part.lookup?_isSome, restricted.permissions,
    permissionsOf_of_lookup? found, List.any_eq_true, ne_eq, List.filter_eq_nil_iff]
  simp

end Catalog

namespace Mapping

variable {kept : Text → Bool} {full part next : State}

/-- Two readers between the same two lines, of which the second skips sections. -/
structure InStep (kept : Text → Bool) (full part : State) : Prop where
  catalog : full.catalog.RestrictedTo kept part.catalog
  owner : part.owner = full.owner.filter kept
  afterHeader : part.afterHeader = full.afterHeader

/-- A line that the reader of all sections accepts is accepted by the other, which skips the
signatures of other sections unread. -/
theorem InStep.step (inStep : InStep kept full part) {line : Line}
    (read : Mapping.step (fun _ => true) full line = .ok next) :
    ∃ next', Mapping.step kept part line = .ok next' ∧ InStep kept next next' := by
  cases line with
  | ignored =>
      cases read
      exact ⟨part, rfl, inStep⟩
  | header permission =>
      simp only [Mapping.step] at read ⊢
      split at read
      · cases read
      · rename_i named
        cases read
        rw [if_neg named]
        refine ⟨_, rfl, inStep.catalog, ?_, rfl⟩
        cases wanted : kept permission <;> simp [Option.filter, wanted]
  | other =>
      simp only [Mapping.step, ← inStep.afterHeader] at read ⊢
      split at read
      · rename_i counting
        cases read
        rw [if_pos counting]
        exact ⟨_, rfl, inStep.catalog, inStep.owner, rfl⟩
      · rename_i listing
        cases read
        rw [if_neg listing]
        exact ⟨_, rfl, inStep.catalog, rfl, rfl⟩
  | method line =>
      simp only [Mapping.step, inStep.owner] at read ⊢
      cases owner : full.owner with
      | none =>
          rw [owner] at read
          cases read
          exact ⟨_, rfl, inStep.catalog, rfl, rfl⟩
      | some permission =>
          rw [owner] at read
          cases signature : signatureOf line with
          | error cause => simp [signature, bind, Except.bind] at read
          | ok sig =>
              simp only [signature, bind, Except.bind, pure, Except.pure] at read ⊢
              cases read
              cases wanted : kept permission with
              | true =>
                  simp only [Option.filter, wanted, if_true]
                  exact ⟨_, rfl, inStep.catalog.add wanted, by simp [Option.filter, wanted], rfl⟩
              | false =>
                  simp only [Option.filter, wanted, Bool.false_eq_true, if_false]
                  exact ⟨_, rfl, inStep.catalog.skip wanted, by simp [Option.filter, wanted], rfl⟩

theorem InStep.readLines (inStep : InStep kept full part) {lines : List Text} {before : Nat}
    (read : Mapping.readLines (fun _ => true) before full lines = .ok next) :
    ∃ next', Mapping.readLines kept before part lines = .ok next' ∧ InStep kept next next' := by
  induction lines generalizing before full part with
  | nil =>
      cases read
      exact ⟨part, rfl, inStep⟩
  | cons line lines ih =>
      simp only [Mapping.readLines] at read ⊢
      split at read
      · cases read
      · rename_i fits
        rw [if_neg fits]
        cases first : Mapping.step (fun _ => true) full (Line.ofText line) with
        | error cause => simp [first] at read
        | ok middle =>
            simp only [first] at read
            obtain ⟨middle', first', inStep'⟩ := inStep.step first
            simp only [first']
            exact ih inStep' read

/-- A mapping that is accepted as a whole is accepted for every choice of permissions, and gives the
chosen permissions of its entries. -/
theorem read_restricted {t : Text} {c : Catalog} (accepted : read t [] = .ok c)
    {permissions : List Text} (chosen : permissions ≠ []) :
    ∃ c', read t permissions = .ok c' ∧ c.RestrictedTo permissions.contains c' := by
  have start : InStep permissions.contains {} {} := ⟨Catalog.restrictedTo_empty _, rfl, rfl⟩
  have wanted : (fun permission => permissions.isEmpty || permissions.contains permission) =
      permissions.contains := by
    funext permission
    simp [chosen]
  simp only [read, wanted] at accepted ⊢
  cases whole : Mapping.readLines (fun _ => true) 0 {} t.lines with
  | error cause =>
      have failed := accepted
      simp [whole, Except.map] at failed
  | ok state =>
      simp only [List.isEmpty_nil, Bool.true_or, whole, Except.map] at accepted
      cases accepted
      obtain ⟨state', part, inStep⟩ := start.readLines whole
      exact ⟨state'.catalog, by rw [part]; rfl, inStep.catalog⟩

end Mapping

end PermissionGuard
