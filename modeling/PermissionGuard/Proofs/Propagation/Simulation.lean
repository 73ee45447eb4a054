import PermissionGuard.Proofs.Propagation.Unfolding

/-!
Searches in two programs whose statements correspond. When corresponding statements have
corresponding callers and the second program keeps the guards of the first, whatever the first
search accepts the second accepts too, with either kind of history.
-/

namespace PermissionGuard

theorem Detector.guard?_isSome {d : Detector} {s : StmtId} {m : MethodId} :
    (d.guard? s m).isSome ↔ d.caughtAt s m = true ∨ d.proactivelyChecked s m = true := by
  unfold Detector.guard?
  split
  · simp [*]
  · split <;> simp [*]

namespace Propagator

/-- The statements of `q` correspond to those of `p`, are called from corresponding statements, and
are guarded in their own method where those of `p` are. -/
structure Simulates (p q : Propagator) (same : StmtId → StmtId → Prop) : Prop where
  keeps_guard : ∀ {s t}, same s t → (p.detector.guard? s (p.model.enclosing s)).isSome →
    (q.detector.guard? t (q.model.enclosing t)).isSome
  keeps_invocation : ∀ {s t}, same s t → p.isInvocation s = true → q.isInvocation t = true
  forth : ∀ {s t}, same s t → ∀ c ∈ p.callersAt s, ∃ c' ∈ q.callersAt t, same c c'
  back : ∀ {s t}, same s t → ∀ c' ∈ q.callersAt t, ∃ c ∈ p.callersAt s, same c c'
  unique : Relator.BiUnique same

variable {p q : Propagator} {same : StmtId → StmtId → Prop} {s t : StmtId}

theorem Simulates.withMode {model model' : Model} {d d' : Detector} {mode mode' : Bool}
    (simulates : Simulates ⟨model, d, mode⟩ ⟨model', d', mode'⟩ same) (other : Bool) :
    Simulates ⟨model, d, other⟩ ⟨model', d', other⟩ same where
  keeps_guard := simulates.keeps_guard
  keeps_invocation := simulates.keeps_invocation
  forth := simulates.forth
  back := simulates.back
  unique := simulates.unique

theorem Simulates.covered (simulates : p.Simulates q same) (covered : p.Covered s)
    (related : same s t) : q.Covered t := by
  induction covered generalizing t with
  | guarded found => exact .guarded (simulates.keeps_guard related found)
  | @called s called invocations _ ih =>
      obtain ⟨c, caller⟩ := List.exists_mem_of_ne_nil _ called
      obtain ⟨c', caller', _⟩ := simulates.forth related c caller
      refine .called (List.ne_nil_of_mem caller') ?_ ?_
      · intro c' caller'
        obtain ⟨c, caller, sameCaller⟩ := simulates.back related c' caller'
        exact simulates.keeps_invocation sameCaller (invocations c caller)
      · intro c' caller'
        obtain ⟨c, caller, sameCaller⟩ := simulates.back related c' caller'
        exact ih c caller sameCaller

/-- A way along callers in the second program has no more guards on it than the corresponding way in
the first, so that one is a way too. -/
theorem Simulates.callerPath (simulates : p.Simulates q same) {path' : List StmtId}
    (related : same s t) (way : q.CallerPath t path') :
    ∃ path, p.CallerPath s path ∧ List.Forall₂ same path path' := by
  induction path' generalizing s t with
  | nil => cases way.1
  | cons first rest ih =>
      rcases way.cases with single | ⟨above, isPath, unguarded, c', caller', wayAbove⟩
      · obtain ⟨rfl, rfl⟩ := List.cons.inj single
        exact ⟨[s], callerPath_single p s, .cons related .nil⟩
      · obtain ⟨rfl, rfl⟩ := List.cons.inj isPath
        obtain ⟨c, caller, sameCaller⟩ := simulates.back related c' caller'
        obtain ⟨path, wayBelow, pathSame⟩ := ih sameCaller wayAbove
        have bare : p.detector.guard? s (p.model.enclosing s) = none := by
          by_contra found
          have kept := simulates.keeps_guard related (Option.isSome_iff_ne_none.mpr found)
          simp [unguarded] at kept
        exact ⟨s :: path, callerPath_cons bare caller wayBelow, .cons related pathSame⟩

theorem forall₂_getLast? {path path' : List StmtId} (related : List.Forall₂ same path path') :
    Option.Rel same path.getLast? path'.getLast? := by
  induction related with
  | nil => exact .none
  | cons first rest ih =>
      cases rest with
      | nil => exact .some first
      | cons => simpa only [List.getLast?_cons_cons] using ih

/-- Ways that end in one statement of the second program correspond to ways that end in one
statement of the first. -/
theorem Simulates.uniqueEnds (simulates : p.Simulates q same) (related : same s t)
    (unique : ∀ w w', p.CallerPath s w → p.CallerPath s w' → w.getLast? = w'.getLast? → w = w') :
    ∀ w w', q.CallerPath t w → q.CallerPath t w' → w.getLast? = w'.getLast? → w = w' := by
  intro w w' way way' ends
  obtain ⟨v, below, pathSame⟩ := simulates.callerPath related way
  obtain ⟨v', below', pathSame'⟩ := simulates.callerPath related way'
  have last := forall₂_getLast? pathSame
  have last' := forall₂_getLast? pathSame'
  rw [← ends] at last'
  have sameEnds : v.getLast? = v'.getLast? := by
    generalize v.getLast? = final, v'.getLast? = final', w.getLast? = shared at last last' ⊢
    rcases last with left | _ <;> rcases last' with right | _
    · exact congrArg some (simulates.unique.1 left right)
    · rfl
  obtain rfl := unique v v' below below' sameEnds
  exact simulates.unique.2.forall₂ pathSame pathSame'

theorem Simulates.check {model model' : Model} {d d' : Detector} {mode : Bool}
    (simulates : Simulates ⟨model, d, mode⟩ ⟨model', d', mode⟩ same)
    (enumerated : model.Enumerated) (enumerated' : model'.Enumerated)
    (callersDistinct : ∀ m, (model.callersOf m).Nodup)
    (callersDistinct' : ∀ m, (model'.callersOf m).Nodup) (related : same s t) {st st' : Progress}
    (accepted : (Propagator.check ⟨model, d, mode⟩ s (model.enclosing s) st).1 = true) :
    (Propagator.check ⟨model', d', mode⟩ t (model'.enclosing t) st').1 = true := by
  have branches (accepted : (Propagator.check ⟨model, d, true⟩ s (model.enclosing s) st).1 = true) :
      (Propagator.check ⟨model', d', true⟩ t (model'.enclosing t) st').1 = true := by
    rw [check_eq_true_iff_covered (p := ⟨model, d, true⟩) enumerated rfl] at accepted
    exact (check_eq_true_iff_covered (p := ⟨model', d', true⟩) enumerated' rfl t st').mpr
      ((simulates.withMode true).covered accepted related)
  cases mode with
  | true => exact branches accepted
  | false =>
      obtain ⟨guarded, unique⟩ :=
        (check_shared_iff_local enumerated callersDistinct s st st).mp accepted
      exact (check_shared_iff_local enumerated' callersDistinct' t st' st').mpr
        ⟨branches guarded, simulates.uniqueEnds related unique⟩

end Propagator

end PermissionGuard
