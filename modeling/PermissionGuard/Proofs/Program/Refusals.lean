import PermissionGuard.Proofs.Program.Finished
import Mathlib.Data.List.Induction

/-!
The errors of a construction. A step that is refused leaves the program as it was and records one
error, the errors recorded are those of the refused steps and of the successors that a build found
outside their bodies, and a program is finished exactly if there are none (`refusals_surface`).
-/

namespace PermissionGuard

namespace Program

variable {p : Program} {error : BuildError}

/-- A program has no place for what a step adds, and the error says why. -/
inductive Refuses (p : Program) : BuildStep → BuildError → Prop
  | statementUnknown {m : MethodId} {spec : StatementSpec} (unknown : p.method? m = none) :
      Refuses p (.statement m spec) (.statementInUnknownMethod m)
  | statementAbstract {m : MethodId} {spec : StatementSpec} {method : Method}
      (known : p.method? m = some method) (isAbstract : method.concrete = false) :
      Refuses p (.statement m spec) (.statementInAbstractMethod method.sig)
  | edgeFromUnknown {s : StmtId} {callee : MethodId} (unknown : p.statement? s = none) :
      Refuses p (.edge s callee) (.edgeFromUnknownStatement s)
  | edgeToUnknown {s : StmtId} {st : Statement} {callee : MethodId}
      (caller : p.statement? s = some st) (unknown : p.method? callee = none) :
      Refuses p (.edge s callee) (.edgeToUnknownMethod callee)
  | edgeToAbstract {s : StmtId} {st : Statement} {callee : MethodId} {around method : Method}
      (caller : p.statement? s = some st) (inside : p.method? st.method = some around)
      (known : p.method? callee = some method) (isAbstract : method.concrete = false) :
      Refuses p (.edge s callee) (.edgeToAbstractMethod st.index around.sig method.sig)
  | rangeUnknown {m : MethodId} {range : ExceptionRange} (unknown : p.method? m = none) :
      Refuses p (.trap m range) (.rangeInUnknownMethod m)
  | rangeInvalid {m : MethodId} {method : Method} {range : ExceptionRange}
      (known : p.method? m = some method)
      (invalid : range.first < 0 ∨ range.last < range.first) :
      Refuses p (.trap m range) (.invalidRange range.first range.last method.sig)
  | entryUnknown {m : MethodId} (unknown : p.method? m = none) :
      Refuses p (.entryPoint m) (.unknownEntryPoint m)

/-- A statement names a successor outside of the body that it stands in. -/
inductive Strays (p : Program) : BuildError → Prop
  | successor {m : MethodId} {method : Method} {s : StmtId} {st : Statement} {targets : List Int}
      {succ : Int} (known : p.method? m = some method) (inBody : s ∈ method.body)
      (found : p.statement? s = some st) (explicit : st.succs = some targets)
      (named : succ ∈ targets) (outside : succ < 0 ∨ method.body.length ≤ succ) :
      Strays p (.successorOutOfBody st.index method.sig succ)

theorem mem_strayedSuccessors :
    error ∈ p.methods.toList.flatMap (Builder.strayedSuccessors p) ↔ p.Strays error := by
  simp only [List.mem_flatMap, mem_methods, Builder.strayedSuccessors, List.mem_map,
    List.mem_filter, List.mem_filterMap, Bool.or_eq_true, decide_eq_true_eq, ge_iff_le]
  constructor
  · rintro ⟨method, ⟨m, known⟩, st, ⟨s, inBody, found⟩, succ, ⟨named, outside⟩, rfl⟩
    cases explicit : st.succs with
    | none => simp [explicit] at named
    | some targets =>
        exact .successor known inBody found explicit (by simpa [explicit] using named) outside
  · rintro ⟨known, inBody, found, explicit, named, outside⟩
    exact ⟨_, ⟨_, known⟩, _, ⟨_, inBody, found⟩, _, ⟨by simpa [explicit] using named, outside⟩, rfl⟩

end Program

namespace Builder

variable {b : Builder} {step : BuildStep} {error : BuildError}

/-- A refused step does nothing but record its error. -/
theorem apply_refused (refused : b.program.Refuses step error) : b.apply step = b.fail error := by
  cases refused with
  | statementUnknown unknown => simp only [apply, addStatement, unknown]
  | statementAbstract known isAbstract =>
      simp only [apply, addStatement, known, isAbstract, Bool.not_false, if_true]
  | edgeFromUnknown unknown => simp only [apply, addEdge, unknown]
  | edgeToUnknown caller unknown => simp only [apply, addEdge, caller, unknown]
  | edgeToAbstract caller inside known isAbstract =>
      simp only [apply, addEdge, caller, inside, known, isAbstract, Bool.not_false, if_true,
        Option.map_some, Option.getD_some]
  | rangeUnknown unknown => simp only [apply, addTrap, unknown]
  | rangeInvalid known invalid => simp only [apply, addTrap, known, if_pos invalid]
  | entryUnknown unknown => simp only [apply, addEntryPoint, unknown]

/-- A step that is neither refused nor a build records no error. -/
theorem apply_accepted (wellFormed : b.program.WellFormed) (isEdit : step ≠ .build)
    (accepted : ∀ error, ¬ b.program.Refuses step error) : (b.apply step).errors = b.errors := by
  cases step with
  | method => rfl
  | statement m spec =>
      simp only [apply, addStatement]
      split
      · rename_i unknown
        exact absurd (.statementUnknown unknown) (accepted _)
      · rename_i method known
        split
        · rename_i isAbstract
          exact absurd (.statementAbstract known (by simpa using isAbstract)) (accepted _)
        · rfl
  | edge s callee =>
      simp only [apply, addEdge]
      split
      · rename_i unknown
        exact absurd (.edgeFromUnknown unknown) (accepted _)
      · rename_i st caller unknown
        exact absurd (.edgeToUnknown caller unknown) (accepted _)
      · rename_i st method caller known
        split
        · rename_i isAbstract
          obtain ⟨around, inside, _⟩ := wellFormed.placed caller
          exact absurd (.edgeToAbstract caller inside known (by simpa using isAbstract))
            (accepted _)
        · split <;> rfl
  | trap m range =>
      simp only [apply, addTrap]
      split
      · rename_i unknown
        exact absurd (.rangeUnknown unknown) (accepted _)
      · rename_i method known
        split
        · rename_i invalid
          exact absurd (.rangeInvalid known invalid) (accepted _)
        · rfl
  | subtype => rfl
  | entryPoint m =>
      simp only [apply, addEntryPoint]
      split
      · rename_i unknown
        exact absurd (.entryUnknown unknown) (accepted _)
      · rfl
  | permissions => rfl
  | build => exact absurd rfl isEdit

theorem apply_build (b : Builder) : b.apply .build = { b with
    errors := b.errors ++ b.program.methods.toList.flatMap (strayedSuccessors b.program) } := by
  simp only [apply, build, buildWith]
  split <;> rfl

theorem build_eq_error_iff {causes : List BuildError} : b.build.2 = .error causes ↔
    (b.apply .build).errors = causes ∧ causes ≠ [] := by
  rw [apply_build]
  simp only [build, buildWith]
  split
  · rename_i faultless
    rw [List.isEmpty_iff] at faultless
    rw [faultless]
    constructor
    · intro failed
      cases failed
    · rintro ⟨nothing, recorded⟩
      exact absurd nothing.symm recorded
  · rename_i faults
    rw [List.isEmpty_iff] at faults
    simp only [Except.error.injEq]
    constructor
    · rintro rfl
      exact ⟨rfl, faults⟩
    · exact And.left

/-- What a step records. -/
def Faults (b : Builder) (step : BuildStep) (error : BuildError) : Prop :=
  b.program.Refuses step error ∨ step = .build ∧ b.program.Strays error

theorem mem_apply_errors (wellFormed : b.program.WellFormed) :
    error ∈ (b.apply step).errors ↔ error ∈ b.errors ∨ b.Faults step error := by
  by_cases isBuild : step = .build
  · subst isBuild
    have none : ¬ b.program.Refuses .build error := fun refused => nomatch refused
    simp only [apply_build, List.mem_append, Program.mem_strayedSuccessors, Faults, none, false_or,
      true_and]
  · by_cases refused : ∃ cause, b.program.Refuses step cause
    · obtain ⟨cause, refused⟩ := refused
      -- A step is refused for one cause only, since its error is the one recorded.
      have same : b.program.Refuses step error ↔ error = cause := by
        constructor
        · intro again
          have both := (apply_refused again).symm.trans (apply_refused refused)
          simpa [fail] using both
        · rintro rfl
          exact refused
      simp [apply_refused refused, fail, Faults, isBuild, same]
    · have accepted : ∀ cause, ¬ b.program.Refuses step cause := not_exists.mp refused
      simp [apply_accepted wellFormed isBuild accepted, Faults, isBuild, accepted]

/-! ### Histories -/

theorem run_concat (steps : List BuildStep) (step : BuildStep) :
    run (steps ++ [step]) = (run steps).apply step := by
  simp [run]

/-- An error that a step of a history records, seen from what is built up to that step. -/
def Recorded (steps : List BuildStep) (error : BuildError) : Prop :=
  ∃ i step, steps[i]? = some step ∧ (run (steps.take i)).Faults step error

theorem recorded_concat_iff {steps : List BuildStep} :
    Recorded (steps ++ [step]) error ↔ Recorded steps error ∨ (run steps).Faults step error := by
  constructor
  · rintro ⟨i, taken, place, faults⟩
    rcases getElem?_concat_eq_some.mp place with earlier | ⟨rfl, rfl⟩
    · have bound := Nat.le_of_lt (List.getElem?_eq_some_iff.mp earlier).1
      rw [List.take_append_of_le_length bound] at faults
      exact Or.inl ⟨i, taken, earlier, faults⟩
    · rw [List.take_left] at faults
      exact Or.inr faults
  · rintro (⟨i, taken, place, faults⟩ | faults)
    · have earlier := (List.getElem?_eq_some_iff.mp place).1
      refine ⟨i, taken, getElem?_concat_eq_some.mpr (Or.inl place), ?_⟩
      rwa [List.take_append_of_le_length (Nat.le_of_lt earlier)]
    · refine ⟨steps.length, step, List.getElem?_concat_length, ?_⟩
      rwa [List.take_left]

/-- The errors that are recorded are those of the steps, and none is ever lost. -/
theorem mem_run_errors {steps : List BuildStep} :
    error ∈ (run steps).errors ↔ Recorded steps error := by
  induction steps using List.reverseRecOn with
  | nil => simp [run, empty, Recorded]
  | append_singleton steps step ih =>
      rw [run_concat, mem_apply_errors (run_wellFormed steps), ih, recorded_concat_iff]

/-- The two ways in which a history that ends with a build records errors. -/
theorem recorded_build_iff {steps : List BuildStep} :
    (∃ error, Recorded (steps ++ [.build]) error) ↔
      (∃ (i : Nat) (step : BuildStep) (error : BuildError), steps[i]? = some step ∧
        (run (steps.take i)).program.Refuses step error) ∨
      ∃ (i : Nat) (error : BuildError), (steps ++ [.build])[i]? = some .build ∧
        (run (steps.take i)).program.Strays error := by
  have before {i : Nat} {step : BuildStep} (place : (steps ++ [BuildStep.build])[i]? = some step) :
      (steps ++ [BuildStep.build]).take i = steps.take i := by
    have bound := (List.getElem?_eq_some_iff.mp place).1
    rw [List.length_append, List.length_singleton] at bound
    exact List.take_append_of_le_length (Nat.le_of_lt_succ bound)
  constructor
  · rintro ⟨error, i, step, place, faults⟩
    rw [before place] at faults
    rcases faults with refused | ⟨rfl, strays⟩
    · refine Or.inl ⟨i, step, error, ?_, refused⟩
      exact (getElem?_concat_eq_some.mp place).resolve_right fun last => nomatch last.2 ▸ refused
    · exact Or.inr ⟨i, error, place, strays⟩
  · rintro (⟨i, step, error, place, refused⟩ | ⟨i, error, place, strays⟩)
    · have later : (steps ++ [.build])[i]? = some step :=
        getElem?_concat_eq_some.mpr (Or.inl place)
      exact ⟨error, i, step, later, Or.inl ((before later).symm ▸ refused)⟩
    · exact ⟨error, i, .build, place, Or.inr ⟨rfl, (before place).symm ▸ strays⟩⟩

end Builder

/-- What becomes of refused steps, whatever the steps before were. A refused step and a build change
nothing in the program. A refused step records its error, every other one but a build records none,
and a build fails exactly if a step so far was refused or this or an earlier build found a successor
outside of its body. It fails with the errors of all of these, and they stay recorded. -/
theorem refusals_surface (steps : List BuildStep) :
    let b := Builder.run steps
    (∀ step error, b.program.Refuses step error →
      (b.apply step).program = b.program ∧ (b.apply step).errors = b.errors ++ [error]) ∧
    (∀ step, step ≠ .build → (∀ error, ¬ b.program.Refuses step error) →
      (b.apply step).errors = b.errors) ∧
    b.build.1.program = b.program ∧
    ((∃ causes, b.build.2 = .error causes) ↔
      (∃ (i : Nat) (step : BuildStep) (error : BuildError), steps[i]? = some step ∧
        (Builder.run (steps.take i)).program.Refuses step error) ∨
      ∃ (i : Nat) (error : BuildError), (steps ++ [.build])[i]? = some .build ∧
        (Builder.run (steps.take i)).program.Strays error) ∧
    ∀ causes, b.build.2 = .error causes →
      b.build.1.errors = causes ∧ b.errors <+: causes ∧
        ∀ error, error ∈ causes ↔ Builder.Recorded (steps ++ [.build]) error := by
  intro b
  have wellFormed := Builder.run_wellFormed steps
  refine ⟨fun step error refused => ?_, fun step isEdit accepted => ?_, ?_, ?_, ?_⟩
  · rw [Builder.apply_refused refused]
    exact ⟨rfl, rfl⟩
  · exact Builder.apply_accepted wellFormed isEdit accepted
  · change (b.apply .build).program = b.program
    rw [Builder.apply_build]
  · rw [← Builder.recorded_build_iff]
    simp only [Builder.build_eq_error_iff, ← Builder.mem_run_errors, Builder.run_concat]
    exact ⟨fun ⟨causes, same, full⟩ => List.exists_mem_of_ne_nil _ (same ▸ full),
      fun ⟨error, recorded⟩ => ⟨_, rfl, List.ne_nil_of_mem recorded⟩⟩
  · intro causes failed
    obtain ⟨rfl, _⟩ := Builder.build_eq_error_iff.mp failed
    refine ⟨rfl, ?_, fun error => ?_⟩
    · rw [Builder.apply_build]
      exact List.prefix_append _ _
    · rw [← Builder.run_concat]
      exact Builder.mem_run_errors

/-- A body whose first statement leads on to the second, with a build before that one is added. -/
def hastySteps : List BuildStep :=
  [.method ⟨"app.Main", "run", "void", []⟩ true false, .statement 0 { succs := some [1] }, .build,
    .statement 0 {}]

/-- A body that is completed later does not make up for a build that came too early. -/
theorem refusals_surface_hasty :
    (∃ causes, (Builder.run hastySteps).build.2 = .error causes) ∧
      (Builder.run hastySteps).program.methods.toList.flatMap
        (Builder.strayedSuccessors (Builder.run hastySteps).program) = [] := by
  have early : (Builder.run (hastySteps.take 2)).program.Strays
      (.successorOutOfBody 0 ⟨"app.Main", "run", "void", []⟩ 1) :=
    Program.mem_strayedSuccessors.mp (by decide)
  obtain ⟨_, _, _, fails, _⟩ := refusals_surface hastySteps
  exact ⟨fails.mpr (Or.inr ⟨2, _, rfl, early⟩), by decide⟩

end PermissionGuard
