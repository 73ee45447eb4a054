import PermissionGuard.Proofs.Catalog.Additions
import PermissionGuard.Proofs.Catalog.Sections

/-!
The reader of mappings. It carries three things from line to line, and what they say about the lines
read so far (`Standing`) is kept by every line. So it adds what the sections own and stops at the
first line with a fault, and lines that do not count make no difference (`read_sections`).
-/

namespace PermissionGuard.Mapping

variable {line permission t : Text} {permissions lines rest : List Text} {state : State}

/-- What the reader carries says about the lines read so far. -/
structure Standing (permissions lines : List Text) (state : State) : Prop where
  faultless : Faultless permissions lines
  owner : ∀ permission, state.owner = some permission ↔ InSection permissions lines permission
  afterHeader : state.afterHeader = true ↔ EndsWithHeader lines
  needs : ∃ needs, state.catalog = Catalog.empty.addAll needs ∧
    ∀ need, need ∈ needs ↔ Needed permissions lines need

theorem standing_start (permissions : List Text) : Standing permissions [] {} where
  faultless := by
    intro before line after place
    simp at place
  owner permission := by
    refine ⟨fun owned => (nomatch owned), fun inSection => ?_⟩
    obtain ⟨_, _, last, _⟩ := inSection
    exact absurd last not_lastHeader_nil
  afterHeader := by
    refine ⟨fun ended => (nomatch ended), fun ends => ?_⟩
    obtain ⟨_, _, last, _⟩ := ends
    exact absurd last not_lastHeader_nil
  needs := by
    refine ⟨[], rfl, fun need => ⟨fun member => (nomatch member), fun needed => ?_⟩⟩
    obtain ⟨before, line, after, place, _⟩ := needed
    simp at place

/-- Whether the sections of a permission are read. -/
def isWanted (permissions : List Text) (permission : Text) : Bool :=
  permissions.isEmpty || permissions.contains permission

theorem isWanted_iff : isWanted permissions permission = true ↔
    permissions = [] ∨ permission ∈ permissions := by
  simp [isWanted]

/-- How the reader leaves a line: in a state for one line more, or at a fault. -/
inductive Outcome (permissions lines : List Text) (line : Text) : Except Cause State → Prop
  | passed {next : State} (standing : Standing permissions (lines ++ [line]) next) :
      Outcome permissions lines line (.ok next)
  | stopped {cause : Cause} (fault : Fault permissions lines line cause) :
      Outcome permissions lines line (.error cause)

/-- A line without an owner has no fault and adds nothing, if it is no header without a name. -/
theorem Standing.unowned {next : State} (standing : Standing permissions lines state)
    (named : ¬ Names line []) (unowned : ∀ p, ¬ Owns permissions lines line p)
    (kept : next.catalog = state.catalog)
    (owner : ∀ p, next.owner = some p ↔ InSection permissions (lines ++ [line]) p)
    (afterHeader : next.afterHeader = true ↔ EndsWithHeader (lines ++ [line])) :
    Standing permissions (lines ++ [line]) next where
  faultless := by
    refine faultless_concat_iff.mpr ⟨standing.faultless, fun cause fault => ?_⟩
    cases fault with
    | unnamed names => exact named names
    | unterminated owned => exact unowned _ owned
    | unreadable owned => exact unowned _ owned
  owner := owner
  afterHeader := afterHeader
  needs := by
    obtain ⟨needs, same, exactly⟩ := standing.needs
    refine ⟨needs, kept.trans same, fun need => ?_⟩
    rw [exactly, needed_concat_iff, or_iff_left fun owned => unowned _ owned.1]

theorem Standing.ignored (standing : Standing permissions lines state)
    (insignificant : ¬ Significant line) : Standing permissions (lines ++ [line]) state := by
  have noHeader : ¬ IsHeader line := fun isHeader => insignificant isHeader.significant
  refine standing.unowned (fun names => noHeader names.isHeader)
    (fun p owned => insignificant owned.1.significant) rfl ?_ ?_
  · intro p
    rw [standing.owner, inSection_concat noHeader]
    simp [insignificant]
  · rw [standing.afterHeader, endsWithHeader_concat noHeader]
    simp [insignificant]

theorem Standing.header (standing : Standing permissions lines state)
    (names : Names line permission) :
    Outcome permissions lines line
      (Mapping.step (isWanted permissions) state (.header permission)) := by
  simp only [Mapping.step]
  split
  · rename_i nameless
    exact .stopped (.unnamed (List.isEmpty_iff.mp nameless ▸ names))
  · rename_i named
    refine .passed (standing.unowned (fun names' => named (by simp [names.eq names']))
      (fun p owned => owned.1.not_header names.isHeader) rfl ?_ ?_)
    · intro p
      rw [inSection_concat_header names, ← isWanted_iff]
      split <;> rename_i wanted <;> simp [wanted, eq_comm]
    · exact iff_of_true rfl (endsWithHeader_concat_header names.isHeader)

theorem Standing.method (standing : Standing permissions lines state) (listed : IsListed line) :
    Outcome permissions lines line
      (Mapping.step (isWanted permissions) state (.method line.trim)) := by
  have noHeader := listed.not_header
  have owner (p : Text) : state.owner = some p ↔ InSection permissions (lines ++ [line]) p := by
    rw [standing.owner, inSection_concat noHeader]
    simp [listed]
  have afterHeader : false = true ↔ EndsWithHeader (lines ++ [line]) := by
    rw [endsWithHeader_concat noHeader]
    simp [listed.significant]
  simp only [Mapping.step]
  cases owned : state.owner with
  | none =>
      have unowned (p : Text) : ¬ Owns permissions lines line p := by
        intro owns
        cases owned.symm.trans ((standing.owner p).mpr owns.2)
      exact .passed (standing.unowned (fun names => noHeader names.isHeader) unowned rfl
        (fun p => owned ▸ owner p) afterHeader)
  | some permission =>
      have owns : Owns permissions lines line permission :=
        ⟨listed, (standing.owner permission).mp owned⟩
      cases signature : signatureOf line.trim with
      | error cause => exact .stopped (owns.fault_iff.mpr signature)
      | ok sig =>
          obtain ⟨needs, same, exactly⟩ := standing.needs
          refine .passed ⟨?_, fun p => owned ▸ owner p, afterHeader,
            needs ++ [(sig, permission)], ?_, fun need => ?_⟩
          · refine faultless_concat_iff.mpr ⟨standing.faultless, fun cause fault => ?_⟩
            cases signature.symm.trans (owns.fault_iff.mp fault)
          · simp [same, Catalog.addAll]
          · rw [List.mem_append, List.mem_singleton, exactly, needed_concat_iff]
            refine or_congr_right ⟨?_, fun both => ?_⟩
            · intro added
              subst added
              exact ⟨owns, reads_iff.mpr signature⟩
            · have isOwner := owned.symm.trans ((standing.owner _).mpr both.1.2)
              have isRead := signature.symm.trans (reads_iff.mp both.2)
              cases isOwner
              cases isRead
              rfl

theorem Standing.other (standing : Standing permissions lines state)
    (significant : Significant line) (noHeader : ¬ IsHeader line) (unlisted : ¬ IsListed line) :
    Outcome permissions lines line (Mapping.step (isWanted permissions) state .other) := by
  have named : ¬ Names line [] := fun names => noHeader names.isHeader
  have unowned (p : Text) : ¬ Owns permissions lines line p := fun owned => unlisted owned.1
  have afterHeader : false = true ↔ EndsWithHeader (lines ++ [line]) := by
    rw [endsWithHeader_concat noHeader]
    simp [significant]
  simp only [Mapping.step]
  split
  · rename_i counting
    refine .passed (standing.unowned named unowned rfl (fun p => ?_) afterHeader)
    rw [standing.owner, inSection_concat noHeader]
    simp [standing.afterHeader.mp counting]
  · rename_i listing
    refine .passed (standing.unowned named unowned rfl (fun p => ?_) ?_)
    · rw [inSection_concat noHeader]
      simp [significant, unlisted, standing.afterHeader.not.mp listing]
    · rwa [eq_false_of_ne_true listing]

/-- The reader passes a line if nothing is wrong with it. -/
theorem Standing.step (standing : Standing permissions lines state) (line : Text) :
    Outcome permissions lines line
      (Mapping.step (isWanted permissions) state (Line.ofText line)) := by
  have meaning := means_ofText line
  generalize Line.ofText line = content at meaning
  cases meaning with
  | ignored insignificant => exact .passed (standing.ignored insignificant)
  | header names => exact standing.header names
  | method listed => exact standing.method listed
  | other significant noHeader unlisted => exact standing.other significant noHeader unlisted

/-- The reader passes all lines or stops at the first fault. -/
theorem Standing.run (standing : Standing permissions lines state)
    (fits : ∀ line ∈ rest, line.length < lineLimit) :
    (∃ final, readLines (isWanted permissions) lines.length state rest = .ok final ∧
      Standing permissions (lines ++ rest) final) ∨
    ∃ e, readLines (isWanted permissions) lines.length state rest = .error e ∧
      FirstFault permissions (lines ++ rest) e := by
  induction rest generalizing lines state with
  | nil => exact Or.inl ⟨state, rfl, by rwa [List.append_nil]⟩
  | cons line rest ih =>
      have fit : ¬ line.length ≥ lineLimit := Nat.not_le.mpr (fits line List.mem_cons_self)
      simp only [readLines, if_neg fit]
      have outcome := standing.step line
      generalize Mapping.step (isWanted permissions) state (Line.ofText line) = result at outcome
      cases outcome with
      | passed standing' =>
          have later := ih standing' fun other member => fits other (List.mem_cons_of_mem _ member)
          rwa [List.length_append, List.length_singleton, List.append_assoc,
            List.singleton_append] at later
      | stopped fault =>
          exact Or.inr ⟨_, rfl, lines, line, rest, rfl, standing.faultless, fault, rfl⟩

theorem FirstFault.not_faultless {e : Error} (first : FirstFault permissions lines e) :
    ¬ Faultless permissions lines := by
  obtain ⟨before, line, after, place, _, fault, _⟩ := first
  exact fun faultless => faultless before line after place e.cause fault

theorem read_cases (permissions : List Text) (fits : ∀ line ∈ t.lines, line.length < lineLimit) :
    (∃ needs, read t permissions = .ok (Catalog.empty.addAll needs) ∧
      Faultless permissions t.lines ∧ ∀ need, need ∈ needs ↔ Needed permissions t.lines need) ∨
    ∃ e, read t permissions = .error e ∧ FirstFault permissions t.lines e := by
  have whole : read t permissions =
      (readLines (isWanted permissions) 0 {} t.lines).map State.catalog := rfl
  rcases (standing_start permissions).run fits with ⟨final, run, standing⟩ | ⟨e, run, first⟩
  · obtain ⟨needs, same, exactly⟩ := standing.needs
    refine Or.inl ⟨needs, ?_, standing.faultless, exactly⟩
    rw [whole, ← same]
    exact congrArg (Except.map State.catalog) run
  · exact Or.inr ⟨e, whole.trans (congrArg (Except.map State.catalog) run), first⟩

theorem Needed.canonical {need : Signature × Text} (needed : Needed permissions lines need) :
    need.1.Canonical := by
  obtain ⟨_, _, _, _, _, _, _, read⟩ := needed
  exact Signature.canonical_of_parse read

/-! ### Lines that do not count -/

theorem ofText_eq_ignored (insignificant : ¬ Significant line) : Line.ofText line = .ignored := by
  have meaning := means_ofText line
  generalize Line.ofText line = content at meaning
  cases meaning with
  | ignored => rfl
  | header names => exact absurd names.isHeader.significant insignificant
  | method listed => exact absurd listed.significant insignificant
  | other significant => exact absurd significant insignificant

/-- What is read, if anything, depends on the lines that count. -/
theorem readLines_significant {wanted : Text → Bool}
    (fits : ∀ line ∈ lines, line.length < lineLimit) (before before' : Nat) :
    (readLines wanted before state lines).toOption =
      (readLines wanted before' state (lines.filter Significant)).toOption := by
  induction lines generalizing state before before' with
  | nil => rfl
  | cons line lines ih =>
      have fit : ¬ line.length ≥ lineLimit := Nat.not_le.mpr (fits line List.mem_cons_self)
      have later (state : State) (before' : Nat) :
          (readLines wanted (before + 1) state lines).toOption =
            (readLines wanted before' state (lines.filter Significant)).toOption :=
        ih (fun other member => fits other (List.mem_cons_of_mem _ member)) _ _
      by_cases significant : Significant line
      · rw [List.filter_cons_of_pos (by simpa using significant)]
        simp only [readLines, if_neg fit]
        cases Mapping.step wanted state (Line.ofText line) with
        | error cause => rfl
        | ok next => exact later _ _
      · rw [List.filter_cons_of_neg (by simpa using significant)]
        simp only [readLines, if_neg fit, ofText_eq_ignored significant]
        exact later _ _

theorem read_significant (permissions : List Text)
    (fits : ∀ line ∈ t.lines, line.length < lineLimit) : (read t permissions).toOption =
      (readLines (isWanted permissions) 0 {} (t.lines.filter Significant)).toOption.map
        State.catalog := by
  rw [← readLines_significant fits 0]
  change ((readLines (isWanted permissions) 0 {} t.lines).map State.catalog).toOption = _
  cases readLines (isWanted permissions) 0 {} t.lines <;> rfl

/-- A mapping is read by its sections. Reading fails exactly if some line has a fault, and names the
first one with its number. Else the catalog is what the sections own, added in any order. Lines that
do not count may be put in or taken out everywhere. -/
theorem read_sections (permissions : List Text)
    (fits : ∀ line ∈ t.lines, line.length < lineLimit) :
    ((∃ e, read t permissions = .error e) ↔ ¬ Faultless permissions t.lines) ∧
    (∀ e, read t permissions = .error e → FirstFault permissions t.lines e) ∧
    (Faultless permissions t.lines →
      (∃ needs : List (Signature × Text), ∀ need,
        need ∈ needs ↔ Needed permissions t.lines need) ∧
      ∀ needs : List (Signature × Text), (∀ need, need ∈ needs ↔ Needed permissions t.lines need) →
        read t permissions = .ok (Catalog.empty.addAll needs)) ∧
    ∀ u : Text, (∀ line ∈ u.lines, line.length < lineLimit) →
      u.lines.filter Significant = t.lines.filter Significant →
      ∀ c, read u permissions = .ok c ↔ read t permissions = .ok c := by
  have ok_iff (r : Except Error Catalog) (c : Catalog) : r = .ok c ↔ r.toOption = some c := by
    cases r <;> simp [Except.toOption]
  refine ⟨?_, ?_, ?_, ?_⟩
  · rcases read_cases permissions fits with ⟨_, done, faultless, _⟩ | ⟨e, failed, first⟩
    · simp [done, faultless]
    · simp [failed, first.not_faultless]
  · intro e failed
    rcases read_cases permissions fits with ⟨_, done, _⟩ | ⟨e', failed', first⟩
    · cases failed.symm.trans done
    · cases failed.symm.trans failed'
      exact first
  · intro faultless
    rcases read_cases permissions fits with ⟨needs, done, _, exactly⟩ | ⟨e, _, first⟩
    · refine ⟨⟨needs, exactly⟩, fun needs' exactly' => ?_⟩
      have canonical : ∀ need ∈ needs, need.1.Canonical :=
        fun need member => ((exactly need).mp member).canonical
      have same := (Catalog.empty_holds.addAll needs).eq_of_same canonical
        (Catalog.empty_holds.addAll needs') fun need => (exactly' need).trans (exactly need).symm
      rw [done, same]
    · exact absurd faultless first.not_faultless
  · intro u fits' same c
    rw [ok_iff, ok_iff, read_significant permissions fits', read_significant permissions fits, same]

/-- A section with a count, and one without that ends before its last signature. -/
def endedSections : Text :=
  "Permission:CAMERA\n2 Callers:\n<a.Camera: void open()> (2)\nPermission: AUDIO\n" ++
    "<a.Recorder: void start(int, int)>\nend of list\n<a.Recorder: void stop(\n"

/-- The same sections with lines that do not count. -/
def spacedSections : Text :=
  "# by permission\nPermission:CAMERA\n\n # counted\n2 Callers:\n<a.Camera: void open()> (2)\n" ++
    "Permission: AUDIO\n<a.Recorder: void start(int, int)>\n\t\nend of list\n" ++
    "<a.Recorder: void stop(\n"

theorem read_sections_spaced :
    let c : Catalog := ⟨[⟨⟨"a.Camera", "open", "void", []⟩, ["CAMERA"]⟩,
      ⟨⟨"a.Recorder", "start", "void", ["int", "int"]⟩, ["AUDIO"]⟩]⟩
    Faultless [] endedSections.lines ∧ read spacedSections [] = .ok c ∧
      FirstFault ["AUDIO"] (Text.lines (endedSections ++ "Permission:\n"))
        ⟨8, .emptyPermission⟩ := by
  intro c
  have accepted : read endedSections [] = .ok c := by decide +kernel
  obtain ⟨fails, _, _, spaced⟩ := read_sections [] (t := endedSections) (by decide +kernel)
  have faultless : Faultless [] endedSections.lines := by
    by_contra fault
    obtain ⟨e, failed⟩ := fails.mpr fault
    cases accepted.symm.trans failed
  have same : spacedSections.lines.filter Significant = endedSections.lines.filter Significant := by
    decide +kernel
  obtain ⟨_, first, _⟩ := read_sections ["AUDIO"]
    (t := endedSections ++ Text.ofString "Permission:\n") (by decide +kernel)
  exact ⟨faultless, (spaced spacedSections (by decide +kernel) same c).mpr accepted,
    first _ (by decide +kernel)⟩

end PermissionGuard.Mapping
