import PermissionGuard.Catalog.Mapping
import PermissionGuard.Proofs.Text.Cuts
import Mathlib.Data.List.Induction

/-!
The sections of a mapping. Which lines a section owns is said by their places between the headers
(`Owns`), and the signature of an owned line is what stands in front of its first closing
parenthesis with a bracket (`reads_iff`). One more line opens a section, goes on with it or ends it
(`inSection_concat`).
-/

namespace PermissionGuard.Mapping

variable {line header permission : Text} {permissions lines between : List Text}
variable {cause : Cause} {sig : Signature}

/-- A line counts unless nothing is left of it or a number sign is in front. -/
def Significant (line : Text) : Prop := line.trim ≠ [] ∧ ¬ ("#" : Text) <+: line.trim

instance : DecidablePred Significant := fun line =>
  inferInstanceAs (Decidable (line.trim ≠ [] ∧ ¬ ("#" : Text) <+: line.trim))

def IsHeader (line : Text) : Prop := headerStart <+: line.trim

def Names (header permission : Text) : Prop :=
  ∃ name, header.trim = headerStart ++ name ∧ permission = name.trim

def IsListed (line : Text) : Prop := ("<" : Text) <+: line.trim

/-- The last header among some lines, and the lines after it. -/
structure LastHeader (lines : List Text) (header : Text) (between : List Text) : Prop where
  place : ∃ before, lines = before ++ header :: between
  isHeader : IsHeader header
  last : ∀ line ∈ between, ¬ IsHeader line

/-- After the lines the section of a permission is open. All lines that count since its header start
a signature, the first one apart. -/
def InSection (permissions lines : List Text) (permission : Text) : Prop :=
  ∃ header between, LastHeader lines header between ∧ Names header permission ∧
    (permissions = [] ∨ permission ∈ permissions) ∧
    ∀ line ∈ (between.filter Significant).tail, IsListed line

/-- A permission owns the line that comes after some others. -/
def Owns (permissions before : List Text) (line permission : Text) : Prop :=
  IsListed line ∧ InSection permissions before permission

/-- The line is cut behind its first closing parenthesis with a bracket. -/
def CutsOff (line written : Text) : Prop :=
  ∃ front after, line.trim = front ++ ")>" ++ after ∧ ¬ (")>" : Text) <:+: front ∧
    written = front ++ ")>"

def Reads (line : Text) (sig : Signature) : Prop :=
  ∃ written, CutsOff line written ∧ Signature.parse written = .ok sig

/-- What is wrong with a line that comes after some others. -/
inductive Fault (permissions before : List Text) (line : Text) : Cause → Prop
  | unnamed (names : Names line []) : Fault permissions before line .emptyPermission
  | unterminated {permission : Text} (owned : Owns permissions before line permission)
      (unclosed : ¬ (")>" : Text) <:+: line.trim) :
      Fault permissions before line .unterminatedSignature
  | unreadable {permission written : Text} {cause : Signature.ParseError}
      (owned : Owns permissions before line permission) (cut : CutsOff line written)
      (refused : Signature.parse written = .error cause) :
      Fault permissions before line (.badSignature written cause)

def Faultless (permissions lines : List Text) : Prop :=
  ∀ before line after, lines = before ++ line :: after →
    ∀ cause, ¬ Fault permissions before line cause

/-- A signature and its owner, as one of the lines gives them. -/
def Needed (permissions lines : List Text) (need : Signature × Text) : Prop :=
  ∃ before line after, lines = before ++ line :: after ∧ Owns permissions before line need.2 ∧
    Reads line need.1

/-- The error is about the first line with a fault. -/
def FirstFault (permissions lines : List Text) (e : Error) : Prop :=
  ∃ before line after, lines = before ++ line :: after ∧ Faultless permissions before ∧
    Fault permissions before line e.cause ∧ e.line = before.length + 1

/-! ### Lines -/

theorem head_of_front {b : UInt8} {l t : Text} (front : b :: l <+: t) : t.head? = some b := by
  obtain ⟨r, rfl⟩ := front
  rfl

theorem significant_of_head {b : UInt8} (front : line.trim.head? = some b) (other : b ≠ 0x23) :
    Significant line := by
  constructor
  · intro empty
    simp [empty] at front
  · intro comment
    have first := (head_of_front (l := []) comment).symm.trans front
    exact other (Option.some.inj first).symm

theorem IsHeader.head (isHeader : IsHeader line) : line.trim.head? = some 0x50 :=
  head_of_front (l := headerStart.tail) isHeader

theorem IsListed.head (listed : IsListed line) : line.trim.head? = some 0x3C :=
  head_of_front (l := []) listed

theorem IsHeader.significant (isHeader : IsHeader line) : Significant line :=
  significant_of_head isHeader.head (by decide)

theorem IsListed.significant (listed : IsListed line) : Significant line :=
  significant_of_head listed.head (by decide)

theorem IsListed.not_header (listed : IsListed line) : ¬ IsHeader line := by
  intro isHeader
  have both := isHeader.head.symm.trans listed.head
  exact absurd both (by decide)

theorem Names.isHeader (names : Names header permission) : IsHeader header := by
  obtain ⟨name, cut, _⟩ := names
  exact ⟨name, cut.symm⟩

theorem Names.eq {permission' : Text} (names : Names header permission)
    (names' : Names header permission') : permission = permission' := by
  obtain ⟨name, cut, rfl⟩ := names
  obtain ⟨name', cut', rfl⟩ := names'
  rw [List.append_cancel_left (cut.symm.trans cut')]

/-- What the reader makes of a line. -/
inductive Means (line : Text) : Line → Prop
  | ignored (insignificant : ¬ Significant line) : Means line .ignored
  | header {permission : Text} (names : Names line permission) : Means line (.header permission)
  | method (listed : IsListed line) : Means line (.method line.trim)
  | other (significant : Significant line) (noHeader : ¬ IsHeader line)
      (unlisted : ¬ IsListed line) : Means line .other

theorem means_ofText (line : Text) : Means line (Line.ofText line) := by
  simp only [Line.ofText, Text.startsWith, Bool.or_eq_true, List.isEmpty_iff,
    List.isPrefixOf_iff_prefix]
  split
  · rename_i insignificant
    exact .ignored fun significant => insignificant.elim significant.1 significant.2
  · rename_i significant
    split
    · rename_i isHeader
      obtain ⟨name, cut⟩ := isHeader
      refine .header ⟨name, cut.symm, ?_⟩
      rw [← cut, List.drop_left]
    · rename_i noHeader
      split
      · rename_i listed
        exact .method listed
      · rename_i unlisted
        exact .other (not_or.mp significant) noHeader unlisted

theorem CutsOff.signatureOf_eq {written : Text} (cut : CutsOff line written) :
    signatureOf line.trim = (Signature.parse written).mapError (.badSignature written) := by
  obtain ⟨front, after, parts, first, rfl⟩ := cut
  have found : line.trim.indexOf? ")>" = some front.length := by
    rw [parts, List.append_assoc]
    exact Text.indexOf?_pair (by decide) first after
  have written : line.trim.take (front.length + 2) = front ++ ")>" := by
    rw [parts]
    exact List.take_left' (by simp; rfl)
  simp only [signatureOf, found, written]
  cases Signature.parse (front ++ ")>") <;> rfl

theorem signatureOf_of_unclosed (unclosed : ¬ (")>" : Text) <:+: line.trim) :
    signatureOf line.trim = .error .unterminatedSignature := by
  cases found : line.trim.indexOf? ")>" with
  | none => simp only [signatureOf, found]
  | some position =>
      obtain ⟨parts, _⟩ := Text.indexOf?_eq_some found (by decide)
      exact absurd ⟨_, _, parts.symm⟩ unclosed

theorem cutsOff_of_closed (closed : (")>" : Text) <:+: line.trim) :
    ∃ written, CutsOff line written := by
  cases found : line.trim.indexOf? ")>" with
  | none => exact absurd closed (Text.indexFrom_eq_none found)
  | some position =>
      obtain ⟨parts, first⟩ := Text.indexOf?_eq_some found (by decide)
      exact ⟨_, _, _, parts, first, rfl⟩

theorem reads_iff : Reads line sig ↔ signatureOf line.trim = .ok sig := by
  constructor
  · intro reads
    obtain ⟨written, cut, read⟩ := reads
    rw [cut.signatureOf_eq, read]
    rfl
  · intro read
    by_cases closed : (")>" : Text) <:+: line.trim
    · obtain ⟨written, cut⟩ := cutsOff_of_closed closed
      rw [cut.signatureOf_eq] at read
      cases parsed : Signature.parse written with
      | error cause => simp [parsed, Except.mapError] at read
      | ok sig' =>
          rw [parsed] at read
          cases read
          exact ⟨written, cut, parsed⟩
    · rw [signatureOf_of_unclosed closed] at read
      cases read

/-- The faults of a line with an owner are those of its signature. -/
theorem Owns.fault_iff (owned : Owns permissions lines line permission) :
    Fault permissions lines line cause ↔ signatureOf line.trim = .error cause := by
  constructor
  · intro fault
    cases fault with
    | unnamed names => exact absurd names.isHeader owned.1.not_header
    | unterminated _ unclosed => exact signatureOf_of_unclosed unclosed
    | unreadable _ cut refused =>
        rw [cut.signatureOf_eq, refused]
        rfl
  · intro refused
    by_cases closed : (")>" : Text) <:+: line.trim
    · obtain ⟨written, cut⟩ := cutsOff_of_closed closed
      rw [cut.signatureOf_eq] at refused
      cases parsed : Signature.parse written with
      | error cause' =>
          rw [parsed] at refused
          cases refused
          exact .unreadable owned cut parsed
      | ok sig => simp [parsed, Except.mapError] at refused
    · rw [signatureOf_of_unclosed closed] at refused
      cases refused
      exact .unterminated owned closed

/-! ### One more line -/

theorem concat_eq_iff {α : Type} {l before after : List α} {a b : α} :
    l ++ [a] = before ++ b :: after ↔ (before = l ∧ b = a ∧ after = []) ∨
      ∃ more, after = more ++ [a] ∧ l = before ++ b :: more := by
  constructor
  · intro same
    rcases List.eq_nil_or_concat' after with rfl | ⟨more, last, rfl⟩
    · obtain ⟨front, final⟩ := List.append_inj' same rfl
      exact Or.inl ⟨front.symm, (List.cons.inj final).1.symm, rfl⟩
    · rw [← List.cons_append, ← List.append_assoc] at same
      obtain ⟨front, final⟩ := List.append_inj' same rfl
      exact Or.inr ⟨more, by rw [(List.cons.inj final).1], front⟩
  · intro places
    rcases places with ⟨rfl, rfl, rfl⟩ | ⟨more, rfl, rfl⟩
    · rfl
    · simp

theorem faultless_concat_iff : Faultless permissions (lines ++ [line]) ↔
    Faultless permissions lines ∧ ∀ cause, ¬ Fault permissions lines line cause := by
  constructor
  · intro faultless
    constructor
    · intro before other after place
      exact faultless before other (after ++ [line]) (by simp [place])
    · exact faultless lines line [] rfl
  · intro both before other after place
    rcases concat_eq_iff.mp place with ⟨rfl, rfl, _⟩ | ⟨more, _, earlier⟩
    · exact both.2
    · exact both.1 before other more earlier

theorem needed_concat_iff {need : Signature × Text} : Needed permissions (lines ++ [line]) need ↔
    Needed permissions lines need ∨
      (Owns permissions lines line need.2 ∧ Reads line need.1) := by
  constructor
  · intro needed
    obtain ⟨before, other, after, place, needs⟩ := needed
    rcases concat_eq_iff.mp place with ⟨rfl, rfl, _⟩ | ⟨more, _, earlier⟩
    · exact Or.inr needs
    · exact Or.inl ⟨before, other, more, earlier, needs⟩
  · intro either
    rcases either with ⟨before, other, after, rfl, needs⟩ | needs
    · exact ⟨before, other, after ++ [line], by simp, needs⟩
    · exact ⟨lines, line, [], rfl, needs⟩

theorem lastHeader_concat_header (isHeader : IsHeader line) :
    LastHeader (lines ++ [line]) header between ↔ header = line ∧ between = [] := by
  constructor
  · intro last
    obtain ⟨before, place⟩ := last.place
    rcases concat_eq_iff.mp place with ⟨_, same, nothing⟩ | ⟨more, rfl, _⟩
    · exact ⟨same, nothing⟩
    · exact absurd isHeader (last.last line (by simp))
  · intro both
    obtain ⟨rfl, rfl⟩ := both
    exact ⟨⟨lines, rfl⟩, isHeader, by simp⟩

theorem lastHeader_concat (noHeader : ¬ IsHeader line) :
    LastHeader (lines ++ [line]) header between ↔
      ∃ more, between = more ++ [line] ∧ LastHeader lines header more := by
  constructor
  · intro last
    obtain ⟨before, place⟩ := last.place
    rcases concat_eq_iff.mp place with ⟨_, rfl, _⟩ | ⟨more, rfl, earlier⟩
    · exact absurd last.isHeader noHeader
    · exact ⟨more, rfl, ⟨before, earlier⟩, last.isHeader,
        fun other member => last.last other (List.mem_append_left _ member)⟩
  · intro earlier
    obtain ⟨more, rfl, last⟩ := earlier
    obtain ⟨before, rfl⟩ := last.place
    refine ⟨⟨before, by simp⟩, last.isHeader, fun other member => ?_⟩
    cases List.mem_append.mp member with
    | inl inside => exact last.last other inside
    | inr final => rwa [List.mem_singleton.mp final]

theorem not_lastHeader_nil : ¬ LastHeader [] header between := by
  intro last
  obtain ⟨before, place⟩ := last.place
  simp at place

/-- Among some lines there is at most one last header. -/
theorem LastHeader.unique {header' : Text} {between' : List Text}
    (last : LastHeader lines header between) (last' : LastHeader lines header' between') :
    header = header' ∧ between = between' := by
  induction lines using List.reverseRecOn generalizing between between' with
  | nil => exact absurd last not_lastHeader_nil
  | append_singleton lines line ih =>
      by_cases isHeader : IsHeader line
      · rw [lastHeader_concat_header isHeader] at last last'
        exact ⟨last.1.trans last'.1.symm, last.2.trans last'.2.symm⟩
      · rw [lastHeader_concat isHeader] at last last'
        obtain ⟨more, rfl, earlier⟩ := last
        obtain ⟨more', rfl, earlier'⟩ := last'
        obtain ⟨sameHeader, sameLines⟩ := ih earlier earlier'
        exact ⟨sameHeader, by rw [sameLines]⟩

/-- No line that counts comes after the last header. -/
def EndsWithHeader (lines : List Text) : Prop :=
  ∃ header between, LastHeader lines header between ∧ between.filter Significant = []

theorem inSection_concat_header (names : Names line header) :
    InSection permissions (lines ++ [line]) permission ↔
      permission = header ∧ (permissions = [] ∨ header ∈ permissions) := by
  constructor
  · intro inSection
    obtain ⟨_, _, last, names', chosen, _⟩ := inSection
    obtain ⟨rfl, rfl⟩ := (lastHeader_concat_header names.isHeader).mp last
    obtain rfl := names.eq names'
    exact ⟨rfl, chosen⟩
  · intro both
    obtain ⟨rfl, chosen⟩ := both
    exact ⟨line, [], (lastHeader_concat_header names.isHeader).mpr ⟨rfl, rfl⟩, names, chosen,
      by simp⟩

/-- A line that is no header leaves a section open if it is listed, if it does not count, or if it
is the first one that counts. -/
theorem inSection_concat (noHeader : ¬ IsHeader line) :
    InSection permissions (lines ++ [line]) permission ↔ InSection permissions lines permission ∧
      (Significant line → IsListed line ∨ EndsWithHeader lines) := by
  -- The lines that count after the first one, with one more at the end.
  have tail_concat (l : List Text) : (∀ other ∈ (l ++ [line]).tail, IsListed other) ↔
      (∀ other ∈ l.tail, IsListed other) ∧ (IsListed line ∨ l = []) := by
    cases l with
    | nil => simp
    | cons first l => simp [or_imp, forall_and]
  have filtered (more : List Text) :
      (∀ other ∈ ((more ++ [line]).filter Significant).tail, IsListed other) ↔
        (∀ other ∈ (more.filter Significant).tail, IsListed other) ∧
          (Significant line → IsListed line ∨ more.filter Significant = []) := by
    by_cases significant : Significant line
    · have kept : [line].filter (fun other => decide (Significant other)) = [line] := by
        simp [significant]
      rw [List.filter_append, kept, tail_concat, forall_prop_of_true significant]
    · simp [List.filter_append, significant]
  constructor
  · intro inSection
    obtain ⟨header, between, last, names, chosen, listed⟩ := inSection
    obtain ⟨more, rfl, earlier⟩ := (lastHeader_concat noHeader).mp last
    obtain ⟨before, now⟩ := (filtered more).mp listed
    exact ⟨⟨header, more, earlier, names, chosen, before⟩, fun significant =>
      (now significant).imp_right fun none => ⟨header, more, earlier, none⟩⟩
  · intro both
    obtain ⟨⟨header, more, earlier, names, chosen, listed⟩, now⟩ := both
    refine ⟨header, more ++ [line], (lastHeader_concat noHeader).mpr ⟨more, rfl, earlier⟩, names,
      chosen, (filtered more).mpr ⟨listed, fun significant => (now significant).imp_right ?_⟩⟩
    intro ends
    obtain ⟨header', between, last, none⟩ := ends
    obtain ⟨_, rfl⟩ := last.unique earlier
    exact none

theorem endsWithHeader_concat_header (isHeader : IsHeader line) :
    EndsWithHeader (lines ++ [line]) :=
  ⟨line, [], (lastHeader_concat_header isHeader).mpr ⟨rfl, rfl⟩, rfl⟩

theorem endsWithHeader_concat (noHeader : ¬ IsHeader line) :
    EndsWithHeader (lines ++ [line]) ↔ EndsWithHeader lines ∧ ¬ Significant line := by
  constructor
  · intro ends
    obtain ⟨header, between, last, none⟩ := ends
    obtain ⟨more, rfl, earlier⟩ := (lastHeader_concat noHeader).mp last
    obtain ⟨before, now⟩ := List.append_eq_nil_iff.mp ((List.filter_append _ _).symm.trans none)
    exact ⟨⟨header, more, earlier, before⟩, by simpa using now⟩
  · intro both
    obtain ⟨⟨header, more, earlier, none⟩, insignificant⟩ := both
    exact ⟨header, more ++ [line], (lastHeader_concat noHeader).mpr ⟨more, rfl, earlier⟩,
      by simp [none, insignificant]⟩

end PermissionGuard.Mapping
