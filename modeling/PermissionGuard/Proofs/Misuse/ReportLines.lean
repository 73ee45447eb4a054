import Mathlib.Data.List.Forall2
import PermissionGuard.Proofs.Text.Quoted
import PermissionGuard.Proofs.Misuse.Collection
import PermissionGuard.Misuse.Report

/-!
The lines of a report. Names of methods and permissions come from the program and the catalog and
may hold any bytes, but only their escaped forms are printed, so that each misuse is one line, no
name can end it early or hide a part of it, and names that differ look different
(`text_lines_clean`).
-/

namespace PermissionGuard

namespace Text

/-! ### Numbers and lists -/

theorem ofString_clean {s : String}
    (visible : ∀ c ∈ s.toList, ¬ (c.toNat < 0x20 ∨ c.toNat = 0x7F)) : (ofString s).IsClean := by
  intro b member
  rw [ofString_eq] at member
  obtain ⟨c, written, inside⟩ := List.mem_flatMap.mp member
  exact utf8EncodeChar_clean (visible c written) b inside

theorem ofNat_clean (n : Nat) : (ofNat n).IsClean := by
  refine ofString_clean fun c written => ?_
  rw [Nat.toString_eq_repr, Nat.toList_repr] at written
  have digit := Nat.isDigit_of_mem_toDigits (by decide) (by decide) written
  simp only [Char.isDigit_iff_toNat, Char.reduceToNat] at digit
  omega

theorem ofInt_clean (n : Int) : (ofInt n).IsClean := by
  rw [ofInt, Int.toString_eq_repr]
  cases n with
  | ofNat n => exact ofNat_clean n
  | negSucc n =>
      rw [Int.repr, ofString_append]
      exact isClean_append.mpr ⟨by decide, ofNat_clean (n + 1)⟩

theorem join_clean {separator : Text} {parts : List Text} (between : separator.IsClean)
    (clean : ∀ part ∈ parts, part.IsClean) : (join separator parts).IsClean := by
  cases parts with
  | nil => exact List.forall_mem_nil _
  | cons part parts =>
      obtain ⟨first, others⟩ := List.forall_mem_cons.mp clean
      refine isClean_append.mpr ⟨first, fun b member => ?_⟩
      obtain ⟨part, listed, inside⟩ := List.mem_flatMap.mp member
      exact isClean_append.mpr ⟨between, others part listed⟩ b inside

end Text

namespace Report

theorem joinSanitized_clean {separator : Text} (between : separator.IsClean)
    (items : List Text) : (joinSanitized separator items).IsClean :=
  Text.join_clean between (List.forall_mem_map.mpr fun item _ => Text.sanitize_clean item)

/-! ### Lines of misuses -/

theorem position_clean (line : Int) (index : Nat) : (position line index).IsClean := by
  unfold position
  split
  · exact Text.isClean_append.mpr ⟨by decide, Text.ofInt_clean _⟩
  · exact Text.isClean_append.mpr ⟨by decide, Text.ofNat_clean _⟩

theorem Item.lineText_clean (i : Item) : i.lineText.IsClean := by
  have named : (Text.ofString " [").IsClean ∧ (Text.ofString "]: unguarded call to ").IsClean ∧
      (Text.ofString " requires ").IsClean ∧ (Text.ofString ", ").IsClean := by decide
  obtain ⟨opening, calling, requiring, between⟩ := named
  simp only [lineText, Text.isClean_append, Text.sanitize_clean, position_clean,
    joinSanitized_clean between, opening, calling, requiring, and_self]

example : Item.lineText ⟨"<a.B: void c()>\n", 3, 0, [0x22, 0xFF, 0x1B], ["p"]⟩ =
    "<a.B: void c()>\\n [#3]: unguarded call to \\\"\\xff\\x1b requires p" := by
  decide +kernel

theorem text_eq (items : List Item) :
    text items = (items.map Item.lineText).flatMap fun line => line ++ [0x0A] := by
  rw [text, List.flatMap_map]
  rfl

theorem writeText_eq (writer : Text → Except Text Unit) (items : List Item) :
    writeText writer items =
      write writer ((items.map Item.lineText).map fun line => line ++ [0x0A]) := by
  rw [writeText, List.map_map]
  rfl

end Report

/-! ### Records of a program -/

/-- The method and the statement of a misuse are those of a program. -/
structure Misuse.IsOf (r : Misuse) (a : Arena) : Prop where
  method : ∃ method, a.method? r.method = some method
  statement : ∃ st, a.statement? r.stmt = some st

theorem Misuse.analyze_isOf (a : Arena) (catalog : Catalog) (config : Config) :
    ∀ r ∈ (Misuse.analyze a.model catalog config).1, r.IsOf a := by
  intro r member
  obtain ⟨call, _⟩ := mem_collect_ofArena.mp member
  obtain ⟨method, known, _⟩ := call.inApplication
  obtain ⟨st, _, statement, _⟩ := call.found
  exact ⟨⟨method, known⟩, ⟨st, statement⟩⟩

namespace Report

/-- What the report says about a call of `entry` in `method` at `st`. -/
def callLine (method : Method) (st : Statement) (entry : SensitiveMethod) : Text :=
  method.sig.key.sanitize ++ " [" ++ position st.line st.index ++ "]: unguarded call to "
    ++ entry.sig.key.sanitize ++ " requires " ++ joinSanitized ", " entry.permissions

/-- The line of a misuse, from its method and its statement in the program. -/
def LineOf (a : Arena) (r : Misuse) (line : Text) : Prop :=
  ∃ method st, a.method? r.method = some method ∧ a.statement? r.stmt = some st ∧
    line = callLine method st r.sensitive

theorem lineOf_item {a : Arena} {r : Misuse} (known : r.IsOf a) :
    LineOf a r (item a.model r).lineText := by
  obtain ⟨method, isMethod⟩ := known.method
  obtain ⟨st, isStatement⟩ := known.statement
  refine ⟨method, st, isMethod, isStatement, ?_⟩
  have name : a.model.methodName r.method = method.sig.key := by
    simp only [Model.methodName, Arena.model, isMethod]
  have statement : a.model.statement? r.stmt = some st := isStatement
  simp only [Item.lineText, item, name, statement, Option.map_some, Option.getD_some, callLine]

/-- Lines at one place with the same permissions differ if only the methods or only the called
methods differ in their keys. -/
theorem callLine_tells_keys {method method' : Method} {st st' : Statement}
    {entry entry' : SensitiveMethod} (permissions : entry.permissions = entry'.permissions)
    (place : position st.line st.index = position st'.line st'.index)
    (same : callLine method st entry = callLine method' st' entry') :
    method.sig.key = method'.sig.key ↔ entry.sig.key = entry'.sig.key := by
  simp only [callLine, place, permissions, List.append_cancel_right_eq] at same
  constructor
  · intro key
    rw [key] at same
    exact Text.escapeWith_injective _ (List.append_cancel_left same)
  · intro key
    rw [key] at same
    simp only [List.append_cancel_right_eq] at same
    exact Text.escapeWith_injective _ same

/-- A report on records of a program has one line for each record, in their order, and is handed to
the writer line by line. A line says the escaped key of the record's method, the position of its
statement, the escaped key of the sensitive method and the escaped permissions. Whatever bytes these
names hold, the only control bytes of the report are the newlines that end its lines. Keys that
differ are printed differently, so that a line tells them apart. Both hold of the escaped forms for
every choice of printable characters without control characters. -/
theorem text_lines_clean {a : Arena} {misuses : List Misuse} (known : ∀ r ∈ misuses, r.IsOf a) :
    (∃ lines : List Text,
      List.Forall₂ (LineOf a) misuses lines ∧ (∀ line ∈ lines, line.IsClean) ∧
        text (misuses.map (item a.model)) = (lines.flatMap fun line => line ++ [0x0A]) ∧
        ∀ writer, writeText writer (misuses.map (item a.model)) =
          write writer (lines.map fun line => line ++ [0x0A])) ∧
      Function.Injective Text.sanitize ∧
      (∀ method method' st st' entry entry', entry.permissions = entry'.permissions →
        position st.line st.index = position st'.line st'.index →
          callLine method st entry = callLine method' st' entry' →
            (method.sig.key = method'.sig.key ↔ entry.sig.key = entry'.sig.key)) ∧
      ∀ printable, Text.HidesControls printable →
        (∀ t, (Text.escapeWith printable t).IsClean) ∧
          Function.Injective (Text.escapeWith printable) := by
  let items := misuses.map (item a.model)
  refine ⟨⟨items.map Item.lineText, ?_, ?_, text_eq items, fun writer => writeText_eq writer items⟩,
    Text.escapeWith_injective _, ?_, ?_⟩
  · rw [List.map_map, List.forall₂_map_right_iff, List.forall₂_same]
    exact fun r member => lineOf_item (known r member)
  · intro line member
    obtain ⟨i, _, rfl⟩ := List.mem_map.mp member
    exact i.lineText_clean
  · intro method method' st st' entry entry' permissions place same
    exact callLine_tells_keys permissions place same
  · intro printable hides
    exact ⟨Text.escapeWith_clean hides, Text.escapeWith_injective printable⟩

/-- A method whose name ends its line early. -/
def forgingMethod : Signature := ⟨"a.B", "c()>\n<a.B: void d", "void", []⟩

/-- A sensitive method whose name clears the terminal's line, with a permission that is a bell. -/
def hidingMethod : Signature := ⟨"x.Y", "z\x1b[2K", "void", []⟩

def forgingSteps : List BuildStep :=
  [.method forgingMethod true false, .statement 0 { target := some hidingMethod }]

def forgingArena : Arena := Arena.ofProgram (Builder.run forgingSteps).program

def forgingCatalog : Catalog := Catalog.empty.add hidingMethod "\x07"

theorem text_lines_clean_forged :
    let records := (Misuse.analyze forgingArena.model forgingCatalog Config.default).1
    let record : Misuse := ⟨0, 0, ⟨hidingMethod, ["\x07"]⟩⟩
    forgingArena.BuiltBy forgingSteps ∧ record ∈ records ∧ ¬ forgingMethod.key.IsClean ∧
      ¬ hidingMethod.key.IsClean ∧ ∃ lines : List Text,
        List.Forall₂ (LineOf forgingArena) records lines ∧ (∀ line ∈ lines, line.IsClean) ∧
          text (records.map (item forgingArena.model)) =
            lines.flatMap fun line => line ++ [0x0A] := by
  intro records record
  have built : forgingArena.BuiltBy forgingSteps := Arena.builtBy_ofProgram forgingSteps (by decide)
  have call : SensitiveCall forgingArena forgingCatalog Config.default 0 0
      ⟨hidingMethod, ["\x07"]⟩ :=
    ⟨by decide, ⟨_, rfl, by decide⟩, _, _, rfl, rfl, by decide⟩
  have refused : (Propagator.check ⟨forgingArena.model,
      Detector.ofConfig forgingArena.model Config.default, false⟩ 0 0 {}).1 = false :=
    Propagator.check_of_uncalled forgingArena.model_enumerated (by decide +kernel)
      (by decide +kernel) {}
  obtain ⟨⟨lines, ordered, clean, printed, _⟩, _⟩ :=
    text_lines_clean (Misuse.analyze_isOf forgingArena forgingCatalog Config.default)
  exact ⟨built, mem_collect_ofArena.mpr ⟨call, refused⟩, by decide, by decide, lines, ordered,
    clean, printed⟩

end Report

end PermissionGuard
