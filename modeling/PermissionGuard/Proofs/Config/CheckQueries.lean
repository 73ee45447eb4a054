import PermissionGuard.Config.File

/-!
What asking for a proactive check does to a configuration, whatever filters can be compiled and
whatever they match. The first such question prepares a configuration that was not read from a file,
and so fills in the settings that are empty. From then on, and always for one that was read, the
question changes nothing. The other questions have the same answers before and after, those about
packages apart if there is a filter that compiles (`check_query_prepares_once`).
-/

namespace PermissionGuard

namespace Config

/-- What a configuration can be asked. -/
inductive Query where
  | check (name : Text)
  | package (path : Text)
  | library (className : Text)
  | relative (path : Text)
  | catalog
  | verbose
  deriving DecidableEq, Repr

inductive Answer where
  | truth (holds : Bool)
  | path (path : Text)
  deriving DecidableEq, Repr

section

variable (compile : FilterCompiler)

/-- The configuration after a question, and the answer. -/
def ask (c : Config) : Query → Config × Answer
  | .check name =>
      let (asked, holds) := c.isProactiveCheckWith compile name
      (asked, .truth holds)
  | .package path => (c, .truth (c.matchesPackage path))
  | .library className => (c, .truth (c.isLibrary className))
  | .relative path => (c, .path (c.relativePath path))
  | .catalog => (c, .path c.catalogPath)
  | .verbose => (c, .truth c.isVerbose)

/-- The answers to questions that are asked one after the other. -/
def answers (c : Config) : List Query → List Answer
  | [] => []
  | query :: queries => (c.ask compile query).2 :: (c.ask compile query).1.answers queries

/-- What can happen to a configuration: its settings are set to any values, or it is asked. -/
inductive Event where
  | assign (settings : Settings)
  | ask (query : Query)
  deriving DecidableEq, Repr

def react (c : Config) : Event → Config
  | .assign settings => { c with toSettings := settings }
  | .ask query => (c.ask compile query).1

/-- The configuration after a history. -/
def after (c : Config) (history : List Event) : Config := history.foldl (react compile) c

/-- Where configurations come from: they are the default one or read from a file. -/
inductive Created : Config → Prop
  | default : Created Config.default
  | read {file : Text} {entry : FileEntry} {c : Config}
      (done : ConfigFile.readWith compile file entry = .ok c) : Created c

/-- A configuration was read from a file, or asked for a check. -/
def Settled (start : Config) (history : List Event) : Prop :=
  (∃ file entry, ConfigFile.readWith compile file entry = .ok start) ∨
    ∃ name, .ask (.check name) ∈ history

/-- There is a package filter, and it compiles. -/
def FilterCompiles (c : Config) : Prop := c.pkgFilter ≠ [] ∧ compile c.pkgFilter ≠ none

end

variable {compile : FilterCompiler} {c start : Config} {history : List Event} {query : Query}
variable {name : Text}

/-! ### Preparation -/

theorem isProactiveCheck_prepared (prepared : c.checkNames ≠ none) :
    (c.isProactiveCheckWith compile name).1 = c := by
  unfold isProactiveCheckWith
  split
  · rfl
  · rename_i unprepared
    exact absurd unprepared prepared

theorem isProactiveCheck_unprepared (unprepared : c.checkNames = none) (name : Text) :
    c.isProactiveCheckWith compile name =
      (c.prepareWith compile, c.proactiveChecks.contains name) := by
  simp only [isProactiveCheckWith, unprepared]

theorem react_checkNames (event : Event) : (c.react compile event).checkNames ≠ none ↔
    c.checkNames ≠ none ∨ ∃ name, event = .ask (.check name) := by
  cases event with
  | assign settings => simp [react]
  | ask query =>
      cases query with
      | check name =>
          by_cases prepared : c.checkNames = none
          · simp [react, ask, isProactiveCheck_unprepared prepared, prepareWith]
          · simp [react, ask, isProactiveCheck_prepared prepared, prepared]
      | _ => simp [react, ask]

theorem after_checkNames : (c.after compile history).checkNames ≠ none ↔
    c.checkNames ≠ none ∨ ∃ name, .ask (.check name) ∈ history := by
  induction history generalizing c with
  | nil => simp [after]
  | cons event history ih =>
      have first : (c.react compile event).checkNames ≠ none ↔ _ := react_checkNames event
      rw [after, List.foldl_cons, ← after, ih, first]
      simp only [List.mem_cons, exists_or, or_assoc, eq_comm]

theorem read_checkNames {file : Text} {entry : FileEntry}
    (done : ConfigFile.readWith compile file entry = .ok c) : c.checkNames ≠ none := by
  have made (settings : Except ConfigFile.Error Settings)
      (same : (do
        let settings ← settings
        return Config.prepareWith compile { settings with sourceFile := file }) = .ok c) :
      c.checkNames ≠ none := by
    cases settings with
    | error cause => cases same
    | ok settings =>
        cases same
        exact Option.some_ne_none _
  simp only [ConfigFile.readWith] at done
  split at done
  · cases done
  · split at done
    · exact made _ done
    · exact made _ done

theorem Created.after_checkNames (created : Created compile start) :
    (start.after compile history).checkNames ≠ none ↔ Settled compile start history := by
  rw [Config.after_checkNames, Settled]
  refine or_congr_left ⟨fun prepared => ?_, fun ⟨file, entry, done⟩ => read_checkNames done⟩
  cases created with
  | default => exact absurd rfl prepared
  | read done => exact ⟨_, _, done⟩

/-! ### Answers -/

theorem prepare_matchesPackage (plain : ¬ c.FilterCompiles compile) (path : Text) :
    (c.prepareWith compile).matchesPackage path = c.matchesPackage path := by
  have kept : (c.prepareWith compile).compiledFilter = c.compiledFilter := by
    simp only [FilterCompiles, not_and, Classical.not_not] at plain
    change (if c.pkgFilter.isEmpty then c.compiledFilter
      else (compile c.pkgFilter).or c.compiledFilter) = c.compiledFilter
    by_cases empty : c.pkgFilter = []
    · rw [if_pos (List.isEmpty_iff.mpr empty)]
    · rw [if_neg (mt List.isEmpty_iff.mp empty), plain empty, Option.none_or]
  simp only [matchesPackage, kept]
  rfl

theorem prepare_isVerbose (c : Config) : (c.prepareWith compile).isVerbose = c.isVerbose := by
  simp only [isVerbose, prepareWith, Settings.fillDefaults]
  split
  · rename_i unset
    rw [unset]
    rfl
  · rfl

/-- Preparation changes no answer but those about packages, and these only if a filter compiles. -/
theorem prepare_ask (plain : ∀ path, query = .package path → ¬ c.FilterCompiles compile)
    (unprepared : c.checkNames = none) :
    ((c.prepareWith compile).ask compile query).2 = (c.ask compile query).2 := by
  cases query with
  | check name =>
      simp only [ask, isProactiveCheck_unprepared unprepared]
      rfl
  | package path => simp only [ask, prepare_matchesPackage (plain path rfl)]
  | library className => rfl
  | relative path => rfl
  | catalog => rfl
  | verbose => simp only [ask, prepare_isVerbose]

theorem prepare_answers (unprepared : c.checkNames = none) {queries : List Query} {i : Nat}
    (there : queries[i]? = some query)
    (plain : ∀ path, query = .package path → ¬ c.FilterCompiles compile) :
    ((c.prepareWith compile).answers compile queries)[i]? = (c.answers compile queries)[i]? := by
  induction queries generalizing i with
  | nil => rfl
  | cons first queries ih =>
      cases i with
      | zero =>
          cases there
          simp only [answers, List.getElem?_cons_zero, prepare_ask plain unprepared]
      | succ i =>
          simp only [answers, List.getElem?_cons_succ]
          have later := ih there
          cases first with
          | check name =>
              -- The first check makes both configurations the same.
              have prepared : (c.prepareWith compile).checkNames ≠ none := Option.some_ne_none _
              simp only [ask, isProactiveCheck_unprepared unprepared,
                isProactiveCheck_prepared prepared]
          | _ => exact later

/-- What asking for a check does to a configuration, whatever its history and whatever filters
compile. If the configuration is settled, nothing changes. Else the settings that are empty get
their defaults: the log level, the failure type and how the call graph is computed. The questions
that come later are answered as they would have been, those about packages apart if the filter
compiles and was not prepared. -/
theorem check_query_prepares_once (created : Created compile start) (history : List Event)
    (name : Text) :
    let c := start.after compile history
    let asked := (c.isProactiveCheckWith compile name).1
    (Settled compile start history → asked = c) ∧
    (¬ Settled compile start history → asked.toSettings = { c.toSettings with
      logLevel := if c.logLevel = 0 then LogLevel.info.rank else c.logLevel
      failureType := if c.failureType = [] then Settings.defaultFailureType else c.failureType
      callgraphAnalysis :=
        if c.callgraphAnalysis = [] then Settings.defaultCallgraphAnalysis
        else c.callgraphAnalysis }) ∧
    ∀ (queries : List Query) (i : Nat) (query : Query), queries[i]? = some query →
      (∀ path, query = .package path → Settled compile start history ∨ ¬ c.FilterCompiles compile) →
      (asked.answers compile queries)[i]? = (c.answers compile queries)[i]? := by
  intro c asked
  have prepared : c.checkNames ≠ none ↔ Settled compile start history := created.after_checkNames
  refine ⟨fun settled => isProactiveCheck_prepared (prepared.mpr settled), fun unsettled => ?_, ?_⟩
  · have unprepared := Classical.not_not.mp (mt prepared.mp unsettled)
    simp only [asked, isProactiveCheck_unprepared unprepared, prepareWith, Settings.fillDefaults,
      List.isEmpty_iff]
  · intro queries i query there plain
    by_cases settled : Settled compile start history
    · rw [show asked = c from isProactiveCheck_prepared (prepared.mpr settled)]
    · have unprepared := Classical.not_not.mp (mt prepared.mp settled)
      simp only [asked, isProactiveCheck_unprepared unprepared]
      exact prepare_answers unprepared there fun path same => (plain path same).resolve_left settled

/-- Settings with an unreadable filter, and without a failure type and a log level. -/
def clearedSettings : Settings :=
  { Settings.default with failureType := [], logLevel := 0, pkgFilter := "app(" }

theorem check_query_prepares_once_cleared :
    let compile := Pattern.compile?
    let name : Text := "checkPermission"
    let history : List Event := [.assign clearedSettings, .ask (.package "app(x")]
    let c := Config.default.after compile history
    let asked := (c.isProactiveCheckWith compile name).1
    Created compile Config.default ∧ ¬ Settled compile Config.default history ∧
      asked.failureType = Settings.defaultFailureType ∧ asked.logLevel = LogLevel.info.rank ∧
      (asked.answers compile [.verbose, .package "app(x"])[1]? = some (.truth true) ∧
      (asked.isProactiveCheckWith compile name).1 = asked := by
  intro compile name history c asked
  have created : Created compile Config.default := .default
  have unsettled : ¬ Settled compile Config.default history := by
    rw [← created.after_checkNames]
    exact fun prepared => prepared rfl
  have unreadable : ¬ c.FilterCompiles compile := by
    rintro ⟨_, compiles⟩
    have none : Pattern.compile? (Text.ofString "app(") = none := rfl
    exact compiles none
  obtain ⟨_, filled, same⟩ := check_query_prepares_once created history name
  let later := history ++ [.ask (.check name)]
  have again : Settled compile Config.default later :=
    Or.inr ⟨name, List.mem_append_right _ List.mem_cons_self⟩
  have kept : (asked.isProactiveCheckWith compile name).1 = asked :=
    (check_query_prepares_once created later name).1 again
  have answered : (asked.answers compile [.verbose, .package "app(x"])[1]? =
      some (.truth true) := by
    rw [same _ 1 (.package "app(x") rfl fun _ _ => Or.inr unreadable]
    decide
  exact ⟨created, unsettled, congrArg Settings.failureType (filled unsettled),
    congrArg Settings.logLevel (filled unsettled), answered, kept⟩

/-- Without a failure type, asking for a check is no question only: the failure type is set,
whatever filters compile. -/
theorem check_query_not_pure : ¬ ∃ compile : FilterCompiler,
    ∀ (start : Config) (history : List Event) (name : Text), Created compile start →
      let c := start.after compile history
      let asked := (c.isProactiveCheckWith compile name).1
      asked.toSettings = c.toSettings ∧
        ∀ queries, asked.answers compile queries = c.answers compile queries := by
  rintro ⟨compile, pure⟩
  obtain ⟨same, _⟩ := pure Config.default [.assign clearedSettings]
    (Text.ofString "checkPermission") .default
  have empty : Settings.defaultFailureType = [] := congrArg Settings.failureType same
  exact absurd empty (by decide)

end Config

end PermissionGuard
