import PermissionGuard.Misuse.Report
import PermissionGuard.Proofs.Misuse.Collection
import PermissionGuard.Proofs.Ordered
import PermissionGuard.Proofs.Program.Renumbering
import PermissionGuard.Proofs.Propagation.Simulation

/-!
Numbers do not show in a report. Searches in renumbered programs agree in both directions, so
corresponding calls are recorded, and where signatures tell the methods apart a report lists them in
the same order.
-/

namespace PermissionGuard

open Program Collector Propagator

variable {a b : Arena} {steps steps' : List BuildStep} {same : MethodId → MethodId → Prop}
variable {s s' : StmtId} {m m' : MethodId} {config : Config} {catalog : Catalog}

namespace Program.Renumbered

/-- A handler around a statement is around its counterpart. -/
theorem caughtAt (renumbered : a.toProgram.Renumbered b.toProgram same)
    (corresponds : a.toProgram.SameStatement b.toProgram same s s') (type : Text)
    (caught : a.caughtAt type s (a.enclosing s) = true) :
    b.caughtAt type s' (b.enclosing s') = true := by
  obtain ⟨st, st', found, found', inMethods, index⟩ := corresponds
  obtain ⟨method, method', known, known', alike⟩ := renumbered.method inMethods
  simp only [Arena.caughtAt, Arena.enclosing, Arena.traps, found, found', known, known',
    Option.map_some, Option.getD_some, beq_self_eq_true, Bool.true_and, ← index, alike.traps,
    renumbered.hierarchy] at caught ⊢
  exact caught

theorem isCheckCall (renumbered : a.toProgram.Renumbered b.toProgram same)
    (corresponds : a.toProgram.SameStatement b.toProgram same s s') :
    (Detector.ofConfig b.model config).isCheckCall s' =
      (Detector.ofConfig a.model config).isCheckCall s := by
  obtain ⟨st, st', found, found', inMethods, index⟩ := corresponds
  have alike := renumbered.statement found found' inMethods index
  simp only [Detector.isCheckCall, Detector.ofConfig, Arena.model, found, found', alike.target]

/-- A check on every way to a statement is on every way to its counterpart. -/
theorem proactivelyChecked (built : a.BuiltBy steps) (built' : b.BuiltBy steps')
    (renumbered : a.toProgram.Renumbered b.toProgram same)
    (corresponds : a.toProgram.SameStatement b.toProgram same s s')
    (checked : (Detector.ofConfig a.model config).proactivelyChecked s (a.enclosing s) = true) :
    (Detector.ofConfig b.model config).proactivelyChecked s' (b.enclosing s') = true := by
  obtain ⟨st, st', found, found', inMethods, index⟩ := corresponds
  obtain ⟨method, known, position⟩ := built.wellFormed.placed found
  obtain ⟨method', known', position'⟩ := built'.wellFormed.placed found'
  have enclosing : a.enclosing s = st.method := by simp [Arena.enclosing, found]
  have enclosing' : b.enclosing s' = st'.method := by simp [Arena.enclosing, found']
  have list := built.builtWith.dominatorsOf_eq known position
  have list' := built'.builtWith.dominatorsOf_eq known' position'
  rw [Program.dominatingPositions?] at list list'
  rw [renumbered.flowGraph built.wellFormed built'.wellFormed inMethods known known', ← index,
    (renumbered.alike inMethods known known').size] at list'
  simp only [Detector.proactivelyChecked, List.any_eq_true] at checked ⊢
  obtain ⟨t, member, isCheck⟩ := checked
  have dominator : t ∈ a.dominatorsOf s st.method := enclosing ▸ member
  rw [list] at dominator
  obtain ⟨i, isPosition, inBody⟩ := List.mem_filterMap.mp dominator
  obtain ⟨t', inBody'⟩ := renumbered.position inMethods known known' inBody
  have counterpart : a.toProgram.SameStatement b.toProgram same t t' :=
    Renumbered.sameStatement built.wellFormed built'.wellFormed inMethods known known' inBody
      inBody'
  refine ⟨t', ?_, (renumbered.isCheckCall counterpart).trans isCheck⟩
  change t' ∈ b.dominatorsOf s' (b.enclosing s')
  rw [enclosing', list']
  exact List.mem_filterMap.mpr ⟨i, isPosition, inBody'⟩

theorem keeps_guard (built : a.BuiltBy steps) (built' : b.BuiltBy steps')
    (renumbered : a.toProgram.Renumbered b.toProgram same)
    (corresponds : a.toProgram.SameStatement b.toProgram same s s')
    (found : ((Detector.ofConfig a.model config).guard? s (a.enclosing s)).isSome) :
    ((Detector.ofConfig b.model config).guard? s' (b.enclosing s')).isSome := by
  rw [Detector.guard?_isSome] at found ⊢
  rcases found with caught | checked
  · exact Or.inl (renumbered.caughtAt corresponds config.failureType caught)
  · exact Or.inr (renumbered.proactivelyChecked built built' corresponds checked)

/-- Corresponding statements are called from corresponding statements. -/
theorem callersAt (built : a.BuiltBy steps) (built' : b.BuiltBy steps')
    (renumbered : a.toProgram.Renumbered b.toProgram same)
    (corresponds : a.toProgram.SameStatement b.toProgram same s s') {c : StmtId}
    (caller : c ∈ a.callersOf (a.enclosing s)) :
    ∃ c' ∈ b.callersOf (b.enclosing s'), a.toProgram.SameStatement b.toProgram same c c' := by
  obtain ⟨st, st', found, found', inMethods, _⟩ := corresponds
  obtain ⟨method, method', known, known', _⟩ := renumbered.method inMethods
  have enclosing : a.enclosing s = st.method := by simp [Arena.enclosing, found]
  have enclosing' : b.enclosing s' = st'.method := by simp [Arena.enclosing, found']
  rw [enclosing, built.mem_callersOf known] at caller
  cases calls : a.statement? c with
  | none => simp [Program.callees, calls] at caller
  | some ct =>
      obtain ⟨c', counterpart⟩ := renumbered.counterpart built.wellFormed built'.wellFormed calls
      refine ⟨c', ?_, counterpart⟩
      rw [enclosing', built'.mem_callersOf known']
      exact (renumbered.callees counterpart inMethods).mp caller

theorem simulates (built : a.BuiltBy steps) (built' : b.BuiltBy steps')
    (renumbered : a.toProgram.Renumbered b.toProgram same) (config : Config) (mode : Bool) :
    Simulates ⟨a.model, .ofConfig a.model config, mode⟩ ⟨b.model, .ofConfig b.model config, mode⟩
      (a.toProgram.SameStatement b.toProgram same) where
  keeps_guard corresponds found := renumbered.keeps_guard built built' corresponds found
  keeps_invocation corresponds invocation :=
    (renumbered.isInvoke corresponds).trans invocation
  forth corresponds c caller := renumbered.callersAt built built' corresponds caller
  back corresponds c' caller' := by
    obtain ⟨c, caller, counterpart⟩ :=
      renumbered.symm.callersAt built' built corresponds.symm caller'
    exact ⟨c, caller, counterpart.symm⟩
  unique := renumbered.sameStatement_unique built.wellFormed built'.wellFormed

end Program.Renumbered

/-! ### Reports -/

/-- What a report tells about the misuses of a program. -/
def reportItems (a : Arena) (catalog : Catalog) (config : Config) : List Report.Item :=
  (Misuse.analyze a.model catalog config).1.map (Report.item a.model)

/-- Different methods have different signature keys. -/
def Program.KeysDistinct (p : Program) : Prop :=
  ∀ {m m' method method'}, p.method? m = some method → p.method? m' = some method' →
    method.sig.key = method'.sig.key → m = m'

/-- The order of items: by the key of the calling method, then by position. -/
def Report.Item.Before (item item' : Report.Item) : Prop :=
  item.method < item'.method ∨ item.method = item'.method ∧ item.index < item'.index

theorem Report.Item.before_asymm (item item' : Report.Item) (before : item.Before item') :
    ¬ item'.Before item := by
  rintro (less | ⟨key, less⟩)
  · rcases before with greater | ⟨key, _⟩
    · exact List.lt_asymm less greater
    · exact List.lt_irrefl _ (key ▸ less)
  · rcases before with greater | ⟨_, greater⟩
    · exact List.lt_irrefl _ (key ▸ greater)
    · omega

theorem mem_reportItems {item : Report.Item} :
    item ∈ reportItems a catalog config ↔
      ∃ r, SensitiveCall a catalog config r.method r.stmt r.sensitive ∧
        (Propagator.check ⟨a.model, .ofConfig a.model config, config.branchLocalHistory⟩ r.stmt
          r.method {}).1 = false ∧ Report.item a.model r = item := by
  simp only [reportItems, List.mem_map]
  constructor
  · rintro ⟨r, member, same⟩
    obtain ⟨call, refused⟩ := mem_collect_ofArena.mp member
    exact ⟨r, call, refused, same⟩
  · rintro ⟨r, call, refused, same⟩
    exact ⟨r, mem_collect_ofArena.mpr ⟨call, refused⟩, same⟩

/-- Where signature keys tell the methods apart, method numbers do not order a report. -/
theorem reportItems_ordered (built : a.BuiltBy steps) (distinct : a.toProgram.KeysDistinct) :
    (reportItems a catalog config).Pairwise Report.Item.Before := by
  have increasing : (Misuse.analyze a.model catalog config).1.Pairwise _ :=
    collect_increasing built {}
  rw [reportItems, List.pairwise_map]
  refine List.Pairwise.imp_of_mem ?_ increasing
  intro r r' member member' before
  obtain ⟨call, _⟩ := mem_collect_ofArena.mp member
  obtain ⟨call', _⟩ := mem_collect_ofArena.mp member'
  obtain ⟨method, known, _⟩ := call.inApplication
  obtain ⟨method', known', _⟩ := call'.inApplication
  rcases before with key | ⟨key, number | ⟨_, index⟩⟩
  · exact Or.inl key
  · have sameKey : method.sig.key = method'.sig.key := by
      simpa [place, ofArena, Model.methodName, Arena.model, known, known'] using key
    have less : r.method < r'.method := number
    exact absurd (distinct known known' sameKey) (Int.ne_of_lt less)
  · exact Or.inr ⟨key, index⟩

namespace Program.Renumbered

theorem sensitiveCall (built : a.BuiltBy steps) (built' : b.BuiltBy steps')
    (renumbered : a.toProgram.Renumbered b.toProgram same) {entry : SensitiveMethod}
    (call : SensitiveCall a catalog config m s entry) :
    ∃ m' s', same m m' ∧ a.toProgram.SameStatement b.toProgram same s s' ∧
      SensitiveCall b catalog config m' s' entry := by
  obtain ⟨method, known, concrete, library, noPrefix, inBody⟩ := call.inApplication
  obtain ⟨st, target, found, isTarget, inCatalog⟩ := call.found
  obtain ⟨m', related⟩ := renumbered.forth known
  obtain ⟨_, method', _, known', _⟩ := renumbered.method related
  have alike := renumbered.alike related known known'
  obtain ⟨i, position⟩ := List.getElem?_of_mem inBody
  obtain ⟨s', position'⟩ := renumbered.position related known known' position
  have corresponds : a.toProgram.SameStatement b.toProgram same s s' :=
    Renumbered.sameStatement built.wellFormed built'.wellFormed related known known' position
      position'
  refine ⟨m', s', related, corresponds, ?_⟩
  constructor
  case reachable =>
    have reachable := call.reachable
    rw [built.eq_self] at reachable
    rw [built'.eq_self]
    exact renumbered.reachable built.wellFormed built'.wellFormed related reachable
  case inApplication =>
    refine ⟨method', known', alike.concrete.trans concrete, alike.library.trans library, ?_,
      List.mem_of_getElem? position'⟩
    rw [alike.sig]
    exact noPrefix
  case found =>
    obtain ⟨_, st', again, found', inMethods, index⟩ := corresponds
    cases found.symm.trans again
    have alike := renumbered.statement found found' inMethods index
    exact ⟨st', target, found', alike.target.trans isTarget, inCatalog⟩

theorem item (renumbered : a.toProgram.Renumbered b.toProgram same) (related : same m m')
    (corresponds : a.toProgram.SameStatement b.toProgram same s s') (entry : SensitiveMethod) :
    Report.item b.model ⟨s', m', entry⟩ = Report.item a.model ⟨s, m, entry⟩ := by
  obtain ⟨method, method', known, known', alike⟩ := renumbered.method related
  obtain ⟨st, st', found, found', inMethods, index⟩ := corresponds
  have sameLine := (renumbered.statement found found' inMethods index).line
  simp [Report.item, Model.methodName, Arena.model, known, known', alike.sig, found, found',
    index, sameLine]

/-- A misuse of one program stands in the report of the other. -/
theorem reportItems_subset (built : a.BuiltBy steps) (built' : b.BuiltBy steps')
    (renumbered : a.toProgram.Renumbered b.toProgram same) {item : Report.Item}
    (member : item ∈ reportItems a catalog config) : item ∈ reportItems b catalog config := by
  obtain ⟨⟨s, m, entry⟩, call, refused, rfl⟩ := mem_reportItems.mp member
  obtain ⟨m', s', related, corresponds, call'⟩ := renumbered.sensitiveCall built built' call
  refine mem_reportItems.mpr ⟨⟨s', m', entry⟩, call', ?_,
    renumbered.item related corresponds entry⟩
  have enclosing {a : Arena} {steps : List BuildStep} {m : MethodId} {s : StmtId}
      (built : a.BuiltBy steps) (call : SensitiveCall a catalog config m s entry) :
      a.enclosing s = m := by
    obtain ⟨method, known, _, _, _, inBody⟩ := call.inApplication
    exact built.enclosing_eq known inBody
  rw [← enclosing built call, Bool.eq_false_iff] at refused
  rw [← enclosing built' call', Bool.eq_false_iff]
  intro accepted
  exact refused ((renumbered.symm.simulates built' built config _).check b.model_enumerated
    a.model_enumerated built'.callersOf_nodup built.callersOf_nodup corresponds.symm accepted)

theorem reportItems_eq (built : a.BuiltBy steps) (built' : b.BuiltBy steps')
    (renumbered : a.toProgram.Renumbered b.toProgram same)
    (distinct : a.toProgram.KeysDistinct) (distinct' : b.toProgram.KeysDistinct)
    (catalog : Catalog) (config : Config) :
    reportItems a catalog config = reportItems b catalog config :=
  eq_of_pairwise_of_mem Report.Item.before_asymm (reportItems_ordered built distinct)
    (reportItems_ordered built' distinct') fun _ =>
      ⟨renumbered.reportItems_subset built built', renumbered.symm.reportItems_subset built' built⟩

end Program.Renumbered

end PermissionGuard
