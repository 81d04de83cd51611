import GenericC.Compile
import GenericC.Proofs.PairedRuns
import GenericC.Proofs.ReportKinds

/-! Limits on diagnostics and the result of a compilation. Two parses with different limits take the same steps, and if
both would keep their next report, then one reports something exactly if the other does. -/

namespace GenericC

namespace Parse

/-- Two states that differ in their limits only, as far as rules can tell. Either nothing was reported in both and the next
report would be kept, or something was reported in both. -/
structure Twins (first second : ParseState) : Prop extends Alike first second where
  heard : (first.reports = [] ∧ second.reports = [] ∧ first.Hears ∧ second.Hears) ∨
    (first.reports ≠ [] ∧ second.reports ≠ [])

variable {α γ : Type} {first second : ParseState}

theorem Twins.reported (twins : Twins first second) (problem : Diagnostic) :
    Twins (reported problem first) (reported problem second) := by
  have muted : (0 < first.quiet || !first.settings.reporting) = (0 < second.quiet || !second.settings.reporting) := by
    rw [twins.quiet, twins.reporting]
  unfold Parse.reported
  rw [muted]
  split
  · exact twins
  · have full {state : ParseState} (hears : state.Hears) :
        ¬ (state.settings.maxErrors ≠ 0 && state.settings.maxErrors ≤ state.errors + 1) = true := by
      simp only [ne_eq, Bool.and_eq_true, decide_eq_true_eq, not_and]
      exact fun limited => hears.2.resolve_left limited
    rcases twins.heard with ⟨-, -, hears, hears'⟩ | ⟨some, some'⟩
    · rw [if_neg (full hears), if_neg (full hears')]
      exact { twins with heard := .inr ⟨List.cons_ne_nil _ _, List.cons_ne_nil _ _⟩ }
    · split <;> split
      · exact { twins with heard := .inr ⟨some, some'⟩ }
      · exact { twins with heard := .inr ⟨some, List.cons_ne_nil _ _⟩ }
      · exact { twins with heard := .inr ⟨List.cons_ne_nil _ _, some'⟩ }
      · exact { twins with heard := .inr ⟨List.cons_ne_nil _ _, List.cons_ne_nil _ _⟩ }

theorem Twins.markedTooDeep (twins : Twins first second) : Twins (markedTooDeep first) (markedTooDeep second) := by
  unfold Parse.markedTooDeep
  rw [twins.tooDeep]
  split
  · exact twins
  · have problem : depthProblem first = depthProblem second := by
      unfold depthProblem
      rw [twins.place, twins.maxNesting]
    have marked : Twins { first with tooDeep := true, quiet := 0 } { second with tooDeep := true, quiet := 0 } :=
      { twins with quiet := rfl, tooDeep := rfl }
    rw [problem]
    exact { marked.reported (depthProblem second) with quiet := twins.quiet }

theorem Twins.framed : Framed Twins where
  quiet change _ _ twins := { twins with quiet := congrArg change twins.quiet }
  depth change _ _ twins := { twins with depth := congrArg change twins.depth }
  typeParams twins := twins.typeParams
  scopes _ _ _ twins := { twins with typeParams := rfl }
  back twins before := { twins with place := before.place }
  deep twins := ⟨by rw [twins.maxNesting, twins.depth], twins.markedTooDeep⟩

theorem Twins.advance : Matches id Twins Parse.advance Parse.advance := by
  intro first second twins
  rw [advance_apply, advance_apply, twins.place]
  split
  · exact .ok rfl twins
  · split
    · exact .error twins
    · exact .ok rfl { twins with place := rfl }

theorem Twins.closeAngle : Matches id Twins Parse.closeAngle Parse.closeAngle := by
  intro first second twins
  rw [closeAngle_apply, closeAngle_apply, twins.place]
  split
  · exact (Twins.advance twins).bind fun _ _ _ _ _ later => .ok rfl later
  · split
    · exact .ok rfl { twins with place := rfl }
    · exact .ok rfl twins

theorem Round.map_id {α β : Type} : Round.map (id : α → α) (id : β → β) = id := by
  funext round
  cases round <;> rfl

theorem Paired.matchesTwins {names : Bool} {room : Nat} {view : α → γ} {rule mate : Parse α}
    (paired : Paired names room view rule mate) : Matches id Twins rule rule := by
  induction paired with
  | pure => exact fun _ _ twins => .ok rfl twins
  | bind _ _ early rest =>
    intro first second twins
    refine (early twins).bind fun value value' same => ?_
    cases same
    exact rest value value rfl
  | @read room α γ view next follow same rest ih =>
    intro first second twins
    -- Twins are read to go on with one and the same rule.
    show EndsAlike id Twins (next first first) (next second second)
    rw [same twins.toAlike]
    exact ih (.refl second) twins
  | giveUp | exhausted => exact fun _ _ twins => .error twins
  | advance => exact Twins.advance
  | closeAngle => exact Twins.closeAngle
  | @report room problem problem' =>
    intro first second twins
    rw [report_apply, report_apply]
    exact .ok rfl (twins.reported problem)
  | declare name => exact fun _ _ twins => .ok rfl { twins with typeNames := congrArg (name :: ·) twins.typeNames }
  | attempt _ trial => exact Option.map_id ▸ trial.attempt Twins.framed
  | lookahead _ trial => exact trial.lookahead Twins.framed
  | recover _ inner => exact Option.map_id ▸ inner.recover
  | nested _ inner => exact inner.nested Twins.framed
  | withTypeParams paired inner => exact inner.withTypeParams Twins.framed paired.moves
  | @loop room α β γ δ view last start start' round round' begins _ _ ih =>
    intro first second twins
    have rounds (value value' : α) (same : id value = id value') :
        Matches (Round.map id id) Twins (round value) (round value') := by
      cases same
      rw [Round.map_id]
      exact ih value value rfl
    exact Matches.loopWithin rounds (by rw [twins.place]) (Eq.refl (id start)) twins

end Parse

/-- Two parses that would keep their first report read the same program, and report something both or none. -/
theorem parseTokens_alike {first second : ParseSettings} (nesting : first.maxNesting = second.maxNesting)
    (reporting : first.reporting = second.reporting) (file : UInt32) (tokens : List Token)
    (hears : (ParseState.start first file tokens).Hears) (hears' : (ParseState.start second file tokens).Hears) :
    (parseTokens first file tokens).program = (parseTokens second file tokens).program ∧
      ((parseTokens first file tokens).reports = [] ↔ (parseTokens second file tokens).reports = []) := by
  have twins : Parse.Twins (ParseState.start first file tokens) (ParseState.start second file tokens) :=
    { place := rfl, typeNames := rfl, typeParams := rfl, quiet := rfl, depth := rfl, tooDeep := rfl
      maxNesting := nesting, reporting, heard := .inl ⟨rfl, rfl, hears, hears'⟩ }
  have ends := (Parse.decls_composed (first.maxNesting + 1)).matchesTwins twins
  have both {after behind : ParseState} (later : Parse.Twins after behind) :
      after.reports.reverse = [] ↔ behind.reports.reverse = [] := by
    rw [List.reverse_eq_nil_iff, List.reverse_eq_nil_iff]
    rcases later.heard with ⟨none, none', -⟩ | ⟨some, some'⟩
    · exact iff_of_true none none'
    · exact iff_of_false some some'
  unfold parseTokens
  rw [← nesting]
  generalize Parse.decls (first.maxNesting + 1) (.start first file tokens) = begun,
    Parse.decls (first.maxNesting + 1) (.start second file tokens) = other at ends ⊢
  cases ends with
  | ok same later => exact ⟨congrArg (Program.mk file) same, both later⟩
  | error later => exact ⟨rfl, both later⟩

namespace Bag

theorem hasErrors_reportAll_empty (limit : Int) {errors remarks : List Diagnostic}
    (wrong : ∀ report ∈ errors, report.severity = .error) (harmless : ∀ report ∈ remarks, report.severity = .warning) :
    ((empty limit).reportAll (errors ++ remarks)).hasErrors = !errors.isEmpty := by
  have items := (reportAll_keeps (empty limit) (errors ++ remarks)).2
  rw [hasErrors, items]
  show ((errors ++ remarks).take (empty limit).limit).any (·.isError) = _
  cases errors with
  | nil =>
    rw [List.nil_append, List.isEmpty_nil, Bool.not_true, List.any_eq_false]
    intro report member
    rw [Diagnostic.isError, harmless report (List.mem_of_mem_take member)]
    decide
  | cons first rest =>
    obtain ⟨room, same⟩ := Nat.exists_eq_succ_of_ne_zero (Nat.ne_of_gt (limit_empty_pos limit))
    rw [same, List.cons_append, List.take_succ_cons, List.any_cons, Diagnostic.isError, wrong first List.mem_cons_self]
    rfl

end Bag

structure Verdict where
  output : Option Text := none
  header : Option Text := none
  structs : Nat := 0
  funcs : Nat := 0
  failed : Bool
deriving DecidableEq

def CompileResult.verdict (result : CompileResult) : Verdict :=
  { output := result.output, header := result.header, structs := result.structs, funcs := result.funcs
    failed := result.failed }

/-- What a parsed file leads to: nothing if something was reported, and otherwise C. -/
def CompileSettings.verdictOn (settings : CompileSettings) (path : Text) (parsed : Parsed) : Verdict :=
  if parsed.reports.isEmpty then
    let prepared := prepare parsed.program settings.depth
    let emitter : Emitter := ⟨parsed.program, prepared.insts, settings.emit⟩
    { output := some emitter.emit.text
      header := if settings.header then some (emitter.emitHeader (settings.guardFor path)).text else none
      structs := prepared.insts.structs.size
      funcs := prepared.insts.funcs.size
      failed := !prepared.reports.isEmpty }
  else { failed := true }

namespace CompileSettings

theorem verdictOn_clean (settings : CompileSettings) (path : Text) {parsed : Parsed} (clean : parsed.reports.isEmpty = true) :
    (settings.verdictOn path parsed).output.isSome = true ∧
      (settings.verdictOn path parsed).failed = !(prepare parsed.program settings.depth).reports.isEmpty := by
  rw [verdictOn, if_pos clean]
  exact ⟨rfl, rfl⟩

theorem verdictOn_faulty (settings : CompileSettings) (path : Text) {parsed : Parsed}
    (faulty : parsed.reports.isEmpty = false) : settings.verdictOn path parsed = { failed := true } :=
  if_neg (ne_true_of_eq_false faulty)

end CompileSettings

theorem CompileResult.verdict_finish (result : CompileResult) (settings : CompileSettings) (path : Text)
    (clock : Text → Nat) (phases : List Text) :
    (result.finish settings path clock phases).verdict = result.verdict := by
  have same := Bag.hasErrors_sort_dedup result.bag
  unfold finish verdict failed
  dsimp only
  split
  · rw [Bag.hasErrors_append rfl, same]
  · rw [same]

theorem CompileResult.verdict_finish_filled {result : CompileResult} (limit : Int) {errors remarks : List Diagnostic}
    (filled : result.bag = (Bag.empty limit).reportAll (errors ++ remarks))
    (wrong : ∀ report ∈ errors, report.severity = .error) (harmless : ∀ report ∈ remarks, report.severity = .warning)
    {settings : CompileSettings} {path : Text} {clock : Text → Nat} {phases : List Text} :
    (result.finish settings path clock phases).verdict = { result.verdict with failed := !errors.isEmpty } := by
  have failed : result.failed = !errors.isEmpty := by
    rw [CompileResult.failed, filled]
    exact Bag.hasErrors_reportAll_empty limit wrong harmless
  rw [verdict_finish, verdict, failed]

theorem compileFile_verdict (settings : CompileSettings) (number : UInt32) (file : SourceFile) (clock : Text → Nat) :
    (compileFile settings number file clock).verdict =
      settings.verdictOn file.path (parseFile settings.parse number file.content) := by
  have errors := parseFile_errors settings.parse number file.content
  unfold compileFile CompileSettings.verdictOn
  generalize parseFile settings.parse number file.content = parsed at errors ⊢
  have failed : ((Bag.empty settings.maxDiagnostics).reportAll parsed.reports).hasErrors = !parsed.reports.isEmpty := by
    have := Bag.hasErrors_reportAll_empty settings.maxDiagnostics errors (List.forall_mem_nil _)
    rwa [List.append_nil] at this
  dsimp only
  rw [failed]
  cases quiet : parsed.reports.isEmpty with
  | false =>
    rw [Bool.not_false, if_pos rfl, if_neg Bool.false_ne_true, CompileResult.verdict_finish, CompileResult.verdict,
      CompileResult.failed, failed, quiet]
    rfl
  | true =>
    rw [Bool.not_true, if_neg Bool.false_ne_true, if_pos rfl, List.isEmpty_iff.mp quiet]
    -- From here on the bag is filled with errors about uses first, and then with remarks.
    generalize passed : prepare parsed.program settings.depth = prepared
    have wrong : ∀ report ∈ prepared.reports, report.severity = .error := by
      obtain ⟨walk, result, sound, -⟩ := prepare_walk parsed.program settings.depth
      rw [← passed, result]
      exact fun report member => sound.errors report (List.mem_reverse.mp member)
    have fitting : Emitter.Fitting ⟨parsed.program, prepared.insts, settings.emit⟩ := by
      rw [← passed]
      exact Emitter.fitting_prepare _ _ _
    split
    next wanted =>
      have harmless := List.forall_mem_append.mpr
        ⟨fitting.emit_remark, fitting.emitHeader_remark (settings.guardFor file.path)⟩
      refine CompileResult.verdict_finish_filled settings.maxDiagnostics ?_ wrong harmless
      exact (Bag.reportAll_append _ _ _).trans (Bag.reportAll_append _ _ _)
    next => exact CompileResult.verdict_finish_filled settings.maxDiagnostics (Bag.reportAll_append _ _ _) wrong fitting.emit_remark

/-- The parser counts an error before it looks at its limit, so that a limit of one keeps nothing. -/
theorem hears_iff (settings : CompileSettings) (file : UInt32) (tokens : List Token) :
    (ParseState.start settings.parse file tokens).Hears ↔ settings.parse.maxErrors ≠ 1 := by
  unfold ParseState.Hears
  show true = true ∧ (settings.parse.maxErrors = 0 ∨ ¬ settings.parse.maxErrors ≤ 0 + 1) ↔ settings.parse.maxErrors ≠ 1
  generalize settings.parse.maxErrors = limit
  rw [← UInt64.toNat_inj, ne_eq, ← UInt64.toNat_inj, UInt64.le_iff_toNat_le]
  show true = true ∧ (limit.toNat = 0 ∨ ¬ limit.toNat ≤ 1) ↔ ¬ limit.toNat = 1
  rw [eq_self, true_and]
  omega

theorem parseFile_alike {first second : CompileSettings} (hears : first.parse.maxErrors ≠ 1)
    (hears' : second.parse.maxErrors ≠ 1) (number : UInt32) (content : Text) :
    (parseFile first.parse number content).program = (parseFile second.parse number content).program ∧
      (parseFile first.parse number content).reports.isEmpty = (parseFile second.parse number content).reports.isEmpty := by
  obtain ⟨program, reports⟩ := @parseTokens_alike first.parse second.parse rfl rfl number (tokenize number content).1
    ((hears_iff first _ _).mpr hears) ((hears_iff second _ _).mpr hears')
  refine ⟨program, ?_⟩
  rw [Bool.eq_iff_iff, List.isEmpty_iff, List.isEmpty_iff]
  show (tokenize number content).2 ++ (parseTokens first.parse number (tokenize number content).1).reports = [] ↔
    (tokenize number content).2 ++ (parseTokens second.parse number (tokenize number content).1).reports = []
  rw [List.append_eq_nil_iff, List.append_eq_nil_iff, reports]

theorem verdictOn_congr {first second : CompileSettings} (depth : first.maxDepth = second.maxDepth)
    (emit : first.emit = second.emit) (header : first.header = second.header) (guard : first.guard = second.guard)
    (path : Text) {parsed other : Parsed} (program : parsed.program = other.program)
    (reports : parsed.reports.isEmpty = other.reports.isEmpty) :
    first.verdictOn path parsed = second.verdictOn path other := by
  unfold CompileSettings.verdictOn CompileSettings.depth CompileSettings.guardFor
  rw [depth, emit, header, guard, program, reports]

/-- What a compilation yields does not depend on the limit on diagnostics and on timings, unless one of the limits is
one and the other is not. -/
theorem limit_leaves_verdict (settings : CompileSettings) (limit other : Int) (timings timed : Bool)
    (clock watch : Text → Nat) (number : UInt32) (file : SourceFile) :
    let first := { settings with maxDiagnostics := limit, timings := timings }
    let second := { settings with maxDiagnostics := other, timings := timed }
    let result := compileFile first number file clock
    ((first.parse.maxErrors = 1 ↔ second.parse.maxErrors = 1) →
        result.verdict = (compileFile second number file watch).verdict) ∧
      ((tokenize number file.content).2 ≠ [] → result.verdict = { failed := true }) ∧
      (first.parse.maxErrors ≠ 1 → (parseFile {} number file.content).reports ≠ [] →
        result.verdict = { failed := true }) := by
  intro first second result
  have verdict : result.verdict = first.verdictOn file.path (parseFile first.parse number file.content) :=
    compileFile_verdict first number file clock
  refine ⟨fun alike => ?_, fun problems => ?_, fun hears problems => ?_⟩
  · rw [verdict, compileFile_verdict]
    by_cases one : first.parse.maxErrors = 1
    · have same : first.parse = second.parse := by
        have two := alike.mp one
        unfold CompileSettings.parse at one two ⊢
        rw [ParseSettings.mk.injEq]
        exact ⟨one.trans two.symm, rfl, rfl, rfl⟩
      rw [same]
      exact verdictOn_congr rfl rfl rfl rfl file.path rfl rfl
    · obtain ⟨program, reports⟩ := parseFile_alike one (fun two => one (alike.mpr two)) number file.content
      exact verdictOn_congr rfl rfl rfl rfl file.path program reports
  · have some : (parseFile first.parse number file.content).reports.isEmpty = false := by
      rw [List.isEmpty_eq_false_iff]
      exact List.append_ne_nil_of_left_ne_nil problems _
    exact verdict.trans (CompileSettings.verdictOn_faulty _ _ some)
  · have some : (parseFile first.parse number file.content).reports.isEmpty = false := by
      rw [(@parseFile_alike first {} hears (by decide) number file.content).2, List.isEmpty_eq_false_iff]
      exact problems
    exact verdict.trans (CompileSettings.verdictOn_faulty _ _ some)

def missingValue : SourceFile := { path := "missing.c", content := "int a; int x = ;" }

private theorem missingValue_run :
    (parseFile { maxErrors := 1 } 0 missingValue.content).reports.isEmpty = true ∧
      (parseFile {} 0 missingValue.content).reports.isEmpty = false ∧
      (prepare (parseFile { maxErrors := 1 } 0 missingValue.content).program 64).reports.isEmpty = true := by
  refine ⟨?_, ?_, prepare_within _ _ (·.reports.isEmpty) 1 ?_⟩
  · decide +kernel
  · decide +kernel
  · decide +kernel

/-- With a limit of one an error of grammar goes unnoticed, and C is written; with any other limit it ends the
compilation. -/
theorem missingValue_unnoticed :
    let quiet := compileFile { maxDiagnostics := 1 } 0 missingValue
    let usual := compileFile {} 0 missingValue
    quiet.verdict.output.isSome = true ∧ quiet.verdict.failed = false ∧ usual.verdict = { failed := true } := by
  intro quiet usual
  obtain ⟨clean, wrong, prepared⟩ := missingValue_run
  have noticed : usual.verdict = _ := compileFile_verdict {} 0 missingValue _
  have unnoticed : quiet.verdict = _ := compileFile_verdict { maxDiagnostics := 1 } 0 missingValue _
  obtain ⟨output, failed⟩ := CompileSettings.verdictOn_clean { maxDiagnostics := 1 } missingValue.path clean
  rw [noticed, unnoticed]
  exact ⟨output, failed.trans (congrArg (!·) prepared), CompileSettings.verdictOn_faulty _ _ wrong⟩

theorem missingValue_noticed_at_two :
    let strict := compileFile { maxDiagnostics := 2, timings := true } 0 missingValue
    (parseFile {} 0 missingValue.content).reports ≠ [] ∧ strict.verdict = { failed := true } ∧
      strict.verdict = (compileFile {} 0 missingValue).verdict := by
  intro strict
  have wrong := List.isEmpty_eq_false_iff.mp missingValue_run.2.1
  obtain ⟨same, -, faulty⟩ := limit_leaves_verdict {} 2 0 true false (fun _ => 0) (fun _ => 0) 0 missingValue
  exact ⟨wrong, faulty (by decide) wrong, same (by decide)⟩

end GenericC
