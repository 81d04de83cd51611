import GenericC.Proofs.DiagnosticBags
import GenericC.Proofs.EmittedReferences
import GenericC.Proofs.GrammarComposition

/-! Which parts of the compiler report errors, and which report warnings. Spelling, grammar and the use of generics lead
to errors. What is written from instantiations that fit their declarations leads to warnings only. -/

namespace GenericC

namespace Lexer

theorem leading_errors (lexer : Lexer) : ∀ report ∈ lexer.leading.problems, report.severity = .error := by
  fun_induction leading lexer with
  | case1 => simp
  | case2 lexer piece _ more ih =>
    refine List.forall_mem_append.mpr ⟨?_, ih⟩
    unfold triviaProblems
    split
    · simp
    · exact List.forall_mem_singleton.mpr rfl

theorem significant_errors (lexer : Lexer) (trivia : List Trivia) :
    ∀ report ∈ (lexer.significant trivia).problems, report.severity = .error := by
  unfold significant
  split
  · simp
  next b tail _ =>
    dsimp only
    cases (Lexeme.scan lexer.lineStart b tail).problem with
    | none =>
      split
      · exact List.forall_mem_singleton.mpr rfl
      · simp
    | some found =>
      have scanned : ∀ report ∈ [Diagnostic.ofError found.1
          (lexer.span (Lexeme.scan lexer.lineStart b tail).length) found.2], report.severity = .error :=
        List.forall_mem_singleton.mpr rfl
      split
      · exact List.forall_mem_append.mpr ⟨scanned, List.forall_mem_singleton.mpr rfl⟩
      · exact scanned

theorem run_errors (lexer : Lexer) : ∀ report ∈ lexer.run.2, report.severity = .error := by
  have step (lexer : Lexer) : ∀ report ∈ lexer.step.problems, report.severity = .error :=
    List.forall_mem_append.mpr ⟨leading_errors _, significant_errors _ _⟩
  fun_induction run lexer with
  | case1 lexer => exact step lexer
  | case2 lexer _ _ _ ih => exact List.forall_mem_append.mpr ⟨step lexer, ih⟩

end Lexer

theorem parseTokens_errors (settings : ParseSettings) (file : UInt32) (tokens : List Token) :
    ∀ report ∈ (parseTokens settings file tokens).reports, report.severity = .error := by
  have moves := (Parse.decls_composed (settings.maxNesting + 1)).moves (.start settings file tokens)
  have new {after : ParseState} (moves : Parse.Moves (.start settings file tokens) after) :
      ∀ report ∈ after.reports.reverse, report.severity = .error := fun report member =>
    (moves.reports report (List.mem_reverse.mp member)).resolve_left List.not_mem_nil
  unfold parseTokens
  split
  next result =>
    rw [result] at moves
    exact new moves
  next result =>
    rw [result] at moves
    exact new moves

theorem parseFile_errors (settings : ParseSettings) (file : UInt32) (content : Text) :
    ∀ report ∈ (parseFile settings file content).reports, report.severity = .error := by
  refine List.forall_mem_append.mpr ⟨?_, parseTokens_errors settings file _⟩
  split
  · exact Lexer.run_errors _
  · simp

theorem Printer.renderProblem?_remark {printer : Printer} {type : TypeExpr} {report : Diagnostic}
    (found : printer.renderProblem? type = some report) : report.severity = .warning := by
  fun_induction Printer.renderProblem? printer type with
  | case1 elem _ ih => exact ih found
  | case2 | case5 => cases found
  | case3 | case4 =>
    cases found
    rfl

theorem Printer.problems_remark (printer : Printer) (tree : Node) : ∀ report ∈ printer.problems tree, report.severity = .warning := by
  intro report member
  obtain ⟨type, -, found⟩ := List.mem_filterMap.mp member
  exact renderProblem?_remark found

namespace Emitter

variable {emitter : Emitter}

/-- Every instantiation has as many arguments as its declaration has parameters. -/
structure Fitting (emitter : Emitter) : Prop where
  valid : emitter.insts.structs.Valid
  structs : ∀ entry ∈ emitter.insts.structs.entries, emitter.index.Fits .struct entry.genericName entry.typeArgs
  funcs : ∀ entry ∈ emitter.insts.funcs.entries, emitter.index.Fits .func entry.genericName entry.typeArgs

theorem fitting_prepare (program : Program) (maxDepth : Nat) (settings : EmitSettings) :
    Fitting ⟨program, (prepare program maxDepth).insts, settings⟩ := by
  obtain ⟨walk, result, sound, -⟩ := prepare_walk program maxDepth
  rw [result]
  have fits (kind : InstKind) : ∀ entry ∈ (walk.insts.registry kind).entries,
      (Index.ofProgram program).Fits kind entry.genericName entry.typeArgs := fun entry member =>
    (sound.needed kind _ (List.mem_map_of_mem member)).fits
  exact ⟨sound.valid .struct, fits .struct, fits .func⟩

theorem danglingReport_remark (inst : Instantiation) : (danglingReport inst).severity = .warning := rfl

theorem Fitting.structs_remark (fitting : emitter.Fitting) : ∀ report ∈ emitter.structs.reports, report.severity = .warning := by
  refine List.forall_mem_append.mpr ⟨List.forall_mem_map.mpr fun inst _ => danglingReport_remark inst, ?_⟩
  intro report member
  obtain ⟨piece, found, member⟩ := List.mem_flatMap.mp member
  obtain ⟨inst, placed, written⟩ := List.mem_filterMap.mp found
  have known := (StructOrder.mem_placed_ofRegistry fitting.valid).mp (List.mem_reverse.mp placed)
  unfold structPiece at written
  split at written
  · cases written
  next decl declared =>
    split at written
    · cases written
    · have fits : decl.typeParams.length = inst.typeArgs.length := by
        have declared : emitter.index.struct? inst.genericName = some decl := declared
        simpa [Index.Fits, Index.paramsOf, declared] using fitting.structs inst known.1
      rw [Walk.arityError?_eq_none.mpr fits] at written
      cases written
      exact Printer.problems_remark _ _ report member

theorem Fitting.specialized_remark (fitting : emitter.Fitting) {inst : Instantiation} {report : Diagnostic}
    (known : inst ∈ emitter.insts.funcs.entries) (wrong : specialized emitter.index inst = .error report) :
    report.severity = .warning := by
  unfold specialized at wrong
  split at wrong
  · cases wrong
    exact danglingReport_remark inst
  next decl declared =>
    have fits : decl.typeParams.length = inst.typeArgs.length := by
      simpa [Index.Fits, Index.paramsOf, declared] using fitting.funcs inst known
    rw [Walk.arityError?_eq_none.mpr fits] at wrong
    cases wrong

theorem Fitting.funcs_remark (fitting : emitter.Fitting) (bodies : Bool) :
    ∀ report ∈ (emitter.funcs bodies).reports, report.severity = .warning := by
  refine List.forall_mem_append.mpr ⟨List.forall_mem_append.mpr ⟨?_, ?_⟩, ?_⟩
  · intro report member
    obtain ⟨result, found, wrong⟩ := List.mem_filterMap.mp member
    obtain ⟨inst, known, rfl⟩ := List.mem_map.mp found
    split at wrong
    next problem same =>
      cases wrong
      exact fitting.specialized_remark (List.mem_reverse.mp known) same
    · cases wrong
  · intro report member
    obtain ⟨piece, found, member⟩ := List.mem_flatMap.mp member
    obtain ⟨func, -, rfl⟩ := List.mem_map.mp found
    exact Printer.problems_remark _ _ report member
  · intro report member
    obtain ⟨piece, found, member⟩ := List.mem_flatMap.mp member
    split at found
    · obtain ⟨func, -, written⟩ := List.mem_filterMap.mp found
      obtain ⟨body, -, rfl⟩ := Option.map_eq_some_iff.mp written
      exact Printer.problems_remark _ _ report member
    · cases found

theorem declPieces_remark (printer : Printer) (decls : List Decl) :
    ∀ report ∈ (decls.map (declPiece printer)).flatMap (·.reports), report.severity = .warning := by
  intro report member
  obtain ⟨piece, found, member⟩ := List.mem_flatMap.mp member
  obtain ⟨decl, -, rfl⟩ := List.mem_map.mp found
  unfold declPiece at member
  split at member
  · cases member
  · exact Printer.problems_remark _ _ report member

theorem declared_remark (piece? : Printer → Decl → Option Piece)
    (checked : ∀ printer decl piece, piece? printer decl = some piece → ∃ tree, piece.reports = printer.problems tree) :
    ∀ report ∈ (emitter.declared piece?).reports, report.severity = .warning := by
  intro report member
  obtain ⟨piece, found, member⟩ := List.mem_flatMap.mp member
  obtain ⟨decl, -, written⟩ := List.mem_filterMap.mp found
  obtain ⟨tree, same⟩ := checked _ decl piece written
  rw [same] at member
  exact Printer.problems_remark _ tree report member

theorem prototype?_checked (printer : Printer) (decl : Decl) (piece : Piece) (written : prototype? printer decl = some piece) :
    ∃ tree, piece.reports = printer.problems tree := by
  unfold prototype? at written
  split at written
  · split at written
    · cases written
    · cases written
      exact ⟨_, rfl⟩
  · cases written

theorem extern?_checked (printer : Printer) (decl : Decl) (piece : Piece) (written : extern? printer decl = some piece) :
    ∃ tree, piece.reports = printer.problems tree := by
  unfold extern? at written
  split at written
  · split at written
    · cases written
    · cases written
      exact ⟨_, rfl⟩
  · cases written

theorem Fitting.emit_remark (fitting : emitter.Fitting) : ∀ report ∈ emitter.emit.reports, report.severity = .warning :=
  fun report member => List.forall_mem_append.mpr ⟨List.forall_mem_append.mpr ⟨fitting.structs_remark,
    fitting.funcs_remark true⟩, declPieces_remark _ _⟩ report ((Bag.firstOfEach_sublist _ _).subset member)

theorem Fitting.emitHeader_remark (fitting : emitter.Fitting) (guard : Text) :
    ∀ report ∈ (emitter.emitHeader guard).reports, report.severity = .warning :=
  fun report member => List.forall_mem_append.mpr ⟨List.forall_mem_append.mpr ⟨List.forall_mem_append.mpr
    ⟨List.forall_mem_append.mpr ⟨fitting.structs_remark, declPieces_remark _ _⟩, fitting.funcs_remark false⟩,
    declared_remark _ prototype?_checked⟩, declared_remark _ extern?_checked⟩ report ((Bag.firstOfEach_sublist _ _).subset member)

end Emitter
end GenericC
