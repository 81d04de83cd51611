import GenericC.Emit.Unit
import GenericC.Proofs.DeclarationSpans
import GenericC.Proofs.RereadTokens
import GenericC.Proofs.TokenTiling
import Mathlib.Data.List.DropRight

/-! The preprocessor lines of a file. A parse that reports nothing takes every one of them as a declaration of its own, so
they are all written, in order. The written block is read as the same lines, unless one of them ends in a backslash: that
takes the line break behind it. -/

namespace GenericC
open Lexeme
open Text (byte)

namespace Lexeme

/-- A part of a line goes up to the next line break, unless a backslash stands in front of that. -/
theorem logicalLine_append {t u : Text} {n : Nat} (front : u <+: t) (fits : n + u.length ≤ logicalLine t n) (more : Text) :
    logicalLine (u ++ byte '\n' :: more) n =
      if u.getLast? = some (byte '\\') then logicalLine more (n + u.length + 1) else n + u.length := by
  have single (n : Nat) : logicalLine (byte '\\' :: byte '\n' :: more) n = logicalLine more (n + 2) := by
    rw [logicalLine.eq_def]
    rfl
  have last {b : UInt8} {u : Text} (other : u = [] → b ≠ byte '\\') :
      (b :: u).getLast? = some (byte '\\') ↔ u.getLast? = some (byte '\\') := by
    cases u with
    | nil => simpa using other rfl
    | cons => rw [List.getLast?_cons_cons]
  fun_induction logicalLine t n generalizing u <;> (cases u with
    | nil => rw [List.nil_append, logicalLine.eq_def]; rfl
    | cons b u => ?_) <;> simp only [List.cons_prefix_cons, List.length_cons] at front fits
  case case1 => exact absurd front (by simp)
  case case2 n =>
    obtain ⟨rfl, front⟩ := front
    obtain rfl := List.prefix_nil.mp front
    exact single n
  case case3 n c rest newline ih =>
    obtain ⟨rfl, front⟩ := front
    cases u with
    | nil => exact single n
    | cons c' u =>
      obtain ⟨rfl, behind⟩ := List.cons_prefix_cons.mp front
      have longer : logicalLine (byte '\\' :: c' :: (u ++ byte '\n' :: more)) n =
          logicalLine (u ++ byte '\n' :: more) (n + 2) := by
        rw [logicalLine.eq_def]
        exact if_pos newline
      have noSlash : c' ≠ byte '\\' := by
        rintro rfl
        cases newline
      rw [List.length_cons] at fits
      simp only [List.cons_append, longer, @ih u behind (by omega), last (fun _ => noSlash), List.getLast?_cons_cons,
        List.length_cons, Nat.add_comm, Nat.add_left_comm]
  case case4 n c rest other ih =>
    obtain ⟨rfl, front⟩ := front
    cases u with
    | nil => exact single n
    | cons c' u =>
      have later := @ih (c' :: u) front (by omega)
      obtain ⟨rfl, -⟩ := List.cons_prefix_cons.mp front
      have longer : logicalLine (byte '\\' :: c' :: (u ++ byte '\n' :: more)) n =
          logicalLine (c' :: (u ++ byte '\n' :: more)) (n + 1) := by
        rw [logicalLine.eq_def]
        exact if_neg other
      rw [List.cons_append, List.cons_append, longer, ← List.cons_append, later, List.getLast?_cons_cons]
      simp only [List.length_cons, Nat.add_comm, Nat.add_left_comm]
  case case5 => omega
  case case6 b' rest n other noBreak ih =>
    obtain ⟨rfl, front⟩ := front
    have longer : logicalLine (b :: (u ++ byte '\n' :: more)) n = logicalLine (u ++ byte '\n' :: more) (n + 1) := by
      rw [logicalLine.eq_def]
      exact (if_neg other).trans (if_neg noBreak)
    simp only [List.cons_append, longer, @ih u front (by omega), last (fun _ => other), List.length_cons,
      Nat.add_comm, Nat.add_left_comm]

/-- The text of a preprocessor line: a line of a file without the blanks at its end. -/
def IsLine (text : Text) : Prop :=
  text.length ≤ Lexer.maxTokenLength ∧ ∃ rest, text = (Text.byte '#' :: rest).take (directive (Text.byte '#' :: rest)).length

theorem directive_take (t : Text) : t.take (directive t).length = (t.take (logicalLine t 0)).rdropWhile isLineBlank := by
  show t.take ((t.take (logicalLine t 0)).rdropWhile isLineBlank).length = _
  exact (List.prefix_iff_eq_take.mp ((List.rdropWhile_prefix _ _).trans (List.take_prefix _ _))).symm

/-- With a line break behind it, the text of a line is read as it is, unless it ends in a backslash. -/
theorem IsLine.directive {text : Text} (isLine : IsLine text) (more : Text) :
    if text.getLast? = some (byte '\\') then text.length < (directive (text ++ byte '\n' :: more)).length
    else directive (text ++ byte '\n' :: more) = exact .directive text.length := by
  obtain ⟨-, rest, same⟩ := isLine
  rw [directive_take] at same
  generalize byte '#' :: rest = t at same
  have front : text <+: t := same ▸ (List.rdropWhile_prefix _ _).trans (List.take_prefix _ _)
  have fits : text.length ≤ logicalLine t 0 := by
    rw [same]
    exact Nat.le_trans (List.rdropWhile_prefix _ _).length_le (List.length_take_le _ _)
  have line := logicalLine_append front (by rwa [Nat.zero_add]) more
  rw [Nat.zero_add] at line
  split
  next slash =>
    rw [if_pos slash] at line
    obtain ⟨further, length, -⟩ := logicalLine_ends more (text.length + 1)
    refine Nat.lt_of_not_le fun short => ?_
    have blank := (directive_lineRest (text ++ byte '\n' :: more)).blanks (byte '\n') ?_
    · cases blank
    · show _ ∈ ((text ++ byte '\n' :: more).take (logicalLine (text ++ byte '\n' :: more) 0)).drop _
      rw [line, length, Nat.add_assoc, List.take_length_add_append, Nat.add_comm 1, List.take_succ_cons,
        List.drop_append_of_le_length short]
      exact List.mem_append_right _ List.mem_cons_self
  next noSlash =>
    rw [if_neg noSlash] at line
    have trimmed : text.rdropWhile isLineBlank = text := by
      rw [same]
      exact List.rdropWhile_idempotent _ _
    show Lexeme.mk _ (((text ++ _).take (logicalLine (text ++ _) 0)).rdropWhile isLineBlank).length (logicalLine (text ++ _) 0) _ = _
    rw [line, List.take_left, trimmed]
    rfl

end Lexeme

namespace Lexer

theorem significant_line (lexer : Lexer) (trivia : List Trivia) (line : (lexer.significant trivia).token.kind = .directive) :
    IsLine (lexer.significant trivia).token.text := by
  unfold significant at line ⊢
  split
  next none =>
    rw [none] at line
    cases line
  next b tail same =>
    rw [same] at line
    dsimp only at line ⊢
    split
    next long =>
      rw [if_pos long] at line
      cases line
    next short =>
      rw [if_neg short] at line
      rcases scan_within lexer.lineStart b tail with ⟨read, rfl⟩ | within
      · rw [read] at short ⊢
        exact ⟨Nat.le_trans (List.length_take_le _ _) (Nat.le_of_not_lt short), tail, by rw [same]⟩
      · rcases within.kind with ordinary | ⟨invalid, -⟩
        · rw [show (scan lexer.lineStart b tail).kind = .directive from line] at ordinary
          cases ordinary
        · rw [show (scan lexer.lineStart b tail).kind = .directive from line] at invalid
          cases invalid

theorem leading_breaks {count : Nat} {t : Text} (lexer : Lexer) (rest : lexer.rest = List.replicate count (byte '\n') ++ t)
    (starts : t.head? = none ∨ t.head? = some (byte '#')) : lexer.leading.problems = [] ∧ lexer.leading.next.rest = t ∧
      (lexer.lineStart = true ∨ 0 < count → lexer.leading.next.lineStart = true) := by
  have plain : TriviaPiece.at? t = none ∧ t.dropWhile isNewline = t := by
    cases t with
    | nil => exact ⟨rfl, rfl⟩
    | cons b t =>
      obtain rfl : b = byte '#' := by simpa using starts
      exact ⟨rfl, rfl⟩
  fun_induction leading lexer generalizing count with
  | case1 lexer found =>
    cases count with
    | zero => exact ⟨rfl, rest, fun fresh => fresh.resolve_right (Nat.lt_irrefl 0)⟩
    | succ count =>
      rw [rest, List.replicate_succ] at found
      cases found
  | case2 lexer piece found more =>
    rename_i ih
    cases count with
    | zero =>
      rw [rest, List.replicate_zero, List.nil_append, plain.1] at found
      cases found
    | succ count =>
      obtain rfl : ⟨.newline, Lexeme.run isNewline lexer.rest, true⟩ = piece := by
        rw [rest, List.replicate_succ] at found ⊢
        exact Option.some.inj found
      have dropped : lexer.rest.drop (Lexeme.run isNewline lexer.rest) = t := by
        rw [drop_run, rest, List.dropWhile_append_of_pos (by simp [isNewline]), plain.2]
      obtain ⟨problems, onward, begins⟩ := @ih 0 dropped
      refine ⟨problems, onward, fun _ => begins (.inl ?_)⟩
      simp [afterTrivia]

theorem step_line {count : Nat} {line more : Text} (lexer : Lexer)
    (rest : lexer.rest = List.replicate count (byte '\n') ++ (line ++ byte '\n' :: more))
    (fresh : lexer.lineStart = true ∨ 0 < count) (isLine : IsLine line) :
    if line.getLast? = some (byte '\\') then lexer.step.token.content ≠ (.directive, line)
    else lexer.step.problems = [] ∧ lexer.step.token.content = (.directive, line) ∧
      lexer.step.next.rest = byte '\n' :: more := by
  have read := isLine.directive more
  obtain ⟨tail, rfl⟩ : ∃ tail, line = byte '#' :: tail := by
    obtain ⟨-, later, same⟩ := isLine
    obtain ⟨n, length⟩ := Nat.exists_eq_succ_of_ne_zero (Nat.pos_iff_ne_zero.mp (directive_fits later).1)
    rw [length, List.take_succ_cons] at same
    exact ⟨_, same⟩
  obtain ⟨silent, onward, begins⟩ := lexer.leading_breaks rest (.inr rfl)
  have scanned : scan lexer.leading.next.lineStart (byte '#') (tail ++ byte '\n' :: more) =
      directive (byte '#' :: tail ++ byte '\n' :: more) := by
    rw [begins fresh]
    rfl
  split
  next slash =>
    rw [if_pos slash] at read
    show (lexer.leading.next.significant lexer.leading.trivia).token.content ≠ _
    unfold significant
    rw [onward, List.cons_append]
    dsimp only
    rw [scanned]
    split
    · exact nofun
    · intro same
      have longer := congrArg (fun content => content.2.length) same
      have fits := directive_fits (tail ++ byte '\n' :: more)
      simp only [Token.content, List.length_take, ← List.cons_append] at longer fits
      omega
  next noSlash =>
    rw [if_neg noSlash] at read
    obtain ⟨silent', token⟩ :=
      lexer.leading.next.significant_exact lexer.leading.trivia onward (scanned.trans read) isLine.1
    exact ⟨List.append_eq_nil_iff.mpr ⟨silent, silent'⟩, token⟩

theorem run_lines {lines : List Text} (all : ∀ line ∈ lines, IsLine line) (front back : Nat) (lexer : Lexer)
    (rest : lexer.rest = List.replicate front (byte '\n') ++
      (lines.flatMap (· ++ [byte '\n']) ++ List.replicate back (byte '\n')))
    (fresh : lexer.lineStart = true ∨ 0 < front) :
    (lexer.run.1.map Token.content = lines.map (.directive, ·) ++ [(.endOfFile, [])] ∧ lexer.run.2 = []) ↔
      ∀ line ∈ lines, line.getLast? ≠ some (byte '\\') := by
  induction lines generalizing lexer front with
  | nil =>
    have breaks (n : Nat) : Reads (List.replicate n (byte '\n')) [] := by
      induction n with
      | zero => exact .nil
      | succ n ih => exact .blank rfl ih
    rw [List.flatMap_nil, List.nil_append, List.replicate_append_replicate] at rest
    exact iff_of_true (lexer.run_reads [] (rest ▸ breaks _)) (List.forall_mem_nil _)
  | cons line lines ih =>
    obtain ⟨isLine, all⟩ := List.forall_mem_cons.mp all
    have step := lexer.step_line (by rw [rest, List.flatMap_cons, List.append_assoc, List.append_assoc]; rfl) fresh isLine
    rw [List.forall_mem_cons, run]
    split at step
    next slash =>
      refine iff_of_false (fun both => step ?_) fun none => none.1 slash
      split at both <;> exact (List.cons.inj both.1).1
    next noSlash =>
      obtain ⟨silent, content, onward⟩ := step
      have later := ih all 1 lexer.step.next onward (.inr Nat.one_pos)
      rw [dif_neg (by rw [← Token.content_fst, content]; nofun)]
      simp only [List.map_cons, content, List.cons_append, List.cons.injEq, true_and, silent, List.nil_append, later]
      exact ⟨fun others => ⟨noSlash, others⟩, And.right⟩

end Lexer

theorem Decl.line?_ofLine (line : Text) (loc : Span) : (Decl.ofLine line loc).line? = some line := by
  unfold Decl.ofLine
  split <;> rfl

theorem directiveLines_parseFile {settings : ParseSettings} {file : UInt32} {content : Text}
    (hears : (ParseState.start settings file (tokenize file content).1).Hears)
    (clean : (parseFile settings file content).reports = []) :
    Emitter.directiveLines (parseFile settings file content).program =
      ((tokenize file content).1.filter (·.kind = .directive)).map (·.text) := by
  have known := parseFile_clean
    (fun decls now => ((tokenize file content).1.filter (·.kind = .directive)).map (·.text) =
      decls.reverse.filterMap Decl.line? ++ now.place.lines.map (·.text)) hears clean
    (congrArg (fun tokens => (tokens.filter (·.kind = .directive)).map (·.text)) (ParseState.start_whole settings file content)) ?_
  · obtain ⟨decls, now, program, lines, ended, none⟩ := known
    rw [lines]
    show (parseFile settings file content).program.decls.filterMap Decl.line? = _
    rw [program]
    unfold Place.lines
    rw [none, List.filter_cons_of_neg (by rw [ended]; decide)]
    exact (List.append_nil _).symm
  · intro decls before after decl lines spelled found silent
    rw [lines]
    by_cases line : before.place.current.kind = .directive
    · rw [Parse.topLevel_line _ line, Parse.bind_apply, Parse.advance_apply, if_neg (by rw [line]; decide)] at found
      cases upcoming : before.place.upcoming with
      | nil =>
        rw [upcoming] at found
        cases found
      | cons next later =>
        rw [upcoming] at found
        cases found
        unfold Place.lines
        rw [upcoming, List.filter_cons_of_pos (by simpa using line)]
        simp [Decl.line?_ofLine]
    · have ends := Parse.topLevel_meets (settings.maxNesting + 1) before spelled line
      rw [found] at ends
      obtain ⟨steady, -, plain⟩ := ends
      rcases steady.spares with ⟨⟨⟩⟩ | ⟨-, spoken⟩ | same
      · exact absurd spoken silent
      · rw [same]
        cases decl with
        | none => rfl
        | some decl => simp [(plain decl rfl).2]

/-- If the first report would be kept and there is none, the preprocessor lines of a file are written one behind the other,
with an empty line behind them. From that block the same lines are read, and nothing is wrong with them, if and only if none
of them ends in a backslash. -/
theorem hoisted_lines_again (settings : ParseSettings) (file again : UInt32) (content : Text)
    (hears : (ParseState.start settings file (tokenize file content).1).Hears)
    (clean : (parseFile settings file content).reports = []) :
    let lines := (tokenize file content).1.filter (·.kind = .directive)
    let block := Emitter.directives (parseFile settings file content).program
    block = Emitter.paragraph (lines.flatMap fun line => line.text ++ Text.ofString "\n") ∧
      (((tokenize again block).1.map Token.content = lines.map Token.content ++ [(.endOfFile, [])] ∧
          (tokenize again block).2 = []) ↔
        ∀ line ∈ lines, line.text.getLast? ≠ some (Text.byte '\\')) := by
  intro lines block
  have whole : block = Emitter.paragraph (lines.flatMap fun line => line.text ++ Text.ofString "\n") := by
    show Emitter.paragraph _ = _
    rw [directiveLines_parseFile hears clean, List.flatMap_map]
    simp [Text.concat, lines]
  refine ⟨whole, ?_⟩
  obtain ⟨back, text⟩ : ∃ back, block = [] ++ ((lines.map (·.text)).flatMap (· ++ [Text.byte '\n']) ++
      List.replicate back (Text.byte '\n')) := by
    rw [whole, Emitter.paragraph, List.flatMap_map]
    split
    next none => exact ⟨0, ((List.append_nil _).trans (List.isEmpty_iff.mp none)).symm⟩
    next => exact ⟨1, by simp [Text.concat]; rfl⟩
  have all : ∀ line ∈ lines.map (·.text), IsLine line := by
    refine List.forall_mem_map.mpr fun token member => ?_
    obtain ⟨member, line⟩ := List.mem_filter.mp member
    obtain ⟨place, trivia, rfl, -⟩ := (Lexer.start file content).run_significant token member
    exact place.significant_line trivia (of_decide_eq_true line)
  have read := (Lexer.start again block).run_lines all 0 back text (.inl rfl)
  have contents : lines.map Token.content = (lines.map (·.text)).map (.directive, ·) := by
    rw [List.map_map]
    exact List.map_congr_left fun token member => by
      rw [Function.comp, ← of_decide_eq_true (List.mem_filter.mp member).2]
      rfl
  rw [List.forall_mem_map] at read
  rw [contents]
  exact read

def continuedLines : Text := "#define A \\\n  1\n#include <a.h>\nint x;\n#undef A\n"

theorem continuedLines_again :
    let lines := (tokenize 0 continuedLines).1.filter (·.kind = .directive)
    let block := Emitter.directives (parseFile {} 0 continuedLines).program
    (ParseState.start {} 0 (tokenize 0 continuedLines).1).Hears ∧ (parseFile {} 0 continuedLines).reports = [] ∧
      lines.map (·.text) = ["#define A \\\n  1", "#include <a.h>", "#undef A"] ∧
      (tokenize 1 block).1.map Token.content = lines.map Token.content ++ [(.endOfFile, [])] := by
  intro lines block
  have hears : (ParseState.start {} 0 (tokenize 0 continuedLines).1).Hears := ⟨rfl, .inl rfl⟩
  have clean : (parseFile {} 0 continuedLines).reports = [] := by decide +kernel
  have texts : lines.map (·.text) = ["#define A \\\n  1", "#include <a.h>", "#undef A"] := by decide +kernel
  have none : ∀ line ∈ lines.map (·.text), line.getLast? ≠ some (Text.byte '\\') := by
    rw [texts]
    decide
  refine ⟨hears, clean, texts, ?_⟩
  exact ((hoisted_lines_again {} 0 1 continuedLines hears clean).2.mpr fun line member =>
    none _ (List.mem_map_of_mem member)).1

/-- The blank behind a backslash is no part of a line, so the line break that is written instead is taken by it. -/
theorem blank_behind_backslash_merges_lines :
    let content : Text := "#define A \\ \n#define B\nint x;\n"
    let block := Emitter.directives (parseFile {} 0 content).program
    (parseFile {} 0 content).reports = [] ∧ block = Text.ofString "#define A \\\n#define B\n\n" ∧
      ((tokenize 0 content).1.filter (·.kind = .directive)).map (·.text) = ["#define A \\", "#define B"] ∧
      (tokenize 0 block).1.map Token.content = ([(.directive, "#define A \\\n#define B"), (.endOfFile, [])] : List Content) := by
  intro content block
  exact ⟨by decide +kernel, by decide +kernel, by decide +kernel, by decide +kernel⟩

end GenericC
