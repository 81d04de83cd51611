import GenericC.Proofs.TokenSpans

/-! The tokens of a file and the blanks and comments in front of them cover its content piece by piece. What is left out
are the blanks at the end of a preprocessor line, the blanks and comments behind the last token, and whatever follows
a token of extraordinary length. -/

namespace GenericC

def isLineBlank (b : UInt8) : Bool := b = Text.byte ' ' || b = Text.byte '\t'

def EndsLine (t : Text) : Prop := ∀ b, t.head? = some b → Lexeme.isNewline b = true

/-- Nothing but blanks and comments. The last comment need not have an end. -/
inductive OnlyTrivia : Text → Prop where
  | nil : OnlyTrivia []
  | blank {b : UInt8} {rest : Text} (blank : Lexeme.isSpace b = true ∨ Lexeme.isNewline b = true)
      (more : OnlyTrivia rest) : OnlyTrivia (b :: rest)
  | lineComment {body rest : Text} (oneLine : ∀ b ∈ body, Lexeme.isNewline b = false) (ends : EndsLine rest)
      (more : OnlyTrivia rest) : OnlyTrivia (Text.ofString "//" ++ (body ++ rest))
  | blockComment {body rest : Text} (first : ¬ Text.ofString "*/" <:+: body ++ [Text.byte '*'])
      (more : OnlyTrivia rest) : OnlyTrivia (Text.ofString "/*" ++ (body ++ (Text.ofString "*/" ++ rest)))
  | openComment {body : Text} (never : ¬ Text.ofString "*/" <:+: body) : OnlyTrivia (Text.ofString "/*" ++ body)

theorem OnlyTrivia.blanks {blanks rest : Text} (all : ∀ b ∈ blanks, Lexeme.isSpace b = true ∨ Lexeme.isNewline b = true)
    (more : OnlyTrivia rest) : OnlyTrivia (blanks ++ rest) := by
  induction blanks with
  | nil => exact more
  | cons b blanks ih =>
    obtain ⟨first, later⟩ := List.forall_mem_cons.mp all
    exact .blank first (ih later)

namespace Lexeme

theorem drop_run (p : UInt8 → Bool) (t : Text) : t.drop (run p t) = t.dropWhile p := by
  have both : t.takeWhile p ++ t.drop (run p t) = t.takeWhile p ++ t.dropWhile p := by
    rw [← take_run, List.take_append_drop, take_run, List.takeWhile_append_dropWhile]
  exact List.append_cancel_left both

theorem run_splits (p : UInt8 → Bool) (t : Text) :
    (∀ b ∈ t.take (run p t), p b = true) ∧ ∀ b, (t.drop (run p t)).head? = some b → p b = false := by
  rw [take_run, drop_run]
  refine ⟨fun b member => List.mem_takeWhile_imp member, ?_⟩
  intro b first
  have := List.head?_dropWhile_not p t
  rw [first] at this
  exact this

end Lexeme

namespace TriviaPiece

private theorem marks_prefix {b : UInt8} {rest : Text} :
    Text.ofString "*/" <+: b :: rest ↔ b = Text.byte '*' ∧ rest.head? = some (Text.byte '/') := by
  show [Text.byte '*', Text.byte '/'] <+: b :: rest ↔ _
  rw [List.cons_prefix_cons, eq_comm]
  cases rest with
  | nil => simp
  | cons c more => simp [eq_comm]

theorem commentBody_ends (body : Text) (n : Nat) :
    (∃ front rest, body = front ++ (Text.ofString "*/" ++ rest) ∧ commentBody body n = (n + front.length + 2, true) ∧
      ¬ Text.ofString "*/" <:+: front ++ [Text.byte '*']) ∨
    (commentBody body n = (n + body.length, false) ∧ ¬ Text.ofString "*/" <:+: body) := by
  induction body generalizing n with
  | nil => exact .inr ⟨rfl, by decide⟩
  | cons b rest ih =>
    rw [commentBody]
    split
    next ends =>
      simp only [Bool.and_eq_true, decide_eq_true_eq] at ends
      obtain ⟨rfl, slash⟩ := ends
      obtain ⟨more, rfl⟩ := List.head?_eq_some_iff.mp slash
      exact .inl ⟨[], more, rfl, rfl, by decide⟩
    next goesOn =>
      simp only [Bool.and_eq_true, decide_eq_true_eq] at goesOn
      rcases ih (n + 1) with ⟨front, later, rfl, length, first⟩ | ⟨length, never⟩
      · refine .inl ⟨b :: front, later, rfl, ?_, ?_⟩
        · rw [length, List.length_cons]
          congr 1
          omega
        · rw [List.cons_append, List.infix_cons_iff, marks_prefix, not_or]
          refine ⟨fun marks => goesOn ⟨marks.1, ?_⟩, first⟩
          rw [← marks.2]
          cases front <;> rfl
      · refine .inr ⟨?_, ?_⟩
        · rw [length, List.length_cons]
          congr 1
          omega
        · rw [List.infix_cons_iff, marks_prefix, not_or]
          exact ⟨goesOn, never⟩

theorem at?_onlyTrivia {t : Text} {piece : TriviaPiece} (found : at? t = some piece)
    (more : OnlyTrivia (t.drop piece.length)) : OnlyTrivia t := by
  have blanks (p : UInt8 → Bool) (blank : ∀ b, p b = true → Lexeme.isSpace b = true ∨ Lexeme.isNewline b = true)
      (more : OnlyTrivia (t.drop (Lexeme.run p t))) : OnlyTrivia t := by
    rw [← List.take_append_drop (Lexeme.run p t) t]
    exact .blanks (fun c member => blank c ((Lexeme.run_splits _ _).1 c member)) more
  cases begins_of_at? found with
  | spaces => exact blanks _ (fun _ => .inl) more
  | newlines => exact blanks _ (fun _ => .inr) more
  | lineComment body =>
    obtain ⟨oneLine, ends⟩ := Lexeme.run_splits (fun d => !Lexeme.isNewline d) body
    replace more : OnlyTrivia (body.drop (Lexeme.run (fun d => !Lexeme.isNewline d) body)) := by
      rw [Nat.add_comm] at more
      exact more
    have comment := OnlyTrivia.lineComment (fun d member => by simpa using oneLine d member)
      (fun d first => by simpa using ends d first) more
    rwa [List.take_append_drop] at comment
  | blockComment body =>
    rcases commentBody_ends body 2 with ⟨front, later, rfl, length, first⟩ | ⟨length, never⟩
    · rw [length] at more
      refine .blockComment first ?_
      have cut : (Text.byte '/' :: Text.byte '*' :: (front ++ (Text.ofString "*/" ++ later))).drop
          (2 + front.length + 2) = later := by
        rw [show 2 + front.length + 2 = (front.length + 2) + 2 by omega]
        show (front ++ (Text.ofString "*/" ++ later)).drop (front.length + 2) = later
        rw [List.drop_append, List.drop_eq_nil_of_le (by omega), Nat.add_sub_cancel_left]
        rfl
      rwa [cut] at more
    · exact .openComment never

end TriviaPiece

theorem EndsLine.nil : EndsLine [] := by
  intro b first
  cases first

namespace Lexeme

theorem logicalLine_ends (t : Text) (n : Nat) : ∃ length, logicalLine t n = n + length ∧ EndsLine (t.drop length) := by
  fun_induction logicalLine t n with
  | case1 n => exact ⟨0, rfl, .nil⟩
  | case2 n => exact ⟨1, rfl, .nil⟩
  | case3 n c more newline ih =>
    obtain ⟨length, same, ends⟩ := ih
    exact ⟨length + 2, by omega, ends⟩
  | case4 n c more other ih | case6 b rest n other more ih =>
    obtain ⟨length, same, ends⟩ := ih
    exact ⟨length + 1, by omega, ends⟩
  | case5 b rest n other newline =>
    refine ⟨0, rfl, fun first same => ?_⟩
    cases same
    exact newline

/-- What is read behind the text of a token: the blanks at the end of a preprocessor line. -/
structure LineRest (t : Text) (lexeme : Lexeme) : Prop where
  kind : lexeme.kind = .directive
  blanks : ∀ b ∈ (t.take lexeme.consumed).drop lexeme.length, isLineBlank b = true
  ends : EndsLine (t.drop lexeme.consumed)

theorem directive_lineRest (t : Text) : LineRest t (directive t) where
  kind := rfl
  blanks := by
    show ∀ b ∈ (t.take (logicalLine t 0)).drop (Text.dropWhileEnd isLineBlank (t.take (logicalLine t 0))).length, _
    generalize t.take (logicalLine t 0) = line
    intro b member
    have cut : line = Text.dropWhileEnd isLineBlank line ++ (line.reverse.takeWhile isLineBlank).reverse := by
      rw [Text.dropWhileEnd, ← List.reverse_append, List.takeWhile_append_dropWhile, List.reverse_reverse]
    rw [cut, List.drop_left' (by rw [← cut])] at member
    exact List.mem_takeWhile_imp (List.mem_reverse.mp member)
  ends := by
    obtain ⟨length, same, ends⟩ := logicalLine_ends t 0
    show EndsLine (t.drop (logicalLine t 0))
    rwa [same, Nat.zero_add]

theorem scan_whole (lineStart : Bool) (b : UInt8) (rest : Text) :
    (scan lineStart b rest).length = (scan lineStart b rest).consumed ∨ LineRest (b :: rest) (scan lineStart b rest) := by
  rcases scan_within lineStart b rest with ⟨read, rfl⟩ | within
  · exact .inr (read ▸ directive_lineRest _)
  · exact .inl (within.whole (by simp)).1

theorem scan_kind_ne (lineStart : Bool) (b : UInt8) (rest : Text) : (scan lineStart b rest).kind ≠ .endOfFile := by
  rcases scan_within lineStart b rest with ⟨read, -⟩ | within
  · rw [read]
    nofun
  · rcases within.kind with ordinary | ⟨invalid, -⟩
    · intro last
      rw [last] at ordinary
      cases ordinary
    · rw [invalid]
      nofun

end Lexeme

def Span.slice (span : Span) (content : Text) : Text := (content.drop span.low).take (span.high - span.low)

/-- A span covers the bytes from `low` to `high`, of which there is at least one. -/
structure Span.Covers (file : UInt32) (content : Text) (low high : Nat) (span : Span) : Prop where
  owner : span.file = file
  begins : span.low = low
  stops : span.high = high
  some : low < high
  inside : high ≤ content.length

/-- Blanks and comments that cover the bytes from one offset to another. -/
inductive TriviaRow (file : UInt32) (content : Text) : Nat → List Trivia → Nat → Prop where
  | nil {low : Nat} : TriviaRow file content low [] low
  | cons {low middle high : Nat} {trivia : Trivia} {later : List Trivia}
      (here : trivia.span.Covers file content low middle) (text : trivia.text = trivia.span.slice content)
      (row : TriviaRow file content middle later high) : TriviaRow file content low (trivia :: later) high

def Token.TooLong (token : Token) : Prop := Lexer.maxTokenLength < token.span.high - token.span.low

def endToken (file : UInt32) (content : Text) : Token :=
  { kind := .endOfFile, span := ⟨file, content.length.toUInt32, content.length.toUInt32⟩ }

/-- Tokens that cover a file from an offset on. -/
inductive Tiled (file : UInt32) (content : Text) (problems : List Diagnostic) : Nat → List Token → Prop where
  | ended {low : Nat} (inside : low ≤ content.length) (trivia : OnlyTrivia (content.drop low)) :
      Tiled file content problems low [endToken file content]
  | token {low start stop : Nat} {token : Token} {later : List Token}
      (row : TriviaRow file content low token.leading start) (here : token.span.Covers file content start stop)
      (more : token.kind ≠ .endOfFile) (fits : ¬ token.TooLong) (text : token.text = token.span.slice content)
      (next : Tiled file content problems stop later) : Tiled file content problems low (token :: later)
  | line {low start stop next : Nat} {token : Token} {later : List Token}
      (row : TriviaRow file content low token.leading start) (here : token.span.Covers file content start stop)
      (kind : token.kind = .directive) (fits : ¬ token.TooLong) (text : token.text = token.span.slice content)
      (onward : stop ≤ next) (blanks : ∀ b ∈ (content.drop stop).take (next - stop), isLineBlank b = true)
      (ends : EndsLine (content.drop next)) (next : Tiled file content problems next later) :
      Tiled file content problems low (token :: later)
  | tooLong {low start stop : Nat} {token : Token} {later : List Token}
      (row : TriviaRow file content low token.leading start) (here : token.span.Covers file content start stop)
      (kind : token.kind = .invalid) (long : token.TooLong) (text : token.text = [])
      (reported : ∃ report ∈ problems, report.code = .tokenTooLong ∧ report.span = token.span)
      (next : Tiled file content problems content.length later) : Tiled file content problems low (token :: later)

theorem Tiled.mono {file : UInt32} {content : Text} {fewer problems : List Diagnostic} {low : Nat} {tokens : List Token}
    (tiled : Tiled file content fewer low tokens) (subset : fewer ⊆ problems) : Tiled file content problems low tokens := by
  induction tiled with
  | ended inside trivia => exact .ended inside trivia
  | token row here more fits text _ ih => exact .token row here more fits text ih
  | line row here kind fits text onward blanks ends _ ih => exact .line row here kind fits text onward blanks ends ih
  | tooLong row here kind long text reported _ ih =>
    obtain ⟨report, member, holds⟩ := reported
    exact .tooLong row here kind long text ⟨report, subset member, holds⟩ ih

namespace Lexer

/-- A lexer that has read a file up to its offset. -/
structure In (content : Text) (lexer : Lexer) : Prop where
  rest : lexer.rest = content.drop lexer.offset
  inside : lexer.offset ≤ content.length

variable {content : Text} {lexer : Lexer}

theorem In.stop (inside : lexer.In content) : lexer.stop = content.length := by
  have := inside.inside
  rw [Lexer.stop, inside.rest, List.length_drop]
  omega

theorem In.skip {count : Nat} (inside : lexer.In content) (fits : count ≤ lexer.rest.length) (lineStart : Bool) :
    In content { lexer.skip count with lineStart } := by
  have := inside.stop
  refine ⟨?_, ?_⟩
  · show lexer.rest.drop count = content.drop (lexer.offset + count)
    rw [inside.rest, List.drop_drop]
  · show lexer.offset + count ≤ content.length
    rw [Lexer.stop] at this
    omega

theorem In.covers {length : Nat} (inside : lexer.In content) (short : content.length < 4294967296) (some : 0 < length)
    (fits : length ≤ lexer.rest.length) :
    (lexer.span length).Covers lexer.file content lexer.offset (lexer.offset + length) := by
  have stop := inside.stop
  refine ⟨rfl, low_span (stop ▸ short), high_span (stop ▸ short) fits, by omega, ?_⟩
  rw [Lexer.stop] at stop
  omega

theorem In.slice {length : Nat} (inside : lexer.In content) (short : content.length < 4294967296)
    (fits : length ≤ lexer.rest.length) : lexer.rest.take length = (lexer.span length).slice content := by
  have stop := inside.stop
  rw [Span.slice, low_span (stop ▸ short), high_span (stop ▸ short) fits, inside.rest, Nat.add_sub_cancel_left]

theorem leading_row (inside : lexer.In content) (short : content.length < 4294967296) :
    TriviaRow lexer.file content lexer.offset lexer.leading.trivia lexer.leading.next.offset ∧
      lexer.leading.next.In content ∧ (OnlyTrivia lexer.leading.next.rest → OnlyTrivia lexer.rest) := by
  fun_induction leading lexer with
  | case1 => exact ⟨.nil, inside, id⟩
  | case2 lexer piece found more ih =>
    have fits := TriviaPiece.at?_le found
    have some := TriviaPiece.at?_pos found
    obtain ⟨row, after, trivial⟩ := ih (inside.skip fits _)
    refine ⟨.cons (inside.covers short some fits) (inside.slice short fits) row, after, ?_⟩
    intro last
    exact TriviaPiece.at?_onlyTrivia found (trivial last)

theorem significant_tiled {low : Nat} {trivia : List Trivia} {problems : List Diagnostic} (later : List Token)
    (inside : lexer.In content) (short : content.length < 4294967296) (more : lexer.rest ≠ [])
    (row : TriviaRow lexer.file content low trivia lexer.offset)
    (reports : (lexer.significant trivia).problems ⊆ problems) :
    let read := lexer.significant trivia
    read.next.In content ∧ read.next.file = lexer.file ∧
      (Tiled lexer.file content problems read.next.offset later → Tiled lexer.file content problems low (read.token :: later)) := by
  unfold significant at reports ⊢
  split
  next empty => exact absurd empty more
  next b tail same =>
    simp only [same] at reports
    obtain ⟨some, read, whole⟩ := Lexeme.scan_fits lexer.lineStart b tail
    have rest := Lexeme.scan_whole lexer.lineStart b tail
    have kind := Lexeme.scan_kind_ne lexer.lineStart b tail
    rw [← same] at whole rest
    generalize Lexeme.scan lexer.lineStart b tail = lexeme at some read whole rest kind reports ⊢
    have here := inside.covers short some (Nat.le_trans read whole)
    have length : (lexer.span lexeme.length).high - (lexer.span lexeme.length).low = lexeme.length := by
      rw [here.begins, here.stops]
      omega
    dsimp only at reports ⊢
    split
    next long =>
      rw [if_pos long] at reports
      have last : ({ lexer.skip lexer.rest.length with lineStart := false } : Lexer).offset = content.length := inside.stop
      refine ⟨inside.skip (Nat.le_refl _) _, rfl, fun tiled => ?_⟩
      rw [last] at tiled
      have reported : Diagnostic.ofError .tokenTooLong (lexer.span lexeme.length)
          (Text.ofString "token exceeds " ++ Text.ofNat maxTokenLength ++ Text.ofString " bytes") ∈ problems :=
        reports (List.mem_append_right _ (List.mem_singleton_self _))
      exact .tooLong row here rfl (Nat.lt_of_lt_of_eq long length.symm) rfl ⟨_, reported, rfl, rfl⟩ tiled
    next fits =>
      rw [← length] at fits
      have text := inside.slice short (Nat.le_trans read whole)
      refine ⟨inside.skip whole _, rfl, fun tiled => ?_⟩
      have behind : Tiled lexer.file content problems (lexer.offset + lexeme.consumed) later := tiled
      rcases rest with exactly | ⟨directive, blanks, ends⟩
      · rw [← exactly] at behind
        exact .token row here kind fits text behind
      · refine .line row here directive fits text (Nat.add_le_add_left read _) ?_ ?_ behind
        · intro c member
          apply blanks c
          rwa [inside.rest, List.drop_take, List.drop_drop, ← Nat.add_sub_add_left lexer.offset]
        · rwa [inside.rest, List.drop_drop] at ends

theorem significant_ended (lexer : Lexer) (trivia : List Trivia) :
    (lexer.significant trivia).token.kind = .endOfFile ↔ lexer.rest = [] := by
  unfold significant
  split
  next empty => simp [empty]
  next b tail same =>
    refine iff_of_false ?_ (by simp [same])
    dsimp only
    split
    · nofun
    · exact Lexeme.scan_kind_ne _ _ _

theorem significant_nil {trivia : List Trivia} (empty : lexer.rest = []) :
    (lexer.significant trivia).token = { kind := .endOfFile, span := lexer.span 0 } := by
  unfold significant
  rw [empty]

theorem run_tiled (inside : lexer.In content) (short : content.length < 4294967296) :
    Tiled lexer.file content lexer.run.2 lexer.offset lexer.run.1 := by
  fun_induction run lexer with
  | case1 lexer read last =>
    obtain ⟨-, front, trivial⟩ := leading_row inside short
    have empty := (significant_ended _ _).mp last
    have offset : lexer.leading.next.offset = content.length := by
      have stop := front.stop
      rw [Lexer.stop, empty] at stop
      exact stop
    have token : read.token = endToken lexer.file content := by
      refine (significant_nil empty).trans ?_
      rw [span, (leading_further lexer).file, offset]
      rfl
    rw [token]
    apply Tiled.ended inside.inside
    rw [← inside.rest]
    exact trivial (empty ▸ .nil)
  | case2 lexer read more later ih =>
    obtain ⟨row, front, -⟩ := leading_row inside short
    have file := (leading_further lexer).file
    have some : lexer.leading.next.rest ≠ [] := fun empty => more ((significant_ended _ _).mpr empty)
    rw [← file] at row ⊢
    have reports : (lexer.leading.next.significant lexer.leading.trivia).problems ⊆ read.problems ++ later.2 := by
      intro report member
      exact List.mem_append_left _ (List.mem_append_right _ member)
    obtain ⟨after, same, tiled⟩ := significant_tiled later.1 front short some row reports
    apply tiled
    rw [← same]
    exact (ih after).mono (List.subset_append_right _ _)

end Lexer

def Token.spans (token : Token) : List Span := token.leading.map (·.span) ++ [token.span]

/-- What may be left out of the tokens from the offset `least` on. -/
inductive LeftOut (content : Text) (least : Nat) (tokens : List Token) (offset : Nat) : Prop where
  /-- A blank between a preprocessor line and the end of that line. -/
  | lineEnd {token : Token} {stop : Nat} (member : token ∈ tokens) (directive : token.kind = .directive)
      (behind : token.span.high ≤ offset) (before : offset < stop)
      (blanks : ∀ b ∈ (content.drop token.span.high).take (stop - token.span.high), isLineBlank b = true)
      (ends : EndsLine (content.drop stop))
  /-- A part of the blanks and comments behind the last token. -/
  | fileEnd {low : Nat} (onward : least ≤ low) (behind : low ≤ offset)
      (last : ∀ token ∈ tokens, token.kind ≠ .endOfFile → token.span.high ≤ low) (trivia : OnlyTrivia (content.drop low))
  | skipped {token : Token} (member : token ∈ tokens) (long : token.TooLong) (behind : token.span.high ≤ offset)

section
variable {file : UInt32} {content : Text} {problems : List Diagnostic} {low high : Nat} {tokens : List Token}
variable {row : List Trivia}

/-- Spans inside a file from an offset on, of which each stands behind those before. -/
structure InRow (file : UInt32) (content : Text) (low : Nat) (spans : List Span) : Prop where
  inside : ∀ span ∈ spans, span.file = file ∧ low ≤ span.low ∧ span.low ≤ span.high ∧ span.high ≤ content.length
  apart : spans.Pairwise fun first second => first.high ≤ second.low

theorem InRow.cons {stop : Nat} {span : Span} {spans : List Span} (here : span.Covers file content low high)
    (onward : high ≤ stop) (later : InRow file content stop spans) : InRow file content low (span :: spans) := by
  obtain ⟨owner, begins, stops, some, inside⟩ := here
  refine ⟨List.forall_mem_cons.mpr ⟨⟨owner, by omega, by omega, by omega⟩, ?_⟩, List.pairwise_cons.mpr ⟨?_, later.apart⟩⟩
  · intro other member
    obtain ⟨owner, least, rest⟩ := later.inside other member
    exact ⟨owner, by omega, rest⟩
  · intro other member
    have := (later.inside other member).2.1
    omega

theorem TriviaRow.le (trivia : TriviaRow file content low row high) : low ≤ high := by
  induction trivia with
  | nil => exact Nat.le_refl _
  | cons here _ _ ih =>
    have := here.some
    omega

theorem TriviaRow.inRow {spans : List Span} (trivia : TriviaRow file content low row high)
    (later : InRow file content high spans) : InRow file content low (row.map (·.span) ++ spans) := by
  induction trivia with
  | nil => exact later
  | cons here _ _ ih => exact .cons here (Nat.le_refl _) (ih later)

theorem TriviaRow.texts (trivia : TriviaRow file content low row high) :
    ∀ piece ∈ row, piece.text = piece.span.slice content := by
  induction trivia with
  | nil => nofun
  | cons here text _ ih => exact List.forall_mem_cons.mpr ⟨text, ih⟩

theorem TriviaRow.covered {offset : Nat} (trivia : TriviaRow file content low row high) (behind : low ≤ offset)
    (before : offset < high) : ∃ span ∈ row.map (·.span), span.low ≤ offset ∧ offset < span.high := by
  induction trivia with
  | nil => omega
  | @cons low middle high piece later here _ _ ih =>
    by_cases first : offset < middle
    · exact ⟨piece.span, List.mem_cons_self, here.begins ▸ behind, here.stops ▸ first⟩
    · obtain ⟨span, member, covers⟩ := ih (by omega) before
      exact ⟨span, List.mem_cons_of_mem _ member, covers⟩

namespace Tiled

theorem inRow (tiled : Tiled file content problems low tokens) (short : content.length < 4294967296) :
    InRow file content low (tokens.flatMap Token.spans) := by
  have front {token : Token} {later : List Token} {low start stop next : Nat}
      (row : TriviaRow file content low token.leading start) (here : token.span.Covers file content start stop)
      (onward : stop ≤ next) (behind : InRow file content next (later.flatMap Token.spans)) :
      InRow file content low ((token :: later).flatMap Token.spans) := by
    rw [List.flatMap_cons, Token.spans, List.append_assoc]
    exact row.inRow (.cons here onward behind)
  induction tiled with
  | ended inside trivia =>
    have size : content.length.toUInt32.toNat = content.length := Nat.mod_eq_of_lt short
    refine ⟨List.forall_mem_singleton.mpr ⟨rfl, ?_, Nat.le_refl _, Nat.le_of_eq size⟩, List.pairwise_singleton _ _⟩
    exact Nat.le_trans inside (Nat.le_of_eq size.symm)
  | token row here _ _ _ _ ih => exact front row here (Nat.le_refl _) ih
  | line row here _ _ _ onward _ _ _ ih => exact front row here onward ih
  | tooLong row here _ _ _ _ _ ih => exact front row here here.inside ih

theorem closed (tiled : Tiled file content problems low tokens) :
    ∃ front, tokens = front ++ [endToken file content] ∧
      ∀ token ∈ front, token.kind ≠ .endOfFile ∧ token.span.low < token.span.high := by
  have cons {token : Token} {later : List Token} {start stop : Nat} (here : token.span.Covers file content start stop)
      (more : token.kind ≠ .endOfFile) (closed : ∃ front, later = front ++ [endToken file content] ∧
        ∀ token ∈ front, token.kind ≠ .endOfFile ∧ token.span.low < token.span.high) :
      ∃ front, token :: later = front ++ [endToken file content] ∧
        ∀ token ∈ front, token.kind ≠ .endOfFile ∧ token.span.low < token.span.high := by
    obtain ⟨front, rfl, all⟩ := closed
    refine ⟨token :: front, rfl, List.forall_mem_cons.mpr ⟨⟨more, ?_⟩, all⟩⟩
    rw [here.begins, here.stops]
    exact here.some
  induction tiled with
  | ended => exact ⟨[], rfl, nofun⟩
  | token _ here more _ _ _ ih => exact cons here more ih
  | line _ here kind _ _ _ _ _ _ ih | tooLong _ here kind _ _ _ _ ih => exact cons here (by rw [kind]; decide) ih

theorem texts (tiled : Tiled file content problems low tokens) :
    ∀ token ∈ tokens, (∀ trivia ∈ token.leading, trivia.text = trivia.span.slice content) ∧
      (¬ token.TooLong → token.text = token.span.slice content) ∧
      (token.TooLong → token.kind = .invalid ∧ token.text = [] ∧
        ∃ report ∈ problems, report.code = .tokenTooLong ∧ report.span = token.span) := by
  induction tiled with
  | ended inside trivia =>
    refine List.forall_mem_singleton.mpr ⟨nofun, fun _ => ?_, fun long => ?_⟩
    · simp [endToken, Span.slice, Span.low, Span.high]
    · simp [endToken, Token.TooLong, Span.low, Span.high] at long
  | token row here _ fits text _ ih | line row here _ fits text _ _ _ _ ih =>
    exact List.forall_mem_cons.mpr ⟨⟨row.texts, fun _ => text, fun long => absurd long fits⟩, ih⟩
  | tooLong row here kind long text reported _ ih =>
    exact List.forall_mem_cons.mpr ⟨⟨row.texts, fun fits => absurd long fits, fun _ => ⟨kind, text, reported⟩⟩, ih⟩

end Tiled

theorem LeftOut.cons {least next offset : Nat} {token : Token} (left : LeftOut content next tokens offset)
    (onward : least ≤ next) (behind : token.span.high ≤ next) : LeftOut content least (token :: tokens) offset := by
  cases left with
  | lineEnd member directive behind before blanks ends =>
    exact .lineEnd (List.mem_cons_of_mem _ member) directive behind before blanks ends
  | fileEnd further inside last trivia =>
    refine .fileEnd (Nat.le_trans onward further) inside ?_ trivia
    exact List.forall_mem_cons.mpr ⟨fun _ => Nat.le_trans behind further, last⟩
  | skipped member long behind => exact .skipped (List.mem_cons_of_mem _ member) long behind

theorem Tiled.leftOut {offset : Nat} (tiled : Tiled file content problems low tokens) (behind : low ≤ offset)
    (uncovered : ∀ span ∈ tokens.flatMap Token.spans, ¬ (span.low ≤ offset ∧ offset < span.high)) :
    LeftOut content low tokens offset := by
  -- A byte that is not covered by a token and its trivia lies behind them.
  have past {token : Token} {later : List Token} {low start stop : Nat}
      (row : TriviaRow file content low token.leading start) (here : token.span.Covers file content start stop)
      (behind : low ≤ offset)
      (uncovered : ∀ span ∈ (token :: later).flatMap Token.spans, ¬ (span.low ≤ offset ∧ offset < span.high)) :
      token.span.high ≤ offset ∧ low ≤ stop ∧
        ∀ span ∈ later.flatMap Token.spans, ¬ (span.low ≤ offset ∧ offset < span.high) := by
    obtain ⟨first, rest⟩ := List.forall_mem_append.mp uncovered
    obtain ⟨trivia, own⟩ := List.forall_mem_append.mp first
    have own := own token.span List.mem_cons_self
    have started : start ≤ offset := by
      apply Nat.le_of_not_lt
      intro early
      obtain ⟨span, member, covers⟩ := row.covered behind early
      exact trivia span member covers
    have := row.le
    have := here.some
    rw [here.begins, here.stops] at own
    exact ⟨by rw [here.stops]; omega, by omega, rest⟩
  induction tiled with
  | ended _ trivia =>
    exact .fileEnd (Nat.le_refl _) behind (List.forall_mem_singleton.mpr fun more => absurd rfl more) trivia
  | token row here _ _ _ _ ih =>
    obtain ⟨passed, onward, rest⟩ := past row here behind uncovered
    exact (ih (here.stops ▸ passed) rest).cons onward (Nat.le_of_eq here.stops)
  | @line low start stop next token later row here kind _ _ further blanks ends _ ih =>
    obtain ⟨passed, onward, rest⟩ := past row here behind uncovered
    by_cases before : offset < next
    · exact .lineEnd List.mem_cons_self kind passed before (here.stops ▸ blanks) ends
    · exact (ih (by omega) rest).cons (by omega) (Nat.le_trans (Nat.le_of_eq here.stops) further)
  | tooLong row here _ long _ _ _ _ => exact .skipped List.mem_cons_self long (past row here behind uncovered).1

end

/-- The tokens of a file end with the only end of the file. They and what stands in front of them lie inside the file, one
behind the other, and hold the texts that they cover; only a token of extraordinary length has none. A byte that is not
covered is a blank at the end of a preprocessor line, lies behind the last token, or follows a token that is too
long. -/
theorem tokenize_tiles (file : UInt32) (content : Text) (short : content.length < 4294967296) :
    let tokens := (tokenize file content).1
    let spans := tokens.flatMap Token.spans
    (∃ front, tokens = front ++ [endToken file content] ∧
      ∀ token ∈ front, token.kind ≠ .endOfFile ∧ token.span.low < token.span.high) ∧
    (∀ span ∈ spans, span.file = file ∧ span.low ≤ span.high ∧ span.high ≤ content.length) ∧
    (spans.Pairwise fun first second => first.high ≤ second.low) ∧
    (∀ token ∈ tokens, (∀ trivia ∈ token.leading, trivia.text = trivia.span.slice content) ∧
      (¬ token.TooLong → token.text = token.span.slice content) ∧
      (token.TooLong → token.kind = .invalid ∧ token.text = [] ∧
        ∃ report ∈ (tokenize file content).2, report.code = .tokenTooLong ∧ report.span = token.span)) ∧
    ∀ offset < content.length, (∀ span ∈ spans, ¬ (span.low ≤ offset ∧ offset < span.high)) →
      LeftOut content 0 tokens offset := by
  intro tokens spans
  have inside : (Lexer.start file content).In content := ⟨rfl, Nat.zero_le _⟩
  have tiled : Tiled file content (tokenize file content).2 0 tokens := Lexer.run_tiled inside short
  have inRow := tiled.inRow short
  refine ⟨tiled.closed, fun span member => ?_, inRow.apart, tiled.texts, ?_⟩
  · obtain ⟨owner, -, ordered, within⟩ := inRow.inside span member
    exact ⟨owner, ordered, within⟩
  · intro offset _ uncovered
    exact tiled.leftOut (Nat.zero_le _) uncovered

theorem lineEnd_left_out :
    let content : Text := "#if a \nb /*"
    content.length < 4294967296 ∧ content[5]? = some (Text.byte ' ') ∧ LeftOut content 0 (tokenize 0 content).1 5 := by
  refine ⟨by decide +kernel, by decide +kernel, ?_⟩
  obtain ⟨-, -, -, -, left⟩ := tokenize_tiles 0 "#if a \nb /*" (by decide +kernel)
  apply left 5
  · decide +kernel
  · decide +kernel

end GenericC
