import GenericC.Proofs.TokenStreams
import GenericC.Proofs.TokenText
import Mathlib.Data.List.Find

/-! Texts from which given tokens are read. A token is read off the head of a text when nothing behind it prolongs
it; blanks do not matter. -/

namespace GenericC
open Lexeme
open Text (byte)
open Content (mark)

variable {b : UInt8} {rest : Text} {xs : List Content}

/-- A token is read off the head of its text, when `rest` stands behind it. -/
structure Content.Heads (x : Content) (rest : Text) : Prop where
  more : x.1 ≠ .endOfFile
  short : x.2.length ≤ Lexer.maxTokenLength
  bare : TriviaPiece.at? (x.2 ++ rest) = none
  scanned : ∃ b tail, x.2 = b :: tail ∧ ∀ lineStart, scan lineStart b (tail ++ rest) = exact x.1 x.2.length

def isBlank (b : UInt8) : Bool := isSpace b || isNewline b

/-- The tokens that are read from a text without comments. -/
inductive Reads : Text → List Content → Prop
  | nil : Reads [] []
  | blank {b : UInt8} {text : Text} {xs : List Content} : isBlank b = true → Reads text xs → Reads (b :: text) xs
  | token {x : Content} {rest : Text} {xs : List Content} : x.Heads rest → Reads rest xs → Reads (x.2 ++ rest) (x :: xs)

def WordEnd (rest : Text) : Prop := ∀ b, rest.head? = some b → isNameByte b = false

theorem WordEnd.cons (ends : isNameByte b = false) : WordEnd (b :: rest) := by
  intro c first
  cases first
  exact ends

def Content.ofWord (word : Text) : Content := ((TokenKind.keyword? word).getD .identifier, word)

theorem Content.ofWord_kind (word : Text) : (Content.ofWord word).1.isKeyword = true ∨ (Content.ofWord word).1 = .identifier := by
  unfold Content.ofWord
  cases found : TokenKind.keyword? word with
  | none => exact .inr rfl
  | some kind =>
    obtain ⟨row, selected, rfl⟩ := Option.map_eq_some_iff.mp found
    have words : ∀ row ∈ TokenKind.keywords, row.1.isKeyword = true := by decide
    exact .inl (words row (List.mem_of_find?_eq_some selected))

theorem Content.ofWord_ne {kind : TokenKind} (noKeyword : kind.isKeyword = false) (noName : kind ≠ .identifier)
    (word : Text) : (Content.ofWord word).1 ≠ kind := by
  rintro rfl
  rcases Content.ofWord_kind word with keyword | name
  · rw [keyword] at noKeyword
    cases noKeyword
  · exact noName name

theorem run_word {word : Text} (inside : ∀ c ∈ word, isNameByte c = true) (ends : WordEnd rest) :
    run isNameByte (word ++ rest) = word.length := by
  have stops : rest.takeWhile isNameByte = [] := by
    cases rest with
    | nil => rfl
    | cons b rest => rw [List.takeWhile_cons, ends b rfl, if_neg Bool.false_ne_true]
  rw [run, List.takeWhile_append_of_pos inside, stops, List.append_nil]

theorem nameStart_plain (start : isNameStart b = true) :
    b ≠ byte '#' ∧ isSpace b = false ∧ isNewline b = false ∧ b ≠ byte '/' := by
  refine ⟨?_, ?_, ?_, ?_⟩
  · rintro rfl
    exact absurd start (by decide)
  · apply Bool.eq_false_iff.mpr
    intro space
    simp only [isSpace, Bool.or_eq_true, decide_eq_true_eq] at space
    rcases space with (((rfl | rfl) | rfl) | rfl) | rfl <;> exact absurd start (by decide)
  · apply Bool.eq_false_iff.mpr
    intro newline
    simp only [isNewline, decide_eq_true_eq] at newline
    subst newline
    exact absurd start (by decide)
  · rintro rfl
    exact absurd start (by decide)

theorem Content.ofWord_heads {word : Text} (isWord : IsWord word) (short : word.length ≤ Lexer.maxTokenLength)
    (ends : WordEnd rest) : (Content.ofWord word).Heads rest := by
  obtain ⟨b, tail, rfl, start, inside⟩ := isWord
  obtain ⟨noHash, noSpace, noNewline, noSlash⟩ := nameStart_plain start
  have all : ∀ c ∈ b :: tail, isNameByte c = true := List.forall_mem_cons.mpr ⟨isNameByte_of_start start, inside⟩
  refine ⟨Content.ofWord_ne rfl (by decide) _, short, ?_, b, tail, rfl, fun lineStart => ?_⟩
  · simp [Content.ofWord, TriviaPiece.at?, noSpace, noNewline, noSlash]
  · have length := run_word all ends
    rw [List.cons_append] at length
    rw [scan, if_neg (by simp [noHash]), if_pos start, name, length]
    simp [Content.ofWord]

theorem IsName.heads {name : Text} (isName : IsName name) (ends : WordEnd rest) : (Content.word name).Heads rest := by
  have heads := Content.ofWord_heads isName.word isName.short ends
  rwa [Content.ofWord, isName.free] at heads

/-- The bytes that would be read as a part of the mark in front of them. -/
def TokenKind.joins (kind : TokenKind) (b : UInt8) : Bool :=
  match kind with
  | .plus => b = Text.byte '+' || b = Text.byte '='
  | .minus => b = Text.byte '-' || b = Text.byte '=' || b = Text.byte '>'
  | .slash => b = Text.byte '=' || b = Text.byte '/' || b = Text.byte '*'
  | .amp => b = Text.byte '&' || b = Text.byte '='
  | .pipe => b = Text.byte '|' || b = Text.byte '='
  | .less => b = Text.byte '<' || b = Text.byte '='
  | .greater => b = Text.byte '>' || b = Text.byte '='
  | .star | .percent | .caret | .bang | .assign | .shiftLeft | .shiftRight => b = Text.byte '='
  | .dot => b = Text.byte '.' || Text.isDigit b
  | _ => false

def TokenKind.isMark (kind : TokenKind) : Bool := TokenKind.operators.any fun row => row.1 = kind

theorem longOperator_joins : ∀ row ∈ TokenKind.operators, ∀ long ∈ longOperators,
    row.1.spelling <+: Text.ofString long.2 → row.1.spelling.length < (Text.ofString long.2).length →
      ((Text.ofString long.2).drop row.1.spelling.length).head?.all row.1.joins = true := by
  decide +kernel

theorem operator_spelling : ∀ row ∈ TokenKind.operators, operator row.1.spelling = exact row.1 row.1.spelling.length := by
  simp only [TokenKind.operators, List.forall_mem_cons, List.not_mem_nil, false_implies, implies_true, and_true]
  and_intros <;> rfl

theorem operators_start : ∀ row ∈ TokenKind.operators, ∃ b tail, row.1.spelling = b :: tail ∧ b ≠ byte '#' ∧
    isNameStart b = false ∧ Text.isDigit b = false ∧ b ≠ byte '"' ∧ b ≠ byte '\'' ∧ isBlank b = false ∧
    (b = byte '.' → row.1 ≠ .dot → tail.head? = some (byte '.')) ∧
    (b = byte '/' → row.1 ≠ .slash → tail.head? = some (byte '=')) := by
  simp only [TokenKind.operators, List.forall_mem_cons, List.not_mem_nil, false_implies, implies_true, and_true]
  and_intros <;> exact ⟨_, _, rfl, by decide⟩

def MarkEnd (kind : TokenKind) (rest : Text) : Prop := ∀ b, rest.head? = some b → kind.joins b = false

theorem startsWith_mark {row : TokenKind × String} (isMark : row ∈ TokenKind.operators) (ends : MarkEnd row.1 rest) :
    ∀ long ∈ longOperators,
      Text.startsWith (row.1.spelling ++ rest) (Text.ofString long.2) =
        Text.startsWith row.1.spelling (Text.ofString long.2) := by
  intro long member
  rw [Bool.eq_iff_iff, Text.startsWith, Text.startsWith, List.isPrefixOf_iff_prefix, List.isPrefixOf_iff_prefix]
  refine ⟨fun starts => ?_, fun starts => starts.trans (List.prefix_append _ _)⟩
  by_cases fits : (Text.ofString long.2).length ≤ row.1.spelling.length
  · exact List.prefix_of_prefix_length_le starts (List.prefix_append _ _) fits
  · -- A longer mark would take the first byte behind this one.
    have shorter : row.1.spelling.length < (Text.ofString long.2).length := by omega
    have front : row.1.spelling <+: Text.ofString long.2 :=
      List.prefix_of_prefix_length_le (List.prefix_append _ _) starts (by omega)
    obtain ⟨more, same⟩ := front
    have joins := longOperator_joins row isMark long member ⟨more, same⟩ shorter
    rw [← same] at starts joins shorter
    rw [List.drop_left] at joins
    obtain ⟨behind, rfl⟩ := (List.prefix_append_right_inj _).mp starts
    cases more with
    | nil => simp at shorter
    | cons b more => exact absurd joins (by simp [ends b rfl])

theorem operator_mark {row : TokenKind × String} (isMark : row ∈ TokenKind.operators) (ends : MarkEnd row.1 rest) :
    operator (row.1.spelling ++ rest) = exact row.1 row.1.spelling.length := by
  obtain ⟨b, tail, spelling, -⟩ := operators_start row isMark
  have own := operator_spelling row isMark
  unfold operator at own ⊢
  rw [List.find?_congr (startsWith_mark isMark ends)]
  cases found : longOperators.find? fun long => Text.startsWith row.1.spelling (Text.ofString long.2) with
  | some long =>
    rw [found] at own
    exact own
  | none =>
    rw [found] at own
    dsimp only at own ⊢
    have head : (row.1.spelling ++ rest).head? = row.1.spelling.head? := by rw [spelling]; rfl
    rw [head]
    cases single : shortOperators.find? fun short => row.1.spelling.head? = some (byte short.2) with
    | some short =>
      rw [single] at own
      exact own
    | none =>
      rw [single] at own
      simp [unknown, broken, exact] at own

theorem at?_eq_none (noBlank : isBlank b = false)
    (noComment : b = byte '/' → ∀ c, rest.head? = some c → c ≠ byte '/' ∧ c ≠ byte '*') :
    TriviaPiece.at? (b :: rest) = none := by
  simp only [isBlank, Bool.or_eq_false_iff] at noBlank
  unfold TriviaPiece.at?
  dsimp only
  rw [if_neg (by simp [noBlank.1]), if_neg (by simp [noBlank.2])]
  by_cases slash : b = byte '/'
  · rw [if_pos slash]
    cases rest with
    | nil => rfl
    | cons c body =>
      obtain ⟨noLine, noBlock⟩ := noComment slash c rfl
      dsimp only
      rw [if_neg noLine, if_neg noBlock]
  · rw [if_neg slash]

theorem Content.mark_heads {kind : TokenKind} (isMark : kind.isMark = true) (ends : MarkEnd kind rest) :
    (mark kind).Heads rest := by
  obtain ⟨row, member, same⟩ := List.any_eq_true.mp isMark
  obtain rfl : row.1 = kind := of_decide_eq_true same
  obtain ⟨b, tail, spelling, noHash, noName, noDigit, noString, noCharacter, noBlank, point, slash⟩ :=
    operators_start row member
  have read := operator_mark member ends
  have others : ∀ row ∈ TokenKind.operators, row.1 ≠ .endOfFile ∧ row.1.spelling.length ≤ 3 ∧
      (row.1 = .slash ∨ row.1 = .dot → row.1.spelling.length = 1) := by decide +kernel
  obtain ⟨more, short, single⟩ := others row member
  refine ⟨more, Nat.le_trans short (by decide), ?_, b, tail, spelling, fun lineStart => ?_⟩
  · show TriviaPiece.at? (row.1.spelling ++ rest) = none
    rw [spelling, List.cons_append]
    refine at?_eq_none noBlank fun isSlash c first => ?_
    by_cases division : row.1 = .slash
    · obtain rfl : tail = [] := by simpa [spelling] using single (.inl division)
      have apart := ends c first
      rw [division] at apart
      simp only [TokenKind.joins, Bool.or_eq_false_iff, decide_eq_false_iff_not] at apart
      exact ⟨apart.1.2, apart.2⟩
    · rw [List.head?_append, slash isSlash division] at first
      obtain rfl : byte '=' = c := by simpa using first
      decide
  · have noNumber : ¬ (decide (b = byte '.') && startsWithDigit (tail ++ rest)) = true := by
      rw [Bool.and_eq_true, decide_eq_true_eq]
      rintro ⟨isPoint, digit⟩
      by_cases dot : row.1 = .dot
      · obtain rfl : tail = [] := by simpa [spelling] using single (.inr dot)
        cases rest with
        | nil => exact absurd digit (by decide)
        | cons c rest =>
          have apart := ends c rfl
          rw [dot] at apart
          simp only [TokenKind.joins, Bool.or_eq_false_iff] at apart
          exact absurd digit (by simp [startsWithDigit, apart.2])
      · cases tail with
        | nil => simpa using point isPoint dot
        | cons c tail =>
          obtain rfl : c = byte '.' := by simpa using point isPoint dot
          exact absurd (show Text.isDigit (byte '.') = true from digit) (by decide)
    rw [scan, if_neg (by simp [noHash]), if_neg (by simp [noName]), if_neg (by simp [noDigit]), if_neg noNumber,
      if_neg noString, if_neg noCharacter]
    show operator (b :: tail ++ rest) = exact row.1 row.1.spelling.length
    rw [← spelling, read]

theorem Reads.mark (kind : TokenKind) (ends : MarkEnd kind rest) (reads : Reads rest xs)
    (isMark : kind.isMark = true := by rfl) : Reads (kind.spelling ++ rest) (mark kind :: xs) :=
  .token (Content.mark_heads isMark ends) reads

theorem Content.Heads.noBlank {x : Content} (heads : x.Heads rest) {tail : Text} (first : x.2 ++ rest = b :: tail) :
    isBlank b = false := by
  have bare := heads.bare
  rw [first] at bare
  unfold TriviaPiece.at? at bare
  dsimp only at bare
  split at bare
  · cases bare
  next noSpace =>
    split at bare
    · cases bare
    next noNewline => simp [isBlank, noSpace, noNewline]

theorem Reads.afterBlank {text : Text} (reads : Reads (b :: text) xs) (blank : isBlank b = true) : Reads text xs := by
  generalize whole : b :: text = t at reads
  cases reads with
  | nil => cases whole
  | blank _ reads =>
    cases whole
    exact reads
  | token heads _ =>
    rw [heads.noBlank whole.symm] at blank
    cases blank

theorem Reads.afterBlanks {p : UInt8 → Bool} (blank : ∀ b, p b = true → isBlank b = true) {text : Text}
    (reads : Reads text xs) : Reads (text.drop (run p text)) xs := by
  induction text with
  | nil => exact reads
  | cons b text ih =>
    rw [run, List.takeWhile_cons]
    by_cases holds : p b = true
    · rw [if_pos holds]
      exact ih (reads.afterBlank (blank b holds))
    · rwa [if_neg holds]

theorem Reads.piece {text : Text} {piece : TriviaPiece} (reads : Reads text xs)
    (found : TriviaPiece.at? text = some piece) : piece.closed = true ∧ Reads (text.drop piece.length) xs := by
  cases reads with
  | nil => cases found
  | token heads _ =>
    rw [heads.bare] at found
    cases found
  | @blank b text xs blank reads =>
    have first := Reads.blank blank reads
    cases TriviaPiece.begins_of_at? found with
    | spaces => exact ⟨rfl, first.afterBlanks fun b space => by simp [isBlank, space]⟩
    | newlines => exact ⟨rfl, first.afterBlanks fun b newline => by simp [isBlank, newline]⟩
    | lineComment | blockComment => cases blank

namespace Lexer

theorem leading_reads (lexer : Lexer) (reads : Reads lexer.rest xs) :
    lexer.leading.problems = [] ∧ Reads lexer.leading.next.rest xs ∧ TriviaPiece.at? lexer.leading.next.rest = none := by
  fun_induction leading lexer with
  | case1 lexer found => exact ⟨rfl, reads, found⟩
  | case2 lexer piece found more ih =>
    obtain ⟨closed, later⟩ := reads.piece found
    obtain ⟨problems, rest⟩ := ih later
    refine ⟨?_, rest⟩
    show lexer.triviaProblems piece ++ more.problems = []
    rw [problems, triviaProblems, if_pos closed]
    rfl

theorem significant_exact {kind : TokenKind} {tail : Text} (lexer : Lexer) (trivia : List Trivia)
    (text : lexer.rest = b :: tail ++ rest)
    (scanned : scan lexer.lineStart b (tail ++ rest) = exact kind (b :: tail).length)
    (short : (b :: tail).length ≤ maxTokenLength) :
    (lexer.significant trivia).problems = [] ∧ (lexer.significant trivia).token.content = (kind, b :: tail) ∧
      (lexer.significant trivia).next.rest = rest := by
  have fits : ¬ maxTokenLength < (scan lexer.lineStart b (tail ++ rest)).length := by
    rw [scanned]
    exact Nat.not_lt.mpr short
  unfold significant
  rw [text, List.cons_append]
  dsimp only
  rw [if_neg fits, scanned]
  refine ⟨rfl, ?_, ?_⟩
  · exact congrArg (kind, ·) (@List.take_left _ (b :: tail) rest)
  · show lexer.rest.drop (b :: tail).length = rest
    rw [text, List.drop_left]

theorem significant_reads {x : Content} (lexer : Lexer) (trivia : List Trivia) (heads : x.Heads rest)
    (text : lexer.rest = x.2 ++ rest) :
    (lexer.significant trivia).problems = [] ∧ (lexer.significant trivia).token.content = x ∧
      (lexer.significant trivia).next.rest = rest := by
  obtain ⟨b, tail, spelled, scanned⟩ := heads.scanned
  obtain ⟨kind, word⟩ := x
  obtain rfl : word = b :: tail := spelled
  exact lexer.significant_exact trivia text (scanned _) heads.short

theorem step_reads (lexer : Lexer) (reads : Reads lexer.rest xs) :
    lexer.step.problems = [] ∧
    ((xs = [] ∧ lexer.step.token.content = (.endOfFile, [])) ∨
      ∃ later, xs = lexer.step.token.content :: later ∧ lexer.step.token.kind ≠ .endOfFile ∧
        Reads lexer.step.next.rest later) := by
  obtain ⟨noProblems, front, bare⟩ := lexer.leading_reads reads
  have problems : lexer.step.problems = (lexer.leading.next.significant lexer.leading.trivia).problems := by
    show lexer.leading.problems ++ _ = _
    rw [noProblems, List.nil_append]
  rw [problems]
  show _ ∧ ((_ ∧ (lexer.leading.next.significant lexer.leading.trivia).token.content = _) ∨
    ∃ later, _ = (lexer.leading.next.significant lexer.leading.trivia).token.content :: later ∧
      (lexer.leading.next.significant lexer.leading.trivia).token.kind ≠ _ ∧
      Reads (lexer.leading.next.significant lexer.leading.trivia).next.rest later)
  generalize lexer.leading.next = next at front bare
  generalize text : next.rest = t at front bare
  cases front with
  | nil =>
    unfold significant
    rw [text]
    exact ⟨rfl, .inl ⟨rfl, rfl⟩⟩
  | @blank b t xs blank reads =>
    unfold TriviaPiece.at? at bare
    simp only [isBlank, Bool.or_eq_true] at blank
    rcases blank with space | newline
    · simp [space] at bare
    · simp only [newline, if_true] at bare
      split at bare <;> cases bare
  | @token x rest later heads reads =>
    obtain ⟨problems, token, onward⟩ := next.significant_reads lexer.leading.trivia heads text
    refine ⟨problems, .inr ⟨later, by rw [token], ?_, by rwa [onward]⟩⟩
    rw [← Token.content_fst, token]
    exact heads.more

theorem run_reads (lexer : Lexer) : ∀ xs, Reads lexer.rest xs →
    lexer.run.1.map Token.content = xs ++ [(.endOfFile, [])] ∧ lexer.run.2 = [] := by
  fun_induction run lexer with
  | case1 lexer read last =>
    intro xs reads
    obtain ⟨problems, ⟨rfl, token⟩ | ⟨later, -, more, -⟩⟩ := lexer.step_reads reads
    · exact ⟨congrArg ([·]) token, problems⟩
    · exact absurd last more
  | case2 lexer read more later ih =>
    intro xs reads
    obtain ⟨problems, ⟨-, token⟩ | ⟨rest, rfl, -, onward⟩⟩ := lexer.step_reads reads
    · exact absurd (congrArg Prod.fst token) more
    · obtain ⟨tokens, silent⟩ := ih rest onward
      refine ⟨congrArg (lexer.step.token.content :: ·) tokens, ?_⟩
      show lexer.step.problems ++ later.2 = []
      rw [problems, silent]
      rfl

end Lexer

/-- The tokens of a text are those that are read from it, and nothing is wrong with them. -/
theorem tokenize_reads {content : Text} (file : UInt32) (reads : Reads content xs) :
    (tokenize file content).1.map Token.content = xs ++ [(.endOfFile, [])] ∧ (tokenize file content).2 = [] :=
  (Lexer.start file content).run_reads xs reads

end GenericC
