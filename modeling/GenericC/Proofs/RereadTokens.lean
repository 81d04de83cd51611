import GenericC.Proofs.TokenReading

/-! Tokens that are written down and read again. The tokens of a text without mistakes are told by their own texts:
with single blanks between them they are read as before, whatever stood around them in the text. -/

namespace GenericC
open Lexeme

namespace Lexer

theorem significant_valid (lexer : Lexer) (trivia : List Trivia) (clean : (lexer.significant trivia).problems = []) :
    (lexer.significant trivia).token.kind ≠ .invalid := by
  unfold significant at clean ⊢
  split
  · exact TokenKind.noConfusion
  next b tail same =>
    rw [same] at clean
    dsimp only at clean ⊢
    split
    next long =>
      rw [if_pos long] at clean
      exact absurd (List.append_eq_nil_iff.mp clean).2 (List.cons_ne_nil _ _)
    next short =>
      rw [if_neg short] at clean
      intro (invalid : (scan lexer.lineStart b tail).kind = .invalid)
      rcases scan_within lexer.lineStart b tail with ⟨read, -⟩ | within
      · rw [read] at invalid
        cases invalid
      · rcases within.kind with ordinary | ⟨-, problem⟩
        · rw [invalid] at ordinary
          cases ordinary
        · obtain ⟨found, reported⟩ := Option.isSome_iff_exists.mp problem
          rw [reported] at clean
          cases clean

theorem run_valid (lexer : Lexer) (clean : lexer.run.2 = []) : ∀ token ∈ lexer.run.1, token.kind ≠ .invalid := by
  intro token member
  obtain ⟨place, trivia, rfl, silent⟩ := lexer.run_significant token member
  exact place.significant_valid trivia (silent clean)

end Lexer

def BlankNext (rest : Text) : Prop := ∀ b, rest.head? = some b → b = Text.byte ' '

theorem BlankNext.wordEnd {rest : Text} (spaced : BlankNext rest) : WordEnd rest := by
  intro b first
  rw [spaced b first]
  rfl

theorem BlankNext.numberEnd {rest : Text} (spaced : BlankNext rest) : NumberEnd rest := by
  intro b first
  rw [spaced b first]
  decide

theorem BlankNext.markEnd {rest : Text} (spaced : BlankNext rest) (kind : TokenKind) : MarkEnd kind rest := by
  intro b first
  rw [spaced b first]
  cases kind <;> rfl

theorem isBlank_literalStart {b : UInt8} (start : isLiteralStart b = true) : isBlank b = false ∧ b ≠ Text.byte '/' := by
  simp only [isLiteralStart, Bool.or_eq_true, decide_eq_true_eq] at start
  rcases start with ((digit | rfl) | rfl) | rfl
  · have low : 48 ≤ b.toNat := by
      simp only [Text.isDigit, Bool.and_eq_true, decide_eq_true_eq, UInt8.le_iff_toNat_le] at digit
      exact digit.1
    have apart : ∀ c : UInt8, c.toNat < 48 → b ≠ c := by
      rintro c high rfl
      omega
    simp only [isBlank, isSpace, isNewline, Bool.or_eq_false_iff, decide_eq_false_iff_not]
    and_intros <;> exact apart _ (by decide)
  all_goals decide

theorem IsLiteral.heads {kind : TokenKind} {text rest : Text} (literal : IsLiteral kind text) (more : kind ≠ .endOfFile)
    (ends : kind.isNumber = true → NumberEnd rest) : Content.Heads (kind, text) rest := by
  obtain ⟨b, tail, rfl, start, short, scanned⟩ := literal
  obtain ⟨noBlank, noSlash⟩ := isBlank_literalStart start
  exact ⟨more, short, at?_eq_none noBlank fun slash => absurd slash noSlash, b, tail, rfl,
    fun lineStart => scanned lineStart rest ends⟩

theorem keyword_spelling : ∀ row ∈ TokenKind.keywords, TokenKind.keyword? row.1.spelling = some row.1 ∧
    row.1.spelling.length ≤ 8 ∧ row.1.spelling.head?.any isNameStart = true ∧ row.1.spelling.all isNameByte = true := by
  decide +kernel

theorem TokenKind.isOrdinary_cases {kind : TokenKind} (ordinary : kind.isOrdinary = true) :
    kind = .identifier ∨ kind.isLiteral = true ∨ kind.isKeyword = true ∨ kind.isMark = true := by
  revert ordinary
  cases kind <;> decide

theorem Token.Spelled.heads {token : Token} (spelled : token.Spelled) (ordinary : token.kind.isOrdinary = true)
    {rest : Text} (spaced : BlankNext rest) : Content.Heads token.content rest := by
  unfold Token.Spelled at spelled
  show Content.Heads (token.kind, token.text) rest
  generalize token.kind = kind at spelled ordinary
  generalize token.text = text at spelled
  have plain : kind.isKeyword = true ∨ kind.isMark = true → text = kind.spelling := by
    intro fixed
    cases kind <;> first | exact spelled | exact absurd fixed (by decide)
  rcases TokenKind.isOrdinary_cases ordinary with rfl | literal | keyword | isMark
  · exact IsName.heads spelled spaced.wordEnd
  · have isLiteral : IsLiteral kind text := by
      cases kind <;> first | exact spelled | cases literal
    refine isLiteral.heads ?_ fun _ => spaced.numberEnd
    rintro rfl
    cases literal
  · obtain ⟨row, member, same⟩ := List.any_eq_true.mp keyword
    obtain rfl : row.1 = kind := of_decide_eq_true same
    obtain ⟨found, short, start, inside⟩ := keyword_spelling row member
    have word : IsWord row.1.spelling := by
      cases spelling : row.1.spelling with
      | nil => rw [spelling] at start; cases start
      | cons b tail =>
        rw [spelling] at start inside
        exact ⟨b, tail, rfl, start, fun c member => List.all_eq_true.mp inside c (List.mem_cons_of_mem b member)⟩
    have heads := Content.ofWord_heads word (Nat.le_trans short (by decide)) spaced.wordEnd
    rwa [Content.ofWord, found, ← plain (.inl keyword)] at heads
  · rw [plain (.inr isMark)]
    exact Content.mark_heads isMark (spaced.markEnd kind)

theorem reads_joinWith {tokens : List Token} (spelled : ∀ token ∈ tokens, token.Spelled ∧ token.kind.isOrdinary = true) :
    Reads (Text.joinWith " " (tokens.map (·.text))) (tokens.map Token.content) := by
  have behind : ∀ rest : List Token, BlankNext ((rest.map (·.text)).flatMap (Text.ofString " " ++ ·)) := by
    rintro (_ | ⟨token, rest⟩) b first <;> cases first
    rfl
  cases tokens with
  | nil => exact .nil
  | cons token rest =>
    obtain ⟨⟨here, ordinary⟩, later⟩ := List.forall_mem_cons.mp spelled
    refine .token (here.heads ordinary (behind rest)) ?_
    clear here ordinary spelled
    induction rest with
    | nil => exact .nil
    | cons next rest ih =>
      obtain ⟨⟨here, ordinary⟩, later⟩ := List.forall_mem_cons.mp later
      exact .blank rfl (.token (here.heads ordinary (behind rest)) (ih later))

/-- The tokens of a text without mistakes are told by their own texts. Preprocessor lines are left out, and the others
are read again from their texts with single blanks between them. -/
theorem tokenize_joined (file again : UInt32) (content : Text) (clean : (tokenize file content).2 = []) :
    let tokens := (tokenize file content).1.filter fun token => token.kind ≠ .endOfFile ∧ token.kind ≠ .directive
    let joined := Text.joinWith " " (tokens.map (·.text))
    (tokenize again joined).2 = [] ∧
      (tokenize again joined).1.map Token.content = tokens.map Token.content ++ [(.endOfFile, [])] := by
  intro tokens joined
  suffices reads : Reads joined (tokens.map Token.content) from (tokenize_reads again reads).symm
  refine reads_joinWith fun token member => ?_
  obtain ⟨member, kept⟩ := List.mem_filter.mp member
  have valid := (Lexer.start file content).run_valid clean token member
  exact ⟨tokenize_spelled file content token member, by simpa [TokenKind.isOrdinary, valid] using kept⟩

theorem tokenize_joined_glued :
    let tokens : List Content := [(.floating, "2.f"), (.shiftRightAssign, ">>="), (.identifier, "x")]
    (tokenize 0 "#if a\n2.f>>=x").2 = [] ∧ (tokenize 1 "2.f >>= x").2 = [] ∧
      (tokenize 1 "2.f >>= x").1.map Token.content = tokens ++ [(.endOfFile, [])] := by
  intro tokens
  have clean : (tokenize 0 "#if a\n2.f>>=x").2 = [] := by decide +kernel
  have again := tokenize_joined 0 1 "#if a\n2.f>>=x" clean
  dsimp only at again
  generalize kept : List.filter _ (tokenize 0 "#if a\n2.f>>=x").1 = front at again
  have joined : Text.joinWith " " (front.map (·.text)) = "2.f >>= x" := by
    rw [← kept]
    decide +kernel
  have same : front.map Token.content = tokens := by
    rw [← kept]
    decide +kernel
  rw [joined, same] at again
  exact ⟨clean, again⟩

end GenericC
