import GenericC.Token.Lexeme

/-! Splitting the content of a file into tokens. Blanks and comments are attached to
the token after them. A token of extraordinary length ends the file. -/

namespace GenericC

structure Lexer where
  file : UInt32
  rest : Text
  offset : Nat := 0
  /-- Whether only blanks and comments stand before this place on its line. -/
  lineStart : Bool := true

namespace Lexer

def maxTokenLength : Nat := 65536

def start (file : UInt32) (content : Text) : Lexer := { file, rest := content }

def span (lexer : Lexer) (length : Nat) : Span :=
  ⟨lexer.file, lexer.offset.toUInt32, (lexer.offset + length).toUInt32⟩

def skip (lexer : Lexer) (count : Nat) : Lexer :=
  { lexer with rest := lexer.rest.drop count, offset := lexer.offset + count }

def triviaOf (lexer : Lexer) (piece : TriviaPiece) : Trivia :=
  ⟨piece.kind, lexer.span piece.length, lexer.rest.take piece.length⟩

def triviaProblems (lexer : Lexer) (piece : TriviaPiece) : List Diagnostic :=
  if piece.closed then []
  else [.ofError .unterminatedComment (lexer.span piece.length) "unterminated block comment"]

def afterTrivia (lexer : Lexer) (piece : TriviaPiece) : Lexer :=
  { lexer.skip piece.length with lineStart := lexer.lineStart || piece.kind = .newline }

/-- Blanks and comments in front of a token, and what is reported about them. -/
structure Leading where
  trivia : List Trivia
  problems : List Diagnostic
  next : Lexer

def leading (lexer : Lexer) : Leading :=
  match _found : TriviaPiece.at? lexer.rest with
  | none => ⟨[], [], lexer⟩
  | some piece =>
    let more := leading (lexer.afterTrivia piece)
    { more with
      trivia := lexer.triviaOf piece :: more.trivia
      problems := lexer.triviaProblems piece ++ more.problems }
termination_by lexer.rest.length
decreasing_by
  have positive := TriviaPiece.at?_pos _found
  have nonempty : lexer.rest ≠ [] := by
    intro empty
    simp [empty, TriviaPiece.at?] at _found
  have := List.length_pos_iff.mpr nonempty
  simp only [afterTrivia, skip, List.length_drop]
  omega

/-- One token, what is reported while it is read, and what comes after it. -/
structure Step where
  token : Token
  problems : List Diagnostic
  next : Lexer

def significant (lexer : Lexer) (trivia : List Trivia) : Step :=
  match lexer.rest with
  | [] => ⟨{ kind := .endOfFile, span := lexer.span 0 }, [], lexer⟩
  | b :: tail =>
    let lexeme := Lexeme.scan lexer.lineStart b tail
    let span := lexer.span lexeme.length
    let problems := match lexeme.problem with
      | none => []
      | some (code, message) => [Diagnostic.ofError code span message]
    if maxTokenLength < lexeme.length then
      ⟨{ kind := .invalid, span, leading := trivia },
        problems ++ [.ofError .tokenTooLong span
          (Text.ofString "token exceeds " ++ Text.ofNat maxTokenLength ++ Text.ofString " bytes")],
        { lexer.skip lexer.rest.length with lineStart := false }⟩
    else
      ⟨{ kind := lexeme.kind, span, text := lexer.rest.take lexeme.length, leading := trivia }, problems,
        { lexer.skip lexeme.consumed with lineStart := false }⟩

/-- Reads one token. At the end of the file it gives end-of-file tokens again and again. -/
def step (lexer : Lexer) : Step :=
  let front := lexer.leading
  let read := front.next.significant front.trivia
  { read with problems := front.problems ++ read.problems }

theorem leading_length_le (lexer : Lexer) : lexer.leading.next.rest.length ≤ lexer.rest.length := by
  fun_induction leading lexer with
  | case1 => simp
  | case2 lexer piece found more ih =>
    have shorter : (lexer.afterTrivia piece).rest.length ≤ lexer.rest.length := by
      simp only [afterTrivia, skip, List.length_drop]
      omega
    exact Nat.le_trans ih shorter

theorem significant_shorter (lexer : Lexer) (trivia : List Trivia)
    (more : (lexer.significant trivia).token.kind ≠ .endOfFile ∨ lexer.rest ≠ []) :
    (lexer.significant trivia).next.rest.length < lexer.rest.length := by
  unfold significant at more ⊢
  split at more
  next empty => simp [empty] at more
  next b tail same =>
    have positive := scan_pos lexer.lineStart b tail
    dsimp only
    split
    · simp only [skip, List.length_drop, same, List.length_cons]
      omega
    · simp only [skip, List.length_drop, same, List.length_cons]
      omega

theorem step_shorter (lexer : Lexer) (more : lexer.step.token.kind ≠ .endOfFile) :
    lexer.step.next.rest.length < lexer.rest.length :=
  Nat.lt_of_lt_of_le (significant_shorter _ _ (.inl more)) (leading_length_le lexer)

/-- All tokens from here on, the last one marking the end of the file, with everything reported. -/
def run (lexer : Lexer) : List Token × List Diagnostic :=
  let read := lexer.step
  if _more : read.token.kind = .endOfFile then ([read.token], read.problems)
  else
    let later := run read.next
    (read.token :: later.1, read.problems ++ later.2)
termination_by lexer.rest.length
decreasing_by exact step_shorter lexer _more

end Lexer

def tokenize (file : UInt32) (content : Text) : List Token × List Diagnostic :=
  (Lexer.start file content).run

structure LexerWithPeek where
  lexer : Lexer
  ahead : Option Token := none

namespace LexerWithPeek

/-- Takes the next token; with everything reported for it now. -/
def next (state : LexerWithPeek) : Token × List Diagnostic × LexerWithPeek :=
  match state.ahead with
  | some token => (token, [], { state with ahead := none })
  | none =>
    let read := state.lexer.step
    (read.token, read.problems, { lexer := read.next })

def peek (state : LexerWithPeek) : Token × List Diagnostic × LexerWithPeek :=
  let (token, problems, after) := state.next
  (token, problems, { after with ahead := some token })

end LexerWithPeek
end GenericC
