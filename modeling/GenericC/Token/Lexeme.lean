import GenericC.Token
import GenericC.Diagnostic

/-! What stands at the head of a text: a stretch of blanks, a comment, or the spelling
of a token. Nothing here depends on where in a file the text stands. -/

namespace GenericC

namespace Lexeme

def isNameStart (b : UInt8) : Bool := Text.isLetter b || b = Text.byte '_'

def isNameByte (b : UInt8) : Bool := isNameStart b || Text.isDigit b

def isHexDigit (b : UInt8) : Bool :=
  Text.isDigit b || (Text.byte 'a' ≤ b && b ≤ Text.byte 'f') || (Text.byte 'A' ≤ b && b ≤ Text.byte 'F')

def isBinaryDigit (b : UInt8) : Bool := b = Text.byte '0' || b = Text.byte '1'

def isSpace (b : UInt8) : Bool :=
  b = Text.byte ' ' || b = Text.byte '\t' || b = Text.byte '\r' || b = 12 || b = 11

def isNewline (b : UInt8) : Bool := b = Text.byte '\n'

def run (p : UInt8 → Bool) (t : Text) : Nat := (t.takeWhile p).length

theorem run_le (p : UInt8 → Bool) (t : Text) : run p t ≤ t.length :=
  (List.takeWhile_sublist p).length_le

theorem run_pos {p : UInt8 → Bool} {b : UInt8} {t : Text} (first : p b = true) : 0 < run p (b :: t) := by
  simp [run, first]

end Lexeme

structure TriviaPiece where
  kind : TriviaKind
  length : Nat
  /-- False for a block comment without an end. -/
  closed : Bool := true

namespace TriviaPiece
open Lexeme

/-- The length of a block comment's body with its end, and whether it has one. -/
def commentBody : Text → Nat → Nat × Bool
  | [], n => (n, false)
  | b :: rest, n =>
    if b = Text.byte '*' && rest.head? = some (Text.byte '/') then (n + 2, true) else commentBody rest (n + 1)

def at? : Text → Option TriviaPiece
  | [] => none
  | b :: rest =>
    if isSpace b then some ⟨.space, run isSpace (b :: rest), true⟩
    else if isNewline b then some ⟨.newline, run isNewline (b :: rest), true⟩
    else if b = Text.byte '/' then
      match rest with
      | [] => none
      | c :: body =>
        if c = Text.byte '/' then some ⟨.lineComment, 2 + run (fun d => !isNewline d) body, true⟩
        else if c = Text.byte '*' then
          let (length, closed) := commentBody body 2
          some ⟨.blockComment, length, closed⟩
        else none
    else none

theorem le_commentBody (body : Text) (n : Nat) : n ≤ (commentBody body n).1 := by
  induction body generalizing n with
  | nil => simp [commentBody]
  | cons b rest ih =>
    rw [commentBody]
    split
    · omega
    · have := ih (n + 1)
      omega

/-- What a text can begin with: blanks, line breaks, a comment up to the end of a line, or one between marks. -/
inductive Begins : Text → TriviaPiece → Prop
  | spaces {b : UInt8} {rest : Text} (space : isSpace b) : Begins (b :: rest) ⟨.space, run isSpace (b :: rest), true⟩
  | newlines {b : UInt8} {rest : Text} (newline : isNewline b) :
      Begins (b :: rest) ⟨.newline, run isNewline (b :: rest), true⟩
  | lineComment (body : Text) : Begins (Text.byte '/' :: Text.byte '/' :: body)
      ⟨.lineComment, 2 + run (fun d => !isNewline d) body, true⟩
  | blockComment (body : Text) : Begins (Text.byte '/' :: Text.byte '*' :: body)
      ⟨.blockComment, (commentBody body 2).1, (commentBody body 2).2⟩

theorem begins_of_at? {t : Text} {piece : TriviaPiece} (found : at? t = some piece) : Begins t piece := by
  unfold at? at found
  split at found
  · cases found
  next b rest =>
    split at found
    next space => exact Option.some.inj found ▸ .spaces space
    split at found
    next newline => exact Option.some.inj found ▸ .newlines newline
    split at found
    next slash =>
      subst slash
      split at found
      · cases found
      split at found
      next line => exact Option.some.inj found ▸ line ▸ .lineComment _
      split at found
      next block => exact Option.some.inj found ▸ block ▸ .blockComment _
      · cases found
    · cases found

theorem at?_pos {t : Text} {piece : TriviaPiece} (found : at? t = some piece) : 0 < piece.length := by
  cases begins_of_at? found with
  | spaces space => exact run_pos space
  | newlines newline => exact run_pos newline
  | lineComment body => exact Nat.lt_of_lt_of_le Nat.two_pos (Nat.le_add_right 2 _)
  | blockComment body => exact Nat.lt_of_lt_of_le Nat.two_pos (le_commentBody body 2)

end TriviaPiece

/-- The spelling of a token at the head of a text. -/
structure Lexeme where
  kind : TokenKind
  length : Nat
  /-- The number of bytes read; more than the token has when blanks at its end are left out of it. -/
  consumed : Nat
  problem : Option (DiagnosticCode × Text) := none

namespace Lexeme

def exact (kind : TokenKind) (length : Nat) : Lexeme := { kind, length, consumed := length }

def broken (code : DiagnosticCode) (length : Nat) (message : Text) : Lexeme :=
  { kind := .invalid, length, consumed := length, problem := some (code, message) }

/-- The length of a line, which a backslash before its newline continues. -/
def logicalLine : Text → Nat → Nat
  | [], n => n
  | b :: rest, n =>
    if b = Text.byte '\\' then
      match rest with
      | [] => n + 1
      | c :: more => if isNewline c then logicalLine more (n + 2) else logicalLine (c :: more) (n + 1)
    else if isNewline b then n
    else logicalLine rest (n + 1)

def directive (t : Text) : Lexeme :=
  let consumed := logicalLine t 0
  let text := Text.dropWhileEnd (fun b => b = Text.byte ' ' || b = Text.byte '\t') (t.take consumed)
  { kind := .directive, length := text.length, consumed }

def name (t : Text) : Lexeme :=
  let length := run isNameByte t
  exact ((TokenKind.keyword? (t.take length)).getD .identifier) length

def isSuffix (floating : Bool) (b : UInt8) : Bool :=
  b = Text.byte 'u' || b = Text.byte 'U' || b = Text.byte 'l' || b = Text.byte 'L' ||
    (floating && (b = Text.byte 'f' || b = Text.byte 'F'))

/-- A number of `length` bytes, unless a name follows without a gap. -/
def closeNumber (t : Text) (kind : TokenKind) (length : Nat) : Lexeme :=
  match t.drop length with
  | b :: rest =>
    if isNameStart b then
      broken .badNumber (length + run isNameByte (b :: rest)) "invalid suffix on numeric literal"
    else exact kind length
  | [] => exact kind length

/-- A number whose digits follow a two-byte mark of the base. -/
def basedNumber (t : Text) (isDigit : UInt8 → Bool) (message : Text) : Lexeme :=
  let digits := run isDigit (t.drop 2)
  if digits = 0 then broken .badNumber 2 message
  else closeNumber t .integer (2 + digits + run (isSuffix false) (t.drop (2 + digits)))

def endDecimal (t : Text) (floating : Bool) (length : Nat) : Lexeme :=
  let length := length + run (isSuffix floating) (t.drop length)
  match t.drop length with
  | b :: _ =>
    if b = Text.byte 'f' || b = Text.byte 'F' then closeNumber t .floating (length + 1)
    else closeNumber t (if floating then .floating else .integer) length
  | [] => exact (if floating then .floating else .integer) length

def signLength : Text → Nat
  | c :: _ => if c = Text.byte '+' || c = Text.byte '-' then 1 else 0
  | [] => 0

/-- The exponent, if there is one, and the end of a decimal number. -/
def afterMantissa (t : Text) (floating : Bool) (length : Nat) : Lexeme :=
  match t.drop length with
  | b :: rest =>
    if b = Text.byte 'e' || b = Text.byte 'E' then
      let sign := signLength rest
      let digits := run Text.isDigit (rest.drop sign)
      if digits = 0 then broken .badNumber (length + 1 + sign) "expected digit after exponent"
      else endDecimal t true (length + 1 + sign + digits)
    else endDecimal t floating length
  | [] => endDecimal t floating length

def decimalNumber (t : Text) : Lexeme :=
  let whole := run Text.isDigit t
  match t.drop whole with
  | b :: rest =>
    if b = Text.byte '.' && rest.head? ≠ some (Text.byte '.') then
      afterMantissa t true (whole + 1 + run Text.isDigit rest)
    else afterMantissa t false whole
  | [] => afterMantissa t false whole

/-- A number that starts with a digit, or with a point and a digit. -/
def number (t : Text) : Lexeme :=
  match t with
  | b :: c :: _ =>
    if b = Text.byte '.' then afterMantissa t true (1 + run Text.isDigit (t.drop 1))
    else if b = Text.byte '0' && (c = Text.byte 'x' || c = Text.byte 'X') then
      basedNumber t isHexDigit "expected hex digit after '0x'"
    else if b = Text.byte '0' && (c = Text.byte 'b' || c = Text.byte 'B') then
      basedNumber t isBinaryDigit "expected binary digit after '0b'"
    else decimalNumber t
  | _ => decimalNumber t

/-- How the body of a quoted literal ends, with the number of bytes before that end. -/
inductive QuoteEnd
  | closed (length : Nat)
  | newline (length : Nat)
  | missing (length : Nat)

/-- Reads up to the closing quote. A backslash takes the next byte along. -/
def quoteBody (quote : UInt8) : Text → Nat → QuoteEnd
  | [], n => .missing n
  | b :: rest, n =>
    if b = quote then .closed (n + 1)
    else if b = Text.byte '\\' then
      match rest with
      | [] => .missing (n + 1)
      | _ :: more => quoteBody quote more (n + 2)
    else if isNewline b then .newline n
    else quoteBody quote rest (n + 1)

def quotedLiteral (t : Text) (quote : UInt8) (kind : TokenKind) (code : DiagnosticCode) (what : Text) : Lexeme :=
  match quoteBody quote (t.drop 1) 1 with
  | .closed length => exact kind length
  | .newline length => broken code length (Text.ofString "newline in " ++ what ++ Text.ofString " literal")
  | .missing length => broken code length (Text.ofString "unterminated " ++ what ++ Text.ofString " literal")

def stringLiteral (t : Text) : Lexeme :=
  quotedLiteral t (Text.byte '"') .string .unterminatedString "string"

/-- A character literal; it may hold several characters, but not none. -/
def characterLiteral (t : Text) : Lexeme :=
  let lexeme := quotedLiteral t (Text.byte '\'') .character .unterminatedCharacter "character"
  if lexeme.kind = .character && lexeme.length = 2 then
    broken .emptyCharacter 2 "empty character literal"
  else lexeme

/-- Operators of several bytes, the longer ones first. -/
def longOperators : List (TokenKind × String) := [
  (.ellipsis, "..."), (.shiftLeftAssign, "<<="), (.shiftRightAssign, ">>="), (.arrow, "->"), (.plusPlus, "++"),
  (.minusMinus, "--"), (.andAnd, "&&"), (.orOr, "||"), (.equal, "=="), (.notEqual, "!="), (.lessEqual, "<="),
  (.greaterEqual, ">="), (.shiftLeft, "<<"), (.shiftRight, ">>"), (.plusAssign, "+="), (.minusAssign, "-="),
  (.starAssign, "*="), (.slashAssign, "/="), (.percentAssign, "%="), (.ampAssign, "&="), (.pipeAssign, "|="),
  (.caretAssign, "^=")]

def shortOperators : List (TokenKind × Char) := [
  (.plus, '+'), (.minus, '-'), (.star, '*'), (.slash, '/'), (.percent, '%'), (.assign, '='), (.bang, '!'),
  (.less, '<'), (.greater, '>'), (.amp, '&'), (.pipe, '|'), (.caret, '^'), (.tilde, '~'), (.question, '?'),
  (.colon, ':'), (.semicolon, ';'), (.comma, ','), (.dot, '.'), (.leftParen, '('), (.rightParen, ')'),
  (.leftBrace, '\x7b'), (.rightBrace, '\x7d'), (.leftBracket, '['), (.rightBracket, ']')]

/-- A byte that begins no token: it is read as one whole character. -/
def unknown (t : Text) : Lexeme :=
  let length := match t.firstRune with
    | some rune => rune.size
    | none => 1
  broken .unknownCharacter length (Text.ofString "unknown character " ++ Text.quotedAscii (t.take length))

def operator (t : Text) : Lexeme :=
  match longOperators.find? (fun row => t.startsWith (Text.ofString row.2)) with
  | some row => exact row.1 (Text.ofString row.2).length
  | none =>
    match shortOperators.find? (fun row => t.head? = some (Text.byte row.2)) with
    | some row => exact row.1 1
    | none => unknown t

def startsWithDigit : Text → Bool
  | b :: _ => Text.isDigit b
  | [] => false

/-- The token at the head of a text that starts with `b`. A hash mark begins a preprocessor line only where
nothing but blanks stands before it. -/
def scan (lineStart : Bool) (b : UInt8) (rest : Text) : Lexeme :=
  let t := b :: rest
  if b = Text.byte '#' && lineStart then directive t
  else if isNameStart b then name t
  else if Text.isDigit b then number t
  else if b = Text.byte '.' && startsWithDigit rest then number t
  else if b = Text.byte '"' then stringLiteral t
  else if b = Text.byte '\'' then characterLiteral t
  else operator t

end Lexeme

open Lexeme

def TokenKind.isNumber : TokenKind → Bool
  | integer | floating => true
  | _ => false

/-- Neither the end of a file, nor a preprocessor line, nor something that is wrong. -/
def TokenKind.isOrdinary (kind : TokenKind) : Bool :=
  kind ≠ .endOfFile && kind ≠ .directive && kind ≠ .invalid

/-- What is read at the head of a text lies within it, but reaches beyond some bytes that are read already: a token of
certain kinds, or something that is wrong. -/
def Within (t : Text) (least : Nat) (kinds : TokenKind → Prop) (lexeme : Lexeme) : Prop :=
  ∃ n, least ≤ n ∧ n ≤ max least t.length ∧
    ((∃ code message, lexeme = broken code n message) ∨ ∃ kind, kinds kind ∧ lexeme = exact kind n)

namespace Within

variable {t : Text} {least n : Nat} {kinds : TokenKind → Prop} {lexeme : Lexeme}

theorem ofExact {kind : TokenKind} (holds : kinds kind) (low : least ≤ n) (high : n ≤ max least t.length) :
    Within t least kinds (exact kind n) := ⟨n, low, high, .inr ⟨kind, holds, rfl⟩⟩

theorem ofBroken {code : DiagnosticCode} {message : Text} (low : least ≤ n) (high : n ≤ max least t.length) :
    Within t least kinds (broken code n message) := ⟨n, low, high, .inl ⟨code, message, rfl⟩⟩

theorem mono {more : TokenKind → Prop} (within : Within t n kinds lexeme) (low : least ≤ n)
    (high : n ≤ max least t.length) (entails : ∀ kind, kinds kind → more kind) : Within t least more lexeme := by
  obtain ⟨length, above, below, read⟩ := within
  refine ⟨length, by omega, by omega, read.imp_right ?_⟩
  rintro ⟨kind, holds, same⟩
  exact ⟨kind, entails kind holds, same⟩

theorem le (within : Within t least kinds lexeme) : least ≤ lexeme.consumed := by
  obtain ⟨n, low, -, ⟨code, message, rfl⟩ | ⟨kind, -, rfl⟩⟩ := within <;> exact low

theorem whole (within : Within t least kinds lexeme) (inside : least ≤ t.length) :
    lexeme.length = lexeme.consumed ∧ lexeme.consumed ≤ t.length := by
  obtain ⟨n, -, high, ⟨code, message, rfl⟩ | ⟨kind, -, rfl⟩⟩ := within <;>
    exact ⟨rfl, Nat.le_trans high (Nat.max_le.mpr ⟨inside, Nat.le_refl _⟩)⟩

theorem kind (within : Within t least kinds lexeme) :
    kinds lexeme.kind ∨ lexeme.kind = .invalid ∧ lexeme.problem.isSome = true := by
  obtain ⟨n, -, -, ⟨code, message, rfl⟩ | ⟨kind, holds, rfl⟩⟩ := within
  · exact .inr ⟨rfl, rfl⟩
  · exact .inl holds

end Within

/-- A number lies within the text it is read from, a broken one too. -/
abbrev NumberWithin (t : Text) (least : Nat) (lexeme : Lexeme) : Prop := Within t least (·.isNumber = true) lexeme

section
variable {t : Text} {n : Nat} {p : UInt8 → Bool}

theorem add_run_drop_le : n + run p (t.drop n) ≤ max n t.length := by
  have := run_le p (t.drop n)
  rw [List.length_drop] at this
  omega

theorem lt_length_of_drop {b : UInt8} {rest : Text} (here : t.drop n = b :: rest) : n + 1 + rest.length = t.length := by
  have := congrArg List.length here
  rw [List.length_drop, List.length_cons] at this
  omega

theorem closeNumber_within {kind : TokenKind} (isNumber : kind.isNumber = true) : NumberWithin t n (closeNumber t kind n) := by
  unfold closeNumber
  split
  next b rest here =>
    split
    · exact .ofBroken (Nat.le_add_right _ _) (here ▸ add_run_drop_le)
    · exact .ofExact isNumber (Nat.le_refl _) (Nat.le_max_left _ _)
  · exact .ofExact isNumber (Nat.le_refl _) (Nat.le_max_left _ _)

theorem basedNumber_within {isDigit : UInt8 → Bool} {message : Text} : NumberWithin t 2 (basedNumber t isDigit message) := by
  unfold basedNumber
  dsimp only
  split
  · exact .ofBroken (Nat.le_refl _) (Nat.le_max_left _ _)
  · have digits := @add_run_drop_le t 2 isDigit
    have suffix := @add_run_drop_le t (2 + run isDigit (t.drop 2)) (isSuffix false)
    exact (closeNumber_within rfl).mono (by omega) (by omega) fun _ => id

theorem endDecimal_within {floating : Bool} : NumberWithin t n (endDecimal t floating n) := by
  have bound := @add_run_drop_le t n (isSuffix floating)
  unfold endDecimal
  dsimp only
  split
  next b rest here =>
    have := lt_length_of_drop here
    split
    · exact (closeNumber_within rfl).mono (by omega) (by omega) fun _ => id
    · exact (closeNumber_within (by cases floating <;> rfl)).mono (by omega) bound fun _ => id
  next => exact .ofExact (by cases floating <;> rfl) (Nat.le_add_right _ _) bound

theorem signLength_le (t : Text) : signLength t ≤ t.length := by
  unfold signLength
  split
  · split <;> simp
  · simp

theorem afterMantissa_within {floating : Bool} : NumberWithin t n (afterMantissa t floating n) := by
  unfold afterMantissa
  split
  next b rest here =>
    have length := lt_length_of_drop here
    have sign := signLength_le rest
    have digits := @add_run_drop_le rest (signLength rest) Text.isDigit
    split
    · dsimp only
      split
      · exact .ofBroken (by omega) (by omega)
      · exact endDecimal_within.mono (by omega) (by omega) fun _ => id
    · exact endDecimal_within
  next => exact endDecimal_within

theorem decimalNumber_within : NumberWithin t (run Text.isDigit t) (decimalNumber t) := by
  unfold decimalNumber
  dsimp only
  split
  next b rest here =>
    have length := lt_length_of_drop here
    have digits := run_le Text.isDigit rest
    split
    · exact afterMantissa_within.mono (by omega) (by omega) fun _ => id
    · exact afterMantissa_within
  next => exact afterMantissa_within

end

section
variable {b : UInt8} {rest : Text}

/-- A number starts with a digit, or with a point and a digit. -/
def NumberStart (b : UInt8) (rest : Text) : Prop :=
  Text.isDigit b = true ∨ b = Text.byte '.' ∧ startsWithDigit rest = true

theorem number_within (start : NumberStart b rest) : NumberWithin (b :: rest) 1 (number (b :: rest)) := by
  have decimal (digit : Text.isDigit b = true) : NumberWithin (b :: rest) 1 (decimalNumber (b :: rest)) :=
    decimalNumber_within.mono (run_pos digit) (Nat.le_trans (run_le _ _) (Nat.le_max_right _ _)) fun _ => id
  unfold number
  split
  next c more same =>
    obtain ⟨rfl, rfl⟩ := List.cons.inj same
    split
    · have digits := @add_run_drop_le (b :: c :: more) 1 Text.isDigit
      exact afterMantissa_within.mono (Nat.le_add_right _ _) digits fun _ => id
    next noPoint =>
      split
      · exact basedNumber_within.mono (by omega) (by simp) fun _ => id
      split
      · exact basedNumber_within.mono (by omega) (by simp) fun _ => id
      · exact decimal (start.resolve_right fun point => noPoint point.1)
  next short =>
    refine decimal (start.resolve_right fun point => ?_)
    cases rest with
    | nil => cases point.2
    | cons c more => exact short b c more rfl

def Lexeme.QuoteEnd.length : QuoteEnd → Nat
  | .closed n | .newline n | .missing n => n

theorem quoteBody_bounds (quote : UInt8) (t : Text) (n : Nat) :
    n ≤ (quoteBody quote t n).length ∧ (quoteBody quote t n).length ≤ n + t.length := by
  fun_induction quoteBody quote t n <;> simp only [QuoteEnd.length, List.length_cons, List.length_nil] at * <;> omega

theorem quotedLiteral_within (b : UInt8) (rest : Text) (quote : UInt8) (kind : TokenKind) (code : DiagnosticCode)
    (what : Text) : Within (b :: rest) 1 (· = kind) (quotedLiteral (b :: rest) quote kind code what) := by
  obtain ⟨low, high⟩ := quoteBody_bounds quote rest 1
  have high : (quoteBody quote rest 1).length ≤ max 1 (b :: rest).length := by
    rw [List.length_cons]
    omega
  unfold quotedLiteral
  rw [List.drop_succ_cons, List.drop_zero]
  generalize quoteBody quote rest 1 = ending at low high ⊢
  cases ending with
  | closed => exact .ofExact rfl low high
  | newline => exact .ofBroken low high
  | missing => exact .ofBroken low high

theorem characterLiteral_within (b : UInt8) (rest : Text) :
    Within (b :: rest) 1 (· = .character) (characterLiteral (b :: rest)) := by
  have within := quotedLiteral_within b rest (Text.byte '\'') .character .unterminatedCharacter "character"
  obtain ⟨whole, inside⟩ := within.whole (by simp)
  unfold characterLiteral
  dsimp only
  split
  next empty =>
    simp only [Bool.and_eq_true, decide_eq_true_eq] at empty
    exact .ofBroken (by omega) (by omega)
  · exact within

theorem name_within (start : isNameStart b = true) : Within (b :: rest) 1 (·.isOrdinary = true) (name (b :: rest)) := by
  refine .ofExact ?_ (run_pos (by simp [isNameByte, start])) (Nat.le_trans (run_le _ _) (Nat.le_max_right _ _))
  cases found : TokenKind.keyword? ((b :: rest).take (run isNameByte (b :: rest))) with
  | none => rfl
  | some kind =>
    obtain ⟨row, selected, rfl⟩ := Option.map_eq_some_iff.mp found
    have words : ∀ row ∈ TokenKind.keywords, row.1.isOrdinary = true := by decide
    exact words row (List.mem_of_find?_eq_some selected)

theorem firstRune_size {t : Text} {rune : Text.Rune} (found : t.firstRune = some rune) :
    0 < rune.size ∧ rune.size ≤ t.length := by
  revert found
  fun_cases Text.firstRune t <;> intro found <;> cases found <;> simp [Text.Rune.malformed]

theorem operator_within (b : UInt8) (rest : Text) : Within (b :: rest) 1 (·.isOrdinary = true) (operator (b :: rest)) := by
  unfold operator
  split
  next row found =>
    have long : ∀ row ∈ longOperators, row.1.isOrdinary = true ∧ 0 < (Text.ofString row.2).length := by decide
    have starts := List.find?_some found
    rw [Text.startsWith, List.isPrefixOf_iff_prefix] at starts
    obtain ⟨ordinary, some⟩ := long row (List.mem_of_find?_eq_some found)
    exact .ofExact ordinary some (Nat.le_trans starts.length_le (Nat.le_max_right _ _))
  next =>
    split
    next row found =>
      have short : ∀ row ∈ shortOperators, row.1.isOrdinary = true := by decide
      exact .ofExact (short row (List.mem_of_find?_eq_some found)) (Nat.le_refl _) (Nat.le_max_left _ _)
    · unfold unknown
      split
      next rune found =>
        obtain ⟨low, high⟩ := firstRune_size found
        exact .ofBroken low (Nat.le_trans high (Nat.le_max_right _ _))
      next => exact .ofBroken (Nat.le_refl _) (Nat.le_max_left _ _)

end

/-- What a token is read as, by its first byte. -/
inductive Scanned (lineStart : Bool) (b : UInt8) (rest : Text) : Lexeme → Prop where
  | directive (hash : b = Text.byte '#') : Scanned lineStart b rest (directive (b :: rest))
  | name (start : isNameStart b = true) : Scanned lineStart b rest (name (b :: rest))
  | number (start : NumberStart b rest) : Scanned lineStart b rest (number (b :: rest))
  | string (quote : b = Text.byte '"') : Scanned lineStart b rest (stringLiteral (b :: rest))
  | character (quote : b = Text.byte '\'') : Scanned lineStart b rest (characterLiteral (b :: rest))
  | operator : Scanned lineStart b rest (operator (b :: rest))

theorem scan_cases (lineStart : Bool) (b : UInt8) (rest : Text) : Scanned lineStart b rest (scan lineStart b rest) := by
  unfold scan
  dsimp only
  split
  next hash => exact .directive (by simp_all)
  split
  next start => exact .name start
  split
  next digit => exact .number (.inl digit)
  split
  next point => exact .number (.inr (by simpa using point))
  split
  next quote => exact .string quote
  split
  next quote => exact .character quote
  · exact .operator

/-- Anything but a preprocessor line lies within the text, and what is wrong is reported. -/
theorem scan_within (lineStart : Bool) (b : UInt8) (rest : Text) :
    scan lineStart b rest = directive (Text.byte '#' :: rest) ∧ b = Text.byte '#' ∨
      Within (b :: rest) 1 (·.isOrdinary = true) (scan lineStart b rest) := by
  have read := scan_cases lineStart b rest
  generalize scan lineStart b rest = lexeme at read ⊢
  cases read with
  | directive hash => exact .inl ⟨by rw [hash], hash⟩
  | name start => exact .inr (name_within start)
  | number start =>
    exact .inr ((number_within start).mono (Nat.le_refl _) (Nat.le_max_left _ _) fun kind isNumber => by
      cases kind <;> first | rfl | cases isNumber)
  | string =>
    exact .inr ((quotedLiteral_within ..).mono (Nat.le_refl _) (Nat.le_max_left _ _) fun _ same => same ▸ rfl)
  | character =>
    exact .inr ((characterLiteral_within ..).mono (Nat.le_refl _) (Nat.le_max_left _ _) fun _ same => same ▸ rfl)
  | operator => exact .inr (operator_within b rest)

theorem le_logicalLine (t : Text) (n : Nat) : n ≤ logicalLine t n := by
  fun_induction logicalLine t n <;> omega

theorem directive_pos (rest : Text) : 0 < (directive (Text.byte '#' :: rest)).consumed := by
  have step : logicalLine (Text.byte '#' :: rest) 0 = logicalLine rest 1 := by
    rw [logicalLine.eq_def]
    rfl
  have := le_logicalLine rest 1
  simp only [directive, step]
  omega

theorem scan_pos (lineStart : Bool) (b : UInt8) (rest : Text) : 0 < (scan lineStart b rest).consumed := by
  rcases scan_within lineStart b rest with ⟨read, -⟩ | within
  · rw [read]
    exact directive_pos rest
  · exact within.le

end GenericC
