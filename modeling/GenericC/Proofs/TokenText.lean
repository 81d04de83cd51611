import GenericC.Token.Lexer

/-! What the text of a token looks like. Names, keywords and operators are told by their text alone; a literal
is read again as the same literal wherever its text stands, as long as nothing follows that would
prolong a number. -/

namespace GenericC
open Lexeme
open Text (byte)

variable {b : UInt8} {p isDigit : UInt8 → Bool} {rest message : Text} {m : Nat} {code : DiagnosticCode}

def IsWord (text : Text) : Prop :=
  ∃ b rest, text = b :: rest ∧ isNameStart b = true ∧ ∀ c ∈ rest, isNameByte c = true

structure IsName (text : Text) : Prop where
  word : IsWord text
  free : TokenKind.keyword? text = none
  short : text.length ≤ Lexer.maxTokenLength

/-- What may follow a number: nothing that can be a part of a number or a name. -/
def NumberEnd (rest : Text) : Prop := ∀ c, rest.head? = some c → isNameByte c = false ∧ c ≠ Text.byte '.'

def isLiteralStart (b : UInt8) : Bool :=
  Text.isDigit b || b = Text.byte '.' || b = Text.byte '"' || b = Text.byte '\''

def IsLiteral (kind : TokenKind) (text : Text) : Prop :=
  ∃ b rest, text = b :: rest ∧ isLiteralStart b = true ∧ text.length ≤ Lexer.maxTokenLength ∧
    ∀ lineStart after, (kind.isNumber = true → NumberEnd after) →
      scan lineStart b (rest ++ after) = exact kind text.length

def SpelledAs (kind : TokenKind) (text : Text) : Prop :=
  match kind with
  | .invalid | .endOfFile | .directive => True
  | .identifier => IsName text
  | .integer | .floating | .string | .character => IsLiteral kind text
  | kind => text = kind.spelling

def Token.Spelled (token : Token) : Prop := SpelledAs token.kind token.text

theorem isNameByte_of_start (start : isNameStart b = true) : isNameByte b = true := by
  simp [isNameByte, start]

theorem takeWhile_isWord (rest : Text) (start : isNameStart b = true) : IsWord ((b :: rest).takeWhile isNameByte) := by
  refine ⟨b, rest.takeWhile isNameByte, ?_, start, ?_⟩
  · rw [List.takeWhile_cons, isNameByte_of_start start, if_pos rfl]
  · intro c member
    exact List.all_eq_true.mp List.all_takeWhile c member

theorem take_run (p : UInt8 → Bool) (t : Text) : t.take (run p t) = t.takeWhile p := by
  rw [run]
  exact (List.prefix_iff_eq_take.mp (List.takeWhile_prefix p)).symm

theorem keyword?_spelledAs {word : Text} {kind : TokenKind} (found : TokenKind.keyword? word = some kind) :
    SpelledAs kind word := by
  obtain ⟨row, selected, rfl⟩ := Option.map_eq_some_iff.mp found
  have member := List.mem_of_find?_eq_some selected
  have same : Text.ofString row.2 = word := by simpa using List.find?_some selected
  have table : ∀ row ∈ TokenKind.keywords, SpelledAs row.1 (Text.ofString row.2) := by
    simp only [TokenKind.keywords, List.forall_mem_cons, List.not_mem_nil, false_implies, implies_true, and_true, SpelledAs]
    decide
  exact same ▸ table row member

theorem name_spelledAs (rest : Text) (start : isNameStart b = true)
    (short : (name (b :: rest)).length ≤ Lexer.maxTokenLength) :
    SpelledAs (name (b :: rest)).kind ((b :: rest).take (name (b :: rest)).length) := by
  have word := takeWhile_isWord rest start
  simp only [name, exact, take_run]
  cases found : TokenKind.keyword? ((b :: rest).takeWhile isNameByte) with
  | none => exact ⟨word, found, short⟩
  | some kind => exact keyword?_spelledAs found

/-! A number that was read up to its end is read again when something else follows. Each step of reading it
either lies within its text or stops at the end of it. -/

theorem run_stable {u x y : Text} (fits : run p (u ++ x) ≤ u.length) (stops : ∀ c, y.head? = some c → p c = false) :
    run p (u ++ y) = run p (u ++ x) := by
  induction u with
  | nil =>
    have none : run p x = 0 := by simpa using fits
    rw [List.nil_append, List.nil_append, none]
    cases y with
    | nil => rfl
    | cons c rest => simp [run, stops c rfl]
  | cons b rest ih =>
    simp only [run, List.cons_append, List.takeWhile_cons] at fits ih ⊢
    split
    next yes =>
      simp only [yes, ↓reduceIte, List.length_cons, Nat.add_le_add_iff_right] at fits
      simp only [List.length_cons, ih fits]
    next => rfl

theorem NumberEnd.stops (ends : NumberEnd rest) (part : ∀ b, p b = true → isNameByte b = true) :
    ∀ c, rest.head? = some c → p c = false := by
  intro c first
  have outside := (ends c first).1
  cases inside : p c with
  | false => rfl
  | true => rw [part c inside] at outside; exact outside

theorem isNameStart_of_digit (digit : Text.isDigit b = true) : isNameStart b = false := by
  have high : b.toNat ≤ 57 := by
    simp only [Text.isDigit, Bool.and_eq_true, decide_eq_true_eq, UInt8.le_iff_toNat_le] at digit
    exact digit.2
  cases start : isNameStart b with
  | false => rfl
  | true =>
    simp only [isNameStart, Text.isLetter, Text.isUpper, Text.isLower, Bool.or_eq_true, Bool.and_eq_true,
      decide_eq_true_eq, UInt8.le_iff_toNat_le] at start
    rcases start with (⟨low, -⟩ | ⟨low, -⟩) | rfl
    · exact absurd (Nat.le_trans low high) (by decide)
    · exact absurd (Nat.le_trans low high) (by decide)
    · exact absurd high (by decide)

theorem isNameByte_of_digit (digit : Text.isDigit b = true) : isNameByte b = true := by
  simp [isNameByte, digit]

theorem isNameByte_of_suffix {floating : Bool} (suffix : isSuffix floating b = true) : isNameByte b = true := by
  simp only [isSuffix, Bool.or_eq_true, Bool.and_eq_true, decide_eq_true_eq] at suffix
  rcases suffix with (((rfl | rfl) | rfl) | rfl) | ⟨_, rfl | rfl⟩ <;> decide

theorem isNameByte_of_hexDigit (digit : isHexDigit b = true) : isNameByte b = true := by
  simp only [isHexDigit, Bool.or_eq_true, Bool.and_eq_true, decide_eq_true_eq] at digit
  rcases digit with (digit | ⟨low, high⟩) | ⟨low, high⟩
  · exact isNameByte_of_digit digit
  · have lower := UInt8.le_trans high (show _ ≤ byte 'z' by decide)
    simp [isNameByte, isNameStart, Text.isLetter, Text.isLower, low, lower]
  · have upper := UInt8.le_trans high (show _ ≤ byte 'Z' by decide)
    simp [isNameByte, isNameStart, Text.isLetter, Text.isUpper, low, upper]

theorem isNameByte_of_binaryDigit (digit : isBinaryDigit b = true) : isNameByte b = true := by
  simp only [isBinaryDigit, Bool.or_eq_true, decide_eq_true_eq] at digit
  rcases digit with rfl | rfl <;> decide

private theorem exact_inj {kind other : TokenKind} {n : Nat} (same : exact kind n = exact other m) :
    kind = other ∧ n = m := by
  simp only [exact, Lexeme.mk.injEq] at same
  exact ⟨same.1, same.2.1⟩

private theorem broken_ne_exact {n : Nat} {kind : TokenKind} (same : broken code n message = exact kind m) : False := by
  simp [broken, exact] at same

private theorem drop_cons_inside {text x : Text} {n : Nat} (inside : n < text.length)
    (found : (text ++ x).drop n = b :: rest) :
    ∃ more, text.length = n + 1 + more.length ∧ rest = more ++ x ∧ ∀ y, (text ++ y).drop n = b :: (more ++ y) := by
  rw [List.drop_append_of_le_length (by omega)] at found
  cases split : text.drop n with
  | nil => simp at split; omega
  | cons c more =>
    rw [split, List.cons_append] at found
    obtain ⟨rfl, rfl⟩ := List.cons.inj found
    have length := congrArg List.length split
    rw [List.length_drop, List.length_cons] at length
    refine ⟨more, by omega, rfl, fun y => ?_⟩
    rw [List.drop_append_of_le_length (by omega), split, List.cons_append]

section
variable {text x y : Text} {kind found : TokenKind} {floating : Bool} {n : Nat}

theorem closeNumber_eq_exact (read : closeNumber (text ++ x) kind n = exact found text.length) :
    kind = found ∧ n = text.length := by
  unfold closeNumber at read
  split at read
  · split at read
    · exact (broken_ne_exact read).elim
    · exact exact_inj read
  · exact exact_inj read

theorem closeNumber_end (ends : NumberEnd y) :
    closeNumber (text ++ y) kind text.length = exact kind text.length := by
  unfold closeNumber
  rw [List.drop_left]
  cases y with
  | nil => rfl
  | cons b rest =>
    have plain : isNameStart b = false := ends.stops (fun _ => isNameByte_of_start) b rfl
    simp [plain]

theorem run_drop_stable (ends : NumberEnd y) (part : ∀ b, p b = true → isNameByte b = true)
    (fits : n + run p ((text ++ x).drop n) ≤ text.length) :
    run p ((text ++ y).drop n) = run p ((text ++ x).drop n) := by
  rw [List.drop_append_of_le_length (by omega)] at fits
  rw [List.drop_append_of_le_length (by omega), List.drop_append_of_le_length (by omega)]
  exact run_stable (by simp only [List.length_drop]; omega) (ends.stops part)

theorem endDecimal_stable (ends : NumberEnd y) (read : endDecimal (text ++ x) floating n = exact found text.length) :
    endDecimal (text ++ y) floating n = exact found text.length := by
  unfold endDecimal at read
  dsimp only at read
  generalize length : n + run (isSuffix floating) ((text ++ x).drop n) = m at read
  -- The suffixes reach to `m`, which is the end of the text unless one more letter marks a floating number.
  have same (inside : m ≤ text.length) : n + run (isSuffix floating) ((text ++ y).drop n) = m := by
    rw [run_drop_stable ends (fun _ => isNameByte_of_suffix) (length ▸ inside), length]
  have closes (kind : TokenKind) (whole : m = text.length)
      (here : kind = if floating then .floating else .integer) :
      endDecimal (text ++ y) floating n = exact kind text.length := by
    unfold endDecimal
    dsimp only
    rw [same (Nat.le_of_eq whole), whole, List.drop_left, ← here]
    cases y with
    | nil => rfl
    | cons b rest =>
      have plain := (ends b rfl).1
      have low : b ≠ byte 'f' := by rintro rfl; exact absurd plain (by decide)
      have high : b ≠ byte 'F' := by rintro rfl; exact absurd plain (by decide)
      simp only [low, high, decide_false, Bool.or_self, Bool.false_eq_true, ↓reduceIte]
      exact closeNumber_end ends
  split at read
  next b rest here =>
    split at read
    next marked =>
      obtain ⟨rfl, whole⟩ := closeNumber_eq_exact read
      obtain ⟨more, -, -, again⟩ := drop_cons_inside (by omega) here
      unfold endDecimal
      dsimp only
      rw [same (by omega), again, whole]
      simp only [marked, ↓reduceIte]
      exact closeNumber_end ends
    next =>
      obtain ⟨rfl, whole⟩ := closeNumber_eq_exact read
      exact closes _ whole rfl
  next =>
    obtain ⟨rfl, whole⟩ := exact_inj read
    exact closes _ whole rfl

theorem le_length_of_exact {lexeme : Lexeme} (read : lexeme = exact found m) (bound : n ≤ lexeme.consumed) : n ≤ m := by
  rw [read] at bound
  exact bound

theorem signLength_inside {more : Text} (inside : signLength (more ++ x) < more.length) :
    signLength (more ++ y) = signLength (more ++ x) := by
  cases more with
  | nil => exact absurd inside (Nat.not_lt_zero _)
  | cons => rfl

theorem afterMantissa_stable (ends : NumberEnd y)
    (read : afterMantissa (text ++ x) floating n = exact found text.length) :
    afterMantissa (text ++ y) floating n = exact found text.length := by
  have inside : n ≤ text.length := le_length_of_exact read afterMantissa_within.le
  -- Without an exponent the text goes on with something else, or it ends here.
  have plain (read : endDecimal (text ++ x) floating n = exact found text.length)
      (other : ∀ b rest, (text ++ x).drop n = b :: rest → (b = byte 'e' || b = byte 'E') = false) :
      afterMantissa (text ++ y) floating n = exact found text.length := by
    have again := endDecimal_stable ends read
    unfold afterMantissa
    rw [List.drop_append_of_le_length inside] at other ⊢
    cases rest : text.drop n with
    | nil =>
      cases y with
      | nil => exact again
      | cons c more =>
        have outside := (ends c rfl).1
        have low : c ≠ byte 'e' := by rintro rfl; exact absurd outside (by decide)
        have high : c ≠ byte 'E' := by rintro rfl; exact absurd outside (by decide)
        simpa [low, high] using again
    | cons c more =>
      rw [rest] at other
      simpa [other c _ rfl] using again
  unfold afterMantissa at read
  split at read
  next b rest here =>
    split at read
    next marked =>
      dsimp only at read
      split at read
      · exact (broken_ne_exact read).elim
      next digits =>
        have bound := le_length_of_exact read endDecimal_within.le
        obtain ⟨more, length, rfl, again⟩ := drop_cons_inside (by omega) here
        have sign : signLength (more ++ y) = signLength (more ++ x) := signLength_inside (by omega)
        have same : run Text.isDigit ((more ++ y).drop (signLength (more ++ x))) =
            run Text.isDigit ((more ++ x).drop (signLength (more ++ x))) :=
          run_drop_stable ends (fun _ => isNameByte_of_digit) (by omega)
        unfold afterMantissa
        rw [again]
        simp only [marked, ↓reduceIte, sign, same]
        rw [if_neg digits]
        exact endDecimal_stable ends read
    next other =>
      refine plain read fun c more first => ?_
      obtain ⟨rfl, _⟩ := List.cons.inj (here.symm.trans first)
      exact Bool.not_eq_true _ ▸ other
  next empty => exact plain read fun c more first => absurd (empty.symm.trans first) (by simp)

theorem basedNumber_stable (ends : NumberEnd y) (part : ∀ b, isDigit b = true → isNameByte b = true)
    (read : basedNumber (text ++ x) isDigit message = exact found text.length) :
    basedNumber (text ++ y) isDigit message = exact found text.length := by
  unfold basedNumber at read ⊢
  dsimp only at read ⊢
  split at read
  · exact (broken_ne_exact read).elim
  next some =>
    obtain ⟨rfl, whole⟩ := closeNumber_eq_exact read
    have digits := run_drop_stable ends part (show 2 + run isDigit ((text ++ x).drop 2) ≤ text.length by omega)
    have suffix := run_drop_stable ends (fun _ => @isNameByte_of_suffix _ false) (Nat.le_of_eq whole)
    rw [digits, if_neg some, suffix, whole]
    exact closeNumber_end ends

theorem afterMantissa_point {t : Text} (point : t.drop n = byte '.' :: rest)
    (read : afterMantissa t false n = exact found m) : n = m := by
  have noSuffix : run (isSuffix false) (byte '.' :: rest) = 0 := by
    rw [run, List.takeWhile_cons, if_neg (by decide), List.length_nil]
  have ends : afterMantissa t false n = exact .integer n := by
    simp only [afterMantissa, endDecimal, closeNumber, noSuffix, Nat.add_zero, point]
    rw [if_neg (by decide), if_neg (by decide), if_neg (by decide), if_neg (by decide)]
  exact (exact_inj (ends.symm.trans read)).2

theorem decimalNumber_stable (ends : NumberEnd y)
    (read : decimalNumber (text ++ x) = exact found text.length) :
    decimalNumber (text ++ y) = exact found text.length := by
  unfold decimalNumber at read
  dsimp only at read
  generalize length : run Text.isDigit (text ++ x) = whole at read
  have same (inside : whole ≤ text.length) : run Text.isDigit (text ++ y) = whole := by
    rw [run_stable (length ▸ inside) (ends.stops fun _ => isNameByte_of_digit), length]
  -- Without a point the text goes on with an exponent or a suffix, or it ends here.
  have plain (read : afterMantissa (text ++ x) false whole = exact found text.length) :
      decimalNumber (text ++ y) = exact found text.length := by
    have inside : whole ≤ text.length := le_length_of_exact read afterMantissa_within.le
    have again := afterMantissa_stable ends read
    unfold decimalNumber
    dsimp only
    rw [same inside]
    split
    next b rest here =>
      rw [if_neg ?_]
      · exact again
      intro point
      obtain ⟨rfl, -⟩ : b = byte '.' ∧ _ := by simpa using point
      have whole : whole = text.length := afterMantissa_point here again
      rw [whole, List.drop_left] at here
      exact (ends (byte '.') (by rw [here]; rfl)).2 rfl
    next => exact again
  split at read
  next b rest here =>
    split at read
    next point =>
      have bound := le_length_of_exact read afterMantissa_within.le
      obtain ⟨more, total, rfl, again⟩ := drop_cons_inside (by omega) here
      have digits : run Text.isDigit (more ++ y) = run Text.isDigit (more ++ x) :=
        run_stable (by omega) (ends.stops fun _ => isNameByte_of_digit)
      unfold decimalNumber
      dsimp only
      rw [same (by omega), again]
      dsimp only
      rw [if_pos ?_, digits]
      · exact afterMantissa_stable ends read
      cases more with
      | nil =>
        obtain ⟨rfl, -⟩ : b = byte '.' ∧ _ := by simpa using point
        have next : y.head? ≠ some (byte '.') := fun first => (ends _ first).2 rfl
        simp [next]
      | cons => exact point
    next => exact plain read
  next => exact plain read

theorem number_digit (digit : Text.isDigit b = true) (ends : NumberEnd y) :
    number (b :: y) = decimalNumber (b :: y) := by
  have noPoint : b ≠ byte '.' := by rintro rfl; exact absurd digit (by decide)
  cases y with
  | nil => rfl
  | cons c more =>
    have outside := (ends c rfl).1
    have base (mark : UInt8) (letter : isNameByte mark = true) : c ≠ mark := by
      rintro rfl
      rw [letter] at outside
      exact absurd outside (by decide)
    simp [number, noPoint, base (byte 'x') (by decide), base (byte 'X') (by decide),
      base (byte 'b') (by decide), base (byte 'B') (by decide)]

theorem number_point (point : b = byte '.') (next : startsWithDigit rest = true)
    (read : number (b :: rest) = exact found m) : 2 ≤ m := by
  cases rest with
  | nil => cases next
  | cons c more =>
    have some : 0 < run Text.isDigit (c :: more) := run_pos next
    rw [number.eq_def] at read
    simp only [if_pos point] at read
    have bound := le_length_of_exact read afterMantissa_within.le
    simp only [List.drop_succ_cons, List.drop_zero] at bound
    omega

theorem number_stable (ends : NumberEnd y)
    (digit : Text.isDigit b = true ∨ b = byte '.' ∧ startsWithDigit (rest ++ x) = true)
    (read : number (b :: rest ++ x) = exact found (b :: rest).length) :
    number (b :: rest ++ y) = exact found (b :: rest).length := by
  cases rest with
  | nil =>
    -- Anything but a lone digit is longer than one byte.
    have short {isDigit : UInt8 → Bool} {message : Text}
        (read : basedNumber ([b] ++ x) isDigit message = exact found [b].length) : False :=
      absurd (le_length_of_exact read basedNumber_within.le) (by simp)
    have lone : Text.isDigit b = true :=
      digit.resolve_right fun ⟨point, next⟩ => absurd (number_point point next read) (by simp)
    have whole : decimalNumber ([b] ++ x) = exact found [b].length := by
      have noPoint : b ≠ byte '.' := by rintro rfl; exact absurd lone (by decide)
      cases x with
      | nil => exact read
      | cons c more =>
        simp only [number, List.nil_append, List.cons_append, if_neg noPoint] at read
        split at read
        · exact (short read).elim
        split at read
        · exact (short read).elim
        · exact read
    show number (b :: y) = _
    rw [number_digit lone ends]
    exact decimalNumber_stable ends whole
  | cons c more =>
    simp only [number, List.cons_append] at read ⊢
    split at read
    next point =>
      have bound := le_length_of_exact read afterMantissa_within.le
      have same := run_drop_stable ends (fun _ => isNameByte_of_digit) (show _ ≤ (b :: c :: more).length from bound)
      rw [if_pos point, ← List.cons_append, ← List.cons_append, same]
      exact afterMantissa_stable ends read
    next noPoint =>
      rw [if_neg noPoint]
      split at read
      next hex =>
        rw [if_pos hex]
        exact @basedNumber_stable _ _ (b :: c :: more) _ _ _ ends (fun _ => isNameByte_of_hexDigit) read
      next noHex =>
        rw [if_neg noHex]
        split at read
        next binary =>
          rw [if_pos binary]
          exact @basedNumber_stable _ _ (b :: c :: more) _ _ _ ends (fun _ => isNameByte_of_binaryDigit) read
        next noBinary =>
          rw [if_neg noBinary]
          exact @decimalNumber_stable (b :: c :: more) _ _ _ ends read

end

private theorem other_mark {mark : UInt8} {also : Bool} (other : b ≠ mark) : ¬(decide (b = mark) && also) = true := by
  simp [other]

theorem scan_number {lineStart : Bool} (start : NumberStart b rest) : scan lineStart b rest = number (b :: rest) := by
  rcases start with digit | ⟨rfl, next⟩
  · have noHash : b ≠ byte '#' := by rintro rfl; exact absurd digit (by decide)
    simp [scan, noHash, isNameStart_of_digit digit, digit]
  · unfold scan
    dsimp only
    rw [if_neg (other_mark (by decide)), if_neg (by decide), if_neg (by decide), if_pos (by simp [next])]

theorem NumberStart.isLiteralStart (start : NumberStart b rest) : isLiteralStart b = true := by
  rcases start with digit | ⟨rfl, -⟩
  · simp [GenericC.isLiteralStart, digit]
  · decide

/-- A literal that was read is a literal if it is read again in front of everything that may follow it. -/
theorem isLiteral_take (kind : TokenKind) {b : UInt8} {rest : Text} {m : Nat} (start : isLiteralStart b = true)
    (inside : m ≤ rest.length) (short : m + 1 ≤ Lexer.maxTokenLength)
    (again : ∀ lineStart after, (kind.isNumber = true → NumberEnd after) →
      scan lineStart b (rest.take m ++ after) = exact kind (m + 1)) :
    IsLiteral kind ((b :: rest).take (m + 1)) := by
  have length : ((b :: rest).take (m + 1)).length = m + 1 := by
    rw [List.length_take, List.length_cons]
    omega
  refine ⟨b, rest.take m, rfl, start, ?_, ?_⟩
  · rw [length]
    exact short
  · rw [length]
    exact again

theorem number_spelledAs (start : NumberStart b rest) (short : (number (b :: rest)).length ≤ Lexer.maxTokenLength) :
    SpelledAs (number (b :: rest)).kind ((b :: rest).take (number (b :: rest)).length) := by
  obtain ⟨n, some, inside, ⟨code, message, read⟩ | ⟨kind, isNumber, read⟩⟩ := number_within start
  · rw [read]
    trivial
  rw [read] at short ⊢
  obtain ⟨m, rfl⟩ := Nat.exists_eq_add_one.mpr some
  have bound : m ≤ rest.length := by simpa using inside
  have length : (b :: rest.take m).length = m + 1 := by simp [bound]
  have whole : number (b :: rest.take m ++ rest.drop m) = exact kind (b :: rest.take m).length := by
    rw [List.cons_append, List.take_append_drop, length, read]
  have literal : IsLiteral kind ((b :: rest).take (m + 1)) := by
    refine isLiteral_take _ start.isLiteralStart bound short fun lineStart after ends => ?_
    have restart : NumberStart b (rest.take m ++ after) := by
      refine start.imp_right ?_
      rintro ⟨point, next⟩
      refine ⟨point, ?_⟩
      have := number_point point next read
      cases rest with
      | nil => cases next
      | cons c more =>
        obtain ⟨k, rfl⟩ : ∃ k, m = k + 1 := ⟨m - 1, by omega⟩
        exact next
    rw [scan_number restart, ← length]
    exact number_stable (ends isNumber) (by rw [List.take_append_drop]; exact start) whole
  cases kind <;> first | exact absurd isNumber (by decide) | exact literal

theorem quoteBody_closed_lt {quote : UInt8} {t : Text} {n : Nat} (read : quoteBody quote t n = .closed m) : n < m := by
  fun_induction quoteBody quote t n <;> grind

theorem quoteBody_inside {quote : UInt8} {u x : Text} {n : Nat} (read : quoteBody quote (u ++ x) n = .closed m)
    (inside : m ≤ n + u.length) (y : Text) : quoteBody quote (u ++ y) n = .closed m := by
  fun_induction quoteBody quote u n with
  | case1 n =>
    have := quoteBody_closed_lt read
    simp at inside
    omega
  | case2 rest n =>
    rw [List.cons_append, quoteBody.eq_def] at read ⊢
    simpa only [↓reduceIte] using read
  | case3 n other =>
    rw [List.cons_append, quoteBody.eq_def] at read
    simp only [other, ↓reduceIte, List.nil_append] at read
    cases x with
    | nil => cases read
    | cons c more =>
      have := quoteBody_closed_lt read
      simp at inside
      omega
  | case4 n c more other ih =>
    rw [List.cons_append, List.cons_append, quoteBody.eq_def] at read ⊢
    simp only [other, ↓reduceIte] at read ⊢
    exact ih read (by simp at inside; omega)
  | case5 b rest n other plain newline =>
    rw [List.cons_append, quoteBody.eq_def] at read
    simp [other, plain, newline] at read
  | case6 b rest n other plain inLine ih =>
    rw [List.cons_append, quoteBody.eq_def] at read ⊢
    simp only [other, plain, inLine, ↓reduceIte] at read ⊢
    exact ih read (by simp at inside; omega)

theorem quotedLiteral_again {quote : UInt8} {kind : TokenKind} {what : Text} {n : Nat}
    (read : quotedLiteral (b :: rest) quote kind code what = exact kind n) :
    ∃ m, n = m + 1 ∧ ∀ after, quotedLiteral (b :: (rest.take m ++ after)) quote kind code what = exact kind n := by
  have inside := ((quotedLiteral_within b rest quote kind code what).whole (by simp)).2
  rw [read] at inside
  unfold quotedLiteral at read
  rw [List.drop_succ_cons, List.drop_zero] at read
  split at read
  next length closed =>
    obtain ⟨-, rfl⟩ := exact_inj read
    obtain ⟨m, rfl⟩ : ∃ m, length = m + 1 := ⟨length - 1, by have := quoteBody_closed_lt closed; omega⟩
    have inside : m ≤ rest.length := Nat.le_of_succ_le_succ inside
    refine ⟨m, rfl, fun after => ?_⟩
    have again : quoteBody quote (rest.take m ++ after) 1 = .closed (m + 1) := by
      rw [← List.take_append_drop m rest] at closed
      exact quoteBody_inside closed (by rw [List.length_take]; omega) after
    simp only [quotedLiteral, List.drop_succ_cons, List.drop_zero, again]
  · exact (broken_ne_exact read).elim
  · exact (broken_ne_exact read).elim

theorem string_spelledAs (rest : Text)
    (short : (stringLiteral (byte '"' :: rest)).length ≤ Lexer.maxTokenLength) :
    SpelledAs (stringLiteral (byte '"' :: rest)).kind
      ((byte '"' :: rest).take (stringLiteral (byte '"' :: rest)).length) := by
  unfold stringLiteral at short ⊢
  obtain ⟨n, -, inside, ⟨code, message, read⟩ | ⟨kind, rfl, read⟩⟩ :=
    quotedLiteral_within (byte '"') rest (byte '"') .string .unterminatedString "string"
  · rw [read]
    trivial
  rw [read] at short ⊢
  obtain ⟨m, rfl, again⟩ := quotedLiteral_again read
  refine isLiteral_take .string (by decide) (by simpa using inside) short fun lineStart after _ => ?_
  unfold scan
  dsimp only
  rw [if_neg (other_mark (by decide)), if_neg (by decide), if_neg (by decide), if_neg (other_mark (by decide)), if_pos rfl]
  exact again after

theorem character_spelledAs (rest : Text)
    (short : (characterLiteral (byte '\'' :: rest)).length ≤ Lexer.maxTokenLength) :
    SpelledAs (characterLiteral (byte '\'' :: rest)).kind
      ((byte '\'' :: rest).take (characterLiteral (byte '\'' :: rest)).length) := by
  unfold characterLiteral at short ⊢
  dsimp only at short ⊢
  obtain ⟨n, -, inside, ⟨code, message, read⟩ | ⟨kind, rfl, read⟩⟩ :=
    quotedLiteral_within (byte '\'') rest (byte '\'') .character .unterminatedCharacter "character"
  · rw [if_neg (by simp [read, broken]), read]
    trivial
  rw [read] at short ⊢
  split
  · trivial
  next several =>
    rw [if_neg several] at short
    obtain ⟨m, rfl, again⟩ := quotedLiteral_again read
    refine isLiteral_take .character (by decide) (by simpa using inside) short fun lineStart after _ => ?_
    unfold scan
    dsimp only
    rw [if_neg (other_mark (by decide)), if_neg (by decide), if_neg (by decide), if_neg (other_mark (by decide)),
      if_neg (by decide), if_pos rfl]
    unfold characterLiteral
    dsimp only
    rw [again after, if_neg several]

theorem longOperators_spelledAs : ∀ row ∈ longOperators, SpelledAs row.1 (Text.ofString row.2) := by
  simp only [longOperators, List.forall_mem_cons, List.not_mem_nil, false_implies, implies_true, and_true, SpelledAs]
  decide

theorem shortOperators_spelledAs : ∀ row ∈ shortOperators, SpelledAs row.1 [byte row.2] := by
  simp only [shortOperators, List.forall_mem_cons, List.not_mem_nil, false_implies, implies_true, and_true, SpelledAs]
  decide

theorem operator_spelledAs (t : Text) : SpelledAs (operator t).kind (t.take (operator t).length) := by
  unfold operator
  split
  next row found =>
    have starts := List.find?_some found
    rw [Text.startsWith, List.isPrefixOf_iff_prefix] at starts
    have text := List.prefix_iff_eq_take.mp starts
    simp only [exact, ← text]
    exact longOperators_spelledAs row (List.mem_of_find?_eq_some found)
  next =>
    split
    next row found =>
      have head := List.find?_some found
      simp only [decide_eq_true_eq] at head
      obtain ⟨rest, rfl⟩ := List.head?_eq_some_iff.mp head
      exact shortOperators_spelledAs row (List.mem_of_find?_eq_some found)
    next => trivial

theorem scan_spelledAs (lineStart : Bool) (b : UInt8) (rest : Text)
    (short : (scan lineStart b rest).length ≤ Lexer.maxTokenLength) :
    SpelledAs (scan lineStart b rest).kind ((b :: rest).take (scan lineStart b rest).length) := by
  have read := scan_cases lineStart b rest
  generalize scan lineStart b rest = lexeme at read short ⊢
  cases read with
  | directive => trivial
  | name start => exact name_spelledAs rest start short
  | number start => exact number_spelledAs start short
  | string quote =>
    subst quote
    exact string_spelledAs rest short
  | character quote =>
    subst quote
    exact character_spelledAs rest short
  | operator => exact operator_spelledAs _

theorem Lexer.significant_spelled (lexer : Lexer) (trivia : List Trivia) :
    (lexer.significant trivia).token.Spelled := by
  unfold Lexer.significant
  split
  · trivial
  next b tail same =>
    dsimp only
    split
    · trivial
    next short =>
      have spelled := scan_spelledAs lexer.lineStart b tail (Nat.le_of_not_lt short)
      rw [← same] at spelled
      exact spelled

theorem Lexer.run_significant (lexer : Lexer) : ∀ token ∈ lexer.run.1, ∃ (place : Lexer) (trivia : List Trivia),
    (place.significant trivia).token = token ∧ (lexer.run.2 = [] → (place.significant trivia).problems = []) := by
  fun_induction Lexer.run lexer with
  | case1 lexer read last =>
    intro token member
    exact ⟨_, _, (List.mem_singleton.mp member).symm, fun clean => (List.append_eq_nil_iff.mp clean).2⟩
  | case2 lexer read more later ih =>
    intro token member
    rcases List.mem_cons.mp member with rfl | member
    · exact ⟨_, _, rfl, fun clean => (List.append_eq_nil_iff.mp (List.append_eq_nil_iff.mp clean).1).2⟩
    · obtain ⟨place, trivia, same, silent⟩ := ih token member
      exact ⟨place, trivia, same, fun clean => silent (List.append_eq_nil_iff.mp clean).2⟩

theorem Lexer.run_spelled (lexer : Lexer) : ∀ token ∈ lexer.run.1, token.Spelled := by
  intro token member
  obtain ⟨place, trivia, rfl, -⟩ := lexer.run_significant token member
  exact place.significant_spelled trivia

theorem tokenize_spelled (file : UInt32) (content : Text) : ∀ token ∈ (tokenize file content).1, token.Spelled :=
  (Lexer.start file content).run_spelled

end GenericC
