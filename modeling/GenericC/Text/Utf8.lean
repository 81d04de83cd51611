import GenericC.Text

/-! Reading byte strings as UTF-8. A malformed byte stands for itself: it is one
rune of width one whose code is the replacement character, so that reading never
fails and the widths of the runes add up to the length of the text. -/

namespace GenericC.Text

/-- One step of reading a text: a code point, the number of bytes that spell it, and whether they are
well formed. -/
structure Rune where
  code : Nat
  size : Nat
  valid : Bool := true
deriving Repr, DecidableEq

namespace Rune

def replacementCode : Nat := 0xFFFD

def malformed : Rune := ⟨replacementCode, 1, false⟩

end Rune

def isContinuation (b : UInt8) : Bool := 0x80 ≤ b && b ≤ 0xBF

/-- The six low bits that a continuation byte carries. -/
def payload (b : UInt8) : Nat := b.toNat % 64

/-- The rune at the head of a text. Overlong forms, surrogates and codes above the Unicode range are
malformed. -/
def firstRune : Text → Option Rune
  | [] => none
  | b :: rest =>
    if b < 0x80 then some ⟨b.toNat, 1, true⟩
    else if b < 0xC2 then some .malformed
    else if b < 0xE0 then
      match rest with
      | c :: _ => if isContinuation c then some ⟨(b.toNat % 32) * 64 + payload c, 2, true⟩ else some .malformed
      | _ => some .malformed
    else if b < 0xF0 then
      match rest with
      | c :: d :: _ =>
        if isContinuation c && isContinuation d && !(b = 0xE0 && c < 0xA0) && !(b = 0xED && c > 0x9F) then
          some ⟨(b.toNat % 16) * 4096 + payload c * 64 + payload d, 3, true⟩
        else some .malformed
      | _ => some .malformed
    else if b < 0xF5 then
      match rest with
      | c :: d :: e :: _ =>
        if isContinuation c && isContinuation d && isContinuation e && !(b = 0xF0 && c < 0x90) &&
            !(b = 0xF4 && c > 0x8F) then
          some ⟨(b.toNat % 8) * 262144 + payload c * 4096 + payload d * 64 + payload e, 4, true⟩
        else some .malformed
      | _ => some .malformed
    else some .malformed

private def runesLoop : Nat → List Rune → Text → List Rune
  | _, done, [] => done.reverse
  | pending + 1, done, _ :: rest => runesLoop pending done rest
  | 0, done, b :: rest =>
    match firstRune (b :: rest) with
    | none => done.reverse
    | some rune => runesLoop (rune.size - 1) (rune :: done) rest

def runes (t : Text) : List Rune := runesLoop 0 [] t

theorem firstRune_cons (b : UInt8) (rest : Text) : ∃ rune, firstRune (b :: rest) = some rune ∧ 0 < rune.size := by
  unfold firstRune
  dsimp only
  repeat' split
  all_goals exact ⟨_, rfl, Nat.succ_pos _⟩

private theorem runesLoop_eq (pending : Nat) (done : List Rune) (t : Text) :
    runesLoop pending done t = done.reverse ++ runesLoop 0 [] (t.drop pending) := by
  induction t generalizing pending done with
  | nil => simp [runesLoop]
  | cons b rest ih =>
    cases pending with
    | succ pending => exact ih pending done
    | zero =>
      obtain ⟨rune, first, -⟩ := firstRune_cons b rest
      simp only [runesLoop, first, List.drop_zero]
      rw [ih _ (rune :: done), ih _ [rune]]
      simp

theorem runes_nil : runes [] = [] := rfl

theorem runes_cons {b : UInt8} {rest : Text} {rune : Rune} (first : firstRune (b :: rest) = some rune) :
    runes (b :: rest) = rune :: runes (rest.drop (rune.size - 1)) := by
  simp only [runes, runesLoop, first]
  exact runesLoop_eq _ [rune] rest

def isValidUtf8 (t : Text) : Bool := t.runes.all (·.valid)

/-- The UTF-8 spelling of a code point; codes that are no scalar value become the replacement
character. -/
def ofCode (code : Nat) : Text :=
  if 0xD800 ≤ code && code ≤ 0xDFFF || 0x10FFFF < code then [0xEF, 0xBF, 0xBD]
  else String.utf8EncodeChar (Char.ofNat code)

/-- White space: the ASCII blanks and the other code points with the Unicode property. -/
def isBlankCode (code : Nat) : Bool :=
  (9 ≤ code && code ≤ 13) || code = 0x20 || code = 0x85 || code = 0xA0 || code = 0x1680 ||
    (0x2000 ≤ code && code ≤ 0x200A) || code = 0x2028 || code = 0x2029 || code = 0x202F || code = 0x205F ||
    code = 0x3000

private def dropBlanksLoop : Nat → Text → Text
  | _, [] => []
  | pending + 1, _ :: rest => dropBlanksLoop pending rest
  | 0, b :: rest =>
    match firstRune (b :: rest) with
    | some rune => if isBlankCode rune.code then dropBlanksLoop (rune.size - 1) rest else b :: rest
    | none => b :: rest

def trimStart (t : Text) : Text := dropBlanksLoop 0 t

/-- The number of bytes up to the end of the last rune that is not blank. -/
def trimmedLength (t : Text) : Nat :=
  (t.runes.foldl (fun (state : Nat × Nat) rune =>
    let position := state.1 + rune.size
    (position, if isBlankCode rune.code then state.2 else position)) (0, 0)).2

def trimEnd (t : Text) : Text := t.take t.trimmedLength

def trim (t : Text) : Text := t.trimEnd.trimStart

def words (t : Text) : List Text :=
  let step := fun (state : Text × Text × List Text) (rune : Rune) =>
    let (rest, current, done) := state
    if isBlankCode rune.code then
      (rest.drop rune.size, [], if current.isEmpty then done else current :: done)
    else (rest.drop rune.size, current ++ rest.take rune.size, done)
  let (_, current, done) := t.runes.foldl step (t, [], [])
  (if current.isEmpty then done else current :: done).reverse

def runeCount (t : Text) : Nat := t.runes.length

def padRightRunes (width : Nat) (t : Text) : Text := t ++ spaces (width - t.runeCount)

end GenericC.Text
