/-! Byte strings. Source files need not be valid UTF-8, and the compiler passes
their bytes through untouched, so every text of the library is a list of bytes.
String literals are coerced to their UTF-8 encoding. -/

namespace GenericC

abbrev Text := List UInt8

namespace Text

def ofString (s : String) : Text := s.toList.flatMap String.utf8EncodeChar

instance : Coe String Text := ⟨ofString⟩

/-- The byte of an ASCII character. -/
def byte (c : Char) : UInt8 := c.toNat.toUInt8

def ofNat (n : Nat) : Text := (Nat.toDigits 10 n).map byte

def ofInt (n : Int) : Text :=
  if n < 0 then byte '-' :: ofNat n.natAbs else ofNat n.natAbs

def ofUInt32 (n : UInt32) : Text := ofNat n.toNat

def isDigit (b : UInt8) : Bool := byte '0' ≤ b && b ≤ byte '9'

def isUpper (b : UInt8) : Bool := byte 'A' ≤ b && b ≤ byte 'Z'

def isLower (b : UInt8) : Bool := byte 'a' ≤ b && b ≤ byte 'z'

def isLetter (b : UInt8) : Bool := isUpper b || isLower b

def joinWith (separator : Text) : List Text → Text
  | [] => []
  | first :: rest => first ++ rest.flatMap (separator ++ ·)

def concat (items : List Text) : Text := items.flatMap id

def replicate (count : Nat) (item : Text) : Text := (List.replicate count item).flatMap id

def spaces (count : Nat) : Text := List.replicate count (byte ' ')

def padLeft (width : Nat) (t : Text) : Text := spaces (width - t.length) ++ t

def padRight (width : Nat) (t : Text) : Text := t ++ spaces (width - t.length)

def startsWith (t start : Text) : Bool := start.isPrefixOf t

def endsWith (t ending : Text) : Bool := ending.isSuffixOf t

def dropStart? (t start : Text) : Option Text :=
  if t.startsWith start then some (t.drop start.length) else none

def dropEnd (t ending : Text) : Text :=
  if t.endsWith ending then t.take (t.length - ending.length) else t

def dropWhileEnd (p : UInt8 → Bool) (t : Text) : Text := (t.reverse.dropWhile p).reverse

/-- The position after the last byte that satisfies `p`; zero when there is none. -/
def afterLast (p : UInt8 → Bool) (t : Text) : Nat :=
  match t.reverse.findIdx? p with
  | none => 0
  | some back => t.length - back

/-- The parts of a text between the occurrences of a byte; one more than there are occurrences. -/
def splitByte (mark : UInt8) (t : Text) : List Text :=
  let (current, done) := t.foldr
    (fun b (state : Text × List Text) =>
      if b = mark then ([], state.1 :: state.2) else (b :: state.1, state.2)) ([], [])
  current :: done

/-- The bytes from one place to another, if both lie in the text and in this order. -/
def slice? {α : Type} (t : List α) (first last : Nat) : Option (List α) :=
  if first ≤ last && last ≤ t.length then some ((t.take last).drop first) else none

def cutByte (mark : UInt8) (t : Text) : Text × Option Text :=
  (t.takeWhile (· ≠ mark), match t.dropWhile (· ≠ mark) with
    | [] => none
    | _ :: rest => some rest)

def hexDigit (n : Nat) : UInt8 :=
  if n < 10 then (n + 48).toUInt8 else (n + 87).toUInt8

def hexPadded (width n : Nat) : Text :=
  (List.range width).reverse.map fun place => hexDigit ((n >>> (4 * place)) % 16)

def toHex (t : Text) : Text := t.flatMap fun b => [hexDigit (b.toNat / 16), hexDigit (b.toNat % 16)]

/-- Order by bytes, a proper beginning first. -/
def ble : Text → Text → Bool
  | [], _ => true
  | _ :: _, [] => false
  | a :: as, b :: bs => a < b || (a = b && ble as bs)

end Text
end GenericC
