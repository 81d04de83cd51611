import GenericC.Text

/-! A list of texts as one text: each stands behind its length and a colon, so any bytes can be kept. -/

namespace GenericC.Text

def ofDigits (digits : Text) : Nat := digits.foldl (fun value digit => value * 10 + (digit.toNat - 48)) 0

def encodeField (field : Text) : Text := ofNat field.length ++ byte ':' :: field

def encodeFields (fields : List Text) : Text := fields.flatMap encodeField

def decodeField? (t : Text) : Option (Text × Text) :=
  let digits := t.takeWhile isDigit
  match t.dropWhile isDigit with
  | 58 :: rest =>
    let size := ofDigits digits
    if digits.isEmpty || rest.length < size then none else some (rest.take size, rest.drop size)
  | _ => none

/-- At most `count` fields that make up a text. -/
def decodeUpTo? : (count : Nat) → Text → Option (List Text)
  | _, [] => some []
  | 0, _ => none
  | count + 1, t => do
    let (field, rest) ← decodeField? t
    return field :: (← decodeUpTo? count rest)

def decodeFields? (t : Text) : Option (List Text) := decodeUpTo? t.length t

end GenericC.Text
