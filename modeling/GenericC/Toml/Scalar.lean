import GenericC.Toml.Document
import GenericC.Text.Utf8

/-! How texts, numbers and dates are written in TOML. -/

namespace GenericC.Toml

def isLineBreak (b : UInt8) : Bool := b = 10 || b = 13

def isGap (b : UInt8) : Bool := b = 32 || b = 9

def isHex (b : UInt8) : Bool :=
  Text.isDigit b || (Text.byte 'a' ≤ b && b ≤ Text.byte 'f') || (Text.byte 'A' ≤ b && b ≤ Text.byte 'F')

def hexValue (b : UInt8) : Nat :=
  if Text.isDigit b then b.toNat - 48 else if b < 97 then b.toNat - 55 else b.toNat - 87

def readDigits (base : Nat) (digits : Text) : Nat := digits.foldl (fun n b => n * base + hexValue b) 0

/-! Texts -/

/-- The inside of a text on one line and what follows its closing quote. -/
def splitLine (quote : UInt8) (escapes : Bool) (escaped : Bool) (done : Text) : Text → Option (Text × Text)
  | [] => none
  | b :: rest =>
    if isLineBreak b then none
    else if escaped then splitLine quote escapes false (b :: done) rest
    else if b = quote then some (done.reverse, rest)
    else splitLine quote escapes (escapes && b = Text.byte '\\') (b :: done) rest

/-- The inside of a text over several lines. It ends at the last three of three to five quotes in a row; more are
not allowed. `run` counts the quotes just read. -/
def splitBlock (quote : UInt8) (escapes : Bool) (escaped : Bool) (run : Nat) (done : Text) : Text → Option (Text × Text)
  | [] => if 3 ≤ run then some ((done.drop 3).reverse, []) else none
  | b :: rest =>
    if b = quote && !escaped then
      if 5 ≤ run then none else splitBlock quote escapes false (run + 1) (b :: done) rest
    else if 3 ≤ run then some ((done.drop 3).reverse, b :: rest)
    else splitBlock quote escapes (escapes && !escaped && b = Text.byte '\\') 0 (b :: done) rest

def readCode? (count : Nat) (t : Text) : Option Text :=
  let digits := t.take count
  let code := readDigits 16 digits
  if digits.length = count && digits.all isHex && !(0xD800 ≤ code && code ≤ 0xDFFF) && code ≤ 0x10FFFF then
    some (Text.ofCode code)
  else none

/-- What the text behind a backslash stands for, and how many bytes of it were used. In a text over several lines a
backslash takes away the line break behind it and all blanks around that. -/
def readEscape? (block : Bool) (t : Text) : Option (Text × Nat) :=
  let blanks := t.takeWhile fun b => isGap b || isLineBreak b
  if block && blanks.contains 10 then some ([], blanks.length)
  else
    match t with
    | [] => none
    | b :: rest =>
      if b = Text.byte 'b' then some ([8], 1)
      else if b = Text.byte 't' then some ([9], 1)
      else if b = Text.byte 'n' then some ([10], 1)
      else if b = Text.byte 'f' then some ([12], 1)
      else if b = Text.byte 'r' then some ([13], 1)
      else if b = Text.byte '"' || b = Text.byte '\\' then some ([b], 1)
      else if b = Text.byte 'u' then (readCode? 4 rest).map (·, 5)
      else if b = Text.byte 'U' then (readCode? 8 rest).map (·, 9)
      else none

/-- Replaces escapes; the first argument counts the bytes of the last one that are still to be passed. -/
def unescapeLoop (block : Bool) : Nat → Text → Option Text
  | _, [] => some []
  | pending + 1, _ :: rest => unescapeLoop block pending rest
  | 0, b :: rest =>
    if b = Text.byte '\\' then do
      let (meaning, used) ← readEscape? block rest
      return meaning ++ (← unescapeLoop block used rest)
    else do return b :: (← unescapeLoop block 0 rest)

def unescape (block : Bool) (t : Text) : Option Text := unescapeLoop block 0 t

def dropFirstBreak : Text → Text
  | 10 :: rest => rest
  | 13 :: 10 :: rest => rest
  | t => t

/-- A text in quotes of one kind, and what follows it. The opening quotes are already read. -/
def readText? (quote : UInt8) (block : Bool) (t : Text) : Option (Text × Text) := do
  let escapes := quote = Text.byte '"'
  let (inside, rest) ← if block then splitBlock quote escapes false 0 [] t else splitLine quote escapes false [] t
  let inside := if block then dropFirstBreak inside else inside
  if escapes then return (← unescape block inside, rest) else return (inside, rest)

/-! Numbers -/

def underscoresFit (t : Text) : Bool :=
  let (fits, after) := t.foldl (fun (state : Bool × Bool) b => (state.1 && (b ≠ Text.byte '_' || state.2), isHex b)) (true, false)
  fits && after

def isBaseMark (b : UInt8) : Bool := b = Text.byte 'b' || b = Text.byte 'o' || b = Text.byte 'x'

/-- Whether a number starts with a zero that it does not need. -/
def hasSpareZero : Text → Bool
  | a :: b :: rest =>
    (a = Text.byte '0' && !isBaseMark b) || ((a = Text.byte '-' || a = Text.byte '+') && b = Text.byte '0' && !rest.isEmpty)
  | _ => false

def baseOf (mark : UInt8) : Nat := if mark = Text.byte 'b' then 2 else if mark = Text.byte 'o' then 8 else 16

def isDigitOf (base : Nat) (b : UInt8) : Bool := isHex b && hexValue b < base

def leastInteger : Int := -9223372036854775808

def greatestInteger : Int := 9223372036854775807

def integer? (spelling : Text) : Option Int :=
  if !underscoresFit spelling || hasSpareZero spelling then none
  else
    let plain : Text := spelling.filter (· ≠ Text.byte '_')
    let value : Int := match plain with
      | 48 :: mark :: digits => readDigits (baseOf mark) digits
      | 45 :: digits => -(readDigits 10 digits)
      | 43 :: digits => readDigits 10 digits
      | digits => readDigits 10 digits
    if leastInteger ≤ value && value ≤ greatestInteger then some value else none

/-- Splits at each byte of a kind and leaves out empty parts. -/
def partsAt (p : UInt8 → Bool) (t : Text) : List Text :=
  let (current, done) := t.foldl (fun (state : Text × List Text) b =>
    if p b then ([], if state.1.isEmpty then state.2 else state.1 :: state.2) else (state.1 ++ [b], state.2)) ([], [])
  (if current.isEmpty then done else current :: done).reverse

def isExponentMark (b : UInt8) : Bool := b = Text.byte 'e' || b = Text.byte 'E'

def dropSign : Text → Text
  | 43 :: rest => rest
  | 45 :: rest => rest
  | t => t

/-- The digits of a number with a fraction or an exponent, as `(whole and fraction, places, exponent)`. -/
def scientific? (t : Text) : Option (Nat × Nat × Int) := do
  let body := dropSign t
  let whole := body.takeWhile Text.isDigit
  let rest := body.drop whole.length
  let (fraction, rest) := match rest with
    | 46 :: rest => (rest.takeWhile Text.isDigit, rest.dropWhile Text.isDigit)
    | rest => ([], rest)
  if whole.isEmpty && fraction.isEmpty then none
  let digits := readDigits 10 (whole ++ fraction)
  match rest with
  | [] => return (digits, fraction.length, 0)
  | b :: rest =>
    let power := dropSign rest
    if !isExponentMark b || power.isEmpty || !power.all Text.isDigit then none
    let figures := power.dropWhile (· = Text.byte '0')
    let size : Int := readDigits 10 (figures.take 6)
    return (digits, fraction.length, if rest.head? = some 45 then -size else size)

/-- Whether a number is small enough for 64 bits of floating point: below the midpoint between the greatest of these
and the next power of two. -/
def isRepresentable (digits places : Nat) (exponent : Int) : Bool :=
  let limit : Nat := (1 <<< 1024) - (1 <<< 970)
  let shift := exponent - places
  if digits = 0 then true
  else if 0 ≤ shift then shift < 400 && digits * Nat.pow 10 shift.toNat < limit
  else digits < limit * Nat.pow 10 (min shift.natAbs (Nat.log2 digits + 2))

def specialNumbers : List Text := ["nan", "+nan", "-nan", "inf", "+inf", "-inf"]

/-- Whether a point is followed by a digit wherever there is one. -/
def pointsFit (t : Text) : Bool :=
  let (fits, after) := t.foldl (fun (state : Bool × Bool) b =>
    (state.1 && (!state.2 || Text.isDigit b), b = Text.byte '.')) (true, false)
  fits && !after

def isDecimal (spelling : Text) : Bool :=
  if specialNumbers.contains spelling then true
  else
    let parts := partsAt (fun b => b = Text.byte '.' || isExponentMark b) spelling
    parts.all underscoresFit && !parts.head?.any hasSpareZero && pointsFit spelling &&
      match scientific? (spelling.filter (· ≠ Text.byte '_')) with
      | some (digits, places, exponent) => isRepresentable digits places exponent
      | none => false

/-! Dates and times -/

def daysIn (year month : Nat) : Nat :=
  if month = 2 then (if year % 4 = 0 && (year % 100 ≠ 0 || year % 400 = 0) then 29 else 28)
  else if month = 4 || month = 6 || month = 9 || month = 11 then 30
  else 31

def takeNumber? (count : Nat) (t : Text) : Option (Nat × Text) :=
  let digits := t.take count
  if digits.length = count && digits.all Text.isDigit then some (readDigits 10 digits, t.drop count) else none

def takeByte? (b : UInt8) : Text → Option Text
  | [] => none
  | a :: rest => if a = b then some rest else none

def takeDate? (t : Text) : Option Text := do
  let (year, t) ← takeNumber? 4 t
  let t ← takeByte? (Text.byte '-') t
  let (month, t) ← takeNumber? 2 t
  let t ← takeByte? (Text.byte '-') t
  let (day, t) ← takeNumber? 2 t
  if 1 ≤ month && month ≤ 12 && 1 ≤ day && day ≤ daysIn year month then some t else none

def takeTime? (t : Text) : Option Text := do
  let (hour, t) ← takeNumber? 2 t
  let t ← takeByte? (Text.byte ':') t
  let (minute, t) ← takeNumber? 2 t
  let t ← takeByte? (Text.byte ':') t
  let (second, t) ← takeNumber? 2 t
  if 23 < hour || 59 < minute || 59 < second then none
  else match takeByte? (Text.byte '.') t with
    | none => some t
    | some fraction => if fraction.head?.any Text.isDigit then some (fraction.dropWhile Text.isDigit) else none

def takeZone? (t : Text) : Option Text :=
  match t with
  | [] => none
  | b :: rest =>
    if b = Text.byte 'Z' then some rest
    else if b = Text.byte '+' || b = Text.byte '-' then do
      let (hour, t) ← takeNumber? 2 rest
      let t ← takeByte? (Text.byte ':') t
      let (minute, t) ← takeNumber? 2 t
      if hour ≤ 24 && minute ≤ 60 then some t else none
    else none

def isMoment (spelling : Text) : Bool :=
  let t : Text := spelling.map fun b =>
    if b = Text.byte 't' || b = Text.byte ' ' then Text.byte 'T' else if b = Text.byte 'z' then Text.byte 'Z' else b
  takeTime? t = some [] ||
    match takeDate? t with
    | none => false
    | some [] => true
    | some rest =>
      match (takeByte? (Text.byte 'T') rest).bind takeTime? with
      | none => false
      | some [] => true
      | some zone => takeZone? zone = some []

/-! Telling these apart -/

def isMomentByte (b : UInt8) : Bool :=
  Text.isDigit b || (Text.ofString "-:Tt .Zz+").contains b

def isDecimalByte (b : UInt8) : Bool := Text.isDigit b || (Text.ofString "_.-+eE").contains b

/-- The value that starts with a digit or a sign, and what follows it. What the first bytes look like decides how far it
reaches. -/
def readNumber (t : Text) : Except Fault (Value × Text) :=
  let whole (length : Nat) : Except Fault (Value × Text) :=
    match integer? (t.take length) with
    | some n => .ok (.integer n, t.drop length)
    | none => .error .number
  let decimal : Except Fault (Value × Text) :=
    let spelling := t.takeWhile isDecimalByte
    if isDecimal spelling then .ok (.decimal spelling, t.drop spelling.length) else .error .number
  let moment : Except Fault (Value × Text) :=
    let reach := t.takeWhile isMomentByte
    let spelling := Text.trimEnd reach
    if isMoment spelling then .ok (.moment spelling, t.drop reach.length) else .error .moment
  let lead := t.length - (dropSign t).length
  let digits := (dropSign t).takeWhile Text.isDigit
  let figures := (dropSign t).takeWhile fun b => Text.isDigit b || b = Text.byte '_'
  let next := (t.drop (lead + digits.length)).head?
  if digits.isEmpty then
    match specialNumbers.find? fun word => Text.startsWith t word with
    | some word => .ok (.decimal word, t.drop word.length)
    | none => .error .value
  else if digits = Text.ofString "0" && next.any isBaseMark then
    let base := baseOf (next.getD 0)
    let inside := (t.drop 2).takeWhile fun b => isDigitOf base b || b = Text.byte '_'
    if lead = 0 && inside.head?.any (isDigitOf base) then whole (inside.length + 2) else .error .number
  else if lead = 0 && (next = some (Text.byte '-') || next = some (Text.byte ':')) then moment
  else if (t.drop (lead + figures.length)).head?.any fun b => b = Text.byte '.' || isExponentMark b then decimal
  else whole (lead + figures.length)

end GenericC.Toml
