import GenericC.Text

/-! Whole numbers as they are given on a command line: with a sign, in base two, eight, ten or sixteen, and with
underscores between the digits. -/

namespace GenericC.Text

inductive IntegerFault
  | malformed
  | outOfRange
deriving DecidableEq, Repr

def lowerByte (b : UInt8) : UInt8 := if isUpper b then b + 32 else b

def digitValue? (b : UInt8) : Option Nat :=
  if isDigit b then some (b.toNat - 48)
  else if isLetter b then some ((lowerByte b).toNat - 87)
  else none

/-- Which base the start of a number without its sign asks for, and its digits. -/
def splitBase : Text → Nat × Text
  | 48 :: mark :: digit :: rest =>
    if lowerByte mark = byte 'b' then (2, digit :: rest)
    else if lowerByte mark = byte 'o' then (8, digit :: rest)
    else if lowerByte mark = byte 'x' then (16, digit :: rest)
    else (8, mark :: digit :: rest)
  | 48 :: rest => (8, rest)
  | digits => (10, digits)

def underscore : UInt8 := byte '_'

/-- The value of digits. The first fault counts, be it a wrong digit or a number above 64 bits. -/
def readDigits (base : Nat) (value : Nat) : Text → Except IntegerFault Nat
  | [] => .ok value
  | b :: rest =>
    if b = underscore then readDigits base value rest
    else match digitValue? b with
      | none => .error .malformed
      | some digit =>
        if base ≤ digit then .error .malformed
        else
          let next := value * base + digit
          if 1 <<< 64 ≤ next then .error .outOfRange else readDigits base next rest

/-- Each underscore stands between two digits; a mark of the base counts as a digit. `last` is the byte before. -/
def underscoresFit (last : Option UInt8) : Text → Bool
  | [] => last ≠ some underscore
  | b :: rest =>
    if b = underscore then last.any (fun before => (digitValue? before).isSome) && underscoresFit (some b) rest
    else underscoresFit (some b) rest

def toInteger (t : Text) : Except IntegerFault Int := do
  let body : Text := match t with
    | 43 :: rest => rest
    | 45 :: rest => rest
    | t => t
  if body.isEmpty then throw .malformed
  let (base, digits) := splitBase body
  let value ← readDigits base 0 digits
  if !underscoresFit none body then throw .malformed
  if t.head? = some 45 then
    if 1 <<< 63 < value then throw .outOfRange else return -(value : Int)
  else if 1 <<< 63 ≤ value then throw .outOfRange
  else return value

end GenericC.Text
