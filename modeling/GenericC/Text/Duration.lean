import GenericC.Text

/-! Lengths of time as they are given on a command line, such as `1h15m30.5s`. -/

namespace GenericC.Text

inductive DurationFault
  | malformed
  | missingUnit
  | unknownUnit (unit : Text)
deriving DecidableEq, Repr

/-- The units with their lengths in nanoseconds. Both forms of the letter for a millionth count. -/
def timeUnits : List (Text × Nat) :=
  [("ns", 1), ("us", 1000), ("µs", 1000), ("μs", 1000), ("ms", 1000000), ("s", 1000000000), ("m", 60000000000),
    ("h", 3600000000000)]

def unitLength? (unit : Text) : Option Nat := (timeUnits.find? (·.1 = unit)).map (·.2)

def isNumeral (b : UInt8) : Bool := isDigit b || b = byte '.'

def decimalValue (digits : Text) : Nat := digits.foldl (fun n b => n * 10 + (b.toNat - 48)) 0

/-- The nanoseconds of a row of numbers with units, none of which may exceed 63 bits. The first argument bounds how many
there are. -/
def durationParts (total : Nat) : Nat → Text → Except DurationFault Nat
  | _, [] => .ok total
  | 0, _ => .error .malformed
  | bound + 1, t => do
    if !t.head?.any isNumeral then throw .malformed
    let whole := t.takeWhile isDigit
    let rest := t.drop whole.length
    let fraction := if rest.head? = some (byte '.') then (rest.drop 1).takeWhile isDigit else []
    let rest := if rest.head? = some (byte '.') then (rest.drop 1).drop fraction.length else rest
    if 1 <<< 63 < decimalValue whole || whole.isEmpty && fraction.isEmpty then throw .malformed
    let unit := rest.takeWhile (!isNumeral ·)
    if unit.isEmpty then throw .missingUnit
    match unitLength? unit with
    | none => throw (.unknownUnit unit)
    | some length =>
      let part := decimalValue whole * length + decimalValue fraction * length / Nat.pow 10 fraction.length
      if 1 <<< 63 < total + part then throw .malformed
      durationParts (total + part) bound (rest.drop unit.length)

def toDuration (t : Text) : Except DurationFault Int := do
  let body : Text := match t with
    | 43 :: rest => rest
    | 45 :: rest => rest
    | t => t
  if body = ofString "0" then return 0
  if body.isEmpty then throw .malformed
  let total ← durationParts 0 body.length body
  if t.head? = some 45 then return -(total : Int)
  else if 1 <<< 63 ≤ total then throw .malformed
  else return total

/-- A text in quotes in which bytes outside printable ASCII are written as numbers. -/
def quotedBytes (t : Text) : Text :=
  concat ["\"", t.flatMap fun b =>
    if 0x80 ≤ b || b < 32 then ofString "\\x" ++ hexPadded 2 b.toNat
    else if b = byte '"' || b = byte '\\' then [byte '\\', b]
    else [b], "\""]

def DurationFault.message (given : Text) : DurationFault → Text
  | malformed => concat ["time: invalid duration ", quotedBytes given]
  | missingUnit => concat ["time: missing unit in duration ", quotedBytes given]
  | unknownUnit unit => concat ["time: unknown unit ", quotedBytes unit, " in duration ", quotedBytes given]

end GenericC.Text
