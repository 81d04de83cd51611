import GenericC.Text

/-! Numbers with a fixed number of decimal places, rounded from their exact value; halves go to the even
neighbour. -/

namespace GenericC.Text

/-- The nearest whole number to a quotient, of two nearest ones the even one. -/
def roundDiv (numerator denominator : Nat) : Nat :=
  let whole := numerator / denominator
  let rest := numerator % denominator
  if 2 * rest < denominator then whole
  else if denominator < 2 * rest then whole + 1
  else if whole % 2 = 0 then whole
  else whole + 1

/-- A count of `10 ^ -places` written with `places` decimals. -/
def ofScaled (places scaled : Nat) : Text :=
  let digits : Text := ofNat scaled
  let digits : Text := List.replicate (places + 1 - digits.length) (byte '0') ++ digits
  let whole := digits.take (digits.length - places)
  if places = 0 then whole else whole ++ byte '.' :: digits.drop (digits.length - places)

/-- A binary number with sign, in which the highest bit of the word is the sign, eleven bits are the exponent and
the rest is the fraction, with `places` decimals. -/
def ofFloat (places : Nat) (value : Float) : Text :=
  let bits := value.toBits.toNat
  let sign : Text := if bits >>> 63 = 1 then "-" else ""
  let exponent := (bits >>> 52) % 2048
  let fraction := bits % (1 <<< 52)
  if exponent = 2047 then
    if fraction ≠ 0 then "NaN" else if sign.isEmpty then "+Inf" else "-Inf"
  else
    let significand := if exponent = 0 then fraction else fraction + (1 <<< 52)
    let power := if exponent = 0 then 1 else exponent
    let scaled := roundDiv ((significand * Nat.pow 10 places) <<< power) (1 <<< 1075)
    sign ++ ofScaled places scaled

end GenericC.Text
