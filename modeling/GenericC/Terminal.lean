import GenericC.Text

/-! What is asked of the terminal that a text is shown on. -/

namespace GenericC

structure Style where
  colour : Option Nat := none
  bold : Bool := false
deriving DecidableEq, Repr

namespace Style

def red : Nat := 31
def green : Nat := 32
def yellow : Nat := 33
def blue : Nat := 34
def cyan : Nat := 36

end Style

class Terminal where
  /-- The cells that a code point takes. -/
  codeWidth : Nat → Nat
  textWidth : Text → Nat
  /-- A text cut to a number of cells, with a mark at the cut. -/
  truncate : Text → (width : Nat) → (mark : Text) → Text
  /-- A text in a style, or as it is when colours are off. -/
  paint : Style → (on : Bool) → Text → Text

end GenericC
