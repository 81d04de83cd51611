import GenericC.Text

/-! Ranges of bytes inside the files of a compilation. Offsets are 32-bit words, so
differences of offsets wrap. -/

namespace GenericC

/-- The half-open range of bytes from `start` to `stop` of the file with number `file`. -/
structure Span where
  file : UInt32 := 0
  start : UInt32 := 0
  stop : UInt32 := 0
deriving DecidableEq, Repr, Inhabited

namespace Span

def nowhere : Span := {}

def isEmpty (span : Span) : Bool := span.start = span.stop

def length (span : Span) : UInt32 := span.stop - span.start

def contains (outer inner : Span) : Bool :=
  outer.file = inner.file && outer.start ≤ inner.start && inner.stop ≤ outer.stop

/-- The smallest span with both parts. Spans of different files are not merged: the first one stays. -/
def cover (first second : Span) : Span :=
  if first.file = second.file then
    { first with start := min first.start second.start, stop := max first.stop second.stop }
  else first

def atEnd (span : Span) : Span := { span with start := span.stop }

def render (span : Span) : Text :=
  Text.ofUInt32 span.file ++ Text.ofString ":" ++ Text.ofUInt32 span.start ++ Text.ofString "-" ++
    Text.ofUInt32 span.stop

end Span

/-- A place in a file as people count it: lines and columns start at one, and a column is a byte. -/
structure Position where
  line : UInt32
  column : UInt32
deriving DecidableEq, Repr

def Position.render (position : Position) : Text :=
  Text.ofUInt32 position.line ++ Text.ofString ":" ++ Text.ofUInt32 position.column

end GenericC
