import GenericC.Source.Span

/-! A position in the bytes of a file. Offsets are 32-bit words and their sums wrap;
reading past the end gives the zero byte. -/

namespace GenericC

structure Cursor where
  file : UInt32
  content : Text
  offset : UInt32 := 0

namespace Cursor

def stop (cursor : Cursor) : UInt32 := cursor.content.length.toUInt32

def atEnd (cursor : Cursor) : Bool := cursor.stop ≤ cursor.offset

def peekAt (cursor : Cursor) (n : UInt32) : UInt8 :=
  let index := cursor.offset + n
  if index < cursor.stop then cursor.content.getD index.toNat 0 else 0

def peek (cursor : Cursor) : UInt8 := cursor.peekAt 0

def rest (cursor : Cursor) : Text := cursor.content.drop (min cursor.offset cursor.stop).toNat

def hasStart (cursor : Cursor) (start : Text) : Bool := cursor.rest.startsWith start

/-- Moves `n` bytes on, at most to the end. -/
def advance (cursor : Cursor) (n : UInt32) : Cursor :=
  { cursor with offset := min (cursor.offset + n) cursor.stop }

def bump (cursor : Cursor) : UInt8 × Cursor := (cursor.peek, cursor.advance 1)

def eat (cursor : Cursor) (b : UInt8) : Bool × Cursor :=
  if cursor.atEnd || cursor.peek ≠ b then (false, cursor)
  else (true, { cursor with offset := cursor.offset + 1 })

def mark (cursor : Cursor) : UInt32 := cursor.offset

def rewind (cursor : Cursor) (mark : UInt32) : Cursor := { cursor with offset := mark }

def spanFrom (cursor : Cursor) (mark : UInt32) : Span := ⟨cursor.file, mark, cursor.offset⟩

def drain (cursor : Cursor) : Cursor := { cursor with offset := cursor.stop }

end Cursor
end GenericC
