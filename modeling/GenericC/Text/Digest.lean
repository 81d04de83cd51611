import GenericC.Text

/-! The 256-bit secure hash of a byte string (SHA-256). -/

namespace GenericC

structure Digest where
  bytes : Text
deriving DecidableEq, Repr

namespace Digest

private def roundConstants : Array UInt32 := #[
  0x428a2f98, 0x71374491, 0xb5c0fbcf, 0xe9b5dba5, 0x3956c25b, 0x59f111f1, 0x923f82a4, 0xab1c5ed5,
  0xd807aa98, 0x12835b01, 0x243185be, 0x550c7dc3, 0x72be5d74, 0x80deb1fe, 0x9bdc06a7, 0xc19bf174,
  0xe49b69c1, 0xefbe4786, 0x0fc19dc6, 0x240ca1cc, 0x2de92c6f, 0x4a7484aa, 0x5cb0a9dc, 0x76f988da,
  0x983e5152, 0xa831c66d, 0xb00327c8, 0xbf597fc7, 0xc6e00bf3, 0xd5a79147, 0x06ca6351, 0x14292967,
  0x27b70a85, 0x2e1b2138, 0x4d2c6dfc, 0x53380d13, 0x650a7354, 0x766a0abb, 0x81c2c92e, 0x92722c85,
  0xa2bfe8a1, 0xa81a664b, 0xc24b8b70, 0xc76c51a3, 0xd192e819, 0xd6990624, 0xf40e3585, 0x106aa070,
  0x19a4c116, 0x1e376c08, 0x2748774c, 0x34b0bcb5, 0x391c0cb3, 0x4ed8aa4a, 0x5b9cca4f, 0x682e6ff3,
  0x748f82ee, 0x78a5636f, 0x84c87814, 0x8cc70208, 0x90befffa, 0xa4506ceb, 0xbef9a3f7, 0xc67178f2]

private structure Words where
  a : UInt32
  b : UInt32
  c : UInt32
  d : UInt32
  e : UInt32
  f : UInt32
  g : UInt32
  h : UInt32

private def initialWords : Words :=
  ⟨0x6a09e667, 0xbb67ae85, 0x3c6ef372, 0xa54ff53a, 0x510e527f, 0x9b05688c, 0x1f83d9ab, 0x5be0cd19⟩

private def rotateRight (x : UInt32) (n : UInt32) : UInt32 := (x >>> n) ||| (x <<< (32 - n))

private def word (block : Text) (index : Nat) : UInt32 :=
  (block.drop (4 * index)).take 4 |>.foldl (fun value b => (value <<< 8) ||| b.toUInt32) 0

/-- The message schedule: sixteen words of the block and forty-eight mixed from them. -/
private def schedule (block : Text) : Array UInt32 :=
  let start : Array UInt32 := ((List.range 16).map (word block)).toArray
  (List.range 48).foldl (fun words step =>
    let i := step + 16
    let x := words.getD (i - 15) 0
    let y := words.getD (i - 2) 0
    let s0 := rotateRight x 7 ^^^ rotateRight x 18 ^^^ (x >>> 3)
    let s1 := rotateRight y 17 ^^^ rotateRight y 19 ^^^ (y >>> 10)
    words.push (words.getD (i - 16) 0 + s0 + words.getD (i - 7) 0 + s1)) start

private def mix (w : Words) (constant item : UInt32) : Words :=
  let s1 := rotateRight w.e 6 ^^^ rotateRight w.e 11 ^^^ rotateRight w.e 25
  let choice := (w.e &&& w.f) ^^^ ((~~~w.e) &&& w.g)
  let t1 := w.h + s1 + choice + constant + item
  let s0 := rotateRight w.a 2 ^^^ rotateRight w.a 13 ^^^ rotateRight w.a 22
  let majority := (w.a &&& w.b) ^^^ (w.a &&& w.c) ^^^ (w.b &&& w.c)
  ⟨t1 + (s0 + majority), w.a, w.b, w.c, w.d + t1, w.e, w.f, w.g⟩

private def compress (w : Words) (block : Text) : Words :=
  let items := schedule block
  let m := (List.range 64).foldl (fun words i => mix words (roundConstants.getD i 0) (items.getD i 0)) w
  ⟨w.a + m.a, w.b + m.b, w.c + m.c, w.d + m.d, w.e + m.e, w.f + m.f, w.g + m.g, w.h + m.h⟩

private def bigEndian (count n : Nat) : Text :=
  (List.range count).reverse.map fun place => ((n >>> (8 * place)) % 256).toUInt8

private def padded (t : Text) : Text :=
  t ++ (0x80 : UInt8) :: List.replicate ((119 - t.length % 64) % 64) 0 ++ bigEndian 8 (8 * t.length)

private def blocksLoop : Nat → Words → Text → Words
  | 0, w, _ => w
  | blocks + 1, w, t => blocksLoop blocks (compress w (t.take 64)) (t.drop 64)

def ofText (t : Text) : Digest :=
  let message := padded t
  let w := blocksLoop (message.length / 64) initialWords message
  ⟨[w.a, w.b, w.c, w.d, w.e, w.f, w.g, w.h].flatMap fun x => bigEndian 4 x.toNat⟩

def hex (digest : Digest) : Text := digest.bytes.toHex

/-- The hash of several fields, each closed by a zero byte. -/
def ofFields (fields : List Text) : Digest := ofText (fields.flatMap fun field => field ++ [0])

def combine (content : Digest) (parts : List Digest) : Digest :=
  ofText (content.bytes ++ parts.flatMap bytes)

def isZero (digest : Digest) : Bool := digest.bytes.all (· = 0)

end Digest
end GenericC
