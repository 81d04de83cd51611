import GenericC.Text.Grapheme

/-! Display width in terminal cells. Ambiguous characters take one cell. A cluster
is as wide as its first code point that has a width. -/

namespace GenericC.Text

/-- Combining marks, which take no cell. -/
def combiningTable : CodeTable := .ranges [
  "lc-33 7o-6 o2-8 st 4 6n d-1 198-2 1eo 1d-u 4d-8 gd-1r k1-w 2db-2 6n-v ii-1 n9x-3 2-9 x-1 29-1 dr-h gtr-f r2 ah-4",
  "27l-1 4a-a 1e-3 or-1 1m-1 16-6 4-4 ha4-4 jrg-19 3-m f3-4 4-5 9-7 3-6 v-3 45-2 2po-6 2-g 3-6 2-1 2-4 2t 1mp-6"]

/-- Code points that take two cells. -/
def wideTable : CodeTable := .ranges [
  "3cw-2n 3i3-1 e-1 5b-3 4 3 ei-1 m-1 1f-b 18 k e 9-1 i-1 6-1 9 6 m 8-1 2 5 3 8 5-1 t 10 2 5-2 2 1q-2 p f nw-1 1g 5",
  "mj-p 2-2g d-5x r-26 3-2d 3-2u 6-16 2-2l 2-2b c-1b 2-13 9-5f3 1t-h3g 4-1i wq-s hw-8mb 6l9-e7 lt-9 n-y 2-i 2-3",
  "46-2n 3k-6 m4a-4 c-1 f-4qf 9-yd 17-8 6w8-3 2-6 2-1 2-82 g u-2 3 f-3 9-az c21 5n 5b 3-9 2u-2 e-17 5-8 8-1 f-5 4b-w",
  "d-8 2-1x 2-l d-16 5-4 d-g 4 4-1y 2 2-56 3-1q e-3 2-n j r-1 e 2f-2c 1d-1x 7 4-2 3-2 5-3 c-1 8-8 6c-b 5 7w-1a 2-9",
  "2-54 35-c 4-8 8-19 2-6 9-d 5-8 8-8 zs-1ekd 3-1ekd"]

private def isUnprintedCode (code : Nat) : Bool :=
  code = 0x70F || (0x180B ≤ code && code ≤ 0x180E) || (0x200B ≤ code && code ≤ 0x200F) ||
    (0x2028 ≤ code && code ≤ 0x202E) || (0x206A ≤ code && code ≤ 0x206F) ||
    (0xD800 ≤ code && code ≤ 0xDFFF) || code = 0xFEFF || (0xFFF9 ≤ code && code ≤ 0xFFFB) ||
    (0xFFFE ≤ code && code ≤ 0xFFFF)

def codeWidth (code : Nat) : Nat :=
  if code < 0x20 then 0
  else if (0x7F ≤ code && code ≤ 0x9F) || code = 0xAD then 0
  else if code < 0x300 then 1
  else if isUnprintedCode code || combiningTable.contains code then 0
  else if wideTable.contains code then 2
  else 1

def clusterWidth (cluster : Text) : Nat :=
  match cluster.runes.find? (fun rune => 0 < codeWidth rune.code) with
  | some rune => codeWidth rune.code
  | none => 0

def displayWidth (t : Text) : Nat := t.clusters.foldl (fun total cluster => total + clusterWidth cluster) 0

/-- The number of bytes of the longest run of leading clusters that fits into `room` cells. -/
def fittingBytes (room : Int) : List Text → Nat
  | clusters => (clusters.foldl (fun (state : Bool × Nat × Nat) cluster =>
      let (full, cells, bytes) := state
      if full then state
      else if room < (cells + clusterWidth cluster : Nat) then (true, cells, bytes)
      else (false, cells + clusterWidth cluster, bytes + cluster.length)) (false, 0, 0)).2.2

/-- Cuts a text that is wider than `width` cells and marks the cut with `tail`. -/
def truncateWidth (t : Text) (width : Nat) (tail : Text) : Text :=
  if t.displayWidth ≤ width then t
  else t.take (fittingBytes ((width : Int) - (tail.displayWidth : Int)) t.clusters) ++ tail

end GenericC.Text
