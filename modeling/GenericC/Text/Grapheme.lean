import GenericC.Text.Utf8
import GenericC.Text.CodeTable

/-! Grapheme clusters by the rules of Unicode text segmentation, version 15. -/

namespace GenericC.Text

/-- Marks that extend the cluster before them. -/
def extendTable : CodeTable := .ranges [
  "lc-33 7o-6 7c-18 2 2-1 2-1 2 21-a 1d-k h 2u-6 3-5 3-1 2-3 10 v-q 2k-a 1n-8 a p-3 2-8 2-2 2-4 18-2 1p-7 17-n 2-v",
  "1k 2 5-7 5 4-6 b-1 u 1n 2 3-3 9 a b-1 r 3-1 1m 5-1 5-1 3-2 4 v-1 4 c-1 1m 5-4 2-1 5 l-1 n-5 2 1n 2-1 2-3 9 8-2",
  "b-1 v 1o 2 d a 15 4 1k 2-2 6-2 2-3 8-1 c-1 u 1n 3 3 4 6-1 8-1 c-1 t-1 1m-1 2 3-3 9 a b-1 u 21 5 3-2 2 9 2a 3-6",
  "d-7 2r 3-8 c-6 22-1 s 2 2 1k-d 2-4 2-1 6-a 2-z a 2v-3 2-5 2-1 3-1 q-1 5-2 h-3 e 3-1 7 g jk-2 qb-2 u-1 v-1 v-1",
  "1t-1 2-6 9 3-a a 1a-2 2 3a-1 z 3b-2 5-1 a 7-2 64-1 3 1n 2-6 2 2 3-7 7-9 3 1d-u 1e-3 1d-6 2 6 15-8 d-1 x-3 3-1 2-2",
  "1l 2-1 4 2-2 1n-7 3-1 49-2 2-c 2-6 5 7 4-1 5j-1r el 5g-w 2db-2 3y 2p-v ff-5 2y-1 n9x-3 2-9 x-1 29-1 7l 4 5 q-1 6",
  "48-1 r-h e 13-7 q-a 1b-2 1d 3-3 3-1 14 1w-5 3-1 3-1 d 9 1c 1g 2-2 3-1 6-1 2 17-1 9 6n 3 5 fn5 ki-f h-f a7-1 gu 6b",
  "46-4 1af-2 2-1 6-3 15-2 5 4m-1 fy-3 as-1 29-2 1z-a 1e-3 3g 1j-e 16 3-1 b-2 1e-3 3-1 8 1q-2 11-4 2-7 1r d-1 1h-8",
  "b-3 3 2o-2 3 2-1 7 3 4e 4-7 m-1 1m-1 2 2 n f-6 4-4 5g-7 3-2 2 o 2a 3-5 2 3 2-1 2-1 6k 3-3 7-1 2-1 s-1 2e-7 3 2-1",
  "2z 2 3-5 2 2u-2 3-3 2-4 78-8 2-1 6u b-1 2 5 41-3 3-1 5 x-9 15-5 3-3 9 a-5 3-2 1b-c 2-1 bb-6 2-5 2 2b-l 3-6 2-1",
  "2-1 3f-5 4 2-1 2-6 2 21-1 4 2 9o-1 c-1 1h-4 6 2 45a 7-e asb-4 1o-6 t5 1s-3 2a f5l-1 3mq-19 3-m f3 2-2 5-4 9-7 3-6",
  "v-3 45-2 1j0-1i 5-1d 9 f n-4 2-e 11t-6 2-g 3-6 2-1 2-4 2t 4h-6 ag 1q-3 e5-3 rl-6 32-6 241-4 gx7l-2n 3l-6n"]

/-- Marks with a width of their own that extend the cluster before them. -/
def spacingMarkTable : CodeTable := .ranges [
  "1s3 1k 3-2 9-3 2-1 1f-1 1o-1 7-1 3-1 1j 1n-2 1v 1n-2 9 2-1 1i-1 1p 7-1 3-1 37 2-1 4-2 2-2 1h-2 1q-3 1q-1 1n 2-1",
  "2-1 3-1 2-1 14 f-1 1o-1 6-2 2-2 1i-1 25-1 7-6 k-1 1s 3k 3v-1 1s 4y a-1 q-1 19 1ap v 3m 8-7 2-1 9n-3 3-2 5-1 2-5",
  "69-1 1n 2 m-5 42 1j 2-4 2-1 1q v 5-1 3 1p 3-2 2 4-1 1d-7 9-1 4s m rho-1 3 2h-1 1f-f 3z-1 1c 1d-1 5-1 3-2 33-1 3-1",
  "p 4e 3-1 6 6m-1 2-1 2-1 2 jro 2 3k 1a-2 5-1 38 p-1 1o 1d-2 a-1 e 2m-2 4-1 2 4r-2 w-1 1o 2-3 3-1 3-2 l-1 5u-2 9-1",
  "4 30-1 7 2-1 2 3 6n-1 7-3 3 36-2 9-1 2 32 2-1 7 34 7a-2 a 6x-4 2-1 5 3 2 3z-2 9-3 5 2d u-1 1r bc f 2z 8 3 5y-4",
  "5-1 2 9r-1 d 1d-1 9-1 2 ftc-1i 2x-1 j91 7"]

/-- Controls other than carriage return and line feed. -/
def controlTable : CodeTable := .ranges [
  "0-9 2-1 2-h 2o-w e 12n 3jm 1kt 3-1 p-6 1e-f 17yo 6p-b ab9-f qxt-3 440-7 h406-v 2p-3j 6p-2rz"]

/-- Marks that belong to the cluster after them. -/
def prependTable : CodeTable := .ranges [
  "16o-5 60 1e ap-1 29 vg 1f8v g 6t-1 1h8 2 6x 22-5 jh cc"]

/-- Pictographs, which joiners combine. -/
def pictographicTable : CodeTable := .ranges [
  "4p 5 68e d 61 n 2j-5 g-1 a8-1 d 2o 1z q-a 5-2 5k 6g-1 b a 1n-3 2-5 2-b 2-35 b-39 3-a 2 2 7 4 7 b-1 g 3 5 2 5-2 2",
  "c-4 1a-2 a f f ad-1 cw-2 k-1 1g 5 yj d gq 2 2fzb-73 e-2 w 1p-5 d-1 f 3-9 j-1k s-e b l 3-8 2-3 a-c1 6-8t 9-7d",
  "1d-3j 39-b 2e-16 d-3 1l-7 b-5 15-7 v-29 d-1a 2-9 2-c8 75-sd"]

inductive BreakClass
  | other | carriageReturn | lineFeed | control | extend | joiner | regional | prepend | spacingMark
  | leading | vowel | trailing | syllable | closedSyllable | pictographic
deriving DecidableEq, Repr

def breakClass (code : Nat) : BreakClass :=
  if code = 0x0D then .carriageReturn
  else if code = 0x0A then .lineFeed
  else if code < 0x20 then .control
  else if code < 0x7F then .other
  else if code = 0x200D then .joiner
  else if 0x1F1E6 ≤ code && code ≤ 0x1F1FF then .regional
  else if (0x1100 ≤ code && code ≤ 0x115F) || (0xA960 ≤ code && code ≤ 0xA97C) then .leading
  else if (0x1160 ≤ code && code ≤ 0x11A7) || (0xD7B0 ≤ code && code ≤ 0xD7C6) then .vowel
  else if (0x11A8 ≤ code && code ≤ 0x11FF) || (0xD7CB ≤ code && code ≤ 0xD7FB) then .trailing
  else if 0xAC00 ≤ code && code ≤ 0xD7A3 then if (code - 0xAC00) % 28 = 0 then .syllable else .closedSyllable
  else if controlTable.contains code then .control
  else if extendTable.contains code then .extend
  else if spacingMarkTable.contains code then .spacingMark
  else if prependTable.contains code then .prepend
  else if pictographicTable.contains code then .pictographic
  else .other

/-- What the cluster rules remember of a cluster: its last class, the last two classes that are not
extending marks, and how many neighbouring pairs of regional indicators it holds. -/
structure ClusterState where
  last : BreakClass
  base : BreakClass
  baseBefore : BreakClass
  regionalPairs : Nat

namespace ClusterState

def start (first : BreakClass) : ClusterState := ⟨first, .other, .other, 0⟩

private def isControl : BreakClass → Bool
  | .carriageReturn | .lineFeed | .control => true
  | _ => false

/-- The state after one more code point, or `none` when a new cluster begins before it. -/
def extend? (state : ClusterState) (next : BreakClass) : Option ClusterState :=
  let seen : ClusterState := if state.last = .extend then state
    else { state with baseBefore := state.base, base := state.last }
  let joined : ClusterState := { seen with last := next }
  if state.last = .carriageReturn && next = .lineFeed then some joined
  else if isControl state.last || isControl next then none
  else
    let together : Bool := match state.last, next with
      | .leading, .leading | .leading, .vowel | .leading, .syllable | .leading, .closedSyllable => true
      | .syllable, .vowel | .syllable, .trailing | .vowel, .vowel | .vowel, .trailing => true
      | .closedSyllable, .trailing | .trailing, .trailing => true
      | _, .extend | _, .joiner | _, .spacingMark => true
      | .prepend, _ => true
      | .joiner, .pictographic => seen.baseBefore = .pictographic
      | _, _ => false
    if together then some joined
    else if state.last = .regional && next = .regional then
      if state.regionalPairs % 2 = 0 then some { joined with regionalPairs := state.regionalPairs + 1 } else none
    else none

end ClusterState

/-- How many bytes the rules take as one code point: a leading byte with the continuation bytes it asks for, as far
as they follow. Zero when the text ends too early. -/
def unitSize : Text → Nat
  | [] => 0
  | b :: rest =>
    if b < 0xC2 then 1
    else if b < 0xE0 then
      match rest with
      | c :: _ => if isContinuation c then 2 else 1
      | _ => 0
    else if b < 0xF0 then
      match rest with
      | c :: d :: _ => if !isContinuation c then 1 else if !isContinuation d then 2 else 3
      | _ => 0
    else if b < 0xF8 then
      match rest with
      | c :: d :: e :: _ =>
        if !isContinuation c then 1 else if !isContinuation d then 2 else if !isContinuation e then 3 else 4
      | _ => 0
    else 1

/-- The class of the code point at the head of a text; malformed bytes have none. -/
def unitClass (t : Text) : BreakClass :=
  match firstRune t with
  | some rune => if rune.valid then breakClass rune.code else .other
  | none => .other

/-- The clusters in `done`, latest first, and then those of the text, of which `current` is the beginning of the
first one. -/
private def clustersLoop (text current : Text) (state : Option ClusterState) (done : List Text) : List Text :=
  if _more : text.isEmpty then (if current.isEmpty then done else current :: done).reverse
  else if _whole : unitSize text = 0 then ((current ++ text) :: done).reverse
  else
    let unit := text.take (unitSize text)
    match state.bind (·.extend? (unitClass text)) with
    | some after => clustersLoop (text.drop (unitSize text)) (current ++ unit) (some after) done
    | none =>
      clustersLoop (text.drop (unitSize text)) unit (some (.start (unitClass text)))
        (if current.isEmpty then done else current :: done)
termination_by text.length
decreasing_by
  all_goals
    have nonempty : 0 < text.length := List.length_pos_iff.mpr (by simpa using _more)
    simp only [List.length_drop]
    omega

/-- The grapheme clusters of a text in order. A text that ends inside a multi-byte sequence gives that
end to the cluster before it. -/
def clusters (t : Text) : List Text := clustersLoop t [] none []

end GenericC.Text
