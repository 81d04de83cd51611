import GenericC.Text.Utf8
import GenericC.Text.DecompositionTable

/-! Canonical composition of text. Marks after a base character are sorted by
their combining class and merged with it where a composed character exists. No
more than thirty marks may follow one another: a joiner without appearance is put
in front of the next one. Malformed bytes pass through and separate their
neighbours. -/

namespace GenericC.Text

private def hangulBase : Nat := 0xAC00

def combiningClass (code : Nat) : Nat :=
  if code < 0x300 then 0 else (combiningClassTable.valueAt? code).getD 0

private def decomposeHangul (code : Nat) : List Nat :=
  let index := code - hangulBase
  let base := [0x1100 + index / 588, 0x1161 + index % 588 / 28]
  if index % 28 = 0 then base else base ++ [0x11A7 + index % 28]

/-- The full canonical decomposition; every mapping is at most four steps deep. -/
def decomposeCode : Nat → Nat → List Nat
  | 0, code => [code]
  | depth + 1, code =>
    if code < 0xC0 then [code]
    else if hangulBase ≤ code && code ≤ 0xD7A3 then decomposeHangul code
    else match decompositionTable.rowOf? code with
      | none => [code]
      | some row => row.flatMap (decomposeCode depth)

def canonicalDecomposition (code : Nat) : List Nat := decomposeCode 8 code

private def composeHangul? (first second : Nat) : Option Nat :=
  if 0x1100 ≤ first && first < 0x1113 && 0x1161 ≤ second && second < 0x1176 then
    some (hangulBase + ((first - 0x1100) * 21 + (second - 0x1161)) * 28)
  else if hangulBase ≤ first && first ≤ 0xD7A3 && (first - hangulBase) % 28 = 0 && 0x11A8 ≤ second &&
      second < 0x11C3 then
    some (first + (second - 0x11A7))
  else none

def composePair? (first second : Nat) : Option Nat :=
  match composeHangul? first second with
  | some code => some code
  | none => decompositionTable.entries.findSome? fun entry =>
    match entry with
    | [code, a, b] =>
      if a = first && b = second && !compositionExclusionTable.contains code then some code else none
    | _ => none

private def combinesBackward (code : Nat) : Bool :=
  (0x1161 ≤ code && code < 0x1176) || (0x11A8 ≤ code && code < 0x11C3) ||
    (0x300 ≤ code && decompositionTable.entries.any fun entry =>
      match entry with
      | [whole, _, b] => b = code && !compositionExclusionTable.contains whole
      | _ => false)

/-- Whether a code point counts as a mark when marks are counted. -/
def isMark (code : Nat) : Bool := combiningClass code ≠ 0 || combinesBackward code

private def insertMark (mark : Nat × Nat) : List (Nat × Nat) → List (Nat × Nat)
  | [] => [mark]
  | other :: rest => if mark.2 < other.2 then mark :: other :: rest else other :: insertMark mark rest

/-- Sorts each run of marks by combining class and keeps the order within a class. -/
private def reorder (codes : List Nat) : List (Nat × Nat) :=
  let step := fun (state : List (Nat × Nat) × List (Nat × Nat)) code =>
    let cls := combiningClass code
    if cls = 0 then (state.1 ++ state.2 ++ [(code, 0)], []) else (state.1, insertMark (code, cls) state.2)
  let (done, run) := codes.foldl step ([], [])
  done ++ run

private structure Composing where
  /-- Finished code points before the current base, last first. -/
  done : List Nat
  base : Option Nat
  /-- Marks kept after the base, last first. -/
  marks : List (Nat × Nat)

private def Composing.flush (state : Composing) : List Nat :=
  state.marks.map Prod.fst ++ (match state.base with | some b => [b] | none => []) ++ state.done

private def composeStep (state : Composing) (item : Nat × Nat) : Composing :=
  let (code, cls) := item
  let blocked := match state.marks with
    | [] => false
    | (_, last) :: _ => cls ≤ last
  let merged := match state.base with
    | none => none
    | some base => if blocked then none else composePair? base code
  match merged with
  | some whole => { state with base := some whole }
  | none =>
    if cls = 0 then ⟨state.flush, some code, []⟩
    else { state with marks := (code, cls) :: state.marks }

def composeCodes (codes : List Nat) : List Nat :=
  ((reorder (codes.flatMap canonicalDecomposition)).foldl composeStep ⟨[], none, []⟩).flush.reverse

private def markJoiner : Nat := 0x34F

private def leadingMarks (code : Nat) : Nat := ((canonicalDecomposition code).takeWhile isMark).length

private def trailingMarks (code : Nat) : Nat := ((canonicalDecomposition code).reverse.takeWhile isMark).length

/-- Puts the joiner in front of a mark that would be the thirty-first of its run. -/
def limitMarks (codes : List Nat) : List Nat :=
  (codes.foldl (fun (state : Nat × List Nat) code =>
    let leading := leadingMarks code
    if leading = 0 then (trailingMarks code, code :: state.2)
    else if 30 < state.1 + leading then (leading, code :: markJoiner :: state.2)
    else (state.1 + leading, code :: state.2)) (0, [])).2.reverse

private def composeRun (codes : List Nat) : Text :=
  (composeCodes (limitMarks codes.reverse)).flatMap ofCode

private def composedLoop : List Rune → Text → List Nat → List Text → Text
  | [], _, run, done => (composeRun run :: done).reverse.flatten
  | rune :: rest, t, run, done =>
    if rune.valid then composedLoop rest (t.drop rune.size) (rune.code :: run) done
    else composedLoop rest (t.drop rune.size) [] (t.take rune.size :: composeRun run :: done)

def composed (t : Text) : Text :=
  if t.all (· < 0x80) then t else composedLoop t.runes t [] []

end GenericC.Text
