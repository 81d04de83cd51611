import GenericC.Text

/-! Tables of Unicode properties, written compactly: entries are separated by
blanks, and an entry is a row of numbers in base 36 separated by any other mark.
A range is written as its distance from the range before it and its length, and
only the first of neighbouring code points is written. -/

namespace GenericC.Text

structure CodeTable where
  entries : List (List Nat)

namespace CodeTable

private def digitValue? (c : Char) : Option Nat :=
  if '0' ≤ c && c ≤ '9' then some (c.toNat - '0'.toNat)
  else if 'a' ≤ c && c ≤ 'z' then some (c.toNat - 'a'.toNat + 10)
  else none

def parse (source : List String) : CodeTable :=
  let close := fun (row : List Nat) (rows : List (List Nat)) => if row.isEmpty then rows else row.reverse :: rows
  let step := fun (state : Nat × List Nat × List (List Nat)) (c : Char) =>
    let (number, row, rows) := state
    match digitValue? c with
    | some digit => (number * 36 + digit, row, rows)
    | none => if c = ' ' then (0, [], close (number :: row) rows) else (0, number :: row, rows)
  let line := fun (rows : List (List Nat)) (text : String) =>
    let (number, row, rows) := text.toList.foldl step (0, [], rows)
    close (number :: row) rows
  ⟨(source.foldl line []).reverse⟩

/-- Ranges, from first to last, each with what follows it. -/
def ranges (source : List String) : CodeTable :=
  let place := fun (state : Nat × List (List Nat)) (row : List Nat) =>
    let first := state.1 + row.headD 0
    let last := first + row.tail.headD 0
    (last, (first :: last :: row.drop 2) :: state.2)
  ⟨((parse source).entries.foldl place (0, [])).2.reverse⟩

/-- A row for each code point; one that is not the next is written in front, behind a mark. What follows the first number
of a row is a combining mark, counted from the first one. -/
def runs (source : List String) : CodeTable :=
  let place := fun (state : Nat × List (List Nat)) (row : List Nat) =>
    match row with
    | [0, code] => (code, state.2)
    | [code, mark] => (state.1 + 1, [state.1, code, mark + 0x300] :: state.2)
    | row => (state.1 + 1, (state.1 :: row) :: state.2)
  ⟨((parse source).entries.foldl place (0, [])).2.reverse⟩

def contains (table : CodeTable) (code : Nat) : Bool :=
  table.entries.any fun entry =>
    match entry with
    | first :: last :: _ => first ≤ code && code ≤ last
    | _ => false

def valueAt? (table : CodeTable) (code : Nat) : Option Nat :=
  table.entries.findSome? fun entry =>
    match entry with
    | [first, last, value] => if first ≤ code && code ≤ last then some value else none
    | _ => none

def rowOf? (table : CodeTable) (code : Nat) : Option (List Nat) :=
  table.entries.findSome? fun entry =>
    match entry with
    | first :: row => if first = code then some row else none
    | [] => none

end CodeTable
end GenericC.Text
