import GenericC.Diagnostic

/-! Collections of diagnostics with a limit. -/

namespace GenericC

/-- Diagnostics in the order in which they were reported, up to a limit; those beyond it are counted. -/
structure Bag where
  items : List Diagnostic := []
  limit : Nat
  dropped : Nat := 0

namespace Bag

def defaultLimit : Nat := 65536

/-- An empty bag; a limit outside the sensible range is replaced by the default. -/
def empty (limit : Int) : Bag :=
  { limit := if limit ≤ 0 || (defaultLimit : Int) < limit then defaultLimit else limit.toNat }

/-- Keeps a diagnostic if there is room, and says whether there was. -/
def add (bag : Bag) (diagnostic : Diagnostic) : Bag × Bool :=
  if bag.limit ≤ bag.items.length then ({ bag with dropped := bag.dropped + 1 }, false)
  else ({ bag with items := bag.items ++ [diagnostic] }, true)

/-- Keeps a diagnostic even beyond the limit. -/
def append (bag : Bag) (diagnostic : Diagnostic) : Bag := { bag with items := bag.items ++ [diagnostic] }

def report (bag : Bag) (diagnostic : Diagnostic) : Bag := (bag.add diagnostic).1

def reportAll (bag : Bag) (diagnostics : List Diagnostic) : Bag := diagnostics.foldl report bag

def hasErrors (bag : Bag) : Bool := bag.items.any (·.isError)

def count (bag : Bag) (code : DiagnosticCode) : Nat := (bag.items.filter fun item => item.code = code).length

/-- Order by file and place, then the worse first, then by code. -/
def precedes (a b : Diagnostic) : Bool :=
  if a.span.file ≠ b.span.file then a.span.file < b.span.file
  else if a.span.start ≠ b.span.start then a.span.start < b.span.start
  else if a.span.stop ≠ b.span.stop then a.span.stop < b.span.stop
  else if a.severity ≠ b.severity then b.severity.rank < a.severity.rank
  else a.code.number ≤ b.code.number

def sort (bag : Bag) : Bag := { bag with items := bag.items.mergeSort precedes }

def firstOfEach : List Diagnostic.Identity → List Diagnostic → List Diagnostic
  | _, [] => []
  | seen, item :: rest =>
    if item.identity ∈ seen then firstOfEach seen rest
    else item :: firstOfEach (item.identity :: seen) rest

def dedup (bag : Bag) : Bag := { bag with items := firstOfEach [] bag.items }

end Bag

structure DedupReporter where
  seen : List Diagnostic.Identity := []

namespace DedupReporter

/-- The reporter after a report, and whether the report is passed on. -/
def accept (reporter : DedupReporter) (diagnostic : Diagnostic) : DedupReporter × Bool :=
  if diagnostic.identity ∈ reporter.seen then (reporter, false)
  else (⟨diagnostic.identity :: reporter.seen⟩, true)

end DedupReporter
end GenericC
