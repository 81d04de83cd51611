import GenericC.Diagnostic
import GenericC.Text.Fixed
import GenericC.Text.Json

/-! Where the time of a compilation goes. Durations are measured outside and given in nanoseconds. -/

namespace GenericC

structure Phase where
  name : Text
  nanoseconds : Nat := 0
  note : Text := []
  /-- Whether the phase is over; only the first end counts. -/
  stopped : Bool := false
deriving DecidableEq, Repr

structure PhaseTimer where
  phases : List Phase := []
deriving DecidableEq, Repr

namespace PhaseTimer

def start (timer : PhaseTimer) (name : Text) : PhaseTimer := { phases := timer.phases ++ [{ name }] }

def stop (timer : PhaseTimer) (position : Nat) (note : Text) (nanoseconds : Nat := 0) : PhaseTimer :=
  { phases := timer.phases.modify position fun phase =>
      if phase.stopped then phase else { phase with nanoseconds, note, stopped := true } }

/-- A phase from its start to its end; one that failed is marked. -/
def measure (timer : PhaseTimer) (name : Text) (failed : Bool) (nanoseconds : Nat := 0) : PhaseTimer :=
  (timer.start name).stop timer.phases.length (if failed then "error" else "") nanoseconds

end PhaseTimer

def millis (nanoseconds : Nat) : Text :=
  Text.dropWhileEnd (· = Text.byte '.') (Text.dropWhileEnd (· = Text.byte '0') (Text.ofScaled 6 nanoseconds))

structure TimingRow where
  name : Text
  milliseconds : Float
  note : Text := []

def TimingRow.render (row : TimingRow) : Text :=
  Text.concat ["  ", row.name.padRightRunes 20, " ", (Text.ofFloat 2 row.milliseconds).padLeft 7, " ms",
    if row.note.isEmpty then "" else Text.concat ["  // ", row.note], "\n"]

def timingTable (rows : List TimingRow) (total : Float) : Text :=
  Text.concat ["timings:\n", rows.flatMap TimingRow.render, TimingRow.render { name := "total", milliseconds := total }]

def Phase.toJson (phase : Phase) : Json :=
  .ofGroups [[("name", .string phase.name), ("duration_ms", .number (millis phase.nanoseconds))],
    Json.optionalString "note" phase.note]

/-- The timings of something as a remark, with the figures for tools in a note. -/
def timingReport (kind path : Text) (phases : List Phase) (total : Nat) : Diagnostic :=
  let figures := Json.ofGroups [[("kind", .string kind)], Json.optionalString "path" path,
    [("total_ms", .number (millis total)), ("phases", .array (phases.map Phase.toJson))]]
  Diagnostic.withNote
    { severity := .info, code := .timings, span := Span.nowhere
      message := Text.concat ["timings (", kind, "): total ", Text.ofScaled 2 (Text.roundDiv total 10000), " ms",
        if path.isEmpty then "" else Text.concat [", ", path]] }
    Span.nowhere figures.compact

end GenericC
