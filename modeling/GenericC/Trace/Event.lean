import GenericC.Text.Case
import GenericC.Text.Fixed
import GenericC.Text.Json
import GenericC.Text.Quoted

/-! What happens during a build, as events: the begin and end of spans, single points, and signs of life. A
level decides which of them are recorded, and three formats write them. -/

namespace GenericC

structure TraceKind where
  number : UInt8
deriving DecidableEq, Repr

namespace TraceKind

def spanBegin : TraceKind := ⟨1⟩
def spanEnd : TraceKind := ⟨2⟩
def point : TraceKind := ⟨3⟩
def heartbeat : TraceKind := ⟨4⟩

def name (kind : TraceKind) : Text :=
  if kind = spanBegin then "begin"
  else if kind = spanEnd then "end"
  else if kind = point then "point"
  else if kind = heartbeat then "heartbeat"
  else "unknown"

def glyph (kind : TraceKind) : Text :=
  if kind = spanBegin then "→ "
  else if kind = spanEnd then "← "
  else if kind = point then "• "
  else if kind = heartbeat then "♡ "
  else ""

end TraceKind

/-- What an event is about; the lower, the coarser. -/
structure TraceScope where
  number : UInt8
deriving DecidableEq, Repr

namespace TraceScope

def driver : TraceScope := ⟨1⟩
/-- One pass over one file. -/
def pass : TraceScope := ⟨2⟩
def file : TraceScope := ⟨3⟩
def inst : TraceScope := ⟨4⟩

def name (scope : TraceScope) : Text :=
  if scope = driver then "driver"
  else if scope = pass then "pass"
  else if scope = file then "file"
  else if scope = inst then "inst"
  else "unknown"

end TraceScope

structure TraceLevel where
  number : UInt8
deriving DecidableEq, Repr

namespace TraceLevel

def off : TraceLevel := ⟨0⟩
/-- Only signs of life. -/
def error : TraceLevel := ⟨1⟩
/-- The build and its passes. -/
def phase : TraceLevel := ⟨2⟩
/-- Also the files. -/
def detail : TraceLevel := ⟨3⟩
/-- Also the instantiations. -/
def debug : TraceLevel := ⟨4⟩

def names : List Text := ["off", "error", "phase", "detail", "debug"]

def name (level : TraceLevel) : Text := (names[level.number.toNat]?).getD "unknown"

def isEnabled (level : TraceLevel) : Bool := 0 < level.number

/-- The level that a user asks for; nothing means off. -/
def ofFlag? (flag : Text) : Option TraceLevel :=
  let wanted : Text := Text.toLower flag.trim
  if wanted.isEmpty then some off
  else (names.findIdx? (· = wanted)).map fun place => ⟨place.toUInt8⟩

def unknownMessage (flag : Text) : Text :=
  Text.concat ["invalid trace level: ", flag.quoted, " (expected: ", Text.joinWith "|" names, ")"]

def records (level : TraceLevel) (scope : TraceScope) : Bool :=
  if level = phase then scope.number ≤ TraceScope.pass.number
  else if level = detail then scope.number ≤ TraceScope.file.number
  else level = debug

end TraceLevel

inductive TraceFormat
  /-- By the name of the file that is written. -/
  | auto
  | text
  /-- A JSON document on every line. -/
  | lines
  /-- One JSON document that browsers can show. -/
  | chrome
deriving DecidableEq, Repr

namespace TraceFormat

def number : TraceFormat → Nat
  | auto => 0
  | text => 1
  | lines => 2
  | chrome => 3

/-- The format with a number; any other number is read as text. -/
def ofNumber : Nat → TraceFormat
  | 0 => auto
  | 2 => lines
  | 3 => chrome
  | _ => text

def ofFlag? (flag : Text) : Option TraceFormat :=
  let wanted : Text := Text.toLower flag
  if wanted.isEmpty || wanted = Text.ofString "auto" then some auto
  else if wanted = Text.ofString "text" then some text
  else if wanted = Text.ofString "ndjson" then some lines
  else if wanted = Text.ofString "chrome" then some chrome
  else none

def unknownMessage (flag : Text) : Text :=
  Text.concat ["invalid trace format: ", flag.quoted, " (expected: auto|text|ndjson|chrome)"]

/-- The format for an output; without a choice, by the ending of its path. -/
def resolve (format : TraceFormat) (path : Text) : TraceFormat :=
  if format ≠ auto then format
  else if path.endsWith ".ndjson" then lines
  else if path.endsWith ".json" then chrome
  else text

end TraceFormat

/-- A point in time: seconds and nanoseconds since 1970 with an offset of the local clock in seconds, and the
microseconds since the program started. The default lies at the beginning of year one, further back than
can be counted in nanoseconds. -/
structure Moment where
  seconds : Int := -62135596800
  nanoseconds : Nat := 0
  offset : Int := 0
  elapsed : Int := -9223372036854775
deriving DecidableEq, Repr

namespace Moment

/-- A moment by its seconds and nanoseconds, where the latter may be more than a second or less than none. -/
def ofUnix (seconds nanoseconds offset : Int) : Moment :=
  { seconds := seconds + nanoseconds.fdiv 1000000000
    nanoseconds := (nanoseconds.fmod 1000000000).toNat
    offset
    elapsed := 0 }

/-- Year, month and day of a number of days since 1970, in the Gregorian calendar. -/
def civil (days : Int) : Int × Nat × Nat :=
  let shifted := days + 719468
  let era := shifted.fdiv 146097
  let dayOfEra := (shifted.fmod 146097).toNat
  let yearOfEra := (dayOfEra - dayOfEra / 1460 + dayOfEra / 36524 - dayOfEra / 146096) / 365
  let dayOfYear := dayOfEra - (365 * yearOfEra + yearOfEra / 4 - yearOfEra / 100)
  let shiftedMonth := (5 * dayOfYear + 2) / 153
  let day := dayOfYear - (153 * shiftedMonth + 2) / 5 + 1
  let month := if shiftedMonth < 10 then shiftedMonth + 3 else shiftedMonth - 9
  (yearOfEra + era * 400 + (if month ≤ 2 then 1 else 0), month, day)

def padded (width n : Nat) : Text :=
  let digits := Text.ofNat n
  List.replicate (width - digits.length) (Text.byte '0') ++ digits

def zone (offset : Int) : Text :=
  let minutes := offset.natAbs / 60
  if offset = 0 then "Z"
  else Text.concat [if offset < 0 && 0 < minutes then "-" else "+", padded 2 (minutes / 60), ":",
    padded 2 (minutes % 60)]

def render (moment : Moment) : Text :=
  let shown := moment.seconds + moment.offset
  let (year, month, day) := civil (shown.fdiv 86400)
  let second := (shown.fmod 86400).toNat
  Text.concat [if year < 0 then "-" else "", padded 4 year.natAbs, "-", padded 2 month, "-", padded 2 day, "T",
    padded 2 (second / 3600), ":", padded 2 (second / 60 % 60), ":", padded 2 (second % 60), ".",
    padded 6 (moment.nanoseconds / 1000), zone moment.offset]

def renderElapsed (moment : Moment) : Text :=
  Text.concat [if moment.elapsed < 0 then "-" else "", Text.ofScaled 3 moment.elapsed.natAbs]

end Moment

structure TraceEvent where
  moment : Moment := {}
  /-- The number of the event in the order of recording. -/
  sequence : UInt64 := 0
  kind : TraceKind
  scope : TraceScope
  span : UInt64 := 0
  parent : UInt64 := 0
  worker : UInt64 := 0
  name : Text
  detail : Text := []
  extra : List (Text × Text) := []
deriving DecidableEq, Repr

namespace TraceEvent

def sortedExtra (extra : List (Text × Text)) : List (Text × Text) := extra.mergeSort fun a b => a.1.ble b.1

def extraJson (extra : List (Text × Text)) : Json :=
  .object ((sortedExtra extra).map fun (key, value) => (key, .string value))

def renderText (event : TraceEvent) : Text :=
  let pairs := (sortedExtra event.extra).map fun (key, value) => Text.concat [key, "=", value]
  Text.concat ["[", event.moment.renderElapsed.padLeft 9, "ms] ", if 0 < event.parent then "  " else "",
    event.kind.glyph, event.scope.name, ":", event.name,
    if event.detail.isEmpty then "" else Text.concat [" (", event.detail, ")"],
    if event.extra.isEmpty then "" else Text.concat [" \x7b", Text.joinWith ", " pairs, "\x7d"], "\n"]

def renderLine (event : TraceEvent) : Text :=
  let value := Json.ofGroups [[("time", .string event.moment.render), ("seq", .ofNat event.sequence.toNat),
      ("kind", .string event.kind.name), ("scope", .string event.scope.name), ("span_id", .ofNat event.span.toNat)],
    Json.optionalNat "parent_id" event.parent.toNat, Json.optionalNat "gid" event.worker.toNat,
    [("name", .string event.name)], Json.optionalString "detail" event.detail,
    if event.extra.isEmpty then [] else [("extra", extraJson event.extra)]]
  value.compact ++ [Text.byte '\n']

def renderChrome (event : TraceEvent) : Text :=
  let isSpan := event.kind = .spanBegin || event.kind = .spanEnd
  let mark : Text := if event.kind = .spanBegin then "B" else if event.kind = .spanEnd then "E" else "i"
  let args := if event.detail.isEmpty then event.extra
    else event.extra.filter (·.1 ≠ Text.ofString "detail") ++ [(Text.ofString "detail", event.detail)]
  let value := Json.ofGroups [[("name", .string event.name), ("cat", .string event.scope.name), ("ph", .string mark),
      ("ts", .ofInt event.moment.elapsed), ("pid", .ofNat 1), ("tid", .ofNat event.worker.toNat)],
    if isSpan then [] else [("s", .string "t")],
    if args.isEmpty then [] else [("args", extraJson args)]]
  value.compact

def render (format : TraceFormat) (event : TraceEvent) : Text :=
  match format with
  | .lines => event.renderLine
  | .chrome => event.renderChrome
  | _ => event.renderText

end TraceEvent

/-- Whether an event is recorded at a level. Signs of life are recorded at every level but `off`. -/
def TraceLevel.admits (level : TraceLevel) (event : TraceEvent) : Bool :=
  if event.kind = .heartbeat then level.isEnabled else level.records event.scope

end GenericC
