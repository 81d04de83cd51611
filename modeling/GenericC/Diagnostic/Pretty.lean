import GenericC.Diagnostic.Bag
import GenericC.Source.FileSet
import GenericC.Terminal

/-! Diagnostics for people: the place, the message, the lines of the source around it with a marker, and
related places and edits if wanted. Nothing would be written if a part of a file were asked for that it does not have. -/

namespace GenericC

structure PrettySettings where
  colour : Bool := false
  /-- How many lines are shown before and after the line in question. -/
  context : Int8 := 0
  paths : PathMode := .auto
  /-- The cells of a line; zero means as many as it has. -/
  width : UInt8 := 0
  notes : Bool := false
  fixes : Bool := false

def FileSet.shownPath (files : Option FileSet) (number : UInt32) (mode : PathMode) : Text :=
  (files.bind (·.displayPath? number (some mode))).getD "<unknown>"

/-- The bytes of a span; empty when the span is not inside a known file. -/
def FileSet.shownText? (files : Option FileSet) (span : Span) : Option Text :=
  match files.bind (·.get? span.file) with
  | none => some []
  | some file =>
    if span.stop < span.start || file.content.length < span.stop.toNat then some []
    else Text.slice? file.content span.start.toNat span.stop.toNat

namespace Pretty

def severityStyle (severity : Severity) : Style :=
  if severity = .error then { colour := some Style.red, bold := true }
  else if severity = .warning then { colour := some Style.yellow, bold := true }
  else { colour := some Style.cyan, bold := true }

def pathStyle : Style := { bold := true }
def gutterStyle : Style := { colour := some Style.blue }
def markerStyle : Style := { colour := some Style.green, bold := true }
def noteStyle : Style := { colour := some Style.cyan }
def fixStyle : Style := { colour := some Style.green }

def place (files : Option FileSet) (mode : PathMode) (span : Span) : Option Text := do
  let path := FileSet.shownPath files span.file mode
  match files.bind (·.get? span.file) with
  | none => return path
  | some file => return Text.concat [path, ":", (← file.position? span.start).render]

def edit (settings : PrettySettings) (files : Option FileSet) (edit : Edit) : Option Text := do
  let old ← FileSet.shownText? files edit.span
  return Text.concat ["      ", ← place files settings.paths edit.span, ": replace ", old.quoted, " with ",
    edit.text.quoted, "\n"]

/-- The bytes of a line from the start of a span to its end on that line. -/
def markedRange (line : Text) (start stop : Position) : Nat × Nat :=
  let column := (min ((start.column.toNat : Int) - 1) line.length).toNat
  let limit : Nat := if stop.line = start.line then (min ((stop.column.toNat : Int) - 1) line.length).toNat else line.length
  (column, limit)

def contextLines (settings : PrettySettings) : UInt32 := settings.context.toInt.toNat.toUInt32

def firstShown (settings : PrettySettings) (marked : UInt32) : UInt32 :=
  if contextLines settings < marked then marked - contextLines settings else 1

def lastShown (settings : PrettySettings) (file : SourceFile) (marked : UInt32) : UInt32 :=
  if marked + contextLines settings < file.lineCount then marked + contextLines settings else file.lineCount

variable [Terminal]

def clip (line : Text) (width : UInt8) : Text :=
  if width = 0 || Terminal.textWidth line ≤ width.toNat then line else Terminal.truncate line width.toNat "..."

/-- The blanks in front of a marker under the byte at `column` of a line. Tabs are kept, so that the marker
lines up everywhere. -/
def markerPad (line : Text) (column : Nat) : Option Text := do
  let front ← Text.slice? line 0 column
  return (Text.runes front).flatMap fun rune =>
    if rune.code = 9 then [Text.byte '\t'] else Text.spaces (Terminal.codeWidth rune.code)

def markerWidth (line : Text) (start stop : Position) : Option Nat := do
  let (column, limit) := markedRange line start stop
  if column < limit then return max (Terminal.textWidth (← Text.slice? line column limit)) 1 else return 1

/-- The line below a marked line; nothing when the marker lies beyond the width. -/
def markerLine (settings : PrettySettings) (gutterWidth : Nat) (line : Text) (start stop : Position) : Option Text := do
  let pad ← markerPad line (markedRange line start stop).1
  let wanted ← markerWidth line start stop
  let room := settings.width.toNat - Terminal.textWidth pad
  if 0 < settings.width && room = 0 then return []
  else
    let width := if 0 < settings.width then min wanted room else wanted
    return Text.concat [Terminal.paint gutterStyle settings.colour (Text.spaces (gutterWidth + 2) ++ Text.ofString "|"),
      " ", pad, Terminal.paint markerStyle settings.colour (Text.byte '^' :: List.replicate (width - 1) (Text.byte '~')),
      "\n"]

def sourceLine (settings : PrettySettings) (gutterWidth : Nat) (number : UInt32) (line : Text) : Text :=
  Text.concat [Terminal.paint gutterStyle settings.colour
      (Text.padLeft (gutterWidth + 2) (Text.ofUInt32 number) ++ Text.ofString " |"), " ", clip line settings.width, "\n"]

/-- A line as it is shown, with the marker below it if it is the marked one. -/
def shownLine (settings : PrettySettings) (file : SourceFile) (start stop : Position) (number : UInt32) (line : Text) :
    Option Text := do
  let gutterWidth := (Text.ofUInt32 (lastShown settings file start.line)).length
  let source := sourceLine settings gutterWidth number line
  if number = start.line then return source ++ (← markerLine settings gutterWidth line start stop) else return source

/-- The lines from a number on. A last empty line is not shown unless it is marked. The numbers are words: behind the largest
comes zero, the same lines would follow without an end, and there is no text. -/
def linesFrom (settings : PrettySettings) (file : SourceFile) (start stop : Position) (number : UInt32) : Option Text := do
  if lastShown settings file start.line < number then return []
  else
    let line ← file.line? number.toNat
    if number ≠ start.line && number = file.lineCount && line.isEmpty then return []
    else
      let shown ← shownLine settings file start stop number line
      if _behind : number < number + 1 then return shown ++ (← linesFrom settings file start stop (number + 1)) else none
termination_by 4294967296 - number.toNat
decreasing_by
  have larger := UInt32.lt_iff_toNat_lt.mp _behind
  have word := (number + 1).toNat_lt
  omega

def fileSnippet (settings : PrettySettings) (file : SourceFile) (start stop : Position) : Option Text :=
  linesFrom settings file start stop (firstShown settings start.line)

def snippet (settings : PrettySettings) (files : Option FileSet) (span : Span) : Option Text := do
  match files.bind (·.get? span.file) with
  | none => return []
  | some file =>
    if file.content.isEmpty then return []
    else fileSnippet settings file (← file.position? span.start) (← file.position? span.stop)

def note (settings : PrettySettings) (files : Option FileSet) (code : DiagnosticCode) (note : Note) : Option Text := do
  let mark := Terminal.paint noteStyle settings.colour "note:"
  if note.span = Span.nowhere && code = .timings then return Text.concat ["  = ", mark, " ", note.message, "\n"]
  else return Text.concat ["  = ", mark, " ", ← place files settings.paths note.span, ": ", note.message, "\n"]

def fix (settings : PrettySettings) (files : Option FileSet) (fix : Fix) : Option Text := do
  return Text.concat ["  = ", Terminal.paint fixStyle settings.colour "fix:", " ", fix.title, "\n",
    Text.concat (← fix.edits.mapM (edit settings files))]

/-- One diagnostic. The notes of timings are always shown. -/
def diagnostic (settings : PrettySettings) (files : Option FileSet) (item : Diagnostic) : Option Text := do
  let style := severityStyle item.severity
  let shown ← place files settings.paths item.span
  let lines ← snippet settings files item.span
  let notes ← (if settings.notes || item.code = .timings then item.notes.mapM (note settings files item.code) else some [])
  let fixes ← (if settings.fixes then item.fixes.mapM (fix settings files) else some [])
  return Text.concat [Terminal.paint pathStyle settings.colour shown, ": ",
    Terminal.paint style settings.colour item.severity.name, " ", Terminal.paint style settings.colour item.code.id, ": ",
    item.message, "\n", lines, Text.concat notes, Text.concat fixes]

end Pretty

/-- The diagnostics of a bag, with empty lines in between and a last line on those that were dropped. -/
def Bag.pretty? [Terminal] (bag : Bag) (files : Option FileSet) (settings : PrettySettings) : Option Text := do
  return Text.concat [Text.joinWith "\n" (← bag.items.mapM (Pretty.diagnostic settings files)),
    if bag.dropped = 0 then []
    else Text.concat ["\n... ", Text.ofNat bag.dropped, " more diagnostic(s) not shown (limit ", Text.ofNat bag.limit,
      ")\n"]]

def Bag.pretty [Terminal] (bag : Bag) (files : Option FileSet) (settings : PrettySettings) : Text :=
  (bag.pretty? files settings).getD []

end GenericC
