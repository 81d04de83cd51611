import GenericC.Build.Stage
import GenericC.Terminal

/-! The view of a build in progress: a line for every file, a summary and a bar. -/

namespace GenericC

inductive FileState
  | queued
  | loading
  | compiling
  | writing
  | done
  | failed
deriving DecidableEq, Repr

namespace FileState

def name : FileState → Text
  | queued => "queued"
  | loading => "loading"
  | compiling => "compiling"
  | writing => "writing"
  | done => "done"
  | failed => "error"

def isFinished (state : FileState) : Bool := state = done || state = failed

def working? : BuildStage → Option FileState
  | .load => some loading
  | .compile => some compiling
  | .write => some writing
  | _ => none

/-- The state after an event. A finished stage is not a finished file: only the end of writing is, or an
error. -/
def after (state : FileState) (event : BuildEvent) : FileState :=
  match event.status with
  | .queued => queued
  | .working => (working? event.stage).getD state
  | .done => if event.stage = .write then done else state
  | .error => failed
  | .other _ => state

end FileState

structure ProgressItem where
  path : Text
  state : FileState := .queued
  cached : Bool := false
  /-- The first line of the first problem. -/
  problem : Text := []
deriving DecidableEq, Repr

namespace ProgressItem

def label (item : ProgressItem) : Text := if item.state = .done && item.cached then "cached" else item.state.name

def firstLine (t : Text) : Text := t.takeWhile (· ≠ Text.byte '\n')

def apply (item : ProgressItem) (event : BuildEvent) : ProgressItem :=
  { item with
    state := item.state.after event
    cached := item.cached || event.cached
    problem := if item.problem.isEmpty then firstLine (event.problem.getD []) else item.problem }

end ProgressItem

structure Progress where
  title : Text
  items : List ProgressItem
  header : Text := []
  width : Int := 80
  barWidth : Int := 76
  turns : Nat := 0
  finished : Bool := false
deriving DecidableEq, Repr

namespace Progress

def ofFiles (title : Text) (files : List Text) : Progress := { title, items := files.map fun path => { path } }

def headerFor : BuildStage → Text
  | .load => "loading"
  | .compile => "compiling"
  | .write => "writing"
  | .build => "building"
  | .other _ => []

/-- The position of the item for a file: the last one with its path. -/
def position? (progress : Progress) (file : Text) : Option Nat :=
  (progress.items.reverse.findIdx? fun item => item.path = file).map fun back => progress.items.length - 1 - back

def apply (progress : Progress) (event : BuildEvent) : Progress :=
  if event.file.isEmpty then
    { progress with header := if event.status = .working then headerFor event.stage else event.status.name }
  else
    match progress.position? event.file with
    | none => progress
    | some position => { progress with items := progress.items.modify position (·.apply event) }

def tick (progress : Progress) : Progress :=
  if progress.finished then progress else { progress with turns := progress.turns + 1 }

def resize (progress : Progress) (width : Int) : Progress :=
  if 0 < width then { progress with width, barWidth := width - 4 } else progress

def close (progress : Progress) : Progress := { progress with finished := true }

def wheel : List Text := ["⣾ ", "⣽ ", "⣻ ", "⢿ ", "⡿ ", "⣟ ", "⣯ ", "⣷ "]

def statusWidth : Nat := 12

def expandTabs (t : Text) : Text := t.flatMap fun b => if b = Text.byte '\t' then Text.spaces 4 else [b]

variable [Terminal]

/-- A text as a block: tabs as blanks, and all lines made as long as the longest one. -/
def block (t : Text) : Text :=
  let lines := (expandTabs t).splitByte (Text.byte '\n')
  let lines := if 1 < lines.length then
      lines.dropLast.map (fun line => line.dropEnd "\r") ++ lines.getLast?.toList
    else lines
  let widest := (lines.map Terminal.textWidth).foldl max 0
  Text.joinWith "\n" (lines.map fun line => line ++ Text.spaces (widest - Terminal.textWidth line))

def clip (t : Text) (width : Nat) : Text := 
  if Terminal.textWidth t ≤ width then t else Terminal.truncate t width "..."

def summary (progress : Progress) : Text :=
  let finished := progress.items.filter (·.state.isFinished)
  let failed := (finished.filter (·.state = .failed)).length
  let cached := (finished.filter fun item => item.state ≠ .failed && item.cached).length
  let part (count : Nat) (word : Text) : List Text := if count = 0 then [] else [Text.concat [Text.ofNat count, word]]
  let parts := part cached " cached" ++ part failed " failed"
  Text.concat [Text.ofNat finished.length, "/", Text.ofNat progress.items.length, " files",
    if parts.isEmpty then "" else Text.concat [": ", Text.joinWith ", " parts]]

def bar (progress : Progress) : Text :=
  let length := (progress.barWidth - 5).toNat
  if progress.finished then Text.concat [Text.replicate length "█", " 100%"]
  else Text.concat [Text.replicate length "░", "   0%"]

def nameWidth (progress : Progress) : Nat := (max (progress.width - statusWidth - 4) 20).toNat

def itemLines (progress : Progress) (item : ProgressItem) : Text :=
  Text.concat ["  ", item.label.padLeft statusWidth, " ", clip item.path progress.nameWidth, "\n",
    if item.problem.isEmpty then ""
    else Text.concat [Text.spaces (statusWidth + 3), block (clip item.problem progress.nameWidth), "\n"]]

def view (progress : Progress) : Text :=
  if progress.items.isEmpty then []
  else
    let head := Text.concat [progress.title,
      if progress.header.isEmpty then "" else Text.concat [" (", progress.header, ")"]]
    let front := if progress.finished then Text.ofString "done: "
      else Text.concat [(wheel[progress.turns % wheel.length]?).getD [], " "]
    Text.concat [block (front ++ head), "\n\n", progress.items.flatMap progress.itemLines, "\n", progress.summary, "\n",
      progress.bar, "\n"]

end Progress
end GenericC
