import GenericC.Text

/-! The stages of building a file, what is told about them, and how long they took. -/

namespace GenericC

inductive BuildStage
  | load
  | compile
  | write
  | build
  /-- A stage that is only known by its name. -/
  | other (name : Text)
deriving DecidableEq, Repr

namespace BuildStage

def all : List BuildStage := [load, compile, write, build]

def name : BuildStage → Text
  | load => "load"
  | compile => "compile"
  | write => "write"
  | build => "build"
  | other name => name

def ofName (wanted : Text) : BuildStage := (all.find? fun stage => stage.name = wanted).getD (other wanted)

end BuildStage

inductive BuildStatus
  | queued
  | working
  | done
  | error
  | other (name : Text)
deriving DecidableEq, Repr

namespace BuildStatus

def all : List BuildStatus := [queued, working, done, error]

def name : BuildStatus → Text
  | queued => "queued"
  | working => "working"
  | done => "done"
  | error => "error"
  | other name => name

def ofName (wanted : Text) : BuildStatus := (all.find? fun status => status.name = wanted).getD (other wanted)

end BuildStatus

/-- What is told about a file, or about the whole build when the file is empty. -/
structure BuildEvent where
  file : Text := []
  stage : BuildStage
  status : BuildStatus
  problem : Option Text := none
  cached : Bool := false
deriving DecidableEq, Repr

def lastEvent? (events : List BuildEvent) (file : Text) : Option BuildEvent :=
  events.reverse.find? fun event => event.file = file

/-- A duration in nanoseconds for each stage that has one. Sums wrap around at the ends of the range, and stages
that are only known by their name have none. -/
structure StageTimings where
  load : Option Int64 := none
  compile : Option Int64 := none
  write : Option Int64 := none
  build : Option Int64 := none
deriving DecidableEq, Repr

namespace StageTimings

def get? (timings : StageTimings) : BuildStage → Option Int64
  | .load => timings.load
  | .compile => timings.compile
  | .write => timings.write
  | .build => timings.build
  | .other _ => none

def duration (timings : StageTimings) (stage : BuildStage) : Int64 := (timings.get? stage).getD 0

def set (timings : StageTimings) (stage : BuildStage) (duration : Int64) : StageTimings :=
  match stage with
  | .load => { timings with load := some duration }
  | .compile => { timings with compile := some duration }
  | .write => { timings with write := some duration }
  | .build => { timings with build := some duration }
  | .other _ => timings

def add (timings : StageTimings) (stage : BuildStage) (duration : Int64) : StageTimings :=
  timings.set stage (timings.duration stage + duration)

def sum (timings : StageTimings) (stages : List BuildStage) : Int64 :=
  (stages.map timings.duration).foldl (· + ·) 0

def addAll (timings more : StageTimings) : StageTimings :=
  BuildStage.all.foldl
    (fun timings stage =>
      match more.get? stage with
      | some duration => timings.add stage duration
      | none => timings)
    timings

def stages (timings : StageTimings) : List BuildStage := BuildStage.all.filter fun stage => (timings.get? stage).isSome

end StageTimings
end GenericC
