import GenericC.Trace.Tracer

/-! Spans: activities with a begin and an end that may lie in each other, and the events they leave. -/

namespace GenericC

/-- Where an activity stands: whether anything is recorded, and the span around it, or zero. -/
structure TraceContext where
  recording : Bool := true
  span : UInt64 := 0
deriving DecidableEq, Repr

structure OpenSpan where
  id : UInt64
  parent : UInt64
  scope : TraceScope
  name : Text
  extra : List (Text × Text) := []
deriving DecidableEq, Repr

/-- The events of spans so far, latest first. An event marked `true` shows the extra values of its span. -/
structure Recorder where
  level : TraceLevel
  spans : List OpenSpan := []
  entries : List (TraceEvent × Bool) := []
deriving Repr

namespace Recorder

def records (recorder : Recorder) (context : TraceContext) (scope : TraceScope) : Bool :=
  context.recording && recorder.level.records scope

def find? (recorder : Recorder) (id : UInt64) : Option OpenSpan := recorder.spans.find? (·.id = id)

/-- Begins a span. A span that is not recorded has number zero and leaves the context as it is. -/
def start (recorder : Recorder) (context : TraceContext) (scope : TraceScope) (name : Text) :
    Recorder × TraceContext × UInt64 :=
  if !recorder.records context scope then (recorder, context, 0)
  else
    let id := recorder.spans.length.toUInt64 + 1
    let event : TraceEvent := { kind := .spanBegin, scope, span := id, parent := context.span, name }
    ({ recorder with
        spans := { id, parent := context.span, scope, name } :: recorder.spans
        entries := (event, false) :: recorder.entries },
      { context with span := id }, id)

/-- Attaches a value to a span; the latest under a key counts. -/
def attach (recorder : Recorder) (id : UInt64) (key value : Text) : Recorder :=
  { recorder with
    spans := recorder.spans.map fun span =>
      if span.id = id then { span with extra := span.extra.filter (·.1 ≠ key) ++ [(key, value)] } else span }

def fail (recorder : Recorder) (id : UInt64) (problem : Text) : Recorder := recorder.attach id "error" problem

/-- Ends a span. The event shows what is attached to the span, also later on, if anything is by now. -/
def finish (recorder : Recorder) (id : UInt64) (detail : Text := []) : Recorder :=
  match recorder.find? id with
  | none => recorder
  | some span =>
    let event : TraceEvent :=
      { kind := .spanEnd, scope := span.scope, span := id, parent := span.parent, name := span.name, detail }
    { recorder with entries := (event, !span.extra.isEmpty) :: recorder.entries }

def point (recorder : Recorder) (context : TraceContext) (scope : TraceScope) (name detail : Text) (parent : UInt64) :
    Recorder :=
  if !recorder.records context scope then recorder
  else { recorder with entries := ({ kind := .point, scope, parent, name, detail }, false) :: recorder.entries }

def events (recorder : Recorder) : List TraceEvent :=
  recorder.entries.reverse.map fun (event, showsExtra) =>
    if showsExtra then { event with extra := ((recorder.find? event.span).map (·.extra)).getD [] } else event

end Recorder
end GenericC
