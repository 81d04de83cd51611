import GenericC.Trace.Event

/-! Where events go: a stream writes each of them, a ring keeps the latest, and several tracers can be
combined. -/

namespace GenericC

/-- Something that takes bytes and can be closed. A broken one takes nothing. -/
structure Outlet where
  received : Text := []
  closes : Nat := 0
  failure : Option Text := none
deriving DecidableEq, Repr

namespace Outlet

def write (outlet : Outlet) (bytes : Text) : Outlet × Option Text :=
  match outlet.failure with
  | some failure => (outlet, some failure)
  | none => ({ outlet with received := outlet.received ++ bytes }, none)

/-- Closes an outlet; a broken one cannot be closed. -/
def close (outlet : Outlet) : Outlet :=
  if outlet.failure.isSome then outlet else { outlet with closes := outlet.closes + 1 }

end Outlet

/-- A buffer in front of an outlet. It passes on what it holds when it is full. After a failure it takes nothing
more. -/
structure OutletBuffer where
  outlet : Outlet := {}
  held : Text := []
  failure : Option Text := none
deriving DecidableEq, Repr

namespace OutletBuffer

def capacity : Nat := 4096

def flush (buffer : OutletBuffer) : OutletBuffer :=
  if buffer.failure.isSome || buffer.held.isEmpty then buffer
  else
    let (outlet, failure) := buffer.outlet.write buffer.held
    if failure.isSome then { buffer with failure } else { outlet, held := [] }

/-- Takes bytes. What does not fit fills the buffer and is passed on, and a large piece goes past an empty
buffer. -/
def write (buffer : OutletBuffer) (bytes : Text) : OutletBuffer :=
  if buffer.failure.isSome then buffer
  else if buffer.held.length + bytes.length ≤ capacity then { buffer with held := buffer.held ++ bytes }
  else if buffer.held.isEmpty then
    let (outlet, failure) := buffer.outlet.write bytes
    { buffer with outlet, failure }
  else
    let room := capacity - buffer.held.length
    let flushed := { buffer with held := buffer.held ++ bytes.take room }.flush
    let rest := bytes.drop room
    if flushed.failure.isSome then flushed
    else if rest.length ≤ capacity then { flushed with held := rest }
    else
      let (outlet, failure) := flushed.outlet.write rest
      { flushed with outlet, failure }

end OutletBuffer

structure StreamTracer where
  level : TraceLevel
  format : TraceFormat
  buffer : OutletBuffer
  count : Nat := 0
  closed : Bool := false
deriving Repr

namespace StreamTracer

def chromeHead : Text := "\x7b\"traceEvents\":[\n"
def chromeTail : Text := "\n]\x7d\n"

def start (outlet : Outlet) (level : TraceLevel) (format : TraceFormat) : StreamTracer :=
  let buffer : OutletBuffer := { outlet }
  { level, format, buffer := if format = .chrome then buffer.write chromeHead else buffer }

/-- Writes an event that the level admits. It takes a number even when the stream is closed. -/
def emit (tracer : StreamTracer) (sequence : UInt64) (event : TraceEvent) : StreamTracer × UInt64 :=
  if !tracer.level.admits event then (tracer, sequence)
  else
    let sequence := sequence + 1
    if tracer.closed then (tracer, sequence)
    else
      let buffer := if tracer.format = .chrome && 0 < tracer.count then tracer.buffer.write ",\n" else tracer.buffer
      let buffer := buffer.write ({ event with sequence }.render tracer.format)
      let buffer := if event.kind = .heartbeat then buffer.flush else buffer
      ({ tracer with buffer, count := tracer.count + 1 }, sequence)

def flush (tracer : StreamTracer) : StreamTracer × List Text :=
  let buffer := tracer.buffer.flush
  ({ tracer with buffer }, buffer.failure.toList)

/-- Completes the document and closes the outlet, once. -/
def close (tracer : StreamTracer) : StreamTracer × List Text :=
  if tracer.closed then (tracer, [])
  else
    let buffer := if tracer.format = .chrome then tracer.buffer.write chromeTail else tracer.buffer
    let buffer := buffer.flush
    match buffer.failure with
    | some failure => ({ tracer with buffer, closed := true }, [failure])
    | none => ({ tracer with buffer := { buffer with outlet := buffer.outlet.close }, closed := true }, [])

end StreamTracer

/-- The latest events in a circle of `size` places: once all places are taken, the next event takes the place of
the oldest one. -/
structure EventRing where
  size : Nat
  slots : List TraceEvent := []
  total : Nat := 0
deriving Repr

namespace EventRing

def defaultSize : Nat := 4096

/-- An empty ring; a size that is not positive means the usual one. -/
def ofSize (size : Int) : EventRing := { size := if size ≤ 0 then defaultSize else size.toNat }

def store (ring : EventRing) (event : TraceEvent) : EventRing :=
  { ring with
    slots := if ring.total < ring.size then ring.slots ++ [event] else ring.slots.set (ring.total % ring.size) event
    total := ring.total + 1 }

def events (ring : EventRing) : List TraceEvent :=
  if ring.total ≤ ring.size then ring.slots
  else ring.slots.drop (ring.total % ring.size) ++ ring.slots.take (ring.total % ring.size)

end EventRing

structure RingTracer where
  level : TraceLevel
  ring : EventRing
  /-- Where the events are written when the tracer is closed. -/
  target : Option (Outlet × TraceFormat) := none
  /-- The outlet after the tracer was closed. -/
  used : Outlet := {}
deriving Repr

namespace RingTracer

def emit (tracer : RingTracer) (sequence : UInt64) (event : TraceEvent) : RingTracer × UInt64 :=
  if !tracer.level.admits event then (tracer, sequence)
  else ({ tracer with ring := tracer.ring.store { event with sequence := sequence + 1 } }, sequence + 1)

/-- Writes the events one by one until that fails. -/
def dump (tracer : RingTracer) (outlet : Outlet) (format : TraceFormat) : Outlet × Option Text :=
  tracer.ring.events.foldl
    (fun (state : Outlet × Option Text) event =>
      match state.2 with
      | some _ => state
      | none => state.1.write (event.render format))
    (outlet, none)

def close (tracer : RingTracer) : RingTracer × List Text :=
  match tracer.target with
  | none => (tracer, [])
  | some (outlet, format) =>
    let (outlet, failure) := tracer.dump outlet format
    match failure with
    | some failure => ({ tracer with target := none, used := outlet }, [failure])
    | none => ({ tracer with target := none, used := outlet.close }, [])

def outlet (tracer : RingTracer) : Outlet := (tracer.target.map (·.1)).getD tracer.used

end RingTracer

/-- A tracer without any below it records nothing. -/
inductive Tracer
  | stream (tracer : StreamTracer)
  | ring (tracer : RingTracer)
  | several (level : TraceLevel) (tracers : List Tracer)
deriving Repr

namespace Tracer

def nothing : Tracer := several .off []

def level : Tracer → TraceLevel
  | stream tracer => tracer.level
  | ring tracer => tracer.level
  | several level _ => level

/-- Several tracers under the most detailed of their levels and the given one. -/
def ofList (least : TraceLevel) (tracers : List Tracer) : Tracer :=
  several (tracers.foldl
    (fun (most : TraceLevel) tracer => if most.number < tracer.level.number then tracer.level else most) least) tracers

mutual
/-- Hands an event on; the sequence numbers go on from `sequence`. -/
def emit (sequence : UInt64) (event : TraceEvent) : Tracer → Tracer × UInt64
  | stream tracer => let (tracer, sequence) := tracer.emit sequence event; (stream tracer, sequence)
  | ring tracer => let (tracer, sequence) := tracer.emit sequence event; (ring tracer, sequence)
  | several level tracers =>
    let (tracers, sequence) := emitAll sequence event tracers
    (several level tracers, sequence)

def emitAll (sequence : UInt64) (event : TraceEvent) : List Tracer → List Tracer × UInt64
  | [] => ([], sequence)
  | first :: rest =>
    let (first, sequence) := emit sequence event first
    let (rest, sequence) := emitAll sequence event rest
    (first :: rest, sequence)
end

mutual
def flush : Tracer → Tracer × List Text
  | stream tracer => let (tracer, failures) := tracer.flush; (stream tracer, failures)
  | ring tracer => (ring tracer, [])
  | several level tracers => let (tracers, failures) := flushAll tracers; (several level tracers, failures)

def flushAll : List Tracer → List Tracer × List Text
  | [] => ([], [])
  | first :: rest =>
    let (first, failures) := flush first
    let (rest, more) := flushAll rest
    (first :: rest, failures ++ more)
end

mutual
/-- Closes every tracer, even if one fails; with the failures. -/
def close : Tracer → Tracer × List Text
  | stream tracer => let (tracer, failures) := tracer.close; (stream tracer, failures)
  | ring tracer => let (tracer, failures) := tracer.close; (ring tracer, failures)
  | several level tracers => let (tracers, failures) := closeAll tracers; (several level tracers, failures)

def closeAll : List Tracer → List Tracer × List Text
  | [] => ([], [])
  | first :: rest =>
    let (first, failures) := close first
    let (rest, more) := closeAll rest
    (first :: rest, failures ++ more)
end

mutual
def outlets : Tracer → List Outlet
  | stream tracer => [tracer.buffer.outlet]
  | ring tracer => [tracer.outlet]
  | several _ tracers => outletsOfAll tracers

def outletsOfAll : List Tracer → List Outlet
  | [] => []
  | first :: rest => outlets first ++ outletsOfAll rest
end

mutual
def rings : Tracer → List RingTracer
  | stream _ => []
  | ring tracer => [tracer]
  | several _ tracers => ringsOfAll tracers

def ringsOfAll : List Tracer → List RingTracer
  | [] => []
  | first :: rest => rings first ++ ringsOfAll rest
end

end Tracer

structure TraceMode where
  number : UInt8
deriving DecidableEq, Repr

namespace TraceMode

def stream : TraceMode := ⟨1⟩
def ring : TraceMode := ⟨2⟩
def both : TraceMode := ⟨3⟩

def name (mode : TraceMode) : Text :=
  if mode = stream then "stream"
  else if mode = ring then "ring"
  else if mode = both then "both"
  else "unknown"

def ofFlag? (flag : Text) : Option TraceMode :=
  let wanted : Text := Text.toLower flag.trim
  [stream, ring, both].find? fun mode => mode.name = wanted

def unknownMessage (flag : Text) : Text :=
  Text.concat ["invalid storage mode: ", flag.quoted, " (expected: stream|ring|both)"]

end TraceMode

structure TraceSettings where
  level : TraceLevel := .off
  mode : TraceMode := .ring
  format : TraceFormat := .auto
  path : Text := []
  ringSize : Int := 0
deriving Repr

namespace TraceSettings

def tracer (settings : TraceSettings) (outlet : Outlet) : Except Text Tracer :=
  let format := settings.format.resolve settings.path
  let ring : RingTracer := { level := settings.level, ring := .ofSize settings.ringSize }
  if !settings.level.isEnabled then .ok .nothing
  else if settings.mode = .stream then .ok (.stream (.start outlet settings.level format))
  else if settings.mode = .ring then .ok (.ring { ring with target := some (outlet, format) })
  else if settings.mode = .both then
    .ok (.ofList settings.level [.stream (.start outlet settings.level format), .ring ring])
  else .error (Text.concat ["unknown storage mode: ", settings.mode.name])

end TraceSettings
end GenericC
