import GenericC.Trace.Tracer

/-! What tracers keep and write. The events of a full ring begin at the place that is taken next, so to store one more
drops the oldest. A buffer holds back the end of what is written to it. -/

namespace GenericC

/-- An event as it is recorded, when some number was the last one taken. -/
def TraceEvent.numbered (call : UInt64 × TraceEvent) : TraceEvent := { call.2 with sequence := call.1 + 1 }

def TraceLevel.recorded (level : TraceLevel) (calls : List (UInt64 × TraceEvent)) : List TraceEvent :=
  (calls.filter (level.admits ·.2)).map TraceEvent.numbered

theorem TraceLevel.recorded_cons (level : TraceLevel) (call : UInt64 × TraceEvent) (calls : List (UInt64 × TraceEvent)) :
    level.recorded (call :: calls) =
      if level.admits call.2 then TraceEvent.numbered call :: level.recorded calls else level.recorded calls := by
  unfold recorded
  rw [List.filter_cons]
  split <;> rfl

namespace EventRing

variable {size : Nat} {ring : EventRing} {stored : List TraceEvent}

/-- A ring has a place for each event until it is full. It keeps the latest events. -/
structure Keeps (size : Nat) (ring : EventRing) (stored : List TraceEvent) : Prop where
  positive : 0 < size
  sized : ring.size = size
  total : ring.total = stored.length
  places : ring.slots.length = min stored.length size
  latest : ring.events = stored.drop (stored.length - size)

theorem events_full (full : ring.size ≤ ring.total) :
    ring.events = ring.slots.drop (ring.total % ring.size) ++ ring.slots.take (ring.total % ring.size) := by
  unfold events
  split
  next exact =>
    rw [Nat.le_antisymm exact full, Nat.mod_self]
    exact (List.append_nil _).symm
  next => rfl

theorem events_store_room (room : ring.total < ring.size) (event : TraceEvent) :
    (ring.store event).events = ring.events ++ [event] := by
  simp only [events, store, if_pos room, if_pos (Nat.succ_le_of_lt room), if_pos (Nat.le_of_lt room)]

theorem events_store_full (positive : 0 < ring.size) (places : ring.slots.length = ring.size)
    (full : ring.size ≤ ring.total) (event : TraceEvent) :
    (ring.store event).events = ring.events.tail ++ [event] := by
  have inside : ring.total % ring.size < ring.slots.length := by
    rw [places]
    exact Nat.mod_lt _ positive
  -- The next place is that of the oldest event, and the latest one stands before it.
  obtain ⟨front, oldest, back, slots, place⟩ :
      ∃ front oldest back, ring.slots = front ++ oldest :: back ∧ front.length = ring.total % ring.size :=
    ⟨ring.slots.take (ring.total % ring.size), ring.slots[ring.total % ring.size], _,
      by rw [← List.drop_eq_getElem_cons inside, List.take_append_drop], List.length_take_of_le (Nat.le_of_lt inside)⟩
  have stored : (ring.store event).slots = front ++ event :: back := by
    rw [store, if_neg (by omega), ← place, slots, List.set_append_right _ _ (Nat.le_refl _), Nat.sub_self]
    rfl
  have next : (ring.store event).total % (ring.store event).size = (front.length + 1) % ring.size := by
    rw [place, Nat.mod_add_mod]
    rfl
  have length : front.length + back.length + 1 = ring.size := by
    rw [← places, slots, List.length_append, List.length_cons]
    omega
  rw [events_full (Nat.le_succ_of_le full), events_full full, stored, slots, next, ← place, List.drop_left, List.take_left,
    List.cons_append, List.tail_cons]
  rcases Nat.lt_or_ge (front.length + 1) ring.size with more | last
  · rw [Nat.mod_eq_of_lt more, List.append_cons, ← List.length_singleton (a := event), ← List.length_append,
      List.drop_left, List.take_left, List.append_assoc]
  · -- Behind the last place the ring begins again.
    have none : back = [] := List.length_eq_zero_iff.mp (by omega)
    rw [show front.length + 1 = ring.size by omega, Nat.mod_self, none]
    exact List.append_nil _

theorem Keeps.store (keeps : Keeps size ring stored) (event : TraceEvent) :
    Keeps size (ring.store event) (stored ++ [event]) := by
  obtain ⟨positive, rfl, total, places, latest⟩ := keeps
  have more : (stored ++ [event]).length = stored.length + 1 := List.length_append
  refine ⟨positive, rfl, (congrArg (· + 1) total).trans more.symm, ?_, ?_⟩
  · rw [more, EventRing.store]
    split
    · rw [List.length_append, List.length_singleton]
      omega
    · rw [List.length_set]
      omega
  · rcases Nat.lt_or_ge ring.total ring.size with room | full
    · rw [events_store_room room, latest, more, Nat.sub_eq_zero_of_le (by omega), Nat.sub_eq_zero_of_le (by omega)]
      rfl
    · rw [events_store_full positive (by omega) full, latest, List.tail_drop, more, Nat.sub_add_comm (total ▸ full),
        List.drop_append_of_le_length (by omega)]

theorem Keeps.foldl (events : List TraceEvent) (keeps : Keeps size ring stored) :
    Keeps size (events.foldl EventRing.store ring) (stored ++ events) := by
  induction events generalizing ring stored with
  | nil => rwa [List.append_nil]
  | cons event events ih => exact List.append_cons .. ▸ ih (keeps.store event)

theorem keeps_ofSize (size : Int) : Keeps (ofSize size).size (ofSize size) [] := by
  refine ⟨?_, rfl, rfl, (Nat.zero_min _).symm, (if_pos (Nat.zero_le _)).trans List.drop_nil.symm⟩
  unfold ofSize
  dsimp only
  split
  · decide
  · omega

end EventRing

namespace RingTracer

def after (tracer : RingTracer) (calls : List (UInt64 × TraceEvent)) : RingTracer :=
  calls.foldl (fun tracer call => (tracer.emit call.1 call.2).1) tracer

theorem after_eq (tracer : RingTracer) (calls : List (UInt64 × TraceEvent)) :
    tracer.after calls = { tracer with ring := (tracer.level.recorded calls).foldl EventRing.store tracer.ring } := by
  induction calls generalizing tracer with
  | nil => rfl
  | cons call calls ih =>
    refine (ih (tracer.emit call.1 call.2).1).trans ?_
    unfold emit
    rw [TraceLevel.recorded_cons]
    cases tracer.level.admits call.2 <;> rfl

theorem events_after (tracer : RingTracer) (size : Int) (start : tracer.ring = .ofSize size)
    (calls : List (UInt64 × TraceEvent)) : (tracer.after calls).ring.events =
      (tracer.level.recorded calls).drop ((tracer.level.recorded calls).length - (EventRing.ofSize size).size) := by
  rw [after_eq, start]
  exact ((EventRing.keeps_ofSize size).foldl _).latest

end RingTracer

/-- A ring keeps the latest of the events that it admits, in their order and unchanged but for their numbers. Admitted are
the signs of life at every level but `off`, and the events of a scope that the level records. -/
theorem ring_keeps_latest (size : Int) (level : TraceLevel) (calls : List (UInt64 × TraceEvent)) :
    let tracer : RingTracer := { level, ring := .ofSize size }
    let room := if size ≤ 0 then 4096 else size.toNat
    let admitted := calls.filter fun call =>
      if call.2.kind = .heartbeat then level ≠ .off else level.records call.2.scope
    (tracer.after calls).ring.events.length = min room admitted.length ∧
      (tracer.after calls).ring.events =
        (admitted.drop (admitted.length - room)).map fun call => { call.2 with sequence := call.1 + 1 } := by
  intro tracer room admitted
  have same : level.recorded calls = admitted.map TraceEvent.numbered := by
    refine congrArg (List.map _) (List.filter_congr fun call _ => ?_)
    rw [TraceLevel.admits]
    split
    · exact decide_eq_decide.mpr (by cases level; simp [TraceLevel.off, UInt8.pos_iff_ne_zero])
    · rfl
  have kept : (tracer.after calls).ring.events =
      (level.recorded calls).drop ((level.recorded calls).length - room) := tracer.events_after size rfl calls
  rw [same, List.length_map, ← List.map_drop] at kept
  refine ⟨?_, kept⟩
  rw [kept, List.length_map, List.length_drop]
  omega

def Outlet.with (outlet : Outlet) (bytes : Text) : Outlet := { outlet with received := outlet.received ++ bytes }

theorem Outlet.with_nil (outlet : Outlet) : outlet.with [] = outlet := by rw [Outlet.with, List.append_nil]

theorem Outlet.with_write {outlet : Outlet} (works : outlet.failure = none) (passed bytes : Text) :
    (outlet.with passed).write bytes = (outlet.with (passed ++ bytes), none) := by
  unfold Outlet.with
  rw [← List.append_assoc, Outlet.write, works]

namespace OutletBuffer

variable {outlet : Outlet} {written : Text} {buffer : OutletBuffer}

/-- What was written has reached the outlet or is held. -/
def Took (outlet : Outlet) (written : Text) (buffer : OutletBuffer) : Prop :=
  ∃ passed held, written = passed ++ held ∧ buffer = ⟨outlet.with passed, held, none⟩

theorem Took.flush (works : outlet.failure = none) (took : Took outlet written buffer) :
    buffer.flush = ⟨outlet.with written, [], none⟩ := by
  obtain ⟨passed, held, rfl, rfl⟩ := took
  cases held with
  | nil => rw [List.append_nil]; rfl
  | cons b held => simp [OutletBuffer.flush, Outlet.with_write works]

theorem Took.write (works : outlet.failure = none) (took : Took outlet written buffer) (bytes : Text) :
    Took outlet (written ++ bytes) (buffer.write bytes) := by
  obtain ⟨passed, held, rfl, rfl⟩ := took
  unfold OutletBuffer.write
  simp only [Option.isSome_none, Bool.false_eq_true, if_false]
  split
  next fits => exact ⟨passed, held ++ bytes, List.append_assoc .., rfl⟩
  next past =>
    split
    next empty =>
      rw [Outlet.with_write works]
      exact ⟨passed ++ bytes, held, by simp_all, rfl⟩
    next full =>
      -- The buffer is filled up and flushed, and the rest is held or passed on.
      have took : Took outlet (passed ++ (held ++ bytes.take (capacity - held.length)))
        ⟨outlet.with passed, held ++ bytes.take (capacity - held.length), none⟩ := ⟨passed, _, rfl, rfl⟩
      rw [took.flush works]
      have rejoined : passed ++ held ++ bytes = passed ++ (held ++ bytes.take (capacity - held.length)) ++
          bytes.drop (capacity - held.length) := by
        simp only [List.append_assoc, List.take_append_drop]
      dsimp only [Option.isSome_none]
      split
      next failed => cases failed
      next =>
        split
        · exact ⟨_, _, rejoined, rfl⟩
        · rw [Outlet.with_write works]
          exact ⟨_, [], rejoined.trans (List.append_nil _).symm, rfl⟩

theorem Took.writeIf (works : outlet.failure = none) (took : Took outlet written buffer) (wanted : Prop)
    [Decidable wanted] (bytes : Text) :
    Took outlet (written ++ if wanted then bytes else []) (if wanted then buffer.write bytes else buffer) := by
  split
  · exact took.write works bytes
  · rwa [List.append_nil]

theorem Took.flushIf (works : outlet.failure = none) (took : Took outlet written buffer) (wanted : Prop)
    [Decidable wanted] : Took outlet written (if wanted then buffer.flush else buffer) := by
  split
  · rw [took.flush works]
    exact ⟨written, [], (List.append_nil _).symm, rfl⟩
  · exact took

end OutletBuffer

namespace StreamTracer

variable {outlet : Outlet} {records : List Text} {tracer : StreamTracer}

def after (tracer : StreamTracer) (calls : List (UInt64 × TraceEvent)) : StreamTracer :=
  calls.foldl (fun tracer call => (tracer.emit call.1 call.2).1) tracer

def opened (format : TraceFormat) (records : List Text) : Text :=
  if format = .chrome then chromeHead ++ Text.joinWith ",\n" records else records.flatten

theorem opened_append (format : TraceFormat) (records : List Text) (record : Text) :
    opened format (records ++ [record]) =
      opened format records ++ (if format = .chrome && 0 < records.length then Text.ofString ",\n" else []) ++ record := by
  unfold opened
  split
  next chrome =>
    cases records with
    | nil | cons first records => simp [chrome, Text.joinWith]
  next other => simp [other]

/-- An open stream has written all records, and knows their number. -/
def Wrote (outlet : Outlet) (level : TraceLevel) (format : TraceFormat) (records : List Text) (tracer : StreamTracer) :
    Prop :=
  ∃ buffer, tracer = { level, format, buffer, count := records.length } ∧ buffer.Took outlet (opened format records)

variable {level : TraceLevel} {format : TraceFormat} (works : outlet.failure = none)
include works

theorem wrote_start (level : TraceLevel) (format : TraceFormat) :
    Wrote outlet level format [] (start outlet level format) := by
  have fresh : OutletBuffer.Took outlet [] { outlet } := ⟨[], [], rfl, by rw [outlet.with_nil]⟩
  exact ⟨_, rfl, (fresh.writeIf works (format = .chrome) chromeHead :)⟩

theorem Wrote.emit (wrote : Wrote outlet level format records tracer) (number : UInt64) {event : TraceEvent}
    (admitted : level.admits event = true) :
    Wrote outlet level format (records ++ [(TraceEvent.numbered (number, event)).render format])
      (tracer.emit number event).1 := by
  obtain ⟨buffer, rfl, took⟩ := wrote
  have separated := took.writeIf works (format = .chrome && 0 < records.length) ",\n"
  have written := separated.write works ((TraceEvent.numbered (number, event)).render format)
  unfold StreamTracer.emit
  simp only [admitted, Bool.not_true, Bool.false_eq_true, if_false]
  refine ⟨_, by rw [List.length_append]; rfl, ?_⟩
  rw [opened_append]
  exact written.flushIf works (event.kind = .heartbeat)

theorem Wrote.after (calls : List (UInt64 × TraceEvent)) (wrote : Wrote outlet level format records tracer) :
    Wrote outlet level format (records ++ (level.recorded calls).map (TraceEvent.render format)) (tracer.after calls) := by
  induction calls generalizing tracer records with
  | nil =>
    rw [show level.recorded [] = [] from rfl, List.map_nil, List.append_nil]
    exact wrote
  | cons call calls ih =>
    rw [TraceLevel.recorded_cons]
    split
    next admitted => exact List.append_cons .. ▸ ih (wrote.emit works call.1 admitted)
    next ignored =>
      have same : (tracer.emit call.1 call.2).1 = tracer := by
        obtain ⟨buffer, rfl, -⟩ := wrote
        unfold StreamTracer.emit
        rw [if_pos (by simp [ignored])]
      rw [StreamTracer.after, List.foldl_cons, same]
      exact ih wrote

theorem Wrote.close (wrote : Wrote outlet level format records tracer) : tracer.close.1.buffer.outlet =
    { outlet.with (opened format records ++ if format = .chrome then chromeTail else []) with closes := outlet.closes + 1 } := by
  obtain ⟨buffer, rfl, took⟩ := wrote
  unfold StreamTracer.close
  simp only [Bool.false_eq_true, if_false, (took.writeIf works (format = .chrome) chromeTail).flush works]
  rw [Outlet.close, if_neg (by simp [Outlet.with, works])]
  rfl

end StreamTracer

theorem RingTracer.dump_eq {outlet : Outlet} (works : outlet.failure = none) (tracer : RingTracer) (format : TraceFormat) :
    tracer.dump outlet format = (outlet.with (tracer.ring.events.map (TraceEvent.render format)).flatten, none) := by
  have run (step : Outlet × Option Text → TraceEvent → Outlet × Option Text) (events : List TraceEvent) (passed : Text)
      (writes : ∀ passed event,
        step (outlet.with passed, none) event = (outlet.with (passed ++ event.render format), none)) :
      events.foldl step (outlet.with passed, none) =
        (outlet.with (passed ++ (events.map (TraceEvent.render format)).flatten), none) := by
    induction events generalizing passed with
    | nil => rw [List.map_nil, List.flatten_nil, List.append_nil]; rfl
    | cons event events ih =>
      rw [List.foldl_cons, writes, ih, List.map_cons, List.flatten_cons, List.append_assoc]
  refine (congrArg (tracer.dump · format) outlet.with_nil.symm).trans ?_
  exact run _ tracer.ring.events [] fun passed event => Outlet.with_write works passed (event.render format)

theorem RingTracer.close_after {outlet : Outlet} (works : outlet.failure = none) (level : TraceLevel) (ring : EventRing)
    (format : TraceFormat) (calls : List (UInt64 × TraceEvent)) :
    let tracer : RingTracer := { level, ring, target := some (outlet, format) }
    (tracer.after calls).close.1.outlet =
      { outlet.with ((tracer.after calls).ring.events.map (TraceEvent.render format)).flatten with
        closes := outlet.closes + 1 } := by
  intro tracer
  have target : (tracer.after calls).target = some (outlet, format) := by rw [after_eq]
  unfold RingTracer.close
  rw [target]
  dsimp only
  rw [dump_eq works]
  dsimp only
  rw [RingTracer.outlet, Outlet.close, if_neg (by simp [Outlet.with, works])]
  rfl

theorem Text.length_flatten_le (separator : Text) (items : List Text) :
    items.flatten.length ≤ (Text.joinWith separator items).length := by
  have behind (rest : List Text) : rest.flatten.length ≤ (rest.flatMap (separator ++ ·)).length := by
    induction rest with
    | nil => exact Nat.le_refl _
    | cons item rest ih =>
      simp only [List.flatten_cons, List.flatMap_cons, List.length_append]
      omega
  cases items with
  | nil => exact Nat.le_refl _
  | cons first rest =>
    simp only [joinWith, List.flatten_cons, List.length_append]
    exact Nat.add_le_add_left (behind rest) _

/-- When both a ring that is large enough and a stream are closed, they have written the same records to their outlet. In
the format that is one document, only the stream writes its frame and the commas between the records, so only in the
other formats do they write the same. -/
theorem ring_dump_unframed (outlet : Outlet) (works : outlet.failure = none) (size : Int) (level : TraceLevel)
    (format : TraceFormat) (calls : List (UInt64 × TraceEvent))
    (fits : (level.recorded calls).length ≤ if size ≤ 0 then 4096 else size.toNat) :
    let ring : RingTracer := { level, ring := .ofSize size, target := some (outlet, format) }
    let stream := StreamTracer.start outlet level format
    let records := (level.recorded calls).map (TraceEvent.render format)
    (ring.after calls).close.1.outlet =
      { outlet with received := outlet.received ++ records.flatten, closes := outlet.closes + 1 } ∧
    (stream.after calls).close.1.buffer.outlet =
      { outlet with
        received := outlet.received ++ if format = .chrome then
            "\x7b\"traceEvents\":[\n" ++ Text.joinWith ",\n" records ++ Text.ofString "\n]\x7d\n"
          else records.flatten
        closes := outlet.closes + 1 } ∧
    ((ring.after calls).close.1.outlet = (stream.after calls).close.1.buffer.outlet ↔ format ≠ .chrome) := by
  intro ring stream records
  have dumped : (ring.after calls).close.1.outlet =
      { outlet with received := outlet.received ++ records.flatten, closes := outlet.closes + 1 } := by
    refine (RingTracer.close_after works level (.ofSize size) format calls).trans ?_
    rw [RingTracer.events_after _ size rfl]
    have room : (level.recorded calls).length - (EventRing.ofSize size).size = 0 := Nat.sub_eq_zero_of_le fits
    dsimp only
    rw [room]
    rfl
  have streamed := ((StreamTracer.wrote_start works level format).after works calls).close works
  rw [List.nil_append, StreamTracer.opened] at streamed
  by_cases chrome : format = .chrome
  · rw [if_pos chrome, if_pos chrome] at streamed
    refine ⟨dumped, by rw [if_pos chrome]; exact streamed, iff_of_false ?_ (not_not_intro chrome)⟩
    rw [dumped, streamed]
    intro same
    have longer := Text.length_flatten_le ",\n" records
    have lengths := congrArg (List.length ∘ Outlet.received) same
    simp only [Function.comp, Outlet.with, List.length_append, records] at lengths longer
    have framed : 0 < StreamTracer.chromeTail.length := by decide
    omega
  · rw [if_neg chrome, if_neg chrome, List.append_nil] at streamed
    exact ⟨dumped, by rw [if_neg chrome]; exact streamed, iff_of_true (dumped.trans streamed.symm) chrome⟩

/-- A ring with room for one event, and a stream, after an event that their level admits and one that it does not. -/
theorem fitting_dump_like_stream :
    let calls : List (UInt64 × TraceEvent) :=
      [(0, { kind := .point, scope := .driver, name := "p" }), (1, { kind := .point, scope := .inst, name := "q" })]
    let ring : RingTracer := { level := .phase, ring := .ofSize 1, target := some ({}, .lines) }
    (ring.after calls).close.1.outlet = ((StreamTracer.start {} .phase .lines).after calls).close.1.buffer.outlet := by
  intro calls ring
  exact (ring_dump_unframed {} rfl 1 .phase .lines calls (by decide +kernel)).2.2.mpr (by decide)

/-- Two points, as a ring and as a stream write them in the format that is one document. -/
theorem dumped_document_has_no_frame :
    let calls : List (UInt64 × TraceEvent) :=
      [(0, { kind := .point, scope := .driver, name := "p" }), (1, { kind := .point, scope := .driver, name := "q" })]
    let ring : RingTracer := { level := .phase, ring := .ofSize 4, target := some ({}, .chrome) }
    let record (name : String) : String := "\x7b\"name\":\"" ++ name ++
      "\",\"cat\":\"driver\",\"ph\":\"i\",\"ts\":-9223372036854775,\"pid\":1,\"tid\":0,\"s\":\"t\"\x7d"
    (ring.after calls).close.1.outlet.received = Text.ofString (record "p" ++ record "q") ∧
      ((StreamTracer.start {} .phase .chrome).after calls).close.1.buffer.outlet.received = Text.ofString
        ("\x7b\"traceEvents\":[\n" ++ record "p" ++ ",\n" ++ record "q" ++ "\n]\x7d\n") := by
  decide +kernel

end GenericC
