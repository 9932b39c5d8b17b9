import TraceForge.Recording.RoundTrip
import TraceForge.Recording.ValidatedEvents
import TraceForge.Telemetry.CollectorStreams

/-! What the collector acknowledges is what the log holds.

The writer has appended what `consume` returned on (`Recorded`), so a stream that stays good holds
one frame for each event, and whatever a validator accepts fits a frame (`frame_exists`). With
what the sink conserves this makes the log's records the acknowledged events
(`collector_conserves`). -/
namespace TraceForge.Telemetry
open Library Concurrency Recording

/-! ### The writer -/

/-- What is appended for an event. -/
def CollectedEvent.record (c : CollectedEvent) : TelemetryEvent × Int64 :=
  (c.event, c.collectorArrivalTimestampNs)

theorem mapIdx_record {β : Type} (g : Nat → TelemetryEvent × Int64 → β)
    (cs : List CollectedEvent) :
    (cs.map CollectedEvent.record).mapIdx g = cs.mapIdx fun k c => g k c.record := by
  simp [List.mapIdx_eq_zipIdx_map, List.zipIdx_map, Function.comp_def]

/-- The writer after some appends, with what each of them returned. -/
inductive Recorded (pb : Protobuf) (w₀ : LogWriter) :
    List (CollectedEvent × Bool) → LogWriter → Prop where
  | nil : Recorded pb w₀ [] w₀
  | append {returns : List (CollectedEvent × Bool)} {w : LogWriter} (c : CollectedEvent)
      (h : Recorded pb w₀ returns w) :
      Recorded pb w₀ (returns ++ [(c, (w.append pb c.event c.collectorArrivalTimestampNs).1)])
        (w.append pb c.event c.collectorArrivalTimestampNs).2

variable {pb : Protobuf}

theorem recorded_goodbit {w₀ w : LogWriter} {returns : List (CollectedEvent × Bool)}
    (h : Recorded pb w₀ returns w) (hgood : w.output.goodbit = true) :
    w₀.output.goodbit = true := by
  induction h with
  | nil => exact hgood
  | append c _ ih => exact ih (LogWriter.append_goodbit hgood)

/-- **A writer whose stream stayed good** returned true on every event and holds one frame for
each, in the order of the appends. -/
theorem recorded_holds {w₀ w : LogWriter} {returns : List (CollectedEvent × Bool)}
    {L : Layout pb} (hw₀ : w₀.Holds L) (h : Recorded pb w₀ returns w)
    (hgood : w.output.goodbit = true)
    (hframes : ∀ r ∈ returns, ∃ f : Frame pb, (f.event, f.arrival) = r.1.record ∧
      pb.serializeToString f.event = some f.payload) :
    QueuedSink.AllTrue returns ∧ ∃ fs : List (Frame pb),
      LogWriter.appended fs = (returns.map fun r => r.1.record) ∧ w.Holds (L.append fs) := by
  induction h with
  | nil =>
    refine ⟨fun r hr => absurd hr List.not_mem_nil, [], rfl, ?_⟩
    rw [Layout.append, List.append_nil]
    exact hw₀
  | @append returns w c _ ih =>
    obtain ⟨hall, fs, hfs, hw⟩ := ih (LogWriter.append_goodbit hgood)
      fun r hr => hframes r (List.mem_append_left _ hr)
    obtain ⟨f, hf, hs⟩ := hframes _ (List.mem_append_right _ (List.mem_singleton.mpr rfl))
    obtain ⟨hevent, harrival⟩ := Prod.mk.inj hf
    rw [← hevent, ← harrival] at hgood ⊢
    obtain ⟨hok, hholds⟩ := LogWriter.append_holds hw f hs hgood
    refine ⟨fun r hr => ?_, fs ++ [f], ?_, ?_⟩
    · rcases List.mem_append.mp hr with hr | hr
      · exact hall r hr
      · rw [List.mem_singleton.mp hr]
        exact hok
    · rw [LogWriter.appended, List.map_append, List.map_append, ← hfs]
      exact congrArg _ (congrArg (fun record => [record]) hf)
    · have hlayout : (L.append fs).append [f] = L.append (fs ++ [f]) := by
        simp only [Layout.append, List.append_assoc]
      rw [← hlayout]
      exact hholds

/-! ### A frame for an acceptable event -/

/-- The record of an acceptable event that Protobuf writes and reads back. -/
theorem frame_exists {c : CollectedEvent} (h : c.event.Acceptable)
    (hknown : c.event.unknownFields = [])
    (hserialize : (Wire.encode c.event).length < 2 ^ 31 →
      pb.serializeToString c.event = some (Wire.encode c.event))
    (hparse : pb.parseFromArray (Wire.encode c.event) = some c.event) :
    ∃ f : Frame pb, (f.event, f.arrival) = c.record ∧
      pb.serializeToString f.event = some f.payload := by
  have hle := acceptable_length h hknown
  have hmaximum : kMaximumPayloadSize.toNat < 2 ^ 31 := by decide
  refine ⟨{ arrival := c.collectorArrivalTimestampNs
            payload := Wire.encode c.event
            event := c.event
            payload_le := hle
            parses := hparse
            schema := h.schema }, rfl, hserialize (by omega)⟩

namespace Collector

variable {Stream : Type} [DecidableEq Stream]

/-! ### The log -/

theorem recorded_step {w₀ : LogWriter} {s t : Collector Stream} {a : Action Stream}
    (hs : Recorded pb w₀ s.sink.returns s.writer) (h : s.step pb a = some t) :
    Recorded pb w₀ t.sink.returns t.writer := by
  cases step_moves h with
  | streamTelemetry | read | ended => exact hs
  | loaded i r c seen sink hr hphase hsink | refused i r c seen result sink hr hphase hsink =>
    rcases QueuedSink.load_cases hsink with ⟨_, rfl⟩ | ⟨_, rfl⟩ <;> exact hs
  | pushed i r result sink hr hphase hsink =>
    obtain ⟨_, _, _, rfl⟩ := QueuedSink.push_cases hsink
    exact hs
  | consume c sink hconsuming hsink =>
    obtain ⟨c', hconsuming', rfl⟩ := QueuedSink.consumeReturns_cases hsink
    cases hconsuming.symm.trans hconsuming'
    exact .append c hs
  | background sink hsink =>
    show Recorded pb w₀ sink.returns s.writer
    rw [(QueuedSink.background_cases hsink).2.2]
    exact hs

theorem recorded_reachable {queue : BoundedQueue CollectedEvent} {writer : LogWriter}
    {s : Collector Stream} (h : (machine pb queue writer).Reachable s) :
    Recorded pb writer s.sink.returns s.writer :=
  Machine.reachable_invariant (fun s => Recorded pb writer s.sink.returns s.writer) .nil
    (fun _ _ _ hs hstep => recorded_step hs hstep) h

/-- What is known of a run once the streams have ended, the sink is shut down and the writer's
stream is still good: nothing was refused, and the writer holds one frame for each event
acknowledged. -/
theorem writer_holds {capacity : Nat} {capacity_pos : 0 < capacity} {target : Target}
    {options : LogWriterOptions} {now : Int64} {s : Collector Stream}
    (hopen : (LogWriter.create target options now).good = true)
    (h : (machine pb (.empty capacity capacity_pos) (.create target options now)).Reachable s)
    (hreads : ∀ i r, s.streams i = some r → ∀ event ∈ r.reads, event.unknownFields = [] ∧
      ((Wire.encode event).length < 2 ^ 31 →
        pb.serializeToString event = some (Wire.encode event)) ∧
      pb.parseFromArray (Wire.encode event) = some event)
    (hdown : 0 < s.sink.shutdowns) (hgood : s.writer.output.goodbit = true) :
    ∃ L : Layout pb, s.writer.Holds L ∧
      LogWriter.appended L.frames = s.sink.acknowledged.map CollectedEvent.record := by
  have hsink : s.sink.Valid :=
    QueuedSink.valid_reachable rfl rfl ((sinkView pb _ _).reachable h)
  have hconsistent := consistent_reachable h
  have hrecorded := recorded_reachable h
  obtain ⟨header, hcreated⟩ : ∃ header,
      (LogWriter.create target options now).Holds (Layout.headerOnly pb header) := by
    obtain ⟨htarget, hflush⟩ := LogWriter.create_good hopen
    have hfirst := recorded_goodbit hrecorded hgood
    rw [htarget] at hfirst ⊢
    exact ⟨_, LogWriter.create_holds pb _ _ _ _ hflush hfirst⟩
  have hreturned (r : CollectedEvent × Bool) (hr : r ∈ s.sink.returns) :
      r.1 ∈ s.sink.acknowledged := by
    rw [hsink.acknowledged, hsink.conserved]
    exact List.mem_append_left _ (List.mem_map.mpr ⟨r, hr, rfl⟩)
  obtain ⟨hall, fs, hfs, hholds⟩ := recorded_holds hcreated hrecorded hgood fun r hr => by
    obtain ⟨hacceptable, i, q, hq, hread⟩ := acknowledged_captured hconsistent (hreturned r hr)
    obtain ⟨hknown, hserialize, hparse⟩ := hreads i q hq _ hread
    exact frame_exists hacceptable hknown hserialize hparse
  have hrefused : s.sink.refused = [] := by
    rw [QueuedSink.refused, List.filter_eq_nil_iff.mpr fun r hr => by simp [hall r hr],
      List.map_nil]
  obtain ⟨_, hdrained, _⟩ := QueuedSink.drained hsink hdown hrefused
  have hconsumed : s.sink.returns.map Prod.fst = s.sink.acknowledged := by
    rw [(QueuedSink.returns_split hsink).1, hrefused, List.append_nil, hdrained,
      hsink.acknowledged]
  refine ⟨_, hholds, ?_⟩
  show LogWriter.appended fs = _
  rw [hfs, ← hconsumed, List.map_map]
  rfl

/-- **What the collector acknowledges is what the log holds**, for any number of streams in any
interleaving with the consumer and `shutdown`. A stream that has ended was finished once and is
not heard of again. Once all have ended and the sink is shut down, a log whose stream never failed
reads complete: its records are the events the sink answered accepted, in the order of the
answers, with the arrival times captured for them. Those of one stream are the first of its reads,
and a stream that finished with OK has their summary. -/
theorem collector_conserves (pb : Protobuf) (capacity : Nat) (capacity_pos : 0 < capacity)
    (target : Target) (options : LogWriterOptions) (now : Int64) (readOptions : LogReadOptions)
    (s : Collector Stream) (hopen : (LogWriter.create target options now).good = true)
    (h : (machine pb (.empty capacity capacity_pos) (.create target options now)).Reachable s)
    (hreads : ∀ i r, s.streams i = some r → ∀ event ∈ r.reads, event.unknownFields = [] ∧
      ((Wire.encode event).length < 2 ^ 31 →
        pb.serializeToString event = some (Wire.encode event)) ∧
      pb.parseFromArray (Wire.encode event) = some event) :
    (∀ i r, s.streams i = some r → r.phase = .returned →
      (∃ status, r.finished = [status]) ∧
      ∀ actions t,
        (machine pb (.empty capacity capacity_pos) (.create target options now)).run s actions =
          some t →
        t.streams i = some r ∧ ∃ later, t.sink.answers = s.sink.answers ++ later ∧
          ∀ answer ∈ later, answer.1 ≠ i) ∧
    ((∀ i r, s.streams i = some r → r.phase = .returned) → 0 < s.sink.shutdowns →
      s.writer.close.output.goodbit = true →
      s.sink.acknowledged.length ≤ readOptions.maximumRecords.toNat →
      (s.writer.flush.2.output.visible = s.writer.output.file ∧
        s.writer.close.output.visible = s.writer.output.file) ∧
      (let result := readLog pb .granted s.writer.output.file readOptions
       result.status = .complete ∧
        (result.index.map fun entry => (entry.recordIndex.toNat,
            entry.collectorArrivalTimestampNs, entry.sourceTimestampNs)) =
          (s.sink.acknowledged.mapIdx fun k c =>
            (k, c.collectorArrivalTimestampNs, c.event.sourceTimestampNs)) ∧
        (result.records.map fun record => (record.recordIndex.toNat,
            record.collectorArrivalTimestampNs, record.event)) =
          (if readOptions.retainRecords then
            s.sink.acknowledged.mapIdx fun k c => (k, c.collectorArrivalTimestampNs, c.event)
          else [])) ∧
      ∀ i r, s.streams i = some r →
        s.acknowledged i <+: r.captured ∧ r.captured.map CollectedEvent.event <+: r.reads ∧
        (r.finished = [.ok] →
          Summarizes r.response ((s.acknowledged i).map CollectedEvent.event))) := by
  have hconsistent := consistent_reachable h
  refine ⟨fun i r hr hphase => ⟨?_, fun actions t ht => returned_run hr hphase ht⟩,
    fun hended hdown hclose hlimit => ?_⟩
  · obtain ⟨_, _, _, status, hfinished, _⟩ :=
      StreamReactor.place_returned (hconsistent.stream i r hr) hphase
    exact ⟨status, hfinished⟩
  obtain ⟨L, hholds, hframes⟩ := writer_holds hopen h hreads hdown (LogWriter.close_goodbit hclose)
  have hclosed : s.writer.close.output = s.writer.output.flush := by
    rw [LogWriter.close, if_pos hholds.isOpen]
  have hflushed := LogWriter.flush_output s.writer hholds.good
  have hvisible : s.writer.output.flush.visible = s.writer.output.file :=
    (OFStream.flush_good (hclosed ▸ hclose)).2
  have hlength : L.frames.length = s.sink.acknowledged.length := by
    rw [← List.length_map (f := CollectedEvent.record), ← hframes, LogWriter.appended,
      List.length_map]
  refine ⟨⟨by rw [hflushed, hvisible], by rw [hclosed, hvisible]⟩, ?_, fun i r hr => ?_⟩
  · obtain ⟨hcomplete, hindex, hrecords⟩ :=
      readLog_frames readOptions hholds.bytes.symm (hlength ▸ hlimit)
    rw [hframes] at hindex hrecords
    refine ⟨congrArg LogReadResult.status hcomplete, hindex.trans ?_, hrecords.trans ?_⟩
    · rw [mapIdx_record]
      rfl
    · rw [mapIdx_record]
      rfl
  · obtain ⟨hown, hread⟩ := StreamReactor.own_captured (hconsistent.stream i r hr)
    refine ⟨hown, hread, fun hok => ?_⟩
    obtain ⟨_, _, _, status, hfinished, hsummary⟩ :=
      StreamReactor.place_returned (hconsistent.stream i r hr) (hended i r hr)
    obtain ⟨hcaptured, hresponse⟩ := hsummary (List.singleton_inj.mp (hfinished.symm.trans hok))
    have hlt := Layout.frames_length_lt hholds.bytes.symm
    have hle := acknowledged_length_le s i
    rw [hresponse, ← hcaptured]
    refine ((hconsistent.stream i r hr).tracks ?_).summary
    rw [hcaptured]
    omega

/-- Two streams and a queue of one. The first stream has two events recorded and ends; the second
finds the queue full. -/
def sampleActions : List (Action Bool) :=
  [.streamTelemetry true, .streamTelemetry false, .read true (some (Wire.sampleEvent 1)) 5,
    .load true true, .read false (some (Wire.sampleEvent 9)) 6, .load false true, .push true,
    .push false, .pop, .call, .consume, .advance, .read true (some (Wire.sampleEvent 4)) 7,
    .load true true, .push true, .read true none 8, .pop, .shutdown, .call, .consume, .advance,
    .shutdown, .pop, .shutdown]

def samplePb : Protobuf :=
  Wire.protobuf [Wire.sampleEvent 1, Wire.sampleEvent 4, Wire.sampleEvent 9]

def sampleStart : Machine (Collector Bool) (Action Bool) :=
  machine samplePb (.empty 1 Nat.one_pos)
    (.create (.fresh "log" fun _ => none) {createdUnixNs := 7} 0)

theorem collector_conserves_sample :
    ∃ s : Collector Bool, sampleStart.run sampleStart.init sampleActions = some s ∧
      (let result := readLog samplePb .granted s.writer.output.file {}
       result.status = .complete ∧
        (result.records.map fun record => (record.recordIndex.toNat,
          record.collectorArrivalTimestampNs, record.event)) =
          [(0, 5, Wire.sampleEvent 1), (1, 7, Wire.sampleEvent 4)]) ∧
      ∃ r, s.streams true = some r ∧ r.finished = [.ok] ∧
        Summarizes r.response [Wire.sampleEvent 1, Wire.sampleEvent 4] := by
  have hends : (sampleStart.run sampleStart.init sampleActions).isSome = true := by
    decide +kernel
  have hfirst : (sampleStart.run sampleStart.init sampleActions).map (fun s =>
      (s.streams true).map fun r => (r.phase, r.reads, r.finished)) =
        some (some (.returned, [Wire.sampleEvent 1, Wire.sampleEvent 4], [.ok])) := by
    decide +kernel
  have hsecond : (sampleStart.run sampleStart.init sampleActions).map (fun s =>
      (s.streams false).map fun r => (r.phase, r.reads, r.finished)) =
        some (some (.returned, [Wire.sampleEvent 9],
          [⟨.resourceExhausted, "telemetry queue reached its fixed capacity"⟩])) := by
    decide +kernel
  have hsink : (sampleStart.run sampleStart.init sampleActions).map (fun s =>
      (s.sink.shutdowns, s.writer.close.output.goodbit)) = some (1, true) := by
    decide +kernel
  have hanswers : (sampleStart.run sampleStart.init sampleActions).map (fun s =>
      (s.sink.acknowledged, s.acknowledged true)) =
        some ([⟨Wire.sampleEvent 1, 5⟩, ⟨Wire.sampleEvent 4, 7⟩],
          [⟨Wire.sampleEvent 1, 5⟩, ⟨Wire.sampleEvent 4, 7⟩]) := by
    decide +kernel
  obtain ⟨s, hs⟩ := Option.isSome_iff_exists.mp hends
  simp only [hs, Option.map_some, Option.some.injEq, Prod.mk.injEq] at hfirst hsecond hsink hanswers
  obtain ⟨hdown, hclose⟩ := hsink
  obtain ⟨hacknowledged, hown⟩ := hanswers
  obtain ⟨r, hr, hrview⟩ := Option.map_eq_some_iff.mp hfirst
  obtain ⟨q, hq, hqview⟩ := Option.map_eq_some_iff.mp hsecond
  simp only [Prod.mk.injEq] at hrview hqview
  obtain ⟨hrphase, hrreads, hrfinished⟩ := hrview
  obtain ⟨hqphase, hqreads, _⟩ := hqview
  have hstreams (P : StreamReactor → Prop) (hpr : P r) (hpq : P q) (i : Bool) (x : StreamReactor)
      (hx : s.streams i = some x) : P x := by
    cases i with
    | true =>
      cases hr.symm.trans hx
      exact hpr
    | false =>
      cases hq.symm.trans hx
      exact hpq
  obtain ⟨_, hlog⟩ := collector_conserves samplePb 1 Nat.one_pos (.fresh "log" fun _ => none)
    {createdUnixNs := 7} 0 {} s (by decide +kernel) ⟨_, hs⟩
    (hstreams (fun x => ∀ event ∈ x.reads, _)
      (by rw [hrreads]; decide +kernel) (by rw [hqreads]; decide +kernel))
  obtain ⟨_, ⟨hcomplete, _, hrecords⟩, hsummary⟩ := hlog
    (hstreams (fun x => x.phase = .returned) hrphase hqphase) (by rw [hdown]; exact Nat.one_pos)
    hclose (by rw [hacknowledged]; decide)
  refine ⟨s, hs, ⟨hcomplete, ?_⟩, r, hr, hrfinished, ?_⟩
  · rw [hrecords, hacknowledged]
    rfl
  · have h := (hsummary true r hr).2.2 hrfinished
    rw [hown] at h
    exact h

end Collector

end TraceForge.Telemetry
