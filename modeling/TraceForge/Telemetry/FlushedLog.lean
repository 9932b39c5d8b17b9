import TraceForge.Recording.FailStop
import TraceForge.Recording.RecordLimit
import TraceForge.Telemetry.CollectorLog

/-! The log that the collector's last flush leaves.

Once the sink is shut down and a flush of the recorder has returned true, its file is on disk and
every reader sees in it what was acknowledged: all of it with room for that many records, and
otherwise a refusal at the limit (`flushed_log`). A flush that returns false has a stream that
failed behind it, and the recorder's message says in which operation (`flush_failed`). -/
namespace TraceForge.Recording
open Library Telemetry

/-- Protobuf writes the event in the wire format and reads it back, and knows all its fields. -/
structure Carries (pb : Protobuf) (event : TelemetryEvent) : Prop where
  known : event.unknownFields = []
  serializes : (Wire.encode event).length < 2 ^ 31 →
    pb.serializeToString event = some (Wire.encode event)
  parses : pb.parseFromArray (Wire.encode event) = some event

variable {pb : Protobuf}

namespace LogWriter

/-! ### A flush that returned true -/

theorem good_of_flush {w : LogWriter} (h : w.flush.1 = true) :
    w.good = true ∧ w.output.flush.goodbit = true := by
  cases hgood : w.good with
  | false => simp [flush, hgood] at h
  | true =>
    refine ⟨rfl, ?_⟩
    cases hflushed : w.output.flush.goodbit with
    | true => rfl
    | false => simp [flush, hgood, hflushed] at h

/-- It has brought everything to the disk. -/
theorem flush_true {w : LogWriter} (h : w.flush.1 = true) :
    w.output.goodbit = true ∧ w.flush.2.output.visible = w.output.file := by
  obtain ⟨hgood, hflushed⟩ := good_of_flush h
  obtain ⟨hbit, hvisible⟩ := OFStream.flush_good hflushed
  exact ⟨hbit, by rw [flush_output w hgood, hvisible]⟩

/-- A flush that follows it uncovers nothing. -/
theorem close_flushed {w : LogWriter} (h : w.flush.1 = true) :
    w.flush.2.close.output.visible = w.flush.2.output.visible := by
  obtain ⟨hgood, hflushed⟩ := good_of_flush h
  rw [close]
  split
  · refine OFStream.flush_covered ?_
    rw [flush_output w hgood, OFStream.flush_covers hflushed, OFStream.flush_file]
  · rfl

/-! ### The messages of a stream that failed -/

/-- The message says which operation of the stream failed. -/
def Named (w : LogWriter) : Prop :=
  w.error = "failed while writing telemetry log" ∨ w.error = "failed to flush telemetry log"

theorem error_of_good {w : LogWriter} (h : w.good = true) : w.error = "" := by
  simp only [good, Bool.and_eq_true, beq_iff_eq] at h
  exact h.1.1

theorem isOpen_of_good {w : LogWriter} (h : w.good = true) : w.output.isOpen = true := by
  simp only [good, Bool.and_eq_true] at h
  exact h.1.2

theorem fail_error {message : String} {w : LogWriter} (h : w.error = "") :
    (w.fail message).error = message := by
  rw [fail, if_pos (by rw [h]; rfl)]

/-- A write that fails names itself, one that does not leaves the writer good. -/
theorem writeBytes_named {bytes : List UInt8} {w next : LogWriter} {ok : Bool}
    (hw : w.good = true) (h : w.writeBytes bytes = (ok, next)) :
    if ok then next.good = true else Named next := by
  have herror := error_of_good hw
  have hopen := isOpen_of_good hw
  unfold writeBytes at h
  simp only at h
  split at h
  · cases h
    exact .inl (fail_error herror)
  · rename_i hbit
    cases h
    have hkept : (w.output.write bytes).isOpen = true := by
      rw [(OFStream.write_good (by simpa using hbit)).2.2, hopen]
    simp only [if_true, good, herror, hkept, Bool.and_eq_true, beq_self_eq_true, true_and]
    simpa using hbit

theorem flush_named {w : LogWriter} (hw : w.good = true) :
    if w.flush.1 then w.flush.2.good = true else Named w.flush.2 := by
  have herror := error_of_good hw
  have hopen := isOpen_of_good hw
  simp only [flush, hw, Bool.not_true, Bool.false_eq_true, if_false]
  split
  · exact .inr (fail_error herror)
  · rename_i hbit
    simp only [if_true, good, herror, OFStream.flush_isOpen, hopen, Bool.and_eq_true,
      beq_self_eq_true, true_and]
    simpa using hbit

theorem appendPayload_named (payload : List UInt8) (arrival : Int64) {w : LogWriter}
    (hw : w.good = true) :
    (w.appendPayload payload arrival).2.good = true ∨
      Named (w.appendPayload payload arrival).2 := by
  unfold appendPayload
  split
  · rename_i first hfirst
    exact .inr (writeBytes_named hw hfirst)
  rename_i first hfirst
  have hgood : first.good = true := writeBytes_named hw hfirst
  split
  · rename_i second hsecond
    exact .inr (writeBytes_named hgood hsecond)
  rename_i second hsecond
  have hgood : second.good = true := writeBytes_named hgood hsecond
  simp only
  split
  · have hcounted : ({second with recordCount := second.recordCount + 1} : LogWriter).good = true :=
      hgood
    have hflush := flush_named hcounted
    split at hflush
    · exact .inl hflush
    · exact .inr hflush
  · exact .inl hgood

/-- A stream that failed stays so when it is closed. -/
theorem close_failed {w : LogWriter} (h : w.output.goodbit = false) :
    w.close.output.goodbit = false := by
  rw [close]
  split
  · show w.output.flush.goodbit = false
    rw [OFStream.flush, h]
    exact h
  · exact h

end LogWriter

/-! ### Reading the log -/

/-- The events and arrival times of a log that is read whole. -/
theorem readLog_recorded {file : File} {L : Layout pb} (options : LogReadOptions)
    (hbytes : L.bytes = file.bytes) (hlimit : L.frames.length ≤ options.maximumRecords.toNat)
    (hretain : options.retainRecords = true) :
    let result := readLog pb .granted file options
    result.status = .complete ∧
      (result.records.map fun record => (record.event, record.collectorArrivalTimestampNs)) =
        LogWriter.appended L.frames := by
  obtain ⟨hresult, _, hrecords⟩ := readLog_frames options hbytes hlimit
  refine ⟨congrArg LogReadResult.status hresult, ?_⟩
  rw [hretain, if_pos rfl] at hrecords
  have hpairs := congrArg (List.map fun entry : ℕ × Int64 × TelemetryEvent =>
    (entry.2.2, entry.2.1)) hrecords
  rw [List.map_map] at hpairs
  refine hpairs.trans ?_
  rw [List.mapIdx_eq_zipIdx_map, List.map_map]
  exact List.zipIdx_map_fst 0 _

end TraceForge.Recording

namespace TraceForge.Telemetry
open Library Concurrency Recording

namespace Collector

variable {pb : Protobuf} {Stream : Type} [DecidableEq Stream]

/-- **What the last flush leaves** is a log of the acknowledged events in the order of the answers.
A reader with room for them reads it whole, and one without stops at its limit. -/
theorem flushed_log {capacity : Nat} {capacity_pos : 0 < capacity} {target : Target}
    {options : LogWriterOptions} {now : Int64} {s : Collector Stream}
    (hopen : (LogWriter.create target options now).good = true)
    (h : (machine pb (.empty capacity capacity_pos) (.create target options now)).Reachable s)
    (hreads : ∀ i r, s.streams i = some r → ∀ event ∈ r.reads, Carries pb event)
    (hdown : 0 < s.sink.shutdowns) (hflush : s.writer.flush.1 = true)
    (readOptions : LogReadOptions) (hretain : readOptions.retainRecords = true) :
    let result := readLog pb .granted s.writer.flush.2.output.visible readOptions
    (s.sink.acknowledged.length ≤ readOptions.maximumRecords.toNat → result.status = .complete ∧
      (result.records.map fun record => (record.event, record.collectorArrivalTimestampNs)) =
        s.sink.acknowledged.map CollectedEvent.record) ∧
    (readOptions.maximumRecords.toNat < s.sink.acknowledged.length →
      result.status = .resourceLimit) := by
  obtain ⟨hgood, hvisible⟩ := LogWriter.flush_true hflush
  obtain ⟨L, hholds, hframes⟩ := writer_holds hopen h
    (fun i r hr event hevent => have hcarried := hreads i r hr event hevent
      ⟨hcarried.known, hcarried.serializes, hcarried.parses⟩) hdown hgood
  have hlength : L.frames.length = s.sink.acknowledged.length := by
    rw [← List.length_map (f := CollectedEvent.record), ← hframes, LogWriter.appended,
      List.length_map]
  rw [hvisible]
  refine ⟨fun hroom => ?_, fun hfull => ?_⟩
  · rw [← hframes]
    exact readLog_recorded readOptions hholds.bytes.symm (hlength ▸ hroom) hretain
  · have hbytes : s.writer.output.file.bytes = L.bytes ++ [] := by
      rw [List.append_nil, hholds.bytes]
    rw [readLog_beyond hbytes (hlength ▸ hfull)]
    rfl

/-! ### The recorder's writer -/

section Recorder
variable {w₀ w : LogWriter} {returns : List (CollectedEvent × Bool)}

/-- A writer that is good has returned true on every event. -/
theorem recorded_true (h : Recorded pb w₀ returns w) (hgood : w.good = true) :
    QueuedSink.AllTrue returns := by
  induction h with
  | nil => exact fun r hr => absurd hr List.not_mem_nil
  | @append returns w c _ ih =>
    have hok : (w.append pb c.event c.collectorArrivalTimestampNs).1 = true := by
      by_contra hfailed
      have hcall : (w.call pb (.append c.event c.collectorArrivalTimestampNs)).1 = false :=
        Bool.eq_false_of_not_eq_true hfailed
      cases (LogWriter.call_false hcall).symm.trans hgood
    have hbefore : w.good = true := by
      by_contra hbad
      have hsame : w.append pb c.event c.collectorArrivalTimestampNs = (false, w) :=
        LogWriter.call_of_not_good (Bool.eq_false_of_not_eq_true hbad)
          (.append c.event c.collectorArrivalTimestampNs)
      rw [hsame] at hgood
      exact hbad hgood
    intro r hr
    rcases List.mem_append.mp hr with hr | hr
    · exact ih hbefore r hr
    · rw [List.mem_singleton.mp hr]
      exact hok

/-- A writer that has only been given events it can write is good, or names what failed. -/
theorem recorded_named {L : Layout pb} (hw₀ : w₀.Holds L) (h : Recorded pb w₀ returns w)
    (hframes : ∀ r ∈ returns, ∃ f : Frame pb, (f.event, f.arrival) = r.1.record ∧
      pb.serializeToString f.event = some f.payload) : w.good = true ∨ w.Named := by
  induction h with
  | nil => exact .inl hw₀.good
  | @append returns w c hrecorded ih =>
    have hbefore := fun r hr => hframes r (List.mem_append_left _ hr)
    cases hw : w.good with
    | false =>
      have hsame : w.append pb c.event c.collectorArrivalTimestampNs = (false, w) :=
        LogWriter.call_of_not_good hw (.append c.event c.collectorArrivalTimestampNs)
      rw [hsame]
      exact ih hbefore
    | true =>
      have hbit : w.output.goodbit = true := by
        simp only [LogWriter.good, Bool.and_eq_true] at hw
        exact hw.2
      obtain ⟨_, fs, _, hholds⟩ := recorded_holds hw₀ hrecorded hbit hbefore
      obtain ⟨f, hf, hs⟩ := hframes _ (List.mem_append_right _ (List.mem_singleton.mpr rfl))
      obtain ⟨hevent, harrival⟩ := Prod.mk.inj hf
      rw [← hevent, ← harrival, LogWriter.append_frame hholds f hs]
      exact LogWriter.appendPayload_named f.payload f.arrival hw

end Recorder

section Reachable
variable {capacity : ℕ} {capacity_pos : 0 < capacity}
  {target : Target} {options : LogWriterOptions} {now : Int64} {s : Collector Stream}

/-- What a consumer has returned on can be written. -/
theorem returned_frames (hconsistent : s.Consistent) (hvalid : s.sink.Valid)
    (hreads : ∀ i r, s.streams i = some r → ∀ event ∈ r.reads, Carries pb event) :
    ∀ r ∈ s.sink.returns, ∃ f : Frame pb, (f.event, f.arrival) = r.1.record ∧
      pb.serializeToString f.event = some f.payload := by
  intro r hr
  have hmem : r.1 ∈ s.sink.acknowledged := by
    rw [hvalid.acknowledged, hvalid.conserved]
    exact List.mem_append_left _ (List.mem_map.mpr ⟨r, hr, rfl⟩)
  obtain ⟨hacceptable, i, q, hq, hread⟩ := acknowledged_captured hconsistent hmem
  have hcarried := hreads i q hq _ hread
  exact frame_exists hacceptable hcarried.known hcarried.serializes hcarried.parses

theorem created_holds (hopen : (LogWriter.create target options now).good = true) :
    ∃ header, (LogWriter.create target options now).Holds (Layout.headerOnly pb header) := by
  obtain ⟨htarget, hflush⟩ := LogWriter.create_good hopen
  have hbit : (LogWriter.create target options now).output.goodbit = true := by
    simp only [LogWriter.good, Bool.and_eq_true] at hopen
    exact hopen.2
  rw [htarget] at hbit ⊢
  exact ⟨_, LogWriter.create_holds pb _ _ _ _ hflush hbit⟩

/-- The recorder's writer in any state of the collector. -/
theorem writer_named (hopen : (LogWriter.create target options now).good = true)
    (h : (machine pb (.empty capacity capacity_pos) (.create target options now)).Reachable s)
    (hreads : ∀ i r, s.streams i = some r → ∀ event ∈ r.reads, Carries pb event) :
    s.writer.good = true ∨ s.writer.Named := by
  have hvalid : s.sink.Valid :=
    QueuedSink.valid_reachable rfl rfl ((sinkView pb _ _).reachable h)
  obtain ⟨header, hcreated⟩ : ∃ header, (LogWriter.create target options now).Holds
      (Layout.headerOnly pb header) := created_holds hopen
  exact recorded_named hcreated (recorded_reachable h)
    (returned_frames (consistent_reachable h) hvalid hreads)

/-- **A last flush that fails** names an operation of a stream that has failed. -/
theorem flush_failed (hopen : (LogWriter.create target options now).good = true)
    (h : (machine pb (.empty capacity capacity_pos) (.create target options now)).Reachable s)
    (hreads : ∀ i r, s.streams i = some r → ∀ event ∈ r.reads, Carries pb event)
    (hdown : 0 < s.sink.shutdowns) (hflush : s.writer.flush.1 = false) :
    s.writer.flush.2.Named ∧ s.writer.flush.2.output.goodbit = false := by
  cases hgood : s.writer.good with
  | true =>
    have hnamed := LogWriter.flush_named hgood
    rw [hflush] at hnamed
    refine ⟨hnamed, ?_⟩
    rw [LogWriter.flush_output s.writer hgood]
    by_contra hbit
    have hflushed : s.writer.output.flush.goodbit = true := Bool.eq_true_of_not_eq_false hbit
    simp [LogWriter.flush, hgood, hflushed] at hflush
  | false =>
    have hsame : s.writer.flush = (false, s.writer) := by simp [LogWriter.flush, hgood]
    rw [hsame]
    refine ⟨(writer_named hopen h hreads).resolve_left (by rw [hgood]; decide), ?_⟩
    by_contra hbit
    obtain ⟨L, hholds, _⟩ := writer_holds hopen h
      (fun i r hr event hevent => have hcarried := hreads i r hr event hevent
        ⟨hcarried.known, hcarried.serializes, hcarried.parses⟩) hdown
      (Bool.eq_true_of_not_eq_false hbit)
    cases hgood.symm.trans hholds.good

end Reachable

end Collector

end TraceForge.Telemetry
