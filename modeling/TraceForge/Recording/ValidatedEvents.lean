import TraceForge.Recording.WriterProofs
import TraceForge.Telemetry.Validation

/-! An event that a validator lets pass cannot stop the writer.

The writer refuses an event for its schema version and for its size, and a refusal is final. Both
limits are the validator's, or wider: an acceptable event has the writer's version, and its strings
are so short that it fits a record many times over (`acceptable_length`). As long as the stream does
not fail, the writer therefore stays good, whoever's events it is given (`validated_recorded`). -/
namespace TraceForge.Recording
open Library Telemetry

/-! ### Sizes -/

theorem wellFormed_textLength {p : Payload} (h : p.WellFormed) :
    Wire.textLength p ≤ kMaxDetailBytes := by
  cases p with
  | controllerStatus | fault => exact h.2
  | _ => exact Nat.zero_le _

theorem acceptable_length {event : TelemetryEvent} (h : event.Acceptable)
    (hknown : event.unknownFields = []) :
    (Wire.encode event).length ≤ kMaximumPayloadSize.toNat := by
  have hlength := Wire.encode_length event
  have hproducer := h.producer_le
  obtain ⟨p, hp, hwell⟩ := h.payload
  have htext := wellFormed_textLength hwell
  have hmaximum : 2 ^ 20 ≤ kMaximumPayloadSize.toNat := by decide
  rw [hp, hknown, List.length_nil, Option.elim_some] at hlength
  simp only [kMaxDetailBytes, kMaxProducerIdBytes] at htext hproducer
  omega

/-- Protobuf writes an event that is not too large for it, field after field. -/
def Sized (pb : Protobuf) : Prop :=
  ∀ event : TelemetryEvent, event.unknownFields = [] → (Wire.encode event).length < 2 ^ 31 →
    ∃ payload, pb.serializeToString event = some payload ∧
      payload.length = (Wire.encode event).length

/-- What an event takes in the log. -/
def recordSize (event : TelemetryEvent) : Nat :=
  kRecordHeaderSize.toNat + (Wire.encode event).length

/-! ### Writing -/

namespace LogWriter

/-- A good writer whose stream will not fail in so many bytes. -/
structure Ready (w : LogWriter) (room : Nat) : Prop where
  good : w.good = true
  unfailing : w.output.Unfailing room

theorem good_iff (w : LogWriter) :
    w.good = true ↔ w.error = "" ∧ w.output.isOpen = true ∧ w.output.goodbit = true := by
  rw [good, Bool.and_eq_true, Bool.and_eq_true, beq_iff_eq, and_assoc]

theorem writeBytes_ready {bytes : List UInt8} {w : LogWriter} {room : Nat}
    (h : w.Ready (bytes.length + room)) :
    ∃ w', w.writeBytes bytes = (true, w') ∧ w'.Ready room := by
  obtain ⟨herror, hopen, hgoodbit⟩ := (good_iff w).mp h.good
  obtain ⟨hwritten, hopen', hunfailing⟩ := OFStream.write_unfailing hgoodbit h.unfailing
  refine ⟨_, writeBytes_good bytes w ?_, (good_iff _).mpr ⟨herror, hopen'.trans hopen, hwritten⟩,
    hunfailing⟩
  rw [writeBytes_output]
  exact hwritten

theorem flush_ready {w : LogWriter} {room : Nat} (h : w.Ready room) :
    ∃ w', w.flush = (true, w') ∧ w'.Ready room := by
  obtain ⟨herror, hopen, hgoodbit⟩ := (good_iff w).mp h.good
  obtain ⟨hflushed, hunfailing⟩ := OFStream.flush_unfailing hgoodbit h.unfailing
  have hflush : w.flush = (true, {w with output := w.output.flush}) := by
    simp only [flush, h.good, hflushed, Bool.not_true, Bool.false_eq_true, if_false]
  refine ⟨_, hflush, (good_iff _).mpr ⟨herror, ?_, hflushed⟩, hunfailing⟩
  rw [OFStream.flush_isOpen, hopen]

theorem appendPayload_ready {payload : List UInt8} {arrival : Int64} {w : LogWriter} {room : Nat}
    (h : w.Ready (kRecordHeaderSize.toNat + payload.length + room)) :
    ∃ w', w.appendPayload payload arrival = (true, w') ∧ w'.Ready room := by
  rw [← recordHeader_length payload w.recordCount arrival, Nat.add_assoc] at h
  obtain ⟨w₁, hheader, h₁⟩ := writeBytes_ready h
  obtain ⟨w₂, hpayload, h₂⟩ := writeBytes_ready h₁
  have hcounted : LogWriter.Ready {w₂ with recordCount := w₂.recordCount + 1} room :=
    ⟨h₂.good, h₂.unfailing⟩
  simp only [appendPayload, hheader, hpayload]
  split
  · exact flush_ready hcounted
  · exact ⟨_, rfl, hcounted⟩

variable {pb : Protobuf}

/-- **One append** of an acceptable event. -/
theorem append_ready (hpb : Sized pb) {event : TelemetryEvent} (h : event.Acceptable)
    (hknown : event.unknownFields = []) (arrival : Int64) {w : LogWriter} {room : Nat}
    (hw : w.Ready (recordSize event + room)) :
    ∃ w', w.append pb event arrival = (true, w') ∧ w'.Ready room := by
  have hsize := acceptable_length h hknown
  have hmaximum : kMaximumPayloadSize.toNat < 2 ^ 31 := by decide
  obtain ⟨payload, hpayload, hlength⟩ := hpb event hknown (by omega)
  rw [recordSize, ← hlength] at hw
  rw [append, if_neg (by simp [hw.good]), if_neg (by simp [h.schema]), hpayload]
  simp only [if_neg (Nat.not_lt.mpr (hlength ▸ hsize))]
  exact appendPayload_ready hw

end LogWriter

/-! ### Validated events -/

/-- Some validator, in some state, lets the event pass. -/
structure Validated (event : TelemetryEvent) : Prop where
  known : event.unknownFields = []
  accepted : ∃ v : StreamValidator, (v.accept event).1.accepted = true

theorem Validated.acceptable {event : TelemetryEvent} (h : Validated event) : event.Acceptable := by
  obtain ⟨v, haccepted⟩ := h.accepted
  rcases StreamValidator.accept_cases event v with ⟨hacceptable, _⟩ | ⟨_, hrejected, _⟩
  · exact hacceptable
  · exact absurd (haccepted.symm.trans hrejected) (by decide)

/-- **Validated events are recorded.** A good writer whose stream does not fail appends each of them
and stays good, and so it does over any series of them, of whatever producers. -/
theorem validated_recorded {pb : Protobuf} (hpb : Sized pb) {w : LogWriter} (hw : w.good = true) :
    (∀ event arrival, Validated event → w.output.Unfailing (recordSize event) →
      (w.append pb event arrival).1 = true ∧ (w.append pb event arrival).2.good = true) ∧
    ∀ records : List (TelemetryEvent × Int64), (∀ record ∈ records, Validated record.1) →
      w.output.Unfailing (records.map fun record => recordSize record.1).sum →
      (w.appendAll pb records).good = true := by
  refine ⟨fun event arrival hevent hstream => ?_, fun records hrecords hstream => ?_⟩
  · have hready : w.Ready (recordSize event + 0) := ⟨hw, hstream⟩
    obtain ⟨w', happend, hw'⟩ :=
      LogWriter.append_ready hpb hevent.acceptable hevent.known arrival hready
    rw [happend]
    exact ⟨rfl, hw'.good⟩
  · induction records generalizing w with
    | nil => exact hw
    | cons record rest ih =>
      obtain ⟨hevent, hrest⟩ := List.forall_mem_cons.mp hrecords
      obtain ⟨w', happend, hw'⟩ := LogWriter.append_ready hpb hevent.acceptable hevent.known
        record.2 ⟨hw, hstream⟩
      rw [LogWriter.appendAll, List.foldl_cons, happend]
      exact ih hw'.good hrest hw'.unfailing

/-- A new log, and the first event of a stream. -/
theorem validated_recorded_first :
    let writer := LogWriter.create (.fresh "log" fun _ => none) {} 7
    (writer.append (Wire.protobuf []) (Wire.sampleEvent 1) 0).1 = true := by
  intro writer
  have hsized : Sized (Wire.protobuf []) := fun event _ _ => ⟨_, rfl, rfl⟩
  have hvalidated : Validated (Wire.sampleEvent 1) := ⟨rfl, {}, by decide⟩
  have hgood : writer.good = true := by decide +kernel
  have hstream : writer.output.Unfailing (recordSize (Wire.sampleEvent 1)) :=
    ⟨fun _ _ => rfl, by decide +kernel⟩
  exact ((validated_recorded hsized hgood).1 _ 0 hvalidated hstream).1

end TraceForge.Recording
