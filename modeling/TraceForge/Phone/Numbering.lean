import TraceForge.Phone.Ownership
import TraceForge.Telemetry.ValidationHistory

/-! The numbers a session carries.

The counter is shared by all sensors and advances even when a publish throws, but while a stream
is held every publish adds to it, and the counter starts over when another stream is stored. So
the counter is the length of the held stream (`Numbering`), every stream counts from zero, and the
collector's validator takes it whole. -/
namespace TraceForge.Phone
open Library Telemetry

/-- Events as one encoder makes them, counted from zero. -/
structure Numbered (producerId : List UInt8) (events : List TelemetryEvent) : Prop where
  numbers : events.map TelemetryEvent.sequenceNumber =
    (List.range events.length).map UInt64.ofNat
  encoded : ∀ event ∈ events, event.producerId = producerId ∧
    event.schemaVersion = kTelemetrySchemaVersion ∧ event.sourceClock = CLOCK_DOMAIN_UTC

variable {producerId : List UInt8}

theorem numbered_nil : Numbered producerId [] := ⟨rfl, fun _ h => absurd h List.not_mem_nil⟩

theorem Numbered.snoc {events : List TelemetryEvent} (h : Numbered producerId events)
    (encoder : TelemetryEncoder) (hencoder : encoder.producerId = producerId)
    (sourceTimestamp : Int64) (payload : Payload) :
    Numbered producerId (events ++
      [encoder.baseEvent sourceTimestamp (UInt64.ofNat events.length) payload]) where
  numbers := by
    rw [List.map_append, h.numbers, List.length_append, List.length_singleton, List.range_succ,
      List.map_append]
    rfl
  encoded event hevent := by
    rcases List.mem_append.mp hevent with hold | hnew
    · exact h.encoded event hold
    · rw [List.mem_singleton.mp hnew]
      exact ⟨hencoder, rfl, rfl⟩

namespace GrpcTelemetryPublisher

/-- Every stream is numbered, and the counter is where the held one ends. -/
structure Numbering (producerId : List UInt8) (p : GrpcTelemetryPublisher) : Prop where
  consistent : p.Consistent True
  encoder : p.encoder.producerId = producerId
  numbered : ∀ (n : Nat) (c : Connection), p.connections[n]? = some c →
    Numbered producerId c.added
  next : ∀ (n : Nat) (c : Connection), p.events = some n → p.connections[n]? = some c →
    p.nextSequenceNumber = UInt64.ofNat c.added.length

variable {p q : GrpcTelemetryPublisher}

theorem numbering_initial (producerId : List UInt8) :
    (initial producerId).Numbering producerId where
  consistent := consistent_initial producerId
  encoder := rfl
  numbered _ _ h := by cases h
  next _ _ h := by cases h

theorem start_numbering (h : p.Numbering producerId) (hq : p.start.Consistent True) :
    p.start.Numbering producerId := by
  unfold start at hq ⊢
  split at hq
  · rename_i hheld
    rw [if_pos hheld]
    exact h
  · rename_i hnone
    rw [if_neg hnone]
    have hnone : p.events = none := by simpa using hnone
    exact
      { consistent := hq
        encoder := h.encoder
        numbered := fun n c hc => by
          rcases append_at hc with ⟨_, rfl⟩ | hold
          · exact numbered_nil
          · exact h.numbered n c hold
        next := fun n c hn => by cases hnone.symm.trans hn }

theorem stop_numbering (h : p.Numbering producerId) (hq : p.stop.Consistent True) :
    p.stop.Numbering producerId := by
  cases hevents : p.events with
  | none =>
    simp only [stop, hevents]
    exact h
  | some n =>
    obtain ⟨added, hn⟩ := h.consistent.of_held hevents
    have hclosed : (p.connections.modify n fun c => {c with eventsClosed := true})[n]? =
        some ⟨false, true, added, []⟩ := by
      rw [List.getElem?_modify_eq, hn]
      rfl
    have hcompletion := h.consistent.completion.trans hevents
    have hchannel := h.consistent.channel.trans hevents
    simp only [stop, hevents, hcompletion, hchannel] at hq ⊢
    exact
      { consistent := hq
        encoder := h.encoder
        numbered := fun m c hc => by
          rcases modify_at hclosed hc with ⟨_, rfl⟩ | ⟨hne, hc⟩
          · have hnumbered := h.numbered n _ hn
            exact hnumbered
          · have hold := (modify_at hn hc).resolve_left fun heq => hne heq.1
            exact h.numbered m c hold.2
        next := fun m c hm => by cases hm }

/-- A publish: the counter advances, and the event is added to the held stream if there is one. -/
theorem publish_numbering (h : p.Numbering producerId) (sourceTimestamp : Int64)
    (payload : Payload) :
    (p.advance.add
      (p.encoder.baseEvent sourceTimestamp p.nextSequenceNumber payload)).Numbering producerId := by
  have hconsistent := add_consistent h.consistent.advance
    (p.encoder.baseEvent sourceTimestamp p.nextSequenceNumber payload)
  rcases Option.eq_none_or_eq_some p.events with hevents | ⟨n, hevents⟩
  · have hnone : p.advance.events = none := hevents
    rw [add_none hnone] at hconsistent ⊢
    exact
      { consistent := hconsistent
        encoder := h.encoder
        numbered := h.numbered
        next := fun n c hn => by cases hevents.symm.trans hn }
  · obtain ⟨added, hn⟩ := h.consistent.of_held hevents
    have hnext : p.nextSequenceNumber = UInt64.ofNat added.length := h.next n _ hevents hn
    have hheld : p.advance.events = some n := hevents
    rw [add_held hheld] at hconsistent ⊢
    exact
      { consistent := hconsistent
        encoder := h.encoder
        numbered := fun m c hc => by
          rcases modify_at hn hc with ⟨rfl, rfl⟩ | ⟨_, hold⟩
          · rw [hnext]
            exact (h.numbered m _ hn).snoc p.encoder h.encoder sourceTimestamp payload
          · exact h.numbered m c hold
        next := fun m c hm hc => by
          cases hevents.symm.trans hm
          rcases modify_at hn hc with ⟨_, rfl⟩ | ⟨hne, _⟩
          · show p.nextSequenceNumber + 1 = UInt64.ofNat (added ++ [_]).length
            rw [hnext, List.length_append, UInt64.ofNat_add]
            rfl
          · exact absurd rfl hne }

/-- **Every action** keeps the numbers. -/
theorem step_numbering {action : PublisherAction} (h : p.Numbering producerId)
    (hstep : p.step action = some q) : q.Numbering producerId := by
  have hq := step_consistent h.consistent (.inl trivial) hstep
  cases action with
  | start =>
    cases hstep
    exact start_numbering h hq
  | stop =>
    cases hstep
    exact stop_numbering h hq
  | publishMotion sample =>
    cases hstep
    exact publish_numbering h _ _
  | publishLocation sample =>
    cases hstep
    exact publish_numbering h _ _
  | completed n await outcome =>
    obtain ⟨c, d, hc, _, hunheld, _, hnone, hadded, rfl⟩ := completed_cases h.consistent hstep
    have hnumbered : ∀ (m : Nat) (e : Connection), (p.connections.set n d)[m]? = some e →
        Numbered producerId e.added := by
      intro m e he
      rcases set_at he with ⟨_, rfl⟩ | ⟨_, hold⟩
      · rw [hadded]
        exact h.numbered n c hc
      · exact h.numbered m e hold
    split
    · rename_i hcancel
      rw [if_pos hcancel] at hq
      exact
        { consistent := hq
          encoder := h.encoder
          numbered := hnumbered
          next := fun m e hm he => by
            cases hm
            rcases set_at he with ⟨_, rfl⟩ | ⟨hne, _⟩
            · rw [hnone hcancel]
              rfl
            · exact absurd rfl hne }
    · rename_i hcancel
      rw [if_neg hcancel] at hq
      exact
        { consistent := hq
          encoder := h.encoder
          numbered := hnumbered
          next := fun m e hm he => by
            rcases set_at he with ⟨rfl, _⟩ | ⟨_, hold⟩
            · exact absurd hm hunheld
            · exact h.next m e hm hold }

end GrpcTelemetryPublisher

open GrpcTelemetryPublisher

/-- **Every session is gap-free for the collector**, in any order of calls and completions: its
events count from zero and carry one producer id. A fresh validator accepts all of them and finds
no gap, when what the encoder passes on is valid. -/
theorem session_gap_free (producerId : List UInt8) (actions : List PublisherAction)
    (p : GrpcTelemetryPublisher)
    (hrun : (publisher producerId).run (initial producerId) actions = some p)
    (n : Nat) (session : Connection) (hsession : p.connections[n]? = some session) :
    session.added.map TelemetryEvent.sequenceNumber =
        (List.range session.added.length).map UInt64.ofNat ∧
      (∀ event ∈ session.added, event.producerId = producerId) ∧
      (producerId ≠ [] → producerId.length ≤ kMaxProducerIdBytes →
        (∀ event ∈ session.added, 0 < event.sourceTimestampNs ∧
          ∃ payload, event.payload = some payload ∧ payload.WellFormed) →
        let s := Offered.offerAll session.added
        s.accepted = session.added ∧
          s.validator.acceptedEvents = UInt64.ofNat session.added.length ∧
          s.validator.sequenceGaps = 0) := by
  have h := Machine.run_invariant (Numbering producerId)
    (fun _ _ _ h hstep => step_numbering h hstep) (numbering_initial producerId) hrun
  have hnumbered := h.numbered n session hsession
  refine ⟨hnumbered.numbers, fun event he => (hnumbered.encoded event he).1,
    fun hne hle hvalid => ?_⟩
  have hevents : ∀ event ∈ session.added, event.Acceptable ∧ event.producerId = producerId := by
    intro event he
    obtain ⟨hproducer, hschema, hclock⟩ := hnumbered.encoded event he
    obtain ⟨htimestamp, hpayload⟩ := hvalid event he
    refine ⟨?_, hproducer⟩
    exact
      { schema := hschema
        producer := hproducer ▸ hne
        producer_le := hproducer ▸ hle
        clock := .inl hclock
        timestamp := htimestamp
        payload := hpayload }
  obtain ⟨haccepted, hcount, hgaps, _⟩ :=
    Offered.offerAll_counting producerId session.added hevents hnumbered.numbers
  exact ⟨haccepted, hcount, hgaps⟩

/-- Two samples published in a session, and one before it that throws. -/
theorem session_gap_free_two :
    let sample : MotionSample := ⟨.gyroscope, ⟨0⟩, ⟨0⟩, ⟨0⟩, 5⟩
    let actions : List PublisherAction :=
      [.publishMotion sample, .start, .completed 0 .ready .value, .completed 0 .cancel .value,
        .publishMotion sample, .publishMotion sample]
    ∃ p session, (publisher [0x70]).run (initial [0x70]) actions = some p ∧
      p.connections[0]? = some session ∧ session.added.length = 2 ∧
      (Offered.offerAll session.added).validator.acceptedEvents = 2 ∧
      (Offered.offerAll session.added).validator.sequenceGaps = 0 := by
  intro sample actions
  refine ⟨_, _, rfl, rfl, rfl, ?_⟩
  have h := (session_gap_free [0x70] actions _ rfl 0 _ rfl).2.2 (by decide) (by decide) (by
    intro event he
    have hevent : ∃ number, event = TelemetryEncoder.encodeMotion ⟨[0x70]⟩ sample number := by
      rcases List.mem_cons.mp he with rfl | he
      · exact ⟨_, rfl⟩
      · rw [List.mem_singleton.mp he]
        exact ⟨_, rfl⟩
    obtain ⟨number, rfl⟩ := hevent
    have hfinite : (⟨0⟩ : Double).isFinite = true := by decide
    exact ⟨show (0 : Int64) < 5 * 1000 by decide, _, rfl, hfinite, hfinite, hfinite⟩)
  exact ⟨h.2.1, h.2.2⟩

end TraceForge.Phone
