import TraceForge.Replay.Window

/-! The result of a replay, whoever listens.

Neither the speed nor a consumer that accepts every record moves the result: two replays of one
window make the same of every payload, also of a file that was changed (`replay_result`). -/
namespace TraceForge.Replay
open Library Telemetry Recording

/-- No record is rejected. -/
def Accepting (consumer : ReplayConsumer) : Prop :=
  ∀ consume, consumer = some consume → ∀ calls r, consume calls r = true

theorem accepting_none : Accepting none := fun _ h => by cases h

theorem Accepting.all {consumer : ReplayConsumer} (h : Accepting consumer) (calls : List LogRecord)
    (record : LogRecord) : (consumer.all fun consume => consume calls record) = true := by
  cases consumer with
  | none => rfl
  | some consume => exact h consume rfl calls record

/-! ### One delivery -/

section Deliver
variable {pb : Protobuf} {entry : LogIndexEntry} {payload : List UInt8}

/-- The result of a delivery and whether the replay goes on. -/
def outcome (delivered : Except Delivery Delivery) : ReplayResult × Bool :=
  match delivered with
  | .error d => (d.result, false)
  | .ok d => (d.result, true)

/-- **Two accepted deliveries** of a payload have the same outcome. -/
theorem outcome_deliver {options options' : ReplayOptions} {consumer consumer' : ReplayConsumer}
    (hconsumer : Accepting consumer) (hconsumer' : Accepting consumer') {d d' : Delivery}
    (h : d.result = d'.result) :
    outcome (d.deliver pb options consumer entry payload) =
      outcome (d'.deliver pb options' consumer' entry payload) := by
  by_cases hintact : ∃ event, Intact pb entry payload event
  · obtain ⟨event, hintact⟩ := hintact
    rw [deliver_intact options consumer hintact, deliver_intact options' consumer' hintact,
      if_pos (hconsumer.all _ _), if_pos (hconsumer'.all _ _)]
    simp only [outcome, Delivery.count, Delivery.offer, h]
  · unfold Delivery.deliver
    split
    · exact congrArg (fun r : ReplayResult => ({r with
        status := .logError
        message := "record payload changed after index construction"}, false)) h
    rename_i hcrc
    cases hparse : pb.parseFromArray payload with
    | none =>
      exact congrArg (fun r : ReplayResult => ({r with
        status := .logError
        message := "indexed telemetry payload is no longer valid"}, false)) h
    | some event =>
      have hinvalid : event.schemaVersion ≠ kTelemetrySchemaVersion ∨
          event.sourceTimestampNs ≠ entry.sourceTimestampNs := by
        by_contra hvalid
        exact hintact ⟨event, not_not.mp hcrc, hparse, hvalid⟩
      simp only [if_pos hinvalid, outcome, Delivery.finish, h]

/-- A delivery leaves the number of indexed records alone. -/
theorem deliver_indexedRecords (options : ReplayOptions) (consumer : ReplayConsumer)
    (d : Delivery) :
    (outcome (d.deliver pb options consumer entry payload)).1.indexedRecords =
      d.result.indexedRecords := by
  by_cases hintact : ∃ event, Intact pb entry payload event
  · obtain ⟨event, hintact⟩ := hintact
    rw [deliver_intact options consumer hintact]
    split <;> rfl
  · obtain ⟨status, message, _, hbroken⟩ :=
      deliver_broken options consumer (not_exists.mp hintact) d
    rw [hbroken]
    rfl

/-- Nobody is called when nobody listens. -/
theorem deliver_unheard (options : ReplayOptions) (d : Delivery) :
    match d.deliver pb options none entry payload with
    | .error d' => d'.calls = d.calls
    | .ok d' => d'.calls = d.calls := by
  by_cases hintact : ∃ event, Intact pb entry payload event
  · obtain ⟨event, hintact⟩ := hintact
    rw [deliver_intact options none hintact, Option.all_none, if_pos rfl]
    exact List.append_nil _
  · obtain ⟨status, message, _, hbroken⟩ :=
      deliver_broken options none (not_exists.mp hintact) d
    rw [hbroken]
    rfl

end Deliver

/-! ### Every delivery -/

section Run
variable {pb : Protobuf} {options options' : ReplayOptions} {consumer consumer' : ReplayConsumer}

theorem replayRecords_result
    (huntil : options.untilCollectorTimestampNs = options'.untilCollectorTimestampNs)
    (hconsumer : Accepting consumer) (hconsumer' : Accepting consumer') (skips : Bool)
    (entries : List LogIndexEntry) (c : Cursor) {d d' : Delivery} (h : d.result = d'.result) :
    (replayRecords pb options consumer skips entries c d).result =
      (replayRecords pb options' consumer' skips entries c d').result := by
  induction entries generalizing c d d' with
  | nil => simp only [replayRecords, Delivery.finish, h]
  | cons entry rest ih =>
    have hpast : pastWindow options entry = pastWindow options' entry := by
      rw [pastWindow, pastWindow, huntil]
    rw [replayRecords, replayRecords, hpast]
    split
    · simp only [Delivery.finish, h]
    generalize c.payload skips entry = read
    obtain ⟨payload, c'⟩ := read
    cases payload with
    | none => simp only [Delivery.finish, h]
    | some payload =>
      have hone : outcome (d.deliver pb options consumer entry payload) =
          outcome (d'.deliver pb options' consumer' entry payload) :=
        outcome_deliver hconsumer hconsumer' h
      simp only
      cases hleft : d.deliver pb options consumer entry payload <;>
        cases hright : d'.deliver pb options' consumer' entry payload <;>
        rw [hleft, hright] at hone <;> simp only [outcome, Prod.mk.injEq] at hone
      · exact hone.1
      · exact absurd hone.2 (by decide)
      · exact absurd hone.2 (by decide)
      · exact ih c' hone.1

theorem replayRecords_indexed (skips : Bool) (entries : List LogIndexEntry) (c : Cursor)
    (d : Delivery) :
    (replayRecords pb options consumer skips entries c d).result.indexedRecords =
      d.result.indexedRecords := by
  induction entries generalizing c d with
  | nil => rfl
  | cons entry rest ih =>
    rw [replayRecords]
    split
    · rfl
    generalize c.payload skips entry = read
    obtain ⟨payload, c'⟩ := read
    cases payload with
    | none => rfl
    | some payload =>
      have hone : (outcome (d.deliver pb options consumer entry payload)).1.indexedRecords =
        d.result.indexedRecords := deliver_indexedRecords options consumer d
      simp only
      cases hdeliver : d.deliver pb options consumer entry payload with
      | error d' =>
        rw [hdeliver] at hone
        exact hone
      | ok d' =>
        rw [hdeliver] at hone
        exact (ih c' d').trans hone

theorem replayRecords_unheard (skips : Bool) (entries : List LogIndexEntry) (c : Cursor)
    (d : Delivery) : (replayRecords pb options none skips entries c d).calls = d.calls := by
  induction entries generalizing c d with
  | nil => rfl
  | cons entry rest ih =>
    rw [replayRecords]
    split
    · rfl
    generalize c.payload skips entry = read
    obtain ⟨payload, c'⟩ := read
    cases payload with
    | none => rfl
    | some payload =>
      have hone : match d.deliver pb options none entry payload with
          | .error d' => d'.calls = d.calls
          | .ok d' => d'.calls = d.calls := deliver_unheard options d
      simp only
      cases hdeliver : d.deliver pb options none entry payload with
      | error d' =>
        rw [hdeliver] at hone
        exact hone
      | ok d' =>
        rw [hdeliver] at hone
        exact (ih c' d').trans hone

end Run

/-! ### A replay -/

section Replay
variable {pb : Protobuf} {options options' : ReplayOptions} {consumer consumer' : ReplayConsumer}

/-- **Speed and listening do not matter**: two replays of the same window, at any speeds that a
replay accepts and to any consumers that accept every record, have the same result, whatever has
become of the file. -/
theorem replay_result
    (hfrom : options.fromCollectorTimestampNs = options'.fromCollectorTimestampNs)
    (huntil : options.untilCollectorTimestampNs = options'.untilCollectorTimestampNs)
    (hspeed : (!options.speed.isFinite || options.speed.lessThan 0) =
      (!options'.speed.isFinite || options'.speed.lessThan 0))
    (hconsumer : Accepting consumer) (hconsumer' : Accepting consumer') (content : Option File)
    (engine : ReplayEngine) :
    (engine.replay pb content options consumer).result =
      (engine.replay pb content options' consumer').result := by
  have hcurrent : engine.current options = engine.current options' := by
    rw [ReplayEngine.current, ReplayEngine.current, hfrom]
  unfold ReplayEngine.replay ReplayEngine.replayWith
  rw [hspeed, hfrom, huntil, hcurrent]
  split
  · rfl
  split
  · rfl
  split
  · rfl
  cases content with
  | none => rfl
  | some file => exact replayRecords_result huntil hconsumer hconsumer' true _ _ rfl

theorem replay_indexed (content : Option File) (engine : ReplayEngine) :
    (engine.replay pb content options consumer).result.indexedRecords =
      UInt64.ofNat engine.index.length := by
  unfold ReplayEngine.replay ReplayEngine.replayWith
  split
  · rfl
  split
  · rfl
  split
  · rfl
  cases content with
  | none => rfl
  | some file => exact replayRecords_indexed ..

theorem replay_unheard (content : Option File) (engine : ReplayEngine) :
    (engine.replay pb content options none).calls = [] := by
  unfold ReplayEngine.replay ReplayEngine.replayWith
  split
  · rfl
  split
  · rfl
  split
  · rfl
  cases content with
  | none => rfl
  | some file => exact replayRecords_unheard ..

end Replay

end TraceForge.Replay
