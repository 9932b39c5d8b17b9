import TraceForge.Telemetry.Event

/-! `StreamValidator` (`telemetry/validation.cpp`).

An event is checked in the source's order and the first failure names itself. `accept_cases` says
all that a call can do: it changes nothing and answers an error, or the event is `Acceptable` and
`Next` after the last one, and is counted. The summary a validator gives is therefore that of the
events it has accepted (`Tracks`). -/
namespace TraceForge.Telemetry
open Library

structure ValidationResult where
  accepted : Bool
  error : String
deriving DecidableEq

def kMaxProducerIdBytes : Nat := 128
def kMaxDetailBytes : Nat := 1024

def reject (reason : String) : ValidationResult := ⟨false, reason⟩

/-! ### One payload -/

def isFinite (vector : Vector3) : Bool :=
  vector.x.isFinite && vector.y.isFinite && vector.z.isFinite

def validatePayload (event : TelemetryEvent) : ValidationResult :=
  match event.payload with
  | some (.accelerometer value) =>
    if isFinite value then ⟨true, ""⟩ else reject "accelerometer values must be finite"
  | some (.gyroscope value) =>
    if isFinite value then ⟨true, ""⟩ else reject "gyroscope values must be finite"
  | some (.gps gps) =>
    if !gps.latitudeDegrees.isFinite || !gps.longitudeDegrees.isFinite ||
        !gps.horizontalAccuracyMeters.isFinite then
      reject "GPS values must be finite"
    else if gps.latitudeDegrees.lessThan (-90) || gps.latitudeDegrees.greaterThan 90 ||
        gps.longitudeDegrees.lessThan (-180) || gps.longitudeDegrees.greaterThan 180 then
      reject "GPS coordinates are outside valid bounds"
    else if gps.horizontalAccuracyMeters.lessThan 0 then reject "GPS accuracy cannot be negative"
    else ⟨true, ""⟩
  | some (.temperature value) =>
    if value.degreesCelsius.isFinite then ⟨true, ""⟩ else reject "temperature must be finite"
  | some (.camera camera) =>
    if camera.widthPixels = 0 || camera.heightPixels = 0 then
      reject "camera dimensions must be non-zero"
    else ⟨true, ""⟩
  | some (.controllerStatus status) =>
    if !ControllerStatus_State_IsValid status.state || status.state = STATE_UNSPECIFIED then
      reject "controller state must be specified"
    else if kMaxDetailBytes < status.detail.length then reject "controller detail is too long"
    else ⟨true, ""⟩
  | some (.fault fault) =>
    if !FaultEvent_Severity_IsValid fault.severity || fault.severity = SEVERITY_UNSPECIFIED then
      reject "fault severity must be specified"
    else if kMaxDetailBytes < fault.message.length then reject "fault message is too long"
    else ⟨true, ""⟩
  | none => reject "event payload is required"

/-! ### One stream -/

structure StreamValidator where
  producerId : List UInt8 := []
  acceptedEvents : UInt64 := 0
  firstSequenceNumber : UInt64 := 0
  lastSequenceNumber : UInt64 := 0
  sequenceGaps : UInt64 := 0
deriving DecidableEq

namespace StreamValidator

/-- What `accept` does to its fields once every check has passed. -/
def count (event : TelemetryEvent) (v : StreamValidator) : StreamValidator :=
  let v :=
    if v.acceptedEvents = 0 then
      {v with
        producerId := event.producerId
        firstSequenceNumber := event.sequenceNumber}
    else
      {v with
        sequenceGaps := v.sequenceGaps + (event.sequenceNumber - v.lastSequenceNumber - 1)}
  {v with
    lastSequenceNumber := event.sequenceNumber
    acceptedEvents := v.acceptedEvents + 1}

def accept (event : TelemetryEvent) (v : StreamValidator) : ValidationResult × StreamValidator :=
  if event.schemaVersion ≠ kTelemetrySchemaVersion then
    (reject "unsupported telemetry schema version", v)
  else if event.producerId.isEmpty then (reject "producer_id is required", v)
  else if kMaxProducerIdBytes < event.producerId.length then
    (reject "producer_id is too long", v)
  else if !ClockDomain_IsValid event.sourceClock ||
      event.sourceClock = CLOCK_DOMAIN_UNSPECIFIED then
    (reject "source clock domain is required", v)
  else if event.sourceTimestampNs ≤ 0 then (reject "source timestamp must be positive", v)
  else if !v.producerId.isEmpty && event.producerId != v.producerId then
    (reject "producer_id cannot change within a stream", v)
  else if decide (0 < v.acceptedEvents) && decide (event.sequenceNumber ≤ v.lastSequenceNumber) then
    (reject "sequence numbers must increase within a stream", v)
  else if !(validatePayload event).accepted then (validatePayload event, v)
  else (⟨true, ""⟩, v.count event)

def populateSummary (v : StreamValidator) (summary : StreamSummary) : StreamSummary :=
  {summary with
    producerId := v.producerId
    acceptedEvents := v.acceptedEvents
    firstSequenceNumber := v.firstSequenceNumber
    lastSequenceNumber := v.lastSequenceNumber
    sequenceGaps := v.sequenceGaps}

end StreamValidator

/-! ### What is accepted -/

def Payload.WellFormed : Payload → Prop
  | .accelerometer v | .gyroscope v =>
    v.x.isFinite = true ∧ v.y.isFinite = true ∧ v.z.isFinite = true
  | .gps g =>
    (g.latitudeDegrees.isFinite = true ∧ g.longitudeDegrees.isFinite = true ∧
        g.horizontalAccuracyMeters.isFinite = true) ∧
      (-90 ≤ g.latitudeDegrees.toRat ∧ g.latitudeDegrees.toRat ≤ 90) ∧
      (-180 ≤ g.longitudeDegrees.toRat ∧ g.longitudeDegrees.toRat ≤ 180) ∧
      0 ≤ g.horizontalAccuracyMeters.toRat
  | .temperature t => t.degreesCelsius.isFinite = true
  | .camera c => c.widthPixels ≠ 0 ∧ c.heightPixels ≠ 0
  | .controllerStatus s =>
    (STATE_UNSPECIFIED < s.state ∧ s.state ≤ STATE_STOPPED) ∧ s.detail.length ≤ kMaxDetailBytes
  | .fault f =>
    (SEVERITY_UNSPECIFIED < f.severity ∧ f.severity ≤ SEVERITY_CRITICAL) ∧
      f.message.length ≤ kMaxDetailBytes

/-- What the validator asks of any event, wherever it stands in its stream. -/
structure TelemetryEvent.Acceptable (event : TelemetryEvent) : Prop where
  schema : event.schemaVersion = kTelemetrySchemaVersion
  producer : event.producerId ≠ []
  producer_le : event.producerId.length ≤ kMaxProducerIdBytes
  clock : event.sourceClock = CLOCK_DOMAIN_UTC ∨ event.sourceClock = CLOCK_DOMAIN_DEVICE_MONOTONIC
  timestamp : 0 < event.sourceTimestampNs
  payload : ∃ p, event.payload = some p ∧ p.WellFormed

theorem isFinite_iff (v : Vector3) :
    isFinite v = true ↔ v.x.isFinite = true ∧ v.y.isFinite = true ∧ v.z.isFinite = true := by
  rw [isFinite, Bool.and_eq_true, Bool.and_eq_true, and_assoc]

/-- A named enumeration value other than the first. -/
theorem specified_iff {low high value : Int32} :
    (!(decide (low ≤ value) && decide (value ≤ high)) || decide (value = low)) = false ↔
      low < value ∧ value ≤ high := by
  simp only [Bool.or_eq_false_iff, Bool.not_eq_false', Bool.and_eq_true, decide_eq_true_eq,
    decide_eq_false_iff_not, Int32.le_iff_toInt_le, Int32.lt_iff_toInt_lt, ← Int32.toInt_inj]
  omega

/-- One check: the rest decides when it does not fail. -/
@[simp] theorem accepted_check {failing : Prop} [Decidable failing] (reason : String)
    (rest : ValidationResult) :
    (if failing then reject reason else rest).accepted = true ↔
      ¬failing ∧ rest.accepted = true := by
  by_cases h : failing
  · simp [h, reject]
  · simp [h]

@[simp] theorem accepted_test {passing : Prop} [Decidable passing] (reason : String) :
    (if passing then ⟨true, ""⟩ else reject reason : ValidationResult).accepted = true ↔
      passing := by
  by_cases h : passing
  · simp [h]
  · simp [h, reject]

theorem gps_in_bounds {g : GpsFix} (hlat : g.latitudeDegrees.isFinite = true)
    (hlon : g.longitudeDegrees.isFinite = true) :
    (g.latitudeDegrees.lessThan (-90) || g.latitudeDegrees.greaterThan 90 ||
        g.longitudeDegrees.lessThan (-180) || g.longitudeDegrees.greaterThan 180) = false ↔
      (-90 ≤ g.latitudeDegrees.toRat ∧ g.latitudeDegrees.toRat ≤ 90) ∧
        (-180 ≤ g.longitudeDegrees.toRat ∧ g.longitudeDegrees.toRat ≤ 180) := by
  rw [Double.lessThan_finite hlat, Double.greaterThan_finite hlat, Double.lessThan_finite hlon,
    Double.greaterThan_finite hlon]
  simp only [Bool.or_eq_false_iff, decide_eq_false_iff_not, not_lt, and_assoc]

theorem validatePayload_iff (event : TelemetryEvent) :
    (validatePayload event).accepted = true ↔ ∃ p, event.payload = some p ∧ p.WellFormed := by
  obtain ⟨_, _, _, _, _, payload, _⟩ := event
  cases payload with
  | none => simp [validatePayload, reject]
  | some p =>
    simp only [Option.some.injEq, exists_eq_left']
    cases p with
    | accelerometer v | gyroscope v =>
      simp only [validatePayload, Payload.WellFormed, accepted_test, isFinite_iff]
    | gps g =>
      simp only [validatePayload, Payload.WellFormed, accepted_check, Bool.not_eq_true, and_true]
      have hfinite : (!g.latitudeDegrees.isFinite || !g.longitudeDegrees.isFinite ||
          !g.horizontalAccuracyMeters.isFinite) = false ↔ g.latitudeDegrees.isFinite = true ∧
            g.longitudeDegrees.isFinite = true ∧ g.horizontalAccuracyMeters.isFinite = true := by
        simp [and_assoc]
      rw [hfinite]
      refine and_congr_right fun hall => ?_
      obtain ⟨hlat, hlon, hacc⟩ := hall
      rw [gps_in_bounds hlat hlon, Double.lessThan_finite hacc, decide_eq_false_iff_not, not_lt,
        and_assoc]
    | temperature t => simp only [validatePayload, Payload.WellFormed, accepted_test]
    | camera c =>
      simp only [validatePayload, Payload.WellFormed, accepted_check, Bool.or_eq_true,
        decide_eq_true_eq, not_or, and_true]
    | controllerStatus s =>
      have hstate : (!ControllerStatus_State_IsValid s.state ||
          decide (s.state = STATE_UNSPECIFIED)) = false ↔ _ := specified_iff
      simp only [validatePayload, Payload.WellFormed, accepted_check, Bool.not_eq_true, hstate,
        not_lt, and_true]
    | fault f =>
      have hseverity : (!FaultEvent_Severity_IsValid f.severity ||
          decide (f.severity = SEVERITY_UNSPECIFIED)) = false ↔ _ := specified_iff
      simp only [validatePayload, Payload.WellFormed, accepted_check, Bool.not_eq_true, hseverity,
        not_lt, and_true]

theorem clock_named {value : Int32}
    (h : (!ClockDomain_IsValid value || decide (value = CLOCK_DOMAIN_UNSPECIFIED)) = false) :
    value = CLOCK_DOMAIN_UTC ∨ value = CLOCK_DOMAIN_DEVICE_MONOTONIC := by
  simp only [ClockDomain_IsValid, Bool.or_eq_false_iff, Bool.not_eq_false', Bool.or_eq_true,
    beq_iff_eq, decide_eq_false_iff_not] at h
  obtain ⟨(h | h) | h, hne⟩ := h
  · exact absurd h hne
  · exact .inl h
  · exact .inr h

theorem validatePayload_error {event : TelemetryEvent}
    (h : (validatePayload event).accepted = false) : (validatePayload event).error ≠ "" := by
  revert h
  unfold validatePayload
  split <;> (repeat' split) <;> simp [reject]

namespace StreamValidator

/-- Where an event may stand in the stream: the same producer, a later sequence number. -/
structure Continues (v : StreamValidator) (event : TelemetryEvent) : Prop where
  producer : v.producerId = [] ∨ event.producerId = v.producerId
  sequence : v.acceptedEvents = 0 ∨ v.lastSequenceNumber < event.sequenceNumber

/-- **All that a call can do**: count an acceptable event that continues the stream, or name an
error and change nothing. -/
theorem accept_cases (event : TelemetryEvent) (v : StreamValidator) :
    event.Acceptable ∧ v.Continues event ∧ v.accept event = (⟨true, ""⟩, v.count event) ∨
      ¬(event.Acceptable ∧ v.Continues event) ∧ (v.accept event).1.accepted = false ∧
        (v.accept event).1.error ≠ "" ∧ (v.accept event).2 = v := by
  have hreject (reason : String) (hreason : reason ≠ "")
      (h : ¬(event.Acceptable ∧ v.Continues event)) :
      event.Acceptable ∧ v.Continues event ∧ (reject reason, v) = (⟨true, ""⟩, v.count event) ∨
        ¬(event.Acceptable ∧ v.Continues event) ∧ (reject reason, v).1.accepted = false ∧
          (reject reason, v).1.error ≠ "" ∧ (reject reason, v).2 = v :=
    .inr ⟨h, rfl, hreason, rfl⟩
  unfold accept
  split
  · rename_i hschema
    exact hreject _ (by decide) fun h => hschema h.1.schema
  rename_i hschema
  split
  · rename_i hproducer
    exact hreject _ (by decide) fun h => h.1.producer (List.isEmpty_iff.mp hproducer)
  rename_i hproducer
  split
  · rename_i hlong
    exact hreject _ (by decide) fun h => absurd hlong (Nat.not_lt.mpr h.1.producer_le)
  rename_i hlong
  split
  · rename_i hclock
    refine hreject _ (by decide) fun h => ?_
    rcases h.1.clock with h | h <;> rw [h] at hclock <;> exact absurd hclock (by decide)
  rename_i hclock
  split
  · rename_i htimestamp
    exact hreject _ (by decide) fun h => absurd h.1.timestamp (Int64.not_lt.mpr htimestamp)
  rename_i htimestamp
  split
  · rename_i hchange
    refine hreject _ (by decide) fun h => ?_
    rcases h.2.producer with h | h <;> simp [h] at hchange
  rename_i hchange
  split
  · rename_i horder
    refine hreject _ (by decide) fun h => ?_
    simp only [Bool.and_eq_true, decide_eq_true_eq] at horder
    rcases h.2.sequence with h | h
    · rw [h] at horder
      exact absurd horder.1 (by decide)
    · exact absurd h (UInt64.not_lt.mpr horder.2)
  rename_i horder
  split
  · rename_i hpayload
    have hrejected : (validatePayload event).accepted = false := by simpa using hpayload
    refine .inr ⟨fun h => ?_, hrejected, validatePayload_error hrejected, rfl⟩
    rw [(validatePayload_iff event).mpr h.1.payload] at hrejected
    cases hrejected
  · rename_i hpayload
    refine .inl ⟨?_, ?_, rfl⟩
    · exact
        { schema := by simpa using hschema
          producer := fun h => hproducer (List.isEmpty_iff.mpr h)
          producer_le := Nat.not_lt.mp hlong
          clock := clock_named (by simpa using hclock)
          timestamp := Int64.not_le.mp htimestamp
          payload := (validatePayload_iff event).mp (by simpa using hpayload) }
    · exact
        { producer := by
            by_cases hp : v.producerId = []
            · exact .inl hp
            · simp [hp] at hchange
              exact .inr hchange
          sequence := by
            by_cases hn : v.acceptedEvents = 0
            · exact .inl hn
            · simp [UInt64.pos_iff_ne_zero, hn] at horder
              exact .inr horder }

end StreamValidator

/-! ### The summary -/

/-- How many sequence numbers are missing between one event and the next. -/
def missing : List TelemetryEvent → Nat
  | a :: b :: rest => (b.sequenceNumber.toNat - a.sequenceNumber.toNat - 1) + missing (b :: rest)
  | _ => 0

theorem missing_append (before : List TelemetryEvent) (a b : TelemetryEvent) :
    missing (before ++ [a] ++ [b]) =
      missing (before ++ [a]) + (b.sequenceNumber.toNat - a.sequenceNumber.toNat - 1) := by
  induction before with
  | nil => simp only [List.nil_append, List.cons_append, missing, Nat.zero_add, Nat.add_zero]
  | cons c rest ih =>
    cases rest with
    | nil => simp only [List.nil_append, List.cons_append, missing, Nat.add_zero]
    | cons d rest =>
      simp only [List.cons_append, missing] at ih ⊢
      rw [ih, Nat.add_assoc]

/-- The gap before a later number is added without wrapping around, when the sum fits. -/
theorem toNat_add_gap {gaps last next : UInt64} (hlater : last.toNat < next.toNat)
    (hfit : gaps.toNat + (next.toNat - last.toNat - 1) < 2 ^ 64) :
    (gaps + (next - last - 1)).toNat = gaps.toNat + (next.toNat - last.toNat - 1) := by
  have hone : (1 : UInt64).toNat = 1 := rfl
  have hdiff : (next - last).toNat = next.toNat - last.toNat :=
    UInt64.toNat_sub_of_le _ _ (UInt64.le_iff_toNat_le.mpr (Nat.le_of_lt hlater))
  have hpos : 1 ≤ next - last := by
    rw [UInt64.le_iff_toNat_le, hdiff, hone]
    omega
  rw [UInt64.toNat_add, UInt64.toNat_sub_of_le _ _ hpos, hdiff, hone]
  exact Nat.mod_eq_of_lt hfit

/-- The summary of a stream's events. -/
structure Summarizes (summary : StreamSummary) (events : List TelemetryEvent) : Prop where
  producerId : summary.producerId = events.head?.elim [] TelemetryEvent.producerId
  acceptedEvents : summary.acceptedEvents.toNat = events.length
  firstSequenceNumber :
    summary.firstSequenceNumber = events.head?.elim 0 TelemetryEvent.sequenceNumber
  lastSequenceNumber :
    summary.lastSequenceNumber = events.getLast?.elim 0 TelemetryEvent.sequenceNumber
  sequenceGaps : summary.sequenceGaps.toNat = missing events
  oneProducer : ∀ event ∈ events, event.producerId = summary.producerId

namespace StreamValidator

/-- A validator that has accepted `events`. The numbers seen and missed fill the span from the
first to the last, so neither counter wraps around. -/
structure Tracks (v : StreamValidator) (events : List TelemetryEvent) : Prop where
  summary : Summarizes (v.populateSummary {}) events
  span : events ≠ [] →
    missing events + events.length + v.firstSequenceNumber.toNat = v.lastSequenceNumber.toNat + 1
  named : events ≠ [] → v.producerId ≠ []

theorem tracks_start : Tracks {} [] where
  summary :=
    { producerId := rfl
      acceptedEvents := rfl
      firstSequenceNumber := rfl
      lastSequenceNumber := rfl
      sequenceGaps := rfl
      oneProducer := fun _ h => absurd h List.not_mem_nil }
  span := fun h => absurd rfl h
  named := fun h => absurd rfl h

/-- **One more event** is tracked, as long as the count itself does not wrap around. -/
theorem tracks_count {v : StreamValidator} {events : List TelemetryEvent} {event : TelemetryEvent}
    (hv : v.Tracks events) (hevent : event.Acceptable) (hnext : v.Continues event)
    (hlt : events.length + 1 < 2 ^ 64) : (v.count event).Tracks (events ++ [event]) := by
  have hcount := hv.summary.acceptedEvents
  rcases List.eq_nil_or_concat events with rfl | ⟨before, last, rfl⟩
  · have hzero : v.acceptedEvents = 0 := UInt64.toNat_inj.mp hcount
    have hgaps : v.sequenceGaps.toNat = 0 := hv.summary.sequenceGaps
    simp only [count, hzero, if_true]
    exact
      { summary :=
          { producerId := rfl
            acceptedEvents := rfl
            firstSequenceNumber := rfl
            lastSequenceNumber := rfl
            sequenceGaps := hgaps
            oneProducer := fun e he => by rw [List.mem_singleton.mp he]; rfl }
        span := fun _ => by
          simp only [List.nil_append, missing, List.length_singleton]
          omega
        named := fun _ => hevent.producer }
  · rw [List.concat_eq_append] at hv hcount hlt ⊢
    have hne : before ++ [last] ≠ [] := List.append_ne_nil_of_right_ne_nil _ (by simp)
    have hspan := hv.span hne
    have hgaps : v.sequenceGaps.toNat = missing (before ++ [last]) := hv.summary.sequenceGaps
    have hlast : v.lastSequenceNumber = last.sequenceNumber :=
      hv.summary.lastSequenceNumber.trans (by rw [List.getLast?_concat]; rfl)
    have hcounted : v.acceptedEvents.toNat = before.length + 1 := by
      rw [← List.length_singleton (a := last), ← List.length_append]
      exact hcount
    have hnonzero : v.acceptedEvents ≠ 0 := by
      rintro hzero
      rw [hzero] at hcounted
      exact absurd hcounted (Nat.succ_ne_zero _).symm
    have hlater : v.lastSequenceNumber.toNat < event.sequenceNumber.toNat :=
      UInt64.lt_iff_toNat_lt.mp (hnext.sequence.resolve_left hnonzero)
    have hsame : event.producerId = v.producerId := hnext.producer.resolve_left (hv.named hne)
    have hhead : (before ++ [last] ++ [event]).head? = (before ++ [last]).head? := by
      cases before <;> rfl
    have hbound := event.sequenceNumber.toNat_lt
    have hone : (1 : UInt64).toNat = 1 := rfl
    have hmissing := missing_append before last event
    rw [← hlast] at hmissing
    have hgap : (v.sequenceGaps + (event.sequenceNumber - v.lastSequenceNumber - 1)).toNat =
        missing (before ++ [last] ++ [event]) := by
      have hfit : v.sequenceGaps.toNat +
          (event.sequenceNumber.toNat - v.lastSequenceNumber.toNat - 1) < 2 ^ 64 := by
        rw [hgaps]
        rw [List.length_append] at hspan
        omega
      rw [toNat_add_gap hlater hfit, hgaps, hmissing]
    simp only [count, if_neg hnonzero]
    exact
      { summary :=
          { producerId := by
              rw [hhead]
              exact hv.summary.producerId
            acceptedEvents := by
              simp only [populateSummary, UInt64.toNat_add, hcounted, hone, List.length_append,
                List.length_singleton]
              rw [List.length_append, List.length_singleton] at hlt
              exact Nat.mod_eq_of_lt hlt
            firstSequenceNumber := by
              rw [hhead]
              exact hv.summary.firstSequenceNumber
            lastSequenceNumber := by
              rw [List.getLast?_concat]
              rfl
            sequenceGaps := hgap
            oneProducer := fun e he => by
              rcases List.mem_append.mp he with he | he
              · exact hv.summary.oneProducer e he
              · rw [List.mem_singleton.mp he]
                exact hsame }
        span := fun _ => by
          have hfirst := hspan
          simp only [List.length_append, List.length_singleton] at hfirst ⊢
          rw [hmissing]
          omega
        named := fun _ => hv.named hne }

end StreamValidator

end TraceForge.Telemetry
