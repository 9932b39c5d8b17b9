import TraceForge.Generator.Delivery
import TraceForge.Generator.Schedule

/-! The events a generator makes, before they are sorted.

Every payload is well formed: its numbers are short binary fractions, so that nothing is rounded,
and a position does not leave the globe before the events run out. One turn of a producer's loop
makes its `Series` one event longer, whatever is drawn meanwhile, and the loops together make one
series of each producer (`sensors_made`). -/
namespace TraceForge.Generator
open Library Telemetry
open Signed Double

/-! ### Payloads -/

theorem is_toDouble {n : UInt64} (h : n.toNat < 2 ^ 53) : (toDouble n).Is n.toNat :=
  is_ofRat ⟨n.toNat, 0, by simpa using h, by omega, by simp⟩

/-- A number over a power of two needs no rounding. -/
theorem is_fraction {n : UInt64} {unit : ℚ} (k : ℕ) (hunit : unit = 2 ^ k) (hk : k ≤ 52)
    (hn : n.toNat < 2 ^ 53) : ((toDouble n).div (.ofRat unit)).Is (n.toNat / 2 ^ k) := by
  have hdenominator : (ofRat unit).Is (2 ^ k) := by
    rw [hunit]
    refine is_ofRat ⟨2 ^ k, 0, ?_, by omega, by simp⟩
    rw [Int.natAbs_pow]
    exact Nat.pow_lt_pow_right (by omega) (by omega)
  refine (is_toDouble hn).div hdenominator ⟨n.toNat, k, by simpa using hn, by omega, ?_⟩
  rw [abs_of_nonneg (by positivity)]
  rfl

/-- Nor does such a number together with a constant that has as few digits. -/
theorem is_sum {n : UInt64} {constant unit : ℚ} (m : ℤ) (k : ℕ) (hconstant : constant = m / 2 ^ k)
    (hunit : unit = 2 ^ k) (hk : k ≤ 52) (hsmall : m.natAbs + n.toNat < 2 ^ 53) :
    ((Double.ofRat constant).add ((toDouble n).div (.ofRat unit))).Is
      (constant + n.toNat / 2 ^ k) := by
  have hfirst : (ofRat constant).Is constant :=
    is_ofRat ⟨m, k, by omega, by omega, hconstant⟩
  refine hfirst.add (is_fraction k hunit hk (by omega)) ⟨m + n.toNat, k, by omega, by omega, ?_⟩
  rw [hconstant]
  push_cast
  ring

theorem mod_lt_of {n m : UInt64} {k : ℕ} (hm : m.toNat = k) (hpos : 0 < k) :
    (n % m).toNat < k := by
  rw [UInt64.toNat_mod, hm]
  exact Nat.mod_lt _ hpos

theorem accelerometer_wellFormed (sequence : UInt64) (random : PortableRandom) :
    (accelerometerPayload sequence random).1.WellFormed := by
  have hcentred {n : UInt64} (hn : n.toNat < 32) :
      (((toDouble n).div (.ofRat 16)).sub (.ofRat 1)).isFinite = true := by
    have hone : (ofRat 1).Is 1 := is_ofRat ⟨1, 0, by decide, by omega, by simp⟩
    have hfraction := is_fraction (n := n) 4 (show (16 : ℚ) = 2 ^ 4 by norm_num) (by omega)
      (by omega)
    refine (hfraction.sub hone ⟨n.toNat - 16, 4, by omega, by omega, ?_⟩).isFinite
    push_cast
    ring
  have hz : (sequence % 8).toNat < 8 := mod_lt_of rfl (by omega)
  exact ⟨hcentred (mod_lt_of rfl (by omega)), hcentred (mod_lt_of rfl (by omega)),
    (is_sum 1256 7 (by norm_num) (by norm_num) (by omega) (by omega)).isFinite⟩

theorem gyroscope_wellFormed (sequence : UInt64) (random : PortableRandom) :
    (gyroscopePayload sequence random).1.WellFormed := by
  have hfalling {n : UInt64} (hn : n.toNat < 8) :
      ((toDouble n).neg.div (.ofRat 256)).isFinite = true := by
    have hdenominator : (ofRat 256).Is 256 := is_ofRat ⟨256, 0, by decide, by omega, by simp⟩
    have hnumerator := (is_toDouble (n := n) (by omega)).neg
    refine (hnumerator.div hdenominator ⟨n.toNat, 8, by omega, by omega, ?_⟩).isFinite
    rw [neg_div, abs_neg, abs_of_nonneg (by positivity)]
    norm_num
  have hx : (sequence % 16).toNat < 16 := mod_lt_of rfl (by omega)
  have hz : (sequence % 4).toNat < 4 := mod_lt_of rfl (by omega)
  exact ⟨(is_fraction 8 (by norm_num) (by omega) (by omega)).isFinite,
    hfalling (mod_lt_of rfl (by omega)),
    (is_fraction 7 (by norm_num) (by omega) (by omega)).isFinite⟩

theorem camera_wellFormed (sequence : UInt64) (random : PortableRandom) :
    (cameraPayload sequence random).1.WellFormed :=
  ⟨show (1920 : UInt32) ≠ 0 by decide, show (1080 : UInt32) ≠ 0 by decide⟩

theorem temperature_wellFormed (sequence : UInt64) (random : PortableRandom) :
    (temperaturePayload sequence random).1.WellFormed := by
  have hn : (sequence % 16).toNat < 16 := mod_lt_of rfl (by omega)
  exact (is_sum 640 4 (by norm_num) (by norm_num) (by omega) (by omega)).isFinite

/-- **A position** moves with the sequence number, and stays on the globe for as many events as a
workload can have. -/
theorem gps_wellFormed {sequence : UInt64} (h : sequence.toNat ≤ 2000000)
    (random : PortableRandom) : (gpsPayload sequence random).1.WellFormed := by
  have hn : (sequence % 4).toNat < 4 := mod_lt_of rfl (by omega)
  have hlatitude := is_sum (n := sequence) 1941504 16
    (show (29.625 : ℚ) = 1941504 / 2 ^ 16 by norm_num)
    (show (65536 : ℚ) = 2 ^ 16 by norm_num) (by omega) (by omega)
  have hlongitude := is_sum (n := sequence) (-5398528) 16
    (show (-82.375 : ℚ) = (-5398528 : ℤ) / 2 ^ 16 by norm_num)
    (show (65536 : ℚ) = 2 ^ 16 by norm_num) (by omega) (by omega)
  have haccuracy := is_sum (n := sequence % 4) 12 2 (show (3 : ℚ) = (12 : ℤ) / 2 ^ 2 by norm_num)
    (show (4 : ℚ) = 2 ^ 2 by norm_num) (by omega) (by omega)
  have hmoved : (0 : ℚ) ≤ sequence.toNat / 2 ^ 16 ∧ (sequence.toNat : ℚ) / 2 ^ 16 ≤ 31 := by
    refine ⟨by positivity, ?_⟩
    rw [div_le_iff₀ (by positivity)]
    exact_mod_cast Nat.le_trans h (by norm_num)
  refine ⟨⟨hlatitude.isFinite, hlongitude.isFinite, haccuracy.isFinite⟩, ?_, ?_, ?_⟩
  · show -90 ≤ (Double.toRat _) ∧ (Double.toRat _) ≤ 90
    rw [hlatitude.toRat]
    constructor <;> linarith
  · show -180 ≤ (Double.toRat _) ∧ (Double.toRat _) ≤ 180
    rw [hlongitude.toRat]
    constructor <;> linarith
  · show 0 ≤ Double.toRat _
    rw [haccuracy.toRat]
    positivity

theorem fault_wellFormed (sequence : UInt64) (random : PortableRandom) :
    (faultPayload sequence random).1.WellFormed := by
  have hlevel (severity : Int32) (h : severity = SEVERITY_WARNING ∨ severity = SEVERITY_ERROR ∨
      severity = SEVERITY_CRITICAL) :
      (SEVERITY_UNSPECIFIED < severity ∧ severity ≤ SEVERITY_CRITICAL) ∧
        (utf8 (faultMessage severity)).length ≤ kMaxDetailBytes := by
    rcases h with rfl | rfl | rfl <;> decide
  simp only [faultPayload, Payload.WellFormed]
  refine hlevel _ ?_
  split
  · exact .inl rfl
  · split
    · exact .inr (.inl rfl)
    · exact .inr (.inr rfl)

/-! ### Sensors -/

/-- A producer that may be named in an event. -/
def Named (producer : List UInt8) : Prop :=
  producer ≠ [] ∧ producer.length ≤ kMaxProducerIdBytes

instance (producer : List UInt8) : Decidable (Named producer) :=
  inferInstanceAs (Decidable (_ ∧ _))

structure Sensor.Proper (sensor : Sensor) : Prop where
  named : Named sensor.producerId
  rate : ∀ rates : SensorRates, sensor.rateHz rates ∈ rates.all
  payload : ∀ (sequence : UInt64) (random : PortableRandom), sequence.toNat ≤ 2000000 →
    (sensor.populatePayload sequence random).1.WellFormed

theorem sensors_proper : ∀ sensor ∈ sensors, sensor.Proper := by
  simp only [sensors, List.forall_mem_cons, List.not_mem_nil, false_imp_iff, implies_true, and_true]
  refine ⟨⟨by decide, ?_, fun sequence random _ => accelerometer_wellFormed sequence random⟩,
    ⟨by decide, ?_, fun sequence random _ => gyroscope_wellFormed sequence random⟩,
    ⟨by decide, ?_, fun sequence random _ => camera_wellFormed sequence random⟩,
    ⟨by decide, ?_, fun _ random h => gps_wellFormed h random⟩,
    ⟨by decide, ?_, fun sequence random _ => temperature_wellFormed sequence random⟩,
    ⟨by decide, ?_, fun sequence random _ => fault_wellFormed sequence random⟩⟩ <;>
    simp [SensorRates.all]

/-! ### Series -/

/-- The time on the clock, when it should have gone `elapsed` nanoseconds since the start. -/
def timestampAt (config : GeneratorConfig) (elapsed : ℤ) : ℤ :=
  1700000000000000000 + drifted elapsed config.clockDriftPpm.toInt

/-- All the events of one producer, in the order in which they are made. -/
structure Series (producer : List UInt8) (events : List TelemetryEvent) : Prop where
  acceptable : ∀ event ∈ events, event.Acceptable
  oneProducer : ∀ event ∈ events, event.producerId = producer
  numbers : events.map TelemetryEvent.sequenceNumber =
    (List.range events.length).map UInt64.ofNat
  inOrder : events.Pairwise fun a b => a.sourceTimestampNs ≤ b.sourceTimestampNs

def EndsBy (config : GeneratorConfig) (elapsed : ℤ) (events : List TelemetryEvent) : Prop :=
  ∀ event ∈ events, event.sourceTimestampNs.toInt ≤ timestampAt config elapsed

theorem timestampAt_mono {config : GeneratorConfig} (h : InBounds config) {elapsed later : ℤ}
    (hpos : 0 ≤ elapsed) (hle : elapsed ≤ later) :
    timestampAt config elapsed ≤ timestampAt config later :=
  Int.add_le_add_left (drifted_mono hpos hle h.drift_ge) _

theorem EndsBy.later {config : GeneratorConfig} (h : InBounds config) {elapsed later : ℤ}
    {events : List TelemetryEvent} (hends : EndsBy config elapsed events) (hpos : 0 ≤ elapsed)
    (hle : elapsed ≤ later) : EndsBy config later events :=
  fun event hevent => Int.le_trans (hends event hevent) (timestampAt_mono h hpos hle)

theorem series_nil (producer : List UInt8) : Series producer [] where
  acceptable _ h := absurd h List.not_mem_nil
  oneProducer _ h := absurd h List.not_mem_nil
  numbers := rfl
  inOrder := .nil

/-- One more event, numbered next and no earlier. -/
theorem Series.snoc {producer : List UInt8} {events : List TelemetryEvent}
    {event : TelemetryEvent} (h : Series producer events) (hacceptable : event.Acceptable)
    (hproducer : event.producerId = producer)
    (hnumber : event.sequenceNumber = UInt64.ofNat events.length)
    (hlater : ∀ e ∈ events, e.sourceTimestampNs ≤ event.sourceTimestampNs) :
    Series producer (events ++ [event]) where
  acceptable := List.forall_mem_append.mpr ⟨h.acceptable, by simpa using hacceptable⟩
  oneProducer := List.forall_mem_append.mpr ⟨h.oneProducer, by simpa using hproducer⟩
  numbers := by
    rw [List.map_append, h.numbers, List.length_append, List.length_singleton, List.range_succ,
      List.map_append, List.map_singleton, List.map_singleton, hnumber]
  inOrder :=
    List.pairwise_append.mpr ⟨h.inOrder, List.pairwise_singleton .., by simpa using hlater⟩

/-! ### One event -/

/-- The event that a turn of the loop makes when there is no jitter. -/
def dueEvent (config : GeneratorConfig) (producer : List UInt8) (number : UInt64)
    (elapsedNs : Int64) (payload : Payload) : TelemetryEvent where
  schemaVersion := kTelemetrySchemaVersion
  producerId := producer
  sequenceNumber := number
  sourceTimestampNs := kBaseTimestampNs + applyClockDrift elapsedNs config.clockDriftPpm + 0
  sourceClock := CLOCK_DOMAIN_UTC
  payload := some payload

theorem toInt_dueEvent {config : GeneratorConfig} (h : InBounds config) {elapsedNs : Int64}
    (hpos : 0 ≤ elapsedNs.toInt) (hlatest : elapsedNs.toInt ≤ kLatest) (producer : List UInt8)
    (number : UInt64) (payload : Payload) :
    (dueEvent config producer number elapsedNs payload).sourceTimestampNs.toInt =
      timestampAt config elapsedNs.toInt := by
  have hbase : kBaseTimestampNs.toInt = 1700000000000000000 := rfl
  have hdrift := toInt_applyClockDrift hpos hlatest h.drift_ge h.drift_le
  have hlow := drifted_mono (Int.le_refl 0) hpos h.drift_ge
  have hhigh := drifted_le hpos h.drift_le
  have hzero : drifted 0 config.clockDriftPpm.toInt = 0 := by simp [drifted]
  unfold kLatest at hlatest
  rw [dueEvent, Int64.add_zero, toInt_add (by rw [hbase, hdrift]; constructor <;> omega), hbase,
    hdrift]
  rfl

theorem appendEvent_eq {config : GeneratorConfig} (hjitter : config.maxJitter = 0)
    (producer : List UInt8) (number : UInt64) (elapsedNs : Int64)
    (populatePayload : PopulatePayload) (events : List TelemetryEvent) (random : PortableRandom) :
    appendEvent producer number elapsedNs config populatePayload (events, random) =
      .ok (events ++ [dueEvent config producer number elapsedNs (populatePayload number random).1],
        (populatePayload number random).2) := by
  rw [appendEvent, baseEvent, hjitter]
  rfl

/-- **One turn of a producer's loop** makes its series one event longer. -/
theorem appendEvent_series {config : GeneratorConfig} (h : InBounds config)
    (hjitter : config.maxJitter = 0) {producer : List UInt8} (hnamed : Named producer)
    {elapsed : ℤ} {elapsedNs : Int64} (hpos : 0 ≤ elapsed) (hle : elapsed ≤ elapsedNs.toInt)
    (hlatest : elapsedNs.toInt ≤ kLatest) {populatePayload : PopulatePayload}
    {series : List TelemetryEvent} (hseries : Series producer series)
    (hends : EndsBy config elapsed series)
    (hpayload : ∀ random,
      (populatePayload (UInt64.ofNat series.length) random).1.WellFormed)
    (before : List TelemetryEvent) (random : PortableRandom) :
    ∃ event random', appendEvent producer (UInt64.ofNat series.length) elapsedNs config
        populatePayload (before ++ series, random) = .ok (before ++ (series ++ [event]), random') ∧
      Series producer (series ++ [event]) ∧ EndsBy config elapsedNs.toInt (series ++ [event]) := by
  have hstart := timestampAt_mono h (Int.le_refl 0) (Int.le_trans hpos hle)
  have hzero : timestampAt config 0 = 1700000000000000000 := by simp [timestampAt, drifted]
  have hends := hends.later h hpos hle
  let number := UInt64.ofNat series.length
  let event := dueEvent config producer number elapsedNs (populatePayload number random).1
  have htime : event.sourceTimestampNs.toInt = timestampAt config elapsedNs.toInt :=
    toInt_dueEvent h (Int.le_trans hpos hle) hlatest ..
  have hacceptable : event.Acceptable :=
    { schema := rfl
      producer := hnamed.1
      producer_le := hnamed.2
      clock := .inl rfl
      timestamp := by
        rw [Int64.lt_iff_toInt_lt, htime, Int64.toInt_zero]
        omega
      payload := ⟨_, rfl, hpayload random⟩ }
  refine ⟨event, (populatePayload number random).2, ?_, hseries.snoc hacceptable rfl rfl ?_, ?_⟩
  · rw [appendEvent_eq hjitter, List.append_assoc]
  · intro e he
    rw [Int64.le_iff_toInt_le, htime]
    exact hends e he
  · exact List.forall_mem_append.mpr ⟨hends, List.forall_mem_singleton.mpr (Int.le_of_eq htime)⟩

/-! ### Whole loops -/

/-- **A sensor's loop** makes one series of as many events as its rate gives. -/
theorem appendPeriodic_series {config : GeneratorConfig} (h : InBounds config)
    (hjitter : config.maxJitter = 0) {sensor : Sensor} (hsensor : sensor.Proper)
    (before : List TelemetryEvent) (random : PortableRandom) :
    ∃ series random', appendPeriodic sensor.producerId (sensor.rateHz config.rates) config
        sensor.populatePayload (before, random) = .ok (before ++ series, random') ∧
      Series sensor.producerId series ∧
      series.length = (eventCount config.duration (sensor.rateHz config.rates)).toNat := by
  have hrate := hsensor.rate config.rates
  generalize sensor.rateHz config.rates = rate at hrate ⊢
  have hcount := eventCount_le h hrate
  -- Up to the event numbered `n` the clock has gone `n` periods.
  have hloop (n : ℕ) (hn : n ≤ (eventCount config.duration rate).toNat) :
      ∃ series random', (List.range n).foldlM (fun made i =>
          appendEvent sensor.producerId (UInt64.ofNat i) (scheduledTimeNs (UInt64.ofNat i) rate)
            config sensor.populatePayload made) (before, random) =
          .ok (before ++ series, random') ∧ Series sensor.producerId series ∧
        series.length = n ∧ EndsBy config (n * 1000000000 / rate.toNat : ℕ) series := by
    induction n with
    | zero =>
      exact ⟨[], random, by rw [List.append_nil]; rfl, series_nil _, rfl,
        fun _ h => absurd h List.not_mem_nil⟩
    | succ n ih =>
      obtain ⟨series, random', hfold, hseries, hlength, hends⟩ := ih (by omega)
      have hpos : 0 < rate.toNat := by
        refine Nat.pos_of_ne_zero fun hzero => ?_
        rw [UInt32.toNat_inj.mp (hzero.trans UInt32.toNat_zero.symm)] at hn
        exact absurd hn (Nat.not_succ_le_zero n)
      have hdue := toInt_scheduledTimeNs n (by omega) (h.rate_le rate hrate) hpos
      have hlatest : n * 1000000000 / rate.toNat ≤ n * 1000000000 := Nat.div_le_self _ _
      have hnumber : (UInt64.ofNat series.length).toNat ≤ 2000000 := by
        rw [hlength, UInt64.toNat_ofNat']
        omega
      obtain ⟨event, random'', hturn, hnext, hend⟩ := appendEvent_series h hjitter hsensor.named
        (Int.natCast_nonneg _) (Int.le_of_eq hdue.symm) (by unfold kLatest; omega) hseries hends
        (fun random => hsensor.payload _ random hnumber) before random'
      have hlonger : n * 1000000000 / rate.toNat ≤ (n + 1) * 1000000000 / rate.toNat :=
        Nat.div_le_div_right (by omega)
      refine ⟨series ++ [event], random'', ?_, hnext, by simp [hlength],
        hend.later h (by rw [hdue]; exact Int.natCast_nonneg _)
          (by rw [hdue]; exact_mod_cast hlonger)⟩
      rw [hlength] at hturn
      rw [List.range_succ, List.foldlM_append, hfold]
      simp only [bind, Except.bind, List.foldlM_cons, List.foldlM_nil, hturn]
      rfl
  obtain ⟨series, random', hfold, hseries, hlength, _⟩ := hloop _ (Nat.le_refl _)
  exact ⟨series, random', hfold, hseries, hlength⟩

theorem controllerPayload_wellFormed {state : Int32}
    (h : STATE_UNSPECIFIED < state ∧ state ≤ STATE_STOPPED) (number : UInt64)
    (random : PortableRandom) : (controllerPayload state number random).1.WellFormed := by
  refine ⟨h, ?_⟩
  show (utf8 (ControllerStatus_State_Name state)).length ≤ kMaxDetailBytes
  unfold ControllerStatus_State_Name
  (repeat' split) <;> decide

/-- The controller's loop, over any states that are in order. -/
theorem controllerStates_series {config : GeneratorConfig} (h : InBounds config)
    (hjitter : config.maxJitter = 0) {states : List (Int64 × Int32)}
    (hstates : Ordered config.duration states) (before : List TelemetryEvent)
    (random : PortableRandom) :
    ∃ series random', states.zipIdx.foldlM (fun made entry =>
        appendEvent controllerId (UInt64.ofNat entry.2) entry.1.1 config
          (controllerPayload entry.1.2) made) (before, random) = .ok (before ++ series, random') ∧
      Series controllerId series ∧ series.length = states.length ∧
      ∀ elapsed, (∀ entry ∈ states, entry.1.toInt ≤ elapsed) → EndsBy config elapsed series := by
  induction states using List.reverseRecOn with
  | nil =>
    exact ⟨[], random, by rw [List.append_nil]; rfl, series_nil _, rfl,
      fun _ _ _ h => absurd h List.not_mem_nil⟩
  | append_singleton states entry ih =>
    obtain ⟨series, random', hfold, hseries, hlength, hends⟩ :=
      ih (hstates.sublist (List.sublist_append_left ..))
    have hentry : entry ∈ states ++ [entry] := by simp
    obtain ⟨hpos, hle⟩ := hstates.within entry hentry
    have hbefore : ∀ e ∈ states, e.1.toInt ≤ entry.1.toInt := fun e he =>
      (List.pairwise_append.mp hstates.inOrder).2.2 e he entry (List.mem_singleton_self entry)
    have hduration := h.duration_le
    obtain ⟨event, random'', hturn, hnext, hend⟩ := appendEvent_series h hjitter
      (show Named controllerId by decide) hpos (Int.le_refl _) (by unfold kLatest; omega) hseries
      (hends _ hbefore)
      (fun random => controllerPayload_wellFormed (hstates.specified entry hentry) _ random)
      before random'
    refine ⟨series ++ [event], random'', ?_, hnext, by simp [hlength],
      fun elapsed hall => hend.later h hpos (hall entry hentry)⟩
    rw [List.zipIdx_append, List.foldlM_append, hfold, Nat.zero_add, ← hlength]
    simp only [bind, Except.bind, List.zipIdx_singleton, List.foldlM_cons, List.foldlM_nil, hturn]
    rfl

/-! ### All producers -/

/-- What the loops have made: a series of each of these producers, and nothing else. -/
structure Made (producers : List (List UInt8)) (events : List TelemetryEvent) : Prop where
  known : ∀ event ∈ events, event.producerId ∈ producers
  series : ∀ producer, Series producer (eventsOf producer events)
  few : ∀ producer, (eventsOf producer events).length ≤ 2000000

theorem made_nil : Made [] [] where
  known _ h := absurd h List.not_mem_nil
  series := series_nil
  few _ := Nat.zero_le _

theorem Made.eventsOf_new {producers : List (List UInt8)} {events series : List TelemetryEvent}
    {producer : List UInt8} (h : Made producers events) (hseries : Series producer series)
    (hnew : producer ∉ producers) : eventsOf producer (events ++ series) = series := by
  have hnone : eventsOf producer events = [] := viewOf_eq_nil fun event hevent hsame =>
    hnew (hsame ▸ h.known event hevent)
  have hall : eventsOf producer series = series := viewOf_eq_self hseries.oneProducer
  rw [eventsOf, viewOf_append]
  exact (congrArg₂ (· ++ ·) hnone hall).trans (List.nil_append _)

theorem eventsOf_other {events series : List TelemetryEvent} {producer other : List UInt8}
    (hseries : Series producer series) (hne : other ≠ producer) :
    eventsOf other (events ++ series) = eventsOf other events := by
  have hnone : eventsOf other series = [] := viewOf_eq_nil fun event hevent hsame =>
    hne (hsame.symm.trans (hseries.oneProducer event hevent))
  rw [eventsOf, viewOf_append]
  exact (congrArg _ hnone).trans (List.append_nil _)

theorem Made.append {producers : List (List UInt8)} {events series : List TelemetryEvent}
    {producer : List UInt8} (h : Made producers events) (hseries : Series producer series)
    (hnew : producer ∉ producers) (hfew : series.length ≤ 2000000) :
    Made (producers ++ [producer]) (events ++ series) := by
  have hview (other : List UInt8) : eventsOf other (events ++ series) = series ∧
      other = producer ∨ eventsOf other (events ++ series) = eventsOf other events := by
    by_cases hne : other = producer
    · rw [hne]
      exact .inl ⟨h.eventsOf_new hseries hnew, rfl⟩
    · exact .inr (eventsOf_other hseries hne)
  refine ⟨?_, fun other => ?_, fun other => ?_⟩
  · refine List.forall_mem_append.mpr ⟨fun e he => List.mem_append_left _ (h.known e he),
      fun e he => List.mem_append_right _ ?_⟩
    exact List.mem_singleton.mpr (hseries.oneProducer e he)
  · obtain ⟨hown, rfl⟩ | hother := hview other
    · rwa [hown]
    · rw [hother]
      exact h.series other
  · obtain ⟨hown, _⟩ | hother := hview other
    · rwa [hown]
    · rw [hother]
      exact h.few other

/-- How many events a sensor is to have. -/
def Counted (config : GeneratorConfig) (events : List TelemetryEvent) (sensor : Sensor) : Prop :=
  (eventsOf sensor.producerId events).length =
    (eventCount config.duration (sensor.rateHz config.rates)).toNat

theorem sensors_made {config : GeneratorConfig} (h : InBounds config)
    (hjitter : config.maxJitter = 0) {sensors : List Sensor}
    (hproper : ∀ sensor ∈ sensors, sensor.Proper)
    (hnodup : (sensors.map Sensor.producerId).Nodup) (random : PortableRandom) :
    ∃ made, sensors.foldlM (fun made sensor => appendPeriodic sensor.producerId
        (sensor.rateHz config.rates) config sensor.populatePayload made) ([], random) = .ok made ∧
      Made (sensors.map Sensor.producerId) made.1 ∧
      ∀ sensor ∈ sensors, Counted config made.1 sensor := by
  induction sensors using List.reverseRecOn with
  | nil => exact ⟨_, rfl, made_nil, fun _ h => absurd h List.not_mem_nil⟩
  | append_singleton sensors sensor ih =>
    rw [List.map_append, List.map_singleton] at hnodup ⊢
    obtain ⟨hbefore, _, hnew⟩ := List.nodup_append.mp hnodup
    obtain ⟨⟨events, random'⟩, hfold, hmade, hcounted⟩ :=
      ih (fun s hs => hproper s (List.mem_append_left _ hs)) hbefore
    have hsensor := hproper sensor (by simp)
    have hunknown : sensor.producerId ∉ sensors.map Sensor.producerId := fun hmem =>
      hnew _ hmem _ (List.mem_singleton_self _) rfl
    obtain ⟨series, random'', hloop, hseries, hlength⟩ :=
      appendPeriodic_series h hjitter hsensor events random'
    have hfew := eventCount_le h (hsensor.rate config.rates)
    refine ⟨(events ++ series, random''), ?_, hmade.append hseries hunknown (by omega), ?_⟩
    · rw [List.foldlM_append, hfold]
      simp only [bind, Except.bind, List.foldlM_cons, List.foldlM_nil, hloop]
      rfl
    · refine List.forall_mem_append.mpr ⟨fun s hs => ?_, List.forall_mem_singleton.mpr ?_⟩
      · have hne : s.producerId ≠ sensor.producerId := fun heq =>
          hunknown (heq ▸ List.mem_map_of_mem hs)
        rw [Counted, eventsOf_other hseries hne]
        exact hcounted s hs
      · rw [Counted, hmade.eventsOf_new hseries hunknown, hlength]

end TraceForge.Generator
