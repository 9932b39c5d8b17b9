import TraceForge.Generator.Generation

/-! The generator's arithmetic is exact.

For a configuration that the constructor lets pass, every function that places an event in time
gives the integer of its formula, no intermediate result leaves its type, and the times it gives
are in order and in range (`schedule_exact`). -/
namespace TraceForge.Generator
open Library Telemetry
open Checked

/-! ### What is to be shown -/

/-- A sensor's events are as many as its rate gives, one after the other and before the end. -/
structure ExactSensor (durationNs : Int64) (rateHz : UInt32) : Prop where
  fits : eventCount? durationNs rateHz = some (eventCount durationNs rateHz)
  count : ((eventCount durationNs rateHz).toNat : ℤ) =
    durationNs.toInt * rateHz.toNat / 1000000000
  due : ∀ index < eventCount durationNs rateHz,
    scheduledTimeNs? index rateHz = some (scheduledTimeNs index rateHz) ∧
    (scheduledTimeNs index rateHz).toInt = index.toNat * 1000000000 / rateHz.toNat ∧
    0 ≤ scheduledTimeNs index rateHz ∧ scheduledTimeNs index rateHz < durationNs
  increasing : ∀ earlier later, earlier < later → later < eventCount durationNs rateHz →
    scheduledTimeNs earlier rateHz < scheduledTimeNs later rateHz

/-- A clock gains or loses its share of the time, cut off towards zero. -/
structure ExactClock (durationNs driftPpm : Int64) : Prop where
  exact : ∀ elapsedNs, 0 ≤ elapsedNs → elapsedNs < durationNs →
    applyClockDrift? elapsedNs driftPpm = some (applyClockDrift elapsedNs driftPpm) ∧
    (applyClockDrift elapsedNs driftPpm).toInt =
      elapsedNs.toInt + (elapsedNs.toInt * driftPpm.toInt).tdiv 1000000 ∧
    0 ≤ applyClockDrift elapsedNs driftPpm ∧
    (applyClockDrift elapsedNs driftPpm).toInt ≤ 2 * elapsedNs.toInt
  mono : ∀ earlier later, 0 ≤ earlier → earlier ≤ later → later < durationNs →
    applyClockDrift earlier driftPpm ≤ applyClockDrift later driftPpm

/-- What is drawn for an event keeps its timestamp positive. -/
structure ExactStamp (config : GeneratorConfig) (random : PortableRandom) (jitter : Int64)
    (random' : PortableRandom) : Prop where
  fits : sampleJitter? random config.maxJitter = some (.ok (jitter, random'))
  sampled : sampleJitter random config.maxJitter = .ok (jitter, random')
  low : -config.maxJitter.toInt ≤ jitter.toInt
  high : jitter.toInt ≤ config.maxJitter.toInt
  stamped : ∀ producerId sequenceNumber elapsedNs, 0 ≤ elapsedNs → elapsedNs < config.duration →
    ∃ event, baseEvent producerId sequenceNumber elapsedNs config random = .ok (event, random') ∧
      sourceTimestampNs? elapsedNs config.clockDriftPpm jitter = some event.sourceTimestampNs ∧
      0 < event.sourceTimestampNs

/-! ### Sensors -/

theorem exact_sensor {config : GeneratorConfig} (h : InBounds config) {rate : UInt32}
    (hrate : rate ∈ config.rates.all) : ExactSensor config.duration rate := by
  obtain ⟨count, hcount, hvalue⟩ := eventCount?_gives (Int.le_of_lt h.duration_pos) h.duration_le
    (h.rate_le rate hrate)
  obtain rfl := eventCount?_eq hcount
  rw [value_uint64] at hvalue
  have hslow := h.rate_le rate hrate
  have hfew := eventCount_le h hrate
  have hdue (index : UInt64) (hindex : index < eventCount config.duration rate) :
      (index.toNat + 1) * 1000000000 ≤ config.duration.toInt * rate.toNat ∧ 0 < rate.toNat ∧
        scheduledTimeNs? index rate = some (scheduledTimeNs index rate) ∧
        (scheduledTimeNs index rate).toInt = index.toNat * 1000000000 / rate.toNat := by
    have hlt := UInt64.lt_iff_toNat_lt.mp hindex
    have hpos : 0 < rate.toNat := by
      refine Nat.pos_of_ne_zero fun hzero => ?_
      rw [hzero, Int.natCast_zero, Int.mul_zero, Int.zero_ediv] at hvalue
      omega
    have hfew : index.toNat ≤ 2000000 := by omega
    obtain ⟨time, htime, hat⟩ := scheduledTimeNs?_gives hfew hpos hslow
    obtain rfl := scheduledTimeNs?_eq htime
    exact ⟨by omega, hpos, htime, hat⟩
  refine ⟨hcount, hvalue, fun index hindex => ?_, fun earlier later hlater hindex => ?_⟩
  · obtain ⟨hwithin, hpos, hfits, hat⟩ := hdue index hindex
    refine ⟨hfits, hat, ?_, ?_⟩
    · rw [Int64.le_iff_toInt_le, hat, Int64.toInt_zero]
      exact Int.ediv_nonneg (by omega) (by omega)
    · rw [Int64.lt_iff_toInt_lt, hat]
      exact Int.ediv_lt_of_lt_mul (by omega) (by omega)
  · have hlt := UInt64.lt_iff_toNat_lt.mp hlater
    obtain ⟨_, hpos, _, hat⟩ := hdue later hindex
    obtain ⟨_, _, _, hbefore⟩ := hdue earlier (UInt64.lt_trans hlater hindex)
    rw [Int64.lt_iff_toInt_lt, hat, hbefore]
    -- a period is longer than a nanosecond
    calc (earlier.toNat : ℤ) * 1000000000 / rate.toNat
        < earlier.toNat * 1000000000 / rate.toNat + 1 := Int.lt_succ _
      _ = (earlier.toNat * 1000000000 + rate.toNat) / rate.toNat := by
          rw [Int.add_ediv_of_dvd_right (dvd_refl _), Int.ediv_self (by omega)]
      _ ≤ later.toNat * 1000000000 / rate.toNat := Int.ediv_le_ediv (by omega) (by omega)

/-! ### Clocks -/

theorem exact_clock {config : GeneratorConfig} (h : InBounds config) :
    ExactClock config.duration config.clockDriftPpm := by
  have hle := h.duration_le
  have hat (elapsedNs : Int64) (hpos : 0 ≤ elapsedNs) (hlt : elapsedNs < config.duration) :
      0 ≤ elapsedNs.toInt ∧
        applyClockDrift? elapsedNs config.clockDriftPpm =
          some (applyClockDrift elapsedNs config.clockDriftPpm) ∧
        (applyClockDrift elapsedNs config.clockDriftPpm).toInt =
          drifted elapsedNs.toInt config.clockDriftPpm.toInt := by
    rw [Int64.le_iff_toInt_le, Int64.toInt_zero] at hpos
    rw [Int64.lt_iff_toInt_lt] at hlt
    obtain ⟨time, htime, hvalue⟩ :=
      applyClockDrift?_gives hpos (by unfold kLatest; omega) h.drift_ge h.drift_le
    obtain rfl := applyClockDrift?_eq htime
    exact ⟨hpos, htime, hvalue⟩
  refine ⟨fun elapsedNs hpos hlt => ?_, fun earlier later hpos hlater hlt => ?_⟩
  · obtain ⟨hnonneg, hfits, hvalue⟩ := hat elapsedNs hpos hlt
    have hstart : drifted 0 config.clockDriftPpm.toInt = 0 := by simp [drifted]
    have hlow := drifted_mono (Int.le_refl 0) hnonneg h.drift_ge
    refine ⟨hfits, hvalue, ?_, ?_⟩
    · rw [Int64.le_iff_toInt_le, hvalue, Int64.toInt_zero]
      omega
    · rw [hvalue]
      exact drifted_le hnonneg h.drift_le
  · obtain ⟨hnonneg, _, hbefore⟩ := hat earlier hpos (Int64.lt_of_le_of_lt hlater hlt)
    obtain ⟨_, _, hafter⟩ := hat later (Int64.le_trans hpos hlater) hlt
    rw [Int64.le_iff_toInt_le, hbefore, hafter]
    exact drifted_mono hnonneg (Int64.le_iff_toInt_le.mp hlater) h.drift_ge

/-! ### Timestamps -/

theorem exact_stamp (g : WorkloadGenerator) (random : PortableRandom) :
    ∃ jitter random', ExactStamp g.config random jitter random' := by
  have h := inBounds_of_ok g.validated
  obtain ⟨hpos, hmax⟩ := maxJitter_of_ok g.validated
  obtain ⟨jitter, random', hfits, hlow, hhigh⟩ :=
    sampleJitter?_gives hpos (by omega) random
  have hsampled := sampleJitter?_eq hfits
  have hle := h.duration_le
  refine ⟨jitter, random', hfits, hsampled, hlow, hhigh, ?_⟩
  intro producerId sequenceNumber elapsedNs hstart hend
  rw [Int64.le_iff_toInt_le, Int64.toInt_zero] at hstart
  rw [Int64.lt_iff_toInt_lt] at hend
  have hjitter : -2 ^ 62 < jitter.toInt ∧ jitter.toInt < 2 ^ 62 := ⟨by omega, by omega⟩
  obtain ⟨time, htime, hvalue⟩ := sourceTimestampNs?_gives hstart (by unfold kLatest; omega)
    h.drift_ge h.drift_le hjitter
  have hzero : drifted 0 g.config.clockDriftPpm.toInt = 0 := by simp [drifted]
  have hdrift := drifted_mono (Int.le_refl 0) hstart h.drift_ge
  rw [baseEvent, hsampled]
  refine ⟨_, rfl, ?_, ?_⟩
  · rw [htime]
    exact congrArg some (sourceTimestampNs?_eq htime).symm
  · show 0 < kBaseTimestampNs + applyClockDrift elapsedNs g.config.clockDriftPpm + jitter
    rw [sourceTimestampNs?_eq htime, Int64.lt_iff_toInt_lt, Int64.toInt_zero]
    rw [value_int64] at hvalue
    omega

/-! ### Everything together -/

/-- **The schedule's arithmetic is exact and in range**, for every configuration that the
constructor lets pass and whatever is drawn. The checked functions have a result only if every
intermediate fits in its type. -/
theorem schedule_exact (g : WorkloadGenerator) :
    (∀ rate ∈ g.config.rates.all, ExactSensor g.config.duration rate) ∧
    ExactClock g.config.duration g.config.clockDriftPpm ∧
    (∀ random, ∃ jitter random', ExactStamp g.config random jitter random') ∧
    ∀ random, controllerStates? g.config.duration random =
        some (controllerStates g.config.duration random) ∧
      Timed g.config.duration (controllerStates g.config.duration random).1 := by
  have h := inBounds_of_ok g.validated
  refine ⟨fun rate hrate => exact_sensor h hrate, exact_clock h, exact_stamp g, fun random => ?_⟩
  obtain ⟨states, hfits, htimed⟩ := controllerStates?_gives h.duration_pos h.duration_le random
  obtain rfl := controllerStates?_eq hfits
  exact ⟨hfits, htimed⟩

/-- The second of two positions is due half a second after the first. -/
theorem schedule_exact_sample :
    eventCount 1000000000 2 = 2 ∧ (scheduledTimeNs 1 2).toInt = 500000000 := by
  obtain ⟨hsensors, _⟩ := schedule_exact sampleGenerator
  obtain ⟨_, hcount, hdue, _⟩ := hsensors 2 (by decide)
  have htwo : eventCount 1000000000 2 = 2 := UInt64.toNat_inj.mp (Int.ofNat.inj hcount)
  exact ⟨htwo, (hdue 1 (by decide)).2.1⟩

end TraceForge.Generator
