import Mathlib.Algebra.Order.BigOperators.Group.List
import Mathlib.Data.UInt
import TraceForge.Generator.Arithmetic

/-! When a workload's events are due.

The constructor's checks bound everything that the arithmetic reads (`InBounds`), so none of it
overflows: an event's time is the integer that its formula says. -/
namespace TraceForge.Generator
open Library Telemetry
open Signed
open Checked

/-! ### The checks -/

structure InBounds (config : GeneratorConfig) : Prop where
  duration_pos : 0 < config.duration.toInt
  duration_le : config.duration.toInt ≤ 3600000000000
  drift_ge : -1000000 ≤ config.clockDriftPpm.toInt
  drift_le : config.clockDriftPpm.toInt ≤ 1000000
  rate_le : ∀ rate ∈ config.rates.all, rate.toNat ≤ 10000
  few : ∀ rate ∈ config.rates.all,
    rate.toNat * (config.duration.toInt.toNat / 1000000000 + 1) ≤ 2000000

/-- One check: the rest decides when it does not fail. -/
theorem ok_check {failing : Prop} [Decidable failing] {message : String}
    {rest : Except String Unit} :
    (if failing then .error message else rest) = .ok () ↔ ¬failing ∧ rest = .ok () := by
  by_cases h : failing
  · simp [h]
  · simp [h]

theorem ok_probability {probability : UInt32} {name : String} {rest : Except String Unit} :
    (validateProbability probability name >>= fun _ => rest) = .ok () ↔
      probability ≤ kProbabilityScale ∧ rest = .ok () := by
  unfold validateProbability
  rw [← UInt32.not_lt]
  by_cases h : kProbabilityScale < probability
  · simp [h, bind, Except.bind]
  · simp [h, bind, Except.bind]

/-- The sum of the rates, or the refusal of one of them. -/
theorem foldlM_addRate (rates : List UInt32) (before : UInt64) :
    rates.foldlM addRate before =
      if rates.all fun rate => rate ≤ kMaxSensorRateHz then
        .ok (before + (rates.map UInt32.toUInt64).sum)
      else .error "sensor rate cannot exceed 10000 Hz" := by
  induction rates generalizing before with
  | nil => simp [pure, Except.pure]
  | cons rate rest ih =>
    rw [List.foldlM_cons, addRate]
    by_cases hrate : rate ≤ kMaxSensorRateHz
    · rw [if_neg (UInt32.not_lt.mpr hrate)]
      simp only [bind, Except.bind, ih, List.all_cons, hrate, decide_true, Bool.true_and,
        List.map_cons, List.sum_cons, UInt64.add_assoc]
    · rw [if_pos (UInt32.not_le.mp hrate), List.all_cons, decide_eq_false hrate, Bool.false_and]
      rfl

theorem ok_rates {rates : List UInt32} {rest : UInt64 → Except String Unit} :
    (rates.foldlM addRate 0 >>= rest) = .ok () ↔
      (∀ rate ∈ rates, rate ≤ kMaxSensorRateHz) ∧
        rest (rates.map UInt32.toUInt64).sum = .ok () := by
  have hslow : (rates.all fun rate => rate ≤ kMaxSensorRateHz) = true ↔
      ∀ rate ∈ rates, rate ≤ kMaxSensorRateHz := by
    simp only [List.all_eq_true, decide_eq_true_eq]
  rw [foldlM_addRate, UInt64.zero_add, ← hslow]
  split
  · rename_i hall
    exact (and_iff_right hall).symm
  · rename_i hrefused
    exact iff_of_false (fun h => by cases h) fun h => hrefused h.1

/-- **What the constructor lets pass.** -/
theorem validateConfig_iff (config : GeneratorConfig) : validateConfig config = .ok () ↔
    ¬(config.duration ≤ 0 ∨ kMaxDurationNs < config.duration) ∧
    ¬(config.maxJitter < 0 ∨ kMaxDurationNs < config.maxJitter) ∧
    ¬(config.clockDriftPpm < -1000000 ∨ 1000000 < config.clockDriftPpm) ∧
    config.faults.dropPerMillion ≤ kProbabilityScale ∧
    config.faults.duplicatePerMillion ≤ kProbabilityScale ∧
    config.faults.reorderPerMillion ≤ kProbabilityScale ∧
    (∀ rate ∈ config.rates.all, rate ≤ kMaxSensorRateHz) ∧
    ¬kMaxGeneratedEvents < (config.rates.all.map UInt32.toUInt64).sum *
      ((config.duration / kNanosecondsPerSecond).toUInt64 + 1) := by
  unfold validateConfig
  rw [ok_check, ok_check, ok_check, ok_probability, ok_probability, ok_probability, ok_rates,
    ok_check, and_iff_left rfl]

/-- The sum of the rates, as long as there are few. -/
theorem toNat_sum {rates : List UInt32} (h : ∀ rate ∈ rates, rate.toNat ≤ 10000)
    (hfew : rates.length ≤ 1000) :
    (rates.map UInt32.toUInt64).sum.toNat = (rates.map UInt32.toNat).sum ∧
      (rates.map UInt32.toNat).sum ≤ 10000 * rates.length := by
  induction rates with
  | nil => exact ⟨rfl, Nat.le_refl _⟩
  | cons rate rest ih =>
    obtain ⟨hrate, hrest⟩ := List.forall_mem_cons.mp h
    rw [List.length_cons] at hfew
    obtain ⟨hsum, hle⟩ := ih hrest (by omega)
    rw [List.map_cons, List.map_cons, List.sum_cons, List.sum_cons, List.length_cons,
      UInt64.toNat_add, UInt32.toNat_toUInt64, hsum]
    exact ⟨Nat.mod_eq_of_lt (by omega), by omega⟩

/-- A whole number of seconds, of a duration that is not negative. -/
theorem toNat_seconds {durationNs : Int64} (h : 0 ≤ durationNs.toInt) :
    (durationNs / kNanosecondsPerSecond).toUInt64.toNat = durationNs.toInt.toNat / 1000000000 := by
  have hunit : kNanosecondsPerSecond.toInt = 1000000000 := rfl
  have hseconds : (durationNs / kNanosecondsPerSecond).toInt = durationNs.toInt / 1000000000 := by
    rw [toInt_div (by omega), hunit, Int.tdiv_eq_ediv_of_nonneg h]
  have hcast := toNat_toUInt64 (x := durationNs / kNanosecondsPerSecond) (by omega)
  omega

/-- **The estimate** that the constructor compares with the limit. -/
theorem estimate_le {config : GeneratorConfig} (h : validateConfig config = .ok ()) :
    (config.rates.all.map UInt32.toNat).sum * (config.duration.toInt.toNat / 1000000000 + 1) ≤
      2000000 := by
  obtain ⟨hduration, _, _, _, _, _, hrates, hestimate⟩ := (validateConfig_iff config).mp h
  have hmax : kMaxDurationNs.toInt = 3600000000000 := rfl
  simp only [not_or, Int64.lt_iff_toInt_lt, Int64.le_iff_toInt_le, Int64.toInt_zero, hmax, not_le,
    not_lt] at hduration
  obtain ⟨hpos, hle⟩ := hduration
  have hone : (1 : UInt64).toNat = 1 := rfl
  have hrounded : ((config.duration / kNanosecondsPerSecond).toUInt64 + 1).toNat =
      config.duration.toInt.toNat / 1000000000 + 1 := by
    rw [UInt64.toNat_add, toNat_seconds (Int.le_of_lt hpos), hone]
    exact Nat.mod_eq_of_lt (by omega)
  obtain ⟨hsum, hsmall⟩ :=
    toNat_sum (fun rate hrate => UInt32.le_iff_toNat_le.mp (hrates rate hrate))
      (show 6 ≤ 1000 by decide)
  rw [show config.rates.all.length = 6 from rfl] at hsmall
  have hproduct : (config.rates.all.map UInt32.toNat).sum *
      (config.duration.toInt.toNat / 1000000000 + 1) ≤ 60000 * 3601 :=
    Nat.mul_le_mul hsmall (by omega)
  have hlimit := UInt64.le_iff_toNat_le.mp (UInt64.not_lt.mp hestimate)
  rw [UInt64.toNat_mul, hrounded, hsum, Nat.mod_eq_of_lt (by omega)] at hlimit
  exact hlimit

/-- The largest jitter that passes. -/
theorem maxJitter_of_ok {config : GeneratorConfig} (h : validateConfig config = .ok ()) :
    0 ≤ config.maxJitter.toInt ∧ config.maxJitter.toInt ≤ 3600000000000 := by
  obtain ⟨_, hjitter, _⟩ := (validateConfig_iff config).mp h
  have hmax : kMaxDurationNs.toInt = 3600000000000 := rfl
  simpa only [not_or, Int64.lt_iff_toInt_lt, Int64.toInt_zero, hmax, not_lt] using hjitter

theorem inBounds_of_ok {config : GeneratorConfig} (h : validateConfig config = .ok ()) :
    InBounds config := by
  obtain ⟨hduration, _, hdrift, _, _, _, hrates, _⟩ := (validateConfig_iff config).mp h
  have hmax : kMaxDurationNs.toInt = 3600000000000 := rfl
  have hlow : (-1000000 : Int64).toInt = -1000000 := rfl
  have hhigh : (1000000 : Int64).toInt = 1000000 := rfl
  simp only [not_or, Int64.lt_iff_toInt_lt, Int64.le_iff_toInt_le, Int64.toInt_zero, hmax, hlow,
    hhigh, not_le, not_lt] at hduration hdrift
  exact
    { duration_pos := hduration.1
      duration_le := hduration.2
      drift_ge := hdrift.1
      drift_le := hdrift.2
      rate_le := fun rate hrate => UInt32.le_iff_toNat_le.mp (hrates rate hrate)
      few := fun rate hrate => by
        refine Nat.le_trans (Nat.mul_le_mul_right _ ?_) (estimate_le h)
        exact List.single_le_sum (fun _ _ => Nat.zero_le _) _ (List.mem_map_of_mem hrate) }

/-! ### Clocks -/

/-- **The drift of a clock**, as the integer that it is. -/
theorem toInt_applyClockDrift {elapsedNs driftPpm : Int64} (h : 0 ≤ elapsedNs.toInt)
    (hlatest : elapsedNs.toInt ≤ kLatest) (hlow : -1000000 ≤ driftPpm.toInt)
    (hhigh : driftPpm.toInt ≤ 1000000) :
    (applyClockDrift elapsedNs driftPpm).toInt = drifted elapsedNs.toInt driftPpm.toInt := by
  obtain ⟨time, htime, hvalue⟩ := applyClockDrift?_gives h hlatest hlow hhigh
  rw [applyClockDrift?_eq htime]
  exact hvalue

/-! ### Sensors -/

/-- **A sensor's events** are as many as its rate gives in the duration. -/
theorem toNat_eventCount {config : GeneratorConfig} (h : InBounds config) {rate : UInt32}
    (hrate : rate ∈ config.rates.all) : (eventCount config.duration rate).toNat =
      config.duration.toInt.toNat * rate.toNat / 1000000000 := by
  obtain ⟨count, hcount, hvalue⟩ := eventCount?_gives (Int.le_of_lt h.duration_pos) h.duration_le
    (h.rate_le rate hrate)
  have hduration : (config.duration.toInt.toNat : ℤ) = config.duration.toInt :=
    Int.toNat_of_nonneg (Int.le_of_lt h.duration_pos)
  rw [eventCount?_eq hcount]
  rw [value_uint64, ← hduration] at hvalue
  exact_mod_cast hvalue

/-- A sensor has no more events than its share of the estimate. -/
theorem eventCount_le_share {config : GeneratorConfig} (h : InBounds config) {rate : UInt32}
    (hrate : rate ∈ config.rates.all) : (eventCount config.duration rate).toNat ≤
      rate.toNat * (config.duration.toInt.toNat / 1000000000 + 1) := by
  rw [toNat_eventCount h hrate]
  have hduration : config.duration.toInt.toNat ≤
      (config.duration.toInt.toNat / 1000000000 + 1) * 1000000000 := by omega
  calc config.duration.toInt.toNat * rate.toNat / 1000000000
      ≤ (config.duration.toInt.toNat / 1000000000 + 1) * 1000000000 * rate.toNat / 1000000000 :=
        Nat.div_le_div_right (Nat.mul_le_mul_right _ hduration)
    _ = rate.toNat * (config.duration.toInt.toNat / 1000000000 + 1) := by
        rw [Nat.mul_right_comm, Nat.mul_div_cancel _ (by omega), Nat.mul_comm]

theorem eventCount_le {config : GeneratorConfig} (h : InBounds config) {rate : UInt32}
    (hrate : rate ∈ config.rates.all) : (eventCount config.duration rate).toNat ≤ 2000000 :=
  Nat.le_trans (eventCount_le_share h hrate) (h.few rate hrate)

/-- **An event of a sensor is due** when as many periods have passed as there were events. -/
theorem toInt_scheduledTimeNs (index : ℕ) {rate : UInt32} (hindex : index ≤ 2000000)
    (hrate : rate.toNat ≤ 10000) (hpos : 0 < rate.toNat) :
    (scheduledTimeNs (UInt64.ofNat index) rate).toInt =
      (index * 1000000000 / rate.toNat : ℕ) := by
  have hcast : (UInt64.ofNat index).toNat = index := by
    rw [UInt64.toNat_ofNat']
    exact Nat.mod_eq_of_lt (by omega)
  have hfew : (UInt64.ofNat index).toNat ≤ 2000000 := by omega
  obtain ⟨time, htime, hvalue⟩ := scheduledTimeNs?_gives hfew hpos hrate
  rw [scheduledTimeNs?_eq htime]
  rw [hcast] at hvalue
  exact_mod_cast hvalue

/-! ### The controller -/

/-- Times that follow one another, and states that may be reported. -/
structure Ordered (durationNs : Int64) (states : List (Int64 × Int32)) : Prop where
  inOrder : states.Pairwise fun a b => a.1.toInt ≤ b.1.toInt
  within : ∀ entry ∈ states, 0 ≤ entry.1.toInt ∧ entry.1.toInt ≤ durationNs.toInt
  specified : ∀ entry ∈ states, STATE_UNSPECIFIED < entry.2 ∧ entry.2 ≤ STATE_STOPPED

theorem Ordered.sublist {durationNs : Int64} {some all : List (Int64 × Int32)}
    (h : Ordered durationNs all) (hsub : some.Sublist all) : Ordered durationNs some where
  inOrder := h.inOrder.sublist hsub
  within entry hentry := h.within entry (hsub.subset hentry)
  specified entry hentry := h.specified entry (hsub.subset hentry)

/-- **The controller's schedule** is in order for every duration, whatever has been drawn. -/
theorem controllerStates_ordered {durationNs : Int64} (hpos : 0 < durationNs.toInt)
    (hle : durationNs.toInt ≤ 3600000000000) (random : PortableRandom) :
    Ordered durationNs (controllerStates durationNs random).1 ∧
      ((controllerStates durationNs random).1.length = 3 ∨
        (controllerStates durationNs random).1.length = 4) := by
  obtain ⟨states, hstates, htimed⟩ := controllerStates?_gives hpos hle random
  rw [← controllerStates?_eq hstates] at htimed
  have hcodes : ((controllerStates durationNs random).1.map Prod.snd).Sublist
      [STATE_INITIALIZING, STATE_READY, STATE_DEGRADED, STATE_STOPPED] ∧
      ((controllerStates durationNs random).1.length = 3 ∨
        (controllerStates durationNs random).1.length = 4) := by
    unfold controllerStates
    simp only
    split
    · exact ⟨.refl _, .inr rfl⟩
    · exact ⟨.cons_cons _ (.cons_cons _ (.cons _ (.refl _))), .inl rfl⟩
  refine ⟨⟨htimed.inOrder, fun entry hentry => ?_, fun entry hentry => ?_⟩, hcodes.2⟩
  · obtain ⟨hstart, hend⟩ := htimed.within entry hentry
    exact ⟨hstart, Int.le_of_lt hend⟩
  · have hcode := hcodes.1.subset (List.mem_map_of_mem hentry)
    simp only [List.mem_cons, List.not_mem_nil, or_false] at hcode
    rcases hcode with h | h | h | h <;> rw [h] <;> decide

end TraceForge.Generator
