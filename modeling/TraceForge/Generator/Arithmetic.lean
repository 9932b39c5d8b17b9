import TraceForge.Generator.WorkloadGenerator
import TraceForge.Library.Checked

/-! The generator's arithmetic, with every step checked.

`eventCount?` and its like are the functions of the same names in which no intermediate result may
leave its 64-bit type. Within the bounds that the constructor checks they have a result, so it is
the one of the formula, computed without rounding (`eventCount?_gives`), and the function's own
(`eventCount?_eq`). -/
namespace TraceForge.Generator
open Library Telemetry
open Checked
open Word (value)

/-! ### Random numbers -/

theorem bounded_lt {upperExclusive : UInt64} (h : upperExclusive ≠ 0) (random : PortableRandom) :
    (random.bounded upperExclusive).1 < upperExclusive := by
  rw [PortableRandom.bounded, dif_neg h]
  exact UInt64.mod_lt _ (UInt64.pos_iff_ne_zero.mpr h)

/-- What has no chance does not happen. -/
theorem chance_zero (random : PortableRandom) : (random.chance 0).1 = false := by
  simp [PortableRandom.chance]

/-! ### Checked functions -/

def eventCount? (durationNs : Int64) (rateHz : UInt32) : Option UInt64 :=
  if rateHz = 0 then some 0
  else do
    let wholeSeconds ← cast? Int64.toUInt64 (← div? durationNs kNanosecondsPerSecond)
    let remainingNs ← cast? Int64.toUInt64 (← mod? durationNs kNanosecondsPerSecond)
    add? (← mul? wholeSeconds rateHz.toUInt64)
      (← div? (← mul? remainingNs rateHz.toUInt64) kNanosecondsPerSecond.toUInt64)

def scheduledTimeNs? (index : UInt64) (rateHz : UInt32) : Option Int64 := do
  let wholeSeconds ← div? index rateHz.toUInt64
  let fractionalIndex ← mod? index rateHz.toUInt64
  cast? UInt64.toInt64 (← add? (← mul? wholeSeconds kNanosecondsPerSecond.toUInt64)
    (← div? (← mul? fractionalIndex kNanosecondsPerSecond.toUInt64) rateHz.toUInt64))

def applyClockDrift? (elapsedNs driftPpm : Int64) : Option Int64 := do
  let wholeMillions ← div? elapsedNs kProbabilityScale.toUInt64.toInt64
  let remainder ← mod? elapsedNs kProbabilityScale.toUInt64.toInt64
  add? (← add? elapsedNs (← mul? wholeMillions driftPpm))
    (← div? (← mul? remainder driftPpm) kProbabilityScale.toUInt64.toInt64)

def sampleJitter? (random : PortableRandom) (maxJitterNs : Int64) :
    Option (Except String (Int64 × PortableRandom)) :=
  if maxJitterNs = 0 then some (.ok (0, random))
  else if (Int64.maxValue - 1) / 2 < maxJitterNs then some (.error "maximum jitter is too large")
  else do
    let width ← cast? Int64.toUInt64 (← add? (← mul? maxJitterNs 2) 1)
    let (value, random) := random.bounded width
    let jitter ← sub? (← cast? UInt64.toInt64 value) maxJitterNs
    return .ok (jitter, random)

/-- The sum in `base_event`. -/
def sourceTimestampNs? (elapsedNs driftPpm jitter : Int64) : Option Int64 := do
  add? (← add? kBaseTimestampNs (← applyClockDrift? elapsedNs driftPpm)) jitter

def controllerStates? (durationNs : Int64) (random : PortableRandom) :
    Option (List (Int64 × Int32) × PortableRandom) := do
  let spread ← cast? Int64.toUInt64 (max (← div? durationNs 8) 1)
  let (ready, random) := random.bounded spread
  let readyNs ← add? (← div? durationNs 4) (← cast? UInt64.toInt64 ready)
  let states := [(0, STATE_INITIALIZING), (readyNs, STATE_READY)]
  let (degrades, random) := random.chance 500000
  let stoppedNs ← sub? durationNs 1
  if degrades then
    let (degraded, random) := random.bounded spread
    let degradedNs ← add? (← div? (← mul? durationNs 5) 8) (← cast? UInt64.toInt64 degraded)
    return (states ++ [(degradedNs, STATE_DEGRADED), (stoppedNs, STATE_STOPPED)], random)
  else return (states ++ [(stoppedNs, STATE_STOPPED)], random)

/-! ### The functions themselves -/

theorem eventCount?_eq {durationNs : Int64} {rateHz : UInt32} {count : UInt64}
    (h : eventCount? durationNs rateHz = some count) : eventCount durationNs rateHz = count := by
  unfold eventCount? at h
  unfold eventCount
  split at h
  · rename_i hzero
    rw [if_pos hzero]
    exact Option.some.inj h
  · rename_i hzero
    rw [if_neg hzero]
    simp only [bind, Option.bind_eq_some_iff, div?_eq_some, mod?_eq_some, mul?_eq_some,
      add?_eq_some, cast?_eq_some] at h
    obtain ⟨_, ⟨_, rfl⟩, _, ⟨_, rfl⟩, _, ⟨_, rfl⟩, _, ⟨_, rfl⟩, _, ⟨_, rfl⟩, _, ⟨_, rfl⟩, _,
      ⟨_, rfl⟩, _, rfl⟩ := h
    rfl

theorem scheduledTimeNs?_eq {index : UInt64} {rateHz : UInt32} {time : Int64}
    (h : scheduledTimeNs? index rateHz = some time) : scheduledTimeNs index rateHz = time := by
  simp only [scheduledTimeNs?, bind, Option.bind_eq_some_iff, div?_eq_some, mod?_eq_some,
    mul?_eq_some, add?_eq_some, cast?_eq_some] at h
  obtain ⟨_, ⟨_, rfl⟩, _, ⟨_, rfl⟩, _, ⟨_, rfl⟩, _, ⟨_, rfl⟩, _, ⟨_, rfl⟩, _, ⟨_, rfl⟩, _, rfl⟩ := h
  rfl

theorem applyClockDrift?_eq {elapsedNs driftPpm drifted : Int64}
    (h : applyClockDrift? elapsedNs driftPpm = some drifted) :
    applyClockDrift elapsedNs driftPpm = drifted := by
  simp only [applyClockDrift?, bind, Option.bind_eq_some_iff, div?_eq_some, mod?_eq_some,
    mul?_eq_some, add?_eq_some] at h
  obtain ⟨_, ⟨_, rfl⟩, _, ⟨_, rfl⟩, _, ⟨_, rfl⟩, _, ⟨_, rfl⟩, _, ⟨_, rfl⟩, _, ⟨_, rfl⟩, _, rfl⟩ := h
  rfl

theorem sampleJitter?_eq {random : PortableRandom} {maxJitterNs : Int64}
    {sampled : Except String (Int64 × PortableRandom)}
    (h : sampleJitter? random maxJitterNs = some sampled) :
    sampleJitter random maxJitterNs = sampled := by
  unfold sampleJitter? at h
  unfold sampleJitter
  split at h
  · rename_i hzero
    rw [if_pos hzero]
    exact Option.some.inj h
  rename_i hzero
  rw [if_neg hzero]
  split at h
  · rename_i hlarge
    rw [if_pos hlarge]
    exact Option.some.inj h
  · rename_i hlarge
    rw [if_neg hlarge]
    simp only [bind, Option.bind_eq_some_iff, mul?_eq_some, add?_eq_some, sub?_eq_some,
      cast?_eq_some, pure, Option.some.injEq] at h
    obtain ⟨_, ⟨_, rfl⟩, _, ⟨_, rfl⟩, _, ⟨_, rfl⟩, _, ⟨_, rfl⟩, _, ⟨_, rfl⟩, rfl⟩ := h
    rfl

theorem sourceTimestampNs?_eq {elapsedNs driftPpm jitter time : Int64}
    (h : sourceTimestampNs? elapsedNs driftPpm jitter = some time) :
    kBaseTimestampNs + applyClockDrift elapsedNs driftPpm + jitter = time := by
  simp only [sourceTimestampNs?, bind, Option.bind_eq_some_iff, add?_eq_some] at h
  obtain ⟨drift, hdrift, _, ⟨_, rfl⟩, _, rfl⟩ := h
  rw [applyClockDrift?_eq hdrift]

theorem controllerStates?_eq {durationNs : Int64} {random : PortableRandom}
    {states : List (Int64 × Int32) × PortableRandom}
    (h : controllerStates? durationNs random = some states) :
    controllerStates durationNs random = states := by
  simp only [controllerStates?, bind, Option.bind_eq_some_iff, div?_eq_some, add?_eq_some,
    sub?_eq_some, cast?_eq_some, pure] at h
  obtain ⟨_, ⟨_, rfl⟩, _, ⟨_, rfl⟩, _, ⟨_, rfl⟩, _, ⟨_, rfl⟩, _, ⟨_, rfl⟩, _, ⟨_, rfl⟩, h⟩ := h
  unfold controllerStates
  simp only
  split at h
  · rename_i hdegrades
    simp only [Option.bind_eq_some_iff, div?_eq_some, mul?_eq_some, add?_eq_some, cast?_eq_some,
      Option.some.injEq] at h
    obtain ⟨_, ⟨_, rfl⟩, _, ⟨_, rfl⟩, _, ⟨_, rfl⟩, _, ⟨_, rfl⟩, rfl⟩ := h
    rw [if_pos hdegrades]
  · rename_i hstays
    rw [if_neg hstays]
    exact Option.some.inj h

/-! ### Clocks -/

/-- The clock's time, `elapsed` nanoseconds after it was right. -/
def drifted (elapsed driftPpm : ℤ) : ℤ := elapsed + (elapsed * driftPpm).tdiv 1000000

/-- **A clock never runs backwards**: it loses no more than the time that passes. -/
theorem drifted_mono {elapsed later driftPpm : ℤ} (h : 0 ≤ elapsed) (hle : elapsed ≤ later)
    (hdrift : -1000000 ≤ driftPpm) : drifted elapsed driftPpm ≤ drifted later driftPpm := by
  unfold drifted
  rcases Int.le_total 0 driftPpm with hfast | hslow
  · have hgain : elapsed * driftPpm ≤ later * driftPpm := Int.mul_le_mul_of_nonneg_right hle hfast
    exact Int.add_le_add hle (Int.tdiv_le_tdiv (by omega) hgain)
  · obtain ⟨lost, rfl⟩ : ∃ lost, driftPpm = -lost := ⟨-driftPpm, (Int.neg_neg _).symm⟩
    have hlost : 0 ≤ lost := by omega
    have hmore : later * lost ≤ elapsed * lost + (later - elapsed) * 1000000 := by nlinarith
    rw [Int.mul_neg, Int.mul_neg, Int.neg_tdiv, Int.neg_tdiv,
      Int.tdiv_eq_ediv_of_nonneg (Int.mul_nonneg h hlost),
      Int.tdiv_eq_ediv_of_nonneg (Int.mul_nonneg (Int.le_trans h hle) hlost)]
    omega

theorem drifted_le {elapsed driftPpm : ℤ} (h : 0 ≤ elapsed) (hdrift : driftPpm ≤ 1000000) :
    drifted elapsed driftPpm ≤ 2 * elapsed := by
  have hgain : elapsed * driftPpm ≤ elapsed * 1000000 := Int.mul_le_mul_of_nonneg_left hdrift h
  have hquotient := Int.tdiv_le_tdiv (show (0 : ℤ) < 1000000 by omega) hgain
  rw [Int.mul_tdiv_cancel _ (by omega)] at hquotient
  unfold drifted
  omega

/-- Whole millions and the rest, taken apart and put together again. -/
theorem drifted_split {elapsed : ℤ} (driftPpm : ℤ) (h : 0 ≤ elapsed) :
    elapsed + elapsed / 1000000 * driftPpm + (elapsed % 1000000 * driftPpm).tdiv 1000000 =
      drifted elapsed driftPpm := by
  have hrest : 0 ≤ elapsed % 1000000 := Int.emod_nonneg _ (by omega)
  unfold drifted
  rcases Int.le_total 0 driftPpm with hfast | hslow
  · rw [Int.tdiv_eq_ediv_of_nonneg (Int.mul_nonneg hrest hfast),
      Int.tdiv_eq_ediv_of_nonneg (Int.mul_nonneg h hfast), mul_ediv_split elapsed _ (by omega),
      Int.add_assoc]
  · obtain ⟨lost, rfl⟩ : ∃ lost, driftPpm = -lost := ⟨-driftPpm, (Int.neg_neg _).symm⟩
    have hlost : 0 ≤ lost := by omega
    rw [Int.mul_neg, Int.mul_neg, Int.mul_neg, Int.neg_tdiv, Int.neg_tdiv,
      Int.tdiv_eq_ediv_of_nonneg (Int.mul_nonneg hrest hlost),
      Int.tdiv_eq_ediv_of_nonneg (Int.mul_nonneg h hlost), mul_ediv_split elapsed _ (by omega)]
    ring

/-! ### What they give -/

theorem value_unit : value kNanosecondsPerSecond = 1000000000 := rfl

theorem value_scale : value kProbabilityScale.toUInt64.toInt64 = 1000000 := rfl

theorem value_rate (rateHz : UInt32) : value rateHz.toUInt64 = rateHz.toNat :=
  congrArg _ (UInt32.toNat_toUInt64 rateHz)

/-- **The number of events** in a duration is what the rate gives, cut off. -/
theorem eventCount?_gives {durationNs : Int64} {rateHz : UInt32} (hpos : 0 ≤ durationNs.toInt)
    (hle : durationNs.toInt ≤ 3600000000000) (hrate : rateHz.toNat ≤ 10000) :
    Gives (eventCount? durationNs rateHz) (durationNs.toInt * rateHz.toNat / 1000000000) := by
  unfold eventCount?
  split
  · rename_i hzero
    subst hzero
    exact ⟨0, rfl, by simp; rfl⟩
  have hproduct (n bound : ℤ) (hn : 0 ≤ n) (hbound : n ≤ bound) :
      0 ≤ n * rateHz.toNat ∧ n * rateHz.toNat ≤ bound * 10000 :=
    ⟨Int.mul_nonneg hn (Int.natCast_nonneg _),
      Int.mul_le_mul hbound (by omega) (Int.natCast_nonneg _) (by omega)⟩
  have hwhole := hproduct (durationNs.toInt / 1000000000) 3600 (by omega) (by omega)
  have hrest := hproduct (durationNs.toInt % 1000000000) 1000000000 (by omega) (by omega)
  rw [mul_ediv_split _ _ (by omega)]
  refine (gives_div (value_int64 _) value_unit hpos (by omega)).bind fun quotient hquotient => ?_
  refine (gives_toUInt64 hquotient (by omega)).bind fun wholeSeconds hseconds => ?_
  refine (gives_mod (value_int64 _) value_unit hpos (by omega)).bind fun modulus hmodulus => ?_
  refine (gives_toUInt64 hmodulus (by omega)).bind fun remainingNs hremaining => ?_
  refine (gives_mul hseconds (value_rate rateHz) ?_).bind fun whole hwholes => ?_
  · rw [fits_uint64]
    omega
  refine (gives_mul hremaining (value_rate rateHz) ?_).bind fun product hproducts => ?_
  · rw [fits_uint64]
    omega
  refine (gives_div hproducts (show value kNanosecondsPerSecond.toUInt64 = 1000000000 from rfl)
    hrest.1 (by omega)).bind fun part hpart => ?_
  refine gives_add hwholes hpart ?_
  rw [fits_uint64]
  omega

/-- **An event is due** when as many periods have passed as there were events. -/
theorem scheduledTimeNs?_gives {index : UInt64} {rateHz : UInt32} (hindex : index.toNat ≤ 2000000)
    (hpos : 0 < rateHz.toNat) (hrate : rateHz.toNat ≤ 10000) :
    Gives (scheduledTimeNs? index rateHz) (index.toNat * 1000000000 / rateHz.toNat) := by
  have hunit : value kNanosecondsPerSecond.toUInt64 = 1000000000 := rfl
  have hperiod : (0 : ℤ) < rateHz.toNat := by omega
  have hwhole : (index.toNat : ℤ) / rateHz.toNat ≤ index.toNat :=
    Int.ediv_le_self _ (Int.natCast_nonneg _)
  have hwhole' : 0 ≤ (index.toNat : ℤ) / rateHz.toNat := Int.ediv_nonneg (by omega) (by omega)
  have hrest := Int.emod_lt_of_pos (index.toNat : ℤ) hperiod
  have hrest' := Int.emod_nonneg (index.toNat : ℤ) (show (rateHz.toNat : ℤ) ≠ 0 by omega)
  have hpart : (index.toNat : ℤ) % rateHz.toNat * 1000000000 / rateHz.toNat ≤
      (index.toNat : ℤ) % rateHz.toNat * 1000000000 := Int.ediv_le_self _ (by omega)
  have hpart' : 0 ≤ (index.toNat : ℤ) % rateHz.toNat * 1000000000 / rateHz.toNat :=
    Int.ediv_nonneg (by omega) (by omega)
  rw [mul_ediv_split _ _ (by omega)]
  refine (gives_div (value_uint64 _) (value_rate rateHz) (by omega) hperiod).bind
    fun wholeSeconds hseconds => ?_
  refine (gives_mod (value_uint64 _) (value_rate rateHz) (by omega) hperiod).bind
    fun fractionalIndex hfractional => ?_
  refine (gives_mul hseconds hunit ?_).bind fun whole hwholes => ?_
  · rw [fits_uint64]
    omega
  refine (gives_mul hfractional hunit ?_).bind fun product hproduct => ?_
  · rw [fits_uint64]
    omega
  refine (gives_div hproduct (value_rate rateHz) (by omega) hperiod).bind fun part hparts => ?_
  refine (gives_add hwholes hparts ?_).bind fun time htime => gives_toInt64 htime (by omega)
  rw [fits_uint64]
  omega

/-- No event of a validated configuration is due later than this many nanoseconds. -/
def kLatest : ℤ := 2000000000000000

/-- **The drift of a clock**, as the integer that it is. -/
theorem applyClockDrift?_gives {elapsedNs driftPpm : Int64} (h : 0 ≤ elapsedNs.toInt)
    (hlatest : elapsedNs.toInt ≤ kLatest) (hlow : -1000000 ≤ driftPpm.toInt)
    (hhigh : driftPpm.toInt ≤ 1000000) :
    Gives (applyClockDrift? elapsedNs driftPpm) (drifted elapsedNs.toInt driftPpm.toInt) := by
  have hproduct (n : ℤ) (hn : 0 ≤ n) :
      -(n * 1000000) ≤ n * driftPpm.toInt ∧ n * driftPpm.toInt ≤ n * 1000000 := by
    rw [← Int.mul_neg]
    exact ⟨Int.mul_le_mul_of_nonneg_left hlow hn, Int.mul_le_mul_of_nonneg_left hhigh hn⟩
  have hmillionth := hproduct (elapsedNs.toInt / 1000000) (by omega)
  have hremainder := hproduct (elapsedNs.toInt % 1000000) (by omega)
  have hlower := Int.tdiv_le_tdiv (show (0 : ℤ) < 1000000 by omega) hremainder.1
  have hupper := Int.tdiv_le_tdiv (show (0 : ℤ) < 1000000 by omega) hremainder.2
  rw [Int.neg_tdiv, Int.mul_tdiv_cancel _ (by omega)] at hlower
  rw [Int.mul_tdiv_cancel _ (by omega)] at hupper
  unfold kLatest at hlatest
  rw [← drifted_split _ h]
  refine (gives_div (value_int64 _) value_scale h (by omega)).bind
    fun wholeMillions hmillions => ?_
  refine (gives_mod (value_int64 _) value_scale h (by omega)).bind fun remainder hrest => ?_
  refine (gives_mul hmillions (value_int64 _) ?_).bind fun whole hwhole => ?_
  · rw [fits_int64]
    omega
  refine (gives_add (value_int64 _) hwhole ?_).bind fun sum hsum => ?_
  · rw [fits_int64]
    omega
  refine (gives_mul hrest (value_int64 _) ?_).bind fun product hproducts => ?_
  · rw [fits_int64]
    omega
  refine (gives_tdiv hproducts value_scale (by omega)).bind fun part hpart => ?_
  refine gives_add hsum hpart ?_
  rw [fits_int64]
  omega

/-- A bounded number keeps its value as a signed one. -/
theorem bounded_gives {width : UInt64} {z : ℤ} (hwidth : value width = z) (hpos : 0 < z)
    (hle : z ≤ 2 ^ 63) (random : PortableRandom) :
    ∃ drawn, cast? UInt64.toInt64 (random.bounded width).1 = some drawn ∧
      0 ≤ value drawn ∧ value drawn < z := by
  subst hwidth
  rw [value_uint64] at hpos hle ⊢
  have hne : width ≠ 0 := by
    rintro rfl
    exact absurd hpos (by decide)
  have hbelow := UInt64.lt_iff_toNat_lt.mp (bounded_lt hne random)
  obtain ⟨drawn, hdrawn, hcast⟩ :=
    gives_toInt64 (value_uint64 (random.bounded width).1) (by omega)
  exact ⟨drawn, hdrawn, by omega, by omega⟩

/-- **A jitter** is no larger than the largest that is allowed. -/
theorem sampleJitter?_gives {maxJitterNs : Int64} (hpos : 0 ≤ maxJitterNs.toInt)
    (hmax : maxJitterNs.toInt < 2 ^ 62) (random : PortableRandom) :
    ∃ jitter random', sampleJitter? random maxJitterNs = some (.ok (jitter, random')) ∧
      -maxJitterNs.toInt ≤ jitter.toInt ∧ jitter.toInt ≤ maxJitterNs.toInt := by
  unfold sampleJitter?
  split
  · rename_i hzero
    subst hzero
    exact ⟨0, random, rfl, by decide, by decide⟩
  have hhalf : ((Int64.maxValue - 1) / 2).toInt = 2 ^ 62 - 1 := by decide
  rw [if_neg (by rw [Int64.lt_iff_toInt_lt]; omega)]
  obtain ⟨double, hdouble, hdoubled⟩ := gives_mul (value_int64 maxJitterNs)
    (show value (2 : Int64) = 2 from rfl) (by rw [fits_int64]; omega)
  obtain ⟨odd, hodd, hadded⟩ := gives_add hdoubled (show value (1 : Int64) = 1 from rfl)
    (by rw [fits_int64]; omega)
  obtain ⟨width, hwidth, hwide⟩ := gives_toUInt64 hadded (by omega)
  obtain ⟨drawn, hdrawn, hstart, hend⟩ := bounded_gives hwide (by omega) (by omega) random
  obtain ⟨jitter, hjitter, hsub⟩ := gives_sub (a := drawn) rfl (value_int64 maxJitterNs)
    (by rw [fits_int64]; omega)
  rw [value_int64] at hsub
  refine ⟨jitter, (random.bounded width).2, ?_, by omega, by omega⟩
  simp only [hdouble, hodd, hwidth, hdrawn, hjitter, bind, Option.bind_some, pure]

/-- **A timestamp** is the time on the clock, and the jitter. -/
theorem sourceTimestampNs?_gives {elapsedNs driftPpm jitter : Int64} (h : 0 ≤ elapsedNs.toInt)
    (hlatest : elapsedNs.toInt ≤ kLatest) (hlow : -1000000 ≤ driftPpm.toInt)
    (hhigh : driftPpm.toInt ≤ 1000000) (hjitter : -2 ^ 62 < jitter.toInt ∧ jitter.toInt < 2 ^ 62) :
    Gives (sourceTimestampNs? elapsedNs driftPpm jitter)
      (1700000000000000000 + drifted elapsedNs.toInt driftPpm.toInt + jitter.toInt) := by
  have hstart : drifted 0 driftPpm.toInt = 0 := by simp [drifted]
  have hdrift := drifted_mono (Int.le_refl 0) h hlow
  have hdrift' := drifted_le h hhigh
  unfold kLatest at hlatest
  refine (applyClockDrift?_gives h hlatest hlow hhigh).bind fun drift hdrifted => ?_
  refine (gives_add (show value kBaseTimestampNs = 1700000000000000000 from rfl) hdrifted ?_).bind
    fun time htime => gives_add htime (value_int64 _) ?_
  · rw [fits_int64]
    omega
  · rw [fits_int64]
    omega

/-- Times that follow one another, all of them before the end. -/
structure Timed (durationNs : Int64) (states : List (Int64 × Int32)) : Prop where
  inOrder : states.Pairwise fun a b => a.1.toInt ≤ b.1.toInt
  within : ∀ entry ∈ states, 0 ≤ entry.1.toInt ∧ entry.1.toInt < durationNs.toInt

/-- All four states, whatever has been drawn for the two in the middle. -/
theorem timed_states {durationNs readyNs degradedNs stoppedNs : Int64} {ready degraded : ℤ}
    (hpos : 0 < durationNs.toInt) (hready : 0 ≤ ready ∧ ready < max (durationNs.toInt / 8) 1)
    (hdegraded : 0 ≤ degraded ∧ degraded < max (durationNs.toInt / 8) 1)
    (hreadyNs : value readyNs = durationNs.toInt / 4 + ready)
    (hdegradedNs : value degradedNs = durationNs.toInt * 5 / 8 + degraded)
    (hstoppedNs : value stoppedNs = durationNs.toInt - 1) :
    Timed durationNs [(0, STATE_INITIALIZING), (readyNs, STATE_READY),
      (degradedNs, STATE_DEGRADED), (stoppedNs, STATE_STOPPED)] := by
  rw [value_int64] at hreadyNs hdegradedNs hstoppedNs
  refine ⟨?_, ?_⟩
  · simp only [List.pairwise_cons, List.forall_mem_cons, List.not_mem_nil, List.Pairwise.nil,
      hreadyNs, hdegradedNs, hstoppedNs, Int64.toInt_zero, false_imp_iff, implies_true, and_true]
    omega
  · simp only [List.forall_mem_cons, List.not_mem_nil, hreadyNs, hdegradedNs, hstoppedNs,
      Int64.toInt_zero, false_imp_iff, implies_true, and_true]
    omega

theorem value_max (a b : Int64) : value (max a b) = max (value a) (value b) := by
  show (if a ≤ b then b else a).toInt = max a.toInt b.toInt
  split
  · rename_i h
    rw [max_eq_right (Int64.le_iff_toInt_le.mp h)]
  · rename_i h
    rw [max_eq_left (Int.le_of_lt (Int64.lt_iff_toInt_lt.mp (Int64.not_le.mp h)))]

/-- How far a state's time is from the earliest it can be. -/
theorem spread_gives {durationNs : Int64} (hpos : 0 < durationNs.toInt) :
    ∃ eighth spread, div? durationNs 8 = some eighth ∧
      cast? Int64.toUInt64 (max eighth 1) = some spread ∧
      ∀ random : PortableRandom, ∃ drawn, cast? UInt64.toInt64 (random.bounded spread).1 =
        some drawn ∧ 0 ≤ value drawn ∧ value drawn < max (durationNs.toInt / 8) 1 := by
  have hlt := durationNs.toInt_lt
  obtain ⟨eighth, heighth, hdivided⟩ := gives_div (value_int64 durationNs)
    (show value (8 : Int64) = 8 from rfl) (Int.le_of_lt hpos) (by omega)
  have hmax : value (max eighth 1) = max (durationNs.toInt / 8) 1 := by
    rw [value_max, hdivided]
    rfl
  obtain ⟨spread, hspread, hwide⟩ := gives_toUInt64 hmax (by omega)
  exact ⟨eighth, spread, heighth, hspread, bounded_gives hwide (by omega) (by omega)⟩

/-- **The controller's schedule** is in order and ends before the duration does, whatever has been
drawn. -/
theorem controllerStates?_gives {durationNs : Int64} (hpos : 0 < durationNs.toInt)
    (hle : durationNs.toInt ≤ 3600000000000) (random : PortableRandom) :
    ∃ states, controllerStates? durationNs random = some states ∧ Timed durationNs states.1 := by
  obtain ⟨eighth, spread, heighth, hspread, hdraw⟩ := spread_gives hpos
  obtain ⟨ready, hready, hsoon⟩ := hdraw random
  obtain ⟨degraded, hdegraded, hlate⟩ := hdraw ((random.bounded spread).2.chance 500000).2
  obtain ⟨quarter, hquarter, hquartered⟩ := gives_div (value_int64 durationNs)
    (show value (4 : Int64) = 4 from rfl) (Int.le_of_lt hpos) (by omega)
  obtain ⟨readyNs, hreadyNs, hreadyAt⟩ := gives_add (b := ready) hquartered rfl
    (by rw [fits_int64]; omega)
  obtain ⟨stoppedNs, hstoppedNs, hstoppedAt⟩ := gives_sub (value_int64 durationNs)
    (show value (1 : Int64) = 1 from rfl) (by rw [fits_int64]; omega)
  obtain ⟨five, hfive, hfived⟩ := gives_mul (value_int64 durationNs)
    (show value (5 : Int64) = 5 from rfl) (by rw [fits_int64]; omega)
  obtain ⟨part, hpart, hparted⟩ := gives_div hfived (show value (8 : Int64) = 8 from rfl)
    (by omega) (by omega)
  obtain ⟨degradedNs, hdegradedNs, hdegradedAt⟩ := gives_add (b := degraded) hparted rfl
    (by rw [fits_int64]; omega)
  have hall := timed_states hpos hsoon hlate hreadyAt hdegradedAt hstoppedAt
  simp only [controllerStates?, heighth, hspread, hready, hquarter, hreadyNs, hstoppedNs,
    Option.bind_eq_bind, Option.bind_some, Option.pure_def]
  split
  · rw [hfive, Option.bind_some, hpart, Option.bind_some, hdegraded, Option.bind_some, hdegradedNs]
    exact ⟨_, rfl, hall⟩
  · have hsub : [(0, STATE_INITIALIZING), (readyNs, STATE_READY),
          (stoppedNs, STATE_STOPPED)].Sublist
        [(0, STATE_INITIALIZING), (readyNs, STATE_READY), (degradedNs, STATE_DEGRADED),
          (stoppedNs, STATE_STOPPED)] := .cons_cons _ (.cons_cons _ (.cons _ (.refl _)))
    exact ⟨_, rfl, hall.inOrder.sublist hsub, fun entry hentry =>
      hall.within entry (hsub.subset hentry)⟩

end TraceForge.Generator
