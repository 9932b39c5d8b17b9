import Mathlib.Algebra.Order.Field.Rat
import Mathlib.Data.List.Induction
import Mathlib.Tactic.Linarith
import Mathlib.Tactic.NormNum
import TraceForge.Library.RunningMaximum
import TraceForge.Library.Signed

/-! `SampleStats`: what the phone shows of a sensor's samples.

Integers are 64 bits wide and wrap around, and a `DateTime` is a number of microseconds in a range
of its own, so wide that the time between two of them need not be a `Duration`. The rate is computed as
the quotient that it is, without rounding.

A tracker keeps the greatest timestamp and counts the samples that do not exceed it, and these are
the ones that are not later than all before them (`Tracks`). -/
namespace TraceForge.Phone
open Library
open Signed RunningMaximum

/-! ### Time -/

/-- At most a hundred million days from the epoch. -/
structure DateTime where
  microsecondsSinceEpoch : Int64
  inRange : -8640000000000000000 ≤ microsecondsSinceEpoch ∧
    microsecondsSinceEpoch ≤ 8640000000000000000
deriving DecidableEq

namespace DateTime

instance : LinearOrder DateTime :=
  LinearOrder.lift' (fun t => t.microsecondsSinceEpoch.toInt) fun a b h => by
    cases a
    cases b
    cases Int64.toInt_inj.mp h
    rfl

def isAfter (this other : DateTime) : Bool :=
  decide (other.microsecondsSinceEpoch < this.microsecondsSinceEpoch)

/-- `inMicroseconds` of the `Duration` that `difference` gives. -/
def difference (this other : DateTime) : Int64 :=
  this.microsecondsSinceEpoch - other.microsecondsSinceEpoch

/-- The microseconds from one time to another. -/
def span (first last : DateTime) : ℤ :=
  last.microsecondsSinceEpoch.toInt - first.microsecondsSinceEpoch.toInt

theorem le_iff {a b : DateTime} : a ≤ b ↔ 0 ≤ a.span b := by
  rw [span, Int.sub_nonneg]
  rfl

theorem lt_iff {a b : DateTime} : a < b ↔ 0 < a.span b := by
  rw [span, Int.sub_pos]
  rfl

theorem span_lt (first last : DateTime) : first.span last < 2 ^ 64 := by
  obtain ⟨hearly, _⟩ := first.inRange
  obtain ⟨_, hlate⟩ := last.inRange
  have hlow : (-8640000000000000000 : Int64).toInt = -8640000000000000000 := rfl
  have hhigh : (8640000000000000000 : Int64).toInt = 8640000000000000000 := rfl
  rw [Int64.le_iff_toInt_le, hlow] at hearly
  rw [Int64.le_iff_toInt_le, hhigh] at hlate
  rw [span]
  omega

/-- **A duration** that is too long for 64 bits is negative. -/
theorem toInt_difference {first last : DateTime} (h : first ≤ last) :
    (last.difference first).toInt =
      if first.span last < 2 ^ 63 then first.span last else first.span last - 2 ^ 64 := by
  have hnonneg := le_iff.mp h
  have hbelow := span_lt first last
  rw [difference, Int64.toInt_sub]
  rw [span] at hnonneg hbelow ⊢
  split
  · rename_i hshort
    exact bmod_inRange ⟨by omega, by omega⟩
  · rename_i hlong
    have hwraps := Int.sub_bmod_right
      (last.microsecondsSinceEpoch.toInt - first.microsecondsSinceEpoch.toInt) (2 ^ 64)
    rw [← hwraps]
    exact bmod_inRange ⟨by omega, by omega⟩

theorem isAfter_iff {this other : DateTime} : this.isAfter other = true ↔ other < this := by
  rw [isAfter, decide_eq_true_iff, Int64.lt_iff_toInt_lt]
  rfl

end DateTime

/-! ### The tracker -/

def microsecondsPerSecond : Int64 := 1000000

/-- A quotient, where there is one. -/
def divide (dividend divisor : Int64) : Option ℚ :=
  if divisor = 0 then none else some (dividend.toInt / divisor.toInt)

structure SampleStats where
  count : Int64 := 0
  monotonicCount : Int64 := 0
  firstTimestamp : Option DateTime := none
  lastTimestamp : Option DateTime := none
  nonMonotonicTimestamps : Int64 := 0

namespace SampleStats

def observedRateHz (s : SampleStats) : Option ℚ :=
  match s.firstTimestamp, s.lastTimestamp with
  | some first, some last =>
    if s.monotonicCount < 2 then some 0
    else
      let elapsedMicroseconds := last.difference first
      if elapsedMicroseconds ≤ 0 then some 0
      else divide ((s.monotonicCount - 1) * microsecondsPerSecond) elapsedMicroseconds
  | _, _ => some 0

def add (timestamp : DateTime) (s : SampleStats) : SampleStats :=
  let s := {s with count := s.count + 1}
  if s.lastTimestamp.any fun previousTimestamp => !timestamp.isAfter previousTimestamp then
    {s with nonMonotonicTimestamps := s.nonMonotonicTimestamps + 1}
  else
    {s with
      firstTimestamp := some (s.firstTimestamp.getD timestamp)
      lastTimestamp := some timestamp
      monotonicCount := s.monotonicCount + 1}

/-- A new tracker that has been given these. -/
def addAll (timestamps : List DateTime) : SampleStats :=
  timestamps.foldl (fun s timestamp => s.add timestamp) {}

/-! ### What it tracks -/

/-- The state of a tracker that has been given these timestamps, of which the first and the greatest
are named. -/
structure Tracks (s : SampleStats) (timestamps : List DateTime) (first last : DateTime) : Prop where
  count : s.count = Int64.ofNat timestamps.length
  behind : s.nonMonotonicTimestamps = Int64.ofNat (behind timestamps)
  monotonic : ∃ monotonic, s.monotonicCount = Int64.ofNat monotonic ∧
    monotonic + RunningMaximum.behind timestamps = timestamps.length
  head : timestamps.head? = some first
  first : s.firstTimestamp = some first
  greatest : IsGreatest {t | t ∈ timestamps} last
  last : s.lastTimestamp = some last

theorem tracks_first (timestamp : DateTime) :
    ((({} : SampleStats).add timestamp)).Tracks [timestamp] timestamp timestamp where
  count := rfl
  behind := rfl
  monotonic := ⟨1, rfl, rfl⟩
  head := rfl
  first := rfl
  greatest := ⟨List.mem_cons_self, fun _ h => (List.mem_singleton.mp h).le⟩
  last := rfl

/-- **One more timestamp.** -/
theorem Tracks.add {s : SampleStats} {timestamps : List DateTime} {first last : DateTime}
    (h : s.Tracks timestamps first last) (timestamp : DateTime) :
    ∃ last', (s.add timestamp).Tracks (timestamps ++ [timestamp]) first last' := by
  obtain ⟨monotonic, hmonotonic, htotal⟩ := h.monotonic
  have hlength : (timestamps ++ [timestamp]).length = timestamps.length + 1 := by simp
  have hcount : s.count + 1 = Int64.ofNat (timestamps ++ [timestamp]).length := by
    rw [h.count, hlength, Int64.ofNat_add]
    rfl
  have hhead : (timestamps ++ [timestamp]).head? = some first := by
    rw [List.head?_append, h.head]
    rfl
  have hbehind := behind_snoc timestamps timestamp
  rw [if_congr (reached_iff h.greatest) rfl rfl] at hbehind
  by_cases hle : timestamp ≤ last
  · have hadd : s.add timestamp =
        {s with
          count := s.count + 1
          nonMonotonicTimestamps := s.nonMonotonicTimestamps + 1} := by
      have hstays : timestamp.isAfter last = false :=
        Bool.eq_false_iff.mpr fun hafter => absurd (DateTime.isAfter_iff.mp hafter) hle.not_gt
      simp [SampleStats.add, h.last, hstays]
    rw [if_pos hle] at hbehind
    rw [hadd]
    refine ⟨last, hcount, ?_, ⟨monotonic, hmonotonic, ?_⟩, hhead, h.first,
      isGreatest_snoc_of_le h.greatest hle, h.last⟩
    · show s.nonMonotonicTimestamps + 1 = _
      rw [h.behind, hbehind, Int64.ofNat_add]
      rfl
    · omega
  · have hlater := not_le.mp hle
    have hadd : s.add timestamp =
        {s with
          count := s.count + 1
          firstTimestamp := some first
          lastTimestamp := some timestamp
          monotonicCount := s.monotonicCount + 1} := by
      simp [SampleStats.add, h.last, h.first, DateTime.isAfter_iff.mpr hlater]
    rw [if_neg hle] at hbehind
    rw [hadd]
    refine ⟨timestamp, hcount, ?_, ⟨monotonic + 1, ?_, ?_⟩, hhead, rfl,
      isGreatest_snoc_of_lt h.greatest hlater, rfl⟩
    · rw [hbehind]
      exact h.behind
    · show s.monotonicCount + 1 = _
      rw [hmonotonic, Int64.ofNat_add]
      rfl
    · omega

/-- **Any timestamps**, in any order. -/
theorem addAll_tracks {timestamps : List DateTime} (h : timestamps ≠ []) :
    ∃ first last, (addAll timestamps).Tracks timestamps first last := by
  induction timestamps using List.reverseRecOn with
  | nil => exact absurd rfl h
  | append_singleton timestamps timestamp ih =>
    have hadd : addAll (timestamps ++ [timestamp]) = (addAll timestamps).add timestamp := by
      rw [addAll, List.foldl_append]
      rfl
    rw [hadd]
    by_cases hnil : timestamps = []
    · rw [hnil]
      exact ⟨timestamp, timestamp, tracks_first timestamp⟩
    · obtain ⟨first, last, htracks⟩ := ih hnil
      exact ⟨first, htracks.add timestamp⟩

/-! ### The rate -/

theorem Tracks.observedRateHz {s : SampleStats} {timestamps : List DateTime}
    {first last : DateTime} (h : s.Tracks timestamps first last) :
    s.observedRateHz =
      if s.monotonicCount < 2 ∨ last.difference first ≤ 0 then some 0
      else some ((((s.monotonicCount - 1) * microsecondsPerSecond).toInt : ℚ) /
        (last.difference first).toInt) := by
  simp only [SampleStats.observedRateHz, h.first, h.last]
  by_cases hfew : s.monotonicCount < 2
  · simp [hfew]
  by_cases hpast : last.difference first ≤ 0
  · simp [hfew, hpast]
  have hdivisor : last.difference first ≠ 0 := fun hzero => hpast (hzero ▸ Int64.le_refl 0)
  simp [hfew, hpast, divide, hdivisor]

/-- Nothing is divided when all timestamps are one, or too far apart. -/
theorem Tracks.rate_zero {s : SampleStats} {timestamps : List DateTime} {first last : DateTime}
    (h : s.Tracks timestamps first last)
    (hapart : (∀ t ∈ timestamps, t ≤ first) ∨ 2 ^ 63 ≤ first.span last) :
    s.observedRateHz = some 0 := by
  have hle : first ≤ last := h.greatest.2 (List.mem_of_mem_head? h.head)
  have helapsed : last.difference first ≤ 0 := by
    have hbelow : first.span last < 2 ^ 64 := DateTime.span_lt first last
    rw [Int64.le_iff_toInt_le, DateTime.toInt_difference hle, Int64.toInt_zero]
    rcases hapart with hall | hlong
    · have hge := DateTime.le_iff.mp (hall last h.greatest.1)
      have hnonneg := DateTime.le_iff.mp hle
      rw [DateTime.span] at hge hnonneg ⊢
      split <;> omega
    · split <;> omega
  rw [h.observedRateHz, if_pos (.inr helapsed)]

/-- **The rate**, as long as its dividend fits in 64 bits. -/
theorem Tracks.rate {s : SampleStats} {timestamps : List DateTime} {first last : DateTime}
    (h : s.Tracks timestamps first last)
    (hfits : (timestamps.length - RunningMaximum.behind timestamps - 1) * 1000000 < 2 ^ 63)
    (hapart : ¬((∀ t ∈ timestamps, t ≤ first) ∨ 2 ^ 63 ≤ first.span last)) :
    s.observedRateHz = some (((timestamps.length : ℚ) - RunningMaximum.behind timestamps - 1) *
      1000000 / first.span last) := by
  obtain ⟨monotonic, hmonotonic, htotal⟩ := h.monotonic
  have hsome := behind_lt (List.ne_nil_of_mem h.greatest.1)
  obtain ⟨hlater, hshort⟩ := not_or.mp hapart
  have hle : first ≤ last := h.greatest.2 (List.mem_of_mem_head? h.head)
  have hlt : first < last := lt_of_le_of_ne hle fun heq =>
    hlater fun t ht => heq ▸ h.greatest.2 ht
  have hspan := DateTime.toInt_difference hle
  rw [if_pos (Int.not_le.mp hshort)] at hspan
  have hcount : s.monotonicCount.toInt = monotonic := by
    rw [hmonotonic, Int64.toInt_ofNat_of_lt (by omega)]
  have hone : (1 : Int64).toInt = 1 := rfl
  have htwo : (2 : Int64).toInt = 2 := rfl
  have hmillion : microsecondsPerSecond.toInt = 1000000 := rfl
  have hpred : (s.monotonicCount - 1).toInt = monotonic - 1 := by
    rw [toInt_sub ⟨by omega, by omega⟩, hcount, hone]
  have hdividend : ((s.monotonicCount - 1) * microsecondsPerSecond).toInt =
      (monotonic - 1) * 1000000 := by
    rw [toInt_mul (by rw [hpred, hmillion]; exact ⟨by omega, by omega⟩), hpred, hmillion]
  have hvalue :
      (timestamps.length : ℚ) - RunningMaximum.behind timestamps - 1 = monotonic - 1 := by
    rw [← htotal]
    push_cast
    ring
  have hpositive : ¬last.difference first ≤ 0 := by
    rw [Int64.le_iff_toInt_le, hspan, Int64.toInt_zero]
    exact Int.not_le.mpr (DateTime.lt_iff.mp hlt)
  rw [h.observedRateHz, hvalue]
  split
  · rename_i hnone
    have hfew := Int64.lt_iff_toInt_lt.mp (hnone.resolve_right hpositive)
    have hsingle : monotonic = 1 := by omega
    simp [hsingle]
  · rw [hdividend, hspan]
    push_cast
    rfl

/-- **The statistics of any timestamps**, in any order, are what their names say. The rate is zero
when none is later than the first, or the greatest so much later that the duration does not fit in
64 bits; otherwise it is the quotient, as long as the dividend fits. -/
theorem sampleStats_defined {timestamps : List DateTime} (h : timestamps ≠ []) :
    ∃ first last rate, timestamps.head? = some first ∧ IsGreatest {t | t ∈ timestamps} last ∧
      (addAll timestamps).count = Int64.ofNat timestamps.length ∧
      (addAll timestamps).firstTimestamp = some first ∧
      (addAll timestamps).lastTimestamp = some last ∧
      (addAll timestamps).nonMonotonicTimestamps =
        Int64.ofNat (RunningMaximum.behind timestamps) ∧
      (addAll timestamps).observedRateHz = some rate ∧
      ((∀ t ∈ timestamps, t ≤ first) ∨ 2 ^ 63 ≤ first.span last → rate = 0) ∧
      ((timestamps.length - RunningMaximum.behind timestamps - 1) * 1000000 < 2 ^ 63 →
        0 ≤ rate ∧
        (¬((∀ t ∈ timestamps, t ≤ first) ∨ 2 ^ 63 ≤ first.span last) →
          rate = ((timestamps.length : ℚ) - RunningMaximum.behind timestamps - 1) * 1000000 /
            first.span last)) := by
  obtain ⟨first, last, htracks⟩ := addAll_tracks h
  obtain ⟨rate, hrate⟩ : ∃ rate, (addAll timestamps).observedRateHz = some rate := by
    rw [htracks.observedRateHz]
    split <;> exact ⟨_, rfl⟩
  have hzero (hapart) : rate = 0 := Option.some.inj (hrate.symm.trans (htracks.rate_zero hapart))
  refine ⟨first, last, rate, htracks.head, htracks.greatest, htracks.count, htracks.first,
    htracks.last, htracks.behind, hrate, hzero, fun hfits => ?_⟩
  have hquotient (hapart) := Option.some.inj (hrate.symm.trans (htracks.rate hfits hapart))
  refine ⟨?_, hquotient⟩
  by_cases hapart : (∀ t ∈ timestamps, t ≤ first) ∨ 2 ^ 63 ≤ first.span last
  · exact (hzero hapart).ge
  · have hsome : ((RunningMaximum.behind timestamps + 1 : ℕ) : ℚ) ≤ timestamps.length :=
      Nat.cast_le.mpr (behind_lt h)
    have hspan : (0 : ℚ) ≤ first.span last := Int.cast_nonneg_iff.mpr
      (DateTime.le_iff.mp (htracks.greatest.2 (List.mem_of_mem_head? htracks.head)))
    rw [hquotient hapart]
    push_cast at hsome
    refine div_nonneg (mul_nonneg ?_ (by norm_num)) hspan
    linarith

/-- Some microseconds after the epoch. -/
def tick (i : ℕ) : DateTime where
  microsecondsSinceEpoch := Int64.ofNat (min i 8640000000000000000)
  inRange := by
    have hlow : (-8640000000000000000 : Int64).toInt = -8640000000000000000 := rfl
    have hhigh : (8640000000000000000 : Int64).toInt = 8640000000000000000 := rfl
    rw [Int64.le_iff_toInt_le, Int64.le_iff_toInt_le, hlow, hhigh,
      Int64.toInt_ofNat_of_lt (by omega)]
    omega

/-- Three samples in forty milliseconds, the last of them out of order. -/
theorem sampleStats_defined_late :
    ∃ rate, (addAll [tick 0, tick 40000, tick 20000]).observedRateHz = some rate ∧ rate = 25 := by
  have hne : [tick 0, tick 40000, tick 20000] ≠ [] := List.cons_ne_nil _ _
  obtain ⟨first, last, rate, hfirst, hlast, _, _, _, _, hrate, _, hfits⟩ :=
    sampleStats_defined hne
  have hgreatest : IsGreatest {t | t ∈ [tick 0, tick 40000, tick 20000]} (tick 40000) := by
    refine ⟨by simp, fun t ht => ?_⟩
    simp only [Set.mem_ofPred_eq, List.mem_cons, List.not_mem_nil, or_false] at ht
    rcases ht with rfl | rfl | rfl <;> decide
  cases Option.some.inj hfirst
  cases hlast.unique hgreatest
  have hbehind : RunningMaximum.behind [tick 0, tick 40000, tick 20000] = 1 := by decide
  have hspan : (tick 0).span (tick 40000) = 40000 := by decide
  rw [hbehind, hspan] at hfits
  have hrate' := (hfits (by decide)).2 (by decide)
  refine ⟨rate, hrate, hrate'.trans ?_⟩
  norm_num

/-! ### Where the integers end -/

def earliest : DateTime := ⟨-8640000000000000000, by decide⟩
def latest : DateTime := ⟨8640000000000000000, by decide⟩

theorem tick_span {i j : ℕ} (hi : i ≤ 8640000000000000000) (hj : j ≤ 8640000000000000000) :
    (tick i).span (tick j) = j - i := by
  rw [DateTime.span, tick, tick, Int64.toInt_ofNat_of_lt (by omega),
    Int64.toInt_ofNat_of_lt (by omega), Nat.min_eq_left hi, Nat.min_eq_left hj]

/-- A sample in every microsecond. -/
theorem ticks_rate {n : ℕ} (hn : n + 2 ≤ 8640000000000000000) :
    (addAll ((List.range (n + 2)).map tick)).observedRateHz =
      some ((((Int64.ofNat (n + 2) - 1) * microsecondsPerSecond).toInt : ℚ) / (n + 1)) := by
  have hticks : ((List.range (n + 2)).map tick).Pairwise (· < ·) := by
    refine List.pairwise_map.mpr (List.pairwise_lt_range.imp_of_mem fun hi hj hlt => ?_)
    rw [List.mem_range] at hi hj
    rw [DateTime.lt_iff, tick_span (by omega) (by omega)]
    omega
  have hne : (List.range (n + 2)).map tick ≠ [] := by simp
  obtain ⟨first, last, htracks⟩ := addAll_tracks hne
  obtain ⟨monotonic, hmonotonic, htotal⟩ := htracks.monotonic
  rw [behind_eq_zero hticks, List.length_map, List.length_range] at htotal
  have hfirst : first = tick 0 := by
    have hhead := htracks.head
    rw [List.range_succ_eq_map] at hhead
    exact (Option.some.inj hhead).symm
  have hlast : last = tick (n + 1) := by
    refine htracks.greatest.unique ⟨List.mem_map_of_mem (List.mem_range.mpr (by omega)), ?_⟩
    rintro t ht
    obtain ⟨i, hi, rfl⟩ := List.mem_map.mp ht
    rw [List.mem_range] at hi
    rw [DateTime.le_iff, tick_span (by omega) (by omega)]
    omega
  have hspan : (tick 0).span (tick (n + 1)) = n + 1 := by
    rw [tick_span (by omega) (by omega)]
    omega
  have hle : tick 0 ≤ tick (n + 1) := DateTime.le_iff.mpr (by omega)
  have hdifference : ((tick (n + 1)).difference (tick 0)).toInt = n + 1 := by
    rw [DateTime.toInt_difference hle, hspan, if_pos (by omega)]
  have hdivides : ¬((addAll ((List.range (n + 2)).map tick)).monotonicCount < 2 ∨
      (tick (n + 1)).difference (tick 0) ≤ 0) := by
    have htwo : (2 : Int64).toInt = 2 := rfl
    rw [hmonotonic, Int64.lt_iff_toInt_lt, Int64.le_iff_toInt_le, hdifference, htwo,
      Int64.toInt_ofNat_of_lt (by omega), Int64.toInt_zero]
    omega
  rw [htracks.observedRateHz, hfirst, hlast, if_neg hdivides, hmonotonic, hdifference,
    show monotonic = n + 2 from htotal]
  push_cast
  rfl

/-- The whole range of times is too long for a duration, and after some nine trillion samples the
dividend is negative. -/
theorem sampleStats_overflow :
    ((addAll [earliest, latest]).observedRateHz = some 0 ∧ ¬(∀ t ∈ [earliest, latest], t ≤ earliest) ∧
      (0 : ℚ) < (2 - RunningMaximum.behind [earliest, latest] - 1) * 1000000 /
        earliest.span latest) ∧
    ∃ rate, (addAll ((List.range 9223372036856).map tick)).observedRateHz = some rate ∧
      rate < 0 := by
  refine ⟨⟨by decide, by decide, ?_⟩, _, ticks_rate (n := 9223372036854) (by omega), ?_⟩
  · have hbehind : RunningMaximum.behind [earliest, latest] = 0 := by decide
    have hspan : earliest.span latest = 17280000000000000000 := by decide
    rw [hbehind, hspan]
    norm_num
  · have hdividend : ((Int64.ofNat 9223372036856 - 1) * microsecondsPerSecond).toInt =
        -9223372036854551616 := by decide
    rw [hdividend]
    norm_num

end SampleStats

end TraceForge.Phone
