import TraceForge.Analysis.CheckedAnalyzer

/-! What the timing metrics of a report are, when nothing is rounded.

In exact arithmetic a percentile is the value at the nearest rank (`percentile_nearest`), and a
finished stream's metrics are those of the intervals between its arrivals in ascending order
(`finished_timed`). With the report that every log has, this makes each metric what it is defined to
be (`timing_exact`). -/
namespace TraceForge.Analysis
open Library Telemetry Recording
open OrderStatistics
open Std (ExtTreeMap)

/-! ### The definitions -/

/-- The arrival times of a stream, in append order. -/
def arrivalTimes (stream : StreamKey) (records : List (TelemetryEvent × Int64)) : List Int64 :=
  (viewOf (fun record => streamKey record.1) stream records).map Prod.snd

def nanoseconds (times : List Int64) : List ℤ := times.map Int64.toInt

/-- The differences of ascending arrival times, in milliseconds. -/
def intervalsOf (times : List Int64) : List ℚ :=
  (spacings (nanoseconds times)).map fun interval : ℤ => (interval : ℚ) / 1000000

/-- The deltas of the events whose source clock is UTC, in milliseconds. -/
def utcDeltasOf (records : List (TelemetryEvent × Int64)) : List ℚ :=
  (records.filter fun record => record.1.sourceClock = CLOCK_DOMAIN_UTC).map fun record =>
    ((record.2.toInt : ℚ) - record.1.sourceTimestampNs.toInt) / 1000000

/-- The intervals between arrivals: they are what the analyzer's loop makes. -/
structure Intervals (times : List Int64) : Prop where
  made : Arithmetic.exact.intervalsMs? (times.insertionSort (· ≤ ·)) = some (intervalsOf times)
  length : (spacings (nanoseconds times)).length = times.length - 1
  nonneg : ∀ interval ∈ spacings (nanoseconds times), 0 ≤ interval
  sum : ∀ least greatest, IsLeast {t | t ∈ nanoseconds times} least →
    IsGreatest {t | t ∈ nanoseconds times} greatest →
      (spacings (nanoseconds times)).sum = greatest - least

/-- The timing metrics of a stream with these arrival times. -/
structure StreamStats.Timed (times : List Int64) (stats : StreamStats) : Prop where
  intervals : Intervals times
  interarrival_isSome : stats.interarrivalP50Ms.isSome ↔ 2 ≤ times.length
  jitter_isSome : stats.jitterP95Ms.isSome ↔ 2 ≤ times.length
  rate_isSome : stats.observedRateHz.isSome ↔
    2 ≤ times.length ∧ ∃ t ∈ times, ∃ t' ∈ times, t ≠ t'
  rate : ∀ rate ∈ stats.observedRateHz, ∀ least greatest,
    IsLeast {t | t ∈ nanoseconds times} least →
      IsGreatest {t | t ∈ nanoseconds times} greatest →
        rate = ((times.length : ℚ) - 1) * 1000000000 / (greatest - least)
  interarrival : ∀ median ∈ stats.interarrivalP50Ms,
    NearestRank (1 / 2) (intervalsOf times) median
  jitter : ∀ median ∈ stats.interarrivalP50Ms, ∀ jitter ∈ stats.jitterP95Ms,
    NearestRank (95 / 100) ((intervalsOf times).map fun interval => |interval - median|) jitter

/-- The distribution of these deltas. -/
structure DistributionStats.Timed (deltas : List ℚ) (stats : DistributionStats) : Prop where
  p50 : NearestRank (1 / 2) deltas stats.p50Ms
  p95 : NearestRank (95 / 100) deltas stats.p95Ms
  p99 : NearestRank (99 / 100) deltas stats.p99Ms
  maximum : IsGreatest {delta | delta ∈ deltas} stats.maximumMs
  ordered : stats.p50Ms ≤ stats.p95Ms ∧ stats.p95Ms ≤ stats.p99Ms ∧ stats.p99Ms ≤ stats.maximumMs

/-- The timing metrics of a report, as the records of the log have them. -/
structure AnalysisReport.Timed (records : List (TelemetryEvent × Int64))
    (report : AnalysisReport) : Prop where
  streams : Enumerates (report.streams.map fun stats => (stats.producerId, stats.payload))
    (records.map fun record => streamKey record.1)
  perStream : ∀ stats ∈ report.streams,
    stats.Timed (arrivalTimes (stats.producerId, stats.payload) records)
  delta_isSome : report.utcArrivalDelta.isSome ↔ utcDeltasOf records ≠ []
  delta : ∀ delta ∈ report.utcArrivalDelta, delta.Timed (utcDeltasOf records)

/-! ### Percentiles -/

/-- **A percentile** is the value at the nearest rank. -/
theorem percentile_nearest {values : List ℚ} {fraction value : ℚ} (hpos : 0 < fraction)
    (hle : fraction ≤ 1) (h : Arithmetic.exact.percentile? values fraction = some value) :
    NearestRank fraction values value := by
  have hne : 0 < values.length := by
    refine Nat.pos_of_ne_zero fun hzero => ?_
    rw [List.length_eq_zero_iff.mp hzero] at h
    cases h
  obtain ⟨hfirst, hlast⟩ := rank_mem hpos hle hne
  have hplace : (values.insertionSort (· ≤ ·))[min
      (if ⌈fraction * (values.insertionSort (· ≤ ·)).length⌉.toNat = 0 then 0
        else ⌈fraction * (values.insertionSort (· ≤ ·)).length⌉.toNat - 1)
      ((values.insertionSort (· ≤ ·)).length - 1)]? = some value := h
  rw [List.length_insertionSort, Int.ceil_toNat, if_neg (by omega), Nat.min_eq_left (by omega)]
    at hplace
  have hranked := atRank_sorted hplace
  rwa [Nat.sub_add_cancel hfirst] at hranked

/-- **A distribution**, of some deltas. -/
theorem distribution_timed {deltas : List ℚ} (h : deltas ≠ []) {stats : DistributionStats}
    (hstats : Arithmetic.exact.distribution? deltas = some stats) : stats.Timed deltas := by
  obtain ⟨p50Ms, p95Ms, p99Ms, maximumMs, h50, h95, h99, hmaximum, heq⟩ :=
    Arithmetic.exact.distribution?_isSome h
  cases heq.symm.trans hstats
  have hrank50 := percentile_nearest (by norm_num) (by norm_num) h50
  have hrank95 := percentile_nearest (by norm_num) (by norm_num) h95
  have hrank99 := percentile_nearest (by norm_num) (by norm_num) h99
  have hgreatest : IsGreatest {delta | delta ∈ deltas} maximumMs := by
    obtain ⟨hmem, hall⟩ := List.max?_eq_some_iff.mp hmaximum
    exact ⟨hmem, hall⟩
  exact
    { p50 := hrank50
      p95 := hrank95
      p99 := hrank99
      maximum := hgreatest
      ordered := ⟨hrank50.le (by norm_num) hrank95, hrank95.le (by norm_num) hrank99,
        hgreatest.2 hrank99.mem⟩ }

/-! ### Streams -/

theorem nanoseconds_sorted (times : List Int64) :
    nanoseconds (times.insertionSort (· ≤ ·)) = (nanoseconds times).insertionSort (· ≤ ·) :=
  List.map_insertionSort _ _ _ times fun _ _ _ _ => Int64.le_iff_toInt_le

theorem exact_difference (a b : Int64) :
    Arithmetic.exact.difference a b = (a.toInt : ℚ) - b.toInt := rfl

theorem exact_milliseconds (ns : ℚ) : Arithmetic.exact.milliseconds ns = ns / 1000000 := rfl

/-- What the loop makes of the sorted timestamps are the intervals. -/
theorem exact_intervals (times : List Int64) :
    Arithmetic.exact.intervalsMs (times.insertionSort (· ≤ ·)) = intervalsOf times := by
  rw [Arithmetic.intervalsMs, intervalsOf, spacings, ← nanoseconds_sorted, nanoseconds,
    adjacent_map, List.map_map, List.map_map]
  refine List.map_congr_left fun pair _ => ?_
  rw [exact_milliseconds, exact_difference]
  simp

theorem intervals (times : List Int64) : Intervals times where
  made := by rw [Arithmetic.intervalsMs?_eq, exact_intervals]
  length := (spacings_length _).trans (congrArg (· - 1) (List.length_map _))
  nonneg := by
    intro interval hinterval
    obtain ⟨pair, hpair, rfl⟩ := List.mem_map.mp hinterval
    exact Int.sub_nonneg_of_le
      (adjacent_of_pairwise (List.pairwise_insertionSort (· ≤ ·) (nanoseconds times)) pair hpair)
  sum least greatest hleast hgreatest := (spacings_range hleast hgreatest).2

/-- The ends of the sorted timestamps. -/
theorem exact_ends {times : List Int64} {back front : Int64}
    (hback : (times.insertionSort (· ≤ ·)).getLast? = some back)
    (hfront : (times.insertionSort (· ≤ ·)).head? = some front) :
    IsLeast {t | t ∈ nanoseconds times} front.toInt ∧
      IsGreatest {t | t ∈ nanoseconds times} back.toInt := by
  refine ⟨isLeast_sorted ?_, isGreatest_sorted ?_⟩
  · rw [← nanoseconds_sorted, nanoseconds, List.head?_map, hfront]
    rfl
  · rw [← nanoseconds_sorted, nanoseconds, List.getLast?_map, hback]
    rfl

/-- Some timestamps differ when there is a span between the ends. -/
theorem span_pos_iff {times : List Int64} {back front : Int64}
    (hleast : IsLeast {t | t ∈ nanoseconds times} front.toInt)
    (hgreatest : IsGreatest {t | t ∈ nanoseconds times} back.toInt) :
    0 < Arithmetic.exact.difference back front ↔ ∃ t ∈ times, ∃ t' ∈ times, t ≠ t' := by
  rw [exact_difference, sub_pos, Int.cast_lt]
  constructor
  · intro hlt
    obtain ⟨t, ht, hfront⟩ := List.mem_map.mp hleast.1
    obtain ⟨t', ht', hback⟩ := List.mem_map.mp hgreatest.1
    refine ⟨t, ht, t', ht', ?_⟩
    rintro rfl
    omega
  · rintro ⟨t, ht, t', ht', hne⟩
    have hdiffer := mt Int64.toInt_inj.mp hne
    have hlow := hleast.2 (List.mem_map_of_mem ht)
    have hlow' := hleast.2 (List.mem_map_of_mem ht')
    have hhigh := hgreatest.2 (List.mem_map_of_mem ht)
    have hhigh' := hgreatest.2 (List.mem_map_of_mem ht')
    omega

/-- A rate is there when there is a span, and is the number of intervals over it. -/
theorem observedRate_exact {intervals : ℕ} {span : ℚ} {rate : Option ℚ}
    (h : Arithmetic.exact.observedRateHz? intervals span none = some rate) :
    (rate.isSome ↔ 0 < span) ∧ ∀ r ∈ rate, r = intervals * 1000000000 / span := by
  rw [Arithmetic.observedRateHz?] at h
  by_cases hpos : 0 < span
  · rw [if_pos hpos, Arithmetic.divide?, if_neg hpos.ne'] at h
    cases h
    refine ⟨⟨fun _ => hpos, fun _ => rfl⟩, fun r hr => ?_⟩
    cases hr
    rfl
  · rw [if_neg hpos] at h
    cases h
    refine ⟨⟨fun hnone => ?_, fun hspan => absurd hspan hpos⟩, fun r hr => ?_⟩
    · cases hnone
    · cases hr

/-- **A finished stream**, of an accumulator that had no metrics. -/
theorem finished_timed {stream : StreamAccumulator} (hrate : stream.stats.observedRateHz = none)
    (hinterarrival : stream.stats.interarrivalP50Ms = none)
    (hjitter : stream.stats.jitterP95Ms = none) :
    (Arithmetic.exact.finished stream).stats.Timed stream.collectorTimestamps := by
  by_cases h : stream.collectorTimestamps.length < 2
  · have hfinished : Arithmetic.exact.finished stream = stream := by
      rw [Arithmetic.finished, Arithmetic.finishStream?, if_pos h]
      rfl
    rw [hfinished]
    refine ⟨intervals _, ?_, ?_, ?_, ?_, ?_, ?_⟩
    · simp [hinterarrival, h]
    · simp [hjitter, h]
    · simp [hrate, h]
    · simp [hrate]
    · simp [hinterarrival]
    · simp [hinterarrival]
  obtain ⟨back, front, rate, median, jitter, hback, hfront, hobserved, hmedian, hp95, hfinished⟩ :=
    Arithmetic.exact.finishStream?_timed (Nat.not_lt.mp h)
  obtain ⟨hleast, hgreatest⟩ := exact_ends hback hfront
  rw [exact_intervals] at hmedian hp95
  rw [hrate, List.length_insertionSort] at hobserved
  obtain ⟨hsome, hvalue⟩ := observedRate_exact hobserved
  rw [span_pos_iff hleast hgreatest] at hsome
  have htwo := Nat.not_lt.mp h
  rw [Arithmetic.finished, hfinished]
  refine ⟨intervals _, ⟨fun _ => htwo, fun _ => rfl⟩, ⟨fun _ => htwo, fun _ => rfl⟩,
    hsome.trans (and_iff_right htwo).symm, fun r hr least greatest hleast' hgreatest' => ?_, ?_, ?_⟩
  · rw [hvalue r hr, exact_difference, hleast.unique hleast', hgreatest.unique hgreatest',
      Nat.cast_sub (by omega), Nat.cast_one]
  · intro m hm
    cases hm
    exact percentile_nearest (by norm_num) (by norm_num) hmedian
  · intro m hm j hj
    cases hm
    cases hj
    exact percentile_nearest (by norm_num) (by norm_num) hp95

/-! ### The log -/

/-- A stream's accumulator holds the arrival times of its records, and no metrics yet. -/
theorem streaming_untimed (own : List (TelemetryEvent × Int64)) :
    let stream := (own.foldl Streaming.add (none, fun _ => none)).1.getD default
    stream.collectorTimestamps = own.map Prod.snd ∧ stream.stats.observedRateHz = none ∧
      stream.stats.interarrivalP50Ms = none ∧ stream.stats.jitterP95Ms = none := by
  induction own using List.reverseRecOn with
  | nil => exact ⟨rfl, rfl, rfl, rfl⟩
  | append_singleton before record ih =>
    obtain ⟨htimes, hrate, hinterarrival, hjitter⟩ := ih
    rw [List.foldl_append, List.map_append]
    exact ⟨congrArg (· ++ [record.2]) htimes, hrate, hinterarrival, hjitter⟩

theorem entry_timed {records : List (TelemetryEvent × Int64)}
    {entry : StreamKey × StreamAccumulator}
    (h : entry ∈ (records.foldl (analyzeRecord 0) {}).streams.toList) :
    (Arithmetic.exact.finished entry.2).stats.Timed (arrivalTimes entry.1 records) := by
  have hvalue := ExtTreeMap.mem_toList_iff_getElem?_eq_some.mp h
  rw [streams_view] at hvalue
  obtain ⟨htimes, hrate, hinterarrival, hjitter⟩ :=
    streaming_untimed (viewOf (fun record => streamKey record.1) entry.1 records)
  rw [hvalue, Option.getD_some] at htimes hrate hinterarrival hjitter
  rw [arrivalTimes, ← htimes]
  exact finished_timed hrate hinterarrival hjitter

/-- A finished stream keeps its name. -/
theorem finished_name (stream : StreamAccumulator) :
    ((Arithmetic.exact.finished stream).stats.producerId,
      (Arithmetic.exact.finished stream).stats.payload) =
        (stream.stats.producerId, stream.stats.payload) := by
  by_cases h : stream.collectorTimestamps.length < 2
  · rw [Arithmetic.finished, Arithmetic.finishStream?, if_pos h]
    rfl
  · obtain ⟨_, _, _, _, _, _, _, _, _, _, hfinished⟩ :=
      Arithmetic.exact.finishStream?_timed (Nat.not_lt.mp h)
    rw [Arithmetic.finished, hfinished]
    rfl

/-- The streams of the report go by the names of the accumulators. -/
theorem finished_names (records : List (TelemetryEvent × Int64)) :
    ((records.foldl (analyzeRecord 0) {}).streams.toList.map fun entry =>
      ((Arithmetic.exact.finished entry.2).stats.producerId,
        (Arithmetic.exact.finished entry.2).stats.payload)) =
      (records.foldl (analyzeRecord 0) {}).streams.keys := by
  rw [← ExtTreeMap.map_fst_toList_eq_keys]
  exact List.map_congr_left fun entry hentry =>
    (finished_name entry.2).trans (stream_entry hentry).2

theorem exact_deltas (records : List (TelemetryEvent × Int64)) :
    Arithmetic.exact.utcArrivalDeltas records = utcDeltasOf records := by
  induction records with
  | nil => rfl
  | cons record rest ih =>
    rw [Arithmetic.utcArrivalDeltas, List.flatMap_cons, ← Arithmetic.utcArrivalDeltas, ih,
      Arithmetic.utcArrivalDelta, utcDeltasOf, utcDeltasOf]
    by_cases hutc : record.1.sourceClock = CLOCK_DOMAIN_UTC
    · simp only [List.filter_cons, hutc, decide_true, if_true]
      rfl
    · simp only [List.filter_cons, hutc, decide_false, if_false]
      rfl

theorem deltas_timed {deltas : List ℚ} {delta : Option DistributionStats}
    (h : Arithmetic.exact.deltaStats? deltas = some delta) :
    (delta.isSome ↔ deltas ≠ []) ∧ ∀ stats ∈ delta, stats.Timed deltas := by
  rw [Arithmetic.deltaStats?] at h
  by_cases hempty : deltas = []
  · subst hempty
    cases h
    refine ⟨⟨fun hnone => ?_, fun hne => absurd rfl hne⟩, fun stats hstats => ?_⟩
    · cases hnone
    · cases hstats
  · rw [if_neg (mt List.isEmpty_iff.mp hempty)] at h
    obtain ⟨stats, hstats, rfl⟩ := Option.map_eq_some_iff.mp h
    refine ⟨⟨fun _ => hempty, fun _ => rfl⟩, fun stats' hsame => ?_⟩
    cases hsame
    exact distribution_timed hempty hstats

/-- **The timing metrics are what they are defined to be**, in the report that exact arithmetic
makes of any complete log. Every log has a report: no element is read that is not there, and nothing
is divided by zero, nor in the arithmetic of any machine, where the report is the analyzer's. -/
theorem timing_exact (pb : Protobuf) (access : Access) (file : File) (maximumRecords : UInt64) :
    ∃ report, Arithmetic.exact.analyzeLog? pb access file maximumRecords = some report ∧
      ((logToAnalyze pb access file maximumRecords).status = .complete →
        report.Timed (arrivals (logToAnalyze pb access file maximumRecords).records)) ∧
      ∀ digits, (Arithmetic.machine digits).analyzeLog? pb access file maximumRecords =
        some (analyzeLog digits pb access file maximumRecords) := by
  by_cases hcomplete : (logToAnalyze pb access file maximumRecords).status = .complete
  · obtain ⟨durationSeconds, utcArrivalDelta, _, hdelta, hreport⟩ :=
      Arithmetic.exact.analyzeLog?_complete hcomplete
    refine ⟨_, hreport, fun _ => ?_,
      fun digits => Arithmetic.analyzeLog?_machine digits pb access file maximumRecords⟩
    rw [exact_deltas] at hdelta
    obtain ⟨hsome, htimed⟩ := deltas_timed hdelta
    refine ⟨?_, ?_, hsome, htimed⟩
    · rw [List.map_map]
      exact finished_names _ ▸ streams_enumerate 0 _
    · intro stats hstats
      obtain ⟨entry, hentry, rfl⟩ := List.mem_map.mp hstats
      rw [finished_name, (stream_entry hentry).2]
      exact entry_timed hentry
  · refine ⟨_, if_pos hcomplete, fun h => absurd h hcomplete,
      fun digits => Arithmetic.analyzeLog?_machine digits pb access file maximumRecords⟩

/-- Two streams, and one of them has two records. -/
theorem timing_exact_gap : ∃ report,
    Arithmetic.exact.analyzeLog? gapPb .granted gapLog 1000000 = some report ∧
      report.Timed [(Wire.sampleEvent 1, 5), (otherEvent, 6), (Wire.sampleEvent 4, 7)] := by
  obtain ⟨report, hreport, htimed, _⟩ := timing_exact gapPb .granted gapLog 1000000
  refine ⟨report, hreport, ?_⟩
  rw [gap_read] at htimed
  exact htimed rfl

end TraceForge.Analysis
