import TraceForge.Analysis.Counters
import TraceForge.Library.Checked
import TraceForge.Library.OrderStatistics

/-! `analyze_log` in any arithmetic, with every access checked.

The functions here are those of the analyzer, but they have no value when an element is read that is
not there or a number is divided by zero, and rounding is a parameter: `Arithmetic.machine` rounds
as the analyzer does and `Arithmetic.exact` not at all. In every arithmetic there is a report
(`analyzeLog?_complete`), and the machine's is the analyzer's (`analyzeLog?_machine`). -/
namespace TraceForge.Analysis
open Library Telemetry Recording

/-- What a number becomes as a double, and as a `long double`. -/
structure Arithmetic where
  toDouble : ℚ → ℚ
  toLongDouble : ℚ → ℚ

namespace Arithmetic

/-- Floating-point arithmetic whose `long double` has this many digits. -/
def machine (digits : ℕ) : Arithmetic := ⟨Analysis.toDouble, roundTo digits⟩

/-- Rational numbers. -/
def exact : Arithmetic := ⟨id, id⟩

variable (arithmetic : Arithmetic)

/-! ### Numbers -/

def divide? (dividend divisor : ℚ) : Option ℚ :=
  if divisor = 0 then none else some (arithmetic.toLongDouble (dividend / divisor))

def difference (a b : Int64) : ℚ :=
  arithmetic.toLongDouble (arithmetic.toLongDouble a.toInt - arithmetic.toLongDouble b.toInt)

def nanosecondsToMilliseconds? (nanoseconds : ℚ) : Option ℚ :=
  (arithmetic.divide? nanoseconds kNanosecondsPerMillisecond).map arithmetic.toDouble

def percentile? (values : List ℚ) (fraction : ℚ) : Option ℚ :=
  let values := values.insertionSort (· ≤ ·)
  let rank := ⌈arithmetic.toDouble
    (arithmetic.toDouble fraction * arithmetic.toDouble values.length)⌉.toNat
  let index := if rank = 0 then 0 else rank - 1
  values[min index (values.length - 1)]?

def distribution? (values : List ℚ) : Option DistributionStats := do
  let p50Ms ← arithmetic.percentile? values (1 / 2)
  let p95Ms ← arithmetic.percentile? values (95 / 100)
  let p99Ms ← arithmetic.percentile? values (99 / 100)
  let maximumMs ← values.max?
  return ⟨UInt64.ofNat values.length, p50Ms, p95Ms, p99Ms, maximumMs⟩

/-! ### Streams -/

/-- The rate of a span that is not empty; otherwise what was there before. -/
def observedRateHz? (intervals : ℕ) (spanNs : ℚ) (before : Option ℚ) : Option (Option ℚ) :=
  if 0 < spanNs then
    (arithmetic.divide? (arithmetic.toLongDouble
      (arithmetic.toLongDouble intervals * kNanosecondsPerSecond)) spanNs).map
        fun rate => some (arithmetic.toDouble rate)
  else some before

def intervalsMs? (timestamps : List Int64) : Option (List ℚ) :=
  (List.range (timestamps.length - 1)).mapM fun i => do
    let next ← timestamps[i + 1]?
    let previous ← timestamps[i]?
    arithmetic.nanosecondsToMilliseconds? (arithmetic.difference next previous)

def finishStream? (stream : StreamAccumulator) : Option StreamAccumulator :=
  if stream.collectorTimestamps.length < 2 then some stream
  else do
    let timestamps := stream.collectorTimestamps.insertionSort (· ≤ ·)
    let back ← timestamps.getLast?
    let front ← timestamps.head?
    let observedRateHz ← arithmetic.observedRateHz? (timestamps.length - 1)
      (arithmetic.difference back front) stream.stats.observedRateHz
    let intervalsMs ← arithmetic.intervalsMs? timestamps
    let medianIntervalMs ← arithmetic.percentile? intervalsMs (1 / 2)
    let absoluteDeviationsMs :=
      intervalsMs.map fun intervalMs => |arithmetic.toDouble (intervalMs - medianIntervalMs)|
    let jitterP95Ms ← arithmetic.percentile? absoluteDeviationsMs (95 / 100)
    return {
      stats :=
        { stream.stats with
          observedRateHz := observedRateHz
          interarrivalP50Ms := some medianIntervalMs
          jitterP95Ms := some jitterP95Ms }
      collectorTimestamps := timestamps }

/-! ### The log -/

def utcArrivalDelta? (event : TelemetryEvent) (collectorArrivalTimestampNs : Int64) :
    Option (List ℚ) :=
  if event.sourceClock = CLOCK_DOMAIN_UTC then
    (arithmetic.nanosecondsToMilliseconds?
      (arithmetic.difference collectorArrivalTimestampNs event.sourceTimestampNs)).map ([·])
  else some []

/-- The loop's body. Only the deltas are computed; the rest is what it is in any arithmetic. -/
def analyzeRecord? (analysis : Analyzing) (record : TelemetryEvent × Int64) :
    Option Analyzing := do
  let delta ← arithmetic.utcArrivalDelta? record.1 record.2
  return { analyzeRecord 0 analysis record with
    utcArrivalDeltaMs := analysis.utcArrivalDeltaMs ++ delta }

def duration? (analysis : Analyzing) : Option (Option ℚ) :=
  match analysis.firstCollectorTimestamp with
  | none => some none
  | some first => do
    let last ← analysis.lastCollectorTimestamp
    let seconds ← arithmetic.divide? (arithmetic.difference last first) kNanosecondsPerSecond
    return some (arithmetic.toDouble seconds)

def deltaStats? (utcArrivalDeltaMs : List ℚ) : Option (Option DistributionStats) :=
  if utcArrivalDeltaMs.isEmpty then some none
  else (arithmetic.distribution? utcArrivalDeltaMs).map some

section
-- named, so that the definition holds no proof of its own
local instance orientedKeys : Std.TransCmp (compare (α := StreamKey)) := inferInstance

def report? (records fileBytes : UInt64) (analysis : Analyzing) : Option AnalysisReport := do
  let durationSeconds ← arithmetic.duration? analysis
  let streams ← analysis.streams.toList.mapM fun entry => arithmetic.finishStream? entry.2
  let utcArrivalDelta ← arithmetic.deltaStats? analysis.utcArrivalDeltaMs
  return {
    status := .complete
    records := records
    fileBytes := fileBytes
    durationSeconds := durationSeconds
    producers := analysis.producers.toList.map fun entry => entry.2.stats
    streams := streams.map StreamAccumulator.stats
    utcArrivalDelta := utcArrivalDelta
    faults := analysis.faults
    message := "analysis completed" }

end

def analyzeLog? (pb : Protobuf) (access : Access) (file : File) (maximumRecords : UInt64) :
    Option AnalysisReport :=
  let log := logToAnalyze pb access file maximumRecords
  if log.status ≠ .complete then
    some { fileBytes := log.fileSize
           message := "cannot analyze telemetry log: " ++ log.message }
  else do
    let analysis ← (arrivals log.records).foldlM arithmetic.analyzeRecord? {}
    arithmetic.report? (UInt64.ofNat log.records.length) log.fileSize analysis

/-! ### Percentiles have their values -/

/-- Nanoseconds as milliseconds. -/
def milliseconds (nanoseconds : ℚ) : ℚ :=
  arithmetic.toDouble (arithmetic.toLongDouble (nanoseconds / kNanosecondsPerMillisecond))

theorem nanosecondsToMilliseconds?_eq (nanoseconds : ℚ) :
    arithmetic.nanosecondsToMilliseconds? nanoseconds =
      some (arithmetic.milliseconds nanoseconds) := by
  have hunit : kNanosecondsPerMillisecond ≠ 0 := by decide
  rw [nanosecondsToMilliseconds?, divide?, if_neg hunit]
  rfl

/-- The place of a percentile is one of the list's, however the rank is rounded. -/
theorem percentile?_isSome {values : List ℚ} (h : values ≠ []) (fraction : ℚ) :
    ∃ value, arithmetic.percentile? values fraction = some value := by
  refine ⟨_, List.getElem?_eq_getElem ?_⟩
  have hpos := List.length_pos_iff.mpr h
  rw [List.length_insertionSort]
  omega

theorem max?_isSome {values : List ℚ} (h : values ≠ []) : ∃ value, values.max? = some value :=
  Option.ne_none_iff_exists'.mp (mt List.max?_eq_none_iff.mp h)

theorem distribution?_isSome {values : List ℚ} (h : values ≠ []) :
    ∃ p50Ms p95Ms p99Ms maximumMs, arithmetic.percentile? values (1 / 2) = some p50Ms ∧
      arithmetic.percentile? values (95 / 100) = some p95Ms ∧
      arithmetic.percentile? values (99 / 100) = some p99Ms ∧
      values.max? = some maximumMs ∧
      arithmetic.distribution? values =
        some ⟨UInt64.ofNat values.length, p50Ms, p95Ms, p99Ms, maximumMs⟩ := by
  obtain ⟨p50Ms, h50⟩ := arithmetic.percentile?_isSome h (1 / 2)
  obtain ⟨p95Ms, h95⟩ := arithmetic.percentile?_isSome h (95 / 100)
  obtain ⟨p99Ms, h99⟩ := arithmetic.percentile?_isSome h (99 / 100)
  obtain ⟨maximumMs, hmaximum⟩ := max?_isSome h
  refine ⟨p50Ms, p95Ms, p99Ms, maximumMs, h50, h95, h99, hmaximum, ?_⟩
  rw [distribution?, h50, h95, h99, hmaximum]
  rfl

/-! ### Streams are finished -/

/-- What the loop over the timestamps makes. -/
def intervalsMs (timestamps : List Int64) : List ℚ :=
  (adjacent timestamps).map fun pair =>
    arithmetic.milliseconds (arithmetic.difference pair.2 pair.1)

theorem intervalsMs?_eq (timestamps : List Int64) :
    arithmetic.intervalsMs? timestamps = some (arithmetic.intervalsMs timestamps) := by
  rw [intervalsMs?]
  simp only [nanosecondsToMilliseconds?_eq]
  exact OrderStatistics.mapM_adjacent
    (fun previous next => arithmetic.milliseconds (arithmetic.difference next previous)) timestamps

theorem intervalsMs_ne_nil (timestamps : List Int64) (h : 2 ≤ timestamps.length) :
    arithmetic.intervalsMs timestamps ≠ [] := by
  refine List.ne_nil_of_length_pos ?_
  rw [intervalsMs, List.length_map, OrderStatistics.adjacent_length]
  omega

/-- **A stream of two records or more** has its metrics. -/
theorem finishStream?_timed {stream : StreamAccumulator}
    (h : 2 ≤ stream.collectorTimestamps.length) :
    let timestamps := stream.collectorTimestamps.insertionSort (· ≤ ·)
    ∃ back front rate median jitter, timestamps.getLast? = some back ∧
      timestamps.head? = some front ∧
      arithmetic.observedRateHz? (timestamps.length - 1) (arithmetic.difference back front)
        stream.stats.observedRateHz = some rate ∧
      arithmetic.percentile? (arithmetic.intervalsMs timestamps) (1 / 2) = some median ∧
      arithmetic.percentile? ((arithmetic.intervalsMs timestamps).map fun intervalMs =>
        |arithmetic.toDouble (intervalMs - median)|) (95 / 100) = some jitter ∧
      arithmetic.finishStream? stream = some
        { stats :=
            { stream.stats with
              observedRateHz := rate
              interarrivalP50Ms := some median
              jitterP95Ms := some jitter }
          collectorTimestamps := timestamps } := by
  intro timestamps
  have hlength : timestamps.length = stream.collectorTimestamps.length :=
    List.length_insertionSort ..
  have hne : timestamps ≠ [] := List.ne_nil_of_length_pos (by omega)
  obtain ⟨back, hback⟩ : ∃ back, timestamps.getLast? = some back :=
    ⟨_, List.getLast?_eq_some_getLast hne⟩
  obtain ⟨front, hfront⟩ : ∃ front, timestamps.head? = some front :=
    ⟨_, List.head?_eq_some_head hne⟩
  obtain ⟨rate, hrate⟩ : ∃ rate, arithmetic.observedRateHz? (timestamps.length - 1)
      (arithmetic.difference back front) stream.stats.observedRateHz = some rate := by
    rw [observedRateHz?]
    split
    · rename_i hpos
      rw [divide?, if_neg hpos.ne']
      exact ⟨_, rfl⟩
    · exact ⟨_, rfl⟩
  have hintervals := arithmetic.intervalsMs_ne_nil timestamps (by omega)
  obtain ⟨median, hmedian⟩ := arithmetic.percentile?_isSome hintervals (1 / 2)
  have hdeviations : (arithmetic.intervalsMs timestamps).map (fun intervalMs =>
      |arithmetic.toDouble (intervalMs - median)|) ≠ [] := mt List.map_eq_nil_iff.mp hintervals
  obtain ⟨jitter, hjitter⟩ := arithmetic.percentile?_isSome hdeviations (95 / 100)
  refine ⟨back, front, rate, median, jitter, hback, hfront, hrate, hmedian, hjitter, ?_⟩
  rw [finishStream?, if_neg (by omega)]
  simp only [timestamps] at hback hfront hrate hmedian hjitter
  simp only [hback, hfront, hrate, hmedian, hjitter, intervalsMs?_eq, bind, Option.bind_some, pure]
  rfl

theorem finishStream?_isSome (stream : StreamAccumulator) :
    ∃ finished, arithmetic.finishStream? stream = some finished := by
  by_cases h : stream.collectorTimestamps.length < 2
  · exact ⟨stream, if_pos h⟩
  · obtain ⟨_, _, _, _, _, _, _, _, _, _, hfinished⟩ :=
      arithmetic.finishStream?_timed (Nat.not_lt.mp h)
    exact ⟨_, hfinished⟩

/-! ### A log has its report -/

/-- The delta of an event whose source clock is UTC. -/
def utcArrivalDelta (event : TelemetryEvent) (collectorArrivalTimestampNs : Int64) : List ℚ :=
  if event.sourceClock = CLOCK_DOMAIN_UTC then
    [arithmetic.milliseconds
      (arithmetic.difference collectorArrivalTimestampNs event.sourceTimestampNs)]
  else []

theorem utcArrivalDelta?_eq (event : TelemetryEvent) (arrival : Int64) :
    arithmetic.utcArrivalDelta? event arrival =
      some (arithmetic.utcArrivalDelta event arrival) := by
  rw [utcArrivalDelta?, utcArrivalDelta, nanosecondsToMilliseconds?_eq]
  split <;> rfl

/-- The loop's variables with other deltas. -/
def withDeltas (deltas : List ℚ) (analysis : Analyzing) : Analyzing :=
  { analysis with utcArrivalDeltaMs := deltas }

def utcArrivalDeltas (records : List (TelemetryEvent × Int64)) : List ℚ :=
  records.flatMap fun record => arithmetic.utcArrivalDelta record.1 record.2

/-- **The loop** gathers the deltas beside everything else. -/
theorem foldlM_analyzeRecord? (records : List (TelemetryEvent × Int64)) (analysis : Analyzing)
    (deltas : List ℚ) :
    records.foldlM arithmetic.analyzeRecord? (withDeltas deltas analysis) =
      some (withDeltas (deltas ++ arithmetic.utcArrivalDeltas records)
        (records.foldl (analyzeRecord 0) analysis)) := by
  induction records generalizing analysis deltas with
  | nil =>
    rw [utcArrivalDeltas, List.flatMap_nil, List.append_nil]
    rfl
  | cons record rest ih =>
    have hturn : arithmetic.analyzeRecord? (withDeltas deltas analysis) record =
        some (withDeltas (deltas ++ arithmetic.utcArrivalDelta record.1 record.2)
          (analyzeRecord 0 analysis record)) := by
      rw [analyzeRecord?, utcArrivalDelta?_eq]
      rfl
    rw [List.foldlM_cons, hturn, List.foldl_cons, utcArrivalDeltas, List.flatMap_cons,
      ← List.append_assoc]
    exact ih _ _

/-- Both ends of the log are known after its first record. -/
theorem ends_isSome (digits : ℕ) (records : List (TelemetryEvent × Int64)) :
    let analysis := records.foldl (analyzeRecord digits) {}
    analysis.firstCollectorTimestamp.isSome = analysis.lastCollectorTimestamp.isSome := by
  induction records using List.reverseRecOn with
  | nil => rfl
  | append_singleton before record _ =>
    have hearlier (t : Int64) (first) : (earlier t first).isSome = true := by
      unfold earlier
      split
      · rfl
      · split <;> rfl
    have hlater (t : Int64) (last) : (later t last).isSome = true := by
      unfold later
      split
      · rfl
      · split <;> rfl
    rw [List.foldl_append]
    exact (hearlier _ _).trans (hlater _ _).symm

theorem duration?_isSome {analysis : Analyzing}
    (h : analysis.firstCollectorTimestamp.isSome = analysis.lastCollectorTimestamp.isSome) :
    ∃ duration, arithmetic.duration? analysis = some duration := by
  have hunit : kNanosecondsPerSecond ≠ 0 := by decide
  unfold duration?
  cases hfirst : analysis.firstCollectorTimestamp with
  | none => exact ⟨none, rfl⟩
  | some first =>
    rw [hfirst] at h
    obtain ⟨last, hlast⟩ := Option.isSome_iff_exists.mp h.symm
    simp only [hlast, divide?, if_neg hunit]
    exact ⟨_, rfl⟩

/-- What becomes of a stream. -/
def finished (stream : StreamAccumulator) : StreamAccumulator :=
  (arithmetic.finishStream? stream).getD stream

theorem finishStream?_eq (stream : StreamAccumulator) :
    arithmetic.finishStream? stream = some (arithmetic.finished stream) := by
  obtain ⟨finished, hfinished⟩ := arithmetic.finishStream?_isSome stream
  rw [Arithmetic.finished, hfinished]
  rfl

theorem deltaStats?_isSome (deltas : List ℚ) :
    ∃ stats, arithmetic.deltaStats? deltas = some stats := by
  unfold deltaStats?
  split
  · exact ⟨none, rfl⟩
  · rename_i hsome
    obtain ⟨_, _, _, _, _, _, _, _, hstats⟩ :=
      arithmetic.distribution?_isSome (mt List.isEmpty_iff.mpr hsome)
    rw [hstats]
    exact ⟨_, rfl⟩

/-- **The report**, from what its parts come to. -/
theorem report?_eq {analysis : Analyzing} {durationSeconds : Option ℚ}
    {utcArrivalDelta : Option DistributionStats}
    (hduration : arithmetic.duration? analysis = some durationSeconds)
    (hdelta : arithmetic.deltaStats? analysis.utcArrivalDeltaMs = some utcArrivalDelta)
    (records fileBytes : UInt64) :
    arithmetic.report? records fileBytes analysis = some
      { status := .complete
        records := records
        fileBytes := fileBytes
        durationSeconds := durationSeconds
        producers := analysis.producers.toList.map fun entry => entry.2.stats
        streams := analysis.streams.toList.map fun entry => (arithmetic.finished entry.2).stats
        utcArrivalDelta := utcArrivalDelta
        faults := analysis.faults
        message := "analysis completed" } := by
  have hstreams := Checked.mapM_some (l := analysis.streams.toList)
    fun entry _ => arithmetic.finishStream?_eq entry.2
  rw [report?, hduration, hdelta, hstreams]
  simp only [bind, Option.bind_some, pure, List.map_map]
  rfl

/-! ### The machine's report -/

section Machine
variable (digits : ℕ)

theorem percentile?_machine {values : List ℚ} (h : values ≠ []) (fraction : ℚ) :
    (machine digits).percentile? values fraction = some (percentile values fraction) := by
  obtain ⟨value, hvalue⟩ := (machine digits).percentile?_isSome h fraction
  have hsame : percentile values fraction =
      ((machine digits).percentile? values fraction).getD 0 := List.getD_eq_getElem?_getD
  rw [hsame, hvalue]
  rfl

theorem deltaStats?_machine (deltas : List ℚ) :
    (machine digits).deltaStats? deltas =
      some (if deltas.isEmpty then none else some (distribution deltas)) := by
  rw [deltaStats?]
  split
  · rfl
  · rename_i hsome
    have hne := mt List.isEmpty_iff.mpr hsome
    obtain ⟨p50Ms, p95Ms, p99Ms, maximumMs, h50, h95, h99, hmaximum, hstats⟩ :=
      (machine digits).distribution?_isSome hne
    rw [percentile?_machine digits hne] at h50 h95 h99
    cases h50
    cases h95
    cases h99
    rw [hstats, distribution, hmaximum]
    rfl

theorem duration?_machine {analysis : Analyzing}
    (h : analysis.firstCollectorTimestamp.isSome = analysis.lastCollectorTimestamp.isSome) :
    (machine digits).duration? analysis = some (duration digits analysis) := by
  have hunit : kNanosecondsPerSecond ≠ 0 := by decide
  rw [duration?, duration]
  cases hfirst : analysis.firstCollectorTimestamp with
  | none => rfl
  | some first =>
    rw [hfirst] at h
    obtain ⟨last, hlast⟩ := Option.isSome_iff_exists.mp h.symm
    simp only [hlast, divide?, if_neg hunit]
    rfl

theorem finished_machine (stream : StreamAccumulator) :
    (machine digits).finished stream = finishStream digits stream := by
  by_cases h : stream.collectorTimestamps.length < 2
  · rw [finished, finishStream?, if_pos h, finishStream, if_pos h]
    rfl
  obtain ⟨back, front, rate, median, jitter, hback, hfront, hrate, hmedian, hjitter, hfinished⟩ :=
    (machine digits).finishStream?_timed (Nat.not_lt.mp h)
  have hlength := List.length_insertionSort (· ≤ ·) stream.collectorTimestamps
  have hplain : finishStream digits stream = _ := if_neg h
  rw [finished, hfinished, hplain]
  generalize stream.collectorTimestamps.insertionSort (· ≤ ·) = timestamps at *
  have hintervals : timestamps.tail.zipWith (fun next previous =>
      nanosecondsToMilliseconds digits (Analysis.difference digits next previous)) timestamps =
        (machine digits).intervalsMs timestamps := by
    rw [List.zipWith_comm, intervalsMs, adjacent, List.map_zip_eq_zipWith]
    rfl
  have hne : (machine digits).intervalsMs timestamps ≠ [] :=
    (machine digits).intervalsMs_ne_nil timestamps (by omega)
  rw [percentile?_machine digits hne] at hmedian
  cases hmedian
  rw [percentile?_machine digits (mt List.map_eq_nil_iff.mp hne)] at hjitter
  cases hjitter
  have hspan : Analysis.difference digits (timestamps.getLastD 0) (timestamps.headD 0) =
      (machine digits).difference back front := by
    rw [List.getLastD_eq_getLast?, List.headD_eq_head?_getD, hback, hfront]
    rfl
  have hobserved : (if 0 < (machine digits).difference back front then
      some (Analysis.toDouble (roundTo digits
        (roundTo digits (roundTo digits (timestamps.length - 1 : ℕ) * kNanosecondsPerSecond) /
          (machine digits).difference back front)))
      else stream.stats.observedRateHz) = rate := by
    rw [observedRateHz?] at hrate
    split
    · rename_i hpos
      rw [if_pos hpos, divide?, if_neg hpos.ne'] at hrate
      exact Option.some.inj hrate
    · rename_i hempty
      rw [if_neg hempty] at hrate
      exact Option.some.inj hrate
  simp only [hintervals, hspan, hobserved, Option.getD_some]
  rfl

/-- **The machine's report** is the analyzer's, of every log. -/
theorem analyzeLog?_machine (pb : Protobuf) (access : Access) (file : File)
    (maximumRecords : UInt64) :
    (machine digits).analyzeLog? pb access file maximumRecords =
      some (analyzeLog digits pb access file maximumRecords) := by
  rw [analyzeLog?, analyzeLog]
  split
  · rfl
  · have hturn (s : Analyzing) (record : TelemetryEvent × Int64) :
        (machine digits).analyzeRecord? s record = some (analyzeRecord digits s record) := by
      rw [analyzeRecord?, utcArrivalDelta?_eq]
      rfl
    rw [Checked.foldlM_some hturn]
    have hends := ends_isSome digits (arrivals (logToAnalyze pb access file maximumRecords).records)
    refine ((machine digits).report?_eq (duration?_machine digits hends)
      (deltaStats?_machine digits _) _ _).trans ?_
    simp only [finished_machine]
    rfl

end Machine

/-- **The report of a complete log**, in any arithmetic. -/
theorem analyzeLog?_complete {pb : Protobuf} {access : Access} {file : File}
    {maximumRecords : UInt64}
    (hcomplete : (logToAnalyze pb access file maximumRecords).status = .complete) :
    let records := arrivals (logToAnalyze pb access file maximumRecords).records
    let analysis := records.foldl (analyzeRecord 0) {}
    ∃ durationSeconds utcArrivalDelta, arithmetic.duration? analysis = some durationSeconds ∧
      arithmetic.deltaStats? (arithmetic.utcArrivalDeltas records) = some utcArrivalDelta ∧
      arithmetic.analyzeLog? pb access file maximumRecords = some
        { status := .complete
          records := UInt64.ofNat records.length
          fileBytes := (logToAnalyze pb access file maximumRecords).fileSize
          durationSeconds := durationSeconds
          producers := analysis.producers.toList.map fun entry => entry.2.stats
          streams := analysis.streams.toList.map fun entry => (arithmetic.finished entry.2).stats
          utcArrivalDelta := utcArrivalDelta
          faults := analysis.faults
          message := "analysis completed" } := by
  intro records analysis
  let gathered := withDeltas (arithmetic.utcArrivalDeltas records) analysis
  have hends : gathered.firstCollectorTimestamp.isSome = gathered.lastCollectorTimestamp.isSome :=
    ends_isSome 0 records
  obtain ⟨durationSeconds, hduration⟩ := arithmetic.duration?_isSome hends
  obtain ⟨utcArrivalDelta, hdelta⟩ :=
    arithmetic.deltaStats?_isSome (arithmetic.utcArrivalDeltas records)
  refine ⟨durationSeconds, utcArrivalDelta, hduration, hdelta, ?_⟩
  have hloop : records.foldlM arithmetic.analyzeRecord? {} = some gathered :=
    arithmetic.foldlM_analyzeRecord? records {} []
  have hcount : records.length = (logToAnalyze pb access file maximumRecords).records.length :=
    List.length_map _
  rw [analyzeLog?]
  simp only [hcomplete, ne_eq, not_true_eq_false, if_false]
  rw [show (arrivals (logToAnalyze pb access file maximumRecords).records).foldlM
    arithmetic.analyzeRecord? {} = some gathered from hloop, hcount]
  exact arithmetic.report?_eq hduration hdelta _ _

end Arithmetic

end TraceForge.Analysis
