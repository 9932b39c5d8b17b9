import TraceForge.Library.OrderedMap
import TraceForge.Library.Rounding
import TraceForge.Recording.Reader

/-! `analyze_log` (`analysis/analyzer.cpp`).

One pass over the records of a log keeps an accumulator per producer and per stream, and
`AnalysisReport` is made from what they hold at the end. `analyzeRecord` is the loop's body. No
value here comes near the ends of a floating-point range, so a number is the rational it stands
for: a double has 53 digits, a `long double` as many as the platform gives it. -/
namespace TraceForge.Analysis
open Library Telemetry Recording
open Std (ExtTreeMap)

inductive AnalysisStatus where
  | complete
  | logError
deriving DecidableEq

structure ProducerStats where
  producerId : List UInt8 := []
  records : UInt64 := 0
  sequenceGaps : UInt64 := 0
  nonIncreasingSequences : UInt64 := 0
deriving DecidableEq, Inhabited

structure StreamStats where
  producerId : List UInt8 := []
  payload : String := ""
  records : UInt64 := 0
  observedRateHz : Option ℚ := none
  interarrivalP50Ms : Option ℚ := none
  jitterP95Ms : Option ℚ := none
  sourceTimestampRegressions : UInt64 := 0
deriving DecidableEq

structure DistributionStats where
  samples : UInt64
  p50Ms : ℚ
  p95Ms : ℚ
  p99Ms : ℚ
  maximumMs : ℚ
deriving DecidableEq

structure FaultStats where
  warnings : UInt64 := 0
  errors : UInt64 := 0
  critical : UInt64 := 0
deriving DecidableEq

structure AnalysisReport where
  status : AnalysisStatus := .logError
  records : UInt64 := 0
  fileBytes : UInt64 := 0
  durationSeconds : Option ℚ := none
  producers : List ProducerStats := []
  streams : List StreamStats := []
  utcArrivalDelta : Option DistributionStats := none
  faults : FaultStats := {}
  message : String := ""
deriving DecidableEq

/-! ### Numbers -/

def kNanosecondsPerMillisecond : ℚ := 1000000
def kNanosecondsPerSecond : ℚ := 1000000000

/-- `static_cast<double>`. -/
def toDouble (q : ℚ) : ℚ := roundTo 53 q

/-- The difference of two timestamps, both made `long double` first. -/
def difference (digits : ℕ) (a b : Int64) : ℚ :=
  roundTo digits (roundTo digits a.toInt - roundTo digits b.toInt)

def nanosecondsToMilliseconds (digits : ℕ) (nanoseconds : ℚ) : ℚ :=
  toDouble (roundTo digits (nanoseconds / kNanosecondsPerMillisecond))

/-- The value at the rank that `fraction` of the values do not exceed. -/
def percentile (values : List ℚ) (fraction : ℚ) : ℚ :=
  let values := values.insertionSort (· ≤ ·)
  let rank := ⌈toDouble (toDouble fraction * toDouble values.length)⌉.toNat
  let index := if rank = 0 then 0 else rank - 1
  values.getD (min index (values.length - 1)) 0

def distribution (values : List ℚ) : DistributionStats where
  samples := UInt64.ofNat values.length
  p50Ms := percentile values (1 / 2)
  p95Ms := percentile values (95 / 100)
  p99Ms := percentile values (99 / 100)
  maximumMs := values.max?.getD 0

/-! ### Accumulators -/

structure ProducerAccumulator where
  stats : ProducerStats := {}
  previousSequence : Option UInt64 := none
deriving DecidableEq, Inhabited

structure StreamAccumulator where
  stats : StreamStats := {}
  collectorTimestamps : List Int64 := []
deriving DecidableEq

instance StreamAccumulator.instInhabited : Inhabited StreamAccumulator := ⟨{}⟩

def finishStream (digits : ℕ) (stream : StreamAccumulator) : StreamAccumulator :=
  if stream.collectorTimestamps.length < 2 then stream
  else
    let timestamps := stream.collectorTimestamps.insertionSort (· ≤ ·)
    let spanNs := difference digits (timestamps.getLastD 0) (timestamps.headD 0)
    let observedRateHz :=
      if 0 < spanNs then
        some (toDouble (roundTo digits
          (roundTo digits (roundTo digits (timestamps.length - 1 : ℕ) * kNanosecondsPerSecond) /
            spanNs)))
      else stream.stats.observedRateHz
    let intervalsMs := timestamps.tail.zipWith
      (fun next previous => nanosecondsToMilliseconds digits (difference digits next previous))
      timestamps
    let medianIntervalMs := percentile intervalsMs (1 / 2)
    let absoluteDeviationsMs :=
      intervalsMs.map fun intervalMs => |toDouble (intervalMs - medianIntervalMs)|
    { stats :=
        { stream.stats with
          observedRateHz := observedRateHz
          interarrivalP50Ms := some medianIntervalMs
          jitterP95Ms := some (percentile absoluteDeviationsMs (95 / 100)) }
      collectorTimestamps := timestamps }

/-! ### One record -/

/-- `payload_name` (`generator/workload_generator.cpp`). -/
def payloadName : Option Payload → String
  | some (.accelerometer _) => "accelerometer"
  | some (.gyroscope _) => "gyroscope"
  | some (.gps _) => "gps"
  | some (.temperature _) => "temperature"
  | some (.camera _) => "camera"
  | some (.controllerStatus _) => "controller_status"
  | some (.fault _) => "fault"
  | none => "unset"

abbrev StreamKey := List UInt8 × String
abbrev SourceClockKey := List UInt8 × String × Int32

/-- The stream of an event. -/
def streamKey (event : TelemetryEvent) : StreamKey := (event.producerId, payloadName event.payload)

def sourceKey (event : TelemetryEvent) : SourceClockKey :=
  (event.producerId, payloadName event.payload, event.sourceClock)

/-- The loop's variables. -/
structure Analyzing where
  producers : ExtTreeMap (List UInt8) ProducerAccumulator compare := ∅
  streams : ExtTreeMap StreamKey StreamAccumulator compare := ∅
  previousSourceTimestamps : ExtTreeMap SourceClockKey Int64 compare := ∅
  utcArrivalDeltaMs : List ℚ := []
  firstCollectorTimestamp : Option Int64 := none
  lastCollectorTimestamp : Option Int64 := none
  faults : FaultStats := {}

/-- What a record does to its producer's accumulator. -/
def ProducerAccumulator.add (event : TelemetryEvent) (producer : ProducerAccumulator) :
    ProducerAccumulator :=
  let stats :=
    { producer.stats with
      producerId := event.producerId
      records := producer.stats.records + 1 }
  let stats :=
    match producer.previousSequence with
    | none => stats
    | some previous =>
      if event.sequenceNumber ≤ previous then
        { stats with nonIncreasingSequences := stats.nonIncreasingSequences + 1 }
      else
        { stats with sequenceGaps := stats.sequenceGaps + (event.sequenceNumber - previous - 1) }
  { stats := stats, previousSequence := some event.sequenceNumber }

/-- What a record does to its stream's accumulator; `previous` is the source timestamp of the last
record with the same producer, payload and clock. -/
def StreamAccumulator.add (event : TelemetryEvent) (collectorArrivalTimestampNs : Int64)
    (previous : Option Int64) (stream : StreamAccumulator) : StreamAccumulator :=
  let regressed := previous.any fun previous => event.sourceTimestampNs ≤ previous
  { stats :=
      { stream.stats with
        producerId := event.producerId
        payload := payloadName event.payload
        records := stream.stats.records + 1
        sourceTimestampRegressions :=
          if regressed then stream.stats.sourceTimestampRegressions + 1
          else stream.stats.sourceTimestampRegressions }
    collectorTimestamps := stream.collectorTimestamps ++ [collectorArrivalTimestampNs] }

/-- The earlier of `t` and the timestamp that is there. -/
def earlier (t : Int64) : Option Int64 → Option Int64
  | none => some t
  | some first => if t < first then some t else some first

def later (t : Int64) : Option Int64 → Option Int64
  | none => some t
  | some last => if last < t then some t else some last

def FaultStats.add (event : TelemetryEvent) (faults : FaultStats) : FaultStats :=
  match event.payload with
  | some (.fault fault) =>
    if fault.severity = SEVERITY_WARNING then { faults with warnings := faults.warnings + 1 }
    else if fault.severity = SEVERITY_ERROR then { faults with errors := faults.errors + 1 }
    else if fault.severity = SEVERITY_CRITICAL then { faults with critical := faults.critical + 1 }
    else faults
  | _ => faults

/-- The delta of an event whose source clock is UTC. -/
def utcArrivalDelta (digits : ℕ) (event : TelemetryEvent) (collectorArrivalTimestampNs : Int64) :
    List ℚ :=
  if event.sourceClock = CLOCK_DOMAIN_UTC then
    [nanosecondsToMilliseconds digits
      (difference digits collectorArrivalTimestampNs event.sourceTimestampNs)]
  else []

/-- The loop's body, for an event and its arrival time. -/
def analyzeRecord (digits : ℕ) (analysis : Analyzing) (record : TelemetryEvent × Int64) :
    Analyzing :=
  let (event, collectorArrivalTimestampNs) := record
  { producers := update analysis.producers event.producerId (·.add event)
    streams := update analysis.streams (streamKey event) (·.add event collectorArrivalTimestampNs
      analysis.previousSourceTimestamps[sourceKey event]?)
    previousSourceTimestamps := update analysis.previousSourceTimestamps (sourceKey event)
      fun _ => event.sourceTimestampNs
    utcArrivalDeltaMs := analysis.utcArrivalDeltaMs ++
      utcArrivalDelta digits event collectorArrivalTimestampNs
    firstCollectorTimestamp := earlier collectorArrivalTimestampNs analysis.firstCollectorTimestamp
    lastCollectorTimestamp := later collectorArrivalTimestampNs analysis.lastCollectorTimestamp
    faults := analysis.faults.add event }

/-! ### The report -/

/-- What the loop looks at in a record. -/
def arrivals (records : List LogRecord) : List (TelemetryEvent × Int64) :=
  records.map fun record => (record.event, record.collectorArrivalTimestampNs)

def duration (digits : ℕ) (analysis : Analyzing) : Option ℚ :=
  analysis.firstCollectorTimestamp.map fun first =>
    toDouble (roundTo digits
      (difference digits (analysis.lastCollectorTimestamp.getD 0) first / kNanosecondsPerSecond))

/-- What the end of `analyze_log` makes of the loop's variables. -/
def report (digits : ℕ) (records fileBytes : UInt64) (analysis : Analyzing) : AnalysisReport where
  status := .complete
  records := records
  fileBytes := fileBytes
  durationSeconds := duration digits analysis
  producers := analysis.producers.toList.map fun entry => entry.2.stats
  streams := analysis.streams.toList.map fun entry => (finishStream digits entry.2).stats
  utcArrivalDelta :=
    if analysis.utcArrivalDeltaMs.isEmpty then none
    else some (distribution analysis.utcArrivalDeltaMs)
  faults := analysis.faults
  message := "analysis completed"

/-- The log that is analyzed, with all its records. -/
def logToAnalyze (pb : Protobuf) (access : Access) (file : File) (maximumRecords : UInt64) :
    LogReadResult :=
  readLog pb access file { maximumRecords := maximumRecords, retainRecords := true }

def analyzeLog (digits : ℕ) (pb : Protobuf) (access : Access) (file : File)
    (maximumRecords : UInt64 := 1000000) : AnalysisReport :=
  let log := logToAnalyze pb access file maximumRecords
  if log.status ≠ .complete then
    { fileBytes := log.fileSize, message := "cannot analyze telemetry log: " ++ log.message }
  else
    report digits (UInt64.ofNat log.records.length) log.fileSize
      ((arrivals log.records).foldl (analyzeRecord digits) {})

end TraceForge.Analysis
