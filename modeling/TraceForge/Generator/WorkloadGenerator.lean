import Mathlib.Data.List.Sort
import TraceForge.Library.Rounding
import TraceForge.Telemetry.Event

/-! `WorkloadGenerator` (`generator/workload_generator.cpp`).

A workload is a function of its configuration and of the numbers that a seeded engine gives. Each
sensor's events are made in turn and then the controller's, all numbered from zero; they are sorted
together, and what is left after faults have been injected is hashed. Doubles are computed as the
source computes them, one operation after the other. -/
namespace TraceForge.Generator
open Library Telemetry

def kNanosecondsPerSecond : Int64 := 1000000000
def kProbabilityScale : UInt32 := 1000000
def kBaseTimestampNs : Int64 := 1700000000000000000
def kMaxDurationNs : Int64 := 3600 * kNanosecondsPerSecond
def kMaxSensorRateHz : UInt32 := 10000
def kMaxGeneratedEvents : UInt64 := 2000000

/-- The bytes of a string literal. -/
def utf8 (s : String) : List UInt8 := s.toUTF8.data.toList

/-! ### Random numbers -/

/-- A seeded `std::mt19937_64`: the numbers it gives. They keep coming back to the upper half of
their range. -/
structure RandomEngine where
  outputs : ℕ → UInt64
  recurs : ∀ n, ∃ m, n ≤ m ∧ 0x8000000000000000 ≤ outputs m

/-- An engine, and how many numbers have been drawn from it. -/
structure PortableRandom where
  engine : RandomEngine
  drawn : ℕ := 0

namespace PortableRandom

/-- The numbers below it would make some remainders likelier than others. -/
def threshold (upperExclusive : UInt64) : UInt64 := (0 - upperExclusive) % upperExclusive

theorem threshold_le {upperExclusive : UInt64} (h : upperExclusive ≠ 0) :
    threshold upperExclusive ≤ 0x8000000000000000 := by
  have hpos : 0 < upperExclusive.toNat := Nat.pos_of_ne_zero fun hzero =>
    h (UInt64.toNat_inj.mp hzero)
  have hlt := upperExclusive.toNat_lt
  have hzero : (0 : UInt64).toNat = 0 := rfl
  have hhalf : (0x8000000000000000 : UInt64).toNat = 2 ^ 63 := rfl
  rw [UInt64.le_iff_toNat_le, threshold, UInt64.toNat_mod, UInt64.toNat_sub, hzero, hhalf]
  have hnegated : (2 ^ 64 - upperExclusive.toNat + 0) % 2 ^ 64 =
      2 ^ 64 - upperExclusive.toNat := Nat.mod_eq_of_lt (by omega)
  rw [hnegated]
  by_cases hle : upperExclusive.toNat ≤ 2 ^ 63
  · exact Nat.le_of_lt (Nat.lt_of_lt_of_le (Nat.mod_lt _ hpos) hle)
  · exact Nat.le_trans (Nat.mod_le _ _) (by omega)

/-- The loop of `bounded` ends. -/
theorem exists_value (random : PortableRandom) {upperExclusive : UInt64}
    (h : upperExclusive ≠ 0) : ∃ m, random.drawn ≤ m ∧
      threshold upperExclusive ≤ random.engine.outputs m := by
  obtain ⟨m, hm, hhalf⟩ := random.engine.recurs random.drawn
  exact ⟨m, hm, UInt64.le_trans (threshold_le h) hhalf⟩

def bounded (upperExclusive : UInt64) (random : PortableRandom) : UInt64 × PortableRandom :=
  if h : upperExclusive = 0 then (0, random)
  else
    let m := Nat.find (random.exists_value h)
    (random.engine.outputs m % upperExclusive, { random with drawn := m + 1 })

def chance (perMillion : UInt32) (random : PortableRandom) : Bool × PortableRandom :=
  let (value, random) := random.bounded kProbabilityScale.toUInt64
  (decide (value < perMillion.toUInt64), random)

end PortableRandom

/-! ### The configuration -/

structure SensorRates where
  accelerometerHz : UInt32 := 50
  gyroscopeHz : UInt32 := 50
  cameraHz : UInt32 := 30
  gpsHz : UInt32 := 10
  temperatureHz : UInt32 := 1
  faultMonitorHz : UInt32 := 2
deriving DecidableEq

structure FaultInjection where
  dropPerMillion : UInt32 := 0
  duplicatePerMillion : UInt32 := 0
  reorderPerMillion : UInt32 := 0
deriving DecidableEq

/-- Durations are counts of nanoseconds. -/
structure GeneratorConfig where
  seed : UInt64 := 1
  duration : Int64 := kNanosecondsPerSecond
  maxJitter : Int64 := 0
  clockDriftPpm : Int64 := 0
  rates : SensorRates := {}
  faults : FaultInjection := {}
deriving DecidableEq

def validateProbability (probability : UInt32) (name : String) : Except String Unit :=
  if kProbabilityScale < probability then .error (name ++ " cannot exceed 1000000") else .ok ()

def SensorRates.all (rates : SensorRates) : List UInt32 :=
  [rates.accelerometerHz, rates.gyroscopeHz, rates.cameraHz, rates.gpsHz, rates.temperatureHz,
    rates.faultMonitorHz]

def addRate (combinedRate : UInt64) (rate : UInt32) : Except String UInt64 :=
  if kMaxSensorRateHz < rate then .error "sensor rate cannot exceed 10000 Hz"
  else .ok (combinedRate + rate.toUInt64)

def validateConfig (config : GeneratorConfig) : Except String Unit :=
  if config.duration ≤ 0 ∨ kMaxDurationNs < config.duration then
    .error "duration must be between one nanosecond and one hour"
  else if config.maxJitter < 0 ∨ kMaxDurationNs < config.maxJitter then
    .error "maximum jitter must be between zero and one hour"
  else if config.clockDriftPpm < -1000000 ∨ 1000000 < config.clockDriftPpm then
    .error "clock drift must be between -1000000 and 1000000 ppm"
  else do
    validateProbability config.faults.dropPerMillion "drop probability"
    validateProbability config.faults.duplicatePerMillion "duplicate probability"
    validateProbability config.faults.reorderPerMillion "reorder probability"
    let combinedRate ← config.rates.all.foldlM addRate 0
    let roundedDurationSeconds := (config.duration / kNanosecondsPerSecond).toUInt64 + 1
    if kMaxGeneratedEvents < combinedRate * roundedDurationSeconds then
      .error "configuration would generate more than 2000000 events"
    else .ok ()

/-- A generator exists only for a configuration that its constructor let pass. -/
structure WorkloadGenerator where
  config : GeneratorConfig
  validated : validateConfig config = .ok ()

def WorkloadGenerator.create (config : GeneratorConfig) : Except String WorkloadGenerator :=
  match h : validateConfig config with
  | .error message => .error message
  | .ok () => .ok ⟨config, h⟩

/-! ### When events are due -/

def eventCount (durationNs : Int64) (rateHz : UInt32) : UInt64 :=
  if rateHz = 0 then 0
  else
    let wholeSeconds := (durationNs / kNanosecondsPerSecond).toUInt64
    let remainingNs := (durationNs % kNanosecondsPerSecond).toUInt64
    wholeSeconds * rateHz.toUInt64 +
      remainingNs * rateHz.toUInt64 / kNanosecondsPerSecond.toUInt64

def scheduledTimeNs (index : UInt64) (rateHz : UInt32) : Int64 :=
  let wholeSeconds := index / rateHz.toUInt64
  let fractionalIndex := index % rateHz.toUInt64
  (wholeSeconds * kNanosecondsPerSecond.toUInt64 +
    fractionalIndex * kNanosecondsPerSecond.toUInt64 / rateHz.toUInt64).toInt64

def applyClockDrift (elapsedNs driftPpm : Int64) : Int64 :=
  let wholeMillions := elapsedNs / kProbabilityScale.toUInt64.toInt64
  let remainder := elapsedNs % kProbabilityScale.toUInt64.toInt64
  elapsedNs + wholeMillions * driftPpm + remainder * driftPpm / kProbabilityScale.toUInt64.toInt64

def sampleJitter (random : PortableRandom) (maxJitterNs : Int64) :
    Except String (Int64 × PortableRandom) :=
  if maxJitterNs = 0 then .ok (0, random)
  else if (Int64.maxValue - 1) / 2 < maxJitterNs then .error "maximum jitter is too large"
  else
    let width := (maxJitterNs * 2 + 1).toUInt64
    let (value, random) := random.bounded width
    .ok (value.toInt64 - maxJitterNs, random)

/-! ### Events -/

def baseEvent (producerId : List UInt8) (sequenceNumber : UInt64) (elapsedNs : Int64)
    (config : GeneratorConfig) (random : PortableRandom) :
    Except String (TelemetryEvent × PortableRandom) := do
  let (jitter, random) ← sampleJitter random config.maxJitter
  return (
    { schemaVersion := kTelemetrySchemaVersion
      producerId := producerId
      sequenceNumber := sequenceNumber
      sourceTimestampNs :=
        kBaseTimestampNs + applyClockDrift elapsedNs config.clockDriftPpm + jitter
      sourceClock := CLOCK_DOMAIN_UTC
      payload := none }, random)

/-- What fills in an event's payload, given its sequence number. -/
abbrev PopulatePayload := UInt64 → PortableRandom → Payload × PortableRandom

/-- One turn of a producer's loop. -/
def appendEvent (producerId : List UInt8) (sequenceNumber : UInt64) (elapsedNs : Int64)
    (config : GeneratorConfig) (populatePayload : PopulatePayload)
    (made : List TelemetryEvent × PortableRandom) :
    Except String (List TelemetryEvent × PortableRandom) := do
  let (event, random) ← baseEvent producerId sequenceNumber elapsedNs config made.2
  let (payload, random) := populatePayload sequenceNumber random
  return (made.1 ++ [{ event with payload := some payload }], random)

def appendPeriodic (producerId : List UInt8) (rateHz : UInt32) (config : GeneratorConfig)
    (populatePayload : PopulatePayload) (made : List TelemetryEvent × PortableRandom) :
    Except String (List TelemetryEvent × PortableRandom) :=
  (List.range (eventCount config.duration rateHz).toNat).foldlM (fun made i =>
    let sequence := UInt64.ofNat i
    appendEvent producerId sequence (scheduledTimeNs sequence rateHz) config populatePayload made)
    made

/-! ### Sensors -/

/-- `static_cast<double>`. -/
def toDouble (n : UInt64) : Double := .ofRat n.toNat

def accelerometerPayload : PopulatePayload := fun sequence random =>
  (.accelerometer
    { x := ((toDouble (sequence % 32)).div (.ofRat 16)).sub (.ofRat 1)
      y := ((toDouble ((sequence + 8) % 32)).div (.ofRat 16)).sub (.ofRat 1)
      z := (Double.ofRat 9.8125).add ((toDouble (sequence % 8)).div (.ofRat 128)) }, random)

def gyroscopePayload : PopulatePayload := fun sequence random =>
  (.gyroscope
    { x := (toDouble (sequence % 16)).div (.ofRat 256)
      y := (toDouble (sequence % 8)).neg.div (.ofRat 256)
      z := (toDouble (sequence % 4)).div (.ofRat 128) }, random)

def cameraPayload : PopulatePayload := fun sequence random =>
  (.camera
    { frameNumber := sequence
      widthPixels := 1920
      heightPixels := 1080
      exposureTimeNs := 8000000 + sequence % 4 * 250000 }, random)

def gpsPayload : PopulatePayload := fun sequence random =>
  (.gps
    { latitudeDegrees := (Double.ofRat 29.625).add ((toDouble sequence).div (.ofRat 65536))
      longitudeDegrees := (Double.ofRat (-82.375)).add ((toDouble sequence).div (.ofRat 65536))
      horizontalAccuracyMeters :=
        (Double.ofRat 3).add ((toDouble (sequence % 4)).div (.ofRat 4))
      isMocked := false }, random)

def temperaturePayload : PopulatePayload := fun sequence random =>
  (.temperature
    { degreesCelsius := (Double.ofRat 40).add ((toDouble (sequence % 16)).div (.ofRat 16)) },
    random)

def faultMessage (severity : Int32) : String :=
  if severity = SEVERITY_WARNING then "synthetic threshold warning"
  else if severity = SEVERITY_ERROR then "synthetic sensor error"
  else if severity = SEVERITY_CRITICAL then "synthetic critical fault"
  else "synthetic unspecified fault"

def faultPayload : PopulatePayload := fun sequence random =>
  let (roll, random) := random.bounded 100
  let severity :=
    if roll < 70 then SEVERITY_WARNING else if roll < 95 then SEVERITY_ERROR
    else SEVERITY_CRITICAL
  (.fault
    { severity := severity
      code := (1000 + sequence).toUInt32
      message := utf8 (faultMessage severity) }, random)

structure Sensor where
  producerId : List UInt8
  rateHz : SensorRates → UInt32
  populatePayload : PopulatePayload

/-- The sensors, in the order in which their events are made. -/
def sensors : List Sensor :=
  [⟨utf8 "sim-accelerometer", SensorRates.accelerometerHz, accelerometerPayload⟩,
    ⟨utf8 "sim-gyroscope", SensorRates.gyroscopeHz, gyroscopePayload⟩,
    ⟨utf8 "sim-camera", SensorRates.cameraHz, cameraPayload⟩,
    ⟨utf8 "sim-gps", SensorRates.gpsHz, gpsPayload⟩,
    ⟨utf8 "sim-temperature", SensorRates.temperatureHz, temperaturePayload⟩,
    ⟨utf8 "sim-fault", SensorRates.faultMonitorHz, faultPayload⟩]

/-! ### The controller -/

/-- The states that the controller goes through, and when. -/
def controllerStates (durationNs : Int64) (random : PortableRandom) :
    List (Int64 × Int32) × PortableRandom :=
  let spread := (max (durationNs / 8) 1).toUInt64
  let (ready, random) := random.bounded spread
  let states :=
    [(0, STATE_INITIALIZING), (durationNs / 4 + ready.toInt64, STATE_READY)]
  let (degrades, random) := random.chance 500000
  if degrades then
    let (degraded, random) := random.bounded spread
    (states ++ [(durationNs * 5 / 8 + degraded.toInt64, STATE_DEGRADED),
      (durationNs - 1, STATE_STOPPED)], random)
  else (states ++ [(durationNs - 1, STATE_STOPPED)], random)

def controllerId : List UInt8 := utf8 "sim-controller"

def controllerPayload (state : Int32) : PopulatePayload := fun _ random =>
  (.controllerStatus ⟨state, utf8 (ControllerStatus_State_Name state)⟩, random)

def appendControllerEvents (config : GeneratorConfig)
    (made : List TelemetryEvent × PortableRandom) :
    Except String (List TelemetryEvent × PortableRandom) :=
  let (states, random) := controllerStates config.duration made.2
  states.zipIdx.foldlM (fun made entry =>
    appendEvent controllerId (UInt64.ofNat entry.2) entry.1.1 config
      (controllerPayload entry.1.2) made) (made.1, random)

/-! ### Faults -/

structure GenerationStats where
  generatedEvents : UInt64 := 0
  droppedEvents : UInt64 := 0
  duplicatedEvents : UInt64 := 0
  reorderedPairs : UInt64 := 0
deriving DecidableEq

structure GeneratedWorkload where
  events : List TelemetryEvent := []
  stats : GenerationStats := {}
  hash : UInt64 := 0
deriving DecidableEq

/-- The comparison the events are sorted by. -/
def comesBefore (left right : TelemetryEvent) : Bool :=
  if left.sourceTimestampNs ≠ right.sourceTimestampNs then
    decide (left.sourceTimestampNs < right.sourceTimestampNs)
  else if left.producerId ≠ right.producerId then decide (left.producerId < right.producerId)
  else decide (left.sequenceNumber < right.sequenceNumber)

/-- An event is dropped, or emitted once or twice. -/
def emitEvent (faults : FaultInjection) (s : GeneratedWorkload × PortableRandom)
    (event : TelemetryEvent) : GeneratedWorkload × PortableRandom :=
  let (result, random) := s
  let (drops, random) := random.chance faults.dropPerMillion
  if drops then
    ({ result with
        stats := { result.stats with droppedEvents := result.stats.droppedEvents + 1 } }, random)
  else
    let result := { result with events := result.events ++ [event] }
    let (duplicates, random) := random.chance faults.duplicatePerMillion
    if duplicates then
      ({ result with
          events := result.events ++ [event]
          stats :=
            { result.stats with duplicatedEvents := result.stats.duplicatedEvents + 1 } }, random)
    else (result, random)

/-- Swaps neighbours; a pair that has been swapped is left behind. -/
def reorderEvents (perMillion : UInt32) :
    List TelemetryEvent → UInt64 → PortableRandom → List TelemetryEvent × UInt64
  | first :: second :: rest, reorderedPairs, random =>
    let (swaps, random) := random.chance perMillion
    if swaps then
      let (events, reorderedPairs) := reorderEvents perMillion rest (reorderedPairs + 1) random
      (second :: first :: events, reorderedPairs)
    else
      let (events, reorderedPairs) :=
        reorderEvents perMillion (second :: rest) reorderedPairs random
      (first :: events, reorderedPairs)
  | events, reorderedPairs, _ => (events, reorderedPairs)

/-! ### The hash -/

def kFnvOffsetBasis : UInt64 := 14695981039346656037
def kFnvPrime : UInt64 := 1099511628211

def hashByte (hash : UInt64) (byte : UInt8) : UInt64 := (hash ^^^ byte.toUInt64) * kFnvPrime

/-- Hashes the `count` low bytes of a size, the lowest first. -/
def hashSize : ℕ → UInt64 → UInt64 → UInt64
  | 0, hash, _ => hash
  | count + 1, hash, remainingSize =>
    hashSize count (hashByte hash (remainingSize &&& 0xFF).toUInt8) (remainingSize >>> 8)

def hashEvent (pb : Protobuf) (hash : UInt64) (event : TelemetryEvent) : Except String UInt64 :=
  match pb.serializeToString event with
  | none => .error "failed to serialize generated event"
  | some encoded =>
    .ok (encoded.foldl hashByte (hashSize 8 hash (UInt64.ofNat encoded.length)))

def stableEventHash (pb : Protobuf) (events : List TelemetryEvent) : Except String UInt64 :=
  events.foldlM (hashEvent pb) kFnvOffsetBasis

/-! ### The workload -/

def generate (pb : Protobuf) (engine : UInt64 → RandomEngine) (generator : WorkloadGenerator) :
    Except String GeneratedWorkload := do
  let config := generator.config
  let made ← sensors.foldlM (fun made sensor =>
    appendPeriodic sensor.producerId (sensor.rateHz config.rates) config sensor.populatePayload
      made) ([], { engine := engine config.seed })
  let (baseEvents, random) ← appendControllerEvents config made
  let baseEvents := baseEvents.insertionSort fun left right => comesBefore right left = false
  let stats := { generatedEvents := UInt64.ofNat baseEvents.length }
  let (result, random) := baseEvents.foldl (emitEvent config.faults) ({ stats := stats }, random)
  let (events, reorderedPairs) :=
    reorderEvents config.faults.reorderPerMillion result.events 0 random
  let hash ← stableEventHash pb events
  return {
    events := events
    stats := { result.stats with reorderedPairs := reorderedPairs }
    hash := hash }

end TraceForge.Generator
