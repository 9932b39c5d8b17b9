import TraceForge.Analysis.Agreement

/-! What the analyzer's counters count.

Each is a number of records, or of adjacent pairs in the subsequence of one producer, or of one
stream and source clock. The loop remembers the last value of every such subsequence, so one more
record adds one pair (`accumulated_add`, `streamed_add`). A stream's accumulator also looks at the
source timestamps, so the two are followed together (`streams_view`). -/
namespace TraceForge.Analysis
open Library Telemetry Recording
open Std (ExtTreeMap)

/-! ### The definitions -/

/-- The sequence numbers of a producer, in append order. -/
def sequencesOf (producer : List UInt8) (events : List TelemetryEvent) : List UInt64 :=
  (viewOf TelemetryEvent.producerId producer events).map TelemetryEvent.sequenceNumber

/-- The source timestamps of a producer, payload and clock, in append order. -/
def sourceTimestampsOf (key : SourceClockKey) (events : List TelemetryEvent) : List Int64 :=
  (viewOf sourceKey key events).map TelemetryEvent.sourceTimestampNs

/-- How many numbers are missing between increasing neighbours. -/
def missing (sequences : List UInt64) : ℕ :=
  ((adjacent sequences).map fun (s, s') => if s < s' then s'.toNat - s.toNat - 1 else 0).sum

/-- How many neighbours do not increase. -/
def nonIncreasing {α : Type} [LE α] [DecidableLE α] (values : List α) : ℕ :=
  (adjacent values).countP fun (v, v') => v' ≤ v

/-- The source timestamps of a stream that do not increase, clock by clock. -/
def regressions (stream : StreamKey) (events : List TelemetryEvent) : ℕ :=
  ((events.map TelemetryEvent.sourceClock).dedup.map fun clock =>
    nonIncreasing (sourceTimestampsOf (stream.1, stream.2, clock) events)).sum

structure ProducerStats.Counts (events : List TelemetryEvent) (stats : ProducerStats) : Prop where
  records : stats.records.toNat =
    (viewOf TelemetryEvent.producerId stats.producerId events).length
  sequenceGaps : stats.sequenceGaps.toNat =
    missing (sequencesOf stats.producerId events) % 2 ^ 64
  nonIncreasingSequences : stats.nonIncreasingSequences.toNat =
    nonIncreasing (sequencesOf stats.producerId events)

structure StreamStats.Counts (events : List TelemetryEvent) (stats : StreamStats) : Prop where
  records : stats.records.toNat =
    (viewOf streamKey (stats.producerId, stats.payload) events).length
  sourceTimestampRegressions : stats.sourceTimestampRegressions.toNat =
    regressions (stats.producerId, stats.payload) events

/-- Whether an event is a fault of this severity. -/
def hasSeverity (severity : Int32) (event : TelemetryEvent) : Bool :=
  match event.payload with
  | some (.fault fault) => fault.severity = severity
  | _ => false

structure FaultStats.Counts (events : List TelemetryEvent) (faults : FaultStats) : Prop where
  warnings : faults.warnings.toNat = events.countP (hasSeverity SEVERITY_WARNING)
  errors : faults.errors.toNat = events.countP (hasSeverity SEVERITY_ERROR)
  critical : faults.critical.toNat = events.countP (hasSeverity SEVERITY_CRITICAL)

/-- Keys that stand for those of a log: each once, in ascending order. -/
structure Enumerates {κ : Type} [Ord κ] (keys all : List κ) : Prop where
  ascending : keys.Pairwise fun a b => compare a b = .lt
  mem : ∀ k, k ∈ keys ↔ k ∈ all

theorem Enumerates.nodup {κ : Type} [Ord κ] [Std.ReflOrd κ] {keys all : List κ}
    (h : Enumerates keys all) : keys.Nodup :=
  h.ascending.imp fun {a b} hlt heq => by
    rw [heq, Std.ReflOrd.compare_self] at hlt
    cases hlt

/-- The counters of a report, as the records of the log have them. -/
structure AnalysisReport.Counts (events : List TelemetryEvent) (report : AnalysisReport) :
    Prop where
  records : report.records.toNat = events.length
  producers : Enumerates (report.producers.map ProducerStats.producerId)
    (events.map TelemetryEvent.producerId)
  streams : Enumerates (report.streams.map fun stats => (stats.producerId, stats.payload))
    (events.map streamKey)
  perProducer : ∀ stats ∈ report.producers, stats.Counts events
  perStream : ∀ stats ∈ report.streams, stats.Counts events
  producerRecords :
    (report.producers.map fun stats => stats.records.toNat).sum = report.records.toNat
  streamRecords :
    (report.streams.map fun stats => stats.records.toNat).sum = report.records.toNat
  faults : report.faults.Counts events
  utcArrivalDelta : (report.utcArrivalDelta.map fun delta => delta.samples.toNat).getD 0 =
    events.countP fun event => event.sourceClock = CLOCK_DOMAIN_UTC

/-- `TelemetryEvent::PayloadCase`. -/
inductive PayloadCase where
  | accelerometer
  | gyroscope
  | gps
  | temperature
  | camera
  | controllerStatus
  | fault
  | payloadNotSet

def payloadCase : Option Payload → PayloadCase
  | some (.accelerometer _) => .accelerometer
  | some (.gyroscope _) => .gyroscope
  | some (.gps _) => .gps
  | some (.temperature _) => .temperature
  | some (.camera _) => .camera
  | some (.controllerStatus _) => .controllerStatus
  | some (.fault _) => .fault
  | none => .payloadNotSet

/-! ### One more neighbour -/

theorem nonIncreasing_snoc {α : Type} [LE α] [DecidableLE α] (values : List α) (v : α) :
    nonIncreasing (values ++ [v]) =
      nonIncreasing values + if values.getLast?.any fun u => v ≤ u then 1 else 0 := by
  rw [nonIncreasing, adjacent_snoc, List.countP_append]
  cases values.getLast? with
  | none => rfl
  | some u => exact congrArg _ List.countP_singleton

theorem missing_snoc (sequences : List UInt64) (s : UInt64) :
    missing (sequences ++ [s]) = missing sequences +
      match sequences.getLast? with
      | none => 0
      | some r => if r < s then s.toNat - r.toNat - 1 else 0 := by
  rw [missing, adjacent_snoc, List.map_append, List.sum_append]
  cases sequences.getLast? <;> rfl

/-! ### Producers -/

/-- An accumulator that its producer's events have left. -/
structure Accumulated (own : List TelemetryEvent) (producer : ProducerAccumulator) : Prop where
  records : producer.stats.records = UInt64.ofNat own.length
  sequenceGaps : producer.stats.sequenceGaps =
    UInt64.ofNat (missing (own.map TelemetryEvent.sequenceNumber))
  nonIncreasingSequences : producer.stats.nonIncreasingSequences =
    UInt64.ofNat (nonIncreasing (own.map TelemetryEvent.sequenceNumber))
  previousSequence : producer.previousSequence = own.getLast?.map TelemetryEvent.sequenceNumber

/-- What one event adds to each counter of its producer. -/
theorem add_stats (event : TelemetryEvent) (producer : ProducerAccumulator) :
    (producer.add event).stats =
      { producerId := event.producerId
        records := producer.stats.records + 1
        sequenceGaps := producer.stats.sequenceGaps +
          match producer.previousSequence with
          | none => 0
          | some previous =>
            if previous < event.sequenceNumber then event.sequenceNumber - previous - 1 else 0
        nonIncreasingSequences := producer.stats.nonIncreasingSequences +
          if producer.previousSequence.any fun previous => event.sequenceNumber ≤ previous then 1
          else 0 } := by
  unfold ProducerAccumulator.add
  cases producer.previousSequence with
  | none => simp
  | some previous =>
    by_cases hle : event.sequenceNumber ≤ previous
    · simp [hle, UInt64.not_lt.mpr hle]
    · simp [hle, UInt64.not_le.mp hle]

/-- The difference is one of numbers, since it does not wrap. -/
theorem gap_toNat {r s : UInt64} (h : r < s) : s - r - 1 = UInt64.ofNat (s.toNat - r.toNat - 1) := by
  have hlt := UInt64.lt_iff_toNat_lt.mp h
  have hle : r ≤ s := UInt64.le_of_lt h
  have hone : (1 : UInt64) ≤ s - r := by
    rw [UInt64.le_iff_toNat_le, UInt64.toNat_sub_of_le _ _ hle]
    exact Nat.sub_pos_of_lt hlt
  have hroom := s.toNat_lt
  rw [← UInt64.toNat_inj, UInt64.toNat_sub_of_le _ _ hone, UInt64.toNat_sub_of_le _ _ hle,
    UInt64.toNat_ofNat', Nat.mod_eq_of_lt (by omega)]
  rfl

/-- **One more event.** -/
theorem accumulated_add {own : List TelemetryEvent} {producer : ProducerAccumulator}
    (h : Accumulated own producer) (event : TelemetryEvent) :
    Accumulated (own ++ [event]) (producer.add event) where
  records := by
    rw [add_stats, List.length_append, UInt64.ofNat_add, ← h.records]
    rfl
  sequenceGaps := by
    rw [add_stats, List.map_append, List.map_singleton, missing_snoc, UInt64.ofNat_add,
      ← h.sequenceGaps, List.getLast?_map, ← h.previousSequence]
    cases producer.previousSequence with
    | none => rfl
    | some previous =>
      by_cases hlt : previous < event.sequenceNumber
      · simp only [if_pos hlt, gap_toNat hlt]
      · simp only [if_neg hlt]
        rfl
  nonIncreasingSequences := by
    rw [add_stats, List.map_append, List.map_singleton, nonIncreasing_snoc, UInt64.ofNat_add,
      ← h.nonIncreasingSequences, List.getLast?_map, ← h.previousSequence]
    dsimp only
    congr 1
    split <;> rfl
  previousSequence := by
    rw [List.getLast?_append, List.getLast?_singleton]
    rfl

/-- **All of a producer's events.** -/
theorem accumulated_foldl (own : List TelemetryEvent) :
    Accumulated own ((own.foldl
      (fun producer event => some ((producer.getD default).add event)) none).getD default) := by
  induction own using List.reverseRecOn with
  | nil => exact ⟨rfl, rfl, rfl, rfl⟩
  | append_singleton before event ih =>
    rw [List.foldl_append]
    exact accumulated_add ih event

/-! ### Streams -/

/-- A finished stream has the counters it had. -/
theorem finishStream_counters (digits : ℕ) (stream : StreamAccumulator) :
    let finished := (finishStream digits stream).stats
    finished.producerId = stream.stats.producerId ∧ finished.payload = stream.stats.payload ∧
      finished.records = stream.stats.records ∧
      finished.sourceTimestampRegressions = stream.stats.sourceTimestampRegressions := by
  intro finished
  simp only [finished, finishStream]
  split <;> exact ⟨rfl, rfl, rfl, rfl⟩

/-- A stream's accumulator, and the last source timestamp of each clock in it. -/
abbrev Streaming := Option StreamAccumulator × (Int32 → Option Int64)

/-- What a record of the stream does to it. -/
def Streaming.add (s : Streaming) (record : TelemetryEvent × Int64) : Streaming :=
  (some ((s.1.getD default).add record.1 record.2 (s.2 record.1.sourceClock)),
    fun clock => if record.1.sourceClock = clock then some record.1.sourceTimestampNs else s.2 clock)

/-- A stream's accumulator comes from the stream's own records. -/
theorem streams_view (digits : ℕ) (stream : StreamKey) (records : List (TelemetryEvent × Int64)) :
    (records.foldl (analyzeRecord digits) {}).streams[stream]? =
      ((viewOf (fun record => streamKey record.1) stream records).foldl Streaming.add
        (none, fun _ => none)).1 := by
  let view (analysis : Analyzing) : Streaming :=
    (analysis.streams[stream]?,
      fun clock => analysis.previousSourceTimestamps[(stream.1, stream.2, clock)]?)
  have hown (s : Analyzing) (record : TelemetryEvent × Int64) (h : streamKey record.1 = stream) :
      view (analyzeRecord digits s record) = (view s).add record := by
    subst h
    refine Prod.ext (update_self ..) ?_
    funext clock
    by_cases hclock : record.1.sourceClock = clock
    · subst hclock
      exact (update_self ..).trans (if_pos rfl).symm
    · have hne : sourceKey record.1 ≠
          ((streamKey record.1).1, (streamKey record.1).2, clock) :=
        fun heq => hclock (congrArg (fun key => key.2.2) heq)
      exact (update_of_ne _ hne _).trans (if_neg hclock).symm
  have hother (s : Analyzing) (record : TelemetryEvent × Int64) (h : streamKey record.1 ≠ stream) :
      view (analyzeRecord digits s record) = view s := by
    refine Prod.ext (update_of_ne _ h _) ?_
    funext clock
    have hne : sourceKey record.1 ≠ (stream.1, stream.2, clock) :=
      fun heq => h (congrArg (fun key : SourceClockKey => (key.1, key.2.1)) heq)
    exact update_of_ne _ hne _
  have hempty : view {} = (none, fun _ => none) :=
    Prod.ext Std.ExtTreeMap.getElem?_empty (funext fun _ => Std.ExtTreeMap.getElem?_empty)
  have hview := foldl_view view Streaming.add hown hother records {}
  rw [hempty] at hview
  exact congrArg Prod.fst hview

/-- The source timestamps of one clock among a stream's records. -/
def clockTimestamps (clock : Int32) (own : List TelemetryEvent) : List Int64 :=
  (viewOf TelemetryEvent.sourceClock clock own).map TelemetryEvent.sourceTimestampNs

theorem clockTimestamps_snoc (clock : Int32) (own : List TelemetryEvent) (event : TelemetryEvent) :
    clockTimestamps clock (own ++ [event]) = clockTimestamps clock own ++
      if event.sourceClock = clock then [event.sourceTimestampNs] else [] := by
  rw [clockTimestamps, viewOf_append, List.map_append]
  by_cases hclock : event.sourceClock = clock
  · subst hclock
    rw [if_pos rfl, viewOf_cons_self]
    rfl
  · rw [if_neg hclock, viewOf_cons_of_ne hclock]
    rfl

/-- An accumulator that a stream's records have left; their clocks are among `clocks`. -/
structure Streamed (clocks : List Int32) (own : List TelemetryEvent) (stream : StreamAccumulator)
    (previous : Int32 → Option Int64) : Prop where
  records : stream.stats.records = UInt64.ofNat own.length
  sourceTimestampRegressions : stream.stats.sourceTimestampRegressions =
    UInt64.ofNat (clocks.map fun clock => nonIncreasing (clockTimestamps clock own)).sum
  previous : ∀ clock, previous clock = (clockTimestamps clock own).getLast?
  named : ∀ event ∈ own.getLast?,
    (stream.stats.producerId, stream.stats.payload) = streamKey event

/-- **One more record.** -/
theorem streamed_add {clocks : List Int32} (hnodup : clocks.Nodup) {own : List TelemetryEvent}
    {s : Streaming} (h : Streamed clocks own (s.1.getD default) s.2)
    (record : TelemetryEvent × Int64) (hclock : record.1.sourceClock ∈ clocks) :
    Streamed clocks (own ++ [record.1]) ((s.add record).1.getD default) (s.add record).2 where
  records := by
    rw [List.length_append, UInt64.ofNat_add, ← h.records]
    rfl
  sourceTimestampRegressions := by
    have hsum : (clocks.map fun clock =>
          nonIncreasing (clockTimestamps clock (own ++ [record.1]))).sum =
        (clocks.map fun clock => nonIncreasing (clockTimestamps clock own)).sum +
          if (s.2 record.1.sourceClock).any fun previous => record.1.sourceTimestampNs ≤ previous
          then 1 else 0 := by
      refine sum_map_grown hnodup hclock ?_ fun clock hne => ?_
      · rw [clockTimestamps_snoc, if_pos rfl, nonIncreasing_snoc, ← h.previous]
      · rw [clockTimestamps_snoc, if_neg hne.symm, List.append_nil]
    rw [hsum, UInt64.ofNat_add, ← h.sourceTimestampRegressions]
    simp only [Streaming.add, StreamAccumulator.add, Option.getD_some]
    split
    · rfl
    · exact (UInt64.add_zero _).symm
  previous clock := by
    rw [clockTimestamps_snoc]
    by_cases hsame : record.1.sourceClock = clock
    · rw [if_pos hsame, List.getLast?_append]
      exact if_pos hsame
    · rw [if_neg hsame, List.append_nil, ← h.previous]
      exact if_neg hsame
  named event hevent := by
    rw [List.getLast?_append] at hevent
    cases hevent
    rfl

/-- **All of a stream's records.** -/
theorem streamed_foldl {clocks : List Int32} (hnodup : clocks.Nodup)
    (own : List (TelemetryEvent × Int64))
    (hclocks : ∀ record ∈ own, record.1.sourceClock ∈ clocks) :
    let s := own.foldl Streaming.add (none, fun _ => none)
    Streamed clocks (own.map Prod.fst) (s.1.getD default) s.2 := by
  induction own using List.reverseRecOn with
  | nil =>
    have hzero : (clocks.map fun clock => nonIncreasing (clockTimestamps clock [])).sum = 0 :=
      List.sum_eq_zero_iff_forall_eq_nat.mpr fun n hn => by
        obtain ⟨clock, _, rfl⟩ := List.mem_map.mp hn
        rfl
    exact ⟨rfl, (congrArg UInt64.ofNat hzero).symm, fun _ => rfl, fun _ h => by cases h⟩
  | append_singleton before record ih =>
    rw [List.foldl_append, List.map_append]
    exact streamed_add hnodup (ih fun r hr => hclocks r (List.mem_append_left _ hr)) record
      (hclocks record List.mem_concat_self)

/-! ### The entries of the report -/

theorem nonIncreasing_le {α : Type} [LE α] [DecidableLE α] (values : List α) :
    nonIncreasing values ≤ values.length := by
  refine Nat.le_trans List.countP_le_length ?_
  rw [adjacent, List.length_zip]
  exact Nat.min_le_left _ _

theorem toNat_ofNat_length {n : ℕ} (h : n < 2 ^ 63) : (UInt64.ofNat n).toNat = n := by
  rw [UInt64.toNat_ofNat']
  omega

/-- A clock's timestamps in a stream are those of the stream and clock in the log. -/
theorem sourceTimestampsOf_clock (stream : StreamKey) (clock : Int32)
    (events : List TelemetryEvent) :
    sourceTimestampsOf (stream.1, stream.2, clock) events =
      clockTimestamps clock (viewOf streamKey stream events) := by
  have hkey (event : TelemetryEvent) : sourceKey event = (stream.1, stream.2, clock) ↔
      event.sourceClock = clock ∧ streamKey event = stream := by
    rw [sourceKey, streamKey, Prod.ext_iff, Prod.ext_iff, Prod.ext_iff]
    tauto
  rw [sourceTimestampsOf, clockTimestamps, viewOf, viewOf, viewOf, List.filter_filter]
  refine congrArg _ (List.filter_congr fun event _ => ?_)
  rw [← Bool.decide_and, decide_eq_decide]
  exact hkey event

theorem regressions_clocks (stream : StreamKey) (events : List TelemetryEvent) :
    regressions stream events = ((events.map TelemetryEvent.sourceClock).dedup.map fun clock =>
      nonIncreasing (clockTimestamps clock (viewOf streamKey stream events))).sum := by
  rw [regressions]
  exact congrArg _ (List.map_congr_left fun clock _ => by rw [sourceTimestampsOf_clock])

/-- No more regressions than records. -/
theorem regressions_le (stream : StreamKey) (events : List TelemetryEvent) :
    regressions stream events ≤ (viewOf streamKey stream events).length := by
  have hclocks : ∀ event ∈ viewOf streamKey stream events,
      event.sourceClock ∈ (events.map TelemetryEvent.sourceClock).dedup := fun event hevent =>
    List.mem_dedup.mpr (List.mem_map_of_mem (List.mem_of_mem_filter hevent))
  rw [regressions_clocks, ← sum_views (List.nodup_dedup _) hclocks]
  refine List.sum_le_sum fun clock _ => ?_
  exact (nonIncreasing_le _).trans_eq (List.length_map _)

section Entries
variable (digits : ℕ) (records : List (TelemetryEvent × Int64))

theorem producers_none (producer : List UInt8) : ({} : Analyzing).producers[producer]? = none :=
  Std.ExtTreeMap.getElem?_empty

/-- An entry for every producer. -/
theorem producers_enumerate :
    Enumerates (records.foldl (analyzeRecord digits) {}).producers.keys (records.map producerOf)
    where
  ascending := ExtTreeMap.ordered_keys
  mem producer := by
    rw [ExtTreeMap.mem_keys,
      mem_foldl_update (fun _ record => ⟨_, rfl⟩ : ∀ s record, ∃ f,
        (analyzeRecord digits s record).producers = update s.producers (producerOf record) f),
      List.mem_map]
    exact or_iff_right (ExtTreeMap.not_mem_empty)

/-- An entry for every stream. -/
theorem streams_enumerate :
    Enumerates (records.foldl (analyzeRecord digits) {}).streams.keys
      (records.map fun record => streamKey record.1) where
  ascending := ExtTreeMap.ordered_keys
  mem stream := by
    rw [ExtTreeMap.mem_keys,
      mem_foldl_update (fun _ record => ⟨_, rfl⟩ : ∀ s record, ∃ f,
        (analyzeRecord digits s record).streams = update s.streams (streamKey record.1) f),
      List.mem_map]
    exact or_iff_right (ExtTreeMap.not_mem_empty)

variable {digits records}

theorem producer_counts (hlt : records.length < 2 ^ 63) {entry : List UInt8 × ProducerAccumulator}
    (h : entry ∈ (records.foldl (analyzeRecord digits) {}).producers.toList) :
    entry.2.stats.Counts (records.map Prod.fst) := by
  have hvalue := ExtTreeMap.mem_toList_iff_getElem?_eq_some.mp h
  rw [producers_view, producers_none] at hvalue
  have hown : (viewOf producerOf entry.1 records).map Prod.fst =
      viewOf TelemetryEvent.producerId entry.1 (records.map Prod.fst) := (viewOf_map ..).symm
  have hall := accumulated_foldl ((viewOf producerOf entry.1 records).map Prod.fst)
  rw [hvalue, hown, Option.getD_some] at hall
  have hle : (viewOf TelemetryEvent.producerId entry.1 (records.map Prod.fst)).length < 2 ^ 63 :=
    Nat.lt_of_le_of_lt (List.length_filter_le ..) (by rwa [List.length_map])
  have hname := producers_named digits records h
  exact
    { records := by rw [hname, hall.records, toNat_ofNat_length hle]
      sequenceGaps := by
        rw [hname, hall.sequenceGaps]
        exact UInt64.toNat_ofNat'
      nonIncreasingSequences := by
        rw [hname, hall.nonIncreasingSequences]
        refine toNat_ofNat_length (Nat.lt_of_le_of_lt (nonIncreasing_le _) ?_)
        rwa [List.length_map] }

/-- The accumulator of an entry, and the stream it belongs to. -/
theorem stream_entry {entry : StreamKey × StreamAccumulator}
    (h : entry ∈ (records.foldl (analyzeRecord digits) {}).streams.toList) :
    (∃ previous, Streamed ((records.map Prod.fst).map TelemetryEvent.sourceClock).dedup
      (viewOf streamKey entry.1 (records.map Prod.fst)) entry.2 previous) ∧
      (entry.2.stats.producerId, entry.2.stats.payload) = entry.1 := by
  have hclocks : ∀ record ∈ records,
      record.1.sourceClock ∈ ((records.map Prod.fst).map TelemetryEvent.sourceClock).dedup :=
    fun record hrecord =>
      List.mem_dedup.mpr (List.mem_map_of_mem (List.mem_map_of_mem hrecord))
  have hvalue := ExtTreeMap.mem_toList_iff_getElem?_eq_some.mp h
  rw [streams_view] at hvalue
  have hown : (viewOf (fun record => streamKey record.1) entry.1 records).map Prod.fst =
      viewOf streamKey entry.1 (records.map Prod.fst) := (viewOf_map ..).symm
  have hall := streamed_foldl (List.nodup_dedup _)
    (viewOf (fun record => streamKey record.1) entry.1 records) fun record hrecord => hclocks record (List.mem_of_mem_filter hrecord)
  simp only at hall
  rw [hvalue, Option.getD_some, hown] at hall
  refine ⟨⟨_, hall⟩, ?_⟩
  cases hlast : (viewOf streamKey entry.1 (records.map Prod.fst)).getLast? with
  | none =>
    -- an entry is only made by a record
    rw [List.getLast?_eq_none_iff, ← hown, List.map_eq_nil_iff] at hlast
    rw [hlast] at hvalue
    cases hvalue
  | some event =>
    have hkey : streamKey event = entry.1 := by
      simpa using (List.mem_filter.mp (List.mem_of_getLast? hlast)).2
    exact (hall.named event hlast).trans hkey

theorem stream_counts (hlt : records.length < 2 ^ 63) {entry : StreamKey × StreamAccumulator}
    (h : entry ∈ (records.foldl (analyzeRecord digits) {}).streams.toList) :
    (finishStream digits entry.2).stats.Counts (records.map Prod.fst) := by
  obtain ⟨hproducer, hpayload, hrecords, hregressions⟩ := finishStream_counters digits entry.2
  obtain ⟨⟨_, hall⟩, hname⟩ := stream_entry h
  have hle : (viewOf streamKey entry.1 (records.map Prod.fst)).length < 2 ^ 63 :=
    Nat.lt_of_le_of_lt (List.length_filter_le ..) (by rwa [List.length_map])
  have hlt := Nat.lt_of_le_of_lt (regressions_le entry.1 (records.map Prod.fst)) hle
  exact
    { records := by
        rw [hproducer, hpayload, hname, hrecords, hall.records, toNat_ofNat_length hle]
      sourceTimestampRegressions := by
        rw [hproducer, hpayload, hname, hregressions, hall.sourceTimestampRegressions]
        rw [regressions_clocks] at hlt ⊢
        exact toNat_ofNat_length hlt }

end Entries

/-! ### Faults and UTC deltas -/

/-- What one event adds to each counter of faults. -/
theorem add_faults (event : TelemetryEvent) (faults : FaultStats) :
    faults.add event =
      { warnings := faults.warnings + if hasSeverity SEVERITY_WARNING event then 1 else 0
        errors := faults.errors + if hasSeverity SEVERITY_ERROR event then 1 else 0
        critical := faults.critical + if hasSeverity SEVERITY_CRITICAL event then 1 else 0 } := by
  by_cases hfault : ∃ fault, event.payload = some (.fault fault)
  · obtain ⟨fault, hpayload⟩ := hfault
    have hhas (severity : Int32) :
        hasSeverity severity event = decide (fault.severity = severity) := by
      rw [hasSeverity, hpayload]
    simp only [FaultStats.add, hpayload, hhas, decide_eq_true_eq]
    by_cases hwarning : fault.severity = SEVERITY_WARNING
    · simp [hwarning, SEVERITY_WARNING, SEVERITY_ERROR, SEVERITY_CRITICAL]
    by_cases herror : fault.severity = SEVERITY_ERROR
    · simp [herror, SEVERITY_WARNING, SEVERITY_ERROR, SEVERITY_CRITICAL]
    by_cases hcritical : fault.severity = SEVERITY_CRITICAL
    · simp [hcritical, SEVERITY_WARNING, SEVERITY_ERROR, SEVERITY_CRITICAL]
    · simp [hwarning, herror, hcritical]
  · have hhas (severity : Int32) : hasSeverity severity event = false := by
      unfold hasSeverity
      split
      · exact absurd ⟨_, by assumption⟩ hfault
      · rfl
    have hsame : faults.add event = faults := by
      unfold FaultStats.add
      split
      · exact absurd ⟨_, by assumption⟩ hfault
      · rfl
    simp [hsame, hhas]

theorem fault_counts (digits : ℕ) {records : List (TelemetryEvent × Int64)}
    (hlt : records.length < 2 ^ 63) :
    (records.foldl (analyzeRecord digits) {}).faults.Counts (records.map Prod.fst) := by
  have hcounter (field : FaultStats → UInt64) (severity : Int32) (hnone : field {} = 0)
      (hstep : ∀ (faults : FaultStats) event,
        field (faults.add event) = field faults + if hasSeverity severity event then 1 else 0) :
      (field (records.foldl (analyzeRecord digits) {}).faults).toNat =
        (records.map Prod.fst).countP (hasSeverity severity) := by
    rw [foldl_counter (fun s : Analyzing => field s.faults)
      (fun record => hasSeverity severity record.1) (fun s record => hstep s.faults record.1), hnone, UInt64.zero_add, List.countP_map]
    exact toNat_ofNat_length (Nat.lt_of_le_of_lt List.countP_le_length hlt)
  exact
    { warnings := hcounter FaultStats.warnings _ rfl fun _ _ => by rw [add_faults]
      errors := hcounter FaultStats.errors _ rfl fun _ _ => by rw [add_faults]
      critical := hcounter FaultStats.critical _ rfl fun _ _ => by rw [add_faults] }

/-- A delta for every record of the UTC clock. -/
theorem utcArrivalDelta_length (digits : ℕ) (records : List (TelemetryEvent × Int64))
    (s : Analyzing) : (records.foldl (analyzeRecord digits) s).utcArrivalDeltaMs.length =
      s.utcArrivalDeltaMs.length +
        (records.map Prod.fst).countP fun event => event.sourceClock = CLOCK_DOMAIN_UTC := by
  induction records generalizing s with
  | nil => rfl
  | cons record rest ih =>
    rw [List.foldl_cons, ih, List.map_cons, List.countP_cons]
    by_cases hutc : record.1.sourceClock = CLOCK_DOMAIN_UTC
    · simp only [analyzeRecord, utcArrivalDelta, List.length_append, hutc, if_true,
        List.length_singleton, decide_true]
      omega
    · simp only [analyzeRecord, utcArrivalDelta, List.length_append, hutc, if_false,
        List.length_nil, decide_false, Bool.false_eq_true, Nat.add_zero]

/-- The deltas that the report has. -/
theorem utc_counts (digits : ℕ) {records : List (TelemetryEvent × Int64)}
    (hlt : records.length < 2 ^ 63) :
    let deltas := (records.foldl (analyzeRecord digits) {}).utcArrivalDeltaMs
    ((if deltas.isEmpty then none else some (distribution deltas)).map
        fun delta => delta.samples.toNat).getD 0 =
      (records.map Prod.fst).countP fun event => event.sourceClock = CLOCK_DOMAIN_UTC := by
  intro deltas
  have hlength : deltas.length = (records.map Prod.fst).countP fun event =>
      event.sourceClock = CLOCK_DOMAIN_UTC :=
    (utcArrivalDelta_length digits records {}).trans (Nat.zero_add _)
  have hle : deltas.length < 2 ^ 63 := by
    rw [hlength]
    exact Nat.lt_of_le_of_lt List.countP_le_length (by rwa [List.length_map])
  rw [← hlength]
  cases hdeltas : deltas with
  | nil => rfl
  | cons delta rest =>
    rw [hdeltas] at hle
    exact toNat_ofNat_length hle

/-! ### The report -/

/-- The names of the payloads tell the cases apart. -/
theorem payloadName_eq_iff (p q : Option Payload) :
    payloadName p = payloadName q ↔ payloadCase p = payloadCase q := by
  rcases p with _ | _ | _ | _ | _ | _ | _ | _ <;> rcases q with _ | _ | _ | _ | _ | _ | _ | _ <;>
    simp [payloadName, payloadCase]

/-- The records of all entries together. -/
theorem sum_records {ι κ : Type} [Ord κ] [Std.ReflOrd κ] [DecidableEq κ] {entries : List ι}
    {name : ι → κ} {count : ι → ℕ} {key : TelemetryEvent → κ} {events : List TelemetryEvent}
    (h : Enumerates (entries.map name) (events.map key))
    (hcount : ∀ entry ∈ entries, count entry = (viewOf key (name entry) events).length) :
    (entries.map count).sum = events.length := by
  have hviews : entries.map count =
      (entries.map name).map fun k => (viewOf key k events).length := by
    rw [List.map_map]
    exact List.map_congr_left hcount
  rw [hviews]
  exact sum_views h.nodup fun event hevent => (h.mem _).mpr (List.mem_map_of_mem hevent)

/-- **What the loop leaves** is counted as the report says. -/
theorem report_counts (digits : ℕ) {records : List (TelemetryEvent × Int64)} (fileBytes : UInt64)
    (hlt : records.length < 2 ^ 63) :
    (report digits (UInt64.ofNat records.length) fileBytes
      (records.foldl (analyzeRecord digits) {})).Counts (records.map Prod.fst) := by
  obtain ⟨analysis, hanalysis⟩ : ∃ analysis, analysis = records.foldl (analyzeRecord digits) {} :=
    ⟨_, rfl⟩
  have hproducers : (analysis.producers.toList.map fun entry => entry.2.stats.producerId) =
      analysis.producers.keys := by
    rw [← ExtTreeMap.map_fst_toList_eq_keys]
    exact List.map_congr_left fun entry h => producers_named digits records (hanalysis ▸ h)
  have hstreams : (analysis.streams.toList.map fun entry =>
      ((finishStream digits entry.2).stats.producerId,
        (finishStream digits entry.2).stats.payload)) = analysis.streams.keys := by
    rw [← ExtTreeMap.map_fst_toList_eq_keys]
    refine List.map_congr_left fun entry h => ?_
    obtain ⟨hproducer, hpayload, _⟩ := finishStream_counters digits entry.2
    rw [hproducer, hpayload]
    exact (stream_entry (hanalysis ▸ h)).2
  have hall : (UInt64.ofNat records.length).toNat = (records.map Prod.fst).length := by
    rw [toNat_ofNat_length hlt, List.length_map]
  have hproducerKeys : Enumerates analysis.producers.keys
      ((records.map Prod.fst).map TelemetryEvent.producerId) := by
    rw [List.map_map, hanalysis]
    exact producers_enumerate digits records
  have hstreamKeys : Enumerates analysis.streams.keys ((records.map Prod.fst).map streamKey) := by
    rw [List.map_map, hanalysis]
    exact streams_enumerate digits records
  rw [← hanalysis]
  have hperProducer : ∀ stats ∈ analysis.producers.toList.map (fun entry => entry.2.stats),
      stats.Counts (records.map Prod.fst) := by
    intro stats hstats
    obtain ⟨entry, hentry, rfl⟩ := List.mem_map.mp hstats
    exact producer_counts hlt (hanalysis ▸ hentry)
  have hperStream : ∀ stats ∈ analysis.streams.toList.map
      (fun entry => (finishStream digits entry.2).stats),
      stats.Counts (records.map Prod.fst) := by
    intro stats hstats
    obtain ⟨entry, hentry, rfl⟩ := List.mem_map.mp hstats
    exact stream_counts hlt (hanalysis ▸ hentry)
  have hproducerNames : Enumerates
      ((analysis.producers.toList.map fun entry => entry.2.stats).map ProducerStats.producerId)
      ((records.map Prod.fst).map TelemetryEvent.producerId) := by
    rw [List.map_map]
    exact hproducers ▸ hproducerKeys
  have hstreamNames : Enumerates
      ((analysis.streams.toList.map fun entry => (finishStream digits entry.2).stats).map
        fun stats => (stats.producerId, stats.payload)) ((records.map Prod.fst).map streamKey) := by
    rw [List.map_map]
    exact hstreams ▸ hstreamKeys
  exact
    { records := hall
      producers := hproducerNames
      streams := hstreamNames
      perProducer := hperProducer
      perStream := hperStream
      producerRecords :=
        (sum_records hproducerNames fun stats h => (hperProducer stats h).records).trans hall.symm
      streamRecords :=
        (sum_records hstreamNames fun stats h => (hperStream stats h).records).trans hall.symm
      faults := hanalysis ▸ fault_counts digits hlt
      utcArrivalDelta := hanalysis ▸ utc_counts digits hlt }

/-- The events of a log, in append order. -/
def eventsOf (log : LogReadResult) : List TelemetryEvent := log.records.map LogRecord.event

theorem analyzeLog_counts (digits : ℕ) {pb : Protobuf} {access : Access} {file : File}
    {maximumRecords : UInt64}
    (hcomplete : (logToAnalyze pb access file maximumRecords).status = .complete) :
    (analyzeLog digits pb access file maximumRecords).Counts
      (eventsOf (logToAnalyze pb access file maximumRecords)) := by
  have hevents : eventsOf (logToAnalyze pb access file maximumRecords) =
      (arrivals (logToAnalyze pb access file maximumRecords).records).map Prod.fst := by
    rw [eventsOf, arrivals, List.map_map]
    rfl
  rw [analyzeLog_complete digits hcomplete, hevents]
  exact report_counts digits file.size (arrivals_length_lt hcomplete)

/-- **The counters are what they are defined to be**, in every report of a complete log, and the
names of its streams are those of the payloads. -/
theorem counters_exact (digits : ℕ) (pb : Protobuf) (access : Access) (file : File)
    (maximumRecords : UInt64)
    (hcomplete : (logToAnalyze pb access file maximumRecords).status = .complete) :
    (analyzeLog digits pb access file maximumRecords).Counts
        (eventsOf (logToAnalyze pb access file maximumRecords)) ∧
      ∀ p q, payloadName p = payloadName q ↔ payloadCase p = payloadCase q :=
  ⟨analyzeLog_counts digits hcomplete, payloadName_eq_iff⟩

theorem counters_exact_gap : (analyzeLog 64 gapPb .granted gapLog).Counts
    [Wire.sampleEvent 1, otherEvent, Wire.sampleEvent 4] := by
  have hcounts := (counters_exact 64 gapPb .granted gapLog 1000000 (by rw [gap_read]; rfl)).1
  rw [gap_read] at hcounts
  exact hcounts

end TraceForge.Analysis
