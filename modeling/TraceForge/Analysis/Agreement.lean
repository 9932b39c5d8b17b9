import TraceForge.Analysis.Independence
import TraceForge.Telemetry.ValidationHistory

/-! The collector and the analyzer agree on gaps.

Only a producer's own records touch its accumulator, so it is what those records alone leave
(`producers_view`). While a validator accepts them the two stay in step: the accumulator holds the
validator's counters (`accounted`), and no sequence number fails to increase. -/
namespace TraceForge.Analysis
open Library Telemetry Recording
open StreamValidator Offered

/-- What a validator has counted, as an accumulator of the analyzer. -/
def accounted (v : StreamValidator) : Option ProducerAccumulator :=
  if v.acceptedEvents = 0 then none
  else
    some
      { stats :=
          { producerId := v.producerId
            records := v.acceptedEvents
            sequenceGaps := v.sequenceGaps }
        previousSequence := some v.lastSequenceNumber }

/-- **One accepted event** keeps the accumulator and the validator in step. -/
theorem accounted_count {v : StreamValidator} {event : TelemetryEvent} (hnext : v.Continues event)
    (hgaps : v.acceptedEvents = 0 → v.sequenceGaps = 0)
    (hnamed : v.acceptedEvents ≠ 0 → v.producerId ≠ []) (hroom : v.acceptedEvents + 1 ≠ 0) :
    accounted (v.count event) = some (((accounted v).getD default).add event) := by
  rw [accounted, count_acceptedEvents, if_neg hroom]
  by_cases hzero : v.acceptedEvents = 0
  · simp only [accounted, count, ProducerAccumulator.add, hzero, hgaps hzero]
    rfl
  · have hproducer := hnext.producer.resolve_left (hnamed hzero)
    have hlater := UInt64.not_le.mpr (hnext.sequence.resolve_left hzero)
    simp only [accounted, count, if_neg hzero, Option.getD_some, ProducerAccumulator.add,
      if_neg hlater, hproducer]

/-- **A whole stream** of accepted events, fewer than a counter can hold. -/
theorem accounted_offerAll (events : List TelemetryEvent) (h : AcceptedWhole events)
    (hlt : events.length < 2 ^ 64) :
    events.foldl (fun producer event => some ((producer.getD default).add event)) none =
      accounted (offerAll events).validator := by
  induction events using List.reverseRecOn with
  | nil => rfl
  | append_singleton events event ih =>
    rw [List.length_append, List.length_singleton] at hlt
    obtain ⟨hbefore, _, hnext⟩ := acceptedWhole_snoc.mp h
    have htracks := (offerAll_sound events).tracks (by rw [show _ = events from hbefore]; omega)
    rw [show (offerAll events).accepted = events from hbefore] at htracks
    have hcount : (offerAll events).validator.acceptedEvents.toNat = events.length :=
      htracks.summary.acceptedEvents
    have hempty (hzero : (offerAll events).validator.acceptedEvents = 0) : events = [] := by
      rw [hzero] at hcount
      exact List.length_eq_zero_iff.mp hcount.symm
    have hgaps (hzero : (offerAll events).validator.acceptedEvents = 0) :
        (offerAll events).validator.sequenceGaps = 0 := by rw [hempty hzero]; rfl
    have hnamed (hcounted : (offerAll events).validator.acceptedEvents ≠ 0) :
        (offerAll events).validator.producerId ≠ [] := by
      refine htracks.named fun hnil => hcounted ?_
      rw [hnil]
      rfl
    have hroom : (offerAll events).validator.acceptedEvents + 1 ≠ 0 := by
      intro hwrapped
      have hsum := congrArg UInt64.toNat hwrapped
      rw [UInt64.toNat_add, hcount] at hsum
      have hone : (1 : UInt64).toNat = 1 := rfl
      have hnone : (0 : UInt64).toNat = 0 := rfl
      omega
    rw [List.foldl_append, ih hbefore (by omega), offerAll_snoc_accepted h,
      accounted_count hnext hgaps hnamed hroom]
    rfl

/-! ### One producer in a log -/

/-- A producer's accumulator comes from the producer's own records. -/
theorem producers_view (digits : ℕ) (producer : List UInt8) (s : Analyzing)
    (records : List (TelemetryEvent × Int64)) :
    (records.foldl (analyzeRecord digits) s).producers[producer]? =
      ((viewOf producerOf producer records).map Prod.fst).foldl
        (fun producer event => some ((producer.getD default).add event)) s.producers[producer]? := by
  have hown (s : Analyzing) (record : TelemetryEvent × Int64) (h : producerOf record = producer) :
      (analyzeRecord digits s record).producers[producer]? =
        some ((s.producers[producer]?.getD default).add record.1) := by
    subst h
    exact update_self ..
  have hother (s : Analyzing) (record : TelemetryEvent × Int64) (h : producerOf record ≠ producer) :
      (analyzeRecord digits s record).producers[producer]? = s.producers[producer]? :=
    update_of_ne _ h _
  rw [List.foldl_map]
  exact foldl_view (fun s : Analyzing => s.producers[producer]?)
    (fun accumulator record => some ((accumulator.getD default).add record.1)) hown hother records s

theorem add_producerId (event : TelemetryEvent) (producer : ProducerAccumulator) :
    (producer.add event).stats.producerId = event.producerId := by
  simp only [ProducerAccumulator.add]
  split
  · rfl
  · split <;> rfl

/-- Every entry names the producer it belongs to. -/
theorem producers_named (digits : ℕ) (records : List (TelemetryEvent × Int64))
    {entry : List UInt8 × ProducerAccumulator}
    (h : entry ∈ (records.foldl (analyzeRecord digits) {}).producers.toList) :
    entry.2.stats.producerId = entry.1 := by
  have hvalue := Std.ExtTreeMap.mem_toList_iff_getElem?_eq_some.mp h
  have hview := producers_view digits entry.1 {} records
  rw [hvalue] at hview
  have hnone : ({} : Analyzing).producers[entry.1]? = none := Std.ExtTreeMap.getElem?_empty
  rw [hnone] at hview
  rcases List.eq_nil_or_concat ((viewOf producerOf entry.1 records).map Prod.fst) with
    hnil | ⟨before, last, hlast⟩
  · rw [hnil] at hview
    cases hview
  · have hmem : last ∈ (viewOf producerOf entry.1 records).map Prod.fst := by
      rw [hlast, List.concat_eq_append]
      exact List.mem_append_right _ (List.mem_singleton_self last)
    obtain ⟨record, hrecord, rfl⟩ := List.mem_map.mp hmem
    have hproducer : producerOf record = entry.1 := by
      simpa using (List.mem_filter.mp hrecord).2
    rw [hlast, List.concat_eq_append, List.foldl_append] at hview
    rw [Option.some.inj hview]
    exact (add_producerId _ _).trans hproducer

/-- The events of a producer in a log, in append order. -/
def producerEvents (producer : List UInt8) (log : LogReadResult) : List TelemetryEvent :=
  (viewOf producerOf producer (arrivals log.records)).map Prod.fst

/-- **The collector and the analyzer agree**: a producer whose records one fresh validator accepts
has one entry in the report, with the validator's counters and no number out of order. -/
theorem collector_and_analyzer_agree (digits : ℕ) (pb : Protobuf) (access : Access) (file : File)
    (maximumRecords : UInt64) (producer : List UInt8)
    (hcomplete : (logToAnalyze pb access file maximumRecords).status = .complete)
    (haccepted : AcceptedWhole
      (producerEvents producer (logToAnalyze pb access file maximumRecords))) :
    let events := producerEvents producer (logToAnalyze pb access file maximumRecords)
    let summary := (offerAll events).validator.populateSummary {}
    (analyzeLog digits pb access file maximumRecords).producers.filter
        (fun stats => stats.producerId = producer) =
      if events = [] then []
      else [{ producerId := producer
              records := summary.acceptedEvents
              sequenceGaps := summary.sequenceGaps
              nonIncreasingSequences := 0 }] := by
  intro events summary
  have hlength : events.length < 2 ^ 64 := by
    have hall := arrivals_length_lt hcomplete
    have hle : events.length ≤
        (arrivals (logToAnalyze pb access file maximumRecords).records).length :=
      (List.length_map _).trans_le (List.length_filter_le ..)
    omega
  have hentry := producers_view digits producer {}
    (arrivals (logToAnalyze pb access file maximumRecords).records)
  have hnone : ({} : Analyzing).producers[producer]? = none := Std.ExtTreeMap.getElem?_empty
  rw [hnone] at hentry
  have hvalue := hentry.trans (accounted_offerAll events haccepted hlength)
  rw [analyzeLog_complete digits hcomplete]
  simp only [report, List.filter_map]
  rw [List.filter_congr fun entry h => by
    rw [Function.comp_apply, producers_named digits _ h], toList_filter_key, hvalue]
  have hsound := offerAll_sound events
  have haccepts : (offerAll events).accepted = events := haccepted
  have htracks := hsound.tracks (by rw [haccepts]; exact hlength)
  rw [haccepts] at htracks
  have hcount : (offerAll events).validator.acceptedEvents.toNat = events.length :=
    htracks.summary.acceptedEvents
  by_cases hnil : events = []
  · rw [if_pos hnil, hnil]
    rfl
  · have hcounted : (offerAll events).validator.acceptedEvents ≠ 0 := by
      intro hzero
      rw [hzero] at hcount
      exact hnil (List.length_eq_zero_iff.mp hcount.symm)
    have hproducer : (offerAll events).validator.producerId = producer := by
      obtain ⟨event, hevent⟩ := List.exists_mem_of_ne_nil _ hnil
      obtain ⟨record, hrecord, rfl⟩ := List.mem_map.mp hevent
      have hown : producerOf record = producer := by simpa using (List.mem_filter.mp hrecord).2
      exact (hsound.oneProducer _ (haccepts.symm ▸ hevent)).symm.trans hown
    rw [if_neg hnil, accounted, if_neg hcounted, hproducer]
    rfl

/-! ### Two numbers missing -/

def gapPb : Protobuf := Wire.protobuf [Wire.sampleEvent 1, otherEvent, Wire.sampleEvent 4]

def gapFrame (event : TelemetryEvent) (arrival : Int64)
    (h : event ∈ [Wire.sampleEvent 1, otherEvent, Wire.sampleEvent 4]) : Frame gapPb where
  arrival := arrival
  payload := Wire.encode event
  event := event
  payload_le := by
    revert event
    decide
  parses := by
    revert event
    decide
  schema := by
    revert event
    decide

/-- Another producer's record stands between the two. -/
def gapLayout : Layout gapPb where
  header := sampleLayout.header
  frames :=
    [gapFrame (Wire.sampleEvent 1) 5 (by decide), gapFrame otherEvent 6 (by decide),
      gapFrame (Wire.sampleEvent 4) 7 (by decide)]

def gapLog : File where
  bytes := gapLayout.bytes
  length_lt := by
    rw [Layout.bytes_length]
    decide +kernel

theorem gap_read : logToAnalyze gapPb .granted gapLog 1000000 =
    gapLayout.result gapLog { maximumRecords := 1000000, retainRecords := true } complete :=
  readLog_complete _ rfl (by decide)

theorem collector_and_analyzer_agree_gap :
    (analyzeLog 64 gapPb .granted gapLog).producers.filter
        (fun stats => stats.producerId = [0x70]) =
      [{ producerId := [0x70], records := 2, sequenceGaps := 2, nonIncreasingSequences := 0 }] := by
  have hevents : producerEvents [0x70] (logToAnalyze gapPb .granted gapLog 1000000) =
      [Wire.sampleEvent 1, Wire.sampleEvent 4] := by
    rw [gap_read]
    rfl
  have hagree := collector_and_analyzer_agree 64 gapPb .granted gapLog 1000000 [0x70]
    (by rw [gap_read]; rfl) (by rw [hevents]; decide +kernel)
  rw [hevents] at hagree
  exact hagree

end TraceForge.Analysis
