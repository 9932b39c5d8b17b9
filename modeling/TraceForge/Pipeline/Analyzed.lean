import TraceForge.Analysis.Counters
import TraceForge.Generator.Generation
import TraceForge.Pipeline.Recorded

/-! What a publish prints of a producer is what an analysis of the log prints.

A thread stores its producer's name and, with an OK status, the counters of the reactor's validator
(`Told`). The analyzer's accumulator of a producer holds those of a validator that has been fed the
producer's records. After a publish that succeeded these are the same validator's: both have seen
the whole group (`publish_analyzed`). -/
namespace TraceForge.Pipeline
open Library Concurrency Telemetry Recording Generator
open Analysis hiding eventsOf
open StreamValidator Offered

/-! ### What a thread was told -/

/-- The name in a thread's result, and where its count of gaps comes from. -/
structure Told (t : ProducerThread) : Prop where
  name : t.result.producerId = t.producer.producerId
  gaps : t.phase = .joined → t.result.grpcStatusCode = grpcStatusCode .ok →
    ∃ r, t.reactor = some r ∧ r.finished = [.ok] ∧
      t.result.sequenceGaps = r.response.sequenceGaps

theorem told_start (producer : ProducerEvents) : Told (.start producer) where
  name := rfl
  gaps h := by cases h

theorem told_moves {t u : ProducerThread} {a : ThreadAction} {own out : List CollectedEvent}
    (hc : t.Consistent own) (ht : Told t) (h : t.Moves a u out) : Told u := by
  -- A thread that was told of an OK status has a reactor that takes no further step.
  have hended {r : StreamReactor} (hr : t.reactor = some r) (hphase : r.phase ≠ .returned)
      (hjoined : t.phase = .joined) (hcode : t.result.grpcStatusCode = grpcStatusCode .ok) :
      False := by
    obtain ⟨q, hq, hok, _⟩ := ht.gaps hjoined hcode
    cases hr.symm.trans hq
    exact hphase (ProducerThread.returned_of_ok (hc.reactor r hr).1 hok)
  cases h with
  | sent event unwritten hphase => exact ⟨ht.name, fun h => by cases h⟩
  | writeFailed event unwritten hphase => exact ⟨ht.name, fun h => by cases h⟩
  | writesDone hphase => exact ⟨ht.name, fun h => by cases h⟩
  | finished r message hphase hr hok => exact ⟨ht.name, fun _ _ => ⟨r, hr, hok, rfl⟩⟩
  | failed code message hphase hcode => exact ⟨ht.name, fun _ h => absurd h hcode⟩
  | arrived hr =>
    refine ⟨ht.name, fun hjoined hcode => ?_⟩
    obtain ⟨q, hq, _⟩ := ht.gaps hjoined hcode
    rw [hr] at hq
    cases hq
  | read r event wire now hr hwire hphase =>
    exact ⟨ht.name, fun hjoined hcode =>
      (hended hr (by rw [hphase]; exact nofun) hjoined hcode).elim⟩
  | readEnded r hr hphase =>
    exact ⟨ht.name, fun hjoined hcode =>
      (hended hr (by rw [hphase]; exact nofun) hjoined hcode).elim⟩
  | answered r collected answer hr hphase =>
    exact ⟨ht.name, fun hjoined hcode =>
      (hended hr (by rw [hphase]; exact nofun) hjoined hcode).elim⟩

/-- Every thread of a run has been told so. -/
theorem told_reachable {events : List TelemetryEvent} {s : Publishing}
    (h : (Publishing.machine (groupByProducer events)).Reachable s) : ∀ t ∈ s.threads, Told t := by
  have hboth := Machine.reachable_invariant (fun s : Publishing =>
      s.Consistent (groupByProducer events) ∧ ∀ t ∈ s.threads, Told t)
    ⟨Publishing.consistent_start, fun t ht => ?_⟩ (fun s a s' hs hstep => ?_) h
  · exact hboth.2
  · obtain ⟨g, _, rfl⟩ := List.mem_map.mp ht
    exact told_start g
  · refine ⟨Publishing.consistent_step (groups_nodup events) (fun _ hg => group_own hg) hs.1 hstep,
      fun v hv => ?_⟩
    obtain ⟨t, u, out, ht, hmoved, rfl⟩ := Publishing.step_cases hstep
    rcases List.mem_or_eq_of_mem_set hv with hv | rfl
    · exact hs.2 v hv
    · exact told_moves (hs.1.thread _ t ht) (hs.2 t (List.mem_of_getElem? ht))
        (ProducerThread.step_moves hmoved)

/-! ### Both reports -/

/-- A producer's entry, from the counters of a validator that has been fed its events. -/
def statsOf (producer : List UInt8) (events : List TelemetryEvent) : ProducerStats where
  producerId := producer
  records := (summaryOf producer events).acceptedEvents
  sequenceGaps := (summaryOf producer events).sequenceGaps

/-- A result as an entry of an analysis: `accepted` for its records, and no number out of order. -/
def resultStats (result : ProducerPublishResult) : ProducerStats where
  producerId := result.producerId
  records := result.acceptedEvents
  sequenceGaps := result.sequenceGaps

theorem summaryOf_congr {producer : List UInt8} {events others : List TelemetryEvent}
    (h : Generator.eventsOf producer events = Generator.eventsOf producer others) :
    summaryOf producer events = summaryOf producer others := by rw [summaryOf, summaryOf, h]

/-- **A thread that succeeded** was told the counters of a validator fed its group. -/
theorem told_stats {events : List TelemetryEvent} {t : ProducerThread} {own : List CollectedEvent}
    (hgroup : t.producer ∈ groupByProducer events) (hlt : t.producer.events.length < 2 ^ 64)
    (hc : t.Consistent own) (ht : Told t) (hjoined : t.phase = .joined)
    (hsucceeded : t.result.succeeded = true) :
    resultStats t.result = statsOf t.producer.producerId events := by
  have hresult := hsucceeded
  simp only [ProducerPublishResult.succeeded, Bool.and_eq_true, decide_eq_true_eq] at hresult
  obtain ⟨⟨hcode, _⟩, _⟩ := hresult
  obtain ⟨r, hr, hok, haccepted⟩ := hc.joined hjoined hcode
  obtain ⟨q, hq, _, hgaps⟩ := ht.gaps hjoined hcode
  cases hr.symm.trans hq
  obtain ⟨hconsistent, hvalidated⟩ := hc.reactor r hr
  obtain ⟨hown, _⟩ := ProducerThread.delivered hc hlt hjoined hsucceeded
  obtain ⟨_, _, _, status, hstatus, hend⟩ :=
    StreamReactor.place_returned hconsistent (ProducerThread.returned_of_ok hconsistent hok)
  rw [hok] at hstatus
  obtain ⟨hcaptured, hresponse⟩ := hend (List.cons.inj hstatus).1.symm
  have hsummary : r.response = summaryOf t.producer.producerId events := by
    rw [hresponse, hvalidated.validator, hcaptured, hown, (mem_groupByProducer.mp hgroup).2,
      summaryOf]
  rw [resultStats, statsOf, ht.name, haccepted, hgaps, hsummary]

/-- Two enumerations of the same keys are one. -/
theorem enumerates_unique {keys others all same : List (List UInt8)} (h : Enumerates keys all)
    (hothers : Enumerates others same) (hall : ∀ k, k ∈ all ↔ k ∈ same) : keys = others := by
  have hperm : keys.Perm others := (List.perm_ext_iff_of_nodup h.nodup hothers.nodup).mpr
    fun k => by rw [h.mem, hothers.mem, hall]
  refine hperm.eq_of_pairwise (fun a b _ _ hab hba => ?_) h.ascending hothers.ascending
  have hswap : compare b a = (compare a b).swap := Std.OrientedCmp.eq_swap
  rw [hswap, hab] at hba
  cases hba

/-- The groups have the producers of the events, in ascending order. -/
theorem groups_enumerate (events : List TelemetryEvent) :
    Enumerates ((groupByProducer events).map ProducerEvents.producerId)
      (events.map TelemetryEvent.producerId) where
  ascending := by
    have hkeys : (groupByProducer events).map ProducerEvents.producerId = (grouped events).keys := by
      rw [groupByProducer, List.map_map, ← Std.ExtTreeMap.map_fst_toList_eq_keys]
      rfl
    rw [hkeys]
    exact Std.ExtTreeMap.ordered_keys
  mem producer := by
    constructor
    · intro h
      obtain ⟨g, hg, rfl⟩ := List.mem_map.mp h
      obtain ⟨hne, hevents⟩ := mem_groupByProducer.mp hg
      obtain ⟨event, hevent⟩ := List.exists_mem_of_ne_nil _ hne
      have hmem : event ∈ events := by
        rw [hevents] at hevent
        exact (List.mem_filter.mp hevent).1
      exact List.mem_map.mpr ⟨event, hmem, group_own hg event hevent⟩
    · intro h
      obtain ⟨event, hevent, rfl⟩ := List.mem_map.mp h
      have hview : event ∈ Generator.eventsOf event.producerId events :=
        List.mem_filter.mpr ⟨hevent, decide_eq_true rfl⟩
      exact List.mem_map.mpr ⟨⟨_, _⟩, mem_groupByProducer.mpr ⟨List.ne_nil_of_mem hview, rfl⟩, rfl⟩

/-- The accumulator of a producer whose records a validator accepts has the validator's counters. -/
theorem analyzed_entry {digits : ℕ} {records : List (TelemetryEvent × Int64)}
    (hlt : records.length < 2 ^ 63)
    (hwhole : ∀ producer, AcceptedWhole (Generator.eventsOf producer (records.map Prod.fst)))
    {entry : List UInt8 × ProducerAccumulator}
    (h : entry ∈ (records.foldl (analyzeRecord digits) {}).producers.toList) :
    entry.2.stats = statsOf entry.1 (records.map Prod.fst) := by
  obtain ⟨producer, accumulator⟩ := entry
  have hname : accumulator.stats.producerId = producer := producers_named digits records h
  have hvalue : (records.foldl (analyzeRecord digits) {}).producers[producer]? = some accumulator :=
    Std.ExtTreeMap.mem_toList_iff_getElem?_eq_some.mp h
  have hown : (viewOf producerOf producer records).map Prod.fst =
      Generator.eventsOf producer (records.map Prod.fst) := by
    rw [Generator.eventsOf, viewOf_map]
    rfl
  have hle : (Generator.eventsOf producer (records.map Prod.fst)).length ≤ records.length :=
    (List.length_filter_le ..).trans_eq (List.length_map _)
  rw [producers_view, producers_none, hown, accounted_offerAll _ (hwhole producer)
    (Nat.lt_of_le_of_lt hle (Nat.lt_trans hlt (by decide)))] at hvalue
  unfold accounted at hvalue
  split at hvalue
  · cases hvalue
  · cases hvalue
    exact congrArg (fun name => ProducerStats.mk name
      (summaryOf producer (records.map Prod.fst)).acceptedEvents
      (summaryOf producer (records.map Prod.fst)).sequenceGaps 0) hname

/-- **The entries of an analysis** of validated producers have their validators' counters. -/
theorem analyzed_stats (digits : ℕ) {file : File} {maximumRecords : UInt64} {pb : Protobuf}
    (hcomplete : (logToAnalyze pb .granted file maximumRecords).status = .complete)
    (hwhole : ∀ producer, AcceptedWhole (Generator.eventsOf producer
      ((logToAnalyze pb .granted file maximumRecords).records.map LogRecord.event))) :
    let events := (logToAnalyze pb .granted file maximumRecords).records.map LogRecord.event
    let analysis := analyzeLog digits pb .granted file maximumRecords
    analysis.producers =
      (analysis.producers.map ProducerStats.producerId).map fun producer =>
        statsOf producer events := by
  intro events analysis
  have hall : (arrivals (logToAnalyze pb .granted file maximumRecords).records).map Prod.fst =
      events := by
    rw [arrivals, List.map_map]
    rfl
  rw [show analysis = _ from analyzeLog_complete digits hcomplete]
  simp only [report, List.map_map]
  refine List.map_congr_left fun entry hentry => ?_
  have hname := producers_named digits _ hentry
  have hstats := analyzed_entry (arrivals_length_lt hcomplete)
    (fun producer => hall.symm ▸ hwhole producer) hentry
  rw [hall] at hstats
  simp only [Function.comp_apply, hname]
  exact hstats

open Ingestion in
/-- **A log of what a publish has delivered** is analyzed as the publish reports it. -/
theorem analyzed_delivered (digits : ℕ) {pb : Protobuf} (span : EventSpan) {behind : Behind}
    {queue : BoundedQueue CollectedEvent} {writer : LogWriter} {s : Ingestion}
    {report : PublishReport} {file : File} {maximumRecords : UInt64}
    (h : (machine pb behind (groupByProducer span.events) queue writer).Reachable s)
    (hreport : s.report = some report) (hsucceeded : report.succeeded = true)
    (hlog : (logToAnalyze pb .granted file maximumRecords).status = .complete)
    (hrecorded : (logToAnalyze pb .granted file maximumRecords).records.map LogRecord.event =
      s.publishing.sunk.map CollectedEvent.event) :
    let analysis := analyzeLog digits pb .granted file maximumRecords
    analysis.status = .complete ∧ analysis.records = report.acceptedEvents ∧
      analysis.producers = report.producers.map resultStats := by
  intro analysis
  have hpublish := publish_consistent h
  have hpublished : s.publishing.report = some report := (report_publishing s).trans hreport
  obtain ⟨hviews, hwhole, hattempted, haccepted⟩ :=
    Publishing.report_delivered hpublish hpublished hsucceeded
  have hview (producer : List UInt8) :
      Generator.eventsOf producer (s.publishing.sunk.map CollectedEvent.event) =
        Generator.eventsOf producer span.events := hviews producer
  have hcounts := analyzeLog_counts digits hlog
  have hstats := analyzed_stats digits hlog fun producer => by
    rw [hrecorded, hview producer]
    exact hwhole producer
  refine ⟨?_, ?_, ?_⟩
  · rw [show analysis = _ from analyzeLog_complete digits hlog]
    rfl
  · refine UInt64.toNat_inj.mp ?_
    rw [show analysis.records.toNat = _ from hcounts.records, Analysis.eventsOf, hrecorded,
      hviews.perm.length_eq, haccepted, hattempted]
  · have hkeys : analysis.producers.map ProducerStats.producerId =
        (groupByProducer span.events).map ProducerEvents.producerId := by
      refine enumerates_unique hcounts.producers (groups_enumerate span.events) fun producer => ?_
      rw [Analysis.eventsOf, hrecorded]
      exact (hviews.perm.map TelemetryEvent.producerId).mem_iff
    obtain ⟨rfl, hjoined⟩ := Publishing.report_cases hpublished
    rw [show analysis.producers = _ from hstats, hrecorded, hkeys, ← hpublish.producers,
      List.map_map, List.map_map, List.map_map]
    refine List.map_congr_left fun t ht => ?_
    obtain ⟨i, hi⟩ := List.getElem?_of_mem ht
    have hgroup : t.producer ∈ groupByProducer span.events :=
      hpublish.producers ▸ List.mem_map_of_mem ht
    have htold := told_reachable ((publishView pb behind _ _ _).reachable h) t ht
    have hresult : t.result.succeeded = true :=
      List.all_eq_true.mp hsucceeded _ (List.mem_map_of_mem ht)
    have hsame := told_stats hgroup (groups_length_lt span _ hgroup) (hpublish.thread i t hi) htold
      (hjoined t ht) hresult
    simp only [Function.comp_apply, hsame, statsOf, summaryOf_congr (hview t.producer.producerId)]

end TraceForge.Pipeline
