import TraceForge.Analysis.Counters
import TraceForge.Generator.Faults

/-! Where the dropped events of a workload show.

A generator that only drops leaves every producer some of its series, in order. An analysis of such
a log reports the numbers missing between two that are there; those before the first and behind the
last leave no gap. So the drops that the generator has counted are the reported gaps and what the
series have lost at their ends (`drops_accounted`). -/
namespace TraceForge.Pipeline
open Library Recording Generator Perturbation
open Telemetry hiding missing
open Analysis hiding eventsOf

/-! ### Increasing numbers -/

/-- Of the numbers below `count`, those before the first and behind the last of a list. -/
def cutOff (count : ℕ) (sequences : List UInt64) : ℕ :=
  match sequences.head?, sequences.getLast? with
  | some first, some last => first.toNat + (count - 1 - last.toNat)
  | _, _ => count

/-- From the first to the last, each number is there or missing. -/
theorem increasing_missing {sequences : List UInt64} (h : sequences.Pairwise (· < ·))
    {first last : UInt64} (hfirst : sequences.head? = some first)
    (hlast : sequences.getLast? = some last) :
    missing sequences + sequences.length + first.toNat = last.toNat + 1 := by
  induction sequences using List.reverseRecOn generalizing last with
  | nil => cases hfirst
  | append_singleton rest s ih =>
    rw [List.getLast?_append, List.getLast?_singleton] at hlast
    cases hlast
    rw [missing_snoc, List.length_append, List.length_singleton]
    cases hrest : rest.getLast? with
    | none =>
      rw [List.getLast?_eq_none_iff] at hrest
      rw [hrest, List.nil_append, List.head?_cons] at hfirst
      cases hfirst
      rw [hrest]
      have hnone : missing [] = 0 := rfl
      simp only [hnone, List.length_nil]
      omega
    | some previous =>
      have hin : previous ∈ rest := List.mem_of_getLast? hrest
      obtain ⟨hincreasing, _, hbelow⟩ := List.pairwise_append.mp h
      have hlt : previous < s := hbelow previous hin s List.mem_cons_self
      rw [List.head?_append_of_ne_nil _ (List.ne_nil_of_mem hin)] at hfirst
      have hthere := ih hincreasing hfirst hrest
      have hnat := UInt64.lt_iff_toNat_lt.mp hlt
      simp only [if_pos hlt]
      omega

/-- **Each number below `count`** is there, missing between two that are, or cut off. -/
theorem missing_cutOff {count : ℕ} {sequences : List UInt64} (h : sequences.Pairwise (· < ·))
    (hbelow : ∀ s ∈ sequences, s.toNat < count) :
    missing sequences + cutOff count sequences + sequences.length = count := by
  cases hfirst : sequences.head? with
  | none =>
    rw [List.head?_eq_none_iff] at hfirst
    rw [hfirst]
    exact Nat.zero_add _
  | some first =>
    have hne : sequences ≠ [] := by
      rintro rfl
      cases hfirst
    have hlast := List.getLast?_eq_some_getLast hne
    have hthere := increasing_missing h hfirst hlast
    have hlt := hbelow _ (List.mem_of_getLast? hlast)
    simp only [cutOff, hfirst, hlast]
    omega

/-- Numbers that all are there leave nothing out of a longer list. -/
theorem sum_names {keys names : List (List UInt8)} (hkeys : keys.Nodup) (hnames : names.Nodup)
    (hsub : ∀ k ∈ keys, k ∈ names) {f : List UInt8 → ℕ} (hzero : ∀ k ∈ names, k ∉ keys → f k = 0) :
    (keys.map f).sum = (names.map f).sum := by
  rw [← List.sum_toFinset f hkeys, ← List.sum_toFinset f hnames]
  refine Finset.sum_subset (fun k hk => ?_) fun k hk hnot => ?_
  · exact List.mem_toFinset.mpr (hsub k (List.mem_toFinset.mp hk))
  · exact hzero k (List.mem_toFinset.mp hk) fun h => hnot (List.mem_toFinset.mpr h)

/-! ### The workload -/

/-- **Without jitter**, what is made before the faults is a series of each producer. -/
theorem baseEvents_series (engine : UInt64 → RandomEngine) (g : WorkloadGenerator)
    (hjitter : g.config.maxJitter = 0) :
    ∃ made states, baseEvents engine g.config = .ok made ∧ Made producerIds made.1 ∧
      (states = 3 ∨ states = 4) ∧ ∀ entry ∈ producerCounts g.config states,
        (Generator.eventsOf entry.1 made.1).length = entry.2 := by
  have h := inBounds_of_ok g.validated
  obtain ⟨made, hfold, hmade, hcounted⟩ :=
    sensors_made h hjitter sensors_proper (by decide) { engine := engine g.config.seed }
  have hunknown : controllerId ∉ sensors.map Sensor.producerId := by decide
  obtain ⟨series, random, hcontroller, hseries, hlength, hall⟩ :=
    appendControllerEvents_made h hjitter hmade hunknown
  have hbase : baseEvents engine g.config = .ok (made.1 ++ series, random) := by
    rw [baseEvents, show sensorEvents engine g.config = .ok made from hfold]
    exact hcontroller
  refine ⟨_, series.length, hbase, hall, hlength, ?_⟩
  refine List.forall_mem_append.mpr ⟨fun entry hentry => ?_, List.forall_mem_singleton.mpr ?_⟩
  · obtain ⟨sensor, hsensor, rfl⟩ := List.mem_map.mp hentry
    have hne : sensor.producerId ≠ controllerId := fun heq =>
      hunknown (heq ▸ List.mem_map_of_mem hsensor)
    rw [eventsOf_other hseries hne]
    exact hcounted sensor hsensor
  · rw [hmade.eventsOf_new hseries hunknown]

/-- **A generator that only drops** emits some of the sorted events, and counts the others. -/
theorem generate_dropped {pb : Protobuf} {engine : UInt64 → RandomEngine} {g : WorkloadGenerator}
    {made : List TelemetryEvent × PortableRandom} {workload : GeneratedWorkload}
    (hbase : baseEvents engine g.config = .ok made) (h : generate pb engine g = .ok workload)
    (hduplicate : g.config.faults.duplicatePerMillion = 0)
    (hreorder : g.config.faults.reorderPerMillion = 0) (hfew : made.1.length ≤ 2 ^ 32) :
    workload.events.Sublist (made.1.insertionSort Before) ∧
      workload.stats.generatedEvents.toNat = made.1.length ∧
      workload.events.length + workload.stats.droppedEvents.toNat = made.1.length := by
  obtain ⟨fates, choices, emitted, hdisturbed, hinjected⟩ :=
    injectFaults_disturbed g.config.faults (made.1.insertionSort Before) made.2
  have hparts := (injected_of_generate hbase h).trans hinjected
  obtain ⟨hevents, hstats⟩ := Prod.ext_iff.mp hparts
  have hlength := List.length_insertionSort Before made.1
  obtain ⟨hgenerated, hdropped, _, _, htotal⟩ := hdisturbed.counted (hlength.symm ▸ hfew)
  have honce : ∀ fate ∈ fates, fate ≠ .twice := fun fate hfate =>
    (hdisturbed.allowed fate hfate).duplicate_none hduplicate
  have hnotwice : fates.count .twice = 0 :=
    List.count_eq_zero.mpr fun htwice => honce _ htwice rfl
  have hemitted := hdisturbed.swapped.eq_of_none (hdisturbed.reorder_none hreorder)
  simp only at hevents hstats
  rw [hevents, hstats, hgenerated, hdropped, hlength]
  refine ⟨?_, rfl, ?_⟩
  · rw [hemitted]
    exact emit_sublist honce _
  · rw [hnotwice, hlength] at htotal
    exact htotal

/-- What is left of a producer's series, and its place in the whole. -/
theorem left_accounted {producer : List UInt8} {whole left : List TelemetryEvent}
    (hseries : Series producer whole) (hfew : whole.length ≤ 2000000) (hsub : left.Sublist whole) :
    let sequences := left.map TelemetryEvent.sequenceNumber
    missing sequences + cutOff whole.length sequences + left.length = whole.length ∧
      nonIncreasing sequences = 0 := by
  intro sequences
  have hincreasing : sequences.Pairwise (· < ·) :=
    List.pairwise_map.mpr ((hseries.increasing hfew).sublist hsub)
  have hbelow : ∀ s ∈ sequences, s.toNat < whole.length := by
    intro s hs
    have hin : s ∈ whole.map TelemetryEvent.sequenceNumber := (hsub.map _).subset hs
    rw [hseries.numbers] at hin
    obtain ⟨i, hi, rfl⟩ := List.mem_map.mp hin
    rw [List.mem_range] at hi
    rwa [UInt64.toNat_ofNat_of_lt' (Nat.lt_of_lt_of_le hi (Nat.le_trans hfew (by decide)))]
  have hcounted := missing_cutOff hincreasing hbelow
  rw [show sequences.length = left.length from List.length_map _] at hcounted
  refine ⟨hcounted, List.countP_eq_zero.mpr fun pair hpair => ?_⟩
  exact fun hle => UInt64.not_lt.mpr (of_decide_eq_true hle)
    (adjacent_of_pairwise hincreasing pair hpair)

theorem baseEvents_few {engine : UInt64 → RandomEngine} {g : WorkloadGenerator}
    {made : List TelemetryEvent × PortableRandom} (h : baseEvents engine g.config = .ok made) :
    made.1.length ≤ 2 ^ 32 := by
  obtain ⟨_, made', _, hbase, _, hlength⟩ := baseEvents_made engine g
  have hsensors := sensorTotal_le g
  cases h.symm.trans hbase
  rw [hlength]
  split <;> omega

/-- The names of a workload's producers. -/
theorem producerCounts_names (config : GeneratorConfig) (states : ℕ) :
    (producerCounts config states).map Prod.fst = producerIds := by
  simp only [producerCounts, sensorCounts, List.map_append, List.map_map]
  rfl

/-! ### The report -/

/-- The gaps that a report shows, of all producers together. -/
def reportedGaps (report : AnalysisReport) : ℕ :=
  (report.producers.map fun stats => stats.sequenceGaps.toNat).sum

/-- A report shows all that is missing, as long as the counters can hold it. -/
theorem reportedGaps_missing {report : AnalysisReport} {events : List TelemetryEvent}
    (h : report.Counts events) {names : List (List UInt8)} (hnames : names.Nodup)
    (hknown : ∀ event ∈ events, event.producerId ∈ names)
    (hfits : ∀ stats ∈ report.producers,
      stats.sequenceGaps.toNat = missing (sequencesOf stats.producerId events)) :
    reportedGaps report = (names.map fun producer => missing (sequencesOf producer events)).sum := by
  rw [← sum_names h.producers.nodup hnames (fun producer hin => ?_) fun producer _ hnot => ?_,
    List.map_map]
  · exact congrArg List.sum (List.map_congr_left hfits)
  · obtain ⟨event, hevent, rfl⟩ := List.mem_map.mp ((h.producers.mem _).mp hin)
    exact hknown event hevent
  · have hnone : viewOf TelemetryEvent.producerId producer events = [] :=
      viewOf_eq_nil fun event hevent hsame => hnot ((h.producers.mem _).mpr
        (List.mem_map.mpr ⟨event, hevent, hsame⟩))
    rw [sequencesOf, hnone]
    rfl

/-- **Every dropped event is a reported gap or was one of its producer's first or last.** The
generator only drops, and the log holds what it has emitted, whatever the order of different
producers. Each entry of the analysis, with the events cut off at its ends, makes up its producer's
series, and no number is reported out of order; over all producers, gaps and cut-off events are the
drops that the generator has counted. The gaps alone are all drops exactly when no producer has
lost its first or its last event. -/
theorem drops_accounted (digits : ℕ) (pb : Protobuf) (engine : UInt64 → RandomEngine)
    (g : WorkloadGenerator) (workload : GeneratedWorkload)
    (hgenerate : generate pb engine g = .ok workload) (hjitter : g.config.maxJitter = 0)
    (hduplicate : g.config.faults.duplicatePerMillion = 0)
    (hreorder : g.config.faults.reorderPerMillion = 0) (file : File) (maximumRecords : UInt64)
    (hcomplete : (logToAnalyze pb .granted file maximumRecords).status = .complete)
    (hlog : SameViews TelemetryEvent.producerId
      ((logToAnalyze pb .granted file maximumRecords).records.map LogRecord.event)
      workload.events) :
    let events := (logToAnalyze pb .granted file maximumRecords).records.map LogRecord.event
    let report := analyzeLog digits pb .granted file maximumRecords
    ∃ states, (states = 3 ∨ states = 4) ∧
      let counts := producerCounts g.config states
      let lost := (counts.map fun entry => cutOff entry.2 (sequencesOf entry.1 events)).sum
      workload.stats.generatedEvents.toNat = (counts.map Prod.snd).sum ∧
      (∀ stats ∈ report.producers, ∃ entry ∈ counts, entry.1 = stats.producerId ∧
        stats.records.toNat + stats.sequenceGaps.toNat +
          cutOff entry.2 (sequencesOf entry.1 events) = entry.2 ∧
        stats.nonIncreasingSequences = 0) ∧
      reportedGaps report + lost = workload.stats.droppedEvents.toNat ∧
      (reportedGaps report = workload.stats.droppedEvents.toNat ↔
        ∀ entry ∈ counts, cutOff entry.2 (sequencesOf entry.1 events) = 0) := by
  intro events report
  obtain ⟨made, states, hbase, hmade, hstates, hlengths⟩ := baseEvents_series engine g hjitter
  obtain ⟨hsub, hgenerated, hdropped⟩ :=
    generate_dropped hbase hgenerate hduplicate hreorder (baseEvents_few hbase)
  let counts := producerCounts g.config states
  have hnames : counts.map Prod.fst = producerIds := producerCounts_names g.config states
  have hnodup : producerIds.Nodup := by decide
  -- What the log has of a producer is some of its series.
  have hleft (producer : List UInt8) : (viewOf TelemetryEvent.producerId producer events).Sublist
      (Generator.eventsOf producer made.1) := by
    rw [hlog producer, ← sorted_views hmade producer]
    exact hsub.filter _
  have haccounted : ∀ entry ∈ counts,
      missing (sequencesOf entry.1 events) + cutOff entry.2 (sequencesOf entry.1 events) +
          (viewOf TelemetryEvent.producerId entry.1 events).length = entry.2 ∧
        nonIncreasing (sequencesOf entry.1 events) = 0 := by
    intro entry hentry
    rw [← hlengths entry hentry]
    exact left_accounted (hmade.series entry.1) (hmade.few entry.1) (hleft entry.1)
  have hknown : ∀ event ∈ events, event.producerId ∈ producerIds := fun event hevent =>
    hmade.known event (List.mem_of_mem_filter ((hleft event.producerId).subset
      (List.mem_filter.mpr ⟨hevent, decide_eq_true rfl⟩)))
  -- Each entry of the report is of one of the producers.
  have hcounts : report.Counts events := analyzeLog_counts digits hcomplete
  have hentry : ∀ stats ∈ report.producers, ∃ entry ∈ counts, entry.1 = stats.producerId ∧
      stats.sequenceGaps.toNat = missing (sequencesOf stats.producerId events) := by
    intro stats hstats
    obtain ⟨event, hevent, hsame⟩ :=
      List.mem_map.mp ((hcounts.producers.mem _).mp (List.mem_map_of_mem hstats))
    have hin := hknown event hevent
    rw [hsame, ← hnames] at hin
    obtain ⟨entry, hentry, hproducer⟩ := List.mem_map.mp hin
    obtain ⟨hentries, _⟩ := haccounted entry hentry
    have hfew : entry.2 ≤ 2000000 := hlengths entry hentry ▸ hmade.few entry.1
    refine ⟨entry, hentry, hproducer, ?_⟩
    rw [(hcounts.perProducer stats hstats).sequenceGaps, ← hproducer]
    exact Nat.mod_eq_of_lt (by omega)
  have hreported := reportedGaps_missing hcounts hnodup hknown fun stats hstats =>
    (hentry stats hstats).choose_spec.2.2
  have hemitted := sum_views hnodup hknown
  have htotal := sum_views hnodup hmade.known
  rw [← hnames, List.map_map] at hreported hemitted htotal
  have hseries : (counts.map Prod.snd).sum = made.1.length :=
    (congrArg List.sum (List.map_congr_left fun entry h => (hlengths entry h).symm)).trans htotal
  have hwhole : reportedGaps report +
      (counts.map fun entry => cutOff entry.2 (sequencesOf entry.1 events)).sum =
        workload.stats.droppedEvents.toNat := by
    have hsum := congrArg List.sum (List.map_congr_left fun entry h => (haccounted entry h).1)
    rw [List.sum_map_add, List.sum_map_add, hseries] at hsum
    have hlength : events.length = workload.events.length := hlog.perm.length_eq
    simp only [Function.comp_def] at hreported hemitted
    omega
  refine ⟨states, hstates, hgenerated.trans hseries.symm, fun stats hstats => ?_, hwhole, ?_⟩
  · obtain ⟨entry, hentry, hproducer, hgaps⟩ := hentry stats hstats
    obtain ⟨hentries, hincreasing⟩ := haccounted entry hentry
    have hstat := hcounts.perProducer stats hstats
    refine ⟨entry, hentry, hproducer, ?_, UInt64.toNat_inj.mp ?_⟩
    · rw [hstat.records, hgaps, ← hproducer]
      omega
    · rw [hstat.nonIncreasingSequences, ← hproducer, hincreasing]
      rfl
  · have hzero : (counts.map fun entry => cutOff entry.2 (sequencesOf entry.1 events)).sum = 0 ↔
        ∀ entry ∈ counts, cutOff entry.2 (sequencesOf entry.1 events) = 0 := by
      rw [List.sum_eq_zero_iff_forall_eq_nat, List.forall_mem_map]
    rw [← hzero]
    omega

/-- Only the controller has time for events, and its second one is dropped. -/
def droppingGenerator : WorkloadGenerator where
  config := { duration := 8, faults := { dropPerMillion := 300000 } }
  validated := by decide

def droppedWorkload (pb : Protobuf) : GeneratedWorkload :=
  (generate pb (fun _ => seededWithOne) droppingGenerator).toOption.getD {}

def droppedPb : Protobuf := Wire.protobuf (droppedWorkload (Wire.protobuf [])).events

def droppedLog : File :=
  (LogWriter.writeLog droppedPb (.fresh "log" fun _ => none) {} 0
    ((droppedWorkload droppedPb).events.map fun event => (event, 5))).output.visible

theorem drops_accounted_sample :
    ∃ workload, generate droppedPb (fun _ => seededWithOne) droppingGenerator = .ok workload ∧
      workload.events.map TelemetryEvent.sequenceNumber = [0, 2, 3] ∧
      reportedGaps (analyzeLog 3 droppedPb .granted droppedLog 3) =
        workload.stats.droppedEvents.toNat := by
  have hworkload : generate droppedPb (fun _ => seededWithOne) droppingGenerator =
      .ok (droppedWorkload droppedPb) := by
    have hok : (generate droppedPb (fun _ => seededWithOne) droppingGenerator).toOption.isSome =
        true := by decide +kernel
    rw [droppedWorkload]
    cases hgenerate : generate droppedPb (fun _ => seededWithOne) droppingGenerator with
    | error message =>
      rw [hgenerate] at hok
      cases hok
    | ok workload => rfl
  have hevents : (logToAnalyze droppedPb .granted droppedLog 3).records.map LogRecord.event =
      (droppedWorkload droppedPb).events := by decide +kernel
  obtain ⟨states, hstates, _, _, _, hall⟩ := drops_accounted 3 droppedPb (fun _ => seededWithOne)
    droppingGenerator (droppedWorkload droppedPb) hworkload rfl rfl rfl droppedLog 3
    (by decide +kernel) (by rw [hevents]; exact fun _ => rfl)
  refine ⟨_, hworkload, by decide +kernel, hall.mpr ?_⟩
  rw [hevents]
  rcases hstates with rfl | rfl <;> decide +kernel

end TraceForge.Pipeline
