import TraceForge.Generator.BaseEvents
import TraceForge.Library.Perturbation

/-! What fault injection makes of a workload.

A configuration and the same configuration without faults make the same events before faults are
injected, from the same random numbers. From there on the two runs draw differently, but whatever is
drawn, each event meets a fate that its probabilities allow (`emitEvent_fate`) and neighbours change
places (`reorderEvents_swaps`). Hence a workload is its fault-free workload, disturbed a little
(`faults_injected`). -/
namespace TraceForge.Generator
open Library Telemetry Perturbation

/-- The same generator, with all three probabilities zero. -/
def WorkloadGenerator.withoutFaults (g : WorkloadGenerator) : WorkloadGenerator where
  config := { g.config with faults := {} }
  validated := by
    obtain ⟨hduration, hjitter, hdrift, _, _, _, hrates⟩ :=
      (validateConfig_iff g.config).mp g.validated
    have hnone : (0 : UInt32) ≤ kProbabilityScale := by decide
    exact (validateConfig_iff _).mpr ⟨hduration, hjitter, hdrift, hnone, hnone, hnone, hrates⟩

/-- The events before the faults are the same. -/
theorem baseEvents_withoutFaults (engine : UInt64 → RandomEngine) (g : WorkloadGenerator) :
    baseEvents engine g.withoutFaults.config = baseEvents engine g.config := by
  have hsensors : sensorEvents engine g.withoutFaults.config = sensorEvents engine g.config := rfl
  have hcontroller : appendControllerEvents g.withoutFaults.config =
      appendControllerEvents g.config := by
    funext made
    rfl
  rw [baseEvents, baseEvents, hsensors, hcontroller]

/-- What is certain happens. -/
theorem chance_all (random : PortableRandom) : (random.chance kProbabilityScale).1 = true :=
  decide_eq_true (bounded_lt (show kProbabilityScale.toUInt64 ≠ 0 by decide) random)

/-! ### Fates -/

/-- A fate that the probabilities allow. -/
structure Allowed (faults : FaultInjection) (fate : Fate) : Prop where
  drop_none : faults.dropPerMillion = 0 → fate ≠ .dropped
  drop_all : faults.dropPerMillion = kProbabilityScale → fate = .dropped
  duplicate_none : faults.duplicatePerMillion = 0 → fate ≠ .twice
  duplicate_all : faults.duplicatePerMillion = kProbabilityScale → fate ≠ .once

/-- A result with one more event, which has met its fate. -/
def GeneratedWorkload.record (result : GeneratedWorkload) (event : TelemetryEvent) :
    Fate → GeneratedWorkload
  | .dropped =>
    { result with
      stats := { result.stats with droppedEvents := result.stats.droppedEvents + 1 } }
  | .once => { result with events := result.events ++ [event] }
  | .twice =>
    { result with
      events := result.events ++ [event, event]
      stats := { result.stats with duplicatedEvents := result.stats.duplicatedEvents + 1 } }

/-- **An event meets a fate** that its probabilities allow. -/
theorem emitEvent_fate (faults : FaultInjection) (s : GeneratedWorkload × PortableRandom)
    (event : TelemetryEvent) :
    ∃ fate, Allowed faults fate ∧ (emitEvent faults s event).1 = s.1.record event fate := by
  unfold emitEvent
  simp only
  split
  · rename_i hdrops
    refine ⟨.dropped, ⟨fun hnone => ?_, fun _ => rfl, fun _ => by decide, fun _ => by decide⟩, rfl⟩
    rw [hnone, chance_zero] at hdrops
    exact absurd hdrops (by decide)
  rename_i hdrops
  have hkept : faults.dropPerMillion ≠ kProbabilityScale := fun hall =>
    hdrops (by rw [hall, chance_all])
  split
  · rename_i htwice
    refine ⟨.twice, ⟨fun _ => by decide, fun hall => absurd hall hkept, fun hnone => ?_,
      fun _ => by decide⟩, ?_⟩
    · rw [hnone, chance_zero] at htwice
      exact absurd htwice (by decide)
    · rw [GeneratedWorkload.record, List.append_assoc]
      rfl
  · rename_i honce
    refine ⟨.once, ⟨fun _ => by decide, fun hall => absurd hall hkept, fun _ => by decide,
      fun hall => absurd (by rw [hall, chance_all]) honce⟩, rfl⟩

/-- A result with more events, each of which has met its fate. -/
def GeneratedWorkload.recordAll (result : GeneratedWorkload) (fates : List Fate)
    (events : List TelemetryEvent) : GeneratedWorkload :=
  { result with
    events := result.events ++ emit fates events
    stats :=
      { result.stats with
        droppedEvents := result.stats.droppedEvents + UInt64.ofNat (fates.count .dropped)
        duplicatedEvents := result.stats.duplicatedEvents + UInt64.ofNat (fates.count .twice) } }

theorem recordAll_nil (result : GeneratedWorkload) : result.recordAll [] [] = result := by
  simp [GeneratedWorkload.recordAll, emit]

theorem recordAll_cons (result : GeneratedWorkload) (fate : Fate) (event : TelemetryEvent)
    (fates : List Fate) (events : List TelemetryEvent) :
    (result.record event fate).recordAll fates events =
      result.recordAll (fate :: fates) (event :: events) := by
  cases fate <;>
    simp [GeneratedWorkload.record, GeneratedWorkload.recordAll, emit, Fate.copies,
      UInt64.add_assoc, UInt64.add_comm 1]

/-- **The loop over the sorted events**: each of them meets its fate. -/
theorem foldl_emitEvent (faults : FaultInjection) (events : List TelemetryEvent)
    (s : GeneratedWorkload × PortableRandom) :
    ∃ fates, fates.length = events.length ∧ (∀ fate ∈ fates, Allowed faults fate) ∧
      (events.foldl (emitEvent faults) s).1 = s.1.recordAll fates events := by
  induction events generalizing s with
  | nil => exact ⟨[], rfl, fun fate h => absurd h List.not_mem_nil, (recordAll_nil s.1).symm⟩
  | cons event rest ih =>
    obtain ⟨fate, hfate, hmet⟩ := emitEvent_fate faults s event
    obtain ⟨fates, hlength, hallowed, hrest⟩ := ih (emitEvent faults s event)
    refine ⟨fate :: fates, congrArg Nat.succ hlength,
      List.forall_mem_cons.mpr ⟨hfate, hallowed⟩, ?_⟩
    rw [List.foldl_cons, hrest, hmet, recordAll_cons]

/-! ### Neighbours -/

/-- **The reordering loop** swaps disjoint pairs of neighbours, and counts them. -/
theorem reorderEvents_swaps (perMillion : UInt32) (events : List TelemetryEvent)
    (reorderedPairs : UInt64) (random : PortableRandom) :
    ∃ choices, Swaps choices events (reorderEvents perMillion events reorderedPairs random).1 ∧
      (reorderEvents perMillion events reorderedPairs random).2 =
        reorderedPairs + UInt64.ofNat (choices.count true) ∧
      (perMillion = 0 → ∀ c ∈ choices, c = false) ∧
      (perMillion = kProbabilityScale → ∀ c ∈ choices, c = true) := by
  fun_induction reorderEvents perMillion events reorderedPairs random with
  | case1 first second rest reorderedPairs random next after pairs hrest hdraw ih =>
    obtain ⟨choices, hswaps, hpairs, _, hall⟩ := ih
    rw [hrest] at hswaps hpairs
    refine ⟨true :: choices, hswaps.swap, ?_, fun hnone => ?_, fun hscale =>
      List.forall_mem_cons.mpr ⟨rfl, hall hscale⟩⟩
    · rw [hpairs, List.count_cons_self, UInt64.ofNat_add, UInt64.add_assoc, UInt64.add_comm 1]
      rfl
    · have hdrawn := congrArg Prod.fst hdraw
      rw [hnone, chance_zero] at hdrawn
      exact Bool.noConfusion hdrawn
  | case2 first second rest reorderedPairs random swaps next hdraw hkeeps after pairs hrest ih =>
    obtain ⟨choices, hswaps, hpairs, hnone, _⟩ := ih
    rw [hrest] at hswaps hpairs
    refine ⟨false :: choices, hswaps.keep, ?_, fun hzero =>
      List.forall_mem_cons.mpr ⟨rfl, hnone hzero⟩, fun hall => ?_⟩
    · rw [hpairs, List.count_cons_of_ne (by decide)]
    · have hdrawn := congrArg Prod.fst hdraw
      rw [hall, chance_all] at hdrawn
      exact absurd hdrawn.symm hkeeps
  | case3 events reorderedPairs random hshort =>
    refine ⟨[], ?_, (UInt64.add_zero _).symm, fun _ c hc => absurd hc List.not_mem_nil,
      fun _ c hc => absurd hc List.not_mem_nil⟩
    match events with
    | [] => exact .nil
    | [event] => exact .single event
    | first :: second :: rest => exact (hshort first second rest rfl).elim

/-! ### Workloads -/

/-- How a workload arises from what was generated: the events' fates, and whether each pair of
neighbours that came up was swapped. -/
structure Disturbed (faults : FaultInjection) (fates : List Fate) (choices : List Bool)
    (base emitted : List TelemetryEvent) : Prop where
  fated : fates.length = base.length
  allowed : ∀ fate ∈ fates, Allowed faults fate
  swapped : Swaps choices (emit fates base) emitted
  reorder_none : faults.reorderPerMillion = 0 → ∀ c ∈ choices, c = false
  reorder_all : faults.reorderPerMillion = kProbabilityScale → ∀ c ∈ choices, c = true

/-- What the statistics of a disturbed workload are. -/
def statsOf (fates : List Fate) (choices : List Bool) (base : List TelemetryEvent) :
    GenerationStats where
  generatedEvents := UInt64.ofNat base.length
  droppedEvents := UInt64.ofNat (fates.count .dropped)
  duplicatedEvents := UInt64.ofNat (fates.count .twice)
  reorderedPairs := UInt64.ofNat (choices.count true)

/-- The statistics count exactly, as long as the workload is not too large for them. -/
theorem Disturbed.counted {faults : FaultInjection} {fates : List Fate} {choices : List Bool}
    {base emitted : List TelemetryEvent} (h : Disturbed faults fates choices base emitted)
    (hfew : base.length ≤ 2 ^ 32) :
    (statsOf fates choices base).generatedEvents.toNat = base.length ∧
      (statsOf fates choices base).droppedEvents.toNat = fates.count .dropped ∧
      (statsOf fates choices base).duplicatedEvents.toNat = fates.count .twice ∧
      (statsOf fates choices base).reorderedPairs.toNat = choices.count true ∧
      emitted.length + fates.count .dropped = base.length + fates.count .twice := by
  have hfates := h.fated
  have htotal := emit_length hfates
  have hsize := h.swapped.perm.length_eq
  have hpairs := h.swapped.count_le
  have hdropped : fates.count .dropped ≤ fates.length := List.count_le_length
  have htwice : fates.count .twice ≤ fates.length := List.count_le_length
  have hexact : ∀ n ≤ 2 ^ 33, (UInt64.ofNat n).toNat = n := fun n hn =>
    UInt64.toNat_ofNat_of_lt' (Nat.lt_of_le_of_lt hn (by decide))
  exact ⟨hexact _ (by omega), hexact _ (by omega), hexact _ (by omega), hexact _ (by omega),
    by omega⟩

theorem injectFaults_disturbed (faults : FaultInjection) (sorted : List TelemetryEvent)
    (random : PortableRandom) :
    ∃ fates choices emitted, Disturbed faults fates choices sorted emitted ∧
      injectFaults faults sorted random = (emitted, statsOf fates choices sorted) := by
  let start : GeneratedWorkload := { stats := { generatedEvents := UInt64.ofNat sorted.length } }
  obtain ⟨fates, hlength, hallowed, hfates⟩ := foldl_emitEvent faults sorted (start, random)
  let met := sorted.foldl (emitEvent faults) (start, random)
  obtain ⟨choices, hswaps, hpairs, hnone, hall⟩ :=
    reorderEvents_swaps faults.reorderPerMillion met.1.events 0 met.2
  have hevents : met.1.events = emit fates sorted := congrArg GeneratedWorkload.events hfates
  have hstats : met.1.stats = (start.recordAll fates sorted).stats :=
    congrArg GeneratedWorkload.stats hfates
  let reordered := reorderEvents faults.reorderPerMillion met.1.events 0 met.2
  refine ⟨fates, choices, reordered.1, ⟨hlength, hallowed, hevents ▸ hswaps, hnone, hall⟩, ?_⟩
  have hparts : injectFaults faults sorted random =
      (reordered.1, { met.1.stats with reorderedPairs := reordered.2 }) := rfl
  rw [hparts, hstats, hpairs, UInt64.zero_add]
  simp only [GeneratedWorkload.recordAll, start, UInt64.zero_add, statsOf]

/-- Without faults nothing happens to the events. -/
theorem injectFaults_none (sorted : List TelemetryEvent) (random : PortableRandom) :
    injectFaults {} sorted random =
      (sorted, { generatedEvents := UInt64.ofNat sorted.length }) := by
  obtain ⟨fates, choices, emitted, hdisturbed, hinjected⟩ :=
    injectFaults_disturbed {} sorted random
  have honce : ∀ fate ∈ fates, fate = .once := by
    intro fate hfate
    have hallowed := hdisturbed.allowed fate hfate
    cases fate with
    | dropped => exact absurd rfl (hallowed.drop_none rfl)
    | once => rfl
    | twice => exact absurd rfl (hallowed.duplicate_none rfl)
  have hfates : fates = List.replicate sorted.length .once :=
    hdisturbed.fated ▸ List.eq_replicate_of_mem honce
  have hchoices := hdisturbed.reorder_none rfl
  have hemitted := hdisturbed.swapped.eq_of_none hchoices
  rw [hfates, emit_once] at hemitted
  have hnotrue : choices.count true = 0 :=
    List.count_eq_zero.mpr fun htrue => absurd (hchoices true htrue) (by decide)
  have hnone : ∀ fate ∈ [Fate.dropped, .twice], fates.count fate = 0 := fun fate hfate =>
    List.count_eq_zero.mpr fun hmem => by
      rw [honce fate hmem] at hfate
      exact absurd hfate (by decide)
  rw [hinjected, hemitted, statsOf, hnotrue, hnone .dropped (by decide), hnone .twice (by decide)]
  rfl

/-- **Fault injection only drops, repeats and swaps neighbours**, whatever is drawn. The workload
without faults is not disturbed; with them, each of its events is emitted as often as its fate says,
and then pairs of neighbours change places. -/
theorem faults_injected (pb : Protobuf) (engine : UInt64 → RandomEngine) (g : WorkloadGenerator) :
    ∃ base emitted stats fates choices,
      generate pb engine g.withoutFaults = (stableEventHash pb base).map
        (⟨base, { generatedEvents := UInt64.ofNat base.length }, ·⟩) ∧
      generate pb engine g = (stableEventHash pb emitted).map (⟨emitted, stats, ·⟩) ∧
      Disturbed g.config.faults fates choices base emitted ∧
      stats.generatedEvents.toNat = base.length ∧
      stats.droppedEvents.toNat = fates.count .dropped ∧
      stats.duplicatedEvents.toNat = fates.count .twice ∧
      stats.reorderedPairs.toNat = choices.count true ∧
      emitted.length + stats.droppedEvents.toNat =
        base.length + stats.duplicatedEvents.toNat ∧
      (∀ event ∈ emitted, event ∈ base ∧ emitted.count event ≤ 2) ∧
      ∀ i, emitted[i]? = (emit fates base)[place choices i]? ∧
        place choices (place choices i) = i ∧
        place choices i ≤ i + 1 ∧ i ≤ place choices i + 1 := by
  obtain ⟨before, made, _, hbase, hnodup, hlength⟩ := baseEvents_made engine g
  let base := made.1.insertionSort Before
  obtain ⟨fates, choices, emitted, hdisturbed, hinjected⟩ :=
    injectFaults_disturbed g.config.faults base made.2
  have hperm : base.Perm made.1 := List.perm_insertionSort Before made.1
  have hfew : base.length ≤ 2 ^ 32 := by
    have hsensors := sensorTotal_le g
    rw [hperm.length_eq, hlength]
    split <;> omega
  obtain ⟨hgenerated, hdropped, hduplicated, hreordered, htotal⟩ := hdisturbed.counted hfew
  refine ⟨base, emitted, statsOf fates choices base, fates, choices, ?_, ?_, hdisturbed,
    hgenerated, hdropped, hduplicated, hreordered, ?_, ?_, ?_⟩
  · have hsame := (baseEvents_withoutFaults engine g).trans hbase
    rw [generate_eq_inject hsame, show g.withoutFaults.config.faults = {} from rfl,
      injectFaults_none]
  · rw [generate_eq_inject hbase, hinjected]
  · rw [hdropped, hduplicated]
    exact htotal
  · intro event hevent
    have hswapped := hdisturbed.swapped.perm
    refine ⟨emit_subset fates base (hswapped.mem_iff.mpr hevent), ?_⟩
    have honce := List.nodup_iff_count_le_one.mp (hperm.nodup_iff.mpr hnodup) event
    have htwice := emit_count_le fates base event
    rw [← hswapped.count_eq event]
    omega
  · exact fun i => ⟨hdisturbed.swapped.getElem? i, place_place choices i, place_near choices i⟩

end TraceForge.Generator
