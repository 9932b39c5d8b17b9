import TraceForge.Generator.Series

/-! A generated workload is valid telemetry.

Sorting by time keeps every producer's series in order, since it was in order before and ties go by
sequence number (`sorted_views`). Without duplicates and swaps, what is emitted is the sorted events
less the dropped ones, so each producer's numbers still increase. -/
namespace TraceForge.Generator
open Library Telemetry
open Offered

/-! ### The order -/

/-- The order the sort puts the events in. -/
def Before (a b : TelemetryEvent) : Prop := comesBefore b a = false

instance Before.instDecidable : DecidableRel Before :=
  fun a b => inferInstanceAs (Decidable (comesBefore b a = false))

theorem lt_iff_not_lt_of_ne {a b : List UInt8} (h : a ≠ b) : a < b ↔ ¬b < a := by
  refine ⟨fun hlt hgt => List.lt_irrefl a (List.lt_trans hlt hgt), fun hle => ?_⟩
  exact Decidable.byContradiction fun hge =>
    h (List.le_antisymm (List.not_lt.mp hle) (List.not_lt.mp hge))

theorem before_iff (a b : TelemetryEvent) :
    Before a b ↔ a.sourceTimestampNs.toInt < b.sourceTimestampNs.toInt ∨
      a.sourceTimestampNs.toInt = b.sourceTimestampNs.toInt ∧
        (a.producerId < b.producerId ∨ a.producerId = b.producerId ∧
          a.sequenceNumber.toNat ≤ b.sequenceNumber.toNat) := by
  unfold Before comesBefore
  by_cases htime : b.sourceTimestampNs = a.sourceTimestampNs
  · by_cases hproducer : b.producerId = a.producerId
    · simp [htime, hproducer, List.lt_irrefl, UInt64.le_iff_toNat_le]
    · have hne : a.producerId ≠ b.producerId := fun h => hproducer h.symm
      simp [htime, hproducer, hne, lt_iff_not_lt_of_ne hne]
  · have hne : b.sourceTimestampNs.toInt ≠ a.sourceTimestampNs.toInt := fun h =>
      htime (Int64.toInt_inj.mp h)
    rw [if_pos htime, decide_eq_false_iff_not, Int64.lt_iff_toInt_lt]
    omega

theorem before_trans {a b c : TelemetryEvent} (hab : Before a b) (hbc : Before b c) :
    Before a c := by
  rw [before_iff] at hab hbc ⊢
  obtain hab | ⟨htime, hab⟩ := hab
  · exact .inl (by omega)
  obtain hbc | ⟨htime', hbc⟩ := hbc
  · exact .inl (by omega)
  refine .inr ⟨htime.trans htime', ?_⟩
  obtain hab | ⟨hproducer, hab⟩ := hab
  · obtain hbc | ⟨hproducer', _⟩ := hbc
    · exact .inl (List.lt_trans hab hbc)
    · exact .inl (hproducer' ▸ hab)
  · obtain hbc | ⟨hproducer', hbc⟩ := hbc
    · exact .inl (hproducer ▸ hbc)
    · exact .inr ⟨hproducer.trans hproducer', Nat.le_trans hab hbc⟩

theorem before_total (a b : TelemetryEvent) : Before a b ∨ Before b a := by
  rw [before_iff, before_iff]
  obtain htime | htime | htime :=
    Int.lt_trichotomy a.sourceTimestampNs.toInt b.sourceTimestampNs.toInt
  · exact .inl (.inl htime)
  · by_cases hproducer : a.producerId = b.producerId
    · obtain hle | hle := Nat.le_total a.sequenceNumber.toNat b.sequenceNumber.toNat
      · exact .inl (.inr ⟨htime, .inr ⟨hproducer, hle⟩⟩)
      · exact .inr (.inr ⟨htime.symm, .inr ⟨hproducer.symm, hle⟩⟩)
    · by_cases hlt : a.producerId < b.producerId
      · exact .inl (.inr ⟨htime, .inl hlt⟩)
      · exact .inr (.inr ⟨htime.symm, .inl ((lt_iff_not_lt_of_ne (Ne.symm hproducer)).mpr hlt)⟩)
  · exact .inr (.inl htime)

instance Before.instTotal : Std.Total Before := ⟨before_total⟩

instance Before.instTrans : IsTrans TelemetryEvent Before := ⟨fun _ _ _ => before_trans⟩

theorem before_le {a b : TelemetryEvent} (h : Before a b) :
    a.sourceTimestampNs ≤ b.sourceTimestampNs := by
  rw [before_iff] at h
  rw [Int64.le_iff_toInt_le]
  omega

/-! ### Sorting -/

theorem Series.increasing {producer : List UInt8} {events : List TelemetryEvent}
    (h : Series producer events) (hfew : events.length ≤ 2000000) :
    events.Pairwise fun a b => a.sequenceNumber < b.sequenceNumber := by
  rw [← List.pairwise_map, h.numbers, List.pairwise_map]
  refine List.pairwise_lt_range.imp_of_mem fun hi hj hlt => ?_
  rw [List.mem_range] at hi hj
  rw [UInt64.lt_iff_toNat_lt, UInt64.toNat_ofNat', UInt64.toNat_ofNat']
  omega

/-- A series is in the order of the sort. -/
theorem Series.before {producer : List UInt8} {events : List TelemetryEvent}
    (h : Series producer events) (hfew : events.length ≤ 2000000) : events.Pairwise Before := by
  refine (h.inOrder.and (h.increasing hfew)).imp_of_mem fun {a b} ha hb hab => ?_
  rw [before_iff]
  have htime := Int64.le_iff_toInt_le.mp hab.1
  have hnumber := UInt64.lt_iff_toNat_lt.mp hab.2
  have hproducer := (h.oneProducer a ha).trans (h.oneProducer b hb).symm
  rcases Int.lt_or_eq_of_le htime with hlt | heq
  · exact .inl hlt
  · exact .inr ⟨heq, .inr ⟨hproducer, Nat.le_of_lt hnumber⟩⟩

/-- **Sorting leaves each producer's series as it was.** -/
theorem sorted_views {producers : List (List UInt8)} {events : List TelemetryEvent}
    (h : Made producers events) (producer : List UInt8) :
    eventsOf producer (events.insertionSort Before) = eventsOf producer events := by
  have hordered (p : List UInt8) : (eventsOf p events).Pairwise Before :=
    (h.series p).before (h.few p)
  have hsorted (p : List UInt8) : (eventsOf p (events.insertionSort Before)).Pairwise Before :=
    (List.pairwise_insertionSort Before events).filter _
  refine (sameViews_of_perm (List.perm_insertionSort Before events).symm hordered hsorted ?_
    producer).symm
  intro p a ha b hb hab hba
  have hseries := h.series p
  have hproducer := (hseries.oneProducer a ha).trans (hseries.oneProducer b hb).symm
  rw [before_iff] at hab hba
  simp only [hproducer, List.lt_irrefl, false_or, true_and] at hab hba
  have hnumber : a.sequenceNumber = b.sequenceNumber := UInt64.toNat_inj.mp (by omega)
  have hnodup : ((eventsOf p events).map TelemetryEvent.sequenceNumber).Nodup :=
    List.pairwise_map.mpr ((hseries.increasing (h.few p)).imp fun hlt => UInt64.ne_of_lt hlt)
  exact List.inj_on_of_nodup_map hnodup ha hb hnumber

/-! ### Faults -/

/-- One turn of the loop, when nothing is emitted twice. -/
theorem emitEvent_cases {faults : FaultInjection} (hduplicate : faults.duplicatePerMillion = 0)
    (s : GeneratedWorkload × PortableRandom) (event : TelemetryEvent) :
    (emitEvent faults s event).1.events = s.1.events ++ [event] ∨
      faults.dropPerMillion ≠ 0 ∧ (emitEvent faults s event).1.events = s.1.events := by
  have honce := chance_zero (s.2.chance faults.dropPerMillion).2
  simp only [emitEvent, hduplicate, honce, Bool.false_eq_true, if_false]
  split
  · rename_i hdrops
    refine .inr ⟨fun hzero => ?_, rfl⟩
    rw [hzero, chance_zero] at hdrops
    cases hdrops
  · exact .inl rfl

/-- **What is emitted** is what has not been dropped, in the same order. -/
theorem emitted_sublist {faults : FaultInjection} (hduplicate : faults.duplicatePerMillion = 0)
    (events : List TelemetryEvent) (s : GeneratedWorkload × PortableRandom) :
    ∃ kept, (events.foldl (emitEvent faults) s).1.events = s.1.events ++ kept ∧
      kept.Sublist events ∧ (faults.dropPerMillion = 0 → kept = events) := by
  induction events generalizing s with
  | nil => exact ⟨[], (List.append_nil _).symm, .slnil, fun _ => rfl⟩
  | cons event rest ih =>
    obtain ⟨kept, hkept, hsub, hall⟩ := ih (emitEvent faults s event)
    rw [List.foldl_cons, hkept]
    obtain hemitted | ⟨hdrops, hdropped⟩ := emitEvent_cases hduplicate s event
    · refine ⟨event :: kept, ?_, hsub.cons_cons event, fun hzero => by rw [hall hzero]⟩
      rw [hemitted, List.append_assoc, List.singleton_append]
    · exact ⟨kept, by rw [hdropped], hsub.cons event, fun hzero => absurd hzero hdrops⟩

theorem reorderEvents_zero (events : List TelemetryEvent) (reorderedPairs : UInt64)
    (random : PortableRandom) : reorderEvents 0 events reorderedPairs random =
      (events, reorderedPairs) := by
  induction events generalizing random with
  | nil => rfl
  | cons first rest ih =>
    cases rest with
    | nil => rfl
    | cons second rest =>
      simp only [reorderEvents, chance_zero, Bool.false_eq_true, if_false, ih]

/-! ### The hash -/

theorem stableEventHash_ok {pb : Protobuf} {events : List TelemetryEvent}
    (h : ∀ event ∈ events, (pb.serializeToString event).isSome) :
    ∃ hash, stableEventHash pb events = .ok hash := by
  unfold stableEventHash
  generalize kFnvOffsetBasis = hash
  induction events generalizing hash with
  | nil => exact ⟨hash, rfl⟩
  | cons event rest ih =>
    obtain ⟨hevent, hrest⟩ := List.forall_mem_cons.mp h
    obtain ⟨encoded, hencoded⟩ := Option.isSome_iff_exists.mp hevent
    rw [List.foldlM_cons, hashEvent, hencoded]
    exact ih hrest _

/-! ### The workload -/

/-- The producers of a workload. -/
def producerIds : List (List UInt8) := sensors.map Sensor.producerId ++ [controllerId]

theorem appendControllerEvents_made {config : GeneratorConfig} (h : InBounds config)
    (hjitter : config.maxJitter = 0) {producers : List (List UInt8)}
    {made : List TelemetryEvent × PortableRandom} (hmade : Made producers made.1)
    (hnew : controllerId ∉ producers) :
    ∃ series random', appendControllerEvents config made = .ok (made.1 ++ series, random') ∧
      Series controllerId series ∧ (series.length = 3 ∨ series.length = 4) ∧
      Made (producers ++ [controllerId]) (made.1 ++ series) := by
  obtain ⟨hordered, hlength⟩ := controllerStates_ordered h.duration_pos h.duration_le made.2
  obtain ⟨series, random', hfold, hseries, hsame, _⟩ :=
    controllerStates_series h hjitter hordered made.1 (controllerStates config.duration made.2).2
  rw [← hsame] at hlength
  exact ⟨series, random', hfold, hseries, hlength, hmade.append hseries hnew (by omega)⟩

/-- What is left of the generator when it can neither move, repeat nor swap events. -/
theorem generate_eq (pb : Protobuf) (engine : UInt64 → RandomEngine) (g : WorkloadGenerator)
    (hjitter : g.config.maxJitter = 0) (hduplicate : g.config.faults.duplicatePerMillion = 0)
    (hreorder : g.config.faults.reorderPerMillion = 0) :
    ∃ made kept stats, Made producerIds made ∧ (∀ sensor ∈ sensors, Counted g.config made sensor) ∧
      ((eventsOf controllerId made).length = 3 ∨ (eventsOf controllerId made).length = 4) ∧
      kept.Sublist (made.insertionSort Before) ∧
      (g.config.faults.dropPerMillion = 0 → kept = made.insertionSort Before) ∧
      generate pb engine g =
        (stableEventHash pb kept).map fun hash => ⟨kept, stats, hash⟩ := by
  have h := inBounds_of_ok g.validated
  obtain ⟨made, hfold, hmade, hcounted⟩ :=
    sensors_made h hjitter sensors_proper (by decide) { engine := engine g.config.seed }
  have hunknown : controllerId ∉ sensors.map Sensor.producerId := by decide
  obtain ⟨series, random, hcontroller, hseries, hlength, hall⟩ :=
    appendControllerEvents_made h hjitter hmade hunknown
  let stats : GenerationStats :=
    ⟨UInt64.ofNat ((made.1 ++ series).insertionSort Before).length, 0, 0, 0⟩
  let emitted := ((made.1 ++ series).insertionSort Before).foldl (emitEvent g.config.faults)
    ({ stats := stats }, random)
  obtain ⟨kept, hkept, hsub, hnone⟩ := emitted_sublist hduplicate
    ((made.1 ++ series).insertionSort Before) ({ stats := stats }, random)
  have hkept : emitted.1.events = kept := hkept
  refine ⟨made.1 ++ series, kept, { emitted.1.stats with reorderedPairs := 0 }, hall,
    fun sensor hsensor => ?_, ?_, hsub, hnone, ?_⟩
  · have hne : sensor.producerId ≠ controllerId := fun heq =>
      hunknown (heq ▸ List.mem_map_of_mem hsensor)
    rw [Counted, eventsOf_other hseries hne]
    exact hcounted sensor hsensor
  · rwa [hmade.eventsOf_new hseries hunknown]
  · rw [generate, hfold]
    show (appendControllerEvents g.config made >>= _) = _
    rw [hcontroller, ← hkept]
    let reordered :=
      reorderEvents g.config.faults.reorderPerMillion emitted.1.events 0 emitted.2
    have hreordered : reordered = (emitted.1.events, 0) := by
      simp only [reordered, hreorder, reorderEvents_zero]
    show (stableEventHash pb reordered.1 >>= fun hash => Except.ok (GeneratedWorkload.mk
      reordered.1 { emitted.1.stats with reorderedPairs := reordered.2 } hash)) = _
    rw [hreordered]
    cases stableEventHash pb emitted.1.events <;> rfl

/-- The summary that a producer's validator ends with. -/
def summaryOf (producer : List UInt8) (events : List TelemetryEvent) : StreamSummary :=
  (offerAll (eventsOf producer events)).validator.populateSummary {}

/-- A summary of `count` events that are numbered from zero. -/
structure CountsFromZero (count : UInt64) (summary : StreamSummary) : Prop where
  acceptedEvents : summary.acceptedEvents = count
  firstSequenceNumber : summary.firstSequenceNumber = 0
  sequenceGaps : summary.sequenceGaps = 0

/-- A series that nothing is missing from. -/
theorem Series.countsFromZero {producer : List UInt8} {events : List TelemetryEvent}
    {count : UInt64} (h : Series producer (eventsOf producer events))
    (hlength : (eventsOf producer events).length = count.toNat) :
    CountsFromZero count (summaryOf producer events) := by
  obtain ⟨_, haccepted, hgaps, hfirst, _⟩ := offerAll_counting producer (eventsOf producer events)
    (fun event hevent => ⟨h.acceptable event hevent, h.oneProducer event hevent⟩) h.numbers
  rw [hlength, UInt64.ofNat_toNat] at haccepted
  exact ⟨haccepted, hfirst, hgaps⟩

/-- What the generator emits of a producer is some of its series. -/
theorem Made.view_sublist {producers : List (List UInt8)} {made kept : List TelemetryEvent}
    (h : Made producers made) (hsub : kept.Sublist (made.insertionSort Before))
    (producer : List UInt8) : (eventsOf producer kept).Sublist (eventsOf producer made) := by
  rw [← sorted_views h producer]
  exact hsub.filter _

theorem Made.acceptedWhole {producers : List (List UInt8)} {made kept : List TelemetryEvent}
    (h : Made producers made) (hsub : kept.Sublist (made.insertionSort Before))
    (producer : List UInt8) : AcceptedWhole (eventsOf producer kept) := by
  have hseries := h.series producer
  have hview := h.view_sublist hsub producer
  have hevents : ∀ event ∈ eventsOf producer kept,
      event.Acceptable ∧ event.producerId = producer := fun event hevent =>
    ⟨hseries.acceptable event (hview.subset hevent),
      hseries.oneProducer event (hview.subset hevent)⟩
  exact acceptedWhole_of_increasing hevents
    ((hseries.increasing (h.few producer)).sublist hview)

/-- **Generated workloads are valid telemetry.** Without jitter, duplicates and swaps, the
validators of a workload's producers accept every event, and timestamps never decrease. When nothing
is dropped, each producer's summary counts all of its events from zero. And a workload there is,
whatever is drawn, as long as Protobuf serializes events that a validator accepts. -/
theorem generate_valid (pb : Protobuf) (engine : UInt64 → RandomEngine) (g : WorkloadGenerator)
    (hjitter : g.config.maxJitter = 0) (hduplicate : g.config.faults.duplicatePerMillion = 0)
    (hreorder : g.config.faults.reorderPerMillion = 0) :
    (∀ workload, generate pb engine g = .ok workload →
      (∀ producer, AcceptedWhole (eventsOf producer workload.events)) ∧
      (workload.events.Pairwise fun a b => a.sourceTimestampNs ≤ b.sourceTimestampNs) ∧
      (∀ event ∈ workload.events, event.producerId ∈ producerIds) ∧
      (g.config.faults.dropPerMillion = 0 →
        (∀ sensor ∈ sensors,
          CountsFromZero (eventCount g.config.duration (sensor.rateHz g.config.rates))
            (summaryOf sensor.producerId workload.events)) ∧
        (CountsFromZero 3 (summaryOf controllerId workload.events) ∨
          CountsFromZero 4 (summaryOf controllerId workload.events)))) ∧
      ((∀ event : TelemetryEvent, event.Acceptable → (pb.serializeToString event).isSome) →
        ∃ workload, generate pb engine g = .ok workload) := by
  obtain ⟨made, kept, stats, hmade, hcounted, hcontroller, hsub, hnone, hgenerate⟩ :=
    generate_eq pb engine g hjitter hduplicate hreorder
  have hmem (event : TelemetryEvent) (h : event ∈ kept) : event ∈ made :=
    (List.perm_insertionSort Before made).mem_iff.mp (hsub.subset h)
  refine ⟨fun workload h => ?_, fun hserializes => ?_⟩
  · have hevents : workload.events = kept := by
      rw [hgenerate] at h
      cases hhash : stableEventHash pb kept with
      | error e =>
        rw [hhash] at h
        cases h
      | ok hash =>
        rw [hhash] at h
        cases h
        rfl
    rw [hevents]
    refine ⟨hmade.acceptedWhole hsub,
      ((List.pairwise_insertionSort Before made).imp before_le).sublist hsub,
      fun event hevent => hmade.known event (hmem event hevent), fun hdrop => ?_⟩
    have hview (producer : List UInt8) : eventsOf producer kept = eventsOf producer made := by
      rw [hnone hdrop]
      exact sorted_views hmade producer
    have hcounts (producer : List UInt8) (count : UInt64)
        (hlength : (eventsOf producer made).length = count.toNat) :
        CountsFromZero count (summaryOf producer kept) := by
      refine Series.countsFromZero ?_ ?_
      · rw [hview]
        exact hmade.series producer
      · rw [hview]
        exact hlength
    exact ⟨fun sensor hsensor => hcounts _ _ (hcounted sensor hsensor),
      hcontroller.imp (hcounts _ 3) (hcounts _ 4)⟩
  · have hall : ∀ event ∈ kept, (pb.serializeToString event).isSome := fun event hevent =>
      hserializes event ((hmade.series event.producerId).acceptable event
        (List.mem_filter.mpr ⟨hmem event hevent, decide_eq_true rfl⟩))
    obtain ⟨hash, hhash⟩ := stableEventHash_ok hall
    exact ⟨_, by rw [hgenerate, hhash]; rfl⟩

/-- The first numbers of the engine seeded with one; the upper half ever after. -/
def seededWithOne : RandomEngine where
  outputs n := [
    0x2245BD5FBB686F68, 0x22EB92502318FA4E, 0x7382D1E77AE6459A, 0x0561D8057935C08E,
    0x59D47572ECFC6738, 0xE94EC2D2B9936849, 0x78833635915BD1B4, 0x130D84F91BF14B09,
    0x91E180B364F46100, 0xA29E835C0E448010, 0x16E6678D39FEEF00, 0x8E61BD8674B6331B,
    0xCA26A1A840991E65, 0x38BCFC057E745A63, 0x6B2DDC59760D03DC, 0x3FF1722C566A5199,
    0x4AB7A473D29376C1, 0xCDA0E546AAF708BA, 0x797EFACA4DBD97E3, 0x451AC15E436FCBE8,
    0x493A09523AFA6FCF, 0xBFBDDC1F91C5BF67, 0x7547A68CFDD04144, 0x4E6240030EECC15B].getD n
      0xFFFFFFFFFFFFFFFF
  recurs n := ⟨n + 24, by omega, by rw [List.getD_eq_default _ _ (by simp)]; decide⟩

/-- Two positions, on a clock that stands still. -/
def sampleGenerator : WorkloadGenerator where
  config :=
    { clockDriftPpm := -1000000
      rates := ⟨0, 0, 0, 2, 0, 0⟩ }
  validated := by decide

theorem generate_valid_sample :
    ∃ workload, generate (Wire.protobuf []) (fun _ => seededWithOne) sampleGenerator =
        .ok workload ∧ (∀ producer, AcceptedWhole (eventsOf producer workload.events)) ∧
      CountsFromZero 2 (summaryOf (utf8 "sim-gps") workload.events) := by
  obtain ⟨hvalid, hreturns⟩ := generate_valid (Wire.protobuf []) (fun _ => seededWithOne)
    sampleGenerator rfl rfl rfl
  obtain ⟨workload, hworkload⟩ := hreturns fun _ _ => rfl
  obtain ⟨haccepted, _, _, hcounts⟩ := hvalid workload hworkload
  have hgps : ⟨utf8 "sim-gps", SensorRates.gpsHz, gpsPayload⟩ ∈ sensors := by simp [sensors]
  exact ⟨workload, hworkload, haccepted, (hcounts rfl).1 _ hgps⟩

end TraceForge.Generator
