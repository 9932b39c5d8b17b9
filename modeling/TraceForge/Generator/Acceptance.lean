import TraceForge.Generator.EventLimit
import TraceForge.Generator.ExactSchedule

/-! Which workloads a collector accepts whole.

Whatever is drawn, each event by itself is one that a validator accepts (`workload_acceptable`). So
what decides is the order of each producer's numbers (`acceptedWhole_iff`). Jitter and swaps may
spoil it, and an event that has been emitted twice does (`repeated_refused`). -/
namespace TraceForge.Generator
open Library Telemetry Perturbation
open Offered

/-! ### Loops -/

/-- What no turn of a loop spoils is there when it has ended. -/
theorem foldlM_invariant {ι σ ε : Type} {f : σ → ι → Except ε σ} {turns : List ι} (P : σ → Prop)
    (hturn : ∀ i ∈ turns, ∀ s t, P s → f s i = .ok t → P t) {s t : σ} (hs : P s)
    (h : turns.foldlM f s = .ok t) : P t := by
  induction turns generalizing s with
  | nil =>
    cases h
    exact hs
  | cons i rest ih =>
    rw [List.foldlM_cons] at h
    cases hfirst : f s i with
    | error e =>
      rw [hfirst] at h
      cases h
    | ok next =>
      rw [hfirst] at h
      exact ih (fun j hj => hturn j (List.mem_cons_of_mem _ hj))
        (hturn i List.mem_cons_self s next hs hfirst) h

/-- Every event made so far would be accepted on its own. -/
def AllAcceptable (made : List TelemetryEvent × PortableRandom) : Prop :=
  ∀ event ∈ made.1, event.Acceptable

variable {engine : UInt64 → RandomEngine} {g : WorkloadGenerator}
  {made made' : List TelemetryEvent × PortableRandom}

/-- **One turn of a producer's loop**, whatever jitter it draws. -/
theorem appendEvent_acceptable {producer : List UInt8} (hnamed : Named producer) {number : UInt64}
    {elapsedNs : Int64} (hpos : 0 ≤ elapsedNs) (hlt : elapsedNs < g.config.duration)
    {populatePayload : PopulatePayload}
    (hpayload : ∀ random, (populatePayload number random).1.WellFormed) (hmade : AllAcceptable made)
    (h : appendEvent producer number elapsedNs g.config populatePayload made = .ok made') :
    AllAcceptable made' := by
  obtain ⟨jitter, random, hstamp⟩ := exact_stamp g made.2
  obtain ⟨event, hevent, _, htime⟩ := hstamp.stamped producer number elapsedNs hpos hlt
  rw [appendEvent, hevent] at h
  cases h
  rw [baseEvent, hstamp.sampled] at hevent
  cases hevent
  refine List.forall_mem_append.mpr ⟨hmade, List.forall_mem_singleton.mpr ?_⟩
  exact
    { schema := rfl
      producer := hnamed.1
      producer_le := hnamed.2
      clock := .inl rfl
      timestamp := htime
      payload := ⟨_, rfl, hpayload random⟩ }

/-- **A sensor's loop.** -/
theorem appendPeriodic_acceptable {sensor : Sensor} (hsensor : sensor.Proper)
    (hmade : AllAcceptable made)
    (h : appendPeriodic sensor.producerId (sensor.rateHz g.config.rates) g.config
      sensor.populatePayload made = .ok made') : AllAcceptable made' := by
  have hbounds := inBounds_of_ok g.validated
  have hrate := hsensor.rate g.config.rates
  have hfew := eventCount_le hbounds hrate
  refine foldlM_invariant AllAcceptable (fun i hi s t hs hturn => ?_) hmade h
  have hlt := List.mem_range.mp hi
  have hnumber : (UInt64.ofNat i).toNat = i := UInt64.toNat_ofNat_of_lt' (show i < 2 ^ 64 by omega)
  obtain ⟨_, _, hpos, hbefore⟩ := (exact_sensor hbounds hrate).due (UInt64.ofNat i)
    (UInt64.lt_iff_toNat_lt.mpr (by omega))
  exact appendEvent_acceptable hsensor.named hpos hbefore
    (fun random => hsensor.payload _ random (by omega)) hs hturn

/-- **The controller's loop.** -/
theorem appendControllerEvents_acceptable (hmade : AllAcceptable made)
    (h : appendControllerEvents g.config made = .ok made') : AllAcceptable made' := by
  have hbounds := inBounds_of_ok g.validated
  obtain ⟨states, hfits, htimed⟩ :=
    controllerStates?_gives hbounds.duration_pos hbounds.duration_le made.2
  obtain rfl := controllerStates?_eq hfits
  obtain ⟨hordered, _⟩ :=
    controllerStates_ordered hbounds.duration_pos hbounds.duration_le made.2
  refine foldlM_invariant AllAcceptable (fun entry hentry s t hs hturn => ?_)
    (show AllAcceptable (made.1, (controllerStates g.config.duration made.2).2) from hmade) h
  have hstate : entry.1 ∈ (controllerStates g.config.duration made.2).1 :=
    List.fst_mem_of_mem_zipIdx hentry
  obtain ⟨hpos, hlt⟩ := htimed.within entry.1 hstate
  exact appendEvent_acceptable (show Named controllerId by decide)
    (Int64.le_iff_toInt_le.mpr hpos) (Int64.lt_iff_toInt_lt.mpr hlt)
    (controllerPayload_wellFormed (hordered.specified entry.1 hstate) _) hs hturn

theorem baseEvents_acceptable (h : baseEvents engine g.config = .ok made) : AllAcceptable made := by
  unfold baseEvents at h
  cases hsensors : sensorEvents engine g.config with
  | error message =>
    rw [hsensors] at h
    cases h
  | ok before =>
    rw [hsensors] at h
    refine appendControllerEvents_acceptable ?_ h
    exact foldlM_invariant AllAcceptable
      (fun sensor hsensor s t hs hloop =>
        appendPeriodic_acceptable (sensors_proper sensor hsensor) hs hloop)
      (fun event hevent => absurd hevent List.not_mem_nil) hsensors

/-! ### The workload -/

/-- The numbers of each producer increase. -/
def Increasing (events : List TelemetryEvent) : Prop :=
  ∀ producer, (eventsOf producer events).Pairwise fun a b => a.sequenceNumber < b.sequenceNumber

theorem Increasing.nodup {events : List TelemetryEvent} (h : Increasing events) :
    events.Nodup := by
  refine List.nodup_iff_count_le_one.mpr fun event => ?_
  have hown : (eventsOf event.producerId events).Nodup := by
    refine (h event.producerId).imp fun {a b} hlt heq => ?_
    rw [heq] at hlt
    exact UInt64.lt_irrefl _ hlt
  calc events.count event
      = (eventsOf event.producerId events).count event :=
        (List.count_filter (p := fun e : TelemetryEvent => e.producerId = event.producerId)
          (decide_eq_true rfl)).symm
    _ ≤ 1 := List.nodup_iff_count_le_one.mp hown event

variable {pb : Protobuf} {workload : GeneratedWorkload}

/-- **Each event of a workload** is one that a validator accepts. -/
theorem workload_acceptable (h : generate pb engine g = .ok workload) :
    ∀ event ∈ workload.events, event.Acceptable := by
  obtain ⟨_, made, fates, choices, _, hbase, _, _, hdisturbed, _⟩ := generate_disturbed h
  intro event hevent
  have hemitted := hdisturbed.swapped.perm.mem_iff.mpr hevent
  have hsorted := emit_subset fates _ hemitted
  exact baseEvents_acceptable hbase event ((List.perm_insertionSort Before made.1).mem_iff.mp hsorted)

/-- **The order of the numbers decides.** -/
theorem acceptedWhole_iff (h : generate pb engine g = .ok workload) :
    (∀ producer, AcceptedWhole (eventsOf producer workload.events)) ↔
      Increasing workload.events := by
  refine ⟨fun hwhole producer => ?_, fun hincreasing producer => ?_⟩
  · have hfew : (eventsOf producer workload.events).length < 2 ^ 64 :=
      Nat.lt_of_le_of_lt (List.length_filter_le _ _) (generated_few h)
    have haccepted : (offerAll (eventsOf producer workload.events)).accepted =
        eventsOf producer workload.events := hwhole producer
    have hsound := (offerAll_sound (eventsOf producer workload.events)).increasing
    rw [haccepted] at hsound
    exact hsound hfew
  · have hevents : ∀ event ∈ eventsOf producer workload.events,
        event.Acceptable ∧ event.producerId = producer := fun event hevent => by
      obtain ⟨hevent, hproducer⟩ := List.mem_filter.mp hevent
      exact ⟨workload_acceptable h event hevent, of_decide_eq_true hproducer⟩
    exact acceptedWhole_of_increasing hevents (hincreasing producer)

/-- What has been emitted twice is refused the second time. -/
theorem repeated_refused (h : generate pb engine g = .ok workload)
    (hrepeated : workload.stats.duplicatedEvents ≠ 0) : ¬Increasing workload.events := by
  obtain ⟨_, made, fates, choices, _, _, _, hfew, hdisturbed, hstats⟩ := generate_disturbed h
  rw [← List.length_insertionSort Before] at hfew
  intro hincreasing
  have hnone := emit_nodup hdisturbed.fated
    (hdisturbed.swapped.perm.nodup_iff.mpr hincreasing.nodup)
  refine hrepeated (UInt64.toNat_inj.mp ?_)
  rw [hstats, (hdisturbed.counted hfew).2.2.1, hnone]
  rfl

/-- Without jitter, duplicates and swaps the order is that in which the numbers were given. -/
theorem undisturbed_increasing (h : generate pb engine g = .ok workload)
    (hjitter : g.config.maxJitter = 0) (hduplicate : g.config.faults.duplicatePerMillion = 0)
    (hreorder : g.config.faults.reorderPerMillion = 0) : Increasing workload.events := by
  obtain ⟨made, kept, stats, hmade, _, _, hsub, _, hgenerate⟩ :=
    generate_eq pb engine g hjitter hduplicate hreorder
  rw [hgenerate] at h
  cases hhash : stableEventHash pb kept with
  | error message =>
    rw [hhash] at h
    cases h
  | ok hash =>
    rw [hhash] at h
    cases h
    intro producer
    exact ((hmade.series producer).increasing (hmade.few producer)).sublist
      (hmade.view_sublist hsub producer)

end TraceForge.Generator
