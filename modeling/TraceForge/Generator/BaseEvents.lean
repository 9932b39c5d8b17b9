import TraceForge.Generator.Generation

/-! The events of a workload before faults are injected, whatever jitter they have.

`generate` is the loops of the producers, a sort, and then the faults (`generate_eq_inject`). The
loops always return, since a jitter that the constructor let pass can be drawn, and what they make
is known but for times and payloads: each producer's events, numbered from zero
(`baseEvents_identity`). -/
namespace TraceForge.Generator
open Library Telemetry

/-! ### The parts of `generate` -/

def sensorEvents (engine : UInt64 → RandomEngine) (config : GeneratorConfig) :
    Except String (List TelemetryEvent × PortableRandom) :=
  sensors.foldlM (fun made sensor => appendPeriodic sensor.producerId (sensor.rateHz config.rates)
    config sensor.populatePayload made) ([], { engine := engine config.seed })

/-- `base_events`, before the sort. -/
def baseEvents (engine : UInt64 → RandomEngine) (config : GeneratorConfig) :
    Except String (List TelemetryEvent × PortableRandom) :=
  sensorEvents engine config >>= appendControllerEvents config

/-- What is emitted of sorted events, and in which order. -/
def injectFaults (faults : FaultInjection) (sorted : List TelemetryEvent)
    (random : PortableRandom) : List TelemetryEvent × GenerationStats :=
  let stats := { generatedEvents := UInt64.ofNat sorted.length }
  let emitted := sorted.foldl (emitEvent faults) ({ stats := stats }, random)
  let reordered := reorderEvents faults.reorderPerMillion emitted.1.events 0 emitted.2
  (reordered.1, { emitted.1.stats with reorderedPairs := reordered.2 })

theorem generate_eq_inject {pb : Protobuf} {engine : UInt64 → RandomEngine} {g : WorkloadGenerator}
    {made : List TelemetryEvent} {random : PortableRandom}
    (h : baseEvents engine g.config = .ok (made, random)) :
    generate pb engine g =
      let injected := injectFaults g.config.faults (made.insertionSort Before) random
      (stableEventHash pb injected.1).map fun hash => ⟨injected.1, injected.2, hash⟩ := by
  have hparts : generate pb engine g = baseEvents engine g.config >>= fun made =>
      let injected := injectFaults g.config.faults (made.1.insertionSort Before) made.2
      stableEventHash pb injected.1 >>= fun hash => .ok ⟨injected.1, injected.2, hash⟩ := by
    rw [baseEvents, bind_assoc]
    rfl
  rw [hparts, h]
  simp only [bind, Except.bind]
  cases stableEventHash pb (injectFaults g.config.faults (made.insertionSort Before) random).1 <;>
    rfl

/-- What a workload holds, when it can be hashed. -/
theorem injected_of_generate {pb : Protobuf} {engine : UInt64 → RandomEngine}
    {g : WorkloadGenerator} {made : List TelemetryEvent} {random : PortableRandom}
    (h : baseEvents engine g.config = .ok (made, random)) {workload : GeneratedWorkload}
    (hworkload : generate pb engine g = .ok workload) : (workload.events, workload.stats) =
      injectFaults g.config.faults (made.insertionSort Before) random := by
  rw [generate_eq_inject h] at hworkload
  cases hhash : stableEventHash pb
      (injectFaults g.config.faults (made.insertionSort Before) random).1 with
  | error message =>
    simp only [hhash] at hworkload
    cases hworkload
  | ok hash =>
    simp only [hhash] at hworkload
    cases hworkload
    rfl

/-! ### Numbers -/

/-- Which event of which producer this is. -/
def identity (event : TelemetryEvent) : List UInt8 × UInt64 :=
  (event.producerId, event.sequenceNumber)

/-- The first `count` events of a producer. -/
def identities (producer : List UInt8) (count : ℕ) : List (List UInt8 × UInt64) :=
  (List.range count).map fun i => (producer, UInt64.ofNat i)

theorem identities_nodup (producer : List UInt8) {count : ℕ} (h : count ≤ 2 ^ 64) :
    (identities producer count).Nodup := by
  refine List.Nodup.map_on (fun i hi j hj heq => ?_) List.nodup_range
  rw [List.mem_range] at hi hj
  have hnumber := congrArg UInt64.toNat (Prod.ext_iff.mp heq).2
  rwa [UInt64.toNat_ofNat_of_lt' (Nat.lt_of_lt_of_le hi h),
    UInt64.toNat_ofNat_of_lt' (Nat.lt_of_lt_of_le hj h)] at hnumber

/-- Different producers have no event in common. -/
theorem flatMap_identities_nodup {counts : List (List UInt8 × ℕ)}
    (hnodup : (counts.map Prod.fst).Nodup) (hfew : ∀ entry ∈ counts, entry.2 ≤ 2 ^ 64) :
    (counts.flatMap fun entry => identities entry.1 entry.2).Nodup := by
  refine List.nodup_flatMap.mpr ⟨fun entry hentry => identities_nodup _ (hfew entry hentry), ?_⟩
  refine (List.pairwise_map.mp hnodup).imp fun {a b} hne => ?_
  intro event ha hb
  obtain ⟨_, _, rfl⟩ := List.mem_map.mp ha
  obtain ⟨_, _, heq⟩ := List.mem_map.mp hb
  exact hne (Prod.ext_iff.mp heq).1.symm

/-! ### One event -/

theorem sampleJitter_returns (g : WorkloadGenerator) (random : PortableRandom) :
    ∃ drawn, sampleJitter random g.config.maxJitter = .ok drawn := by
  obtain ⟨hpos, hmax⟩ := maxJitter_of_ok g.validated
  obtain ⟨jitter, random', hsampled, _⟩ := sampleJitter?_gives hpos (by omega) random
  exact ⟨_, sampleJitter?_eq hsampled⟩

/-- **One turn of a producer's loop** makes the event with the next number. -/
theorem appendEvent_identity (g : WorkloadGenerator) (producer : List UInt8) (number : UInt64)
    (elapsedNs : Int64) (populatePayload : PopulatePayload)
    (made : List TelemetryEvent × PortableRandom) :
    ∃ made', appendEvent producer number elapsedNs g.config populatePayload made = .ok made' ∧
      made'.1.map identity = made.1.map identity ++ [(producer, number)] := by
  obtain ⟨⟨jitter, random⟩, hjitter⟩ := sampleJitter_returns g made.2
  rw [appendEvent, baseEvent, hjitter]
  refine ⟨_, rfl, ?_⟩
  rw [List.map_append]
  rfl

/-- **A producer's loop** makes the events that its turns number. -/
theorem foldlM_identities {ι : Type} (g : WorkloadGenerator) (producer : List UInt8)
    (number : ι → UInt64) (elapsedNs : ι → Int64) (populatePayload : ι → PopulatePayload)
    (turns : List ι) (made : List TelemetryEvent × PortableRandom) :
    ∃ made', turns.foldlM (fun made i => appendEvent producer (number i) (elapsedNs i) g.config
        (populatePayload i) made) made = .ok made' ∧
      made'.1.map identity = made.1.map identity ++ turns.map fun i => (producer, number i) := by
  induction turns generalizing made with
  | nil => exact ⟨made, rfl, (List.append_nil _).symm⟩
  | cons i rest ih =>
    obtain ⟨next, hturn, hnext⟩ := appendEvent_identity g producer (number i) (elapsedNs i)
      (populatePayload i) made
    obtain ⟨last, hfold, hlast⟩ := ih next
    refine ⟨last, ?_, ?_⟩
    · rw [List.foldlM_cons, hturn]
      exact hfold
    · rw [hlast, hnext, List.append_assoc]
      rfl

/-! ### The loops -/

/-- How many events each sensor is to have. -/
def sensorCounts (config : GeneratorConfig) (sensors : List Sensor) : List (List UInt8 × ℕ) :=
  sensors.map fun sensor =>
    (sensor.producerId, (eventCount config.duration (sensor.rateHz config.rates)).toNat)

theorem sensorEvents_identity (g : WorkloadGenerator) (sensors : List Sensor)
    (made : List TelemetryEvent × PortableRandom) :
    ∃ made', sensors.foldlM (fun made sensor => appendPeriodic sensor.producerId
        (sensor.rateHz g.config.rates) g.config sensor.populatePayload made) made = .ok made' ∧
      made'.1.map identity = made.1.map identity ++
        (sensorCounts g.config sensors).flatMap fun entry => identities entry.1 entry.2 := by
  induction sensors generalizing made with
  | nil => exact ⟨made, rfl, (List.append_nil _).symm⟩
  | cons sensor rest ih =>
    let count := (eventCount g.config.duration (sensor.rateHz g.config.rates)).toNat
    obtain ⟨next, hloop, hnext⟩ := foldlM_identities g sensor.producerId UInt64.ofNat
      (fun i => scheduledTimeNs (UInt64.ofNat i) (sensor.rateHz g.config.rates))
      (fun _ => sensor.populatePayload) (List.range count) made
    obtain ⟨last, hfold, hlast⟩ := ih next
    refine ⟨last, ?_, ?_⟩
    · rw [List.foldlM_cons, appendPeriodic, hloop]
      exact hfold
    · rw [hlast, hnext, List.append_assoc]
      rfl

theorem controllerEvents_identity (g : WorkloadGenerator)
    (made : List TelemetryEvent × PortableRandom) :
    ∃ made', appendControllerEvents g.config made = .ok made' ∧
      made'.1.map identity = made.1.map identity ++
        identities controllerId (controllerStates g.config.duration made.2).1.length := by
  let states := controllerStates g.config.duration made.2
  obtain ⟨made', hfold, hmade⟩ := foldlM_identities g controllerId
    (fun entry : (Int64 × Int32) × ℕ => UInt64.ofNat entry.2) (fun entry => entry.1.1)
    (fun entry => controllerPayload entry.1.2) states.1.zipIdx (made.1, states.2)
  refine ⟨made', hfold, hmade.trans (congrArg _ ?_)⟩
  have hnumbers : states.1.zipIdx.map (fun entry => (controllerId, UInt64.ofNat entry.2)) =
      (states.1.zipIdx.map Prod.snd).map fun i => (controllerId, UInt64.ofNat i) := by
    rw [List.map_map]
    rfl
  rw [hnumbers, List.zipIdx_map_snd, ← List.range_eq_range']
  rfl

/-- How many events each producer has, when the controller goes through this many states. -/
def producerCounts (config : GeneratorConfig) (states : ℕ) : List (List UInt8 × ℕ) :=
  sensorCounts config sensors ++ [(controllerId, states)]

/-- **All events, before the sort.** -/
theorem baseEvents_identity (engine : UInt64 → RandomEngine) (g : WorkloadGenerator) :
    ∃ before made, sensorEvents engine g.config = .ok before ∧
      baseEvents engine g.config = .ok made ∧
      made.1.map identity = (producerCounts g.config
        (controllerStates g.config.duration before.2).1.length).flatMap fun entry =>
          identities entry.1 entry.2 := by
  obtain ⟨before, hsensors, hbefore⟩ :=
    sensorEvents_identity g sensors ([], { engine := engine g.config.seed })
  obtain ⟨made, hcontroller, hmade⟩ := controllerEvents_identity g before
  refine ⟨before, made, hsensors, ?_, ?_⟩
  · rw [baseEvents, show sensorEvents engine g.config = .ok before from hsensors]
    exact hcontroller
  · rw [hmade, hbefore, producerCounts, List.flatMap_append, List.flatMap_singleton]
    rfl

/-! ### How many there are -/

/-- The events of all sensors. -/
def sensorTotal (config : GeneratorConfig) : ℕ :=
  (config.rates.all.map fun rate => (eventCount config.duration rate).toNat).sum

/-- Whether the controller goes through all four states. -/
def degrades (durationNs : Int64) (random : PortableRandom) : Bool :=
  ((random.bounded (max (durationNs / 8) 1).toUInt64).2.chance 500000).1

theorem controllerStates_length (durationNs : Int64) (random : PortableRandom) :
    (controllerStates durationNs random).1.length =
      if degrades durationNs random then 4 else 3 := by
  unfold controllerStates degrades
  simp only
  split <;> rfl

/-- **The events before the sort** are all different, and as many as the sensors and the controller
have. -/
theorem baseEvents_made (engine : UInt64 → RandomEngine) (g : WorkloadGenerator) :
    ∃ before made, sensorEvents engine g.config = .ok before ∧
      baseEvents engine g.config = .ok made ∧ made.1.Nodup ∧
      made.1.length =
        sensorTotal g.config + if degrades g.config.duration before.2 then 4 else 3 := by
  obtain ⟨before, made, hsensors, hbase, hidentity⟩ := baseEvents_identity engine g
  have hbounds := inBounds_of_ok g.validated
  rw [controllerStates_length] at hidentity
  obtain ⟨states, hstates, hthree⟩ :
      ∃ states, (if degrades g.config.duration before.2 then 4 else 3) = states ∧ states ≤ 4 := by
    refine ⟨_, rfl, ?_⟩
    split <;> omega
  rw [hstates] at hidentity
  have hfew : ∀ entry ∈ producerCounts g.config states, entry.2 ≤ 2 ^ 64 := by
    refine List.forall_mem_append.mpr ⟨fun entry hentry => ?_, List.forall_mem_singleton.mpr ?_⟩
    · obtain ⟨sensor, hsensor, rfl⟩ := List.mem_map.mp hentry
      have hcount := eventCount_le hbounds ((sensors_proper sensor hsensor).rate g.config.rates)
      exact Nat.le_trans hcount (by decide)
    · exact Nat.le_trans hthree (by decide)
  have hnodup : ((producerCounts g.config states).map Prod.fst).Nodup :=
    show producerIds.Nodup by decide
  refine ⟨before, made, hsensors, hbase, ?_, ?_⟩
  · refine List.Nodup.of_map identity ?_
    rw [hidentity]
    exact flatMap_identities_nodup hnodup hfew
  · have hlength := congrArg List.length hidentity
    rw [List.length_map, List.length_flatMap] at hlength
    simp only [identities, List.length_map, List.length_range] at hlength
    rw [hlength, hstates, producerCounts, List.map_append, List.sum_append, sensorCounts,
      List.map_map]
    rfl

/-- **The sensors alone** stay within the limit. -/
theorem sensorTotal_le (g : WorkloadGenerator) : sensorTotal g.config ≤ 2000000 := by
  have hbounds := inBounds_of_ok g.validated
  calc sensorTotal g.config
      ≤ (g.config.rates.all.map fun rate =>
          rate.toNat * (g.config.duration.toInt.toNat / 1000000000 + 1)).sum :=
        List.sum_le_sum fun rate hrate => eventCount_le_share hbounds hrate
    _ = (g.config.rates.all.map UInt32.toNat).sum *
          (g.config.duration.toInt.toNat / 1000000000 + 1) := List.sum_map_mul_right _ _ _
    _ ≤ 2000000 := estimate_le g.validated

end TraceForge.Generator
