import TraceForge.Generator.Faults
import TraceForge.Telemetry.Wire

/-! How many events a workload has.

The constructor compares the summed rates, times the whole seconds and one more, with the limit. The
sensors' events stay within that estimate (`sensorTotal_le`), but the controller's three or four
events are not in it. A run keeps to the limit exactly when there is room for them beside the
sensors' (`generated_limit`); at the boundary a configuration passes whose workload has none
(`generated_over_limit`). -/
namespace TraceForge.Generator
open Library Telemetry Perturbation

/-- What a workload has become of the events made for it. -/
theorem generate_disturbed {pb : Protobuf} {engine : UInt64 → RandomEngine}
    {g : WorkloadGenerator} {workload : GeneratedWorkload}
    (h : generate pb engine g = .ok workload) :
    ∃ before made fates choices, sensorEvents engine g.config = .ok before ∧
      baseEvents engine g.config = .ok made ∧
      made.1.length = sensorTotal g.config + (if degrades g.config.duration before.2 then 4 else 3) ∧
      made.1.length ≤ 2 ^ 32 ∧
      Disturbed g.config.faults fates choices (made.1.insertionSort Before) workload.events ∧
      workload.stats = statsOf fates choices (made.1.insertionSort Before) := by
  obtain ⟨before, made, hsensors, hbase, _, hlength⟩ := baseEvents_made engine g
  obtain ⟨fates, choices, emitted, hdisturbed, hinjected⟩ :=
    injectFaults_disturbed g.config.faults (made.1.insertionSort Before) made.2
  have hsame := (injected_of_generate hbase h).trans hinjected
  have hevents : workload.events = emitted := congrArg Prod.fst hsame
  have htotal := sensorTotal_le g
  refine ⟨before, made, fates, choices, hsensors, hbase, hlength, ?_, hevents ▸ hdisturbed,
    congrArg Prod.snd hsame⟩
  rw [hlength]
  split <;> omega

/-- **What is reported**: the sensors' events and the controller's. -/
theorem generated_count {pb : Protobuf} {engine : UInt64 → RandomEngine} {g : WorkloadGenerator}
    {workload : GeneratedWorkload} (h : generate pb engine g = .ok workload) :
    ∃ before, sensorEvents engine g.config = .ok before ∧
      workload.stats.generatedEvents.toNat =
        sensorTotal g.config + if degrades g.config.duration before.2 then 4 else 3 := by
  obtain ⟨before, made, fates, choices, hsensors, _, hlength, hfew, hdisturbed, hstats⟩ :=
    generate_disturbed h
  rw [← List.length_insertionSort Before] at hlength hfew
  refine ⟨before, hsensors, ?_⟩
  rw [hstats, (hdisturbed.counted hfew).1, hlength]

/-- A workload's size is a `size_t`. -/
theorem generated_few {pb : Protobuf} {engine : UInt64 → RandomEngine} {g : WorkloadGenerator}
    {workload : GeneratedWorkload} (h : generate pb engine g = .ok workload) :
    workload.events.length < 2 ^ 64 := by
  obtain ⟨_, made, fates, choices, _, _, _, hfew, hdisturbed, _⟩ := generate_disturbed h
  rw [← List.length_insertionSort Before] at hfew
  obtain ⟨_, _, _, _, htotal⟩ := hdisturbed.counted hfew
  have htwice : fates.count .twice ≤ fates.length := List.count_le_length
  have hfates := hdisturbed.fated
  omega

/-- A workload that can be written has a hash. -/
theorem generate_returns (engine : UInt64 → RandomEngine) (g : WorkloadGenerator) :
    ∃ workload, generate (Wire.protobuf []) engine g = .ok workload := by
  obtain ⟨_, made, _, hbase, _⟩ := baseEvents_made engine g
  let injected := injectFaults g.config.faults (made.1.insertionSort Before) made.2
  have hwritten : ∀ event ∈ injected.1, ((Wire.protobuf []).serializeToString event).isSome :=
    fun _ _ => rfl
  obtain ⟨hash, hhash⟩ := stableEventHash_ok hwritten
  refine ⟨⟨injected.1, injected.2, hash⟩, ?_⟩
  rw [generate_eq_inject hbase]
  exact congrArg (Except.map _) hhash

/-! ### The limit -/

/-- **The limit is kept exactly when there is room for the controller's events** beside the
sensors'. The controller has four when it degrades, and three otherwise; a chance of one half says
which, on the random numbers that the sensors have left. -/
theorem generated_limit (pb : Protobuf) (engine : UInt64 → RandomEngine) (g : WorkloadGenerator)
    (workload : GeneratedWorkload) (h : generate pb engine g = .ok workload) :
    ∃ before, sensorEvents engine g.config = .ok before ∧
      (workload.stats.generatedEvents ≤ kMaxGeneratedEvents ↔
        (sensorTotal g.config + if degrades g.config.duration before.2 then 4 else 3) ≤
          kMaxGeneratedEvents.toNat) := by
  obtain ⟨before, hsensors, hcount⟩ := generated_count h
  refine ⟨before, hsensors, ?_⟩
  rw [UInt64.le_iff_toNat_le, hcount]

/-- Two positions are far from the limit, whatever the controller does. -/
theorem generated_limit_sample :
    ∃ workload, generate (Wire.protobuf []) (fun _ => seededWithOne) sampleGenerator =
        .ok workload ∧
      workload.stats.generatedEvents ≤ kMaxGeneratedEvents := by
  obtain ⟨workload, hworkload⟩ := generate_returns (fun _ => seededWithOne) sampleGenerator
  obtain ⟨before, _, hlimit⟩ := generated_limit _ _ _ workload hworkload
  refine ⟨workload, hworkload, hlimit.mpr ?_⟩
  have hsensors : sensorTotal sampleGenerator.config = 2 := by decide
  have hmax : kMaxGeneratedEvents.toNat = 2000000 := rfl
  rw [hsensors, hmax]
  split <;> omega

/-- One accelerometer, one nanosecond short of two hundred seconds. -/
def fullGenerator : WorkloadGenerator where
  config :=
    { duration := 199999999999
      rates := ⟨10000, 0, 0, 0, 0, 0⟩ }
  validated := by decide

/-- The configuration has passed, and its workload is over the limit. -/
theorem generated_over_limit :
    ∃ workload, generate (Wire.protobuf []) (fun _ => seededWithOne) fullGenerator =
        .ok workload ∧
      kMaxGeneratedEvents < workload.stats.generatedEvents := by
  obtain ⟨workload, hworkload⟩ := generate_returns (fun _ => seededWithOne) fullGenerator
  obtain ⟨before, _, hcount⟩ := generated_count hworkload
  refine ⟨workload, hworkload, UInt64.lt_iff_toNat_lt.mpr ?_⟩
  have hsensors : sensorTotal fullGenerator.config = 1999999 := by decide
  have hmax : kMaxGeneratedEvents.toNat = 2000000 := rfl
  rw [hcount, hsensors]
  split <;> omega

end TraceForge.Generator
