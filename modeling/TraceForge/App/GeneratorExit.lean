import TraceForge.App.CollectorProcess
import TraceForge.App.GeneratorCommand
import TraceForge.Generator.Acceptance
import TraceForge.Pipeline.Capacity

/-! What `traceforge generate --target` returns when nothing disturbs its publish.

Room in the queue, a connection that holds and a consumer that does not fail leave only the
validators to turn an event away, and they accept any event that a generator makes as long as its
producer's numbers increase. So the exit code is a property of the workload (`generate_exits`). -/
namespace TraceForge.App
open Library Concurrency Telemetry Recording Generator Pipeline
open Pipeline.Ingestion (Undisturbed)

theorem publishCode_three {report : PublishReport} :
    publishCode report = 3 ↔ ¬publishCode report = 0 := by
  unfold publishCode
  cases report.succeeded <;> decide

/-- **The exit code of an undisturbed publish.** At a collector whose queue has room for what was
emitted and whose consumer does not fail, every publish can be brought to its return, and the
command returns 0 if every producer's numbers increase in the workload, and 3 if not. It returns 3
whenever the line says that an event was duplicated, and 0 whenever there was neither jitter nor a
probability for duplicates and swaps. -/
theorem generate_exits (pb : Protobuf) (engine : UInt64 → RandomEngine) (args : List Text)
    (printed : List EventLine) (line : WorkloadLine) (workload : GeneratedWorkload)
    (publisher : WorkloadPublisher) (behind : Behind) (capacity : ℕ)
    (capacity_pos : 0 < capacity) (writer : LogWriter)
    (hgenerate : runGenerator pb engine args = .generates printed line workload (.to publisher))
    (hroom : line.emitted ≤ capacity) :
    let m := Ingestion.machine pb behind (groupByProducer workload.events)
      (.empty capacity capacity_pos) writer
    ∀ actions s, m.run m.init actions = some s → m.Obeys Undisturbed m.init actions →
    (∃ more t, m.run s more = some t ∧ m.Obeys Undisturbed s more ∧ t.report.isSome) ∧
    (behind = .counter ∨ QueuedSink.AllTrue s.collector.sink.returns →
      ∀ report, s.report = some report →
      (publishCode report = 0 ↔ Increasing workload.events) ∧
      (publishCode report = 3 ↔ ¬Increasing workload.events) ∧
      (line.duplicated ≠ 0 → publishCode report = 3) ∧
      ∀ o, parseGenerator args = .ok (.options o) → o.config.maxJitter = 0 →
        o.config.faults.duplicatePerMillion = 0 → o.config.faults.reorderPerMillion = 0 →
        publishCode report = 0) := by
  obtain ⟨o, g, hargs, hconfig, hworkload, _, rfl, _⟩ := generates_cases hgenerate
  let span : EventSpan := ⟨workload.events, generated_few hworkload⟩
  intro m actions s hrun hobeys
  have hstart : m.init.Account span capacity :=
    Ingestion.account_start pb behind capacity_pos writer
  have hs : s.Account span capacity :=
    (Machine.obeying_length_le _ Ingestion.work Ingestion.account_less hstart hobeys hrun).1
  refine ⟨Ingestion.reaches_report hs, fun hkept report hreport => ?_⟩
  have hzero : publishCode report = 0 ↔ Increasing workload.events := by
    rw [publishCode_zero, ← acceptedWhole_iff hworkload]
    exact ⟨Ingestion.report_whole hs hreport, fun hwhole =>
      Ingestion.report_succeeds span hroom hwhole actions s hrun hobeys hkept report hreport⟩
  have hthree : publishCode report = 3 ↔ ¬Increasing workload.events := by
    rw [publishCode_three, hzero]
  refine ⟨hzero, hthree, fun hduplicated => hthree.mpr (repeated_refused hworkload hduplicated),
    fun o' ho' hjitter hduplicate hreorder => ?_⟩
  obtain rfl : o = o' := by
    rw [hargs] at ho'
    cases ho'
    rfl
  rw [← hconfig] at hjitter hduplicate hreorder
  exact hzero.mpr (undisturbed_increasing hworkload hjitter hduplicate hreorder)

/-- A millisecond of telemetry, with each event emitted twice. -/
def doubledArgs : List Text :=
  ["--duration-ms", "1", "--duplicate-per-million", "1000000", "--target", "localhost"].map utf8

/-- The controller's events do not go through a second time. -/
theorem generate_exits_doubled :
    ∃ printed line workload publisher, runGenerator (Wire.protobuf []) (fun _ => seededWithOne)
        doubledArgs = .generates printed line workload (.to publisher) ∧ line.duplicated = 4 ∧
      ∃ actions s report,
        (Ingestion.machine (Wire.protobuf []) .counter (groupByProducer workload.events)
          (.empty 8 (Nat.succ_pos 7)) noWriter).run (Ingestion.machine (Wire.protobuf []) .counter
          (groupByProducer workload.events) (.empty 8 (Nat.succ_pos 7)) noWriter).init actions =
          some s ∧ s.report = some report ∧ publishCode report = 3 := by
  have hlaunched : (runGenerator (Wire.protobuf []) (fun _ => seededWithOne)
      doubledArgs).toPublish.map (fun launched => (launched.1.emitted, launched.1.duplicated)) = some (8, 4) := by
    decide +kernel
  obtain ⟨⟨line, workload⟩, hpublish, hcounts⟩ := Option.map_eq_some_iff.mp hlaunched
  obtain ⟨hemitted, hduplicated⟩ := Prod.mk.inj hcounts
  obtain ⟨printed, publisher, hgenerate⟩ := GeneratorLaunch.toPublish_eq_some hpublish
  have hexits := generate_exits (Wire.protobuf []) (fun _ => seededWithOne) doubledArgs printed
    line workload publisher .counter 8 (Nat.succ_pos 7) noWriter hgenerate (Nat.le_of_eq hemitted)
  obtain ⟨⟨actions, s, hrun, hobeys, hreported⟩, _⟩ := hexits [] _ rfl trivial
  obtain ⟨report, hreport⟩ := Option.isSome_iff_exists.mp hreported
  obtain ⟨_, hends⟩ := hexits actions s hrun hobeys
  obtain ⟨_, _, hrefused, _⟩ := hends (.inl rfl) report hreport
  exact ⟨printed, line, workload, publisher, hgenerate, hduplicated, actions, s, report, hrun,
    hreport, hrefused (by rw [hduplicated]; decide)⟩

end TraceForge.App
