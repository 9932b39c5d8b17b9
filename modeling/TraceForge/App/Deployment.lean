import TraceForge.App.CollectorExit
import TraceForge.App.GeneratorCommand
import TraceForge.Generator.EventLimit
import TraceForge.Pipeline.Analyzed

/-! `traceforge generate --target` and the `traceforge collect` that it publishes to.

The publisher's threads are the clients of the collector's process: a thread sees of it the stream
of its own call, and a read takes its event from what the thread has written. As long as the process
is running, both are an ingestion (`Joined`); what the clients do once it has returned they could
have done before. When both commands return 0, `analyze` says of the log what `generate` has printed of
the workload and its publish (`generate_collected`). -/
namespace TraceForge.App
open Library Concurrency Telemetry Recording Generator
open Analysis (logToAnalyze)
open Pipeline (Client ClientAction Ingestion Behind serve resultStats)

variable {pb : Protobuf}

/-! ### Both processes -/

structure Deployment where
  clients : List Client
  process : CollectorProcess

namespace Deployment

inductive Action where
  | client (i : ℕ) (a : ClientAction)
  | process (a : CollectorProcess.Action)

/-- The clients and the collector in the process. -/
def ingestion (s : Deployment) : Ingestion := ⟨s.clients, s.process.collector⟩

/-- The clients once the process has taken its step. -/
def taken (s : Deployment) : CollectorProcess.Action → Option (List Client)
  | .serve a => s.ingestion.taken a
  | _ => some s.clients

def step (pb : Protobuf) (s : Deployment) : Action → Option Deployment
  | .client i a =>
    s.clients[i]?.bind fun c =>
      (c.step (s.process.collector.streams i) a).map fun c =>
        { s with clients := s.clients.set i c }
  | .process a =>
    (s.taken a).bind fun clients => (s.process.step pb a).map fun process => ⟨clients, process⟩

def machine (pb : Protobuf) (events : List TelemetryEvent) (launched : CollectorProcess) :
    Machine Deployment Action where
  init := ⟨(groupByProducer events).map Client.start, launched⟩
  step := step pb

/-- The report, when every thread has been joined. -/
def report (s : Deployment) : Option PublishReport := s.ingestion.report

/-! ### One step -/

/-- The process, or the one that it was before it returned, together with the clients is an
ingestion that is reached. -/
structure Joined (pb : Protobuf) (behind : Behind) (queue : BoundedQueue CollectedEvent)
    (writer : LogWriter) (producers : List ProducerEvents) (s : Deployment)
    (u : CollectorProcess) : Prop where
  sound : u.Sound pb queue writer
  consumer : u.behind = behind
  process : s.process = u ∨ u.main = .flushing ∧ s.process = u.finish
  reached : (Ingestion.machine pb behind producers queue writer).Reachable ⟨s.clients, u.collector⟩

variable {behind : Behind} {queue : BoundedQueue CollectedEvent} {writer : LogWriter}
  {producers : List ProducerEvents} {s t : Deployment} {u : CollectorProcess}

/-- A step of the process that is not its return is one of the ingestion's, or none of it. -/
theorem process_cases {a : CollectorProcess.Action} (ha : a ≠ .finish)
    (h : s.step pb (.process a) = some t) :
    t.ingestion = s.ingestion ∨
      ∃ b, s.ingestion.step pb s.process.behind (.serve b) = some t.ingestion := by
  obtain ⟨clients, htaken, h⟩ := Option.bind_eq_some_iff.mp h
  obtain ⟨process, hprocess, rfl⟩ := Option.map_eq_some_iff.mp h
  cases a with
  | serve a =>
    simp only [CollectorProcess.step] at hprocess
    split at hprocess
    · obtain ⟨collector, hserve, rfl⟩ := Option.map_eq_some_iff.mp hprocess
      refine .inr ⟨a, ?_⟩
      have hclients : s.ingestion.taken a = some clients := htaken
      have hcollector : serve pb s.process.behind s.ingestion.collector a = some collector := hserve
      rw [Ingestion.step, hclients, Option.bind_some, hcollector]
      rfl
    · cases hprocess
  | signal | monitor | waitReturns =>
    cases htaken
    simp only [CollectorProcess.step] at hprocess
    split at hprocess
    · cases hprocess
      exact .inl rfl
    · cases hprocess
  | shutdown =>
    cases htaken
    simp only [CollectorProcess.step] at hprocess
    split at hprocess
    · obtain ⟨sink, hsink, rfl⟩ := Option.map_eq_some_iff.mp hprocess
      refine .inr ⟨.shutdown, ?_⟩
      have hserve : serve pb s.process.behind s.ingestion.collector .shutdown =
          some { s.process.collector with sink := sink } := by
        show (s.process.collector.sink.shutdownStep.map fun sink =>
          { s.process.collector with sink := sink }) = _
        rw [hsink]
        rfl
      rw [Ingestion.step, hserve]
      rfl
    · cases hprocess
  | finish => exact absurd rfl ha

/-- **One step** of either end. -/
theorem joined_step {a : Action} (hs : s.Joined pb behind queue writer producers u)
    (h : s.step pb a = some t) : ∃ v, t.Joined pb behind queue writer producers v := by
  cases a with
  | client i a =>
    obtain ⟨c, hc, h⟩ := Option.bind_eq_some_iff.mp h
    obtain ⟨moved, hmoved, rfl⟩ := Option.map_eq_some_iff.mp h
    have hstreams : s.process.collector.streams = u.collector.streams := by
      rcases hs.process with hsame | ⟨_, hfinished⟩
      · rw [hsame]
      · rw [hfinished, CollectorProcess.finish_streams]
    have hstep : (⟨s.clients, u.collector⟩ : Ingestion).step pb behind (.client i a) =
        some ⟨s.clients.set i moved, u.collector⟩ := by
      simp only [Ingestion.step, hc, Option.bind_some, ← hstreams, hmoved, Option.map_some]
    exact ⟨u, hs.sound, hs.consumer, hs.process,
      Machine.reachable_step (a := .client i a) hs.reached hstep⟩
  | process a =>
    obtain ⟨clients, htaken, hrest⟩ := Option.bind_eq_some_iff.mp h
    obtain ⟨process, hprocess, rfl⟩ := Option.map_eq_some_iff.mp hrest
    rcases hs.process with rfl | ⟨_, hfinished⟩
    · by_cases ha : a = .finish
      · subst ha
        cases htaken
        simp only [CollectorProcess.step] at hprocess
        split at hprocess
        · rename_i hmain
          cases hprocess
          exact ⟨s.process, hs.sound, hs.consumer, .inr ⟨hmain, rfl⟩, hs.reached⟩
        · cases hprocess
      · obtain ⟨ht, hkept⟩ := (CollectorProcess.sound_step hs.sound hprocess).resolve_right
          fun hfinish => ha hfinish.1
        have hreached : (Ingestion.machine pb behind producers queue writer).Reachable
            (ingestion ⟨clients, process⟩) := by
          rcases process_cases ha h with hsame | ⟨b, hb⟩
          · rw [hsame]
            exact hs.reached
          · rw [hs.consumer] at hb
            exact Machine.reachable_step (a := .serve b) hs.reached hb
        exact ⟨process, ht, hkept.trans hs.consumer, .inl rfl, hreached⟩
    · obtain ⟨exit, hexit⟩ := CollectorProcess.finish_exited u
      rw [hfinished] at hprocess
      cases (CollectorProcess.exited_step hexit a).symm.trans hprocess

/-- **Every deployment that is reached** is an ingestion, together with its process or with what
that was before it returned. -/
theorem joined_reachable (events : List TelemetryEvent) (hitems : queue.items = [])
    (haccepted : queue.acceptedItems = 0)
    (h : (machine pb events (.start behind queue writer)).Reachable s) :
    ∃ u, s.Joined pb behind queue writer (groupByProducer events) u := by
  refine Machine.reachable_invariant
    (fun s : Deployment => ∃ u, s.Joined pb behind queue writer (groupByProducer events) u)
    ⟨.start behind queue writer, CollectorProcess.sound_start hitems haccepted, rfl, .inl rfl,
      [], rfl⟩ (fun s a t ⟨u, hu⟩ hstep => joined_step hu hstep) h

/-- The process knows its calls, also once it has returned. -/
theorem joined_called (hs : s.Joined pb behind queue writer producers u) (i : ℕ) :
    i ∈ s.process.calls ↔ s.process.collector.streams i ≠ none := by
  rcases hs.process with hsame | ⟨_, hfinished⟩
  · rw [hsame]
    exact hs.sound.called i
  · rw [hfinished, CollectorProcess.finish_calls, CollectorProcess.finish_streams]
    exact hs.sound.called i

/-! ### Both ends -/

/-- Where nobody else has called, the streams have read the workload's events, and there are no
strangers. -/
theorem joined_own (span : EventSpan)
    (hs : s.Joined pb behind queue writer (groupByProducer span.events) u)
    (hown : ∀ i r, s.process.collector.streams i = some r → i < s.clients.length) :
    (∀ i r, u.collector.streams i = some r → ∀ event ∈ r.reads, event ∈ span.events) ∧
      ∀ i r, ¬(⟨s.clients, u.collector⟩ : Ingestion).Stranger i r := by
  have hstreams : s.process.collector.streams = u.collector.streams := by
    rcases hs.process with hsame | ⟨_, hfinished⟩
    · rw [hsame]
    · rw [hfinished, CollectorProcess.finish_streams]
  rw [hstreams] at hown
  refine ⟨fun i r hr => ?_, fun i r hstranger => ?_⟩
  · obtain ⟨c, hc⟩ : ∃ c, s.clients[i]? = some c := ⟨_, List.getElem?_eq_getElem (hown i r hr)⟩
    exact Ingestion.reads_span (s := ⟨s.clients, u.collector⟩)
      (Ingestion.publish_consistent hs.reached) hc hr
  · exact absurd (hown i r hstranger.2) (Nat.not_lt.mpr hstranger.1)

/-- A publish that succeeded has brought the collector the workload. -/
theorem joined_delivered (span : EventSpan)
    (hs : s.Joined pb behind queue writer (groupByProducer span.events) u)
    (hown : ∀ i r, s.process.collector.streams i = some r → i < s.clients.length)
    {report : PublishReport} (hreport : s.report = some report)
    (hsucceeded : report.succeeded = true) :
    let si : Ingestion := ⟨s.clients, u.collector⟩
    u.collector.sink.acknowledged = si.publishing.sunk ∧
      SameViews TelemetryEvent.producerId
        (u.collector.sink.acknowledged.map CollectedEvent.event) span.events ∧
      report.acceptedEvents.toNat = span.events.length := by
  intro si
  have hsunk : u.collector.sink.acknowledged = si.publishing.sunk :=
    Ingestion.acknowledged_eq_sunk (s := si) (Ingestion.collector_consistent hs.reached)
      (joined_own span hs hown).2
  have hpublished : si.publishing.report = some report :=
    (Ingestion.report_publishing si).trans hreport
  obtain ⟨hviews, _, hattempted, haccepted⟩ := Publishing.report_delivered
    (Ingestion.publish_consistent hs.reached) hpublished hsucceeded
  exact ⟨hsunk, hsunk ▸ hviews, haccepted ▸ hattempted⟩

/-- The log that a deployment leaves, and what `inspect` and `analyze` say of it. -/
structure Tells (digits : ℕ) (stod : Stod) (pb : Protobuf) (log : File) (line : WorkloadLine)
    (workload : GeneratedWorkload) (report : PublishReport) : Prop where
  accepted : Accepted digits stod pb .granted log
  inspected : (runInspect pb .granted log).1.records.toNat = line.emitted
  analyzed : (runAnalyze digits pb .granted log).1.records.toNat = line.emitted
  producers : (runAnalyze digits pb .granted log).1.producers = report.producers.map resultStats
  recorded : SameViews TelemetryEvent.producerId
    ((readLog pb .granted log {}).records.map LogRecord.event) workload.events

/-- **What `generate` has printed is what `analyze` says**, in every interleaving of the publisher's
threads, the collector's calls, its consumer, the signals and its main thread, when both commands
return 0 and nobody else has called. The collector has accepted and consumed as many events as the
workload's line says were emitted. Its log holds these, each producer's in their order; every other
command takes the log, and `analyze` has a line for each of the publish's, with the same counts. Of
more events than a million none reads the log. -/
theorem generate_collected (digits : ℕ) (stod : Stod) (pb : Protobuf)
    (engine : UInt64 → RandomEngine) (surroundings : Surroundings)
    (generatorArgs collectorArgs : List Text) (printed : List EventLine) (line : WorkloadLine)
    (workload : GeneratedWorkload) (publisher : WorkloadPublisher) (launched : CollectorProcess)
    (s : Deployment) (report : PublishReport) (exit : Exit)
    (hgenerate : runGenerator pb engine generatorArgs =
      .generates printed line workload (.to publisher))
    (hlaunch : runCollector surroundings collectorArgs = .serves launched)
    (h : (machine pb workload.events launched).Reachable s)
    (hcarries : ∀ event ∈ workload.events, Carries pb event)
    (hown : ∀ i r, s.process.collector.streams i = some r → i < s.clients.length)
    (hreport : s.report = some report) (hpublished : publishCode report = 0)
    (hexit : s.process.main = .exited exit) (hcollected : exit.code = 0) :
    report.acceptedEvents.toNat = line.emitted ∧
    (∃ shutdown, exit = .shutDown shutdown ∧ shutdown.accepted.toNat = line.emitted ∧
      shutdown.consumed = shutdown.accepted ∧ shutdown.consumerFailures = 0) ∧
    (s.process.behind = .recorder →
      (line.emitted ≤ 1000000 → Tells digits stod pb s.process.log line workload report) ∧
      (1000000 < line.emitted → Refused digits stod pb .granted s.process.log)) := by
  obtain ⟨_, _, _, _, hworkload, _, rfl, _⟩ := generates_cases hgenerate
  let span : EventSpan := ⟨workload.events, generated_few hworkload⟩
  obtain ⟨o, capacity_pos, _, rfl, hrecorder⟩ := launch_serves hlaunch
  obtain ⟨u, hu⟩ := joined_reachable workload.events rfl rfl h
  have hsucceeded : report.succeeded = true := publishCode_zero.mp hpublished
  obtain ⟨hsunk, hviews, haccepted⟩ := joined_delivered span hu hown hreport hsucceeded
  have hcount : u.collector.sink.acknowledged.length = workload.events.length := by
    rw [← List.length_map (f := CollectedEvent.event), hviews.perm.length_eq]
  obtain ⟨hmain, hfinished⟩ : u.main = .flushing ∧ s.process = u.finish := by
    refine hu.process.resolve_left fun hsame => ?_
    have hrunning := CollectorProcess.not_returned hu.sound
    rw [← hsame, hexit] at hrunning
    cases hrunning
  have hreads (i : ℕ) (r : StreamReactor) (hr : u.collector.streams i = some r) :
      ∀ event ∈ r.reads, Carries pb event :=
    fun event hevent => hcarries event ((joined_own span hu hown).1 i r hr event hevent)
  rw [hfinished] at hexit ⊢
  obtain ⟨_, _, hexited⟩ := CollectorProcess.finish_exits digits stod hu.sound hmain
    (fun hconsumer => hrecorder (hu.consumer.symm.trans hconsumer)) hexit hreads
  cases exit with
  | flushFailed message => cases hcollected
  | shutDown shutdown =>
    obtain ⟨_, hfailures, hconsumed, hacknowledged, hleaves⟩ := hexited
    rw [CollectorProcess.finish_sink, hcount] at hacknowledged
    rw [CollectorProcess.finish_sink] at hleaves
    refine ⟨haccepted, ⟨shutdown, rfl, ?_, hconsumed, hfailures⟩, fun hbehind => ?_⟩
    · rw [hacknowledged, UInt64.toNat_ofNat_of_lt' span.length_lt]
      rfl
    · obtain ⟨hwhole, hbeyond⟩ := hleaves hbehind
      rw [hcount] at hwhole hbeyond
      refine ⟨fun hfew => ?_, hbeyond⟩
      obtain ⟨hall, hrecords⟩ := hwhole hfew
      have hcomplete : (logToAnalyze pb .granted u.finish.log 1000000).status = .complete :=
        inspect_code.mp hall.inspects
      have hevents : (logToAnalyze pb .granted u.finish.log 1000000).records.map LogRecord.event =
          u.collector.sink.acknowledged.map CollectedEvent.event := by
        have hfirst := congrArg (List.map Prod.fst) hrecords
        rwa [Analysis.arrivals, List.map_map, List.map_map] at hfirst
      obtain ⟨_, hanalyzed, hproducers⟩ := Pipeline.analyzed_delivered digits span
        hu.reached hreport hsucceeded hcomplete (hsunk ▸ hevents)
      have hlength : (readLog pb .granted u.finish.log {}).records.length =
          workload.events.length := by
        rw [← List.length_map (f := LogRecord.event), ← hcount]
        exact (congrArg List.length hevents).trans (List.length_map _)
      exact
        { accepted := hall
          inspected := by
            show (UInt64.ofNat _).toNat = _
            rw [hlength, UInt64.toNat_ofNat_of_lt' span.length_lt]
            rfl
          analyzed := (congrArg UInt64.toNat hanalyzed).trans haccepted
          producers := hproducers
          recorded := by
            rw [show (readLog pb .granted u.finish.log {}).records.map LogRecord.event = _ from
              hevents]
            exact hviews }

/-! ### A millisecond of telemetry -/

def sampleGeneratorArgs : List Text :=
  ["--duration-ms", "1", "--target", "localhost"].map Generator.utf8

/-- In so short a time only the controller has events. -/
def sampleWorkload (pb : Protobuf) : GeneratedWorkload :=
  match runGenerator pb (fun _ => seededWithOne) sampleGeneratorArgs with
  | .generates _ _ workload _ => workload
  | _ => {}

def samplePb : Protobuf := Wire.protobuf (sampleWorkload (Wire.protobuf [])).events

/-- An event on its way from the client to the log. -/
def delivery (event : TelemetryEvent) : List Action :=
  [.client 0 (.write true), .process (.serve (.read 0 (some event) 5)),
    .process (.serve (.load 0 true)), .process (.serve (.push 0)), .process (.serve .pop),
    .process (.serve .call), .process (.serve .consume), .process (.serve .advance)]

/-- The client ends its stream, and the collector is interrupted. -/
def closing : List Action :=
  [.client 0 .writesDone, .process (.signal SIGINT), .process (.serve (.read 0 none 6)),
    .process .monitor, .process .waitReturns, .client 0 (.finish 0 ""), .process .shutdown,
    .process .shutdown, .process (.serve .pop), .process .shutdown, .process .finish]

def sampleActions : List Action :=
  .process (.serve (.streamTelemetry 0)) ::
    ((sampleWorkload samplePb).events.flatMap delivery ++ closing)

def sampleMachine : Machine Deployment Action :=
  machine samplePb (sampleWorkload samplePb).events CollectorProcess.sampleProcess

/-- The options are taken, and the target is one. -/
theorem sample_generates : ∃ printed line publisher,
    runGenerator samplePb (fun _ => seededWithOne) sampleGeneratorArgs =
      .generates printed line (sampleWorkload samplePb) (.to publisher) ∧ line.emitted = 4 := by
  have hlaunched : (runGenerator samplePb (fun _ => seededWithOne)
      sampleGeneratorArgs).toPublish.map (fun launched => launched.1.emitted) = some 4 := by decide +kernel
  obtain ⟨⟨line, workload⟩, hpublish, hemitted⟩ := Option.map_eq_some_iff.mp hlaunched
  obtain ⟨printed, publisher, hgenerate⟩ := GeneratorLaunch.toPublish_eq_some hpublish
  have hworkload : sampleWorkload samplePb = workload := by
    unfold sampleWorkload
    rw [hgenerate]
  exact ⟨printed, line, publisher, hworkload ▸ hgenerate, hemitted⟩

theorem sample_carries : ∀ event ∈ (sampleWorkload samplePb).events, Carries samplePb event := by
  have hall : ∀ event ∈ (sampleWorkload samplePb).events, event.unknownFields = [] ∧
      samplePb.serializeToString event = some (Wire.encode event) ∧
      samplePb.parseFromArray (Wire.encode event) = some event := by decide +kernel
  intro event hevent
  obtain ⟨hknown, hwritten, hread⟩ := hall event hevent
  exact ⟨hknown, fun _ => hwritten, hread⟩

theorem generate_collected_sample :
    ∃ printed line publisher s report,
      runGenerator samplePb (fun _ => seededWithOne) sampleGeneratorArgs =
        .generates printed line (sampleWorkload samplePb) (.to publisher) ∧ line.emitted = 4 ∧
      sampleMachine.run sampleMachine.init sampleActions = some s ∧ s.report = some report ∧
      Tells 53 (fun _ => .error []) samplePb s.process.log line (sampleWorkload samplePb)
        report := by
  have hplace : (sampleMachine.run sampleMachine.init sampleActions).map (fun s =>
      (s.process.main, s.process.behind, s.process.calls, s.clients.length)) =
      some (.exited (.shutDown ⟨SIGINT, 4, 0, 4, 1, 0⟩), .recorder, [0], 1) := by decide +kernel
  have hreported : ((sampleMachine.run sampleMachine.init sampleActions).bind report).map
      publishCode = some 0 := by decide +kernel
  obtain ⟨s, hs, hat⟩ := Option.map_eq_some_iff.mp hplace
  simp only [Prod.mk.injEq] at hat
  obtain ⟨hexit, hbehind, hcalls, hclients⟩ := hat
  rw [hs, Option.bind_some] at hreported
  obtain ⟨report, hreport, hpublished⟩ := Option.map_eq_some_iff.mp hreported
  obtain ⟨printed, line, publisher, hgenerate, hemitted⟩ := sample_generates
  have hreach : sampleMachine.Reachable s := ⟨sampleActions, hs⟩
  obtain ⟨u, hu⟩ := joined_reachable _ rfl rfl hreach
  have hown (i : ℕ) (r : StreamReactor) (hr : s.process.collector.streams i = some r) :
      i < s.clients.length := by
    have hcalled : i ∈ s.process.calls :=
      (joined_called hu i).mpr (hr ▸ Option.some_ne_none r)
    rw [hcalls, List.mem_singleton] at hcalled
    omega
  obtain ⟨_, _, hleaves⟩ := generate_collected 53 (fun _ => .error []) samplePb
    (fun _ => seededWithOne) CollectorProcess.sampleSurroundings sampleGeneratorArgs
    CollectorProcess.sampleArgs printed line (sampleWorkload samplePb) publisher
    CollectorProcess.sampleProcess s report _ hgenerate CollectorProcess.sample_launches hreach
    sample_carries hown hreport hpublished hexit rfl
  exact ⟨printed, line, publisher, s, report, hgenerate, hemitted, hs, hreport,
    (hleaves hbehind).1 (by omega)⟩

end Deployment

end TraceForge.App
