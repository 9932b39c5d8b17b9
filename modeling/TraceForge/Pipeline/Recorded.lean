import TraceForge.Pipeline.Views
import TraceForge.Telemetry.FlushedLog

/-! What a publish was told is what the collector's log holds.

The sink has accepted from each stream of the publish the first events of its producer's group, and
the log holds what the sink has accepted. So the log has the front of every group, whatever became
of the stream; as many of its events as an OK status counted; and all of it where the result says
that the producer succeeded (`publish_recorded`). -/
namespace TraceForge.Pipeline
open Library Concurrency Telemetry Recording Generator

variable {pb : Protobuf} {behind : Behind}

namespace Ingestion

/-! ### Streams of others -/

/-- A call at the collector that none of the publish's clients has made. -/
def Stranger (s : Ingestion) (i : ℕ) (r : StreamReactor) : Prop :=
  s.clients.length ≤ i ∧ s.collector.streams i = some r

/-- Only the publish's clients call. -/
def Ours (n : ℕ) : Action → Prop
  | .serve (.streamTelemetry i) => i < n
  | _ => True

instance decidableOurs (n : ℕ) : (a : Action) → Decidable (Ours n a)
  | .serve (.streamTelemetry i) => inferInstanceAs (Decidable (i < n))
  | .serve (.read ..) | .serve (.load ..) | .serve (.push _) | .serve .pop | .serve .call
  | .serve .consume | .serve .advance | .serve .shutdown | .client .. => .isTrue trivial

/-- A read takes no client away. -/
theorem taken_length {s : Ingestion} {a : Collector.Action ℕ} {clients : List Client}
    (h : s.taken a = some clients) : clients.length = s.clients.length := by
  unfold taken at h
  split at h
  · split at h
    · cases h
      rfl
    · split at h
      · cases h
      · split at h
        · cases h
          exact List.length_set
        · cases h
  · cases h
    rfl

/-- The clients are as many as ever. -/
theorem step_length {s t : Ingestion} {a : Action} (h : s.step pb behind a = some t) :
    t.clients.length = s.clients.length := by
  cases a with
  | client i a =>
    obtain ⟨c, _, h⟩ := Option.bind_eq_some_iff.mp h
    obtain ⟨_, _, rfl⟩ := Option.map_eq_some_iff.mp h
    exact List.length_set
  | serve a =>
    obtain ⟨clients, htaken, h⟩ := Option.bind_eq_some_iff.mp h
    obtain ⟨_, _, rfl⟩ := Option.map_eq_some_iff.mp h
    exact taken_length htaken

/-- The publish's own calls bring no stranger. -/
theorem strangers_step {s t : Ingestion} {a : Action} (hs : ∀ i r, ¬s.Stranger i r)
    (ha : Ours s.clients.length a) (h : s.step pb behind a = some t) :
    ∀ i r, ¬t.Stranger i r := by
  rintro i r ⟨hi, hr⟩
  rw [step_length h] at hi
  have hnone : s.collector.streams i = none :=
    Option.eq_none_iff_forall_ne_some.mpr fun q hq => hs i q ⟨hi, hq⟩
  cases a with
  | client j a =>
    obtain ⟨c, _, h⟩ := Option.bind_eq_some_iff.mp h
    obtain ⟨_, _, rfl⟩ := Option.map_eq_some_iff.mp h
    exact hs i r ⟨hi, hr⟩
  | serve a =>
    obtain ⟨_, _, h⟩ := Option.bind_eq_some_iff.mp h
    obtain ⟨c, hc, rfl⟩ := Option.map_eq_some_iff.mp h
    have habsent : c.streams i = none := by
      refine absent_serve hnone ?_ hc
      rintro rfl
      exact absurd ha (Nat.not_lt.mpr hi)
    cases habsent.symm.trans hr

/-! ### Every run -/

section Run
variable {producers : List ProducerEvents} {queue : BoundedQueue CollectedEvent}
  {writer : LogWriter} {s : Ingestion}

theorem collector_consistent (h : (machine pb behind producers queue writer).Reachable s) :
    s.collector.Consistent := by
  refine Machine.reachable_invariant (fun s : Ingestion => s.collector.Consistent)
    (Collector.consistent_start queue writer) (fun s a t hs hstep => ?_) h
  cases a with
  | client i a =>
    obtain ⟨c, _, hstep⟩ := Option.bind_eq_some_iff.mp hstep
    obtain ⟨_, _, rfl⟩ := Option.map_eq_some_iff.mp hstep
    exact hs
  | serve a =>
    obtain ⟨_, _, hstep⟩ := Option.bind_eq_some_iff.mp hstep
    obtain ⟨c, hc, rfl⟩ := Option.map_eq_some_iff.mp hstep
    exact consistent_serve hs hc

end Run

/-! ### What the sink has accepted -/

section Accepted
variable {s : Ingestion}

/-- An event accepted on some stream has been read there. -/
theorem accepted_read (hs : s.collector.Consistent) {i : ℕ} {c : CollectedEvent}
    {result : SinkResult} (hanswer : (i, c, result) ∈ s.collector.sink.answers)
    (hresult : result = .accepted) :
    ∃ r, s.collector.streams i = some r ∧ c.event ∈ r.reads := by
  have hown : c ∈ s.collector.acknowledged i := by
    refine List.mem_map.mpr ⟨(i, c, result), List.mem_filter.mpr ⟨hanswer, ?_⟩, rfl⟩
    simp only [hresult, and_self, decide_true]
  cases hr : s.collector.streams i with
  | none =>
    rw [(hs.absent i hr).1] at hown
    cases hown
  | some r =>
    obtain ⟨haccepted, hreads⟩ := StreamReactor.own_captured (hs.stream i r hr)
    exact ⟨r, rfl, hreads.subset (List.mem_map_of_mem (haccepted.subset hown))⟩

/-- What strangers have not sent was accepted from the publish. -/
theorem acceptedOn_view (hs : s.collector.Consistent) {p : CollectedEvent → Bool}
    (halone : ∀ i r, s.Stranger i r → ∀ c : CollectedEvent, c.event ∈ r.reads → p c = false) :
    s.collector.sink.acknowledged.filter p = s.publishing.sunk.filter p := by
  rw [QueuedSink.acknowledged, publishing, acceptedOn, List.filter_map, List.filter_map,
    List.filter_filter, List.filter_filter]
  refine congrArg _ (List.filter_congr fun answer hanswer => ?_)
  obtain ⟨i, c, result⟩ := answer
  by_cases hresult : result = .accepted
  · by_cases hlt : i < s.clients.length
    · simp only [hresult, hlt, true_and]
    · obtain ⟨r, hr, hread⟩ := accepted_read hs hanswer hresult
      have hno := halone i r ⟨Nat.not_lt.mp hlt, hr⟩ c hread
      simp only [Function.comp_apply, hno, Bool.false_and]
  · simp only [hresult, and_false, decide_false, Bool.and_false]

theorem acknowledged_eq_sunk (hs : s.collector.Consistent) (halone : ∀ i r, ¬s.Stranger i r) :
    s.collector.sink.acknowledged = s.publishing.sunk := by
  have hall := acceptedOn_view (p := fun _ => true) hs
    fun i r hstranger => absurd hstranger (halone i r)
  rwa [List.filter_true, List.filter_true] at hall

end Accepted

/-! ### What a client was told -/

section Clients
variable {events : List TelemetryEvent} {queue : BoundedQueue CollectedEvent} {writer : LogWriter}
  {s : Ingestion}

/-- The publish of an ingestion keeps its account. -/
theorem publish_consistent
    (h : (machine pb behind (groupByProducer events) queue writer).Reachable s) :
    s.publishing.Consistent (groupByProducer events) :=
  Machine.reachable_invariant (Publishing.Consistent (groupByProducer events))
    Publishing.consistent_start
    (fun _ _ _ hs hstep => Publishing.consistent_step (groups_nodup events)
      (fun _ hg => group_own hg) hs hstep)
    ((publishView pb behind (groupByProducer events) queue writer).reachable h)

/-- The thread of a client and its group. -/
theorem client_thread (hs : s.publishing.Consistent (groupByProducer events)) {i : ℕ} {c : Client}
    (hc : s.clients[i]? = some c) :
    c.producer ∈ groupByProducer events ∧
      (c.thread (s.reactor i)).Consistent (s.publishing.sunkOf c.producer.producerId) := by
  have hthread : s.publishing.threads[i]? = some (c.thread (s.reactor i)) := by
    rw [publishing_threads, hc]
    rfl
  refine ⟨?_, hs.thread i _ hthread⟩
  rw [← hs.producers]
  exact List.mem_map.mpr ⟨_, List.mem_of_getElem? hthread, rfl⟩

/-- What the sink has accepted of a thread's events are the first of its group. -/
theorem own_leads {t : ProducerThread} {own : List CollectedEvent} (ht : t.Consistent own) :
    own.map CollectedEvent.event <+: t.producer.events := by
  cases hr : t.reactor with
  | none =>
    rw [ht.absent hr]
    exact List.nil_prefix
  | some r =>
    obtain ⟨hown, hreads⟩ := StreamReactor.own_captured (ht.reactor r hr).1
    have hread : t.reads <+: t.producer.events := (List.prefix_append _ _).trans ht.sent
    rw [ProducerThread.reads_reactor hr] at hread
    exact ((hown.map _).trans hreads).trans hread

/-- The report is the publish's. -/
theorem report_publishing (s : Ingestion) : s.publishing.report = s.report := by
  have hresults : s.publishing.threads.map ProducerThread.result = s.clients.map Client.result := by
    refine List.ext_getElem? fun i => ?_
    rw [List.getElem?_map, List.getElem?_map, publishing_threads, Option.map_map]
    rfl
  have hjoined : (s.publishing.threads.all fun t => t.phase = .joined) =
      s.clients.all fun c => c.phase = .joined := by
    rw [publishing, List.mapIdx_eq_zipIdx_map, List.all_map]
    conv_rhs => rw [← List.zipIdx_map_fst 0 s.clients, List.all_map]
    rfl
  rw [Publishing.report, report, hresults, hjoined]

/-- A stream of the publish has read what its producer's group has. -/
theorem reads_span (hs : s.publishing.Consistent (groupByProducer events)) {i : ℕ} {c : Client}
    (hc : s.clients[i]? = some c) {r : StreamReactor} (hr : s.collector.streams i = some r) :
    ∀ event ∈ r.reads, event ∈ events := by
  obtain ⟨hgroup, hthread⟩ := client_thread hs hc
  have hreads : (c.thread (s.reactor i)).reads = r.reads := by
    have hseen : (seen s.collector.sink i r).reads = r.reads := by
      unfold seen
      split <;> rfl
    rw [ProducerThread.reads, Client.thread, reactor, hr]
    exact hseen
  intro event hevent
  have hmem : event ∈ c.producer.events := hthread.sent.subset
    (List.mem_append_left _ (hreads.symm ▸ hevent))
  rw [(mem_groupByProducer.mp hgroup).2] at hmem
  exact (List.mem_filter.mp hmem).1

end Clients

end Ingestion

/-! ### The log -/

def samplePb : Protobuf :=
  Wire.protobuf [Wire.sampleEvent 1, neighbourEvent, Wire.sampleEvent 4]

/-- Both producers' streams are open at once, the queue has room for one event, and the sink is
shut down while the last one is in the consumer's hands. -/
def sampleActions : List Action :=
  [.client 0 (.write true), .serve (.streamTelemetry 1), .serve (.streamTelemetry 0),
    .serve (.read 0 (some (Wire.sampleEvent 1)) 5), .client 1 (.write true),
    .serve (.load 0 true), .serve (.push 0), .serve (.read 1 (some neighbourEvent) 6),
    .client 0 (.write true), .serve (.load 1 true), .serve .pop, .serve .call, .serve .consume,
    .serve .advance, .serve (.push 1), .client 0 .writesDone, .client 1 .writesDone,
    .serve (.read 0 (some (Wire.sampleEvent 4)) 7), .serve (.read 1 none 8),
    .serve (.load 0 true), .serve .pop, .serve .call, .serve .consume, .serve .advance,
    .serve (.push 0), .client 1 (.finish 0 ""), .serve (.read 0 none 9), .client 0 (.finish 0 ""),
    .serve .pop, .serve .shutdown, .serve .call, .serve .shutdown, .serve .consume, .serve .advance,
    .serve .pop, .serve .shutdown]

def sampleMachine : Machine Ingestion Action :=
  Ingestion.machine samplePb .recorder (groupByProducer sampleSpan.events) (.empty 1 Nat.one_pos)
    (.create (.fresh "log" fun _ => none) { createdUnixNs := 7 } 0)

theorem sample_carries : ∀ event ∈ sampleSpan.events, Carries samplePb event := by
  have hall : ∀ event ∈ sampleSpan.events, event.unknownFields = [] ∧
      samplePb.serializeToString event = some (Wire.encode event) ∧
      samplePb.parseFromArray (Wire.encode event) = some event := by decide +kernel
  intro event hevent
  obtain ⟨hknown, hserializes, hparses⟩ := hall event hevent
  exact ⟨hknown, fun _ => hserializes, hparses⟩

end TraceForge.Pipeline
