import TraceForge.Generator.Delivery

/-! A call at the collector: its steps, what it reads and what its status says.

A call that ends with OK has had every event it read accepted. One that ends with INVALID_ARGUMENT
was refused its last by the validator, and one that ends with RESOURCE_EXHAUSTED or UNAVAILABLE had
its last turned away by the sink; whatever it read before was accepted (`explained_step`). -/
namespace TraceForge.Pipeline
open Library Concurrency Telemetry Recording Generator
open StreamValidator Offered Collector

variable {pb : Protobuf} {Stream : Type} [DecidableEq Stream]

/-! ### A call's step -/

theorem streamTelemetry_cases {s t : Collector Stream} {i : Stream} (h : s.streamTelemetry i = some t) :
    s.streams i = none ∧ t = s.withStream i (.create {}) := by
  unfold Collector.streamTelemetry at h
  split at h
  · cases h
  · rename_i hnew
    cases h
    exact ⟨hnew, rfl⟩

theorem read_cases {s t : Collector Stream} {i : Stream} {event : Option TelemetryEvent}
    {now : Int64} (h : s.read i event now = some t) :
    ∃ r, s.streams i = some r ∧ r.phase = .reading ∧
      t = s.withStream i (event.elim r.onReadEnded fun event => r.onReadDone event now) := by
  unfold Collector.read at h
  split at h
  · cases h
  rename_i r hr
  split at h
  · rename_i hphase
    cases h
    exact ⟨r, hr, hphase, rfl⟩
  · cases h

/-- A load lets the call go on to the push, or is its answer. -/
theorem load_cases {s t : Collector Stream} {i : Stream} {seen : Bool} (h : s.load i seen = some t) :
    ∃ r c, s.streams i = some r ∧ r.phase = .offering c ∧
      (t = Collector.withStream i { r with phase := .pushing }
          { s with sink := { s.sink with callers := Function.update s.sink.callers i (some c) } } ∨
        t = Collector.withStream i (r.onSinkResult .unavailable)
          { s with sink :=
            { s.sink with answers := s.sink.answers ++ [(i, c, .unavailable)] } }) := by
  unfold Collector.load at h
  split at h
  · cases h
  rename_i r hr
  split at h
  · rename_i c hphase
    obtain ⟨⟨result, sink⟩, hsink, rfl⟩ := Option.map_eq_some_iff.mp h
    rcases QueuedSink.load_cases hsink with ⟨rfl, rfl⟩ | ⟨rfl, rfl⟩
    · exact ⟨r, c, hr, hphase, .inl rfl⟩
    · exact ⟨r, c, hr, hphase, .inr rfl⟩
  · cases h

theorem push_cases {s t : Collector Stream} {i : Stream} (h : s.push i = some t) :
    ∃ r c result sink, s.streams i = some r ∧ r.phase = .pushing ∧ s.sink.callers i = some c ∧
      t = Collector.withStream i (r.onSinkResult result) { s with sink := sink } ∧
      sink.callers = Function.update s.sink.callers i none ∧
      sink.answers = s.sink.answers ++ [(i, c, result)] := by
  unfold Collector.push at h
  split at h
  · cases h
  rename_i r hr
  split at h
  · rename_i hphase
    obtain ⟨⟨result, sink⟩, hsink, rfl⟩ := Option.map_eq_some_iff.mp h
    obtain ⟨c, hc, rfl, rfl⟩ := QueuedSink.push_cases hsink
    exact ⟨r, c, _, _, hr, hphase, hc, rfl, rfl, rfl⟩
  · cases h

/-! ### What a call reads -/

/-- A stream that a step has put in its place, or left there. -/
theorem withStream_cases {s : Collector Stream} {i j : Stream} {q r : StreamReactor}
    (h : (s.withStream i q).streams j = some r) : j = i ∧ r = q ∨ s.streams j = some r := by
  by_cases hj : j = i
  · subst hj
    simp only [withStream, Function.update_self, Option.some.injEq] at h
    exact .inl ⟨rfl, h.symm⟩
  · simp only [withStream, Function.update_of_ne hj] at h
    exact .inr h

/-- **What a call has read** grows by its own reads only. -/
theorem reads_step {s t : Collector Stream} {a : Collector.Action Stream} {i : Stream}
    {r : StreamReactor} (h : s.step pb a = some t) (hr : t.streams i = some r) :
    (∃ q, s.streams i = some q ∧ r.reads = q.reads) ∨ a = .streamTelemetry i ∧ r.reads = [] ∨
      ∃ q event now, a = .read i (some event) now ∧ s.streams i = some q ∧
        r.reads = q.reads ++ [event] := by
  have hkept (q : StreamReactor) (hq : s.streams i = some q) (hreads : r.reads = q.reads) :
      ∃ q, s.streams i = some q ∧ r.reads = q.reads := ⟨q, hq, hreads⟩
  have hmoved {next : QueuedSink Stream CollectedEvent} (ht : { s with sink := next } = t) :
      ∃ q, s.streams i = some q ∧ r.reads = q.reads := by
    subst ht
    exact hkept r hr rfl
  cases a with
  | streamTelemetry j =>
    obtain ⟨_, rfl⟩ := streamTelemetry_cases h
    rcases withStream_cases hr with ⟨rfl, rfl⟩ | hsame
    · exact .inr (.inl ⟨rfl, rfl⟩)
    · exact .inl (hkept r hsame rfl)
  | read j event now =>
    obtain ⟨q, hq, _, rfl⟩ := read_cases h
    rcases withStream_cases hr with ⟨rfl, rfl⟩ | hsame
    · cases event with
      | none => exact .inl (hkept q hq rfl)
      | some event =>
        exact .inr (.inr ⟨q, event, now, rfl, hq, ProducerThread.onReadDone_reads q event now⟩)
    · exact .inl (hkept r hsame rfl)
  | load j seen =>
    obtain ⟨q, c, hq, _, rfl | rfl⟩ := load_cases h
    · rcases withStream_cases hr with ⟨rfl, rfl⟩ | hsame
      · exact .inl (hkept q hq rfl)
      · exact .inl (hkept r hsame rfl)
    · rcases withStream_cases hr with ⟨rfl, rfl⟩ | hsame
      · exact .inl (hkept q hq rfl)
      · exact .inl (hkept r hsame rfl)
  | push j =>
    obtain ⟨q, c, result, sink, hq, _, _, rfl, _⟩ := push_cases h
    rcases withStream_cases hr with ⟨rfl, rfl⟩ | hsame
    · exact .inl (hkept q hq (ProducerThread.onSinkResult_reads q result))
    · exact .inl (hkept r hsame rfl)
  | consume =>
    simp only [Collector.step, Collector.consume] at h
    split at h
    · obtain ⟨sink, _, rfl⟩ := Option.map_eq_some_iff.mp h
      exact .inl (hkept r hr rfl)
    · cases h
  | pop | call | advance | shutdown =>
    obtain ⟨sink, _, ht⟩ := Option.map_eq_some_iff.mp h
    exact .inl (hmoved ht)

/-- The events read, by what the sink has accepted of them. -/
def Explains (r : StreamReactor) (own : List CollectedEvent) : StatusCode → Prop
  | .ok => r.reads = own.map CollectedEvent.event
  | .invalidArgument => ∃ event, r.reads = own.map CollectedEvent.event ++ [event] ∧
      ¬AcceptedWhole r.reads
  | .resourceExhausted | .unavailable =>
    ∃ event, r.reads = own.map CollectedEvent.event ++ [event] ∧ AcceptedWhole r.reads

/-- A reactor that has validated what it captured, and whose status says what became of it. -/
structure Explained (r : StreamReactor) (own : List CollectedEvent) : Prop where
  validated : Validated r
  statuses : ∀ status ∈ r.finished, Explains r own status.code

variable {r : StreamReactor} {own : List CollectedEvent} {pending : Option CollectedEvent}

theorem explained_running (hvalidated : Validated r) (hfinished : r.finished = []) :
    Explained r own where
  validated := hvalidated
  statuses status hstatus := by
    rw [hfinished] at hstatus
    cases hstatus

/-- An event that is read ends the call with INVALID_ARGUMENT, or does not end it. -/
theorem explained_onReadDone (event : TelemetryEvent) (now : Int64)
    (hr : r.Consistent own pending) (hvalidated : Validated r) (hphase : r.phase = .reading) :
    Explained (r.onReadDone event now) own := by
  obtain ⟨hrunning, hcaptured, _⟩ := StreamReactor.place_reading hr hphase
  obtain ⟨_, hdone, _, hfinished, _⟩ | ⟨hrefused, hdone⟩ := onReadDone_cases hvalidated event now
  · exact explained_running hdone (hfinished.trans hrunning.finished)
  · refine ⟨hdone, fun status hstatus => ?_⟩
    have hreads : (r.onReadDone event now).reads = own.map CollectedEvent.event ++ [event] := by
      rw [ProducerThread.onReadDone_reads, hrunning.reads, hcaptured]
    have hcode : status.code = .invalidArgument := by
      simp only [StreamReactor.onReadDone] at hstatus
      split at hstatus
      · simp only [StreamReactor.finish, hrunning.finished, List.nil_append,
          List.mem_singleton] at hstatus
        rw [hstatus]
      · simp only [hrunning.finished] at hstatus
        cases hstatus
    rw [hcode]
    refine ⟨event, hreads, ?_⟩
    rw [hreads, ← hcaptured]
    exact hrefused

theorem explained_onReadEnded (hr : r.Consistent own pending) (hvalidated : Validated r)
    (hphase : r.phase = .reading) : Explained r.onReadEnded own := by
  obtain ⟨hrunning, hcaptured, _⟩ := StreamReactor.place_reading hr hphase
  refine ⟨⟨hvalidated.whole, hvalidated.validator⟩, fun status hstatus => ?_⟩
  simp only [StreamReactor.onReadEnded, StreamReactor.finish, hrunning.finished, List.nil_append,
    List.mem_singleton] at hstatus
  rw [hstatus, ← hcaptured]
  exact hrunning.reads

/-- The sink's answer ends the call unless it is an acceptance. -/
theorem explained_onSinkResult {c : CollectedEvent} (result : SinkResult) (hvalidated : Validated r)
    (hrunning : r.Running) (hcaptured : r.captured = own ++ [c]) :
    Explained (r.onSinkResult result) (own ++ if result = .accepted then [c] else []) := by
  have hreads : r.reads = own.map CollectedEvent.event ++ [c.event] := by
    rw [hrunning.reads, hcaptured, List.map_append]
    rfl
  have hwhole : AcceptedWhole r.reads := by
    rw [hrunning.reads]
    exact hvalidated.whole
  refine ⟨validated_onSinkResult hvalidated result, fun status hstatus => ?_⟩
  cases result with
  | accepted =>
    simp only [StreamReactor.onSinkResult, hrunning.finished] at hstatus
    cases hstatus
  | overloaded | unavailable =>
    rw [if_neg (by decide), List.append_nil]
    simp only [StreamReactor.onSinkResult, StreamReactor.finish, hrunning.finished, List.nil_append,
      List.mem_singleton] at hstatus
    rw [hstatus]
    exact ⟨c.event, hreads, hwhole⟩

/-! ### Every stream -/

/-- Every call of the collector. -/
def AllExplained (s : Collector Stream) : Prop :=
  ∀ i r, s.streams i = some r → Explained r (s.acknowledged i)

theorem explained_withStream {s : Collector Stream} (sink : QueuedSink Stream CollectedEvent)
    {i : Stream} (hs : AllExplained s) (hr : Explained r (acknowledged { s with sink := sink } i))
    (hother : ∀ j, j ≠ i → acknowledged { s with sink := sink } j = s.acknowledged j) :
    AllExplained ({ s with sink := sink }.withStream i r) := by
  intro j q hq
  by_cases hj : j = i
  · subst hj
    simp only [withStream, Function.update_self, Option.some.injEq] at hq
    rw [← hq]
    exact hr
  · simp only [withStream, Function.update_of_ne hj] at hq
    have hsame := hs j q hq
    rw [← hother j hj] at hsame
    exact hsame

/-- **Every step** keeps the statuses true. -/
theorem explained_step {s t : Collector Stream} {a : Collector.Action Stream} (hc : s.Consistent)
    (hs : AllExplained s) (h : s.step pb a = some t) : AllExplained t := by
  cases step_moves h with
  | streamTelemetry i hnew =>
    exact explained_withStream s.sink hs (explained_running validated_create rfl) fun _ _ => rfl
  | read i r event now hr hphase =>
    exact explained_withStream s.sink hs
      (explained_onReadDone event now (hc.stream i r hr) (hs i r hr).validated hphase) fun _ _ => rfl
  | ended i r hr hphase =>
    exact explained_withStream s.sink hs
      (explained_onReadEnded (hc.stream i r hr) (hs i r hr).validated hphase) fun _ _ => rfl
  | loaded i r c seen sink hr hphase hsink =>
    obtain ⟨_, rfl⟩ | ⟨hnone, _⟩ := QueuedSink.load_cases hsink
    · obtain ⟨hrunning, _⟩ := StreamReactor.place_offering (hc.stream i r hr) hphase
      obtain ⟨hwhole, hvalidator⟩ := (hs i r hr).validated
      exact explained_withStream _ hs (explained_running ⟨hwhole, hvalidator⟩ hrunning.finished)
        fun _ _ => rfl
    · cases hnone
  | refused i r c seen result sink hr hphase hsink =>
    obtain ⟨hnone, _⟩ | ⟨hsome, rfl⟩ := QueuedSink.load_cases hsink
    · cases hnone
    · obtain ⟨hrunning, hcaptured, _⟩ :=
        StreamReactor.place_offering (hc.stream i r hr) hphase
      cases hsome
      refine explained_withStream _ hs ?_ fun j hj => acknowledged_other rfl hj
      rw [acknowledged_append (s := s) rfl]
      simp only [true_and]
      exact explained_onSinkResult .unavailable (hs i r hr).validated hrunning hcaptured
  | pushed i r result sink hr hphase hsink =>
    obtain ⟨hrunning, c, hcaptured, hpending⟩ :=
      StreamReactor.place_pushing (hc.stream i r hr) hphase
    obtain ⟨c', hpending', rfl, rfl⟩ := QueuedSink.push_cases hsink
    cases hpending.symm.trans hpending'
    refine explained_withStream _ hs ?_ fun j hj => acknowledged_other rfl hj
    rw [acknowledged_append (s := s) rfl]
    simp only [true_and]
    exact explained_onSinkResult _ (hs i r hr).validated hrunning hcaptured
  | consume c sink hconsuming hsink =>
    obtain ⟨_, _, rfl⟩ := QueuedSink.consumeReturns_cases hsink
    exact hs
  | background sink hsink =>
    obtain ⟨_, hanswers, _⟩ := QueuedSink.background_cases hsink
    intro j q hq
    rw [acknowledged, hanswers]
    exact hs j q hq

theorem explained_start (queue : BoundedQueue CollectedEvent) (writer : LogWriter) :
    AllExplained (Collector.start queue writer : Collector Stream) := fun _ _ h => by cases h

end TraceForge.Pipeline
