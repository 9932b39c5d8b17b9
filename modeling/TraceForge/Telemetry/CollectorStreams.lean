import TraceForge.Telemetry.CollectorService
import TraceForge.Telemetry.QueuedSinkProofs

/-! The collector's steps, and its streams in every run.

A step moves one stream, the consumer or the sink alone (`step_moves`). The sink takes its own
steps in a run of the collector (`sinkView`), so what the sink conserves holds of it here. Each
stream's reactor stands where its answers put it (`StreamReactor.Consistent`): its validator tracks
what it captured, and what it captured are the events it was acknowledged and the one in its
hands. -/
namespace TraceForge.Telemetry
open Library Concurrency Recording

/-! ### Sink steps that touch no caller -/

namespace QueuedSink

variable {Caller Event : Type}

/-- The consumer and `shutdown` answer nobody. -/
theorem background_cases {s t : QueuedSink Caller Event}
    (h : s.pop = some t ∨ s.call = some t ∨ s.advance = some t ∨ s.shutdownStep = some t) :
    t.callers = s.callers ∧ t.answers = s.answers ∧ t.returns = s.returns := by
  rcases h with h | h | h | h
  · obtain ⟨_, ⟨_, _, rfl⟩ | ⟨_, _, _, _, _, rfl⟩⟩ := pop_cases h <;> exact ⟨rfl, rfl, rfl⟩
  · obtain ⟨_, _, rfl⟩ := call_cases h
    exact ⟨rfl, rfl, rfl⟩
  · rcases advance_cases h with ⟨_, rfl⟩ | ⟨_, rfl⟩ | ⟨_, rfl⟩ | ⟨_, rfl⟩ <;> exact ⟨rfl, rfl, rfl⟩
  · rcases shutdownStep_cases h with ⟨_, rfl⟩ | ⟨_, rfl⟩ | ⟨_, _, rfl⟩ <;> exact ⟨rfl, rfl, rfl⟩

end QueuedSink

variable {pb : Protobuf}

/-! ### One step of the collector -/

namespace Collector

variable {Stream : Type} [DecidableEq Stream]

/-- The consumer or `shutdown` moves in the sink and nothing else does. -/
def Background (sink next : QueuedSink Stream CollectedEvent) : Prop :=
  sink.pop = some next ∨ sink.call = some next ∨ sink.advance = some next ∨
    sink.shutdownStep = some next

/-- All that a step can be: one stream moves, alone or through the sink, or the consumer appends,
or the sink moves in the background. -/
inductive Moves (pb : Protobuf) (s : Collector Stream) : Collector Stream → Prop where
  | streamTelemetry (i : Stream) (hnew : s.streams i = none) : Moves pb s (s.withStream i (.create {}))
  | read (i : Stream) (r : StreamReactor) (event : TelemetryEvent) (now : Int64)
      (hr : s.streams i = some r) (hphase : r.phase = .reading) :
      Moves pb s (s.withStream i (r.onReadDone event now))
  | ended (i : Stream) (r : StreamReactor) (hr : s.streams i = some r)
      (hphase : r.phase = .reading) : Moves pb s (s.withStream i r.onReadEnded)
  | loaded (i : Stream) (r : StreamReactor) (c : CollectedEvent) (seen : Bool)
      (sink : QueuedSink Stream CollectedEvent) (hr : s.streams i = some r)
      (hphase : r.phase = .offering c) (hsink : s.sink.load i c seen = some (none, sink)) :
      Moves pb s ({s with sink := sink}.withStream i {r with phase := .pushing})
  | refused (i : Stream) (r : StreamReactor) (c : CollectedEvent) (seen : Bool)
      (result : SinkResult) (sink : QueuedSink Stream CollectedEvent) (hr : s.streams i = some r)
      (hphase : r.phase = .offering c)
      (hsink : s.sink.load i c seen = some (some result, sink)) :
      Moves pb s ({s with sink := sink}.withStream i (r.onSinkResult result))
  | pushed (i : Stream) (r : StreamReactor) (result : SinkResult)
      (sink : QueuedSink Stream CollectedEvent) (hr : s.streams i = some r)
      (hphase : r.phase = .pushing) (hsink : s.sink.push i = some (result, sink)) :
      Moves pb s ({s with sink := sink}.withStream i (r.onSinkResult result))
  | consume (c : CollectedEvent) (sink : QueuedSink Stream CollectedEvent)
      (hconsuming : s.sink.consumer = .consuming c)
      (hsink : s.sink.consumeReturns
        (s.writer.append pb c.event c.collectorArrivalTimestampNs).1 = some sink) :
      Moves pb s {s with
        sink := sink
        writer := (s.writer.append pb c.event c.collectorArrivalTimestampNs).2}
  | background (sink : QueuedSink Stream CollectedEvent) (hsink : Background s.sink sink) :
      Moves pb s {s with sink := sink}

theorem step_moves {s t : Collector Stream} {a : Action Stream} (h : s.step pb a = some t) :
    Moves pb s t := by
  cases a with
  | streamTelemetry i =>
    simp only [step, streamTelemetry] at h
    split at h
    · cases h
    · rename_i hnew
      cases h
      exact .streamTelemetry i hnew
  | read i event now =>
    simp only [step, read] at h
    split at h
    · cases h
    rename_i r hr
    split at h
    · rename_i hphase
      cases h
      cases event with
      | none => exact .ended i r hr hphase
      | some event => exact .read i r event now hr hphase
    · cases h
  | load i seen =>
    simp only [step, load] at h
    split at h
    · cases h
    rename_i r hr
    split at h
    · rename_i c hphase
      obtain ⟨⟨answer, sink⟩, hsink, rfl⟩ := Option.map_eq_some_iff.mp h
      cases answer with
      | none => exact .loaded i r c seen sink hr hphase hsink
      | some result => exact .refused i r c seen result sink hr hphase hsink
    · cases h
  | push i =>
    simp only [step, push] at h
    split at h
    · cases h
    rename_i r hr
    split at h
    · rename_i hphase
      obtain ⟨⟨result, sink⟩, hsink, rfl⟩ := Option.map_eq_some_iff.mp h
      exact .pushed i r result sink hr hphase hsink
    · cases h
  | pop =>
    obtain ⟨sink, hsink, rfl⟩ := Option.map_eq_some_iff.mp h
    exact .background sink (.inl hsink)
  | call =>
    obtain ⟨sink, hsink, rfl⟩ := Option.map_eq_some_iff.mp h
    exact .background sink (.inr (.inl hsink))
  | consume =>
    simp only [step, consume] at h
    split at h
    · rename_i c hconsuming
      obtain ⟨sink, hsink, rfl⟩ := Option.map_eq_some_iff.mp h
      exact .consume c sink hconsuming hsink
    · cases h
  | advance =>
    obtain ⟨sink, hsink, rfl⟩ := Option.map_eq_some_iff.mp h
    exact .background sink (.inr (.inr (.inl hsink)))
  | shutdown =>
    obtain ⟨sink, hsink, rfl⟩ := Option.map_eq_some_iff.mp h
    exact .background sink (.inr (.inr (.inr hsink)))

/-! ### The sink's own steps -/

/-- A step of the sink as a run of its machine. -/
theorem sink_run {queue : BoundedQueue CollectedEvent} {sink next : QueuedSink Stream CollectedEvent}
    (a : QueuedSink.Action Stream CollectedEvent) (h : sink.step a = some next) :
    ∃ actions, (QueuedSink.machine queue).run sink actions = some next := by
  refine ⟨[a], ?_⟩
  rw [Machine.run_cons (m := QueuedSink.machine queue) [] h]
  rfl

/-- The collector seen as its sink. -/
def sinkView (pb : Protobuf) (queue : BoundedQueue CollectedEvent) (writer : LogWriter) :
    Machine.Projection (machine pb queue writer : Machine (Collector Stream) (Action Stream))
      (QueuedSink.machine queue :
        Machine (QueuedSink Stream CollectedEvent) (QueuedSink.Action Stream CollectedEvent)) where
  view s := s.sink
  init := rfl
  step := by
    intro s a t h
    cases step_moves h with
    | streamTelemetry | read | ended => exact ⟨[], rfl⟩
    | loaded i r c seen sink hr hphase hsink =>
      exact sink_run (.load i c seen) (by rw [QueuedSink.step, hsink]; rfl)
    | refused i r c seen result sink hr hphase hsink =>
      exact sink_run (.load i c seen) (by rw [QueuedSink.step, hsink]; rfl)
    | pushed i r result sink hr hphase hsink =>
      exact sink_run (.push i) (by rw [QueuedSink.step, hsink]; rfl)
    | consume c sink hconsuming hsink => exact sink_run (.consumeReturns _) hsink
    | background sink hsink =>
      rcases hsink with hsink | hsink | hsink | hsink
      · exact sink_run .pop hsink
      · exact sink_run .call hsink
      · exact sink_run .advance hsink
      · exact sink_run .shutdown hsink

end Collector

/-! ### One stream against its answers -/

namespace StreamReactor

/-- A reactor that has not returned: everything read was valid and captured, and nothing has been
said to the client. -/
structure Running (r : StreamReactor) : Prop where
  reads : r.reads = r.captured.map CollectedEvent.event
  finished : r.finished = []
  response : r.response = {}

/-- Where a reactor stands when the sink has accepted `own` from it and holds `pending` of it in
`try_accept`. -/
def Place (r : StreamReactor) (own : List CollectedEvent) (pending : Option CollectedEvent) :
    Prop :=
  match r.phase with
  | .reading => r.Running ∧ r.captured = own ∧ pending = none
  | .offering c => r.Running ∧ r.captured = own ++ [c] ∧ pending = none
  | .pushing => r.Running ∧ ∃ c, r.captured = own ++ [c] ∧ pending = some c
  | .returned => own <+: r.captured ∧ r.captured.map CollectedEvent.event <+: r.reads ∧
      pending = none ∧ ∃ status, r.finished = [status] ∧
        (status = .ok → r.captured = own ∧ r.response = r.validator.populateSummary {})

structure Consistent (r : StreamReactor) (own : List CollectedEvent)
    (pending : Option CollectedEvent) : Prop where
  tracks : r.captured.length < 2 ^ 64 →
    r.validator.Tracks (r.captured.map CollectedEvent.event)
  acceptable : ∀ c ∈ r.captured, c.event.Acceptable
  place : r.Place own pending

variable {r : StreamReactor} {own : List CollectedEvent} {pending : Option CollectedEvent}

theorem consistent_create : (create {}).Consistent [] none where
  tracks := fun _ => StreamValidator.tracks_start
  acceptable := fun _ h => absurd h List.not_mem_nil
  place := ⟨⟨rfl, rfl, rfl⟩, rfl, rfl⟩

theorem place_reading (hr : r.Consistent own pending) (hphase : r.phase = .reading) :
    r.Running ∧ r.captured = own ∧ pending = none := by
  have hplace := hr.place
  rwa [Place, hphase] at hplace

theorem place_offering {c : CollectedEvent} (hr : r.Consistent own pending)
    (hphase : r.phase = .offering c) :
    r.Running ∧ r.captured = own ++ [c] ∧ pending = none := by
  have hplace := hr.place
  rwa [Place, hphase] at hplace

theorem place_pushing (hr : r.Consistent own pending) (hphase : r.phase = .pushing) :
    r.Running ∧ ∃ c, r.captured = own ++ [c] ∧ pending = some c := by
  have hplace := hr.place
  rwa [Place, hphase] at hplace

theorem place_returned (hr : r.Consistent own pending) (hphase : r.phase = .returned) :
    own <+: r.captured ∧ r.captured.map CollectedEvent.event <+: r.reads ∧
      pending = none ∧ ∃ status, r.finished = [status] ∧
        (status = .ok → r.captured = own ∧ r.response = r.validator.populateSummary {}) := by
  have hplace := hr.place
  rwa [Place, hphase] at hplace

/-- In every phase what the sink accepted was captured first, and what was captured was read. -/
theorem own_captured (hr : r.Consistent own pending) :
    own <+: r.captured ∧ r.captured.map CollectedEvent.event <+: r.reads := by
  cases hphase : r.phase with
  | reading =>
    obtain ⟨hrunning, hcaptured, _⟩ := place_reading hr hphase
    exact ⟨hcaptured ▸ List.prefix_rfl, hrunning.reads ▸ List.prefix_rfl⟩
  | offering c =>
    obtain ⟨hrunning, hcaptured, _⟩ := place_offering hr hphase
    exact ⟨⟨[c], hcaptured.symm⟩, hrunning.reads ▸ List.prefix_rfl⟩
  | pushing =>
    obtain ⟨hrunning, c, hcaptured, _⟩ := place_pushing hr hphase
    exact ⟨⟨[c], hcaptured.symm⟩, hrunning.reads ▸ List.prefix_rfl⟩
  | returned =>
    obtain ⟨hown, hreads, _⟩ := place_returned hr hphase
    exact ⟨hown, hreads⟩

/-- An error ends the stream. -/
theorem consistent_finish {status : Status}
    (htracks : r.captured.length < 2 ^ 64 →
      r.validator.Tracks (r.captured.map CollectedEvent.event))
    (hacceptable : ∀ c ∈ r.captured, c.event.Acceptable) (hown : own <+: r.captured)
    (hreads : r.captured.map CollectedEvent.event <+: r.reads) (hfinished : r.finished = [])
    (hstatus : status ≠ .ok) : (r.finish status).Consistent own none := by
  refine ⟨htracks, hacceptable, hown, hreads, rfl, status, ?_, fun h => absurd h hstatus⟩
  rw [finish, hfinished]
  rfl

/-- **A read**: an invalid event ends the stream, a valid one is tracked and offered. -/
theorem consistent_onReadDone (event : TelemetryEvent) (now : Int64)
    (hr : r.Consistent own pending) (hphase : r.phase = .reading) :
    (r.onReadDone event now).Consistent own pending := by
  obtain ⟨hrunning, hcaptured, hpending⟩ := place_reading hr hphase
  rcases r.validator.accept_cases event with ⟨hevent, hnext, haccept⟩ | ⟨_, hrejected, herror, hsame⟩
  · have hdone : r.onReadDone event now = {r with
        validator := r.validator.count event
        reads := r.reads ++ [event]
        phase := .offering ⟨event, now⟩
        captured := r.captured ++ [⟨event, now⟩]} := by
      simp only [onReadDone, haccept]
      rfl
    rw [hdone]
    refine ⟨fun hlt => ?_, fun c hc => ?_, ⟨⟨?_, hrunning.finished, hrunning.response⟩, ?_, hpending⟩⟩
    · rw [List.length_append, List.length_singleton] at hlt
      rw [List.map_append]
      refine StreamValidator.tracks_count (hr.tracks (by omega)) hevent hnext ?_
      rwa [List.length_map]
    · rcases List.mem_append.mp hc with hc | hc
      · exact hr.acceptable c hc
      · rw [List.mem_singleton.mp hc]
        exact hevent
    · simp only [List.map_append, hrunning.reads]
      rfl
    · simp only [hcaptured]
  · have hdone : r.onReadDone event now =
        {r with reads := r.reads ++ [event]}.finish
          ⟨.invalidArgument, (r.validator.accept event).1.error⟩ := by
      simp only [onReadDone, hrejected, hsame]
      rfl
    rw [hdone, hpending]
    refine consistent_finish hr.tracks hr.acceptable ?_ ?_ hrunning.finished fun h => by cases h
    · exact hcaptured ▸ List.prefix_rfl
    · rw [hrunning.reads]
      exact List.prefix_append _ _

theorem consistent_onReadEnded (hr : r.Consistent own pending) (hphase : r.phase = .reading) :
    r.onReadEnded.Consistent own pending := by
  obtain ⟨hrunning, hcaptured, hpending⟩ := place_reading hr hphase
  refine ⟨hr.tracks, hr.acceptable, hcaptured ▸ List.prefix_rfl,
    hrunning.reads ▸ List.prefix_rfl, hpending, .ok, ?_, fun _ => ⟨hcaptured, ?_⟩⟩
  · simp only [onReadEnded, finish, hrunning.finished]
    rfl
  · simp only [onReadEnded, finish, hrunning.response]

theorem consistent_pushing {c : CollectedEvent} (hr : r.Consistent own pending)
    (hphase : r.phase = .offering c) :
    ({r with phase := .pushing} : StreamReactor).Consistent own (some c) := by
  obtain ⟨hrunning, hcaptured, _⟩ := place_offering hr hphase
  exact ⟨hr.tracks, hr.acceptable, ⟨hrunning.reads, hrunning.finished, hrunning.response⟩, c,
    hcaptured, rfl⟩

/-- **An answer** of the sink on the event captured last: accepted, it is the stream's own and the
next read starts; otherwise the stream ends. -/
theorem consistent_onSinkResult {c : CollectedEvent} (result : SinkResult)
    (hr : r.Consistent own pending) (hrunning : r.Running) (hcaptured : r.captured = own ++ [c]) :
    (r.onSinkResult result).Consistent (own ++ if result = .accepted then [c] else []) none := by
  have hfinish (status : Status) (hstatus : status ≠ .ok) : (r.finish status).Consistent own none :=
    consistent_finish hr.tracks hr.acceptable ⟨[c], hcaptured.symm⟩
      (hrunning.reads ▸ List.prefix_rfl) hrunning.finished hstatus
  cases result with
  | accepted =>
    exact ⟨hr.tracks, hr.acceptable, ⟨hrunning.reads, hrunning.finished, hrunning.response⟩,
      hcaptured, rfl⟩
  | overloaded =>
    rw [if_neg (by decide), List.append_nil]
    exact hfinish _ (by decide)
  | unavailable =>
    rw [if_neg (by decide), List.append_nil]
    exact hfinish _ (by decide)

end StreamReactor

/-! ### Every stream -/

namespace Collector

variable {Stream : Type} [DecidableEq Stream]

/-- Every stream stands where its answers put it. -/
structure Consistent (s : Collector Stream) : Prop where
  stream : ∀ i r, s.streams i = some r → r.Consistent (s.acknowledged i) (s.sink.callers i)
  absent : ∀ i, s.streams i = none → s.acknowledged i = [] ∧ s.sink.callers i = none

theorem consistent_start (queue : BoundedQueue CollectedEvent) (writer : LogWriter) :
    (start queue writer : Collector Stream).Consistent where
  stream := fun _ _ h => by cases h
  absent := fun _ _ => ⟨rfl, rfl⟩

theorem acknowledged_append {s t : Collector Stream} {i : Stream} {c : CollectedEvent}
    {result : SinkResult} (h : t.sink.answers = s.sink.answers ++ [(i, c, result)]) (j : Stream) :
    t.acknowledged j =
      s.acknowledged j ++ if i = j ∧ result = .accepted then [c] else [] := by
  rw [acknowledged, h]
  by_cases hown : i = j ∧ result = .accepted
  · simp [acknowledged, hown]
  · simp [acknowledged, hown]

/-- An answer on stream `i` leaves what the others are acknowledged. -/
theorem acknowledged_other {s t : Collector Stream} {i : Stream} {c : CollectedEvent}
    {result : SinkResult} (h : t.sink.answers = s.sink.answers ++ [(i, c, result)]) {j : Stream}
    (hj : j ≠ i) : t.acknowledged j = s.acknowledged j := by
  rw [acknowledged_append h, if_neg fun hij => hj hij.1.symm, List.append_nil]

/-- A step of one stream: it is consistent afterwards, and the others are left alone. -/
theorem consistent_withStream {s : Collector Stream}
    (sink : QueuedSink Stream CollectedEvent) {i : Stream} {r : StreamReactor} (hs : s.Consistent)
    (hr : r.Consistent (acknowledged {s with sink := sink} i) (sink.callers i))
    (hother : ∀ j, j ≠ i → acknowledged {s with sink := sink} j = s.acknowledged j ∧
      sink.callers j = s.sink.callers j) :
    ({s with sink := sink}.withStream i r).Consistent where
  stream := by
    intro j q hq
    by_cases hj : j = i
    · subst hj
      simp only [withStream, Function.update_self, Option.some.injEq] at hq
      rw [← hq]
      exact hr
    · simp only [withStream, Function.update_of_ne hj] at hq
      obtain ⟨hack, hcaller⟩ := hother j hj
      have hsame := hs.stream j q hq
      rw [← hack, ← hcaller] at hsame
      exact hsame
  absent := by
    intro j hq
    by_cases hj : j = i
    · subst hj
      simp only [withStream, Function.update_self] at hq
      cases hq
    · simp only [withStream, Function.update_of_ne hj] at hq
      obtain ⟨hack, hcaller⟩ := hother j hj
      have hsame := hs.absent j hq
      rw [← hack, ← hcaller] at hsame
      exact hsame

theorem consistent_step {s t : Collector Stream} {a : Action Stream} (hs : s.Consistent)
    (h : s.step pb a = some t) : t.Consistent := by
  cases step_moves h with
  | streamTelemetry i hnew =>
    refine consistent_withStream s.sink hs ?_ fun _ _ => ⟨rfl, rfl⟩
    obtain ⟨hack, hcaller⟩ := hs.absent i hnew
    have hcreate := StreamReactor.consistent_create
    rw [← hack, ← hcaller] at hcreate
    exact hcreate
  | read i r event now hr hphase =>
    refine consistent_withStream s.sink hs ?_ fun _ _ => ⟨rfl, rfl⟩
    exact StreamReactor.consistent_onReadDone event now (hs.stream i r hr) hphase
  | ended i r hr hphase =>
    refine consistent_withStream s.sink hs ?_ fun _ _ => ⟨rfl, rfl⟩
    exact StreamReactor.consistent_onReadEnded (hs.stream i r hr) hphase
  | loaded i r c seen sink hr hphase hsink =>
    obtain ⟨_, rfl⟩ | ⟨hnone, _⟩ := QueuedSink.load_cases hsink
    · refine consistent_withStream _ hs ?_ fun j hj => ⟨rfl, Function.update_of_ne hj _ _⟩
      simp only [Function.update_self]
      exact StreamReactor.consistent_pushing (hs.stream i r hr) hphase
    · cases hnone
  | refused i r c seen result sink hr hphase hsink =>
    obtain ⟨hnone, _⟩ | ⟨hsome, rfl⟩ := QueuedSink.load_cases hsink
    · cases hnone
    · obtain ⟨hrunning, hcaptured, hpending⟩ :=
        StreamReactor.place_offering (hs.stream i r hr) hphase
      cases hsome
      refine consistent_withStream _ hs ?_ fun j hj => ⟨acknowledged_other rfl hj, rfl⟩
      rw [acknowledged_append (s := s) rfl]
      simp only [hpending, true_and]
      exact StreamReactor.consistent_onSinkResult .unavailable (hs.stream i r hr) hrunning hcaptured
  | pushed i r result sink hr hphase hsink =>
    obtain ⟨hrunning, c, hcaptured, hpending⟩ :=
      StreamReactor.place_pushing (hs.stream i r hr) hphase
    obtain ⟨c', hpending', rfl, rfl⟩ := QueuedSink.push_cases hsink
    cases hpending.symm.trans hpending'
    refine consistent_withStream _ hs ?_
      fun j hj => ⟨acknowledged_other rfl hj, Function.update_of_ne hj _ _⟩
    rw [acknowledged_append (s := s) rfl]
    simp only [Function.update_self, true_and]
    exact StreamReactor.consistent_onSinkResult _ (hs.stream i r hr) hrunning hcaptured
  | consume c sink hconsuming hsink =>
    obtain ⟨_, _, rfl⟩ := QueuedSink.consumeReturns_cases hsink
    exact ⟨hs.stream, hs.absent⟩
  | background sink hsink =>
    obtain ⟨hcallers, hanswers, _⟩ := QueuedSink.background_cases hsink
    have hack (j : Stream) : acknowledged {s with sink := sink} j = s.acknowledged j := by
      rw [acknowledged, hanswers]
      rfl
    refine ⟨fun j r hr => ?_, fun j hnew => ?_⟩
    · rw [hack, hcallers]
      exact hs.stream j r hr
    · rw [hack, hcallers]
      exact hs.absent j hnew

/-- A stream that has returned is not heard of again. -/
theorem returned_step {s t : Collector Stream} {a : Action Stream} {i : Stream}
    {r : StreamReactor} (hr : s.streams i = some r) (hphase : r.phase = .returned)
    (h : s.step pb a = some t) :
    t.streams i = some r ∧ ∃ later, t.sink.answers = s.sink.answers ++ later ∧
      ∀ answer ∈ later, answer.1 ≠ i := by
  have hother {j : Stream} {q : StreamReactor} (hq : s.streams j = some q) (hne : q.phase ≠ .returned) :
      i ≠ j := by
    rintro rfl
    cases hr.symm.trans hq
    exact hne hphase
  have hnothing : ∃ later, s.sink.answers = s.sink.answers ++ later ∧
      ∀ answer ∈ later, answer.1 ≠ i :=
    ⟨[], (List.append_nil _).symm, fun _ h => absurd h List.not_mem_nil⟩
  have hone (j : Stream) (c : CollectedEvent) (result : SinkResult) (hj : i ≠ j) :
      ∃ later, s.sink.answers ++ [(j, c, result)] = s.sink.answers ++ later ∧
        ∀ answer ∈ later, answer.1 ≠ i :=
    ⟨_, rfl, fun answer ha => by rw [List.mem_singleton.mp ha]; exact hj.symm⟩
  cases step_moves h with
  | streamTelemetry j hnew =>
    have hj : i ≠ j := by
      rintro rfl
      rw [hr] at hnew
      cases hnew
    exact ⟨(Function.update_of_ne hj _ _).trans hr, hnothing⟩
  | read j q event now hq hreading | ended j q hq hreading =>
    have hj := hother hq (by rw [hreading]; decide)
    exact ⟨(Function.update_of_ne hj _ _).trans hr, hnothing⟩
  | loaded j q c seen sink hq hoffering hsink | refused j q c seen result sink hq hoffering hsink =>
    have hj := hother hq (by rw [hoffering]; exact fun h => by cases h)
    refine ⟨(Function.update_of_ne hj _ _).trans hr, ?_⟩
    rcases QueuedSink.load_cases hsink with ⟨_, rfl⟩ | ⟨_, rfl⟩
    · exact hnothing
    · exact hone j c .unavailable hj
  | pushed j q result sink hq hpushing hsink =>
    have hj := hother hq (by rw [hpushing]; decide)
    refine ⟨(Function.update_of_ne hj _ _).trans hr, ?_⟩
    obtain ⟨c, _, _, rfl⟩ := QueuedSink.push_cases hsink
    exact hone j c _ hj
  | consume c sink hconsuming hsink =>
    obtain ⟨_, _, rfl⟩ := QueuedSink.consumeReturns_cases hsink
    exact ⟨hr, hnothing⟩
  | background sink hsink =>
    refine ⟨hr, ?_⟩
    show ∃ later, sink.answers = _ ++ later ∧ _
    rw [(QueuedSink.background_cases hsink).2.1]
    exact hnothing

/-! ### Every run -/

variable {queue : BoundedQueue CollectedEvent} {writer : LogWriter}

theorem consistent_reachable {s : Collector Stream} (h : (machine pb queue writer).Reachable s) :
    s.Consistent :=
  Machine.reachable_invariant Consistent (consistent_start queue writer)
    (fun _ _ _ hs hstep => consistent_step hs hstep) h

theorem returned_run {s t : Collector Stream} {actions : List (Action Stream)} {i : Stream}
    {r : StreamReactor} (hr : s.streams i = some r) (hphase : r.phase = .returned)
    (h : (machine pb queue writer).run s actions = some t) :
    t.streams i = some r ∧ ∃ later, t.sink.answers = s.sink.answers ++ later ∧
      ∀ answer ∈ later, answer.1 ≠ i := by
  refine Machine.run_invariant (m := machine pb queue writer)
    (fun u => u.streams i = some r ∧ ∃ later, u.sink.answers = s.sink.answers ++ later ∧
      ∀ answer ∈ later, answer.1 ≠ i) ?_
    ⟨hr, [], (List.append_nil _).symm, fun _ h => absurd h List.not_mem_nil⟩ h
  rintro u a v ⟨hu, later, hanswers, hlater⟩ hstep
  obtain ⟨hv, more, hmore, hothers⟩ := returned_step hu hphase hstep
  refine ⟨hv, later ++ more, ?_, fun answer ha => ?_⟩
  · rw [hmore, hanswers, List.append_assoc]
  · rcases List.mem_append.mp ha with ha | ha
    · exact hlater answer ha
    · exact hothers answer ha

/-! ### What was acknowledged -/

/-- An event accepted from some stream is one that stream was acknowledged. -/
theorem acknowledged_mem {s : Collector Stream} {c : CollectedEvent}
    (hc : c ∈ s.sink.acknowledged) : ∃ i, c ∈ s.acknowledged i := by
  obtain ⟨⟨i, c', result⟩, hanswer, rfl⟩ := List.mem_map.mp hc
  obtain ⟨hmem, hresult⟩ := List.mem_filter.mp hanswer
  refine ⟨i, List.mem_map.mpr ⟨(i, c', result), List.mem_filter.mpr ⟨hmem, ?_⟩, rfl⟩⟩
  simpa using hresult

theorem acknowledged_length_le (s : Collector Stream) (i : Stream) :
    (s.acknowledged i).length ≤ s.sink.acknowledged.length := by
  rw [acknowledged, QueuedSink.acknowledged, List.length_map, List.length_map,
    ← List.countP_eq_length_filter, ← List.countP_eq_length_filter]
  refine List.countP_mono_left fun answer _ h => ?_
  simp only [decide_eq_true_eq] at h ⊢
  exact h.2

/-- Whatever was acknowledged is acceptable and was read on some stream. -/
theorem acknowledged_captured {s : Collector Stream} (hs : s.Consistent) {c : CollectedEvent}
    (hc : c ∈ s.sink.acknowledged) :
    c.event.Acceptable ∧ ∃ i r, s.streams i = some r ∧ c.event ∈ r.reads := by
  obtain ⟨i, hi⟩ := acknowledged_mem hc
  cases hr : s.streams i with
  | none =>
    rw [(hs.absent i hr).1] at hi
    cases hi
  | some r =>
    obtain ⟨hown, hreads⟩ := StreamReactor.own_captured (hs.stream i r hr)
    have hcaptured := hown.subset hi
    exact ⟨(hs.stream i r hr).acceptable c hcaptured, i, r, hr,
      hreads.subset (List.mem_map.mpr ⟨c, hcaptured, rfl⟩)⟩

end Collector

end TraceForge.Telemetry
