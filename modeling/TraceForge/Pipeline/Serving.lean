import TraceForge.Pipeline.Views
import TraceForge.Telemetry.QueuedSinkRuns

/-! A step of a collector, whatever is behind its queue.

What every step of the sink preserves, every step of the collector preserves (`serve_invariant`). A
call is there from its `StreamTelemetry` on (`serve_streams`) and stays as it is once it has ended
(`serve_returned`). Every step but an event's arrival uses up some of what the calls and the sink
have left to do (`serve_less`), and until they have done it there is one to take. -/
namespace TraceForge.Pipeline
open Library Concurrency Telemetry Recording

variable {pb : Protobuf} {behind : Behind}

section Serve
variable {s t : Collector ℕ} {a : Collector.Action ℕ}

/-- What every step of the sink preserves, every step around it preserves. -/
theorem serve_invariant (inv : QueuedSink ℕ CollectedEvent → Prop)
    (hstep : ∀ sink b next, inv sink → sink.step b = some next → inv next) (hs : inv s.sink)
    (h : serve pb behind s a = some t) : inv t.sink := by
  rcases serve_cases h with hown | ⟨sink, _, _, hsink, rfl⟩
  · obtain ⟨actions, hrun⟩ := (Collector.sinkView pb s.sink.queue s.writer).step s a t hown
    exact Machine.run_invariant inv hstep hs hrun
  · exact hstep s.sink (.consumeReturns true) sink hs hsink

/-- Only `shutdown` takes the sink's shutdown further. -/
theorem serve_shutdown (ha : a ≠ .shutdown) (h : serve pb behind s a = some t) :
    t.sink.shutdown = s.sink.shutdown ∧ t.sink.shutdowns = s.sink.shutdowns := by
  rcases serve_cases h with hown | ⟨sink, _, _, hsink, rfl⟩
  · cases a with
    | streamTelemetry i =>
      obtain ⟨_, rfl⟩ := streamTelemetry_cases hown
      exact ⟨rfl, rfl⟩
    | read i event now =>
      obtain ⟨_, _, _, rfl⟩ := read_cases hown
      exact ⟨rfl, rfl⟩
    | load i seen =>
      obtain ⟨_, _, _, _, rfl | rfl⟩ := load_cases hown <;> exact ⟨rfl, rfl⟩
    | push i =>
      simp only [Collector.step, Collector.push] at hown
      split at hown
      · cases hown
      split at hown
      · obtain ⟨⟨_, _⟩, hpush, rfl⟩ := Option.map_eq_some_iff.mp hown
        obtain ⟨_, _, _, rfl⟩ := QueuedSink.push_cases hpush
        exact ⟨rfl, rfl⟩
      · cases hown
    | pop =>
      obtain ⟨sink, hsink, rfl⟩ := Option.map_eq_some_iff.mp hown
      obtain ⟨_, ⟨_, _, rfl⟩ | ⟨_, _, _, _, _, rfl⟩⟩ := QueuedSink.pop_cases hsink <;>
        exact ⟨rfl, rfl⟩
    | call =>
      obtain ⟨sink, hsink, rfl⟩ := Option.map_eq_some_iff.mp hown
      obtain ⟨_, _, rfl⟩ := QueuedSink.call_cases hsink
      exact ⟨rfl, rfl⟩
    | consume =>
      simp only [Collector.step, Collector.consume] at hown
      split at hown
      · obtain ⟨sink, hsink, rfl⟩ := Option.map_eq_some_iff.mp hown
        obtain ⟨_, _, rfl⟩ := QueuedSink.consumeReturns_cases hsink
        exact ⟨rfl, rfl⟩
      · cases hown
    | advance =>
      obtain ⟨sink, hsink, rfl⟩ := Option.map_eq_some_iff.mp hown
      rcases QueuedSink.advance_cases hsink with ⟨_, rfl⟩ | ⟨_, rfl⟩ | ⟨_, rfl⟩ | ⟨_, rfl⟩ <;>
        exact ⟨rfl, rfl⟩
    | shutdown => exact absurd rfl ha
  · obtain ⟨_, _, rfl⟩ := QueuedSink.consumeReturns_cases hsink
    exact ⟨rfl, rfl⟩

/-- A call that has ended is left as it is. -/
theorem serve_returned {i : ℕ} {r : StreamReactor} (hr : s.streams i = some r)
    (hphase : r.phase = .returned) (h : serve pb behind s a = some t) : t.streams i = some r := by
  rcases serve_cases h with hown | ⟨sink, _, _, hsink, rfl⟩
  · exact (Collector.returned_step hr hphase hown).1
  · exact hr

/-- Streams are only added, by their calls. -/
theorem serve_streams (i : ℕ) (h : serve pb behind s a = some t) :
    t.streams i ≠ none ↔ s.streams i ≠ none ∨ a = .streamTelemetry i := by
  refine ⟨fun ht => ?_, ?_⟩
  · by_contra hno
    rw [not_or, not_not] at hno
    exact ht (absent_serve hno.1 hno.2 h)
  · have hkept {j : ℕ} {q : StreamReactor} {c : Collector ℕ} (hc : c.streams = s.streams)
        (hi : s.streams i ≠ none) : (c.withStream j q).streams i ≠ none := by
      by_cases hij : i = j
      · subst hij
        simp only [Collector.withStream, Function.update_self, ne_eq, reduceCtorEq,
          not_false_eq_true]
      · rw [Collector.withStream]
        simp only [Function.update_of_ne hij, hc]
        exact hi
    rintro (hi | rfl)
    · cases a with
      | streamTelemetry j =>
        obtain ⟨_, rfl⟩ := streamTelemetry_cases (h : s.streamTelemetry j = some t)
        exact hkept rfl hi
      | read j event now =>
        obtain ⟨_, _, _, rfl⟩ := read_cases (h : s.read j event now = some t)
        exact hkept rfl hi
      | load j seen =>
        obtain ⟨_, _, _, _, rfl | rfl⟩ := load_cases (h : s.load j seen = some t) <;>
          exact hkept rfl hi
      | push j =>
        obtain ⟨_, _, _, _, _, _, _, rfl, _⟩ := push_cases (h : s.push j = some t)
        exact hkept rfl hi
      | pop | call | consume | advance | shutdown =>
        rw [(aside_cases h (by simp)).1]
        exact hi
    · obtain ⟨_, rfl⟩ := streamTelemetry_cases (h : s.streamTelemetry i = some t)
      simp only [Collector.withStream, Function.update_self, ne_eq, reduceCtorEq,
        not_false_eq_true]

/-- A `consume` that a counter returns from has returned true. -/
theorem serve_allTrue (hs : QueuedSink.AllTrue s.sink.returns) (h : serve pb .counter s a = some t) :
    QueuedSink.AllTrue t.sink.returns := by
  have hsame (hreturns : t.sink.returns = s.sink.returns) :
      QueuedSink.AllTrue t.sink.returns := by
    rw [hreturns]
    exact hs
  cases a with
  | consume =>
    obtain ⟨sink, hsink, rfl⟩ := Option.map_eq_some_iff.mp h
    obtain ⟨event, _, rfl⟩ := QueuedSink.consumeReturns_cases hsink
    intro r hr
    rcases List.mem_append.mp hr with hr | hr
    · exact hs r hr
    · rw [List.mem_singleton.mp hr]
  | streamTelemetry i =>
    obtain ⟨_, rfl⟩ := streamTelemetry_cases (h : s.streamTelemetry i = some t)
    exact hs
  | read i event now =>
    obtain ⟨_, _, _, rfl⟩ := read_cases (h : s.read i event now = some t)
    exact hs
  | load i seen =>
    obtain ⟨_, _, _, _, rfl | rfl⟩ := load_cases (h : s.load i seen = some t) <;> exact hs
  | push i =>
    have hpush : s.push i = some t := h
    unfold Collector.push at hpush
    split at hpush
    · cases hpush
    split at hpush
    · obtain ⟨⟨_, _⟩, hsink, rfl⟩ := Option.map_eq_some_iff.mp hpush
      obtain ⟨_, _, _, rfl⟩ := QueuedSink.push_cases hsink
      exact hs
    · cases hpush
  | pop =>
    obtain ⟨sink, hsink, rfl⟩ := Option.map_eq_some_iff.mp h
    exact hsame (QueuedSink.background_cases (.inl hsink)).2.2
  | call =>
    obtain ⟨sink, hsink, rfl⟩ := Option.map_eq_some_iff.mp h
    exact hsame (QueuedSink.background_cases (.inr (.inl hsink))).2.2
  | advance =>
    obtain ⟨sink, hsink, rfl⟩ := Option.map_eq_some_iff.mp h
    exact hsame (QueuedSink.background_cases (.inr (.inr (.inl hsink)))).2.2
  | shutdown =>
    obtain ⟨sink, hsink, rfl⟩ := Option.map_eq_some_iff.mp h
    exact hsame (QueuedSink.background_cases (.inr (.inr (.inr hsink)))).2.2

/-! ### What is left to do -/

/-- Steps of a call before it ends, with those of the event it may still push. -/
def callWork : Option StreamReactor → ℕ
  | none => 2
  | some r =>
    match r.phase with
    | .offering _ => 8
    | .pushing => 7
    | .reading => 1
    | .returned => 0

def callsWork (calls : List ℕ) (s : Collector ℕ) : ℕ :=
  (calls.map fun i => callWork (s.streams i)).sum

theorem callWork_le (call : Option StreamReactor) : callWork call ≤ 8 := by
  unfold callWork
  split
  · omega
  · split <;> omega

theorem callWork_answered (r : StreamReactor) (result : SinkResult) :
    callWork (some (r.onSinkResult result)) = if result = .accepted then 1 else 0 := by
  cases result <;> rfl

/-- A call's step, which may leave the sink something to do. -/
theorem stream_less {calls : List ℕ} {i : ℕ} (used : ℕ) {next : StreamReactor}
    {sink : QueuedSink ℕ CollectedEvent} (hcalled : i ∈ calls)
    (hused : callWork (some next) + (used + 1) ≤ callWork (s.streams i))
    (hsink : sink.work ≤ s.sink.work + used) :
    callsWork calls ({ s with sink := sink }.withStream i next) + sink.work <
      callsWork calls s + s.sink.work := by
  have hcalls : callsWork calls ({ s with sink := sink }.withStream i next) + (used + 1) ≤
      callsWork calls s := by
    refine sum_map_less hcalled ?_ fun j hj => ?_
    · simp only [Collector.withStream, Function.update_self]
      exact hused
    · simp only [Collector.withStream, Function.update_of_ne hj]
  omega

/-- What an arrived event may ask for. -/
theorem arrival_work {calls : List ℕ} (hnodup : calls.Nodup) {i : ℕ} (hcalled : i ∈ calls)
    {event : Option TelemetryEvent} {now : Int64} (h : s.read i event now = some t) :
    callsWork calls t + t.sink.work ≤ callsWork calls s + s.sink.work + 7 := by
  obtain ⟨r, hr, hphase, rfl⟩ := read_cases h
  have hreading : callWork (s.streams i) = 1 := by rw [hr, callWork, hphase]
  generalize event.elim r.onReadEnded (fun event => r.onReadDone event now) = next
  have hsink : (s.withStream i next).sink = s.sink := rfl
  have hnext : callWork ((s.withStream i next).streams i) = callWork (some next) := by
    simp only [Collector.withStream, Function.update_self]
  have hother (j : ℕ) (hj : j ≠ i) :
      callWork ((s.withStream i next).streams j) = callWork (s.streams j) := by
    simp only [Collector.withStream, Function.update_of_ne hj]
  have hle := callWork_le (some next)
  by_cases hzero : callWork (some next) = 0
  · have hless : callsWork calls (s.withStream i next) + 1 ≤ callsWork calls s :=
      sum_map_less hcalled (by rw [hnext, hzero, hreading]) hother
    rw [hsink]
    omega
  · have hgrown : callsWork calls (s.withStream i next) =
        callsWork calls s + (callWork (some next) - 1) :=
      sum_map_grown hnodup hcalled (by rw [hnext, hreading]; omega) hother
    rw [hsink]
    omega

/-- **Every step uses something up**, unless it brings an event. -/
theorem serve_less {calls : List ℕ} (hcalled : ∀ i, s.streams i ≠ none → i ∈ calls)
    (hopened : ∀ i, a = .streamTelemetry i → i ∈ calls)
    (hread : ∀ i event now, a ≠ .read i (some event) now) (hshutdown : a ≠ .shutdown)
    (h : serve pb behind s a = some t) :
    callsWork calls t + t.sink.work < callsWork calls s + s.sink.work := by
  have hmem {i : ℕ} {r : StreamReactor} (hr : s.streams i = some r) : i ∈ calls :=
    hcalled i (by rw [hr]; exact Option.some_ne_none _)
  cases a with
  | streamTelemetry i =>
    obtain ⟨hnew, rfl⟩ := streamTelemetry_cases (h : s.streamTelemetry i = some t)
    refine stream_less 0 (hopened i rfl) ?_ (Nat.le_refl _)
    rw [hnew]
    exact Nat.le_of_ble_eq_true rfl
  | shutdown => exact absurd rfl hshutdown
  | read i event now =>
    cases event with
    | some event => exact absurd rfl (hread i event now)
    | none =>
      obtain ⟨r, hr, hphase, rfl⟩ := read_cases (h : s.read i none now = some t)
      refine stream_less 0 (hmem hr) ?_ (Nat.le_refl _)
      rw [hr, callWork, callWork, hphase]
      rfl
  | load i flag =>
    obtain ⟨r, c, hr, hphase, rfl | rfl⟩ := load_cases (h : s.load i flag = some t)
    · refine stream_less 0 (hmem hr) ?_ (Nat.le_refl _)
      rw [hr, callWork, callWork, hphase]
    · refine stream_less 0 (hmem hr) ?_ (Nat.le_refl _)
      rw [hr, callWork_answered, callWork, hphase]
      exact Nat.le_of_ble_eq_true rfl
  | push i =>
    have hpush : s.push i = some t := h
    unfold Collector.push at hpush
    split at hpush
    · cases hpush
    rename_i r hr
    split at hpush
    · rename_i hphase
      obtain ⟨⟨result, sink⟩, hsink, rfl⟩ := Option.map_eq_some_iff.mp hpush
      refine stream_less _ (hmem hr) ?_ (QueuedSink.work_push hsink)
      rw [hr, callWork_answered, callWork, hphase]
      cases result <;> exact Nat.le_of_ble_eq_true rfl
    · cases hpush
  | pop =>
    obtain ⟨sink, hsink, rfl⟩ := Option.map_eq_some_iff.mp h
    exact Nat.add_lt_add_left (QueuedSink.work_pop hsink) _
  | call =>
    obtain ⟨sink, hsink, rfl⟩ := Option.map_eq_some_iff.mp h
    exact Nat.add_lt_add_left (QueuedSink.work_call hsink) _
  | advance =>
    obtain ⟨sink, hsink, rfl⟩ := Option.map_eq_some_iff.mp h
    exact Nat.add_lt_add_left (QueuedSink.work_advance hsink) _
  | consume =>
    rcases serve_cases h with hown | ⟨sink, _, _, hsink, rfl⟩
    · simp only [Collector.step, Collector.consume] at hown
      split at hown
      · obtain ⟨sink, hsink, rfl⟩ := Option.map_eq_some_iff.mp hown
        exact Nat.add_lt_add_left (QueuedSink.work_consumeReturns hsink) _
      · cases hown
    · exact Nat.add_lt_add_left (QueuedSink.work_consumeReturns hsink) _

end Serve

end TraceForge.Pipeline
