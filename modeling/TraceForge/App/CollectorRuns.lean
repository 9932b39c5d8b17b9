import TraceForge.App.CollectorProcess
import TraceForge.Pipeline.Serving

/-! What every run of `traceforge collect` preserves.

The process moves its collector as the collector moves itself, so what holds of every collector
holds here; what is added is where the main thread is and what must have happened by then
(`Sound`). A process that has returned is one that had shut its sink down and then finished
(`reachable_cases`). -/
namespace TraceForge.App
open Library Concurrency Telemetry Recording
open Pipeline (Behind serve serve_cases serve_invariant serve_shutdown serve_returned
  serve_streams serve_allTrue)

variable {pb : Protobuf} {behind : Behind}

/-! ### Every run -/

namespace CollectorProcess

/-- Every call has ended. -/
def Ended (s : CollectorProcess) : Prop :=
  ∀ i ∈ s.calls, ∃ r, s.collector.streams i = some r ∧ r.phase = .returned

theorem idle_iff (s : CollectorProcess) (hcalled : ∀ i, i ∈ s.calls → s.collector.streams i ≠ none) :
    s.idle = true ↔ s.Ended := by
  rw [idle, List.all_eq_true]
  refine forall₂_congr fun i hi => ?_
  obtain ⟨r, hr⟩ := Option.ne_none_iff_exists'.mp (hcalled i hi)
  simp [hr]

/-- What must have happened for the main thread to be where it is. -/
def Placed (s : CollectorProcess) : Prop :=
  match s.main with
  | .waiting => s.collector.sink.shutdown = .idle ∧ s.collector.sink.shutdowns = 0
  | .stopping => s.shuttingDown = true ∧ s.Ended ∧ s.collector.sink.shutdowns = 0
  | .flushing => s.shuttingDown = true ∧ s.Ended ∧ 0 < s.collector.sink.shutdowns
  | .exited _ => False

/-- A running process: what holds of its collector, and where its main thread is. -/
structure Sound (pb : Protobuf) (queue : BoundedQueue CollectedEvent) (writer : LogWriter)
    (s : CollectorProcess) : Prop where
  consistent : s.collector.Consistent
  valid : s.collector.sink.Valid
  counted : s.collector.sink.Counted
  called : ∀ i, i ∈ s.calls ↔ s.collector.streams i ≠ none
  recorded : s.behind = .recorder →
    (Collector.machine pb queue writer).Reachable s.collector
  unfailing : s.behind = .counter → QueuedSink.AllTrue s.collector.sink.returns
  signalled : s.shutdownSignal = 0 ∨ s.shutdownSignal = SIGINT ∨ s.shutdownSignal = SIGTERM
  seen : s.shuttingDown = true → s.shutdownSignal ≠ 0
  placed : s.Placed

variable {queue : BoundedQueue CollectedEvent} {writer : LogWriter} {s t : CollectorProcess}

theorem sound_start (hitems : queue.items = []) (haccepted : queue.acceptedItems = 0) :
    (start behind queue writer).Sound pb queue writer where
  consistent := Collector.consistent_start queue writer
  valid := QueuedSink.valid_start queue hitems haccepted
  counted := rfl
  called _ := iff_of_false List.not_mem_nil fun h => h rfl
  recorded _ := ⟨[], rfl⟩
  unfailing _ := fun _ hr => absurd hr List.not_mem_nil
  signalled := .inl rfl
  seen h := absurd h Bool.false_ne_true
  placed := ⟨rfl, rfl⟩

/-! ### One step -/

theorem not_returned (hs : s.Sound pb queue writer) : s.main.returned = false := by
  have hplaced := hs.placed
  rw [Placed] at hplaced
  cases hmain : s.main with
  | exited exit =>
    rw [hmain] at hplaced
    exact hplaced.elim
  | _ => rfl

/-- What is known of the collector alone. -/
theorem sound_serve {a : Collector.Action ℕ} {collector : Collector ℕ}
    (hs : s.Sound pb queue writer) (hallowed : s.allows a = true)
    (h : serve pb s.behind s.collector a = some collector) :
    Sound pb queue writer { s with collector := collector, calls := s.called a } := by
  have hnot : a ≠ .shutdown := by
    rintro rfl
    cases hallowed
  obtain ⟨hshutdown, hshutdowns⟩ := serve_shutdown hnot h
  have hcalled (i : ℕ) : i ∈ s.called a ↔ collector.streams i ≠ none := by
    rw [serve_streams i h, ← hs.called i]
    cases a with
    | streamTelemetry j =>
      rw [called, List.mem_append, List.mem_singleton, Collector.Action.streamTelemetry.injEq,
        eq_comm]
    | _ => simp [called]
  -- Once the server shuts down, the calls stay as they are.
  have hended (hdown : s.shuttingDown = true) (he : s.Ended) :
      Ended { s with collector := collector, calls := s.called a } := by
    have hcalls : s.called a = s.calls := by
      cases a with
      | streamTelemetry i => simp [allows, hdown] at hallowed
      | _ => rfl
    intro i hi
    obtain ⟨r, hr, hphase⟩ := he i (hcalls ▸ hi)
    exact ⟨r, serve_returned hr hphase h, hphase⟩
  exact
    { consistent := Pipeline.consistent_serve hs.consistent h
      valid := serve_invariant QueuedSink.Valid
        (fun _ b _ hsink hstep => QueuedSink.valid_step (a := b) hsink hstep) hs.valid h
      counted := serve_invariant QueuedSink.Counted
        (fun _ b _ hsink hstep => QueuedSink.counted_step (a := b) hsink hstep) hs.counted h
      called := hcalled
      recorded := fun hrecorder => by
        have hbehind : s.behind = .recorder := hrecorder
        rw [hbehind] at h
        have hstep : s.collector.step pb a = some collector := by
          rcases serve_cases h with hown | ⟨_, _, hcounter, _⟩
          · exact hown
          · cases hcounter
        exact Machine.reachable_step (hs.recorded hrecorder) hstep
      unfailing := fun hcounter => by
        have hbehind : s.behind = .counter := hcounter
        rw [hbehind] at h
        exact serve_allTrue (hs.unfailing hcounter) h
      signalled := hs.signalled
      seen := hs.seen
      placed := by
        have hplaced := hs.placed
        unfold Placed at hplaced ⊢
        show match s.main with
          | .waiting => _
          | .stopping => _
          | .flushing => _
          | .exited _ => False
        rw [hshutdown, hshutdowns]
        cases hmain : s.main with
        | waiting =>
          rw [hmain] at hplaced
          exact hplaced
        | stopping =>
          rw [hmain] at hplaced
          exact ⟨hplaced.1, hended hplaced.1 hplaced.2.1, hplaced.2.2⟩
        | flushing =>
          rw [hmain] at hplaced
          exact ⟨hplaced.1, hended hplaced.1 hplaced.2.1, hplaced.2.2⟩
        | exited exit =>
          rw [hmain] at hplaced
          exact hplaced.elim }

/-- `sink.shutdown()` goes on. -/
theorem sound_shutdown (hs : s.Sound pb queue writer) (hmain : s.main = .stopping)
    {sink : QueuedSink ℕ CollectedEvent} (h : s.collector.sink.shutdownStep = some sink) :
    Sound pb queue writer { s with
      collector := { s.collector with sink := sink }
      main := if 0 < sink.shutdowns then .flushing else .stopping } := by
  have hplaced := hs.placed
  rw [Placed, hmain] at hplaced
  obtain ⟨hdown, hended, _⟩ := hplaced
  have hstep : s.collector.step pb .shutdown =
      some { s.collector with sink := sink } := by rw [Collector.step, h]; rfl
  have hreturns : sink.returns = s.collector.sink.returns :=
    (QueuedSink.background_cases (.inr (.inr (.inr h)))).2.2
  exact
    { consistent := Collector.consistent_step hs.consistent hstep
      valid := QueuedSink.valid_shutdownStep hs.valid h
      counted := QueuedSink.counted_step (a := .shutdown) hs.counted h
      called := hs.called
      recorded := fun hrecorder =>
        Machine.reachable_step (a := .shutdown) (hs.recorded hrecorder) hstep
      unfailing := fun hcounter => by
        show QueuedSink.AllTrue sink.returns
        rw [hreturns]
        exact hs.unfailing hcounter
      signalled := hs.signalled
      seen := hs.seen
      placed := by
        unfold Placed
        by_cases hdone : 0 < sink.shutdowns
        · simp only [if_pos hdone]
          exact ⟨hdown, hended, hdone⟩
        · simp only [if_neg hdone]
          exact ⟨hdown, hended, Nat.eq_zero_of_not_pos hdone⟩ }

/-- **A running process** stays sound, or finishes behind its sink's shutdown. -/
theorem sound_step {a : Action} (hs : s.Sound pb queue writer) (h : s.step pb a = some t) :
    t.Sound pb queue writer ∧ t.behind = s.behind ∨
      a = .finish ∧ s.main = .flushing ∧ t = s.finish := by
  cases a with
  | serve a =>
    simp only [step] at h
    split at h
    · rename_i hallowed
      obtain ⟨collector, hserve, rfl⟩ := Option.map_eq_some_iff.mp h
      exact .inl ⟨sound_serve hs hallowed hserve, rfl⟩
    · cases h
  | signal n =>
    simp only [step, not_returned hs, Bool.not_false, Bool.and_true] at h
    split at h
    · rename_i hsignal
      rw [Bool.or_eq_true, decide_eq_true_eq, decide_eq_true_eq] at hsignal
      cases h
      refine .inl ⟨{ hs with signalled := .inr hsignal, seen := fun _ hzero => ?_ }, rfl⟩
      rcases hsignal with rfl | rfl <;> cases hzero
    · cases h
  | monitor =>
    simp only [step] at h
    split at h
    · rename_i hseen
      simp only [Bool.and_eq_true, decide_eq_true_eq] at hseen
      obtain ⟨⟨hmain, hsignal⟩, _⟩ := hseen
      cases h
      have hplaced := hs.placed
      rw [Placed, hmain] at hplaced
      refine .inl ⟨{ hs with seen := fun _ => hsignal, placed := ?_ }, rfl⟩
      unfold Placed
      simp only [hmain]
      exact hplaced
    · cases h
  | waitReturns =>
    simp only [step] at h
    split at h
    · rename_i hidle
      simp only [Bool.and_eq_true, decide_eq_true_eq] at hidle
      obtain ⟨⟨hmain, hdown⟩, hidle⟩ := hidle
      cases h
      have hplaced := hs.placed
      rw [Placed, hmain] at hplaced
      exact .inl ⟨{ hs with
        placed := ⟨hdown, (idle_iff s fun i => (hs.called i).mp).mp hidle, hplaced.2⟩ }, rfl⟩
    · cases h
  | shutdown =>
    simp only [step] at h
    split at h
    · rename_i hmain
      obtain ⟨sink, hsink, rfl⟩ := Option.map_eq_some_iff.mp h
      exact .inl ⟨sound_shutdown hs hmain hsink, rfl⟩
    · cases h
  | finish =>
    simp only [step] at h
    split at h
    · rename_i hmain
      cases h
      exact .inr ⟨rfl, hmain, rfl⟩
    · cases h

/-- The return closes the writer, and changes nothing else. -/
theorem finish_eq (s : CollectorProcess) : ∃ writer exit, s.finish = { s with
    collector := { s.collector with writer := writer }, main := .exited exit } := by
  unfold finish
  cases s.behind <;> exact ⟨_, _, rfl⟩

theorem finish_exited (s : CollectorProcess) : ∃ exit, s.finish.main = .exited exit := by
  obtain ⟨_, exit, h⟩ := finish_eq s
  exact ⟨exit, by rw [h]⟩

@[simp] theorem finish_signal (s : CollectorProcess) :
    s.finish.shutdownSignal = s.shutdownSignal := by
  obtain ⟨_, _, h⟩ := finish_eq s
  rw [h]

@[simp] theorem finish_shuttingDown (s : CollectorProcess) :
    s.finish.shuttingDown = s.shuttingDown := by
  obtain ⟨_, _, h⟩ := finish_eq s
  rw [h]

@[simp] theorem finish_behind (s : CollectorProcess) : s.finish.behind = s.behind := by
  obtain ⟨_, _, h⟩ := finish_eq s
  rw [h]

@[simp] theorem finish_calls (s : CollectorProcess) : s.finish.calls = s.calls := by
  obtain ⟨_, _, h⟩ := finish_eq s
  rw [h]

@[simp] theorem finish_streams (s : CollectorProcess) :
    s.finish.collector.streams = s.collector.streams := by
  obtain ⟨_, _, h⟩ := finish_eq s
  rw [h]

@[simp] theorem finish_sink (s : CollectorProcess) :
    s.finish.collector.sink = s.collector.sink := by
  obtain ⟨_, _, h⟩ := finish_eq s
  rw [h]

/-- Nothing happens in a process that has returned. -/
theorem exited_step {exit : Exit} (hexit : s.main = .exited exit) (a : Action) :
    s.step pb a = none := by
  cases a with
  | serve a => cases a <;> simp [step, allows, MainThread.returned, hexit]
  | signal | monitor | waitReturns | shutdown | finish => simp [step, MainThread.returned, hexit]

/-- **Every process that is reached** is running, or has finished behind its sink's shutdown. -/
theorem reachable_cases (hitems : queue.items = []) (haccepted : queue.acceptedItems = 0)
    (h : (machine pb (start behind queue writer)).Reachable s) :
    s.Sound pb queue writer ∧ s.behind = behind ∨
      ∃ u : CollectorProcess, u.Sound pb queue writer ∧ u.behind = behind ∧ u.main = .flushing ∧
        s = u.finish := by
  refine Machine.reachable_invariant (fun s : CollectorProcess =>
    s.Sound pb queue writer ∧ s.behind = behind ∨
      ∃ u : CollectorProcess, u.Sound pb queue writer ∧ u.behind = behind ∧ u.main = .flushing ∧
        s = u.finish) (.inl ⟨sound_start hitems haccepted, rfl⟩) ?_ h
  rintro s a t (⟨hs, hbehind⟩ | ⟨u, _, _, _, rfl⟩) hstep
  · rcases sound_step hs hstep with ⟨ht, hsame⟩ | ⟨_, hmain, rfl⟩
    · exact .inl ⟨ht, hsame.trans hbehind⟩
    · exact .inr ⟨s, hs, hbehind, hmain, rfl⟩
  · obtain ⟨exit, hexit⟩ := finish_exited u
    have hnone : u.finish.step pb a = none := exited_step hexit a
    cases hnone.symm.trans hstep

end CollectorProcess

end TraceForge.App
