import TraceForge.App.CollectorExit

/-! `traceforge collect` stops when it is told to.

Once `Shutdown` has been called and the clients only end their streams, every step uses up some of
what is left to do (`work`), and until the process has returned some step is possible. So it returns,
whatever the order, after no more steps than the queue, the open calls and the threads have left
(`collector_shuts_down`). -/
namespace TraceForge.App
open Library Concurrency Telemetry Recording
open Pipeline (Behind serve serve_shutdown serve_less callWork callWork_le callsWork)

variable {pb : Protobuf}

/-! ### What is left to do -/

def shutdownWork : Shutdown → ℕ
  | .idle => 2
  | .disabled => 1
  | .closed => 0

/-- Statements of the main thread before it returns. -/
def mainWork (shutdown : Shutdown) : MainThread → ℕ
  | .waiting => 5
  | .stopping => 2 + shutdownWork shutdown
  | .flushing => 1
  | .exited _ => 0

namespace CollectorProcess

def work (s : CollectorProcess) : ℕ :=
  mainWork s.collector.sink.shutdown s.main + s.collector.sink.work + callsWork s.calls s.collector

/-- The clients only end their streams, and nobody signals. -/
def Ending : Action → Prop
  | .serve (.read _ (some _) _) => False
  | .signal _ => False
  | _ => True

variable {queue : BoundedQueue CollectedEvent} {writer : LogWriter} {s t : CollectorProcess}

/-! ### Every step uses something up -/

/-- Another thread's step. -/
theorem served_less {a : Collector.Action ℕ} {collector : Collector ℕ}
    (hs : s.Sound pb queue writer) (hdown : s.shuttingDown = true) (hallowed : s.allows a = true)
    (ha : Ending (.serve a)) (h : serve pb s.behind s.collector a = some collector) :
    work { s with collector := collector, calls := s.called a } < s.work := by
  have hnew (i : ℕ) : a ≠ .streamTelemetry i := by
    rintro rfl
    simp [allows, hdown] at hallowed
  have hnot : a ≠ .shutdown := by
    rintro rfl
    cases hallowed
  have hcalls : s.called a = s.calls := by
    unfold called
    split
    · exact absurd rfl (hnew _)
    · rfl
  have hless := serve_less (fun i => (hs.called i).mpr) (fun i hi => absurd hi (hnew i))
    (fun i event now hread => by rw [hread] at ha; exact ha) hnot h
  obtain ⟨hshutdown, _⟩ := serve_shutdown hnot h
  show mainWork collector.sink.shutdown s.main + collector.sink.work +
    callsWork (s.called a) collector < s.work
  rw [hshutdown, hcalls, work]
  omega

theorem work_finish (hmain : s.main = .flushing) : s.finish.work < s.work := by
  have hcalls : callsWork s.finish.calls s.finish.collector = callsWork s.calls s.collector := by
    rw [callsWork, callsWork, finish_calls, finish_streams]
  obtain ⟨exit, hexit⟩ := finish_exited s
  rw [work, work, finish_sink, hcalls, hmain, hexit]
  simp only [mainWork]
  omega

/-- **A step of a process that shuts down** uses something up, and it goes on shutting down. -/
theorem step_less {a : Action} (hs : s.Sound pb queue writer) (hdown : s.shuttingDown = true)
    (ha : Ending a) (h : s.step pb a = some t) :
    t.work < s.work ∧ t.shuttingDown = true := by
  have hplaced := hs.placed
  cases a with
  | serve a =>
    simp only [step] at h
    split at h
    · rename_i hallowed
      obtain ⟨collector, hserve, rfl⟩ := Option.map_eq_some_iff.mp h
      exact ⟨served_less hs hdown hallowed ha hserve, hdown⟩
    · cases h
  | signal n => exact ha.elim
  | monitor => simp [step, hdown] at h
  | waitReturns =>
    simp only [step] at h
    split at h
    · rename_i hidle
      simp only [Bool.and_eq_true, decide_eq_true_eq] at hidle
      cases h
      rw [Placed, hidle.1.1] at hplaced
      refine ⟨?_, hdown⟩
      show mainWork s.collector.sink.shutdown .stopping + _ + callsWork s.calls s.collector < _
      rw [work, hidle.1.1, hplaced.1]
      simp only [mainWork, shutdownWork]
      omega
    · cases h
  | shutdown =>
    simp only [step] at h
    split at h
    · rename_i hmain
      obtain ⟨sink, hsink, rfl⟩ := Option.map_eq_some_iff.mp h
      rw [Placed, hmain] at hplaced
      have hnone : ¬0 < s.collector.sink.shutdowns := by
        rw [hplaced.2.2]
        exact Nat.lt_irrefl 0
      refine ⟨?_, hdown⟩
      show mainWork sink.shutdown (if 0 < sink.shutdowns then .flushing else .stopping) +
        sink.work + callsWork s.calls s.collector < _
      rw [work, hmain]
      rcases QueuedSink.shutdownStep_cases hsink with ⟨hidle, rfl⟩ | ⟨hdisabled, rfl⟩ |
        ⟨hclosed, _, rfl⟩
      · simp only [if_neg hnone, mainWork, shutdownWork, hidle, QueuedSink.work]
        omega
      · simp only [if_neg hnone, mainWork, shutdownWork, hdisabled, QueuedSink.work, BoundedQueue.close]
        omega
      · simp only [Nat.zero_lt_succ, if_true, mainWork, shutdownWork, hclosed, QueuedSink.work]
        omega
    · cases h
  | finish =>
    simp only [step] at h
    split at h
    · rename_i hmain
      cases h
      refine ⟨work_finish hmain, ?_⟩
      rw [finish_shuttingDown]
      exact hdown
    · cases h

/-! ### Some step is possible -/

theorem serve_step {a : Collector.Action ℕ} (ha : Ending (.serve a)) (hallowed : s.allows a = true)
    (h : (serve pb s.behind s.collector a).isSome = true) :
    ∃ a t, Ending a ∧ s.step pb a = some t := by
  obtain ⟨collector, h⟩ := Option.isSome_iff_exists.mp h
  exact ⟨.serve a, _, ha, by rw [step, if_pos hallowed, h]; rfl⟩

/-- A queue that is closed answers. -/
theorem waitPop_closed {items : BoundedQueue CollectedEvent} (h : items.closed = true) :
    ∃ answer, items.waitPop = some answer := by
  unfold BoundedQueue.waitPop
  split
  · rw [if_pos h]
    exact ⟨_, rfl⟩
  · exact ⟨_, rfl⟩

/-- The consumer thread can go on once the queue is closed. -/
theorem consumer_moves (hs : s.Sound pb queue writer)
    (hclosed : s.collector.sink.queue.closed = true)
    (hconsumer : s.collector.sink.consumer ≠ .finished) :
    ∃ a t, Ending a ∧ s.step pb a = some t := by
  have hrunning := not_returned hs
  cases hplace : s.collector.sink.consumer with
  | waiting =>
    have hpop : (serve pb s.behind s.collector .pop).isSome = true := by
      obtain ⟨⟨item, rest⟩, hanswer⟩ := waitPop_closed hclosed
      cases item <;> simp [serve, Collector.step, QueuedSink.pop, hplace, hanswer]
    exact serve_step (a := .pop) trivial (by simp [allows, hrunning]) hpop
  | popped event =>
    have hcall : (serve pb s.behind s.collector .call).isSome = true := by
      simp [serve, Collector.step, QueuedSink.call, hplace]
    exact serve_step (a := .call) trivial (by simp [allows, hrunning]) hcall
  | consuming event =>
    have hconsume : (serve pb s.behind s.collector .consume).isSome = true := by
      cases s.behind with
      | recorder =>
        simp [serve, Collector.step, Collector.consume, QueuedSink.consumeReturns, hplace]
      | counter => simp [serve, QueuedSink.consumeReturns, hplace]
    exact serve_step (a := .consume) trivial (by simp [allows, hrunning]) hconsume
  | counting | countingFailure | disabling | closing =>
    have hadvance : (serve pb s.behind s.collector .advance).isSome = true := by
      simp [serve, Collector.step, QueuedSink.advance, hplace]
    exact serve_step (a := .advance) trivial (by simp [allows, hrunning]) hadvance
  | finished => exact absurd hplace hconsumer

/-- A call that has not ended can go on: its client ends it, or the sink answers. -/
theorem call_moves (hs : s.Sound pb queue writer) {i : ℕ} {r : StreamReactor}
    (hr : s.collector.streams i = some r) (hphase : r.phase ≠ .returned) :
    ∃ a t, Ending a ∧ s.step pb a = some t := by
  have hrunning := not_returned hs
  have hconsistent := hs.consistent.stream i r hr
  cases hplace : r.phase with
  | reading =>
    have hread : (serve pb s.behind s.collector (.read i none 0)).isSome = true := by
      simp [serve, Collector.step, Collector.read, hr, hplace]
    exact serve_step (a := .read i none 0) trivial (by simp [allows, hrunning]) hread
  | offering c =>
    obtain ⟨_, _, hnobody⟩ := StreamReactor.place_offering hconsistent hplace
    have hload : (serve pb s.behind s.collector (.load i true)).isSome = true := by
      simp [serve, Collector.step, Collector.load, hr, hplace, QueuedSink.load, hnobody]
    exact serve_step (a := .load i true) trivial (by simp [allows, hrunning]) hload
  | pushing =>
    obtain ⟨_, c, _, hcaller⟩ := StreamReactor.place_pushing hconsistent hplace
    have hpush : (serve pb s.behind s.collector (.push i)).isSome = true := by
      simp [serve, Collector.step, Collector.push, hr, hplace, QueuedSink.push, hcaller]
    exact serve_step (a := .push i) trivial (by simp [allows, hrunning]) hpush
  | returned => exact absurd hplace hphase

/-- **A process that shuts down** is never stuck. -/
theorem moves (hs : s.Sound pb queue writer) (hdown : s.shuttingDown = true) :
    ∃ a t, Ending a ∧ s.step pb a = some t := by
  have hplaced := hs.placed
  cases hmain : s.main with
  | waiting =>
    by_cases hended : s.Ended
    · have hidle := (idle_iff s fun i => (hs.called i).mp).mpr hended
      exact ⟨.waitReturns, _, trivial, by simp only [step, hmain, hdown, hidle]; rfl⟩
    · obtain ⟨i, hopen⟩ := not_forall.mp hended
      obtain ⟨hi, hopen⟩ := Classical.not_imp.mp hopen
      obtain ⟨r, hr⟩ := Option.ne_none_iff_exists'.mp ((hs.called i).mp hi)
      exact call_moves hs hr fun hphase => hopen ⟨r, hr, hphase⟩
  | stopping =>
    rw [Placed, hmain] at hplaced
    by_cases hjoins : s.collector.sink.shutdown = .closed ∧
        s.collector.sink.joinable = true ∧ s.collector.sink.consumer ≠ .finished
    · obtain ⟨hclosed, _, hconsumer⟩ := hjoins
      exact consumer_moves hs (hs.valid.closing hclosed) hconsumer
    · have hsink : ∃ sink, s.collector.sink.shutdownStep = some sink := by
        unfold QueuedSink.shutdownStep
        split
        · exact ⟨_, rfl⟩
        · exact ⟨_, rfl⟩
        · rename_i hclosed
          split
          · rename_i hjoinable
            split
            · exact ⟨_, rfl⟩
            · rename_i hconsumer
              exact absurd ⟨hclosed, hjoinable, hconsumer⟩ hjoins
          · exact ⟨_, rfl⟩
      obtain ⟨sink, hsink⟩ := hsink
      exact ⟨.shutdown, _, trivial, by rw [step, if_pos hmain, hsink]; rfl⟩
  | flushing => exact ⟨.finish, _, trivial, by rw [step, if_pos hmain]⟩
  | exited exit =>
    rw [Placed, hmain] at hplaced
    exact hplaced.elim

/-! ### Every run -/

/-- Shutting down, or returned. -/
def Leaving (pb : Protobuf) (queue : BoundedQueue CollectedEvent) (writer : LogWriter)
    (s : CollectorProcess) : Prop :=
  s.Sound pb queue writer ∧ s.shuttingDown = true ∨ s.main.returned = true

theorem returned_step (hreturned : s.main.returned = true) (a : Action) : s.step pb a = none := by
  cases hmain : s.main with
  | exited exit => exact exited_step hmain a
  | _ =>
    rw [hmain] at hreturned
    cases hreturned

theorem leaving_step {a : Action} (hs : s.Leaving pb queue writer) (ha : Ending a)
    (h : s.step pb a = some t) : t.Leaving pb queue writer ∧ t.work < s.work := by
  rcases hs with ⟨hs, hdown⟩ | hreturned
  · obtain ⟨hless, hstill⟩ := step_less hs hdown ha h
    refine ⟨?_, hless⟩
    rcases sound_step hs h with ⟨ht, _⟩ | ⟨_, _, rfl⟩
    · exact .inl ⟨ht, hstill⟩
    · obtain ⟨exit, hexit⟩ := finish_exited s
      exact .inr (by rw [hexit]; rfl)
  · have hnone : s.step pb a = none := returned_step hreturned a
    cases hnone.symm.trans h

theorem leaving_moves (hs : s.Leaving pb queue writer) :
    s.main.returned = true ∨ ∃ a t, Ending a ∧ s.step pb a = some t := by
  rcases hs with ⟨hs, hdown⟩ | hreturned
  · exact .inr (moves hs hdown)
  · exact .inl hreturned

theorem work_le (s : CollectorProcess) :
    s.work ≤ 10 + 5 * s.collector.sink.queue.items.length + 8 * s.calls.length := by
  have hmain : mainWork s.collector.sink.shutdown s.main ≤ 5 := by
    cases s.main <;> cases s.collector.sink.shutdown <;> exact Nat.le_of_ble_eq_true rfl
  have hconsumer : s.collector.sink.consumer.work ≤ 5 := by
    cases s.collector.sink.consumer <;> simp only [Consumer.work] <;> omega
  have hcalls : callsWork s.calls s.collector ≤
      (s.calls.map fun i => callWork (s.collector.streams i)).length • 8 := by
    refine List.sum_le_card_nsmul _ 8 fun value hvalue => ?_
    obtain ⟨i, _, rfl⟩ := List.mem_map.mp hvalue
    exact callWork_le _
  rw [List.length_map, smul_eq_mul] at hcalls
  rw [work, QueuedSink.work]
  omega

/-- **`collect` stops when it is told to**, wherever it is. Until the server shuts down, a SIGINT or
SIGTERM makes it. From then on, as long as the clients only end their streams, no order of the calls,
the consumer and the main thread goes on for longer than the queue and the calls have left, and none
is stuck before the process has returned: every such run returns. -/
theorem collector_shuts_down (pb : Protobuf) (surroundings : Surroundings) (args : List Text)
    (launched s : CollectorProcess) (hlaunch : runCollector surroundings args = .serves launched)
    (h : (machine pb launched).Reachable s) :
    (s.shuttingDown = false → ∀ n, n = SIGINT ∨ n = SIGTERM →
      ∃ t, (machine pb launched).run s [.signal n, .monitor] = some t ∧ t.shuttingDown = true) ∧
    (s.shuttingDown = true →
      (∀ actions t, (machine pb launched).run s actions = some t →
        (machine pb launched).Obeys (fun _ => Ending) s actions →
        actions.length ≤ 10 + 5 * s.collector.sink.queue.items.length + 8 * s.calls.length ∧
          (t.main.returned = true ∨ ∃ a u, Ending a ∧ t.step pb a = some u)) ∧
      ∃ actions t, (machine pb launched).run s actions = some t ∧
        (machine pb launched).Obeys (fun _ => Ending) s actions ∧ t.main.returned = true) := by
  obtain ⟨o, capacity_pos, _, hlaunched, _⟩ := launch_serves hlaunch
  rw [hlaunched] at h
  have hcases := reachable_cases rfl rfl h
  refine ⟨fun hup n hn => ?_, fun hdown => ?_⟩
  · have hwaiting : s.main = .waiting := by
      rcases hcases with ⟨hs, _⟩ | ⟨u, hu, _, hmain, rfl⟩
      · have hplaced := hs.placed
        cases hmain : s.main with
        | waiting => rfl
        | stopping | flushing =>
          rw [Placed, hmain] at hplaced
          exact absurd hplaced.1 (by rw [hup]; exact Bool.false_ne_true)
        | exited exit =>
          rw [Placed, hmain] at hplaced
          exact hplaced.elim
      · have hplaced := hu.placed
        rw [Placed, hmain] at hplaced
        rw [finish_shuttingDown] at hup
        exact absurd hplaced.1 (by rw [hup]; exact Bool.false_ne_true)
    have hsignal : s.step pb (.signal n) = some { s with shutdownSignal := n } := by
      rcases hn with rfl | rfl <;> simp [step, hwaiting, MainThread.returned]
    have hmonitor : step pb { s with shutdownSignal := n } .monitor =
        some { s with shutdownSignal := n, shuttingDown := true } := by
      have hseen : n ≠ 0 := by rcases hn with rfl | rfl <;> decide
      simp [step, hwaiting, hseen, hup]
    exact ⟨_, by rw [Machine.run_cons _ _ hsignal, Machine.run_cons _ _ hmonitor]; rfl, rfl⟩
  · have hleaving : s.Leaving pb (.empty o.queueCapacity.toNat capacity_pos)
        (consumerOf surroundings o).2 := by
      rcases hcases with ⟨hs, _⟩ | ⟨u, _, _, _, rfl⟩
      · exact .inl ⟨hs, hdown⟩
      · obtain ⟨exit, hexit⟩ := finish_exited u
        exact .inr (by rw [hexit]; rfl)
    refine ⟨fun actions t hrun hobeys => ?_, ?_⟩
    · obtain ⟨ht, hlength⟩ := Machine.obeying_length_le _ work
        (fun _ _ _ hs ha hstep => leaving_step hs ha hstep) hleaving hobeys hrun
      have hbound := s.work_le
      exact ⟨by omega, leaving_moves ht⟩
    · have hmore (t : CollectorProcess) (ht : t.Leaving pb (.empty o.queueCapacity.toNat capacity_pos)
          (consumerOf surroundings o).2) : t.main.returned = true ∨
          ∃ a u, (fun _ => Ending) t a ∧ Machine.step (machine pb launched) t a = some u :=
        leaving_moves ht
      exact Machine.obeying_reaches_goal _ _ work
        (fun _ _ _ hs ha hstep => leaving_step hs ha hstep) hmore hleaving

/-- The sample collector, interrupted before any client came. -/
theorem collector_shuts_down_sample :
    ∃ s actions t, (machine samplePb sampleProcess).run sampleProcess [.signal SIGINT, .monitor] =
      some s ∧ (machine samplePb sampleProcess).run s actions = some t ∧
        actions.length ≤ 10 ∧ t.main.returned = true := by
  obtain ⟨s, hrun, hdown⟩ := (collector_shuts_down samplePb sampleSurroundings sampleArgs
    sampleProcess sampleProcess sample_launches ⟨[], rfl⟩).1 rfl SIGINT (.inl rfl)
  have hempty : s.collector.sink.queue.items = [] ∧ s.calls = [] := by
    cases hrun
    exact ⟨rfl, rfl⟩
  obtain ⟨hbound, actions, t, hends, hobeys, hreturned⟩ := (collector_shuts_down samplePb
    sampleSurroundings sampleArgs sampleProcess s sample_launches ⟨_, hrun⟩).2 hdown
  have hlength := (hbound actions t hends hobeys).1
  rw [hempty.1, hempty.2] at hlength
  exact ⟨s, actions, t, hrun, hends, hlength, hreturned⟩

end CollectorProcess

end TraceForge.App
