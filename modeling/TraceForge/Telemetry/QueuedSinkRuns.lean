import TraceForge.Telemetry.QueuedSinkProofs

/-! What more holds of every run of the sink.

The queue keeps its capacity and the failures are counted (`capacity_step`, `counted_step`). Until it
is shut down or a `consume` fails the sink takes events, and refuses one only for want of room
(`open_step`). Every step of the consumer uses up some of the sink's `work`. -/
namespace TraceForge.Telemetry
open Library Concurrency

/-! ### The queue -/

section Queue
variable {Event : Type}

theorem tryPush_capacity (item : Event) (q : BoundedQueue Event) :
    (q.tryPush item).2.capacity = q.capacity := by
  unfold BoundedQueue.tryPush
  split
  · rfl
  split
  · rfl
  · rfl

theorem waitPop_capacity {q r : BoundedQueue Event} {answer : Option Event}
    (h : q.waitPop = some (answer, r)) : r.capacity = q.capacity := by
  unfold BoundedQueue.waitPop at h
  split at h
  · split at h
    · cases h
      rfl
    · cases h
  · cases h
    rfl

/-- An open queue that is not full takes the item. -/
theorem tryPush_room {q : BoundedQueue Event} (hopen : q.closed = false)
    (hroom : q.items.length < q.capacity) (item : Event) : (q.tryPush item).1 = .accepted := by
  unfold BoundedQueue.tryPush
  rw [hopen, if_neg Bool.false_ne_true, dif_neg (Nat.ne_of_lt hroom)]

end Queue

/-- Steps of the consumer thread before it waits again, or ends. -/
def Consumer.work {Event : Type} : Consumer Event → ℕ
  | .popped _ => 5
  | .consuming _ => 4
  | .countingFailure => 3
  | .disabling => 2
  | .counting => 2
  | .waiting => 1
  | .closing => 1
  | .finished => 0

namespace QueuedSink

variable {Caller Event : Type} {s t : QueuedSink Caller Event}

/-! ### Capacity and counters -/

section Capacity
variable [DecidableEq Caller]

theorem capacity_step {a : Action Caller Event}
    (h : s.step a = some t) : t.queue.capacity = s.queue.capacity := by
  cases a with
  | load i event seen =>
    obtain ⟨⟨_, _⟩, hload, rfl⟩ := Option.map_eq_some_iff.mp h
    rcases load_cases hload with ⟨_, rfl⟩ | ⟨_, rfl⟩ <;> rfl
  | push i =>
    obtain ⟨⟨_, _⟩, hpush, rfl⟩ := Option.map_eq_some_iff.mp h
    obtain ⟨event, _, _, rfl⟩ := push_cases hpush
    exact tryPush_capacity event s.queue
  | pop =>
    have hpop : s.pop = some t := h
    unfold pop at hpop
    split at hpop
    · split at hpop
      · cases hpop
      · rename_i hanswer
        cases hpop
        exact waitPop_capacity hanswer
      · rename_i hanswer
        cases hpop
        exact waitPop_capacity hanswer
    · cases hpop
  | call =>
    obtain ⟨_, _, rfl⟩ := call_cases h
    rfl
  | consumeReturns ok =>
    obtain ⟨_, _, rfl⟩ := consumeReturns_cases h
    rfl
  | advance => rcases advance_cases h with ⟨_, rfl⟩ | ⟨_, rfl⟩ | ⟨_, rfl⟩ | ⟨_, rfl⟩ <;> rfl
  | shutdown => rcases shutdownStep_cases h with ⟨_, rfl⟩ | ⟨_, rfl⟩ | ⟨_, _, rfl⟩ <;> rfl

end Capacity

/-- The failure not counted yet. -/
def uncountedFailure (s : QueuedSink Caller Event) : UInt64 :=
  match s.consumer with
  | .countingFailure => 1
  | _ => 0

/-- The failures counted are the events refused. -/
def Counted (s : QueuedSink Caller Event) : Prop :=
  s.consumerFailures + s.uncountedFailure = UInt64.ofNat s.refused.length

theorem refused_append (s : QueuedSink Caller Event) (event : Event) (ok : Bool) :
    ((s.returns ++ [(event, ok)]).filter fun r => !r.2).map Prod.fst =
      s.refused ++ if ok then [] else [event] := by
  cases ok <;> simp [refused]

theorem counted_consumeReturns {ok : Bool} (hs : s.Counted)
    (h : s.consumeReturns ok = some t) : t.Counted := by
  obtain ⟨event, hconsuming, rfl⟩ := consumeReturns_cases h
  have hrefused := refused_append s event ok
  rw [Counted, uncountedFailure, hconsuming] at hs
  have hcounted : s.consumerFailures = UInt64.ofNat s.refused.length :=
    (UInt64.add_zero _).symm.trans hs
  cases ok with
  | true =>
    rw [if_pos rfl, List.append_nil] at hrefused
    rw [Counted, refused, hrefused]
    exact hs
  | false =>
    rw [if_neg Bool.false_ne_true] at hrefused
    rw [Counted, refused, hrefused, List.length_append, List.length_singleton, UInt64.ofNat_add]
    exact congrArg (· + 1) hcounted

theorem counted_advance (hs : s.Counted)
    (h : s.advance = some t) : t.Counted := by
  rw [Counted, uncountedFailure] at hs
  rcases advance_cases h with ⟨hc, rfl⟩ | ⟨hc, rfl⟩ | ⟨hc, rfl⟩ | ⟨hc, rfl⟩ <;> rw [hc] at hs
  · exact hs
  · exact (UInt64.add_zero _).trans hs
  · exact hs
  · exact hs

theorem counted_step [DecidableEq Caller] {a : Action Caller Event} (hs : s.Counted)
    (h : s.step a = some t) : t.Counted := by
  cases a with
  | load i event seen =>
    obtain ⟨⟨_, _⟩, hload, rfl⟩ := Option.map_eq_some_iff.mp h
    rcases load_cases hload with ⟨_, rfl⟩ | ⟨_, rfl⟩ <;> exact hs
  | push i =>
    obtain ⟨⟨_, _⟩, hpush, rfl⟩ := Option.map_eq_some_iff.mp h
    obtain ⟨_, _, _, rfl⟩ := push_cases hpush
    exact hs
  | pop =>
    rw [Counted, uncountedFailure] at hs
    obtain ⟨hwaiting, ⟨_, _, rfl⟩ | ⟨event, queue, _, _, _, rfl⟩⟩ := pop_cases h <;>
      rw [hwaiting] at hs <;> exact hs
  | call =>
    obtain ⟨event, hpopped, rfl⟩ := call_cases h
    rw [Counted, uncountedFailure, hpopped] at hs
    exact hs
  | consumeReturns ok => exact counted_consumeReturns hs h
  | advance => exact counted_advance hs h
  | shutdown => rcases shutdownStep_cases h with ⟨_, rfl⟩ | ⟨_, rfl⟩ | ⟨_, _, rfl⟩ <;> exact hs

/-! ### What keeps the sink open -/

/-- What `consume` has returned is not taken back. -/
theorem returns_step [DecidableEq Caller] {a : Action Caller Event} (h : s.step a = some t) :
    s.returns <+: t.returns := by
  cases a with
  | load i event seen =>
    obtain ⟨⟨_, _⟩, hload, rfl⟩ := Option.map_eq_some_iff.mp h
    rcases load_cases hload with ⟨_, rfl⟩ | ⟨_, rfl⟩ <;> exact List.prefix_rfl
  | push i =>
    obtain ⟨⟨_, _⟩, hpush, rfl⟩ := Option.map_eq_some_iff.mp h
    obtain ⟨_, _, _, rfl⟩ := push_cases hpush
    exact List.prefix_rfl
  | pop =>
    obtain ⟨_, ⟨_, _, rfl⟩ | ⟨_, _, _, _, _, rfl⟩⟩ := pop_cases h <;> exact List.prefix_rfl
  | call =>
    obtain ⟨_, _, rfl⟩ := call_cases h
    exact List.prefix_rfl
  | consumeReturns ok =>
    obtain ⟨_, _, rfl⟩ := consumeReturns_cases h
    exact List.prefix_append _ _
  | advance =>
    rcases advance_cases h with ⟨_, rfl⟩ | ⟨_, rfl⟩ | ⟨_, rfl⟩ | ⟨_, rfl⟩ <;> exact List.prefix_rfl
  | shutdown =>
    rcases shutdownStep_cases h with ⟨_, rfl⟩ | ⟨_, rfl⟩ | ⟨_, _, rfl⟩ <;> exact List.prefix_rfl

/-- A call is refused at the flag only when it is down. -/
theorem load_refused [DecidableEq Caller] {i : Caller} {event : Event} {seen : Bool}
    {result : SinkResult} (h : s.load i event seen = some (some result, t)) :
    s.acceptingEvents = false := by
  unfold load at h
  split at h
  · cases h
  split at h
  · cases h
  split at h
  · cases h
  · rename_i hdown
    simpa using hdown

/-- A sink that nobody has begun to shut down, and whose consumer goes on, takes events. -/
def Open (s : QueuedSink Caller Event) : Prop :=
  s.shutdown = .idle → s.shutdowns = 0 → AllTrue s.returns →
    s.acceptingEvents = true ∧ s.queue.closed = false

/-- A `consume` that failed is the last one. -/
theorem not_allTrue (h : LastFalse s.returns) : ¬AllTrue s.returns := by
  obtain ⟨before, event, hreturns, _⟩ := h
  intro hall
  have hlast := hall (event, false) (by
    rw [hreturns]
    exact List.mem_append_right _ (List.mem_singleton_self _))
  cases hlast

theorem open_step [DecidableEq Caller] {a : Action Caller Event} (hvalid : s.Valid) (hs : s.Open)
    (h : s.step a = some t) : t.Open := by
  have hout := hvalid.outcome
  rw [Outcome] at hout
  cases a with
  | load i event seen =>
    obtain ⟨⟨_, _⟩, hload, rfl⟩ := Option.map_eq_some_iff.mp h
    rcases load_cases hload with ⟨_, rfl⟩ | ⟨_, rfl⟩ <;> exact hs
  | push i =>
    obtain ⟨⟨_, _⟩, hpush, rfl⟩ := Option.map_eq_some_iff.mp h
    obtain ⟨event, _, _, rfl⟩ := push_cases hpush
    intro hidle hnever hall
    obtain ⟨haccepting, hopen⟩ := hs hidle hnever hall
    exact ⟨haccepting, (BoundedQueue.tryPush_cases event s.queue).2.trans hopen⟩
  | pop =>
    obtain ⟨_, ⟨_, _, rfl⟩ | ⟨event, queue, _, hclosed, _, rfl⟩⟩ := pop_cases h
    · exact hs
    · intro hidle hnever hall
      obtain ⟨haccepting, hopen⟩ := hs hidle hnever hall
      exact ⟨haccepting, hclosed.trans hopen⟩
  | call =>
    obtain ⟨_, _, rfl⟩ := call_cases h
    exact hs
  | consumeReturns ok =>
    obtain ⟨_, _, rfl⟩ := consumeReturns_cases h
    exact fun hidle hnever hall => hs hidle hnever fun r hr => hall r (List.mem_append_left _ hr)
  | advance =>
    rcases advance_cases h with ⟨_, rfl⟩ | ⟨_, rfl⟩ | ⟨hc, rfl⟩ | ⟨hc, rfl⟩
    · exact hs
    · exact hs
    · rw [hc] at hout
      exact fun _ _ hall => absurd hall (not_allTrue hout)
    · rw [hc] at hout
      exact fun _ _ hall => absurd hall (not_allTrue hout)
  | shutdown =>
    rcases shutdownStep_cases h with ⟨_, rfl⟩ | ⟨_, rfl⟩ | ⟨_, _, rfl⟩
    · intro hidle
      cases hidle
    · intro hidle
      cases hidle
    · exact fun _ hnever => absurd hnever (Nat.succ_ne_zero _)

/-! ### What is left to do -/

/-- An event in the queue is popped, consumed and counted. -/
def work (s : QueuedSink Caller Event) : ℕ := 5 * s.queue.items.length + s.consumer.work

theorem work_pop (h : s.pop = some t) : t.work < s.work := by
  obtain ⟨hwaiting, ⟨_, _, rfl⟩ | ⟨event, queue, hitems, _, _, rfl⟩⟩ := pop_cases h
  · simp only [work, Consumer.work, hwaiting]
    omega
  · simp only [work, Consumer.work, hwaiting, hitems, List.length_cons]
    omega

theorem work_call (h : s.call = some t) : t.work < s.work := by
  obtain ⟨event, hpopped, rfl⟩ := call_cases h
  simp only [work, Consumer.work, hpopped]
  omega

theorem work_consumeReturns {ok : Bool} (h : s.consumeReturns ok = some t) :
    t.work < s.work := by
  obtain ⟨event, hconsuming, rfl⟩ := consumeReturns_cases h
  cases ok <;>
    simp only [work, Consumer.work, hconsuming, Bool.false_eq_true, if_true, if_false] <;>
    omega

theorem work_advance (h : s.advance = some t) : t.work < s.work := by
  rcases advance_cases h with ⟨hc, rfl⟩ | ⟨hc, rfl⟩ | ⟨hc, rfl⟩ | ⟨hc, rfl⟩
  · simp only [work, Consumer.work, hc]
    omega
  · simp only [work, Consumer.work, hc]
    omega
  · simp only [work, Consumer.work, hc]
    omega
  · simp only [work, Consumer.work, hc, BoundedQueue.close]
    omega

/-- A push may bring the queue an event. -/
theorem work_push [DecidableEq Caller] {i : Caller} {result : SinkResult}
    (h : s.push i = some (result, t)) : t.work ≤ s.work + if result = .accepted then 5 else 0 := by
  obtain ⟨event, _, rfl, rfl⟩ := push_cases h
  obtain ⟨⟨hresult, _, hitems, _⟩ | ⟨hresult, hitems, _⟩, _⟩ :=
    BoundedQueue.tryPush_cases event s.queue
  · simp only [work, hresult, hitems, List.length_append, List.length_singleton,
      sinkResult, if_true]
    omega
  · simp only [work, hitems]
    omega

end QueuedSink

end TraceForge.Telemetry
