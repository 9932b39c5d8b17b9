import TraceForge.Telemetry.QueuedSink

/-! What the sink conserves.

`Valid` relates the events pushed to what has become of them, in every state. Each action keeps
it (`valid_step`), so every reachable state has it (`valid_reachable`). A closed queue stays
closed and gives no more acceptances (`closed_step`), which is what a call after `shutdown`
meets. -/
namespace TraceForge.Telemetry
open Library Concurrency

namespace QueuedSink

variable {Caller Event : Type}

/-! ### The invariant -/

def AllTrue (returns : List (Event × Bool)) : Prop := ∀ r ∈ returns, r.2 = true

/-- Only the last of the returns is false. -/
def LastFalse (returns : List (Event × Bool)) : Prop :=
  ∃ before event, returns = before ++ [(event, false)] ∧ AllTrue before

/-- What the consumer's place says about the returns and the queue. -/
def Outcome (s : QueuedSink Caller Event) : Prop :=
  match s.consumer with
  | .waiting | .popped _ | .consuming _ | .counting => AllTrue s.returns
  | .countingFailure | .disabling | .closing => LastFalse s.returns
  | .finished => LastFalse s.returns ∨
      AllTrue s.returns ∧ s.queue.closed = true ∧ s.queue.items = []

/-- The event of the call that has not returned. -/
def inCall (s : QueuedSink Caller Event) : List Event :=
  match s.consumer with
  | .consuming event => [event]
  | _ => []

/-- The success not counted yet. -/
def uncounted (s : QueuedSink Caller Event) : UInt64 :=
  match s.consumer with
  | .counting => 1
  | _ => 0

/-- The events `try_accept` answered accepted on, in the order of their pushes. -/
def acknowledged (s : QueuedSink Caller Event) : List Event :=
  (s.answers.filter fun answer => answer.2.2 = .accepted).map fun answer => answer.2.1

structure Valid (s : QueuedSink Caller Event) : Prop where
  acknowledged : s.acknowledged = s.pushed
  conserved : s.pushed = s.returns.map Prod.fst ++ (s.inHand ++ s.queue.items)
  calls : s.calls = s.returns.map Prod.fst ++ s.inCall
  outcome : s.Outcome
  consumedEvents : s.consumedEvents + s.uncounted = UInt64.ofNat s.consumed.length
  acceptedItems : s.queue.acceptedItems = UInt64.ofNat s.pushed.length
  joined : s.joinable = false → s.consumer = .finished
  closing : s.shutdown = .closed → s.queue.closed = true
  returned : 0 < s.shutdowns → s.joinable = false ∧ s.queue.closed = true

theorem valid_start (queue : BoundedQueue Event) (hitems : queue.items = [])
    (haccepted : queue.acceptedItems = 0) : (start Caller queue).Valid where
  acknowledged := rfl
  conserved := by simp [start, inHand, hitems]
  calls := rfl
  outcome := fun r hr => absurd hr List.not_mem_nil
  consumedEvents := rfl
  acceptedItems := haccepted
  joined := fun h => by cases h
  closing := fun h => by cases h
  returned := fun h => absurd h (Nat.lt_irrefl 0)

/-- One more answer acknowledges its event when it is accepted. -/
theorem acknowledged_append (answers : List (Caller × Event × SinkResult)) (i : Caller)
    (event : Event) (result : SinkResult) :
    ((answers ++ [(i, event, result)]).filter fun answer => answer.2.2 = .accepted).map
        (fun answer => answer.2.1) =
      (answers.filter fun answer => answer.2.2 = .accepted).map (fun answer => answer.2.1) ++
        if result = .accepted then [event] else [] := by
  by_cases h : result = .accepted
  · simp [h]
  · simp [h]

theorem consumed_append (s : QueuedSink Caller Event) (event : Event) (ok : Bool) :
    ((s.returns ++ [(event, ok)]).filter fun r => r.2).map Prod.fst =
      s.consumed ++ if ok then [event] else [] := by
  cases ok <;> simp [consumed]

/-! ### Each action -/

section Steps
variable [DecidableEq Caller] {s t : QueuedSink Caller Event}

/-- A load moves the caller alone. -/
theorem load_cases {i : Caller} {event : Event} {seen : Bool} {result : Option SinkResult}
    (h : s.load i event seen = some (result, t)) :
    result = none ∧ t = {s with callers := Function.update s.callers i (some event)} ∨
      result = some .unavailable ∧
        t = {s with answers := s.answers ++ [(i, event, .unavailable)]} := by
  unfold load at h
  split at h
  · cases h
  split at h
  · cases h
    exact .inl ⟨rfl, rfl⟩
  split at h
  · cases h
  · cases h
    exact .inr ⟨rfl, rfl⟩

theorem valid_load {i : Caller} {event : Event} {seen : Bool} {result : Option SinkResult}
    (hs : s.Valid) (h : s.load i event seen = some (result, t)) : t.Valid := by
  rcases load_cases h with ⟨_, rfl⟩ | ⟨_, rfl⟩
  · exact { hs with }
  · have hack := acknowledged_append s.answers i event .unavailable
    exact { hs with acknowledged := hack.trans ((List.append_nil _).trans hs.acknowledged) }

/-- A push answers, and stores the event exactly when it answers accepted. -/
theorem push_cases {i : Caller} {result : SinkResult} (h : s.push i = some (result, t)) :
    ∃ event, s.callers i = some event ∧ result = sinkResult (s.queue.tryPush event).1 ∧
      t = {s with
        queue := (s.queue.tryPush event).2
        callers := Function.update s.callers i none
        pushed := if (s.queue.tryPush event).1 = .accepted then s.pushed ++ [event] else s.pushed
        answers := s.answers ++ [(i, event, sinkResult (s.queue.tryPush event).1)]} := by
  unfold push at h
  split at h
  · cases h
  · rename_i event hevent
    cases h
    exact ⟨event, hevent, rfl, rfl⟩

theorem valid_push {i : Caller} {result : SinkResult} (hs : s.Valid)
    (h : s.push i = some (result, t)) : t.Valid := by
  obtain ⟨event, _, _, rfl⟩ := push_cases h
  obtain ⟨hcases, hclosed⟩ := BoundedQueue.tryPush_cases event s.queue
  have hack := acknowledged_append s.answers i event (sinkResult (s.queue.tryPush event).1)
  rw [← QueuedSink.acknowledged, hs.acknowledged] at hack
  rcases hcases with ⟨hresult, hopen, hitems, haccepted⟩ | ⟨hresult, hitems, haccepted⟩
  · have hout := hs.outcome
    exact
      { acknowledged := by
          rw [hresult] at hack
          simp only [hresult, if_true]
          exact hack
        conserved := by
          simp only [hresult, if_true, hitems, hs.conserved, List.append_assoc]
          rfl
        calls := hs.calls
        outcome := by
          unfold Outcome at hout ⊢
          simp only
          cases hc : s.consumer <;> simp only [hc] at hout ⊢ <;> try exact hout
          rcases hout with hfalse | ⟨_, hclosed, _⟩
          · exact .inl hfalse
          · rw [hopen] at hclosed
            cases hclosed
        consumedEvents := hs.consumedEvents
        acceptedItems := by
          simp only [hresult, if_true, haccepted, hs.acceptedItems, List.length_append,
            UInt64.ofNat_add]
          rfl
        joined := hs.joined
        closing := fun hc => hclosed.trans (hs.closing hc)
        returned := fun hr => ⟨(hs.returned hr).1, hclosed.trans (hs.returned hr).2⟩ }
  · have hrefused : (s.queue.tryPush event).1 ≠ .accepted := by
      rw [hresult]
      split <;> decide
    have hout := hs.outcome
    exact
      { acknowledged := by
          have hanswer : sinkResult (s.queue.tryPush event).1 ≠ .accepted := by
            cases hr : (s.queue.tryPush event).1 with
            | accepted => exact absurd hr hrefused
            | full => exact fun h => by cases h
            | closed => exact fun h => by cases h
          rw [if_neg hanswer, List.append_nil] at hack
          simp only [if_neg hrefused]
          exact hack
        conserved := by
          simp only [if_neg hrefused, hitems]
          exact hs.conserved
        calls := hs.calls
        outcome := by
          unfold Outcome at hout ⊢
          simp only [hclosed, hitems]
          exact hout
        consumedEvents := hs.consumedEvents
        acceptedItems := by
          simp only [if_neg hrefused, haccepted]
          exact hs.acceptedItems
        joined := hs.joined
        closing := fun hc => hclosed.trans (hs.closing hc)
        returned := fun hr => ⟨(hs.returned hr).1, hclosed.trans (hs.returned hr).2⟩ }

omit [DecidableEq Caller] in
/-- A pop ends the loop on a closed empty queue, or takes the front event. -/
theorem pop_cases (h : s.pop = some t) :
    s.consumer = .waiting ∧
      (s.queue.items = [] ∧ s.queue.closed = true ∧ t = {s with consumer := .finished} ∨
        ∃ event queue, s.queue.items = event :: queue.items ∧ queue.closed = s.queue.closed ∧
          queue.acceptedItems = s.queue.acceptedItems ∧
          t = {s with queue := queue, consumer := .popped event}) := by
  unfold pop at h
  split at h
  · rename_i hwaiting
    refine ⟨hwaiting, ?_⟩
    split at h
    · cases h
    · rename_i hpop
      obtain ⟨hnil, hclosed, rfl⟩ := BoundedQueue.waitPop_none hpop
      exact .inl ⟨hnil, hclosed, (Option.some.inj h).symm⟩
    · rename_i event queue hpop
      obtain ⟨hcons, hclosed, haccepted⟩ := BoundedQueue.waitPop_some hpop
      exact .inr ⟨event, queue, hcons, hclosed, haccepted, (Option.some.inj h).symm⟩
  · cases h

omit [DecidableEq Caller] in
theorem valid_pop (hs : s.Valid) (h : s.pop = some t) : t.Valid := by
  obtain ⟨hwaiting, hcases⟩ := pop_cases h
  have hout : AllTrue s.returns := by
    have hout := hs.outcome
    rwa [Outcome, hwaiting] at hout
  have hconserved := hs.conserved
  have hcalls := hs.calls
  have hcounted := hs.consumedEvents
  simp only [inHand, hwaiting, List.nil_append] at hconserved
  simp only [inCall, hwaiting, List.append_nil] at hcalls
  simp only [uncounted, hwaiting] at hcounted
  have hjoinable : s.joinable = true := by
    cases hj : s.joinable
    · rw [hs.joined hj] at hwaiting
      cases hwaiting
    · rfl
  rcases hcases with ⟨hnil, hclosed, rfl⟩ | ⟨event, queue, hcons, hclosed, haccepted, rfl⟩
  · exact
      { acknowledged := hs.acknowledged
        conserved := hconserved
        calls := hcalls.trans (List.append_nil _).symm
        outcome := .inr ⟨hout, hclosed, hnil⟩
        consumedEvents := hcounted
        acceptedItems := hs.acceptedItems
        joined := fun _ => rfl
        closing := hs.closing
        returned := hs.returned }
  · exact
      { acknowledged := hs.acknowledged
        conserved := by rw [hconserved, hcons]; rfl
        calls := hcalls.trans (List.append_nil _).symm
        outcome := hout
        consumedEvents := hcounted
        acceptedItems := haccepted.trans hs.acceptedItems
        joined := fun hj => by
          rw [hjoinable] at hj
          cases hj
        closing := fun hc => hclosed.trans (hs.closing hc)
        returned := fun hr => ⟨(hs.returned hr).1, hclosed.trans (hs.returned hr).2⟩ }

omit [DecidableEq Caller] in
theorem call_cases (h : s.call = some t) :
    ∃ event, s.consumer = .popped event ∧
      t = {s with consumer := .consuming event, calls := s.calls ++ [event]} := by
  unfold call at h
  split at h
  · rename_i event hpopped
    exact ⟨event, hpopped, (Option.some.inj h).symm⟩
  · cases h

omit [DecidableEq Caller] in
theorem valid_call (hs : s.Valid) (h : s.call = some t) : t.Valid := by
  obtain ⟨event, hpopped, rfl⟩ := call_cases h
  have hout := hs.outcome
  have hconserved := hs.conserved
  have hcalls := hs.calls
  have hcounted := hs.consumedEvents
  simp only [Outcome, hpopped] at hout
  simp only [inHand, hpopped] at hconserved
  simp only [inCall, hpopped, List.append_nil] at hcalls
  simp only [uncounted, hpopped] at hcounted
  exact
    { acknowledged := hs.acknowledged
      conserved := hconserved
      calls := by rw [hcalls]; rfl
      outcome := hout
      consumedEvents := hcounted
      acceptedItems := hs.acceptedItems
      joined := fun hj => by
        rw [hs.joined hj] at hpopped
        cases hpopped
      closing := hs.closing
      returned := hs.returned }

omit [DecidableEq Caller] in
theorem consumeReturns_cases {ok : Bool} (h : s.consumeReturns ok = some t) :
    ∃ event, s.consumer = .consuming event ∧
      t = {s with
        consumer := if ok then .counting else .countingFailure
        returns := s.returns ++ [(event, ok)]} := by
  unfold consumeReturns at h
  split at h
  · rename_i event hconsuming
    exact ⟨event, hconsuming, (Option.some.inj h).symm⟩
  · cases h

omit [DecidableEq Caller] in
theorem valid_consumeReturns {ok : Bool} (hs : s.Valid) (h : s.consumeReturns ok = some t) :
    t.Valid := by
  obtain ⟨event, hconsuming, rfl⟩ := consumeReturns_cases h
  have hout := hs.outcome
  have hconserved := hs.conserved
  have hcalls := hs.calls
  have hcounted := hs.consumedEvents
  have hconsumed := consumed_append s event ok
  simp only [Outcome, hconsuming] at hout
  simp only [inHand, hconsuming] at hconserved
  simp only [inCall, hconsuming] at hcalls
  simp only [uncounted, hconsuming] at hcounted
  have hjoined (hj : s.joinable = false) : False := by
    rw [hs.joined hj] at hconsuming
    cases hconsuming
  cases ok with
  | true =>
    exact
      { acknowledged := hs.acknowledged
        conserved := by
          rw [hconserved, List.map_append, List.append_assoc]
          rfl
        calls := by
          rw [hcalls, List.map_append]
          exact (List.append_nil _).symm
        outcome := fun r hr => by
          rcases List.mem_append.mp hr with hr | hr
          · exact hout r hr
          · rw [List.mem_singleton.mp hr]
        consumedEvents := by
          rw [consumed, hconsumed, List.length_append, UInt64.ofNat_add, ← hcounted,
            UInt64.add_zero]
          rfl
        acceptedItems := hs.acceptedItems
        joined := fun hj => (hjoined hj).elim
        closing := hs.closing
        returned := hs.returned }
  | false =>
    exact
      { acknowledged := hs.acknowledged
        conserved := by
          rw [hconserved, List.map_append, List.append_assoc]
          rfl
        calls := by
          rw [hcalls, List.map_append]
          exact (List.append_nil _).symm
        outcome := ⟨s.returns, event, rfl, hout⟩
        consumedEvents := by
          rw [consumed, hconsumed, List.length_append, UInt64.ofNat_add, ← hcounted]
          exact (UInt64.add_zero _).symm
        acceptedItems := hs.acceptedItems
        joined := fun hj => (hjoined hj).elim
        closing := hs.closing
        returned := hs.returned }

omit [DecidableEq Caller] in
theorem advance_cases (h : s.advance = some t) :
    s.consumer = .counting ∧
        t = {s with consumedEvents := s.consumedEvents + 1, consumer := .waiting} ∨
      s.consumer = .countingFailure ∧
        t = {s with consumerFailures := s.consumerFailures + 1, consumer := .disabling} ∨
      s.consumer = .disabling ∧ t = {s with acceptingEvents := false, consumer := .closing} ∨
      s.consumer = .closing ∧ t = {s with queue := s.queue.close, consumer := .finished} := by
  unfold advance at h
  split at h
  · exact .inl ⟨‹_›, (Option.some.inj h).symm⟩
  · exact .inr (.inl ⟨‹_›, (Option.some.inj h).symm⟩)
  · exact .inr (.inr (.inl ⟨‹_›, (Option.some.inj h).symm⟩))
  · exact .inr (.inr (.inr ⟨‹_›, (Option.some.inj h).symm⟩))
  · cases h

omit [DecidableEq Caller] in
theorem valid_advance (hs : s.Valid) (h : s.advance = some t) : t.Valid := by
  have hout := hs.outcome
  have hconserved := hs.conserved
  have hcalls := hs.calls
  have hcounted := hs.consumedEvents
  have hjoined (hc : s.consumer ≠ .finished) (hj : s.joinable = false) : False := hc (hs.joined hj)
  rcases advance_cases h with ⟨hc, rfl⟩ | ⟨hc, rfl⟩ | ⟨hc, rfl⟩ | ⟨hc, rfl⟩ <;>
    simp only [Outcome, hc] at hout <;> simp only [inHand, hc] at hconserved <;>
    simp only [inCall, hc] at hcalls <;> simp only [uncounted, hc] at hcounted <;>
    rw [hc] at hjoined
  · exact
      { acknowledged := hs.acknowledged
        conserved := hconserved
        calls := hcalls
        outcome := hout
        consumedEvents := (UInt64.add_zero _).trans hcounted
        acceptedItems := hs.acceptedItems
        joined := fun hj => (hjoined (by simp) hj).elim
        closing := hs.closing
        returned := hs.returned }
  · exact
      { acknowledged := hs.acknowledged
        conserved := hconserved
        calls := hcalls
        outcome := hout
        consumedEvents := hcounted
        acceptedItems := hs.acceptedItems
        joined := fun hj => (hjoined (by simp) hj).elim
        closing := hs.closing
        returned := hs.returned }
  · exact
      { acknowledged := hs.acknowledged
        conserved := hconserved
        calls := hcalls
        outcome := hout
        consumedEvents := hcounted
        acceptedItems := hs.acceptedItems
        joined := fun hj => (hjoined (by simp) hj).elim
        closing := hs.closing
        returned := hs.returned }
  · exact
      { acknowledged := hs.acknowledged
        conserved := hconserved
        calls := hcalls
        outcome := .inl hout
        consumedEvents := hcounted
        acceptedItems := hs.acceptedItems
        joined := fun _ => rfl
        closing := fun _ => rfl
        returned := fun hr => ⟨(hs.returned hr).1, rfl⟩ }

omit [DecidableEq Caller] in
/-- A statement of `shutdown`; the last one has joined the consumer, now or before. -/
theorem shutdownStep_cases (h : s.shutdownStep = some t) :
    s.shutdown = .idle ∧ t = {s with acceptingEvents := false, shutdown := .disabled} ∨
      s.shutdown = .disabled ∧ t = {s with queue := s.queue.close, shutdown := .closed} ∨
      s.shutdown = .closed ∧ (s.joinable = true → s.consumer = .finished) ∧
        t = {s with joinable := false, shutdown := .idle, shutdowns := s.shutdowns + 1} := by
  unfold shutdownStep at h
  split at h
  · exact .inl ⟨‹_›, (Option.some.inj h).symm⟩
  · exact .inr (.inl ⟨‹_›, (Option.some.inj h).symm⟩)
  · rename_i hclosed
    refine .inr (.inr ⟨hclosed, ?_⟩)
    split at h
    · split at h
      · rename_i hfinished
        exact ⟨fun _ => hfinished, (Option.some.inj h).symm⟩
      · cases h
    · rename_i hjoined
      have hjoined : s.joinable = false := by simpa using hjoined
      refine ⟨fun hj => ?_, ?_⟩
      · rw [hjoined] at hj
        cases hj
      · rw [← hjoined]
        exact (Option.some.inj h).symm

omit [DecidableEq Caller] in
theorem valid_shutdownStep (hs : s.Valid) (h : s.shutdownStep = some t) : t.Valid := by
  rcases shutdownStep_cases h with ⟨_, rfl⟩ | ⟨_, rfl⟩ | ⟨hclosed, hfinished, rfl⟩
  · exact { hs with closing := fun hc => by cases hc }
  · have hout := hs.outcome
    exact
      { hs with
        outcome := by
          unfold Outcome at hout ⊢
          cases hc : s.consumer <;> simp only [hc] at hout ⊢ <;> try exact hout
          exact hout.imp_right fun hdone => ⟨hdone.1, rfl, hdone.2.2⟩
        closing := fun _ => rfl
        returned := fun hr => ⟨(hs.returned hr).1, rfl⟩ }
  · have hjoined : s.consumer = .finished := by
      cases hj : s.joinable
      · exact hs.joined hj
      · exact hfinished hj
    exact
      { hs with
        joined := fun _ => hjoined
        closing := fun hc => by cases hc
        returned := fun _ => ⟨rfl, hs.closing hclosed⟩ }

/-- **One step** keeps the invariant. -/
theorem valid_step {a : Action Caller Event} (hs : s.Valid) (h : s.step a = some t) :
    t.Valid := by
  cases a with
  | load i event seen =>
    obtain ⟨⟨_, _⟩, hload, rfl⟩ := Option.map_eq_some_iff.mp h
    exact valid_load hs hload
  | push i =>
    obtain ⟨⟨_, _⟩, hpush, rfl⟩ := Option.map_eq_some_iff.mp h
    exact valid_push hs hpush
  | pop => exact valid_pop hs h
  | call => exact valid_call hs h
  | consumeReturns ok => exact valid_consumeReturns hs h
  | advance => exact valid_advance hs h
  | shutdown => exact valid_shutdownStep hs h

end Steps

/-! ### Every run -/

section Runs
variable [DecidableEq Caller]

/-- **Every reachable state**, whatever the interleaving. -/
theorem valid_reachable {queue : BoundedQueue Event} (hitems : queue.items = [])
    (haccepted : queue.acceptedItems = 0) {s : QueuedSink Caller Event}
    (h : (machine queue).Reachable s) : s.Valid :=
  Machine.reachable_invariant Valid (valid_start queue hitems haccepted)
    (fun _ a _ hs hstep => valid_step (a := a) hs hstep) h

/-- On a closed queue no step accepts an event or opens the queue. -/
theorem closed_step {s t : QueuedSink Caller Event} {a : Action Caller Event}
    (hclosed : s.queue.closed = true) (h : s.step a = some t) :
    t.queue.closed = true ∧ t.pushed = s.pushed ∧
      ∃ more, t.answers = s.answers ++ more ∧ ∀ answer ∈ more, answer.2.2 = .unavailable := by
  have hquiet (hq : t.queue.closed = true) (hp : t.pushed = s.pushed)
      (ha : t.answers = s.answers) :
      t.queue.closed = true ∧ t.pushed = s.pushed ∧
        ∃ more, t.answers = s.answers ++ more ∧ ∀ answer ∈ more, answer.2.2 = .unavailable :=
    ⟨hq, hp, [], by rw [ha, List.append_nil], fun _ h => absurd h List.not_mem_nil⟩
  cases a with
  | load i event seen =>
    obtain ⟨⟨_, _⟩, hload, rfl⟩ := Option.map_eq_some_iff.mp h
    rcases load_cases hload with ⟨_, rfl⟩ | ⟨_, rfl⟩
    · exact hquiet hclosed rfl rfl
    · exact ⟨hclosed, rfl, _, rfl, fun answer ha => by rw [List.mem_singleton.mp ha]⟩
  | push i =>
    obtain ⟨⟨_, _⟩, hpush, rfl⟩ := Option.map_eq_some_iff.mp h
    obtain ⟨event, _, _, rfl⟩ := push_cases hpush
    obtain ⟨hcases, hstill⟩ := BoundedQueue.tryPush_cases event s.queue
    have hresult : (s.queue.tryPush event).1 = .closed := by
      rcases hcases with ⟨_, hopen, _⟩ | ⟨hresult, _⟩
      · rw [hopen] at hclosed
        cases hclosed
      · rw [hresult, hclosed]
        rfl
    refine ⟨hstill.trans hclosed, ?_, _, rfl, fun answer ha => ?_⟩
    · simp only [hresult]
      rfl
    · rw [List.mem_singleton.mp ha, hresult]
      rfl
  | pop =>
    obtain ⟨_, ⟨_, _, rfl⟩ | ⟨event, queue, _, hstill, _, rfl⟩⟩ := pop_cases h
    · exact hquiet hclosed rfl rfl
    · exact hquiet (hstill.trans hclosed) rfl rfl
  | call =>
    obtain ⟨event, _, rfl⟩ := call_cases h
    exact hquiet hclosed rfl rfl
  | consumeReturns ok =>
    obtain ⟨event, _, rfl⟩ := consumeReturns_cases h
    exact hquiet hclosed rfl rfl
  | advance =>
    rcases advance_cases h with ⟨_, rfl⟩ | ⟨_, rfl⟩ | ⟨_, rfl⟩ | ⟨_, rfl⟩
    · exact hquiet hclosed rfl rfl
    · exact hquiet hclosed rfl rfl
    · exact hquiet hclosed rfl rfl
    · exact hquiet rfl rfl rfl
  | shutdown =>
    rcases shutdownStep_cases h with ⟨_, rfl⟩ | ⟨_, rfl⟩ | ⟨_, _, rfl⟩
    · exact hquiet hclosed rfl rfl
    · exact hquiet rfl rfl rfl
    · exact hquiet hclosed rfl rfl

theorem closed_run {queue : BoundedQueue Event} {s t : QueuedSink Caller Event}
    {actions : List (Action Caller Event)} (hclosed : s.queue.closed = true)
    (h : (machine queue).run s actions = some t) :
    t.pushed = s.pushed ∧
      ∃ more, t.answers = s.answers ++ more ∧ ∀ answer ∈ more, answer.2.2 = .unavailable := by
  have hinv := Machine.run_invariant (m := machine queue)
    (fun u => u.queue.closed = true ∧ u.pushed = s.pushed ∧
      ∃ more, u.answers = s.answers ++ more ∧ ∀ answer ∈ more, answer.2.2 = .unavailable) ?_
    ⟨hclosed, rfl, [], (List.append_nil _).symm, fun _ h => absurd h List.not_mem_nil⟩ h
  · exact hinv.2
  · rintro u a v ⟨hu, hpushed, more, hanswers, hmore⟩ hstep
    obtain ⟨hv, hpushed', more', hanswers', hmore'⟩ := closed_step hu hstep
    refine ⟨hv, hpushed'.trans hpushed, more ++ more', ?_, fun answer ha => ?_⟩
    · rw [hanswers', hanswers, List.append_assoc]
    · rcases List.mem_append.mp ha with ha | ha
      · exact hmore answer ha
      · exact hmore' answer ha

omit [DecidableEq Caller] in
/-- All that returned, split by what `consume` said: the refused one, if any, is the last. -/
theorem returns_split {s : QueuedSink Caller Event} (hs : s.Valid) :
    s.returns.map Prod.fst = s.consumed ++ s.refused ∧ (s.inHand ++ s.refused).length ≤ 1 ∧
      (s.refused ≠ [] → s.inHand = [] ∧ s.inCall = []) := by
  have hall (h : AllTrue s.returns) : s.returns.map Prod.fst = s.consumed ∧ s.refused = [] := by
    refine ⟨?_, ?_⟩
    · rw [consumed, List.filter_eq_self.mpr h]
    · rw [refused, List.filter_eq_nil_iff.mpr fun r hr => by simp [h r hr], List.map_nil]
  have hlast (h : LastFalse s.returns) :
      s.returns.map Prod.fst = s.consumed ++ s.refused ∧ s.refused.length = 1 := by
    obtain ⟨before, event, hreturns, hbefore⟩ := h
    have htrue : before.filter (fun r => !r.2) = [] :=
      List.filter_eq_nil_iff.mpr fun r hr => by simp [hbefore r hr]
    have hsame : before.filter (fun r => r.2) = before := List.filter_eq_self.mpr hbefore
    simp [consumed, refused, hreturns, htrue, hsame]
  have hout := hs.outcome
  have hrunning (h : AllTrue s.returns) (hin : s.inHand.length ≤ 1) :
      s.returns.map Prod.fst = s.consumed ++ s.refused ∧ (s.inHand ++ s.refused).length ≤ 1 ∧
        (s.refused ≠ [] → s.inHand = [] ∧ s.inCall = []) := by
    obtain ⟨hconsumed, hnone⟩ := hall h
    rw [hconsumed, hnone, List.append_nil, List.append_nil]
    exact ⟨rfl, hin, fun hne => absurd rfl hne⟩
  have hfailed (h : LastFalse s.returns) (hin : s.inHand = []) (hcall : s.inCall = []) :
      s.returns.map Prod.fst = s.consumed ++ s.refused ∧ (s.inHand ++ s.refused).length ≤ 1 ∧
        (s.refused ≠ [] → s.inHand = [] ∧ s.inCall = []) := by
    obtain ⟨hsplit, hone⟩ := hlast h
    exact ⟨hsplit, Nat.le_of_eq (by rw [hin, List.nil_append, hone]), fun _ => ⟨hin, hcall⟩⟩
  cases hc : s.consumer <;> simp only [Outcome, hc] at hout
  case waiting => exact hrunning hout (by simp [inHand, hc])
  case popped => exact hrunning hout (by simp [inHand, hc])
  case consuming => exact hrunning hout (by simp [inHand, hc])
  case counting => exact hrunning hout (by simp [inHand, hc])
  case countingFailure => exact hfailed hout (by simp [inHand, hc]) (by simp [inCall, hc])
  case disabling => exact hfailed hout (by simp [inHand, hc]) (by simp [inCall, hc])
  case closing => exact hfailed hout (by simp [inHand, hc]) (by simp [inCall, hc])
  case finished =>
    rcases hout with hout | ⟨hout, _⟩
    · exact hfailed hout (by simp [inHand, hc]) (by simp [inCall, hc])
    · exact hrunning hout (by simp [inHand, hc])

omit [DecidableEq Caller] in
/-- The last return is the only one that can be false, and it returned the last call. -/
theorem false_is_last {s : QueuedSink Caller Event} (hs : s.Valid) {k : Nat} {event : Event}
    (h : s.returns[k]? = some (event, false)) : k + 1 = s.calls.length := by
  have hmem : event ∈ s.refused := by
    apply List.mem_map.mpr
    exact ⟨(event, false), List.mem_filter.mpr ⟨List.mem_of_getElem? h, rfl⟩, rfl⟩
  have hcall := ((returns_split hs).2.2 (List.ne_nil_of_mem hmem)).2
  have hnot : ¬AllTrue s.returns := fun hall =>
    absurd (hall _ (List.mem_of_getElem? h)) Bool.false_ne_true
  have hlast : LastFalse s.returns := by
    have hout := hs.outcome
    cases hc : s.consumer <;> simp only [Outcome, hc] at hout
    case finished => exact hout.resolve_right fun hdone => hnot hdone.1
    all_goals first | exact hout | exact absurd hout hnot
  obtain ⟨before, last, hreturns, hbefore⟩ := hlast
  have hk : k = before.length := by
    have hlt := (List.getElem?_eq_some_iff.mp h).1
    rw [hreturns, List.length_append, List.length_singleton] at hlt
    by_contra hne
    have hin : k < before.length := by omega
    rw [hreturns, List.getElem?_append_left hin] at h
    exact absurd (hbefore _ (List.mem_of_getElem? h)) Bool.false_ne_true
  rw [hs.calls, hcall, List.append_nil, List.length_map, hreturns, List.length_append, hk]
  rfl

omit [DecidableEq Caller] in
/-- A shut down sink that refused nothing has consumed everything. -/
theorem drained {s : QueuedSink Caller Event} (hs : s.Valid) (hdown : 0 < s.shutdowns)
    (hrefused : s.refused = []) :
    s.queue.items = [] ∧ s.consumed = s.pushed ∧
      s.consumedEvents = s.queue.acceptedItems := by
  have hfinished := hs.joined (hs.returned hdown).1
  have hout := hs.outcome
  have hcounted := hs.consumedEvents
  have hconserved := hs.conserved
  simp only [Outcome, hfinished] at hout
  simp only [uncounted, hfinished, UInt64.add_zero] at hcounted
  rw [(returns_split hs).1, hrefused, List.append_nil] at hconserved
  rcases hout with ⟨before, event, hreturns, _⟩ | ⟨_, _, hnil⟩
  · have hmem : event ∈ s.refused := by
      apply List.mem_map.mpr
      exact ⟨(event, false), List.mem_filter.mpr ⟨by simp [hreturns], rfl⟩, rfl⟩
    rw [hrefused] at hmem
    cases hmem
  · simp only [inHand, hfinished, hnil, List.append_nil] at hconserved
    exact ⟨hnil, hconserved.symm, by rw [hcounted, hs.acceptedItems, hconserved]⟩

/-- **The pipeline conserves what it acknowledges**, in every reachable state of any interleaving
of any number of callers with the consumer and `shutdown`. What was pushed is what was consumed,
then at most one event in the consumer's hands or refused by it, then what is queued. `consume` is
called at most once an event, in the order of the pushes, and not again after it has returned
false. Once `shutdown` has returned and nothing was refused, the queue is empty, everything
accepted was consumed, and no later answer is anything but unavailable. -/
theorem sink_conserves (capacity : Nat) (capacity_pos : 0 < capacity)
    (s : QueuedSink Caller Event)
    (h : (machine (.empty capacity capacity_pos)).Reachable s) :
    (s.acknowledged = s.pushed ∧
      s.pushed = s.consumed ++ (s.inHand ++ s.refused) ++ s.queue.items ∧
      (s.inHand ++ s.refused).length ≤ 1) ∧
    (s.calls <+: s.pushed ∧ s.returns.map Prod.fst <+: s.calls ∧
      ∀ k event, s.returns[k]? = some (event, false) → k + 1 = s.calls.length) ∧
    (0 < s.shutdowns → s.refused = [] →
      s.queue.items = [] ∧ s.consumedEvents = s.queue.acceptedItems ∧
      ∀ actions t, (machine (.empty capacity capacity_pos)).run s actions = some t →
        ∃ later, t.answers = s.answers ++ later ∧
          ∀ answer ∈ later, answer.2.2 = .unavailable) := by
  have hs := valid_reachable rfl rfl h
  obtain ⟨hsplit, hone, hrefused⟩ := returns_split hs
  have hpushed : s.pushed = s.consumed ++ (s.inHand ++ s.refused) ++ s.queue.items := by
    rw [hs.conserved, hsplit]
    by_cases hnone : s.refused = []
    · simp only [hnone, List.append_nil, List.append_assoc]
    · simp only [(hrefused hnone).1, List.nil_append, List.append_assoc]
  have hcalled : s.inCall <+: s.inHand ++ s.queue.items := by
    unfold inCall inHand
    cases s.consumer with
    | consuming event => exact ⟨s.queue.items, rfl⟩
    | _ => exact List.nil_prefix
  refine ⟨⟨hs.acknowledged, hpushed, hone⟩,
    ⟨?_, ⟨s.inCall, hs.calls.symm⟩, fun k event hk => false_is_last hs hk⟩, fun hdown hnone => ?_⟩
  · rw [hs.calls, hs.conserved]
    exact (List.prefix_append_right_inj _).mpr hcalled
  · obtain ⟨hnil, _, hcounted⟩ := drained hs hdown hnone
    exact ⟨hnil, hcounted, fun actions t ht => (closed_run (hs.returned hdown).2 ht).2⟩

/-- Two callers and a queue of one: one event is consumed, one finds the queue full, and one
comes too late. -/
def sampleSchedule : List (Action Bool Nat) :=
  [.load true 7 true, .load false 8 true, .push true, .push false, .pop, .shutdown, .call,
    .load true 9 true, .shutdown, .consumeReturns true, .push true, .advance, .pop, .shutdown]

theorem sink_conserves_sample :
    ∃ s : QueuedSink Bool Nat,
      (machine (.empty 1 Nat.one_pos)).run (machine (.empty 1 Nat.one_pos)).init
        sampleSchedule = some s ∧
      s.pushed = [7] ∧ s.consumed ++ (s.inHand ++ s.refused) ++ s.queue.items = [7] ∧
      s.answers.map (fun answer => answer.2.2) = [.accepted, .overloaded, .unavailable] ∧
      s.consumedEvents = s.queue.acceptedItems := by
  have hends : ((machine (.empty 1 Nat.one_pos)).run (machine (.empty 1 Nat.one_pos)).init
      sampleSchedule).map (fun s => (s.pushed, s.answers.map fun answer => answer.2.2,
        s.shutdowns, s.refused)) =
      some ([7], [.accepted, .overloaded, .unavailable], 1, []) := by decide
  obtain ⟨s, hs, hview⟩ := Option.map_eq_some_iff.mp hends
  obtain ⟨hpushed, hanswers, hdown, hrefused⟩ : s.pushed = [7] ∧
      s.answers.map (fun answer => answer.2.2) = [.accepted, .overloaded, .unavailable] ∧
      s.shutdowns = 1 ∧ s.refused = [] := by simpa only [Prod.mk.injEq] using hview
  obtain ⟨⟨_, hconserved, _⟩, _, hdrained⟩ := sink_conserves 1 Nat.one_pos s ⟨_, hs⟩
  exact ⟨s, hs, hpushed, hconserved.symm.trans hpushed, hanswers,
    (hdrained (by rw [hdown]; exact Nat.one_pos) hrefused).2.1⟩

end Runs

end QueuedSink

end TraceForge.Telemetry
