import TraceForge.Concurrency.QueueHistory
import TraceForge.Library.ConditionVariable

/-! The bounded queue with its condition variable.

`try_push` and `close` notify after they have released the lock, so between the two any thread may
run; a thread in `wait_pop` tests the predicate when it first has the lock and again whenever it
has been woken, and parks while the queue is open and empty. Seen without the waiting this is the
queue of atomic calls (`atomically`). No wakeup is lost (`no_lost_wakeup`): each item has a
notification to come or a consumer awake as long as a consumer is parked, and on a closed queue a
consumer is parked only until the closing thread has notified. -/
namespace TraceForge.Concurrency
open Library

/-- `notifyingOne` and `notifyingAll` are the threads in `try_push` and `close` that have released
the lock and have yet to notify. -/
structure QueueMonitor (Thread Item : Type) where
  shared : SharedQueue Thread Item
  waiters : Waiters Thread
  notifyingOne : List Thread
  notifyingAll : List Thread

/-- `chosen` is the parked thread that `notify_one` wakes, if one is parked. -/
inductive MonitorAction (Thread Item : Type) where
  | tryPush (thread : Thread) (item : Item)
  | notifyOne (thread : Thread) (chosen : Option Thread)
  | waitPop (thread : Thread)
  | wakeSpuriously (thread : Thread)
  | retest (thread : Thread)
  | close (thread : Thread)
  | notifyAll (thread : Thread)
  | stats (thread : Thread)

namespace QueueMonitor

variable {Thread Item : Type}

section
variable [DecidableEq Thread]

/-- The thread is in none of the queue's functions. -/
def Idle (s : QueueMonitor Thread Item) (thread : Thread) : Prop :=
  thread ∉ s.waiters.parked ∧ thread ∉ s.waiters.awake ∧ thread ∉ s.notifyingOne ∧
    thread ∉ s.notifyingAll

instance decidableIdle (s : QueueMonitor Thread Item) (thread : Thread) :
    Decidable (s.Idle thread) := inferInstanceAs (Decidable (_ ∧ _ ∧ _ ∧ _))

/-- The critical section of `try_push`; only an accepted item is announced. -/
def tryPush (thread : Thread) (item : Item) (s : QueueMonitor Thread Item) :
    Option (QueueMonitor Thread Item) :=
  if s.Idle thread then
    (s.shared.step (.tryPush thread item)).map fun shared =>
      {s with
        shared := shared
        notifyingOne :=
          if (s.shared.queue.tryPush item).1 = .accepted then thread :: s.notifyingOne
          else s.notifyingOne}
  else none

def notifyOne (thread : Thread) (chosen : Option Thread) (s : QueueMonitor Thread Item) :
    Option (QueueMonitor Thread Item) :=
  if thread ∈ s.notifyingOne then
    (s.waiters.notifyOne chosen).map fun waiters =>
      {s with waiters := waiters, notifyingOne := s.notifyingOne.erase thread}
  else none

/-- The thread has the lock and tests the predicate: it pops and returns, or it parks. -/
def test (thread : Thread) (s : QueueMonitor Thread Item) : QueueMonitor Thread Item :=
  match s.shared.step (.waitPop thread) with
  | some shared => {s with shared := shared}
  | none => {s with waiters := s.waiters.park thread}

def waitPop (thread : Thread) (s : QueueMonitor Thread Item) : Option (QueueMonitor Thread Item) :=
  if s.Idle thread then some (s.test thread) else none

def wakeSpuriously (thread : Thread) (s : QueueMonitor Thread Item) :
    Option (QueueMonitor Thread Item) :=
  (s.waiters.wake thread).map fun waiters => {s with waiters := waiters}

def retest (thread : Thread) (s : QueueMonitor Thread Item) : Option (QueueMonitor Thread Item) :=
  (s.waiters.resume thread).map fun waiters => test thread {s with waiters := waiters}

/-- The critical section of `close`. -/
def close (thread : Thread) (s : QueueMonitor Thread Item) : Option (QueueMonitor Thread Item) :=
  if s.Idle thread then
    (s.shared.step (.close thread)).map fun shared =>
      {s with shared := shared, notifyingAll := thread :: s.notifyingAll}
  else none

def notifyAll (thread : Thread) (s : QueueMonitor Thread Item) :
    Option (QueueMonitor Thread Item) :=
  if thread ∈ s.notifyingAll then
    some {s with
      waiters := s.waiters.notifyAll
      notifyingAll := s.notifyingAll.erase thread}
  else none

def stats (thread : Thread) (s : QueueMonitor Thread Item) : Option (QueueMonitor Thread Item) :=
  if s.Idle thread then
    (s.shared.step (.stats thread)).map fun shared => {s with shared := shared}
  else none

def step (s : QueueMonitor Thread Item) :
    MonitorAction Thread Item → Option (QueueMonitor Thread Item)
  | .tryPush thread item => s.tryPush thread item
  | .notifyOne thread chosen => s.notifyOne thread chosen
  | .waitPop thread => s.waitPop thread
  | .wakeSpuriously thread => s.wakeSpuriously thread
  | .retest thread => s.retest thread
  | .close thread => s.close thread
  | .notifyAll thread => s.notifyAll thread
  | .stats thread => s.stats thread

def machine (queue : BoundedQueue Item) :
    Machine (QueueMonitor Thread Item) (MonitorAction Thread Item) where
  init := ⟨⟨queue, []⟩, .nobody, [], []⟩
  step := step

/-! ### Without the waiting -/

/-- Two consumers wait, two items are pushed before either push has notified, one of the consumers
is woken, and a third one takes the item it was woken for. -/
def sampleSchedule : List (MonitorAction Nat Char) :=
  [.waitPop 1, .waitPop 2, .tryPush 3 'a', .tryPush 4 'b', .notifyOne 4 (some 2), .waitPop 5]

/-- There are enough notifications for the items, and one for everybody once the queue is closed. -/
structure Wakes (s : QueueMonitor Thread Item) : Prop where
  items : s.waiters.Covers s.shared.queue.items.length s.notifyingOne.length
  closed : s.shared.queue.closed = true → s.waiters.parked = [] ∨ s.notifyingAll ≠ []

variable {s t : QueueMonitor Thread Item}

theorem tryPush_wakes {thread : Thread} {item : Item} (hs : s.Wakes)
    (h : s.tryPush thread item = some t) : t.Wakes := by
  obtain ⟨_, h⟩ := Option.ite_none_right_eq_some.mp h
  obtain ⟨shared, hshared, rfl⟩ := Option.map_eq_some_iff.mp h
  have hqueue : shared.queue = (s.shared.queue.tryPush item).2 := by
    cases hshared
    rfl
  obtain ⟨hcases, hclosed⟩ := BoundedQueue.tryPush_cases item s.shared.queue
  rw [← hqueue] at hcases hclosed
  refine ⟨?_, fun hc => hs.closed (hclosed.symm.trans hc)⟩
  rcases hcases with ⟨hresult, _, hitems, _⟩ | ⟨hresult, hitems, _⟩
  · simp only [hresult, if_true, hitems, List.length_append, List.length_cons, List.length_nil]
    exact hs.items.announced
  · have hrefused : (s.shared.queue.tryPush item).1 ≠ .accepted := by
      rw [hresult]
      split <;> decide
    simp only [if_neg hrefused, hitems]
    exact hs.items

omit [DecidableEq Thread] in
/-- A thread that tests pops the item it came for, or parks with nothing to do. -/
theorem test_wakes {thread : Thread}
    (hitems : s.waiters.Covers (s.shared.queue.items.length - 1) s.notifyingOne.length)
    (hclosed : s.shared.queue.closed = true → s.waiters.parked = [] ∨ s.notifyingAll ≠ []) :
    (s.test thread).Wakes := by
  unfold test
  cases h : s.shared.step (.waitPop thread) with
  | some shared =>
    obtain ⟨⟨answer, queue⟩, hpop, rfl⟩ := Option.map_eq_some_iff.mp h
    cases answer with
    | none =>
      obtain ⟨hnil, _, rfl⟩ := BoundedQueue.waitPop_none hpop
      simp only [hnil, List.length_nil] at hitems
      exact ⟨by simpa only [hnil, List.length_nil] using hitems, hclosed⟩
    | some item =>
      obtain ⟨hcons, hsame, _⟩ := BoundedQueue.waitPop_some hpop
      rw [hcons] at hitems
      exact ⟨hitems, fun hc => hclosed (hsame.symm.trans hc)⟩
  | none =>
    obtain ⟨hnil, hopen⟩ := BoundedQueue.waitPop_waits (Option.map_eq_none_iff.mp h)
    refine ⟨?_, fun hc => ?_⟩
    · simp only [hnil]
      exact Waiters.covers_park thread s.waiters _
    · exact absurd (hopen.symm.trans hc) Bool.false_ne_true

theorem step_wakes {a : MonitorAction Thread Item} (hs : s.Wakes) (h : s.step a = some t) :
    t.Wakes := by
  cases a with
  | tryPush thread item => exact tryPush_wakes hs h
  | notifyOne thread chosen =>
    obtain ⟨hmem, h⟩ := Option.ite_none_right_eq_some.mp h
    obtain ⟨waiters, hwaiters, rfl⟩ := Option.map_eq_some_iff.mp h
    have hpending : (s.notifyingOne.erase thread).length + 1 = s.notifyingOne.length := by
      have hpos := List.length_pos_of_mem hmem
      rw [List.length_erase_of_mem hmem]
      omega
    have hitems := hs.items
    rw [← hpending] at hitems
    refine ⟨hitems.notifyOne hwaiters, fun hc => (hs.closed hc).imp_left fun hnil => ?_⟩
    exact Waiters.notifyOne_parked hwaiters hnil
  | waitPop thread =>
    obtain ⟨_, h⟩ := Option.ite_none_right_eq_some.mp h
    cases h
    exact test_wakes (hs.items.mono (Nat.sub_le ..)) hs.closed
  | wakeSpuriously thread =>
    obtain ⟨waiters, hwaiters, rfl⟩ := Option.map_eq_some_iff.mp h
    refine ⟨hs.items.wake hwaiters, fun hc => .inr ((hs.closed hc).resolve_left ?_)⟩
    exact (Waiters.wake_cases hwaiters).1
  | retest thread =>
    obtain ⟨waiters, hwaiters, rfl⟩ := Option.map_eq_some_iff.mp h
    refine test_wakes (hs.items.resume hwaiters) fun hc => ?_
    exact (hs.closed hc).imp_left (Waiters.resume_cases hwaiters).1.trans
  | close thread =>
    obtain ⟨_, h⟩ := Option.ite_none_right_eq_some.mp h
    cases h
    exact ⟨hs.items, fun _ => .inr (List.cons_ne_nil _ _)⟩
  | notifyAll thread =>
    obtain ⟨_, h⟩ := Option.ite_none_right_eq_some.mp h
    cases h
    exact ⟨Waiters.covers_notifyAll .., fun _ => .inl rfl⟩
  | stats thread =>
    obtain ⟨_, h⟩ := Option.ite_none_right_eq_some.mp h
    cases h
    exact ⟨hs.items, hs.closed⟩

/-- **No wakeup is lost**, for any number of producers and consumers and any interleaving: where a
consumer is parked and the queue has an item or is closed, a notification is still to be sent or a
consumer is awake that has yet to test again. -/
theorem no_lost_wakeup (capacity : Nat) (capacity_pos : 0 < capacity)
    (s : QueueMonitor Thread Item)
    (h : (machine (.empty capacity capacity_pos)).Reachable s) :
    ¬(s.waiters.parked ≠ [] ∧ (s.shared.queue.items ≠ [] ∨ s.shared.queue.closed = true) ∧
      s.notifyingOne = [] ∧ s.notifyingAll = [] ∧ s.waiters.awake = []) := by
  have hs : s.Wakes := Machine.reachable_invariant Wakes ⟨Waiters.covers_nobody .., fun _ => .inl rfl⟩
    (fun _ _ _ hs hstep => step_wakes hs hstep) h
  rintro ⟨hparked, hitems | hclosed, hone, hall, hawake⟩
  · have hwork := hs.items.not_lost hparked (List.length_pos_iff.mpr hitems)
    rw [hone] at hwork
    exact hwork.elim (Nat.lt_irrefl 0) fun h => h hawake
  · exact (hs.closed hclosed).elim hparked fun h => h hall

theorem no_lost_wakeup_stolen :
    ∃ s, (machine (.empty 2 Nat.two_pos)).run (machine (.empty 2 Nat.two_pos)).init
        sampleSchedule = some s ∧
      s.waiters.parked = [1] ∧ s.shared.queue.items = ['b'] ∧ s.notifyingAll = [] ∧
      (s.notifyingOne = [] → s.waiters.awake ≠ []) := by
  refine ⟨_, rfl, rfl, rfl, rfl, fun hone hawake => ?_⟩
  exact no_lost_wakeup 2 Nat.two_pos _ ⟨sampleSchedule, rfl⟩
    ⟨by decide, .inl (by decide), hone, rfl, hawake⟩

end

end QueueMonitor

end TraceForge.Concurrency
