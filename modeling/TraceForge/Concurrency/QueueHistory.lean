import TraceForge.Concurrency.BoundedQueue
import TraceForge.Library.History
import TraceForge.Library.Machine

/-! The bounded queue shared by any number of threads.

Each critical section is one step, taken by whichever thread holds the mutex; a `wait_pop` whose
wait goes on takes none. The history keeps every answer. What a queue of bounded capacity may
answer is a law on histories (`QueueLaw`), which mentions no counter and no state; every history
of the code's queue obeys it and every counter is the history's (`Recounts`). -/
namespace TraceForge.Concurrency
open Library

/-- A call that has returned, with what it returned. -/
inductive QueueEvent (Thread Item : Type) where
  | pushed (thread : Thread) (item : Item) (result : QueuePushResult)
  | popped (thread : Thread) (item : Option Item)
  | closed (thread : Thread)
  | observed (thread : Thread) (stats : BoundedQueueStats)

inductive QueueCall (Thread Item : Type) where
  | tryPush (thread : Thread) (item : Item)
  | waitPop (thread : Thread)
  | close (thread : Thread)
  | stats (thread : Thread)

structure SharedQueue (Thread Item : Type) where
  queue : BoundedQueue Item
  history : List (QueueEvent Thread Item)

variable {Thread Item : Type}

namespace SharedQueue

def step (s : SharedQueue Thread Item) : QueueCall Thread Item → Option (SharedQueue Thread Item)
  | .tryPush thread item =>
    let (result, queue) := s.queue.tryPush item
    some ⟨queue, s.history ++ [.pushed thread item result]⟩
  | .waitPop thread =>
    s.queue.waitPop.map fun answer => ⟨answer.2, s.history ++ [.popped thread answer.1]⟩
  | .close thread => some ⟨s.queue.close, s.history ++ [.closed thread]⟩
  | .stats thread => some ⟨s.queue, s.history ++ [.observed thread s.queue.stats]⟩

def machine (Thread : Type) (queue : BoundedQueue Item) :
    Machine (SharedQueue Thread Item) (QueueCall Thread Item) where
  init := ⟨queue, []⟩
  step := step

end SharedQueue

/-! ### What a history says -/

namespace QueueEvent

def acceptedItem : QueueEvent Thread Item → Option Item
  | .pushed _ item .accepted => some item
  | _ => none

def poppedItem : QueueEvent Thread Item → Option Item
  | .popped _ item => item
  | _ => none

/-- A push answered full or closed. -/
def isRejection : QueueEvent Thread Item → Bool
  | .pushed _ _ .full | .pushed _ _ .closed => true
  | _ => false

def isClose : QueueEvent Thread Item → Bool
  | .closed _ => true
  | _ => false

end QueueEvent

/-- The items of the accepted pushes, in push order. -/
def accepted (history : List (QueueEvent Thread Item)) : List Item :=
  history.filterMap QueueEvent.acceptedItem

def popped (history : List (QueueEvent Thread Item)) : List Item :=
  history.filterMap QueueEvent.poppedItem

def rejections (history : List (QueueEvent Thread Item)) : Nat :=
  history.countP QueueEvent.isRejection

def wasClosed (history : List (QueueEvent Thread Item)) : Bool :=
  history.any QueueEvent.isClose

/-- How many items are in the queue. -/
def occupancy (history : List (QueueEvent Thread Item)) : Nat :=
  (accepted history).length - (popped history).length

/-- What a queue of this capacity may answer. -/
def QueueLaw (capacity : Nat) (past : List (QueueEvent Thread Item)) :
    QueueEvent Thread Item → Prop
  | .pushed _ _ .accepted => wasClosed past = false ∧ occupancy past < capacity
  | .pushed _ _ .full => wasClosed past = false ∧ occupancy past = capacity
  | .pushed _ _ .closed => wasClosed past = true
  | .popped _ (some item) => popped past ++ [item] <+: accepted past
  | .popped _ none => wasClosed past = true ∧ popped past = accepted past
  | .closed _ => True
  | .observed _ stats =>
    stats.capacity = capacity ∧ stats.currentSize = occupancy past ∧
      Peak occupancy past stats.highWatermark ∧
      stats.acceptedItems = UInt64.ofNat (accepted past).length ∧
      stats.rejectedItems = UInt64.ofNat (rejections past) ∧ stats.closed = wasClosed past

/-! ### The code's queue -/

/-- The queue is what the history says it is, and the history is lawful. -/
structure Recounts (capacity : Nat) (s : SharedQueue Thread Item) : Prop where
  size : s.queue.capacity = capacity
  items : popped s.history ++ s.queue.items = accepted s.history
  closed : s.queue.closed = wasClosed s.history
  highWatermark : Peak occupancy s.history s.queue.highWatermark
  highWatermark_le : s.queue.highWatermark ≤ capacity
  acceptedItems : s.queue.acceptedItems = UInt64.ofNat (accepted s.history).length
  rejectedItems : s.queue.rejectedItems = UInt64.ofNat (rejections s.history)
  lawful : Lawful (QueueLaw capacity) s.history

variable {capacity : Nat} {s t : SharedQueue Thread Item}

theorem Recounts.occupancy (h : Recounts capacity s) :
    occupancy s.history = s.queue.items.length := by
  rw [Concurrency.occupancy, ← h.items, List.length_append, Nat.add_sub_cancel_left]

theorem recounts_start (Thread : Type) (capacity : Nat) (hpos : 0 < capacity) :
    Recounts capacity (⟨.empty capacity hpos, []⟩ : SharedQueue Thread Item) where
  size := rfl
  items := rfl
  closed := rfl
  highWatermark := Peak.nil _
  highWatermark_le := Nat.zero_le capacity
  acceptedItems := rfl
  rejectedItems := rfl
  lawful := .nil

@[simp] theorem accepted_snoc (history : List (QueueEvent Thread Item))
    (e : QueueEvent Thread Item) :
    accepted (history ++ [e]) = accepted history ++ e.acceptedItem.toList := by
  rw [accepted, List.filterMap_append]
  cases h : e.acceptedItem <;> simp [accepted, h]

@[simp] theorem popped_snoc (history : List (QueueEvent Thread Item))
    (e : QueueEvent Thread Item) :
    popped (history ++ [e]) = popped history ++ e.poppedItem.toList := by
  rw [popped, List.filterMap_append]
  cases h : e.poppedItem <;> simp [popped, h]

@[simp] theorem rejections_snoc (history : List (QueueEvent Thread Item))
    (e : QueueEvent Thread Item) :
    rejections (history ++ [e]) = rejections history + e.isRejection.toNat := by
  rw [rejections, List.countP_append, List.countP_singleton]
  cases e.isRejection <;> rfl

@[simp] theorem wasClosed_snoc (history : List (QueueEvent Thread Item))
    (e : QueueEvent Thread Item) :
    wasClosed (history ++ [e]) = (wasClosed history || e.isClose) := by
  rw [wasClosed, List.any_append, List.any_cons, List.any_nil, Bool.or_false]
  rfl

/-! ### One step -/

/-- A call that moves no item: it may reject, close or only look. -/
theorem Recounts.still (h : Recounts capacity s) (e : QueueEvent Thread Item)
    {queue : BoundedQueue Item} (haccepted : e.acceptedItem = none)
    (hpopped : e.poppedItem = none) (hlaw : QueueLaw capacity s.history e)
    (hsize : queue.capacity = s.queue.capacity) (hitems : queue.items = s.queue.items)
    (hclosed : queue.closed = (s.queue.closed || e.isClose))
    (hpeak : queue.highWatermark = s.queue.highWatermark)
    (haccepts : queue.acceptedItems = s.queue.acceptedItems)
    (hrejects : queue.rejectedItems = s.queue.rejectedItems + UInt64.ofNat e.isRejection.toNat) :
    Recounts capacity (⟨queue, s.history ++ [e]⟩ : SharedQueue Thread Item) := by
  have hsame : accepted (s.history ++ [e]) = accepted s.history := by
    rw [accepted_snoc, haccepted, Option.toList_none, List.append_nil]
  have hsame' : popped (s.history ++ [e]) = popped s.history := by
    rw [popped_snoc, hpopped, Option.toList_none, List.append_nil]
  have hkept : Concurrency.occupancy (s.history ++ [e]) = Concurrency.occupancy s.history := by
    rw [Concurrency.occupancy, hsame, hsame']
    rfl
  exact
    { size := hsize.trans h.size
      items := by rw [hsame, hsame', hitems, h.items]
      closed := by rw [hclosed, wasClosed_snoc, h.closed]
      highWatermark := by
        have hgrown := h.highWatermark.snoc e
        rwa [hkept, Nat.max_eq_left (h.highWatermark.bound _ List.prefix_rfl), ← hpeak] at hgrown
      highWatermark_le := hpeak ▸ h.highWatermark_le
      acceptedItems := by rw [hsame, haccepts, h.acceptedItems]
      rejectedItems := by rw [rejections_snoc, UInt64.ofNat_add, hrejects, h.rejectedItems]
      lawful := h.lawful.snoc hlaw }

theorem tryPush_recounts (h : Recounts capacity s) (thread : Thread) (item : Item) :
    Recounts capacity (⟨(s.queue.tryPush item).2,
      s.history ++ [.pushed thread item (s.queue.tryPush item).1]⟩ : SharedQueue Thread Item) := by
  unfold BoundedQueue.tryPush
  by_cases hclosed : s.queue.closed = true
  · rw [if_pos hclosed]
    exact h.still (.pushed thread item .closed) rfl rfl (h.closed.symm.trans hclosed) rfl rfl
      (Bool.or_false _).symm rfl rfl rfl
  have hopen : wasClosed s.history = false := h.closed.symm.trans (Bool.eq_false_iff.mpr hclosed)
  rw [if_neg hclosed]
  by_cases hfull : s.queue.items.length = s.queue.capacity
  · rw [dif_pos hfull]
    have hlaw : QueueLaw capacity s.history (.pushed thread item .full) :=
      ⟨hopen, h.occupancy.trans (hfull.trans h.size)⟩
    exact h.still _ rfl rfl hlaw rfl rfl (Bool.or_false _).symm rfl rfl rfl
  rw [dif_neg hfull]
  have hitems : popped s.history ++ (s.queue.items ++ [item]) = accepted s.history ++ [item] := by
    rw [← List.append_assoc, h.items]
  have hroom : s.queue.items.length < capacity := by
    have hle := s.queue.items_le
    rw [← h.size]
    omega
  have hgrown : Concurrency.occupancy (s.history ++ [.pushed thread item .accepted]) =
      s.queue.items.length + 1 := by
    rw [Concurrency.occupancy, accepted_snoc, popped_snoc]
    show (accepted s.history ++ [item]).length - (popped s.history ++ []).length = _
    rw [← hitems, List.append_nil, List.length_append, Nat.add_sub_cancel_left,
      List.length_append, List.length_singleton]
  exact
    { size := h.size
      items := by simpa [QueueEvent.acceptedItem, QueueEvent.poppedItem] using hitems
      closed := by simpa [QueueEvent.isClose] using h.closed
      highWatermark := by
        have hpeak := h.highWatermark.snoc (.pushed thread item .accepted)
        rwa [hgrown] at hpeak
      highWatermark_le := Nat.max_le.mpr ⟨h.highWatermark_le, hroom⟩
      acceptedItems := by
        rw [accepted_snoc, QueueEvent.acceptedItem, Option.toList_some, List.length_append,
          List.length_singleton, UInt64.ofNat_add, ← h.acceptedItems]
        rfl
      rejectedItems := by simpa [QueueEvent.isRejection] using h.rejectedItems
      lawful := h.lawful.snoc ⟨hopen, h.occupancy.trans_lt hroom⟩ }

theorem waitPop_recounts (h : Recounts capacity s) (thread : Thread)
    {answer : Option Item × BoundedQueue Item} (hpop : s.queue.waitPop = some answer) :
    Recounts capacity
      (⟨answer.2, s.history ++ [.popped thread answer.1]⟩ : SharedQueue Thread Item) := by
  unfold BoundedQueue.waitPop at hpop
  split at hpop
  · rename_i hnil
    split at hpop
    · rename_i hclosed
      cases hpop
      have hdrained : popped s.history = accepted s.history := by
        rw [← h.items, hnil, List.append_nil]
      have hlaw : QueueLaw capacity s.history (.popped thread none) :=
        ⟨h.closed.symm.trans hclosed, hdrained⟩
      exact h.still _ rfl rfl hlaw rfl rfl (Bool.or_false _).symm rfl rfl
        (UInt64.add_zero _).symm
    · cases hpop
  · rename_i item rest hcons
    cases hpop
    have hitems : popped s.history ++ [item] ++ rest = accepted s.history := by
      rw [List.append_assoc, List.singleton_append, ← hcons, h.items]
    have hshrunk : Concurrency.occupancy (s.history ++ [.popped thread (some item)]) ≤
        Concurrency.occupancy s.history := by
      rw [Concurrency.occupancy, accepted_snoc, popped_snoc]
      show (accepted s.history ++ []).length - (popped s.history ++ [item]).length ≤
        (accepted s.history).length - (popped s.history).length
      rw [List.append_nil, List.length_append]
      omega
    exact
      { size := h.size
        items := by simpa [QueueEvent.acceptedItem, QueueEvent.poppedItem] using hitems
        closed := by simpa [QueueEvent.isClose] using h.closed
        highWatermark := by
          have hpeak := h.highWatermark.snoc (.popped thread (some item))
          have hbound := h.highWatermark.bound _ List.prefix_rfl
          rwa [Nat.max_eq_left (Nat.le_trans hshrunk hbound)] at hpeak
        highWatermark_le := h.highWatermark_le
        acceptedItems := by simpa [QueueEvent.acceptedItem] using h.acceptedItems
        rejectedItems := by simpa [QueueEvent.isRejection] using h.rejectedItems
        lawful := h.lawful.snoc ⟨rest, hitems⟩ }

theorem step_recounts {call : QueueCall Thread Item} (h : Recounts capacity s)
    (hstep : s.step call = some t) : Recounts capacity t := by
  cases call with
  | tryPush thread item =>
    cases hstep
    exact tryPush_recounts h thread item
  | waitPop thread =>
    obtain ⟨answer, hpop, rfl⟩ := Option.map_eq_some_iff.mp hstep
    exact waitPop_recounts h thread hpop
  | close thread =>
    cases hstep
    exact h.still _ rfl rfl trivial rfl rfl (Bool.or_true _).symm rfl rfl
      (UInt64.add_zero _).symm
  | stats thread =>
    cases hstep
    have hlaw : QueueLaw capacity s.history (.observed thread s.queue.stats) :=
      ⟨h.size, h.occupancy.symm, h.highWatermark, h.acceptedItems, h.rejectedItems, h.closed⟩
    exact h.still _ rfl rfl hlaw rfl rfl (Bool.or_false _).symm rfl rfl (UInt64.add_zero _).symm

/-- **The bounded queue is safe** under every schedule of any number of threads: popped items and
contents are the accepted items in push order, the counters are exact, and every answer given in
the history was right at its moment. -/
theorem queue_safe (Thread : Type) (capacity : Nat) (hpos : 0 < capacity)
    (s : SharedQueue Thread Item)
    (hs : (SharedQueue.machine Thread (.empty capacity hpos)).Reachable s) :
    popped s.history ++ s.queue.items = accepted s.history ∧
      s.queue.items.length ≤ capacity ∧
      Peak occupancy s.history s.queue.highWatermark ∧
      (∀ past, past <+: s.history → occupancy past ≤ capacity) ∧
      s.queue.acceptedItems = UInt64.ofNat ((popped s.history).length + s.queue.items.length) ∧
      s.queue.rejectedItems = UInt64.ofNat (rejections s.history) ∧
      (∀ past e later, s.history = past ++ e :: later → QueueLaw capacity past e) := by
  have h : Recounts capacity s :=
    Machine.reachable_invariant (Recounts capacity) (recounts_start Thread capacity hpos)
      (fun _ _ _ h hstep => step_recounts h hstep) hs
  refine ⟨h.items, h.size ▸ s.queue.items_le, h.highWatermark, fun past hpast => ?_, ?_,
    h.rejectedItems, fun past e later hsplit => h.lawful.at hsplit⟩
  · exact Nat.le_trans (h.highWatermark.bound past hpast) h.highWatermark_le
  · rw [h.acceptedItems, ← h.items, List.length_append]

/-- Two producers and a consumer on a queue of one: a push is refused for want of room, another
because the queue is closed, and the consumer drains it. -/
theorem queue_safe_drained :
    let calls : List (QueueCall Nat Char) :=
      [.tryPush 1 'a', .tryPush 2 'b', .close 1, .tryPush 2 'c', .waitPop 3, .waitPop 3]
    ∃ s, (SharedQueue.machine Nat (.empty 1 Nat.one_pos)).run
        (SharedQueue.machine Nat (.empty 1 Nat.one_pos)).init calls = some s ∧
      accepted s.history = ['a'] ∧ rejections s.history = 2 ∧
      popped s.history ++ s.queue.items = accepted s.history := by
  intro calls
  exact ⟨_, rfl, rfl, rfl, (queue_safe Nat 1 Nat.one_pos _ ⟨calls, rfl⟩).1⟩

end TraceForge.Concurrency
