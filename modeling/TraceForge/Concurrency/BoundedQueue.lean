import Mathlib.Data.List.Basic

/-! `BoundedQueue` (`concurrency/bounded_queue.hpp`).

Every operation holds the queue's mutex from beginning to end, so each is one atomic function
here. The capacity is positive and the queue never longer than it: both are part of the type. -/
namespace TraceForge.Concurrency

inductive QueuePushResult where
  | accepted
  | full
  | closed
deriving DecidableEq

structure BoundedQueueStats where
  capacity : Nat
  currentSize : Nat
  highWatermark : Nat
  acceptedItems : UInt64
  rejectedItems : UInt64
  closed : Bool
deriving DecidableEq

structure BoundedQueue (Item : Type) where
  capacity : Nat
  items : List Item
  highWatermark : Nat
  acceptedItems : UInt64
  rejectedItems : UInt64
  closed : Bool
  capacity_pos : 0 < capacity
  items_le : items.length ≤ capacity

namespace BoundedQueue

variable {Item : Type}

def empty (capacity : Nat) (capacity_pos : 0 < capacity) : BoundedQueue Item where
  capacity := capacity
  items := []
  highWatermark := 0
  acceptedItems := 0
  rejectedItems := 0
  closed := false
  capacity_pos := capacity_pos
  items_le := Nat.zero_le capacity

/-- The constructor. -/
def create (capacity : Nat) : Except String (BoundedQueue Item) :=
  if h : capacity = 0 then .error "queue capacity must be positive"
  else .ok (empty capacity (Nat.pos_of_ne_zero h))

def tryPush (item : Item) (q : BoundedQueue Item) : QueuePushResult × BoundedQueue Item :=
  if q.closed then (.closed, {q with rejectedItems := q.rejectedItems + 1})
  else if h : q.items.length = q.capacity then
    (.full, {q with rejectedItems := q.rejectedItems + 1})
  else
    (.accepted, {q with
      items := q.items ++ [item]
      acceptedItems := q.acceptedItems + 1
      highWatermark := max q.highWatermark (q.items.length + 1)
      items_le := by
        have hle := q.items_le
        rw [List.length_append, List.length_singleton]
        omega})

/-- `none` while the wait goes on: the queue is open and empty. -/
def waitPop (q : BoundedQueue Item) : Option (Option Item × BoundedQueue Item) :=
  match h : q.items with
  | [] => if q.closed then some (none, q) else none
  | item :: rest =>
    some (some item, {q with
      items := rest
      items_le := by
        have hle := q.items_le
        rw [h, List.length_cons] at hle
        omega})

def close (q : BoundedQueue Item) : BoundedQueue Item := {q with closed := true}

def stats (q : BoundedQueue Item) : BoundedQueueStats where
  capacity := q.capacity
  currentSize := q.items.length
  highWatermark := q.highWatermark
  acceptedItems := q.acceptedItems
  rejectedItems := q.rejectedItems
  closed := q.closed

/-! ### What each operation can do -/

/-- A push either stores the item in an open queue or changes nothing but a counter. -/
theorem tryPush_cases (item : Item) (q : BoundedQueue Item) :
    ((q.tryPush item).1 = .accepted ∧ q.closed = false ∧
        (q.tryPush item).2.items = q.items ++ [item] ∧
        (q.tryPush item).2.acceptedItems = q.acceptedItems + 1 ∨
      (q.tryPush item).1 = (if q.closed then .closed else .full) ∧
        (q.tryPush item).2.items = q.items ∧
        (q.tryPush item).2.acceptedItems = q.acceptedItems) ∧
      (q.tryPush item).2.closed = q.closed := by
  unfold tryPush
  cases q.closed
  · by_cases hfull : q.items.length = q.capacity
    · simp [hfull]
    · simp [hfull]
  · simp

theorem waitPop_none {q r : BoundedQueue Item} (h : q.waitPop = some (none, r)) :
    q.items = [] ∧ q.closed = true ∧ r = q := by
  unfold waitPop at h
  split at h
  · rename_i hnil
    split at h
    · rename_i hclosed
      cases h
      exact ⟨hnil, hclosed, rfl⟩
    · cases h
  · cases h

/-- A push that is not accepted is counted as rejected, and no other. -/
theorem tryPush_rejectedItems (item : Item) (q : BoundedQueue Item) :
    (q.tryPush item).2.rejectedItems =
      if (q.tryPush item).1 = .accepted then q.rejectedItems else q.rejectedItems + 1 := by
  unfold tryPush
  cases q.closed
  · by_cases hfull : q.items.length = q.capacity
    · simp [hfull]
    · simp [hfull]
  · simp

theorem waitPop_counters {q r : BoundedQueue Item} {answer : Option Item}
    (h : q.waitPop = some (answer, r)) :
    r.acceptedItems = q.acceptedItems ∧ r.rejectedItems = q.rejectedItems := by
  unfold waitPop at h
  split at h
  · split at h
    · cases h
      exact ⟨rfl, rfl⟩
    · cases h
  · cases h
    exact ⟨rfl, rfl⟩

/-- A wait goes on only while the queue is open and empty. -/
theorem waitPop_waits {q : BoundedQueue Item} (h : q.waitPop = none) :
    q.items = [] ∧ q.closed = false := by
  unfold waitPop at h
  split at h
  · rename_i hnil
    split at h
    · cases h
    · rename_i hopen
      exact ⟨hnil, Bool.eq_false_iff.mpr hopen⟩
  · cases h

theorem waitPop_some {q r : BoundedQueue Item} {item : Item}
    (h : q.waitPop = some (some item, r)) :
    q.items = item :: r.items ∧ r.closed = q.closed ∧ r.acceptedItems = q.acceptedItems := by
  unfold waitPop at h
  split at h
  · split at h
    · cases h
    · cases h
  · rename_i hcons
    cases h
    exact ⟨hcons, rfl, rfl⟩

end BoundedQueue

end TraceForge.Concurrency
