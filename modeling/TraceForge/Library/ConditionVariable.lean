import Mathlib.Data.List.Basic

/-! Condition variables.

A thread that waits is parked until a notification or nothing at all wakes it; a woken thread is
awake until it has the lock again. Releasing the lock and parking is one step. Where every unit of
work is announced by one notification, there are always enough of them (`Covers`): as long as a
thread is parked, each unit still has its notification to come or a thread awake for it. -/
namespace TraceForge.Library

structure Waiters (Thread : Type) where
  parked : List Thread
  awake : List Thread
deriving DecidableEq

namespace Waiters

variable {Thread : Type}

def nobody : Waiters Thread := ⟨[], []⟩

def park (i : Thread) (w : Waiters Thread) : Waiters Thread := {w with parked := i :: w.parked}

def notifyAll (w : Waiters Thread) : Waiters Thread := ⟨[], w.parked ++ w.awake⟩

section
variable [DecidableEq Thread]

/-- A parked thread wakes, with or without a notification. -/
def wake (i : Thread) (w : Waiters Thread) : Option (Waiters Thread) :=
  if i ∈ w.parked then some ⟨w.parked.erase i, i :: w.awake⟩ else none

/-- One parked thread is woken, whichever; nothing happens when none is parked. -/
def notifyOne (chosen : Option Thread) (w : Waiters Thread) : Option (Waiters Thread) :=
  match chosen with
  | some i => w.wake i
  | none => if w.parked = [] then some w else none

/-- A thread that was woken has the lock again. -/
def resume (i : Thread) (w : Waiters Thread) : Option (Waiters Thread) :=
  if i ∈ w.awake then some {w with awake := w.awake.erase i} else none

theorem wake_cases {i : Thread} {w u : Waiters Thread} (h : w.wake i = some u) :
    w.parked ≠ [] ∧ u.awake.length = w.awake.length + 1 := by
  unfold wake at h
  split at h
  · rename_i hmem
    cases h
    exact ⟨List.ne_nil_of_mem hmem, rfl⟩
  · cases h

/-- A notification parks nobody. -/
theorem notifyOne_parked {chosen : Option Thread} {w u : Waiters Thread}
    (h : w.notifyOne chosen = some u) (hnil : w.parked = []) : u.parked = [] := by
  cases chosen with
  | some i => exact absurd hnil (wake_cases h).1
  | none =>
    rw [notifyOne, if_pos hnil] at h
    cases h
    exact hnil

theorem resume_cases {i : Thread} {w u : Waiters Thread} (h : w.resume i = some u) :
    u.parked = w.parked ∧ u.awake.length + 1 = w.awake.length := by
  unfold resume at h
  split at h
  · rename_i hmem
    cases h
    have hpos := List.length_pos_of_mem hmem
    refine ⟨rfl, ?_⟩
    show (w.awake.erase i).length + 1 = _
    rw [List.length_erase_of_mem hmem]
    omega
  · cases h

end

/-! ### Enough notifications -/

/-- For `work` units there are enough of the notifications to come and the threads awake. -/
def Covers (w : Waiters Thread) (work notifications : Nat) : Prop :=
  w.parked = [] ∨ work ≤ notifications + w.awake.length

variable {w u : Waiters Thread} {work notifications : Nat}

theorem covers_nobody (work notifications : Nat) :
    (nobody : Waiters Thread).Covers work notifications := .inl rfl

/-- A unit of work comes with its notification. -/
theorem Covers.announced (h : w.Covers work notifications) :
    w.Covers (work + 1) (notifications + 1) :=
  h.imp_right fun h => by omega

/-- Somebody else does some of the work. -/
theorem Covers.mono {less : Nat} (h : w.Covers work notifications) (hle : less ≤ work) :
    w.Covers less notifications :=
  h.imp_right (Nat.le_trans hle)

/-- A thread parks only when there is nothing to do. -/
theorem covers_park (i : Thread) (w : Waiters Thread) (notifications : Nat) :
    (w.park i).Covers 0 notifications := .inr (Nat.zero_le _)

theorem covers_notifyAll (w : Waiters Thread) (work notifications : Nat) :
    w.notifyAll.Covers work notifications := .inl rfl

section
variable [DecidableEq Thread] {i : Thread} {chosen : Option Thread}

theorem Covers.wake (h : w.Covers work notifications) (hw : w.wake i = some u) :
    u.Covers work notifications := by
  obtain ⟨hparked, hawake⟩ := wake_cases hw
  have hle := h.resolve_left hparked
  right
  omega

/-- A notification is used up on a thread, or found nobody parked. -/
theorem Covers.notifyOne (h : w.Covers work (notifications + 1))
    (hw : w.notifyOne chosen = some u) : u.Covers work notifications := by
  cases chosen with
  | some i =>
    obtain ⟨hparked, hawake⟩ := wake_cases hw
    have hle := h.resolve_left hparked
    right
    omega
  | none =>
    rw [Waiters.notifyOne] at hw
    split at hw
    · rename_i hnil
      cases hw
      exact .inl hnil
    · cases hw

/-- A thread that was woken does a unit of work, where there is one. -/
theorem Covers.resume (h : w.Covers work notifications) (hw : w.resume i = some u) :
    u.Covers (work - 1) notifications := by
  obtain ⟨hparked, hawake⟩ := resume_cases hw
  unfold Covers at h ⊢
  rw [hparked]
  exact h.imp_right fun h => by omega

end

/-- **No wakeup is lost**: where there is work and a thread is parked, a notification is to come
or a thread is awake. -/
theorem Covers.not_lost (h : w.Covers work notifications) (hparked : w.parked ≠ [])
    (hwork : 0 < work) : 0 < notifications ∨ w.awake ≠ [] := by
  have hle := h.resolve_left hparked
  by_cases hawake : w.awake = []
  · rw [hawake, List.length_nil] at hle
    exact .inl (by omega)
  · exact .inr hawake

end Waiters

end TraceForge.Library
