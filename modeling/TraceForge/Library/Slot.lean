import Mathlib.Data.List.Basic

/-! Slots: a variable and the handles that were ever stored in it.

A handle (of a subscription, of a timer) is live from when it is made until it is cancelled, and
it can be cancelled only through the variable that holds it. Storing a second handle over a live
one, or forgetting a live one, therefore leaks it: a leaked handle stays live whatever is done
with the slot afterwards (`assign_leaked`, `clear_leaked`, `Leaked.cancel`). A slot used in turn is
released, or its variable holds the sole live handle. -/
namespace TraceForge.Library

structure Slot where
  /-- The variable. -/
  held : Option Nat
  /-- The handles that are live. -/
  live : List Nat
  /-- How many handles were made; the next one is this number. -/
  made : Nat
  fresh : ∀ h ∈ live, h < made

namespace Slot

def vacant : Slot := ⟨none, [], 0, fun _ h => absurd h List.not_mem_nil⟩

/-- Make a handle and store it. -/
def assign (s : Slot) : Slot where
  held := some s.made
  live := s.made :: s.live
  made := s.made + 1
  fresh h hh := by
    rcases List.mem_cons.mp hh with rfl | hh
    · exact Nat.lt_succ_self _
    · exact Nat.lt_succ_of_lt (s.fresh h hh)

/-- Cancel what the variable holds. -/
def cancel (s : Slot) : Slot :=
  { s with
    live := s.live.filter fun h => s.held != some h
    fresh := fun h hh => s.fresh h (List.mem_of_mem_filter hh) }

/-- Set the variable to null. -/
def clear (s : Slot) : Slot := { s with held := none }

/-- The variable holds a live handle. -/
def Holding (s : Slot) : Prop := ∃ h ∈ s.live, s.held = some h

def Released (s : Slot) : Prop := s.live = []

/-- One handle is live and the variable holds it. -/
def Sole (s : Slot) : Prop := ∃ h, s.live = [h] ∧ s.held = some h

/-- Some live handle is not in the variable. -/
def Leaked (s : Slot) : Prop := ∃ h ∈ s.live, s.held ≠ some h

instance (s : Slot) : Decidable s.Holding :=
  inferInstanceAs (Decidable (∃ h ∈ s.live, s.held = some h))

instance (s : Slot) : Decidable s.Released := inferInstanceAs (Decidable (s.live = []))

variable {s : Slot}

@[simp] theorem cancel_live : s.cancel.live = s.live.filter fun h => s.held != some h := rfl

theorem Holding.not_released (h : s.Holding) : ¬ s.Released := by
  obtain ⟨handle, hlive, _⟩ := h
  exact List.ne_nil_of_mem hlive

/-! ### In turn -/

theorem Released.assign (h : s.Released) : s.assign.Sole :=
  ⟨s.made, congrArg (s.made :: ·) h, rfl⟩

theorem Released.cancel (h : s.Released) : s.cancel.Released := by
  rw [Released, cancel_live, show s.live = [] from h, List.filter_nil]

theorem Released.clear (h : s.Released) : s.clear.Released := h

theorem Sole.cancel (h : s.Sole) : s.cancel.Released := by
  obtain ⟨handle, hlive, hheld⟩ := h
  rw [Released, cancel_live, hlive, hheld]
  simp

theorem Sole.holding (h : s.Sole) : s.Holding := by
  obtain ⟨handle, hlive, hheld⟩ := h
  exact ⟨handle, hlive ▸ List.mem_singleton_self handle, hheld⟩

theorem Sole.length (h : s.Sole) : s.live.length = 1 := by
  obtain ⟨handle, hlive, _⟩ := h
  rw [hlive, List.length_singleton]

/-- The slot's handle is live just while `p`. -/
structure Follows (s : Slot) (p : Prop) : Prop where
  sole : p → s.Sole
  released : ¬ p → s.Released

theorem Follows.congr {p q : Prop} (h : s.Follows p) (hpq : q ↔ p) : s.Follows q :=
  ⟨fun hq => h.sole (hpq.mp hq), fun hq => h.released fun hp => hq (hpq.mpr hp)⟩

theorem Follows.cancel {p : Prop} (h : s.Follows p) : s.cancel.Released := by
  by_cases hp : p
  · exact (h.sole hp).cancel
  · exact (h.released hp).cancel

theorem cancel_not_holding : ¬ s.cancel.Holding := by
  rintro ⟨handle, hlive, hheld⟩
  have hne := (List.mem_filter.mp hlive).2
  exact bne_iff_ne.mp hne hheld

/-! ### Leaks -/

theorem Leaked.not_released (h : s.Leaked) : ¬ s.Released := by
  obtain ⟨handle, hlive, _⟩ := h
  exact List.ne_nil_of_mem hlive

/-- Storing a handle leaks the live ones. -/
theorem assign_leaked (h : ¬ s.Released) : s.assign.Leaked := by
  obtain ⟨handle, hlive⟩ := List.exists_mem_of_ne_nil _ h
  refine ⟨handle, List.mem_cons_of_mem _ hlive, fun heq => ?_⟩
  exact Nat.ne_of_lt (s.fresh handle hlive) (Option.some.inj heq).symm

/-- Forgetting the handle leaks the live ones. -/
theorem clear_leaked (h : ¬ s.Released) : s.clear.Leaked := by
  obtain ⟨handle, hlive⟩ := List.exists_mem_of_ne_nil _ h
  exact ⟨handle, hlive, nofun⟩

/-- Cancelling does not reach a leaked handle. -/
theorem Leaked.cancel (h : s.Leaked) : s.cancel.Leaked := by
  obtain ⟨handle, hlive, hheld⟩ := h
  exact ⟨handle, List.mem_filter.mpr ⟨hlive, bne_iff_ne.mpr hheld⟩, hheld⟩

end Slot

end TraceForge.Library
