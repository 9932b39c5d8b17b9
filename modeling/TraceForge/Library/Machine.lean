import Mathlib.Data.List.Basic

/-! Machines: a state and a guarded step.

A step answers `none` when its action is not possible in the state, so one function is both the
guard and the effect, and a run can be computed. What a step preserves a run preserves
(`run_invariant`), also when only the steps that obey a rule preserve it (`obeying_invariant`). A
`Projection` maps each step of one machine to a run of another; the runs follow. -/
namespace TraceForge.Library

structure Machine (σ α : Type) where
  init : σ
  step : σ → α → Option σ

namespace Machine

variable {σ α τ β : Type} (m : Machine σ α)

def run : σ → List α → Option σ
  | s, [] => some s
  | s, a :: rest => (m.step s a).bind fun t => run t rest

/-- A state some run from the start ends in. -/
def Reachable (s : σ) : Prop := ∃ actions, m.run m.init actions = some s

theorem run_cons {s t : σ} {a : α} (rest : List α) (h : m.step s a = some t) :
    m.run s (a :: rest) = m.run t rest := by
  rw [run, h, Option.bind_some]

theorem run_append (s : σ) (a b : List α) :
    m.run s (a ++ b) = (m.run s a).bind fun t => m.run t b := by
  induction a generalizing s with
  | nil => rfl
  | cons x rest ih =>
    rw [List.cons_append, run, run]
    cases m.step s x with
    | none => rfl
    | some t => exact ih t

/-- One step further. -/
theorem reachable_step {m : Machine σ α} {s t : σ} {a : α} (h : m.Reachable s)
    (hstep : m.step s a = some t) : m.Reachable t := by
  obtain ⟨actions, hrun⟩ := h
  refine ⟨actions ++ [a], ?_⟩
  rw [run_append, hrun, Option.bind_some, run_cons m [] hstep]
  rfl

/-! ### Invariants -/

/-- What every step preserves, every run preserves. -/
theorem run_invariant {m : Machine σ α} (inv : σ → Prop)
    (hstep : ∀ s a t, inv s → m.step s a = some t → inv t) {s t : σ} {actions : List α}
    (hs : inv s) (h : m.run s actions = some t) : inv t := by
  induction actions generalizing s with
  | nil =>
    cases h
    exact hs
  | cons a rest ih =>
    rw [run] at h
    obtain ⟨u, hu, h⟩ := Option.bind_eq_some_iff.mp h
    exact ih (hstep s a u hs hu) h

theorem reachable_invariant {m : Machine σ α} (inv : σ → Prop) (hinit : inv m.init)
    (hstep : ∀ s a t, inv s → m.step s a = some t → inv t) {s : σ} (h : m.Reachable s) :
    inv s := by
  obtain ⟨actions, h⟩ := h
  exact run_invariant inv hstep hinit h

/-- Every action of a run is taken in a state where the rule allows it. -/
def Obeys (rule : σ → α → Prop) : σ → List α → Prop
  | _, [] => True
  | s, a :: rest => rule s a ∧ ∀ t, m.step s a = some t → Obeys rule t rest

instance decidableObeys (rule : σ → α → Prop) [∀ s a, Decidable (rule s a)] :
    (s : σ) → (actions : List α) → Decidable (m.Obeys rule s actions)
  | _, [] => .isTrue trivial
  | s, a :: rest =>
    have := fun t => decidableObeys rule t rest
    inferInstanceAs (Decidable (rule s a ∧ ∀ t ∈ m.step s a, m.Obeys rule t rest))

theorem obeys_cons {m : Machine σ α} {rule : σ → α → Prop} {s t : σ} {a : α} {rest : List α}
    (hstep : m.step s a = some t) (ha : rule s a) (h : m.Obeys rule t rest) :
    m.Obeys rule s (a :: rest) := by
  refine ⟨ha, fun u hu => ?_⟩
  cases hstep.symm.trans hu
  exact h

theorem obeys_append {m : Machine σ α} {rule : σ → α → Prop} {s t : σ} {a b : List α}
    (hrun : m.run s a = some t) (ha : m.Obeys rule s a) (hb : m.Obeys rule t b) :
    m.Obeys rule s (a ++ b) := by
  induction a generalizing s with
  | nil =>
    cases hrun
    exact hb
  | cons x rest ih =>
    rw [run] at hrun
    obtain ⟨u, hu, hrun⟩ := Option.bind_eq_some_iff.mp hrun
    exact obeys_cons hu ha.1 (ih hrun (ha.2 u hu))

/-- What every step under the rule preserves, every run under the rule preserves. -/
theorem obeying_invariant {m : Machine σ α} {rule : σ → α → Prop} (inv : σ → Prop)
    (hstep : ∀ s a t, inv s → rule s a → m.step s a = some t → inv t) {s t : σ}
    {actions : List α} (hs : inv s) (hrule : m.Obeys rule s actions)
    (h : m.run s actions = some t) : inv t := by
  induction actions generalizing s with
  | nil =>
    cases h
    exact hs
  | cons a rest ih =>
    rw [run] at h
    obtain ⟨u, hu, h⟩ := Option.bind_eq_some_iff.mp h
    exact ih (hstep s a u hs hrule.1 hu) (hrule.2 u hu) h

/-- What a step against the rule breaks, and no later step repairs, is broken at the end of every
run that does not obey the rule. -/
theorem disobeying_invariant {m : Machine σ α} {rule : σ → α → Prop} (inv broken : σ → Prop)
    (hstep : ∀ s a t, inv s → m.step s a = some t → inv t)
    (hbreak : ∀ s a t, inv s → ¬rule s a → m.step s a = some t → broken t)
    (hkeep : ∀ s a t, inv s → broken s → m.step s a = some t → broken t) {s t : σ}
    {actions : List α} (hs : inv s) (hrule : ¬m.Obeys rule s actions)
    (h : m.run s actions = some t) : broken t := by
  induction actions generalizing s with
  | nil => exact absurd trivial hrule
  | cons a rest ih =>
    rw [run] at h
    obtain ⟨u, hu, h⟩ := Option.bind_eq_some_iff.mp h
    by_cases ha : rule s a
    · exact ih (hstep s a u hs hu) (fun hrest => hrule (obeys_cons hu ha hrest)) h
    · have hboth := run_invariant (fun s => inv s ∧ broken s)
        (fun s a t h hstep' => ⟨hstep s a t h.1 hstep', hkeep s a t h.1 h.2 hstep'⟩)
        ⟨hstep s a u hs hu, hbreak s a u hs ha hu⟩ h
      exact hboth.2

/-! ### Progress -/

theorem obeys_always {m : Machine σ α} {rule : σ → α → Prop} (h : ∀ s a, rule s a) (s : σ)
    (actions : List α) : m.Obeys rule s actions := by
  induction actions generalizing s with
  | nil => trivial
  | cons a rest ih => exact ⟨h s a, fun t _ => ih t⟩

/-- A run under a rule is no longer than what its steps can use up, while the invariant holds. -/
theorem obeying_length_le {m : Machine σ α} {rule : σ → α → Prop} (inv : σ → Prop)
    (measure : σ → Nat)
    (hless : ∀ s a t, inv s → rule s a → m.step s a = some t → inv t ∧ measure t < measure s)
    {s t : σ} {actions : List α} (hs : inv s) (hrule : m.Obeys rule s actions)
    (h : m.run s actions = some t) : inv t ∧ actions.length + measure t ≤ measure s := by
  induction actions generalizing s with
  | nil =>
    cases h
    exact ⟨hs, Nat.le_of_eq (Nat.zero_add _)⟩
  | cons a rest ih =>
    rw [run] at h
    obtain ⟨u, hu, h⟩ := Option.bind_eq_some_iff.mp h
    obtain ⟨hkept, hlt⟩ := hless s a u hs hrule.1 hu
    obtain ⟨ht, hrest⟩ := ih hkept (hrule.2 u hu) h
    refine ⟨ht, ?_⟩
    rw [List.length_cons]
    omega

/-- A run is no longer than what its steps can use up. -/
theorem run_length_le {m : Machine σ α} (measure : σ → Nat)
    (hless : ∀ s a t, m.step s a = some t → measure t < measure s) {s t : σ} {actions : List α}
    (h : m.run s actions = some t) : actions.length + measure t ≤ measure s :=
  (obeying_length_le (fun _ => True) measure
    (fun s a t _ _ hstep => ⟨trivial, hless s a t hstep⟩) trivial
    (obeys_always (fun _ _ => trivial) s actions) h).2

/-- Where every step under the rule uses something up and there is one until the goal is reached,
runs under the rule reach it. -/
theorem obeying_reaches_goal {m : Machine σ α} {rule : σ → α → Prop} (inv goal : σ → Prop)
    (measure : σ → Nat)
    (hless : ∀ s a t, inv s → rule s a → m.step s a = some t → inv t ∧ measure t < measure s)
    (hmore : ∀ s, inv s → goal s ∨ ∃ a t, rule s a ∧ m.step s a = some t) {s : σ} (hs : inv s) :
    ∃ actions t, m.run s actions = some t ∧ m.Obeys rule s actions ∧ goal t := by
  induction hn : measure s using Nat.strongRecOn generalizing s with
  | ind n ih =>
    obtain hgoal | ⟨a, t, hrule, hstep⟩ := hmore s hs
    · exact ⟨[], s, rfl, trivial, hgoal⟩
    · obtain ⟨ht, hlt⟩ := hless s a t hs hrule hstep
      obtain ⟨actions, u, hrun, hobeys, hgoal⟩ := ih _ (hn ▸ hlt) ht rfl
      exact ⟨a :: actions, u, by rw [run_cons m actions hstep, hrun],
        obeys_cons hstep hrule hobeys, hgoal⟩

/-- Where every step uses something up and the rule allows one until the goal is reached, runs
under the rule reach it. -/
theorem reaches_goal {m : Machine σ α} {rule : σ → α → Prop} (inv goal : σ → Prop)
    (measure : σ → Nat) (hkeep : ∀ s a t, inv s → m.step s a = some t → inv t)
    (hless : ∀ s a t, m.step s a = some t → measure t < measure s)
    (hmore : ∀ s, inv s → goal s ∨ ∃ a t, rule s a ∧ m.step s a = some t) {s : σ} (hs : inv s) :
    ∃ actions t, m.run s actions = some t ∧ m.Obeys rule s actions ∧ goal t :=
  obeying_reaches_goal inv goal measure
    (fun s a t hs _ hstep => ⟨hkeep s a t hs hstep, hless s a t hstep⟩) hmore hs

/-! ### Projections -/

/-- One machine seen as another: each of its steps is a run of the other on what is seen. -/
structure Projection (m : Machine σ α) (n : Machine τ β) where
  view : σ → τ
  init : view m.init = n.init
  step : ∀ s a t, m.step s a = some t → ∃ actions, n.run (view s) actions = some (view t)

namespace Projection

variable {m : Machine σ α} {n : Machine τ β}

theorem run (p : Projection m n) {s t : σ} {actions : List α}
    (h : m.run s actions = some t) : ∃ others, n.run (p.view s) others = some (p.view t) := by
  induction actions generalizing s with
  | nil =>
    cases h
    exact ⟨[], rfl⟩
  | cons a rest ih =>
    rw [Machine.run] at h
    obtain ⟨u, hu, h⟩ := Option.bind_eq_some_iff.mp h
    obtain ⟨first, hfirst⟩ := p.step s a u hu
    obtain ⟨others, hothers⟩ := ih h
    refine ⟨first ++ others, ?_⟩
    rw [run_append, hfirst, Option.bind_some, hothers]

theorem reachable (p : Projection m n) {s : σ} (h : m.Reachable s) : n.Reachable (p.view s) := by
  obtain ⟨actions, h⟩ := h
  obtain ⟨others, hothers⟩ := p.run h
  rw [p.init] at hothers
  exact ⟨others, hothers⟩

end Projection

end Machine

end TraceForge.Library
