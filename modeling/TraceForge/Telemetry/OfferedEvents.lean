import Mathlib.Algebra.Group.Nat.Defs
import TraceForge.Telemetry.QueuedSinkProofs

/-! Which offered events the sink's counters know.

The counters are the queue's, and a call that reads the accepting flag as false returns without
going to the queue. `Ledger` keeps how many calls were turned away so: each answer is in one of
the two counters but for those. A call of `try_accept` begins with its load of the flag, so the
events offered are the loads of a run, and all of them are answered when no call is in progress
(`offered_run`). -/
namespace TraceForge.Telemetry
open Library Concurrency

namespace QueuedSink

variable {Caller Event : Type}

def Action.isOffer : Action Caller Event → Bool
  | .load .. => true
  | _ => false

/-- Only calls that are let past the flag. -/
def PastFlag (_ : QueuedSink Caller Event) : Action Caller Event → Prop
  | .load _ _ seen => seen = true
  | _ => True

def acceptedAnswers (s : QueuedSink Caller Event) : Nat :=
  s.answers.countP fun answer => answer.2.2 = .accepted

/-- The answers overloaded and unavailable. -/
def rejectedAnswers (s : QueuedSink Caller Event) : Nat :=
  s.answers.countP fun answer => answer.2.2 ≠ .accepted

instance decidablePastFlag (s : QueuedSink Caller Event) :
    (a : Action Caller Event) → Decidable (s.PastFlag a)
  | .load _ _ seen => inferInstanceAs (Decidable (seen = true))
  | .push _ | .pop | .call | .consumeReturns _ | .advance | .shutdown => .isTrue trivial

/-- The queue's counters hold every answer, and all the events that were offered. -/
structure CountsOffered (s : QueuedSink Caller Event) (offered : Nat) : Prop where
  acceptedItems : s.queue.acceptedItems.toNat = s.acceptedAnswers
  rejectedItems : s.queue.rejectedItems.toNat = s.rejectedAnswers
  total : s.queue.acceptedItems.toNat + s.queue.rejectedItems.toNat = offered

/-- The counters, next to the calls that were turned away. -/
structure Ledger (s : QueuedSink Caller Event) (turnedAway : Nat) : Prop where
  accepted : s.queue.acceptedItems = UInt64.ofNat s.acceptedAnswers
  rejected : s.queue.rejectedItems + UInt64.ofNat turnedAway = UInt64.ofNat s.rejectedAnswers
  turnedAway_le : turnedAway ≤ s.rejectedAnswers

theorem answers_length (s : QueuedSink Caller Event) :
    s.answers.length = s.acceptedAnswers + s.rejectedAnswers := by
  rw [List.length_eq_countP_add_countP (fun answer => answer.2.2 = .accepted)]
  simp [acceptedAnswers, rejectedAnswers]

/-! ### Each action -/

section Steps
variable [DecidableEq Caller] {s t : QueuedSink Caller Event} {turnedAway : Nat}

/-- The actions of the consumer and of `shutdown` give no answer and count none. -/
theorem quiet_step {a : Action Caller Event} (h : s.step a = some t)
    (hload : a.isOffer = false) (hpush : ∀ i, a ≠ .push i) :
    t.answers = s.answers ∧ t.callers = s.callers ∧
      t.queue.acceptedItems = s.queue.acceptedItems ∧
      t.queue.rejectedItems = s.queue.rejectedItems := by
  cases a with
  | load i event seen => cases hload
  | push i => exact absurd rfl (hpush i)
  | pop =>
    have h : s.pop = some t := h
    unfold pop at h
    split at h
    · split at h
      · cases h
      · rename_i queue hpop
        cases h
        exact ⟨rfl, rfl, BoundedQueue.waitPop_counters hpop⟩
      · rename_i event queue hpop
        cases h
        exact ⟨rfl, rfl, BoundedQueue.waitPop_counters hpop⟩
    · cases h
  | call =>
    obtain ⟨event, _, rfl⟩ := call_cases h
    exact ⟨rfl, rfl, rfl, rfl⟩
  | consumeReturns ok =>
    obtain ⟨event, _, rfl⟩ := consumeReturns_cases h
    exact ⟨rfl, rfl, rfl, rfl⟩
  | advance => rcases advance_cases h with ⟨_, rfl⟩ | ⟨_, rfl⟩ | ⟨_, rfl⟩ | ⟨_, rfl⟩ <;>
      exact ⟨rfl, rfl, rfl, rfl⟩
  | shutdown => rcases shutdownStep_cases h with ⟨_, rfl⟩ | ⟨_, rfl⟩ | ⟨_, _, rfl⟩ <;>
      exact ⟨rfl, rfl, rfl, rfl⟩

/-- A step is a caller's, or gives no answer and counts none. -/
theorem step_cases {a : Action Caller Event} (h : s.step a = some t) :
    (∃ i event seen result, a = .load i event seen ∧ s.load i event seen = some (result, t)) ∨
      (∃ i result, a = .push i ∧ s.push i = some (result, t)) ∨
      a.isOffer = false ∧ s.PastFlag a ∧ t.answers = s.answers ∧ t.callers = s.callers ∧
        t.queue.acceptedItems = s.queue.acceptedItems ∧
        t.queue.rejectedItems = s.queue.rejectedItems := by
  cases a with
  | load i event seen =>
    obtain ⟨⟨result, _⟩, hload, rfl⟩ := Option.map_eq_some_iff.mp h
    exact .inl ⟨i, event, seen, result, rfl, hload⟩
  | push i =>
    obtain ⟨⟨result, _⟩, hpush, rfl⟩ := Option.map_eq_some_iff.mp h
    exact .inr (.inl ⟨i, result, rfl, hpush⟩)
  | _ =>
    exact .inr (.inr ⟨rfl, trivial, quiet_step h rfl fun i heq => by cases heq⟩)

theorem ledger_load {i : Caller} {event : Event} {seen : Bool} {result : Option SinkResult}
    (hs : s.Ledger turnedAway) (h : s.load i event seen = some (result, t)) :
    t.Ledger (turnedAway + if seen = true then 0 else 1) := by
  unfold load at h
  split at h
  · cases h
  split at h
  · rename_i hseen
    cases h
    rw [if_pos hseen]
    exact ⟨hs.accepted, hs.rejected, hs.turnedAway_le⟩
  split at h
  · cases h
  · rename_i hseen _
    cases h
    rw [if_neg hseen]
    exact
      { accepted := by simpa [acceptedAnswers] using hs.accepted
        rejected := by
          have hrejected := hs.rejected
          simp only [rejectedAnswers, List.countP_append, UInt64.ofNat_add] at hrejected ⊢
          rw [← hrejected, ← UInt64.add_assoc]
          rfl
        turnedAway_le := by
          have hle := hs.turnedAway_le
          simp only [rejectedAnswers, List.countP_append] at hle ⊢
          exact Nat.add_le_add_right hle 1 }

theorem ledger_push {i : Caller} {result : SinkResult} (hs : s.Ledger turnedAway)
    (h : s.push i = some (result, t)) : t.Ledger turnedAway := by
  obtain ⟨event, _, _, rfl⟩ := push_cases h
  have hrejects := BoundedQueue.tryPush_rejectedItems event s.queue
  obtain ⟨hcases, _⟩ := BoundedQueue.tryPush_cases event s.queue
  rcases hcases with ⟨hresult, _, _, haccepts⟩ | ⟨hresult, _, haccepts⟩
  · rw [if_pos hresult] at hrejects
    exact
      { accepted := by
          simp only [acceptedAnswers, List.countP_append, UInt64.ofNat_add, haccepts, hs.accepted,
            hresult]
          rfl
        rejected := by simpa [rejectedAnswers, hrejects, hresult, sinkResult] using hs.rejected
        turnedAway_le := by
          simpa [rejectedAnswers, hresult, sinkResult] using hs.turnedAway_le }
  · have hanswer : sinkResult (s.queue.tryPush event).1 ≠ .accepted ∧
        (s.queue.tryPush event).1 ≠ .accepted := by
      rw [hresult]
      split <;> decide
    rw [if_neg hanswer.2] at hrejects
    exact
      { accepted := by
          simpa [acceptedAnswers, haccepts, hanswer.1] using hs.accepted
        rejected := by
          have hrejected := hs.rejected
          simp only [rejectedAnswers, List.countP_append, UInt64.ofNat_add, hrejects] at hrejected ⊢
          rw [UInt64.add_assoc, UInt64.add_comm 1, ← UInt64.add_assoc, hrejected]
          simp [hanswer.1]
        turnedAway_le := by
          have hle := hs.turnedAway_le
          simp only [rejectedAnswers, List.countP_append] at hle ⊢
          exact Nat.le_trans hle (Nat.le_add_right ..) }

/-- **One step** puts its answer into a counter, or turns a call away. -/
theorem ledger_step {a : Action Caller Event} (hs : s.Ledger turnedAway)
    (h : s.step a = some t) : t.Ledger (turnedAway + if s.PastFlag a then 0 else 1) := by
  rcases step_cases h with ⟨i, event, seen, result, rfl, hload⟩ | ⟨i, result, rfl, hpush⟩ |
    ⟨_, hpast, hanswers, _, haccepts, hrejects⟩
  · exact ledger_load hs hload
  · exact ledger_push hs hpush
  · rw [if_pos hpast]
    exact
      { accepted := by rw [haccepts, acceptedAnswers, hanswers]; exact hs.accepted
        rejected := by rw [hrejects, rejectedAnswers, hanswers]; exact hs.rejected
        turnedAway_le := by rw [rejectedAnswers, hanswers]; exact hs.turnedAway_le }

/-! ### The events offered -/

/-- Every event offered so far is answered or in one caller's hands. -/
def Outstanding (s : QueuedSink Caller Event) (offered : Nat) : Prop :=
  ∃ inside : List Caller, inside.Nodup ∧ (∀ i, i ∈ inside ↔ s.callers i ≠ none) ∧
    s.answers.length + inside.length = offered

theorem outstanding_step {a : Action Caller Event} {offered : Nat} (hs : s.Outstanding offered)
    (h : s.step a = some t) : t.Outstanding (offered + a.isOffer.toNat) := by
  obtain ⟨inside, hnodup, hinside, hcount⟩ := hs
  rcases step_cases h with ⟨i, event, seen, result, rfl, hload⟩ | ⟨i, result, rfl, hpush⟩ |
    ⟨hoffer, _, hanswers, hcallers, _⟩
  · have hidle : s.callers i = none := by
      by_contra hbusy
      rw [load, if_pos hbusy] at hload
      cases hload
    rcases load_cases hload with ⟨_, rfl⟩ | ⟨_, rfl⟩
    · refine ⟨i :: inside, List.nodup_cons.mpr ⟨fun hi => (hinside i).mp hi hidle, hnodup⟩,
        fun j => ?_, ?_⟩
      · by_cases hj : j = i
        · subst hj
          simp
        · simp [hj, hinside j]
      · rw [List.length_cons, ← Nat.add_assoc, hcount]
        rfl
    · refine ⟨inside, hnodup, hinside, ?_⟩
      rw [List.length_append, Nat.add_right_comm, hcount]
      rfl
  · obtain ⟨event, hevent, _, rfl⟩ := push_cases hpush
    have hmem : i ∈ inside := (hinside i).mpr (by rw [hevent]; exact Option.some_ne_none _)
    refine ⟨inside.erase i, hnodup.erase i, fun j => ?_, ?_⟩
    · rw [hnodup.mem_erase_iff, hinside j]
      by_cases hj : j = i
      · subst hj
        simp
      · simp [hj]
    · have hpos := List.length_pos_of_mem hmem
      rw [List.length_append, List.length_erase_of_mem hmem, List.length_singleton]
      show s.answers.length + 1 + (inside.length - 1) = offered
      omega
  · rw [hoffer]
    exact ⟨inside, hnodup, by rw [hcallers]; exact hinside, by rw [hanswers]; exact hcount⟩

end Steps

/-! ### Runs -/

section Runs
variable [DecidableEq Caller] {queue : BoundedQueue Event} {s t : QueuedSink Caller Event}
  {actions : List (Action Caller Event)}

/-- A run answers every event it offers, or leaves it in a call. -/
theorem offered_run {offered : Nat} (hs : s.Outstanding offered)
    (h : (machine queue).run s actions = some t) :
    t.Outstanding (offered + actions.countP Action.isOffer) := by
  induction actions generalizing s offered with
  | nil =>
    cases h
    exact hs
  | cons a rest ih =>
    rw [Machine.run] at h
    obtain ⟨u, hu, h⟩ := Option.bind_eq_some_iff.mp h
    have hrest := ih (outstanding_step hs hu) h
    rw [List.countP_cons]
    cases hoffer : a.isOffer <;> simp only [hoffer] at hrest ⊢
    · exact hrest
    · rw [Nat.add_right_comm, Nat.add_assoc] at hrest
      exact hrest

omit [DecidableEq Caller] in
theorem ledger_start (queue : BoundedQueue Event) (haccepted : queue.acceptedItems = 0)
    (hrejected : queue.rejectedItems = 0) : (start Caller queue).Ledger 0 where
  accepted := haccepted
  rejected := by
    show queue.rejectedItems + 0 = 0
    rw [hrejected]
    rfl
  turnedAway_le := Nat.le_refl 0

/-- Where the calls are let past the flag, none is missing from the counters. -/
theorem ledger_obeys (hs : s.Ledger 0) (hrule : (machine queue).Obeys PastFlag s actions)
    (h : (machine queue).run s actions = some t) : t.Ledger 0 :=
  Machine.obeying_invariant (fun s => s.Ledger 0)
    (fun s a t hs ha hstep => by
      have hnext := ledger_step hs hstep
      rwa [if_pos ha] at hnext)
    hs hrule h

/-- A call that was turned away stays missing. -/
theorem ledger_disobeys (hs : s.Ledger 0) (hrule : ¬(machine queue).Obeys PastFlag s actions)
    (h : (machine queue).run s actions = some t) : ∃ turnedAway, t.Ledger (turnedAway + 1) :=
  Machine.disobeying_invariant (fun s => ∃ turnedAway, s.Ledger turnedAway)
    (fun s => ∃ turnedAway, s.Ledger (turnedAway + 1))
    (fun s a t ⟨_, hs⟩ hstep => ⟨_, ledger_step hs hstep⟩)
    (fun s a t ⟨_, hs⟩ ha hstep => by
      have hnext := ledger_step hs hstep
      rw [if_neg ha] at hnext
      exact ⟨_, hnext⟩)
    (fun s a t _ ⟨_, hs⟩ hstep => by
      have hnext := ledger_step hs hstep
      rw [Nat.add_right_comm] at hnext
      exact ⟨_, hnext⟩)
    ⟨0, hs⟩ hrule h

/-- **Every offered event is counted** at the end of a run with no call in progress exactly when
no call of the run was turned away at the flag, as far as 64-bit counters can count. -/
theorem offered_counted_iff (capacity : Nat) (capacity_pos : 0 < capacity)
    (actions : List (Action Caller Event)) (s : QueuedSink Caller Event)
    (h : (machine (.empty capacity capacity_pos)).run
      (machine (.empty capacity capacity_pos)).init actions = some s)
    (hidle : ∀ i, s.callers i = none) :
    s.CountsOffered (actions.countP Action.isOffer) ↔
      (machine (.empty capacity capacity_pos)).Obeys PastFlag
          (machine (.empty capacity capacity_pos)).init actions ∧
        s.acceptedAnswers < 2 ^ 64 ∧ s.rejectedAnswers < 2 ^ 64 := by
  have hstart : (start Caller (.empty capacity capacity_pos : BoundedQueue Event)).Ledger 0 :=
    ledger_start _ rfl rfl
  constructor
  · intro hcounts
    have haccepted : s.acceptedAnswers < 2 ^ 64 :=
      hcounts.acceptedItems ▸ s.queue.acceptedItems.toNat_lt
    have hrejected : s.rejectedAnswers < 2 ^ 64 :=
      hcounts.rejectedItems ▸ s.queue.rejectedItems.toNat_lt
    refine ⟨?_, haccepted, hrejected⟩
    by_contra hrule
    obtain ⟨turnedAway, hs⟩ := ledger_disobeys hstart hrule h
    have hsum := congrArg UInt64.toNat hs.rejected
    have hle := hs.turnedAway_le
    rw [UInt64.toNat_add, UInt64.toNat_ofNat', UInt64.toNat_ofNat', hcounts.rejectedItems] at hsum
    omega
  · rintro ⟨hrule, haccepted, hrejected⟩
    have hs := ledger_obeys hstart hrule h
    have haccepts : s.queue.acceptedItems.toNat = s.acceptedAnswers := by
      rw [hs.accepted, UInt64.toNat_ofNat']
      omega
    have hrejects : s.queue.rejectedItems.toNat = s.rejectedAnswers := by
      have hall : s.queue.rejectedItems = UInt64.ofNat s.rejectedAnswers :=
        (UInt64.add_zero _).symm.trans hs.rejected
      rw [hall, UInt64.toNat_ofNat']
      omega
    have hnobody : (start Caller (.empty capacity capacity_pos : BoundedQueue Event)).Outstanding
        0 := ⟨[], List.nodup_nil, fun i => by simp [start], rfl⟩
    obtain ⟨inside, _, hinside, hcount⟩ := offered_run hnobody h
    have hnil : inside = [] := List.eq_nil_iff_forall_not_mem.mpr fun i hi =>
      (hinside i).mp hi (hidle i)
    refine ⟨haccepts, hrejects, ?_⟩
    rw [hnil, List.length_nil, Nat.add_zero, Nat.zero_add, answers_length] at hcount
    rw [haccepts, hrejects, hcount]

/-- One event is accepted, one finds the queue full and one finds it closed. -/
theorem offered_counted_sample :
    ∃ s : QueuedSink Bool Nat,
      (machine (.empty 1 Nat.one_pos)).run (machine (.empty 1 Nat.one_pos)).init
        sampleSchedule = some s ∧ s.CountsOffered 3 ∧ s.rejectedAnswers = 2 := by
  have hends : ((machine (.empty 1 Nat.one_pos)).run (machine (.empty 1 Nat.one_pos)).init
      sampleSchedule).map (fun s : QueuedSink Bool Nat => (s.callers true, s.callers false,
        s.acceptedAnswers, s.rejectedAnswers)) = some (none, none, 1, 2) := by decide
  obtain ⟨s, hs, hview⟩ := Option.map_eq_some_iff.mp hends
  obtain ⟨htrue, hfalse, haccepted, hrejected⟩ : s.callers true = none ∧ s.callers false = none ∧
      s.acceptedAnswers = 1 ∧ s.rejectedAnswers = 2 := by simpa only [Prod.mk.injEq] using hview
  refine ⟨s, hs, (offered_counted_iff 1 Nat.one_pos sampleSchedule s hs ?_).mpr ⟨by decide, ?_, ?_⟩,
    hrejected⟩
  · exact fun i => by cases i <;> assumption
  · rw [haccepted]
    decide
  · rw [hrejected]
    decide

/-- The sink is being shut down and turns a call away that no counter knows of. -/
theorem turned_away_uncounted :
    ∃ s : QueuedSink Bool Nat,
      (machine (.empty 1 Nat.one_pos)).run (machine (.empty 1 Nat.one_pos)).init
        [.shutdown, .load true 7 false] = some s ∧ (∀ i, s.callers i = none) ∧
      s.rejectedAnswers = 1 ∧ s.queue.rejectedItems = 0 ∧ ¬s.CountsOffered 1 := by
  refine ⟨_, rfl, fun i => rfl, rfl, rfl, fun h => ?_⟩
  have hnone := h.rejectedItems
  revert hnone
  decide

end Runs

end QueuedSink

end TraceForge.Telemetry
