import TraceForge.Phone.Publisher

/-! Who owns a connection.

A connection is opening, failing, held by the publisher's fields, stopping, ended, or leaked: open
with nobody left to close it (`Standing`). `start` leaks the held connection when it stores its own
over it, which it does when two starts overlap, and nothing ever ends a leaked connection. So a run
leaks exactly when some `start` stores over a held connection (`no_leak_iff`). -/
namespace TraceForge.Phone
open Library Telemetry

/-- Where a connection stands, and whether the publisher's fields hold it. -/
inductive Standing (leaky : Prop) : Bool → Connection → Prop
  | opening {await : PublisherAwait} (h : await = .ready ∨ await = .cancel) :
    Standing leaky false ⟨false, false, [], [await]⟩
  | cancelling : Standing leaky false ⟨false, false, [], [.cancelOnError]⟩
  | terminating : Standing leaky false ⟨true, false, [], [.terminateOnError]⟩
  | closing : Standing leaky false ⟨true, true, [], [.closeOnError]⟩
  | held (added : List TelemetryEvent) : Standing leaky true ⟨false, false, added, []⟩
  | stopping (added : List TelemetryEvent) :
    Standing leaky false ⟨false, true, added, [.result]⟩
  | ending {await : PublisherAwait} (h : await = .shutdown ∨ await = .terminate)
    (added : List TelemetryEvent) : Standing leaky false ⟨true, true, added, [await]⟩
  | ended (added : List TelemetryEvent) : Standing leaky false ⟨true, true, added, []⟩
  | leaked (h : leaky) (added : List TelemetryEvent) :
    Standing leaky false ⟨false, false, added, []⟩

variable {leaky : Prop} {c d : Connection}

/-- A held connection is open and no call works on it. -/
theorem Standing.of_held (h : Standing leaky true c) : c = ⟨false, false, c.added, []⟩ := by
  cases h
  rfl

/-- **A call that goes on** leaves the connection standing; only a `start` that is ready gives a
connection to hold, and nothing has been added to that one. -/
theorem Standing.goOn {held : Bool} {await : PublisherAwait} {outcome : PublisherOutcome}
    (h : Standing leaky held c) (hmem : await ∈ c.calls)
    (hgo : Connection.goOn {c with calls := c.calls.erase await} await outcome = some d) :
    held = false ∧ Standing leaky (decide (await = .cancel)) d ∧
      (await = .cancel → d.added = []) ∧ d.added = c.added := by
  cases h with
  | opening hopening =>
    cases List.mem_singleton.mp hmem
    rcases hopening with rfl | rfl <;> cases outcome <;> cases hgo
    · exact ⟨rfl, .opening (.inr rfl), nofun, rfl⟩
    · exact ⟨rfl, .cancelling, nofun, rfl⟩
    · exact ⟨rfl, .cancelling, nofun, rfl⟩
    · exact ⟨rfl, .held [], fun _ => rfl, rfl⟩
  | cancelling =>
    cases List.mem_singleton.mp hmem
    cases outcome <;> cases hgo
    exact ⟨rfl, .terminating, nofun, rfl⟩
  | terminating =>
    cases List.mem_singleton.mp hmem
    cases outcome <;> cases hgo
    · exact ⟨rfl, .closing, nofun, rfl⟩
    · exact ⟨rfl, .closing, nofun, rfl⟩
  | closing =>
    cases List.mem_singleton.mp hmem
    cases outcome <;> cases hgo
    exact ⟨rfl, .ended [], nofun, rfl⟩
  | held => exact absurd hmem List.not_mem_nil
  | stopping added =>
    cases List.mem_singleton.mp hmem
    cases outcome <;> cases hgo
    · exact ⟨rfl, .ending (.inl rfl) added, nofun, rfl⟩
    · exact ⟨rfl, .ending (.inr rfl) added, nofun, rfl⟩
    · exact ⟨rfl, .ending (.inr rfl) added, nofun, rfl⟩
  | ending hending added =>
    cases List.mem_singleton.mp hmem
    rcases hending with rfl | rfl <;> cases outcome <;> cases hgo
    · exact ⟨rfl, .ended added, nofun, rfl⟩
    · exact ⟨rfl, .ended added, nofun, rfl⟩
    · exact ⟨rfl, .ending (.inr rfl) added, nofun, rfl⟩
    · exact ⟨rfl, .ended added, nofun, rfl⟩
    · exact ⟨rfl, .ended added, nofun, rfl⟩
  | ended => exact absurd hmem List.not_mem_nil
  | leaked => exact absurd hmem List.not_mem_nil

/-! ### All connections -/

theorem append_at {α : Type} {l : List α} {n : Nat} {x y : α} (h : (l ++ [x])[n]? = some y) :
    n = l.length ∧ y = x ∨ l[n]? = some y := by
  rw [List.getElem?_append] at h
  split at h
  · exact .inr h
  · rename_i hn
    obtain ⟨hlt, heq⟩ := List.getElem?_eq_some_iff.mp h
    rw [List.length_singleton] at hlt
    refine .inl ⟨by omega, ?_⟩
    rw [← heq, List.getElem_singleton]

theorem modify_at {α : Type} {l : List α} {n m : Nat} {f : α → α} {x y : α}
    (hx : l[n]? = some x) (h : (l.modify n f)[m]? = some y) :
    m = n ∧ y = f x ∨ m ≠ n ∧ l[m]? = some y := by
  rw [List.getElem?_modify] at h
  by_cases hmn : n = m
  · subst hmn
    rw [hx] at h
    simp only [if_true, Option.map_eq_map, Option.map_some, Option.some.injEq] at h
    exact .inl ⟨rfl, h.symm⟩
  · simp only [if_neg hmn] at h
    exact .inr ⟨Ne.symm hmn, by simpa using h⟩

theorem set_at {α : Type} {l : List α} {n m : Nat} {x y : α} (h : (l.set n x)[m]? = some y) :
    m = n ∧ y = x ∨ m ≠ n ∧ l[m]? = some y := by
  rw [List.getElem?_set] at h
  split at h
  · rename_i hmn
    split at h
    · exact .inl ⟨hmn.symm, (Option.some.inj h).symm⟩
    · cases h
  · rename_i hmn
    exact .inr ⟨Ne.symm hmn, h⟩

namespace GrpcTelemetryPublisher

/-- The fields name one connection or none, and every connection stands where they say. -/
structure Consistent (leaky : Prop) (p : GrpcTelemetryPublisher) : Prop where
  channel : p.channel = p.events
  completion : p.completion = p.events
  held : ∀ n, p.events = some n → ∃ c, p.connections[n]? = some c
  stands : ∀ (n : Nat) (c : Connection), p.connections[n]? = some c →
    Standing leaky (decide (p.events = some n)) c

variable {p q : GrpcTelemetryPublisher}

theorem consistent_initial (producerId : List UInt8) :
    (initial producerId).Consistent leaky where
  channel := rfl
  completion := rfl
  held _ h := by cases h
  stands _ _ h := by cases h

/-- The held connection is open. -/
theorem Consistent.of_held (h : p.Consistent leaky) {n : Nat} (hn : p.events = some n) :
    ∃ added, p.connections[n]? = some ⟨false, false, added, []⟩ := by
  obtain ⟨c, hc⟩ := h.held n hn
  have hstands := h.stands n c hc
  rw [hn, decide_eq_true rfl] at hstands
  rw [hstands.of_held] at hc
  exact ⟨_, hc⟩

/-! ### One action -/

theorem start_consistent (h : p.Consistent leaky) : p.start.Consistent leaky := by
  unfold start
  split
  · exact h
  · rename_i hnone
    have hnone : p.events = none := by simpa using hnone
    exact
      { channel := h.channel
        completion := h.completion
        held := fun n hn => by
          have hn : p.events = some n := hn
          rw [hnone] at hn
          cases hn
        stands := fun n c hc => by
          show Standing leaky (decide (p.events = some n)) c
          rcases append_at hc with ⟨_, rfl⟩ | hold
          · rw [hnone]
            exact .opening (.inl rfl)
          · exact h.stands n c hold }

theorem stop_consistent (h : p.Consistent leaky) : p.stop.Consistent leaky := by
  cases hevents : p.events with
  | none =>
    simp only [stop, hevents]
    exact h
  | some n =>
    obtain ⟨added, hn⟩ := h.of_held hevents
    have hcompletion := h.completion.trans hevents
    have hchannel := h.channel.trans hevents
    simp only [stop, hevents, hcompletion, hchannel]
    exact
      { channel := rfl
        completion := rfl
        held := fun m hm => by cases hm
        stands := fun m c hc => by
          have hclosed : (p.connections.modify n fun c => {c with eventsClosed := true})[n]? =
              some ⟨false, true, added, []⟩ := by
            rw [List.getElem?_modify_eq, hn]
            rfl
          rcases modify_at hclosed hc with ⟨_, rfl⟩ | ⟨hne, hc⟩
          · exact .stopping added
          · have hold := (modify_at hn hc).resolve_left fun heq => hne heq.1
            have hstands := h.stands m c hold.2
            rwa [hevents, decide_eq_false fun heq => hne (Option.some.inj heq).symm] at hstands }

theorem Consistent.advance (h : p.Consistent leaky) : p.advance.Consistent leaky :=
  ⟨h.channel, h.completion, h.held, h.stands⟩

theorem add_none (hevents : p.events = none) (event : TelemetryEvent) : p.add event = p := by
  unfold add
  split
  · rfl
  · rename_i h
    cases h.symm.trans hevents

theorem add_held {n : Nat} (hevents : p.events = some n) (event : TelemetryEvent) :
    p.add event = {p with connections := p.connections.modify n (.add event)} := by
  unfold add
  split
  · rename_i h
    cases h.symm.trans hevents
  · rename_i h
    cases h.symm.trans hevents
    rfl

theorem add_consistent (h : p.Consistent leaky) (event : TelemetryEvent) :
    (p.add event).Consistent leaky := by
  cases hevents : p.events with
  | none =>
    simp only [add, hevents]
    exact h
  | some n =>
    obtain ⟨added, hn⟩ := h.of_held hevents
    rw [add_held hevents]
    exact
      { channel := h.channel
        completion := h.completion
        held := fun m hm => by
          obtain ⟨c, hc⟩ := h.held m hm
          exact ⟨_, by rw [List.getElem?_modify, hc]; rfl⟩
        stands := fun m c hc => by
          show Standing leaky (decide (p.events = some m)) c
          rcases modify_at hn hc with ⟨rfl, rfl⟩ | ⟨_, hold⟩
          · rw [hevents, decide_eq_true rfl]
            exact .held _
          · exact h.stands m c hold }

/-- What a completed await changes: one connection, and the fields when a `start` ends. -/
theorem completed_cases {n : Nat} {await : PublisherAwait} {outcome : PublisherOutcome}
    (h : p.Consistent leaky) (hstep : p.completed n await outcome = some q) :
    ∃ c d, p.connections[n]? = some c ∧ await ∈ c.calls ∧ p.events ≠ some n ∧
      Standing leaky (decide (await = .cancel)) d ∧ (await = .cancel → d.added = []) ∧
      d.added = c.added ∧
      q = if await = PublisherAwait.cancel then
          {p with connections := p.connections.set n d}.assign n
        else {p with connections := p.connections.set n d} := by
  obtain ⟨c, hc, hstep⟩ := Option.bind_eq_some_iff.mp hstep
  split at hstep
  · rename_i hmem
    obtain ⟨d, hgo, rfl⟩ := Option.map_eq_some_iff.mp hstep
    obtain ⟨hheld, hstands, hadded⟩ := (h.stands n c hc).goOn hmem hgo
    exact ⟨c, d, hc, hmem, of_decide_eq_false hheld, hstands, hadded.1, hadded.2, rfl⟩
  · cases hstep

/-- A `start` that would store its connection over another is against the rule. -/
def Unheld (p : GrpcTelemetryPublisher) : PublisherAction → Prop
  | .completed _ .cancel _ => p.events = none
  | _ => True

/-- **Every action** keeps the publisher consistent, and leaks nothing under the rule. -/
theorem step_consistent {action : PublisherAction} (h : p.Consistent leaky)
    (hleaky : leaky ∨ p.Unheld action) (hstep : p.step action = some q) :
    q.Consistent leaky := by
  cases action with
  | start =>
    cases hstep
    exact start_consistent h
  | stop =>
    cases hstep
    exact stop_consistent h
  | publishMotion sample =>
    cases hstep
    exact add_consistent h.advance _
  | publishLocation sample =>
    cases hstep
    exact add_consistent h.advance _
  | completed n await outcome =>
    obtain ⟨c, d, hc, hmem, hunheld, hstands, _, _, rfl⟩ := completed_cases h hstep
    have hlt := (List.getElem?_eq_some_iff.mp hc).1
    split
    · rename_i hcancel
      subst hcancel
      exact
        { channel := rfl
          completion := rfl
          held := fun m hm => by
            cases hm
            exact ⟨d, by rw [assign, List.getElem?_set_self hlt]⟩
          stands := fun m e he => by
            rcases set_at he with ⟨rfl, rfl⟩ | ⟨hne, hold⟩
            · simpa [assign] using hstands
            · have hother : decide (some n = some m) = false :=
                decide_eq_false fun heq => hne (Option.some.inj heq).symm
              show Standing leaky (decide (some n = some m)) e
              rw [hother]
              have hstands := h.stands m e hold
              by_cases hheld : p.events = some m
              · rw [decide_eq_true hheld] at hstands
                rw [hstands.of_held]
                refine .leaked (hleaky.resolve_right fun hnone => ?_) e.added
                cases hheld.symm.trans hnone
              · rwa [decide_eq_false hheld] at hstands }
    · rename_i hcancel
      rw [decide_eq_false hcancel] at hstands
      exact
        { channel := h.channel
          completion := h.completion
          held := fun m hm => by
            obtain ⟨e, he⟩ := h.held m hm
            refine ⟨e, ?_⟩
            have hne : n ≠ m := fun heq => hunheld (heq ▸ hm)
            rw [← he]
            exact List.getElem?_set_ne hne
          stands := fun m e he => by
            show Standing leaky (decide (p.events = some m)) e
            rcases set_at he with ⟨rfl, rfl⟩ | ⟨_, hold⟩
            · rwa [decide_eq_false hunheld]
            · exact h.stands m e hold }

/-! ### Leaks -/

/-- A channel that is not down, not in the fields and in nobody's hands. -/
def Leaked (p : GrpcTelemetryPublisher) : Prop :=
  ∃ (n : Nat) (c : Connection), p.connections[n]? = some c ∧ p.events ≠ some n ∧
    c.channelDown = false ∧ c.calls = []

theorem start_leaked (hleaked : p.Leaked) : p.start.Leaked := by
  obtain ⟨n, c, hc, hn, hdown, hcalls⟩ := hleaked
  unfold start
  split
  · exact ⟨n, c, hc, hn, hdown, hcalls⟩
  · have hlt := (List.getElem?_eq_some_iff.mp hc).1
    exact ⟨n, c, (List.getElem?_append_left hlt).trans hc, hn, hdown, hcalls⟩

theorem stop_leaked (h : p.Consistent leaky) (hleaked : p.Leaked) : p.stop.Leaked := by
  obtain ⟨n, c, hc, hn, hdown, hcalls⟩ := hleaked
  cases hevents : p.events with
  | none =>
    simp only [stop, hevents]
    exact ⟨n, c, hc, hn, hdown, hcalls⟩
  | some m =>
    have hne : m ≠ n := fun heq => hn (hevents.trans (congrArg some heq))
    simp only [stop, hevents, h.completion.trans hevents, h.channel.trans hevents]
    refine ⟨n, c, ?_, nofun, hdown, hcalls⟩
    rw [List.getElem?_modify_ne _ _ hne, List.getElem?_modify_ne _ _ hne]
    exact hc

theorem add_leaked (event : TelemetryEvent) (hleaked : p.Leaked) : (p.add event).Leaked := by
  obtain ⟨n, c, hc, hn, hdown, hcalls⟩ := hleaked
  cases hevents : p.events with
  | none =>
    simp only [add, hevents]
    exact ⟨n, c, hc, hn, hdown, hcalls⟩
  | some m =>
    have hne : m ≠ n := fun heq => hn (hevents.trans (congrArg some heq))
    rw [add_held hevents]
    exact ⟨n, c, (List.getElem?_modify_ne _ _ hne).trans hc, hn, hdown, hcalls⟩

/-- **A leak stays**, whatever is called or completed. -/
theorem step_leaked {action : PublisherAction} (h : p.Consistent leaky) (hleaked : p.Leaked)
    (hstep : p.step action = some q) : q.Leaked := by
  have hadvanced : p.advance.Leaked := hleaked
  cases action with
  | start =>
    cases hstep
    exact start_leaked hleaked
  | stop =>
    cases hstep
    exact stop_leaked h hleaked
  | publishMotion sample =>
    cases hstep
    exact add_leaked _ hadvanced
  | publishLocation sample =>
    cases hstep
    exact add_leaked _ hadvanced
  | completed m await outcome =>
    obtain ⟨n, c, hc, hn, hdown, hcalls⟩ := hleaked
    obtain ⟨d, e, hd, hmem, _, _, _, _, rfl⟩ := completed_cases h hstep
    have hne : m ≠ n := by
      rintro rfl
      cases hd.symm.trans hc
      rw [hcalls] at hmem
      exact List.not_mem_nil hmem
    have hkept : (p.connections.set m e)[n]? = some c := (List.getElem?_set_ne hne).trans hc
    split
    · exact ⟨n, c, hkept, fun heq => hne (Option.some.inj heq), hdown, hcalls⟩
    · exact ⟨n, c, hkept, hn, hdown, hcalls⟩

/-- A `start` that stores its connection over another leaks that one. -/
theorem held_leaked {action : PublisherAction} (h : p.Consistent leaky)
    (hheld : ¬p.Unheld action) (hstep : p.step action = some q) : q.Leaked := by
  unfold Unheld at hheld
  split at hheld
  · rename_i n outcome
    obtain ⟨m, hm⟩ := Option.ne_none_iff_exists'.mp hheld
    obtain ⟨added, hopen⟩ := h.of_held hm
    obtain ⟨c, d, hc, _, hunheld, _, _, _, rfl⟩ := completed_cases h hstep
    have hne : n ≠ m := fun heq => hunheld (heq ▸ hm)
    rw [if_pos rfl]
    refine ⟨m, _, (List.getElem?_set_ne hne).trans hopen, ?_, rfl, rfl⟩
    exact fun heq => hne (Option.some.inj heq)
  · exact absurd trivial hheld

/-- Every channel is down and its events closed, but for the one in the fields. -/
def Owned (p : GrpcTelemetryPublisher) : Prop :=
  ∀ (n : Nat) (c : Connection), p.connections[n]? = some c →
    c.channelDown = true ∧ c.eventsClosed = true ∨ p.channel = some n ∧ p.events = some n

/-- Without a leak, what no call works on is ended or held. -/
theorem Consistent.owned (h : p.Consistent False) (hquiet : p.Quiet) : p.Owned := by
  intro n c hc
  have hstands := h.stands n c hc
  have hcalls := hquiet c (List.mem_of_getElem? hc)
  by_cases hheld : p.events = some n
  · exact .inr ⟨h.channel.trans hheld, hheld⟩
  · rw [decide_eq_false hheld] at hstands
    cases hstands with
    | ended => exact .inl ⟨rfl, rfl⟩
    | leaked h => exact h.elim
    | opening | cancelling | terminating | closing | stopping | ending => cases hcalls

theorem Leaked.not_owned (hleaked : p.Leaked) : ¬p.Owned := by
  obtain ⟨n, c, hc, hn, hdown, _⟩ := hleaked
  intro howned
  rcases howned n c hc with ⟨h, _⟩ | ⟨_, h⟩
  · exact Bool.false_ne_true (hdown.symm.trans h)
  · exact hn h

end GrpcTelemetryPublisher

open GrpcTelemetryPublisher

/-- **No channel is leaked exactly when no `start` stores its channel over another**: at the end
of a run with no call in progress, every channel ever made is down with its events closed, except
the one in the fields. -/
theorem no_leak_iff (producerId : List UInt8) (actions : List PublisherAction)
    (p : GrpcTelemetryPublisher)
    (hrun : (publisher producerId).run (initial producerId) actions = some p)
    (hquiet : p.Quiet) :
    p.Owned ↔ (publisher producerId).Obeys Unheld (initial producerId) actions := by
  constructor
  · intro howned
    by_contra hbroken
    have hleaked := Machine.disobeying_invariant (Consistent True) Leaked
      (fun _ _ _ h hstep => step_consistent h (.inl trivial) hstep)
      (fun _ _ _ h hheld hstep => held_leaked h hheld hstep)
      (fun _ _ _ h hleaked hstep => step_leaked h hleaked hstep)
      (consistent_initial producerId) hbroken hrun
    exact hleaked.not_owned howned
  · intro hobeys
    have hconsistent := Machine.obeying_invariant (Consistent False)
      (fun _ _ _ h hrule hstep => step_consistent h (.inr hrule) hstep)
      (consistent_initial producerId) hobeys hrun
    exact hconsistent.owned hquiet

/-- A start that connects and is stopped: the channel is shut down. -/
theorem no_leak_stopped :
    let actions : List PublisherAction :=
      [.start, .completed 0 .ready .value, .completed 0 .cancel .value, .stop,
        .completed 0 .result .value, .completed 0 .shutdown .value]
    ∃ p, (publisher [0x70]).run (initial [0x70]) actions = some p ∧
      p.connections.length = 1 ∧ p.Owned := by
  intro actions
  refine ⟨_, rfl, rfl, ?_⟩
  refine (no_leak_iff [0x70] actions _ rfl (by unfold Quiet; decide)).mpr ?_
  exact Machine.obeys_cons rfl trivial (Machine.obeys_cons rfl trivial
    (Machine.obeys_cons rfl rfl (Machine.obeys_cons rfl trivial
      (Machine.obeys_cons rfl trivial (Machine.obeys_cons rfl trivial trivial)))))

/-- Started twice before either channel is ready: the first one stays open. -/
theorem leak_of_two_starts :
    let actions : List PublisherAction :=
      [.start, .start, .completed 0 .ready .value, .completed 0 .cancel .value,
        .completed 1 .ready .value, .completed 1 .cancel .value]
    ∃ p, (publisher [0x70]).run (initial [0x70]) actions = some p ∧ p.Quiet ∧ ¬p.Owned := by
  intro actions
  refine ⟨_, rfl, by unfold Quiet; decide, fun howned => ?_⟩
  rcases howned 0 _ rfl with ⟨h, _⟩ | ⟨_, h⟩ <;> cases h

end TraceForge.Phone
