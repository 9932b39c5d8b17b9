import TraceForge.Generator.Delivery

/-! A publish returns.

Every step of a thread or its reactor uses up some of the thread's `work`, so no run goes on for
ever. And while the connection is up and the sink accepts, a thread that has not been joined always
has a step to take: its own, or one of the reactor that it waits for. -/
namespace TraceForge.Generator
open Library Telemetry

namespace ProducerThread

/-! ### What is left to do -/

def phaseWork : ThreadPhase → ℕ
  | .writing unwritten => 3 * unwritten.length + 3
  | .wrote => 2
  | .finishing => 1
  | .joined => 0

def reactorWork : Option StreamReactor → ℕ
  | none => 2
  | some r =>
    match r.phase with
    | .reading => 1
    | .offering _ => 2
    | .pushing | .returned => 0

/-- A written event is still to be read, and one that has been read to be offered. -/
def work (t : ProducerThread) : ℕ := phaseWork t.phase + 2 * t.wire.length + reactorWork t.reactor

theorem reactorWork_le (r : StreamReactor) : reactorWork (some r) ≤ 2 := by
  simp only [reactorWork]
  split <;> omega

theorem reactorWork_reading {r : StreamReactor} (h : r.phase = .reading) :
    reactorWork (some r) = 1 := by simp only [reactorWork, h]

theorem reactorWork_returned {r : StreamReactor} (h : r.phase = .returned) :
    reactorWork (some r) = 0 := by simp only [reactorWork, h]

/-- **Every step** leaves less to do. -/
theorem moves_work {t u : ProducerThread} {a : ThreadAction} {out : List CollectedEvent}
    (h : t.Moves a u out) : u.work < t.work := by
  cases h with
  | sent event unwritten hphase =>
    simp only [work, hphase, phaseWork, List.length_append, List.length_cons, List.length_nil]
    omega
  | writeFailed event unwritten hphase =>
    simp only [work, hphase, phaseWork, List.length_cons]
    omega
  | writesDone hphase =>
    rcases hphase with hphase | hphase <;> simp only [work, hphase, phaseWork] <;> omega
  | finished r message hphase | failed code message hphase =>
    simp only [work, hphase, phaseWork]
    omega
  | arrived hr =>
    have hcreated : reactorWork (some (.create {})) = 1 := rfl
    simp only [work, hr, hcreated]
    simp only [reactorWork]
    omega
  | read r event wire now hr hwire hphase =>
    have hread := reactorWork_le (r.onReadDone event now)
    simp only [work, hr, hwire, reactorWork_reading hphase, List.length_cons]
    omega
  | readEnded r hr hphase =>
    simp only [work, hr, reactorWork_reading hphase,
      reactorWork_returned (r := r.onReadEnded) rfl]
    omega
  | answered r collected answer hr hphase =>
    have hoffering : reactorWork (some r) = 2 := by simp only [reactorWork, hphase]
    have hanswered : reactorWork (some (r.onSinkResult answer)) ≤ 1 := by
      cases answer <;> simp [reactorWork, StreamReactor.onSinkResult, StreamReactor.finish]
    simp only [work, hr, hoffering]
    omega

/-! ### A step to take -/

/-- An OK status that a reactor has given is the plain one. -/
def Plain (t : ProducerThread) : Prop :=
  ∀ r, t.reactor = some r → ∀ status ∈ r.finished, status.code = .ok → status = .ok

theorem plain_start (producer : ProducerEvents) : (start producer).Plain := fun _ h => by cases h

theorem plain_serve {t : ProducerThread} {r q : StreamReactor} {wire : List TelemetryEvent}
    (ht : t.Plain) (hr : t.reactor = some r)
    (hq : q.finished = r.finished ∨ ∃ status, q.finished = r.finished ++ [status] ∧
      (status.code = .ok → status = .ok)) :
    ({ t with wire := wire, reactor := some q } : ProducerThread).Plain := by
  intro p hp status hstatus hcode
  cases hp
  obtain hsame | ⟨given, hadded, hplain⟩ := hq
  · exact ht r hr status (hsame ▸ hstatus) hcode
  · rw [hadded] at hstatus
    rcases List.mem_append.mp hstatus with hbefore | hgiven
    · exact ht r hr status hbefore hcode
    · rw [List.mem_singleton.mp hgiven] at hcode ⊢
      exact hplain hcode

theorem plain_moves {t u : ProducerThread} {a : ThreadAction} {out : List CollectedEvent}
    (ht : t.Plain) (h : t.Moves a u out) : u.Plain := by
  cases h with
  | sent | writeFailed | writesDone | finished | failed => exact ht
  | arrived hr =>
    intro r h
    cases h
    exact fun _ hstatus => absurd hstatus List.not_mem_nil
  | read r event wire now hr hwire hphase =>
    refine plain_serve ht hr ?_
    simp only [StreamReactor.onReadDone]
    split
    · exact .inr ⟨_, rfl, fun h => StatusCode.noConfusion h⟩
    · exact .inl rfl
  | readEnded r hr hphase => exact plain_serve ht hr (.inr ⟨.ok, rfl, fun _ => rfl⟩)
  | answered r collected answer hr hphase =>
    refine plain_serve ht hr ?_
    cases answer with
    | accepted => exact .inl rfl
    | overloaded | unavailable => exact .inr ⟨_, rfl, fun h => StatusCode.noConfusion h⟩

/-- The client gets the status that the reactor gave. -/
theorem finish_returned {t : ProducerThread} {own : List CollectedEvent} {r : StreamReactor}
    (ht : t.Consistent own) (hplain : t.Plain) (hphase : t.phase = .finishing)
    (hr : t.reactor = some r) (hreturned : r.phase = .returned) :
    ∃ a, t.Smooth a ∧ (t.step a).isSome := by
  obtain ⟨_, _, _, status, hstatus, _⟩ :=
    StreamReactor.place_returned (ht.reactor r hr).1 hreturned
  have hgiven : status ∈ r.finished := hstatus ▸ List.mem_singleton_self status
  refine ⟨.finish (grpcStatusCode status.code) status.message,
    ⟨r, hr, status, hgiven, rfl, rfl⟩, ?_⟩
  by_cases hcode : grpcStatusCode status.code = grpcStatusCode .ok
  · have hplain : status = .ok := by
      refine hplain r hr status hgiven ?_
      cases hstatus : status.code with
      | ok => rfl
      | invalidArgument | resourceExhausted | unavailable =>
        rw [hstatus] at hcode
        exact absurd hcode (by decide)
    have hsummary : t.summary = some r.response := by
      simp only [summary, hr, Option.bind_some, hstatus, hplain, if_true]
    simp only [step, finish, hphase, hcode, hsummary, if_true, Option.map_some, Option.isSome_some]
  · simp only [step, finish, hphase, if_neg hcode, if_true, Option.map_some, Option.isSome_some]

/-- **A thread that has not been joined** has a step to take, or its reactor has. -/
theorem moves_on {t : ProducerThread} {own : List CollectedEvent} (ht : t.Consistent own)
    (hplain : t.Plain) : t.phase = .joined ∨ ∃ a, t.Smooth a ∧ (t.step a).isSome := by
  cases hphase : t.phase with
  | writing unwritten =>
    refine .inr ?_
    cases unwritten with
    | nil => exact ⟨.writesDone, trivial, by simp [step, writesDone, hphase]⟩
    | cons event rest => exact ⟨.write true, .inl rfl, by simp [step, write, hphase]⟩
  | wrote => exact .inr ⟨.writesDone, trivial, by simp [step, writesDone, hphase]⟩
  | joined => exact .inl rfl
  | finishing =>
    refine .inr ?_
    cases hr : t.reactor with
    | none => exact ⟨.streamTelemetry, trivial, by simp [step, streamTelemetry, hr]⟩
    | some r =>
      cases hserving : r.phase with
      | reading =>
        cases hwire : t.wire with
        | nil =>
          exact ⟨.readEnded, ⟨.inl hphase, hwire⟩, by simp [step, readEnded, hr, hserving]⟩
        | cons event wire => exact ⟨.read 0, trivial, by simp [step, read, hr, hwire, hserving]⟩
      | offering collected =>
        exact ⟨.tryAccept .accepted, rfl, by simp [step, tryAccept, hr, hserving]⟩
      | pushing =>
        obtain ⟨_, _, _, hpending⟩ := StreamReactor.place_pushing (ht.reactor r hr).1 hserving
        cases hpending
      | returned => exact finish_returned ht hplain hphase hr hserving

end ProducerThread

/-! ### All threads -/

namespace Publishing

def work (s : Publishing) : ℕ := (s.threads.map ProducerThread.work).sum

theorem step_work {s s' : Publishing} {action : Nat × ThreadAction}
    (h : s.step action = some s') : s'.work < s.work := by
  obtain ⟨t, u, out, ht, hstep, rfl⟩ := step_cases h
  have hless := ProducerThread.moves_work (ProducerThread.step_moves hstep)
  obtain ⟨hlt, rfl⟩ := List.getElem?_eq_some_iff.mp ht
  have hbefore : s.threads = s.threads.take action.1 ++ s.threads[action.1] ::
      s.threads.drop (action.1 + 1) := by
    rw [List.getElem_cons_drop, List.take_append_drop]
  have hafter : s.threads.set action.1 u = s.threads.take action.1 ++ u ::
      s.threads.drop (action.1 + 1) := by
    rw [List.set_eq_take_append_cons_drop, if_pos hlt]
  show ((s.threads.set action.1 u).map ProducerThread.work).sum <
    (s.threads.map ProducerThread.work).sum
  rw [hafter]
  conv_rhs => rw [hbefore]
  simp only [List.map_append, List.map_cons, List.sum_append, List.sum_cons]
  omega

theorem step_plain {s s' : Publishing} {action : Nat × ThreadAction}
    (hs : ∀ t ∈ s.threads, t.Plain) (h : s.step action = some s') :
    ∀ t ∈ s'.threads, t.Plain := by
  obtain ⟨t, u, out, ht, hstep, rfl⟩ := step_cases h
  intro v hv
  rcases List.mem_or_eq_of_mem_set hv with hv | rfl
  · exact hs v hv
  · exact ProducerThread.plain_moves (hs t (List.mem_of_getElem? ht))
      (ProducerThread.step_moves hstep)

/-- A step can be taken until every thread has been joined. -/
theorem step_exists {groups : List ProducerEvents} {s : Publishing} (hs : s.Consistent groups)
    (hplain : ∀ t ∈ s.threads, t.Plain) : s.report.isSome ∨
      ∃ action s', s.Smooth action ∧ s.step action = some s' := by
  by_cases hjoined : ∀ t ∈ s.threads, t.phase = .joined
  · refine .inl ?_
    rw [report, if_pos (List.all_eq_true.mpr fun t ht => decide_eq_true (hjoined t ht))]
    rfl
  · obtain ⟨t, hmem, hwaiting⟩ := by simpa only [not_forall, exists_prop] using hjoined
    obtain ⟨i, ht⟩ := List.getElem?_of_mem hmem
    obtain hdone | ⟨a, hsmooth, hsome⟩ :=
      ProducerThread.moves_on (hs.thread i t ht) (hplain t hmem)
    · exact absurd hdone hwaiting
    obtain ⟨moved, hmoved⟩ := Option.isSome_iff_exists.mp hsome
    have hstep : s.step (i, a) =
        some { threads := s.threads.set i moved.1, sunk := s.sunk ++ moved.2 } := by
      rw [step, ht, Option.bind_some, hmoved]
      rfl
    refine .inr ⟨(i, a), _, fun u hu => ?_, hstep⟩
    cases ht.symm.trans hu
    exact hsmooth

end Publishing

/-! ### A publish -/

/-- An event is written, read and offered; a producer's thread has five steps besides. -/
theorem start_work (producers : List ProducerEvents) :
    (Publishing.machine producers).init.work =
      3 * (producers.map fun producer => producer.events.length).sum + 5 * producers.length := by
  show ((producers.map ProducerThread.start).map ProducerThread.work).sum = _
  induction producers with
  | nil => rfl
  | cons producer rest ih =>
    have hfirst : (ProducerThread.start producer).work = 3 * producer.events.length + 5 := rfl
    rw [List.map_cons, List.map_cons, List.sum_cons, ih, hfirst, List.map_cons, List.sum_cons,
      List.length_cons]
    omega

/-- **A publish returns.** However its threads and their streams take turns, and whatever fails, it
takes at most three steps an event and five a producer; and from wherever it is, with the connection
up and a sink that accepts it goes on until it returns its report. -/
theorem publish_returns (span : EventSpan) (actions : List (Nat × ThreadAction)) (s : Publishing)
    (hrun : (Publishing.machine (groupByProducer span.events)).run
      (Publishing.machine (groupByProducer span.events)).init actions = some s) :
    actions.length ≤ 3 * span.events.length + 5 * (groupByProducer span.events).length ∧
      ∃ more, (Publishing.machine (groupByProducer span.events)).Obeys Publishing.Smooth s more ∧
        (publish span true (actions ++ more)).isSome := by
  have hnodup := groups_nodup span.events
  have hown : ∀ g ∈ groupByProducer span.events, ∀ event ∈ g.events,
      event.producerId = g.producerId := fun g hg => group_own hg
  let inv (s : Publishing) : Prop :=
    s.Consistent (groupByProducer span.events) ∧ ∀ t ∈ s.threads, t.Plain
  have hkeep (s : Publishing) (a : Nat × ThreadAction) (t : Publishing) (hs : inv s)
      (h : (Publishing.machine (groupByProducer span.events)).step s a = some t) : inv t :=
    ⟨Publishing.consistent_step hnodup hown hs.1 h, Publishing.step_plain hs.2 h⟩
  have hstart : inv (Publishing.machine (groupByProducer span.events)).init := by
    refine ⟨Publishing.consistent_start, fun t ht => ?_⟩
    obtain ⟨g, _, rfl⟩ := List.mem_map.mp ht
    exact ProducerThread.plain_start g
  have hless (s : Publishing) (a : Nat × ThreadAction) (t : Publishing)
      (h : (Publishing.machine (groupByProducer span.events)).step s a = some t) :
      t.work < s.work := Publishing.step_work h
  have hlength := Machine.run_length_le Publishing.work hless hrun
  obtain ⟨more, t, hmore, hobeys, hreport⟩ :=
    Machine.reaches_goal inv (fun s => s.report.isSome) Publishing.work hkeep hless
      (fun s hs => Publishing.step_exists hs.1 hs.2)
      (Machine.run_invariant inv hkeep hstart hrun)
  rw [start_work, groups_length_sum] at hlength
  refine ⟨by omega, more, hobeys, ?_⟩
  obtain ⟨report, hreport⟩ := Option.isSome_iff_exists.mp hreport
  unfold publish
  simp only
  split
  · rfl
  · rw [if_neg (by decide), Machine.run_append, hrun, Option.bind_some, hmore, Option.bind_some,
      hreport]
    rfl

/-- The first producer's first write fails, and the publish returns all the same. -/
theorem publish_returns_sample :
    ∃ more, (publish sampleSpan true ([(0, .write false)] ++ more)).isSome := by
  have hfails : ((Publishing.machine (groupByProducer sampleSpan.events)).run
      (Publishing.machine (groupByProducer sampleSpan.events)).init
      [(0, .write false)]).isSome = true := by decide +kernel
  obtain ⟨s, hs⟩ := Option.isSome_iff_exists.mp hfails
  obtain ⟨_, more, _, hreturns⟩ := publish_returns sampleSpan [(0, .write false)] s hs
  exact ⟨more, hreturns⟩

end TraceForge.Generator
