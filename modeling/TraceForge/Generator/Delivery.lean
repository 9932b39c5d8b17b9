import TraceForge.Generator.WorkloadPublisher
import TraceForge.Library.Interleave
import TraceForge.Telemetry.CollectorStreams
import TraceForge.Telemetry.ValidationHistory

/-! A successful publish delivers every event exactly once.

Each group is a producer's events in list order, and the groups together are the list. A thread and
its reactor keep one account (`ProducerThread.Consistent`): what was read and what is on the wire
are the first events of the group, and the sink has accepted what the reactor captured. An OK status
is given when nothing captured is still to be accepted, and a count that matches the group's leaves
nothing unread. With a sink that accepts and a connection that is up, only the validator can end a
stream early. -/
namespace TraceForge.Generator
open Library Telemetry
open StreamValidator Offered

/-! ### Groups -/

/-- The events of a producer, in list order. -/
def eventsOf (producer : List UInt8) (events : List TelemetryEvent) : List TelemetryEvent :=
  viewOf TelemetryEvent.producerId producer events

theorem foldl_append_some (events before : List TelemetryEvent) :
    events.foldl (fun entry event => some (entry.getD default ++ [event])) (some before) =
      some (before ++ events) := by
  induction events generalizing before with
  | nil => rw [List.foldl_nil, List.append_nil]
  | cons event rest ih =>
    rw [List.foldl_cons, Option.getD_some, ih, List.append_assoc]
    rfl

/-- The map holds each producer's events. -/
theorem grouped_getElem? (events : List TelemetryEvent) (producer : List UInt8) :
    (grouped events)[producer]? =
      if eventsOf producer events = [] then none else some (eventsOf producer events) := by
  let step (m : Std.ExtTreeMap (List UInt8) (List TelemetryEvent) compare)
      (event : TelemetryEvent) := update m event.producerId (· ++ [event])
  have hown (m : Std.ExtTreeMap (List UInt8) (List TelemetryEvent) compare)
      (event : TelemetryEvent) (h : event.producerId = producer) :
      (step m event)[producer]? = some (m[producer]?.getD default ++ [event]) := by
    subst h
    exact update_self ..
  have hother (m : Std.ExtTreeMap (List UInt8) (List TelemetryEvent) compare)
      (event : TelemetryEvent) (h : event.producerId ≠ producer) :
      (step m event)[producer]? = m[producer]? := update_of_ne _ h _
  have hview : (grouped events)[producer]? = _ :=
    foldl_view (fun m : Std.ExtTreeMap (List UInt8) (List TelemetryEvent) compare => m[producer]?)
      (fun entry event => some (entry.getD default ++ [event])) hown hother events ∅
  rw [hview, Std.ExtTreeMap.getElem?_empty]
  show (eventsOf producer events).foldl _ none = _
  cases eventsOf producer events with
  | nil => rfl
  | cons event rest =>
    rw [List.foldl_cons, foldl_append_some, if_neg (List.cons_ne_nil _ _)]
    rfl

theorem mem_groupByProducer {events : List TelemetryEvent} {g : ProducerEvents} :
    g ∈ groupByProducer events ↔ g.events ≠ [] ∧ g.events = eventsOf g.producerId events := by
  have hentry : g ∈ groupByProducer events ↔ (grouped events)[g.producerId]? = some g.events := by
    rw [groupByProducer, List.mem_map]
    constructor
    · rintro ⟨entry, hentry, rfl⟩
      exact Std.ExtTreeMap.mem_toList_iff_getElem?_eq_some.mp hentry
    · intro h
      exact ⟨(g.producerId, g.events), Std.ExtTreeMap.mem_toList_iff_getElem?_eq_some.mpr h, rfl⟩
  rw [hentry, grouped_getElem?]
  constructor
  · intro h
    split at h
    · cases h
    · rename_i hne
      rw [← Option.some.inj h]
      exact ⟨hne, rfl⟩
  · rintro ⟨hne, heq⟩
    rw [← heq, if_neg hne]

theorem group_own {events : List TelemetryEvent} {g : ProducerEvents}
    (hg : g ∈ groupByProducer events) : ∀ event ∈ g.events, event.producerId = g.producerId := by
  intro event hevent
  rw [(mem_groupByProducer.mp hg).2] at hevent
  simpa using (List.mem_filter.mp hevent).2

/-- **The groups are the list**: every producer's events are in its group, in list order. -/
theorem groups_sameViews (events : List TelemetryEvent) :
    SameViews TelemetryEvent.producerId ((groupByProducer events).flatMap ProducerEvents.events)
      events := by
  intro producer
  rw [viewOf_flatMap fun g hg => group_own hg, groupByProducer, viewOf_map]
  show ((((grouped events).toList.filter fun entry => entry.1 = producer).map _).flatMap _) = _
  rw [toList_filter_key, grouped_getElem?]
  by_cases hnil : eventsOf producer events = []
  · rw [if_pos hnil]
    exact hnil.symm
  · rw [if_neg hnil]
    exact List.append_nil _

theorem groups_length_sum (events : List TelemetryEvent) :
    ((groupByProducer events).map fun g => g.events.length).sum = events.length := by
  rw [← List.length_flatMap, (groups_sameViews events).perm.length_eq]

/-- No producer has two groups. -/
theorem groups_nodup (events : List TelemetryEvent) :
    ((groupByProducer events).map ProducerEvents.producerId).Nodup := by
  rw [groupByProducer, List.map_map]
  refine List.pairwise_map.mpr ?_
  refine (Std.ExtTreeMap.distinct_keys_toList (t := grouped events)).imp fun {a b} h heq => h ?_
  have hkey : a.1 = b.1 := heq
  rw [hkey]
  exact Std.ReflCmp.compare_self

theorem groups_length_lt (span : EventSpan) :
    ∀ g ∈ groupByProducer span.events, g.events.length < 2 ^ 64 := by
  intro g hg
  rw [(mem_groupByProducer.mp hg).2]
  exact Nat.lt_of_le_of_lt (List.length_filter_le ..) span.length_lt

/-! ### What a reactor has validated -/

/-- The validator is where the captured events bring a fresh one, and it accepted them all. -/
structure Validated (r : StreamReactor) : Prop where
  whole : AcceptedWhole (r.captured.map CollectedEvent.event)
  validator : r.validator = (offerAll (r.captured.map CollectedEvent.event)).validator

theorem validated_create : Validated (StreamReactor.create {}) where
  whole := rfl
  validator := rfl

/-- A read is captured exactly when the stream goes on being valid. -/
theorem onReadDone_cases {r : StreamReactor} (hr : Validated r) (event : TelemetryEvent)
    (now : Int64) :
    AcceptedWhole (r.captured.map CollectedEvent.event ++ [event]) ∧
        Validated (r.onReadDone event now) ∧
        (r.onReadDone event now).phase = .offering ⟨event, now⟩ ∧
        (r.onReadDone event now).finished = r.finished ∧
        (r.onReadDone event now).captured = r.captured ++ [⟨event, now⟩] ∨
      ¬AcceptedWhole (r.captured.map CollectedEvent.event ++ [event]) ∧
        Validated (r.onReadDone event now) := by
  have hmap : (r.captured ++ [(⟨event, now⟩ : CollectedEvent)]).map CollectedEvent.event =
      r.captured.map CollectedEvent.event ++ [event] := List.map_append
  obtain ⟨hevent, hnext, haccept⟩ | ⟨hrefused, hrejected, _, hsame⟩ :=
    r.validator.accept_cases event
  · left
    have hwhole : AcceptedWhole (r.captured.map CollectedEvent.event ++ [event]) :=
      acceptedWhole_snoc.mpr ⟨hr.whole, hevent, hr.validator ▸ hnext⟩
    simp only [StreamReactor.onReadDone, haccept, Bool.not_true, Bool.false_eq_true, if_false,
      and_true]
    refine ⟨hwhole, ?_, ?_⟩
    · simp only [hmap]
      exact hwhole
    · simp only [hmap]
      rw [offerAll_snoc_accepted hwhole, ← hr.validator]
  · right
    refine ⟨fun hwhole => ?_, ?_⟩
    · obtain ⟨_, hevent, hnext⟩ := acceptedWhole_snoc.mp hwhole
      exact hrefused ⟨hevent, hr.validator ▸ hnext⟩
    · simp only [StreamReactor.onReadDone, hrejected, hsame, Bool.not_false, if_true,
        StreamReactor.finish]
      exact ⟨hr.whole, hr.validator⟩

theorem validated_onSinkResult {r : StreamReactor} (hr : Validated r) (answer : SinkResult) :
    Validated (r.onSinkResult answer) := by
  cases answer <;> exact ⟨hr.whole, hr.validator⟩

/-! ### One thread -/

namespace ProducerThread

/-- All that a step of a thread or its reactor can be, and what the sink accepts in it. -/
inductive Moves (t : ProducerThread) :
    ThreadAction → ProducerThread → List CollectedEvent → Prop where
  | sent (event : TelemetryEvent) (unwritten : List TelemetryEvent)
      (hphase : t.phase = .writing (event :: unwritten)) :
      Moves t (.write true) { t with
        phase := .writing unwritten
        wire := t.wire ++ [event]
        result := { t.result with writtenEvents := t.result.writtenEvents + 1 } } []
  | writeFailed (event : TelemetryEvent) (unwritten : List TelemetryEvent)
      (hphase : t.phase = .writing (event :: unwritten)) :
      Moves t (.write false) { t with phase := .wrote } []
  | writesDone (hphase : t.phase = .writing [] ∨ t.phase = .wrote) :
      Moves t .writesDone { t with phase := .finishing } []
  | finished (r : StreamReactor) (message : String) (hphase : t.phase = .finishing)
      (hr : t.reactor = some r) (hok : r.finished = [.ok]) :
      Moves t (.finish (grpcStatusCode .ok) message) { t with
        phase := .joined
        result := { t.result with
          grpcStatusCode := grpcStatusCode .ok
          errorMessage := message
          acceptedEvents := r.response.acceptedEvents
          sequenceGaps := r.response.sequenceGaps } } []
  | failed (code : Int32) (message : String) (hphase : t.phase = .finishing)
      (hcode : code ≠ grpcStatusCode .ok) :
      Moves t (.finish code message) { t with
        phase := .joined
        result := { t.result with grpcStatusCode := code, errorMessage := message } } []
  | arrived (hr : t.reactor = none) :
      Moves t .streamTelemetry { t with reactor := some (.create {}) } []
  | read (r : StreamReactor) (event : TelemetryEvent) (wire : List TelemetryEvent) (now : Int64)
      (hr : t.reactor = some r) (hwire : t.wire = event :: wire) (hphase : r.phase = .reading) :
      Moves t (.read now) { t with wire := wire, reactor := some (r.onReadDone event now) } []
  | readEnded (r : StreamReactor) (hr : t.reactor = some r) (hphase : r.phase = .reading) :
      Moves t .readEnded { t with reactor := some r.onReadEnded } []
  | answered (r : StreamReactor) (collected : CollectedEvent) (answer : SinkResult)
      (hr : t.reactor = some r) (hphase : r.phase = .offering collected) :
      Moves t (.tryAccept answer) { t with reactor := some (r.onSinkResult answer) }
        (if answer = .accepted then [collected] else [])

theorem finish_moves {t u : ProducerThread} {code : Int32} {message : String}
    (h : t.finish code message = some u) : t.Moves (.finish code message) u [] := by
  unfold finish at h
  split at h
  · rename_i hphase
    split at h
    · rename_i hcode
      obtain ⟨summary, hsummary, rfl⟩ := Option.map_eq_some_iff.mp h
      obtain ⟨r, hr, hsummary⟩ := Option.bind_eq_some_iff.mp hsummary
      split at hsummary
      · rename_i hok
        cases hsummary
        rw [hcode]
        exact .finished r message hphase hr hok
      · cases hsummary
    · rename_i hcode
      cases h
      exact .failed code message hphase hcode
  · cases h

theorem step_moves {t u : ProducerThread} {a : ThreadAction} {out : List CollectedEvent}
    (h : t.step a = some (u, out)) : t.Moves a u out := by
  cases a with
  | write ok =>
    obtain ⟨_, hwrite, heq⟩ := Option.map_eq_some_iff.mp h
    cases heq
    unfold write at hwrite
    split at hwrite
    · rename_i event unwritten hphase
      cases ok with
      | true =>
        cases hwrite
        exact .sent event unwritten hphase
      | false =>
        cases hwrite
        exact .writeFailed event unwritten hphase
    · cases hwrite
  | writesDone =>
    obtain ⟨_, hdone, heq⟩ := Option.map_eq_some_iff.mp h
    cases heq
    unfold writesDone at hdone
    split at hdone
    · rename_i hphase
      cases hdone
      exact .writesDone hphase
    · cases hdone
  | finish code message =>
    obtain ⟨_, hfinish, heq⟩ := Option.map_eq_some_iff.mp h
    cases heq
    exact finish_moves hfinish
  | streamTelemetry =>
    obtain ⟨_, harrived, heq⟩ := Option.map_eq_some_iff.mp h
    cases heq
    unfold streamTelemetry at harrived
    split at harrived
    · cases harrived
    · rename_i hr
      cases harrived
      exact .arrived hr
  | read now =>
    obtain ⟨_, hread, heq⟩ := Option.map_eq_some_iff.mp h
    cases heq
    unfold read at hread
    split at hread
    · rename_i r event wire hr hwire
      split at hread
      · rename_i hphase
        cases hread
        exact .read r event wire now hr hwire hphase
      · cases hread
    · cases hread
  | readEnded =>
    obtain ⟨_, hended, heq⟩ := Option.map_eq_some_iff.mp h
    cases heq
    unfold readEnded at hended
    split at hended
    · rename_i r hr
      split at hended
      · rename_i hphase
        cases hended
        exact .readEnded r hr hphase
      · cases hended
    · cases hended
  | tryAccept answer =>
    have haccept : t.tryAccept answer = some (u, out) := h
    unfold tryAccept at haccept
    split at haccept
    · cases haccept
    rename_i r hr
    split at haccept
    · rename_i collected hphase
      cases haccept
      exact .answered r collected answer hr hphase
    · cases haccept

theorem moves_producer {t u : ProducerThread} {a : ThreadAction} {out : List CollectedEvent}
    (h : t.Moves a u out) : u.producer = t.producer := by cases h <;> rfl

/-- What the reactor has read. -/
def reads (t : ProducerThread) : List TelemetryEvent := t.reactor.elim [] StreamReactor.reads

theorem reads_reactor {t : ProducerThread} {r : StreamReactor} (hr : t.reactor = some r) :
    t.reads = r.reads := by rw [reads, hr]; rfl

/-- One account of a thread and its reactor, when the sink has accepted `own` from it. -/
structure Consistent (t : ProducerThread) (own : List CollectedEvent) : Prop where
  absent : t.reactor = none → own = []
  reactor : ∀ r, t.reactor = some r → r.Consistent own none ∧ Validated r
  sent : t.reads ++ t.wire <+: t.producer.events
  unwritten : ∀ rest, t.phase = .writing rest → t.reads ++ t.wire ++ rest = t.producer.events
  written : t.result.writtenEvents = UInt64.ofNat (t.reads ++ t.wire).length
  attempted : t.result.attemptedEvents = UInt64.ofNat t.producer.events.length
  joined : t.phase = .joined → t.result.grpcStatusCode = grpcStatusCode .ok →
    ∃ r, t.reactor = some r ∧ r.finished = [.ok] ∧
      t.result.acceptedEvents = r.response.acceptedEvents

theorem consistent_start (producer : ProducerEvents) : (start producer).Consistent [] where
  absent _ := rfl
  reactor _ h := by cases h
  sent := List.nil_prefix
  unwritten rest h := by
    cases h
    rfl
  written := rfl
  attempted := rfl
  joined h := by cases h

theorem onReadDone_reads (r : StreamReactor) (event : TelemetryEvent) (now : Int64) :
    (r.onReadDone event now).reads = r.reads ++ [event] := by
  simp only [StreamReactor.onReadDone]
  split <;> rfl

theorem onSinkResult_reads (r : StreamReactor) (answer : SinkResult) :
    (r.onSinkResult answer).reads = r.reads := by cases answer <;> rfl

/-- A call that ended well has returned. -/
theorem returned_of_ok {r : StreamReactor} {own : List CollectedEvent}
    {pending : Option CollectedEvent} (hr : r.Consistent own pending) (hok : r.finished = [.ok]) :
    r.phase = .returned := by
  cases hphase : r.phase with
  | reading =>
    rw [(StreamReactor.place_reading hr hphase).1.finished] at hok
    cases hok
  | offering c =>
    rw [(StreamReactor.place_offering hr hphase).1.finished] at hok
    cases hok
  | pushing =>
    rw [(StreamReactor.place_pushing hr hphase).1.finished] at hok
    cases hok
  | returned => rfl

/-- A step of the reactor, which leaves the client's end alone. -/
theorem consistent_serve {t : ProducerThread} {own now : List CollectedEvent} {r : StreamReactor}
    {wire : List TelemetryEvent} (ht : t.Consistent own)
    (hr : r.Consistent now none) (hvalidated : Validated r)
    (hreads : r.reads ++ wire = t.reads ++ t.wire)
    (hopen : ∀ q, t.reactor = some q → q.phase ≠ .returned) :
    ({ t with wire := wire, reactor := some r } : ProducerThread).Consistent now where
  absent h := by cases h
  reactor q h := by
    cases h
    exact ⟨hr, hvalidated⟩
  sent := by
    show r.reads ++ wire <+: _
    rw [hreads]
    exact ht.sent
  unwritten rest h := by
    show r.reads ++ wire ++ rest = _
    rw [hreads]
    exact ht.unwritten rest h
  written := by
    show _ = UInt64.ofNat (r.reads ++ wire).length
    rw [hreads]
    exact ht.written
  attempted := ht.attempted
  joined hphase hcode := by
    obtain ⟨q, hq, hok, _⟩ := ht.joined hphase hcode
    exact absurd (returned_of_ok (ht.reactor q hq).1 hok) (hopen q hq)

/-- **One step** keeps the account, with what the sink accepts in it. -/
theorem consistent_moves {t u : ProducerThread} {a : ThreadAction} {own out : List CollectedEvent}
    (ht : t.Consistent own) (h : t.Moves a u out) : u.Consistent (own ++ out) := by
  cases h with
  | sent event unwritten hphase =>
    have hall := ht.unwritten _ hphase
    rw [List.append_nil]
    exact
      { absent := ht.absent
        reactor := ht.reactor
        sent := by
          rw [← hall, ← List.append_assoc, List.append_cons _ event unwritten]
          exact List.prefix_append ..
        unwritten := fun rest h => by
          cases h
          rw [← hall, ← List.append_assoc, List.append_cons _ event unwritten]
          rfl
        written := by
          show t.result.writtenEvents + 1 = UInt64.ofNat (t.reads ++ (t.wire ++ [event])).length
          have hlength : (t.reads ++ (t.wire ++ [event])).length =
              (t.reads ++ t.wire).length + 1 := by simp [Nat.add_assoc]
          rw [ht.written, hlength, UInt64.ofNat_add]
          rfl
        attempted := ht.attempted
        joined := fun h => by cases h }
  | writeFailed event unwritten hphase =>
    rw [List.append_nil]
    exact { ht with unwritten := fun _ h => (by cases h), joined := fun h => (by cases h) }
  | writesDone hphase =>
    rw [List.append_nil]
    exact { ht with unwritten := fun _ h => (by cases h), joined := fun h => (by cases h) }
  | finished r message hphase hr hok =>
    rw [List.append_nil]
    exact
      { ht with
        unwritten := fun _ h => by cases h
        joined := fun _ _ => ⟨r, hr, hok, rfl⟩ }
  | failed code message hphase hcode =>
    rw [List.append_nil]
    exact { ht with unwritten := fun _ h => (by cases h), joined := fun _ h => absurd h hcode }
  | arrived hr =>
    rw [List.append_nil]
    rw [ht.absent hr]
    refine consistent_serve ht StreamReactor.consistent_create validated_create ?_ ?_
    · rw [reads, hr]
      rfl
    · intro q hq
      rw [hr] at hq
      cases hq
  | read r event wire now hr hwire hphase =>
    rw [List.append_nil]
    obtain ⟨hconsistent, hvalidated⟩ := ht.reactor r hr
    have hnext : Validated (r.onReadDone event now) := by
      obtain ⟨_, h, _⟩ | ⟨_, h⟩ := onReadDone_cases hvalidated event now <;> exact h
    have hdone := StreamReactor.consistent_onReadDone event now hconsistent hphase
    refine consistent_serve ht hdone hnext ?_ ?_
    · rw [onReadDone_reads, reads_reactor hr, hwire, List.append_assoc]
      rfl
    · intro q hq
      cases hr.symm.trans hq
      rw [hphase]
      nofun
  | readEnded r hr hphase =>
    rw [List.append_nil]
    obtain ⟨hconsistent, hvalidated⟩ := ht.reactor r hr
    have hdone := StreamReactor.consistent_onReadEnded hconsistent hphase
    refine consistent_serve ht hdone ⟨hvalidated.whole, hvalidated.validator⟩ ?_ ?_
    · rw [reads_reactor hr]
      rfl
    · intro q hq
      cases hr.symm.trans hq
      rw [hphase]
      nofun
  | answered r collected answer hr hphase =>
    obtain ⟨hconsistent, hvalidated⟩ := ht.reactor r hr
    obtain ⟨hrunning, hcaptured, _⟩ := StreamReactor.place_offering hconsistent hphase
    refine consistent_serve ht
      (StreamReactor.consistent_onSinkResult answer hconsistent hrunning hcaptured)
      (validated_onSinkResult hvalidated answer) ?_ ?_
    · rw [onSinkResult_reads, reads_reactor hr]
    · intro q hq
      cases hr.symm.trans hq
      rw [hphase]
      nofun

/-- What the reactor has captured are events of the group. -/
theorem captured_mem {t : ProducerThread} {own : List CollectedEvent} {r : StreamReactor}
    (ht : t.Consistent own) (hr : t.reactor = some r) :
    ∀ c ∈ r.captured, c.event ∈ t.producer.events := by
  intro c hc
  have hread := (StreamReactor.own_captured (ht.reactor r hr).1).2.subset
    (List.mem_map_of_mem hc)
  exact ht.sent.subset (List.mem_append_left _ (reads_reactor hr ▸ hread))

theorem moves_own {t u : ProducerThread} {a : ThreadAction} {own out : List CollectedEvent}
    (ht : t.Consistent own) (h : t.Moves a u out) : ∀ c ∈ out, c.event ∈ t.producer.events := by
  cases h with
  | answered r collected answer hr hphase =>
    intro c hc
    split at hc
    · rw [List.mem_singleton.mp hc]
      obtain ⟨_, hcaptured, _⟩ := StreamReactor.place_offering (ht.reactor r hr).1 hphase
      exact captured_mem ht hr _ (hcaptured ▸ List.mem_append_right _ (List.mem_singleton_self _))
    · exact absurd hc List.not_mem_nil
  | sent | writeFailed | writesDone | finished | failed | arrived | read | readEnded =>
    exact fun _ h => absurd h List.not_mem_nil

/-- A summary that comes with an OK status counts what the reactor has captured, and all of it has
been accepted. -/
theorem response_of_ok {t : ProducerThread} {own : List CollectedEvent} {r : StreamReactor}
    (ht : t.Consistent own) (hlt : t.producer.events.length < 2 ^ 64) (hr : t.reactor = some r)
    (hok : r.finished = [.ok]) :
    r.captured = own ∧ r.captured.map CollectedEvent.event <+: t.producer.events ∧
      r.response.acceptedEvents.toNat = r.captured.length := by
  obtain ⟨hconsistent, _⟩ := ht.reactor r hr
  obtain ⟨_, hreads, _, status, hstatus, hend⟩ :=
    StreamReactor.place_returned hconsistent (returned_of_ok hconsistent hok)
  rw [hok] at hstatus
  obtain ⟨hcaptured, hresponse⟩ := hend (List.cons.inj hstatus).1.symm
  have hprefix : r.captured.map CollectedEvent.event <+: t.producer.events :=
    (hreads.trans (reads_reactor hr ▸ List.prefix_append t.reads t.wire)).trans ht.sent
  have hle : r.captured.length ≤ t.producer.events.length := by
    rw [← List.length_map CollectedEvent.event]
    exact hprefix.length_le
  refine ⟨hcaptured, hprefix, ?_⟩
  rw [hresponse]
  exact (hconsistent.tracks (by omega)).summary.acceptedEvents.trans (List.length_map _)

/-- **A thread that succeeded** has had its whole group validated and accepted. -/
theorem delivered {t : ProducerThread} {own : List CollectedEvent} (ht : t.Consistent own)
    (hlt : t.producer.events.length < 2 ^ 64) (hjoined : t.phase = .joined)
    (hsucceeded : t.result.succeeded = true) :
    own.map CollectedEvent.event = t.producer.events ∧ AcceptedWhole t.producer.events ∧
      t.result.acceptedEvents = t.result.attemptedEvents := by
  simp only [ProducerPublishResult.succeeded, Bool.and_eq_true, decide_eq_true_eq] at hsucceeded
  obtain ⟨⟨hcode, _⟩, hequal⟩ := hsucceeded
  obtain ⟨r, hr, hok, haccepted⟩ := ht.joined hjoined hcode
  obtain ⟨hcaptured, hprefix, hcount⟩ := response_of_ok ht hlt hr hok
  have hlength : (r.captured.map CollectedEvent.event).length = t.producer.events.length := by
    rw [List.length_map, ← hcount, ← haccepted, hequal, ht.attempted, UInt64.toNat_ofNat']
    exact Nat.mod_eq_of_lt hlt
  have hall := hprefix.eq_of_length hlength
  exact ⟨by rw [← hcaptured, hall], hall ▸ (ht.reactor r hr).2.whole, hequal⟩

end ProducerThread

/-! ### All threads -/

namespace Publishing

/-- What the sink has accepted from a producer. -/
def sunkOf (producer : List UInt8) (s : Publishing) : List CollectedEvent :=
  viewOf (fun c => c.event.producerId) producer s.sunk

/-- Every thread is consistent with what the sink has accepted from its producer, and nothing came
from anyone else. -/
structure Consistent (groups : List ProducerEvents) (s : Publishing) : Prop where
  producers : s.threads.map ProducerThread.producer = groups
  thread : ∀ (i : Nat) (t : ProducerThread), s.threads[i]? = some t →
    t.Consistent (s.sunkOf t.producer.producerId)
  known : ∀ c ∈ s.sunk, ∃ g ∈ groups, g.producerId = c.event.producerId

variable {groups : List ProducerEvents}

theorem consistent_start : (machine groups).init.Consistent groups where
  producers := by
    rw [machine, List.map_map]
    exact List.map_id _
  thread i t h := by
    obtain ⟨g, _, rfl⟩ := Option.map_eq_some_iff.mp ((List.getElem?_map ..).symm.trans h)
    exact ProducerThread.consistent_start g
  known _ h := absurd h List.not_mem_nil

/-- A step of the machine is a step of one thread. -/
theorem step_cases {s s' : Publishing} {action : Nat × ThreadAction}
    (h : s.step action = some s') :
    ∃ t u out, s.threads[action.1]? = some t ∧ t.step action.2 = some (u, out) ∧
      s' = { threads := s.threads.set action.1 u, sunk := s.sunk ++ out } := by
  obtain ⟨t, ht, h⟩ := Option.bind_eq_some_iff.mp h
  obtain ⟨⟨u, out⟩, hu, rfl⟩ := Option.map_eq_some_iff.mp h
  exact ⟨t, u, out, ht, hu, rfl⟩

/-- Threads have producers of their own. -/
theorem producers_differ {s : Publishing} (hs : s.Consistent groups)
    (hnodup : (groups.map ProducerEvents.producerId).Nodup) {i j : Nat} {t u : ProducerThread}
    (ht : s.threads[i]? = some t) (hu : s.threads[j]? = some u) (hne : i ≠ j) :
    t.producer.producerId ≠ u.producer.producerId := by
  rw [← hs.producers, List.map_map] at hnodup
  intro heq
  have hi : (s.threads.map fun t => t.producer.producerId)[i]? = some t.producer.producerId := by
    rw [List.getElem?_map, ht]
    rfl
  have hj : (s.threads.map fun t => t.producer.producerId)[j]? = some t.producer.producerId := by
    rw [List.getElem?_map, hu, heq]
    rfl
  obtain ⟨hlt, _⟩ := List.getElem?_eq_some_iff.mp hi
  exact hne ((List.getElem?_inj hlt hnodup).mp (hi.trans hj.symm))

/-- **A step of one thread** leaves every thread consistent. -/
theorem consistent_step (hnodup : (groups.map ProducerEvents.producerId).Nodup)
    (hown : ∀ g ∈ groups, ∀ event ∈ g.events, event.producerId = g.producerId)
    {s s' : Publishing} {action : Nat × ThreadAction} (hs : s.Consistent groups)
    (h : s.step action = some s') : s'.Consistent groups := by
  obtain ⟨t, u, out, ht, hstep, rfl⟩ := step_cases h
  have hmoves := ProducerThread.step_moves hstep
  have hthread := hs.thread _ t ht
  have hgroup : t.producer ∈ groups :=
    hs.producers ▸ List.mem_map_of_mem (List.mem_of_getElem? ht)
  have hproducer : ∀ c ∈ out, c.event.producerId = t.producer.producerId := fun c hc =>
    hown _ hgroup _ (ProducerThread.moves_own hthread hmoves c hc)
  obtain ⟨hlt, hget⟩ := List.getElem?_eq_some_iff.mp ht
  exact
    { producers := by
        rw [List.map_set, ProducerThread.moves_producer hmoves, ← hget, ← hs.producers]
        refine List.ext_getElem? fun j => ?_
        rw [List.getElem?_set]
        split
        · rename_i heq
          rw [← heq, List.length_map, if_pos hlt, List.getElem?_map, List.getElem?_eq_getElem hlt]
          rfl
        · rfl
      thread := by
        intro j v hv
        have hview (producer : List UInt8) :
            sunkOf producer { threads := s.threads.set action.1 u, sunk := s.sunk ++ out } =
              s.sunkOf producer ++ viewOf (fun c => c.event.producerId) producer out :=
          viewOf_append ..
        rw [List.getElem?_set] at hv
        split at hv
        · cases hv
          rw [hview, ProducerThread.moves_producer hmoves, viewOf_eq_self hproducer]
          exact ProducerThread.consistent_moves hthread hmoves
        · rename_i hne
          have hother := producers_differ hs hnodup ht hv hne
          rw [hview, viewOf_eq_nil fun c hc => (hproducer c hc).trans_ne hother, List.append_nil]
          exact hs.thread j v hv
      known := by
        intro c hc
        rcases List.mem_append.mp hc with hc | hc
        · exact hs.known c hc
        · exact ⟨t.producer, hgroup, (hproducer c hc).symm⟩ }

/-- Every thread's result is in the report. -/
theorem report_cases {s : Publishing} {report : PublishReport} (h : s.report = some report) :
    report = ⟨s.threads.map ProducerThread.result⟩ ∧ ∀ t ∈ s.threads, t.phase = .joined := by
  unfold Publishing.report at h
  split at h
  · rename_i hall
    refine ⟨(Option.some.inj h).symm, fun t ht => ?_⟩
    simpa using List.all_eq_true.mp hall t ht
  · cases h

theorem attempted_total (threads : List ProducerThread) (total : UInt64)
    (h : ∀ t ∈ threads, t.result.attemptedEvents = UInt64.ofNat t.producer.events.length) :
    (threads.map ProducerThread.result).foldl (fun total r => total + r.attemptedEvents) total =
      total + UInt64.ofNat
        ((threads.map ProducerThread.producer).flatMap ProducerEvents.events).length := by
  induction threads generalizing total with
  | nil => exact (UInt64.add_zero total).symm
  | cons t rest ih =>
    obtain ⟨ht, hrest⟩ := List.forall_mem_cons.mp h
    rw [List.map_cons, List.foldl_cons, ih _ hrest, ht, List.map_cons, List.flatMap_cons,
      List.length_append, UInt64.ofNat_add, UInt64.add_assoc]

/-- **A publish that succeeded**: the sink has accepted the list, producer by producer. -/
theorem report_delivered {span : EventSpan} {s : Publishing} {report : PublishReport}
    (hs : s.Consistent (groupByProducer span.events)) (hreport : s.report = some report)
    (hsucceeded : report.succeeded = true) :
    SameViews TelemetryEvent.producerId (s.sunk.map CollectedEvent.event) span.events ∧
      (∀ producer, AcceptedWhole (eventsOf producer span.events)) ∧
      report.attemptedEvents.toNat = span.events.length ∧
      report.acceptedEvents = report.attemptedEvents := by
  obtain ⟨rfl, hjoined⟩ := report_cases hreport
  have hdelivered (t : ProducerThread) (ht : t ∈ s.threads) :
      (s.sunkOf t.producer.producerId).map CollectedEvent.event = t.producer.events ∧
        AcceptedWhole t.producer.events ∧ t.result.acceptedEvents = t.result.attemptedEvents := by
    obtain ⟨i, hi⟩ := List.getElem?_of_mem ht
    have hgroup : t.producer ∈ groupByProducer span.events := hs.producers ▸ List.mem_map_of_mem ht
    have hlt := groups_length_lt span _ hgroup
    have hresult : t.result.succeeded = true :=
      List.all_eq_true.mp hsucceeded _ (List.mem_map_of_mem ht)
    exact ProducerThread.delivered (hs.thread i t hi) hlt (hjoined t ht) hresult
  have hproducer (producer : List UInt8) (hne : eventsOf producer span.events ≠ []) :
      ∃ t ∈ s.threads, t.producer = ⟨producer, eventsOf producer span.events⟩ := by
    have hgroup : (⟨producer, eventsOf producer span.events⟩ : ProducerEvents) ∈
        groupByProducer span.events := mem_groupByProducer.mpr ⟨hne, rfl⟩
    rw [← hs.producers] at hgroup
    exact List.mem_map.mp hgroup
  refine ⟨fun producer => ?_, fun producer => ?_, ?_, ?_⟩
  · rw [viewOf_map]
    by_cases hnil : eventsOf producer span.events = []
    · refine Eq.trans ?_ hnil.symm
      rw [viewOf_eq_nil, List.map_nil]
      intro c hc heq
      obtain ⟨g, hg, hid⟩ := hs.known c hc
      obtain ⟨hne, hevents⟩ := mem_groupByProducer.mp hg
      rw [hid, heq] at hevents
      exact hne (hevents.trans hnil)
    · obtain ⟨t, ht, hgroup⟩ := hproducer producer hnil
      have hown := (hdelivered t ht).1
      rw [hgroup] at hown
      exact hown
  · by_cases hnil : eventsOf producer span.events = []
    · rw [hnil]
      rfl
    · obtain ⟨t, ht, hgroup⟩ := hproducer producer hnil
      have hwhole := (hdelivered t ht).2.1
      rw [hgroup] at hwhole
      exact hwhole
  · have hattempted : ∀ t ∈ s.threads,
        t.result.attemptedEvents = UInt64.ofNat t.producer.events.length := by
      intro t ht
      obtain ⟨i, hi⟩ := List.getElem?_of_mem ht
      exact (hs.thread i t hi).attempted
    rw [PublishReport.attemptedEvents, attempted_total _ _ hattempted, hs.producers,
      (groups_sameViews span.events).perm.length_eq, UInt64.zero_add, UInt64.toNat_ofNat']
    exact Nat.mod_eq_of_lt span.length_lt
  · rw [PublishReport.acceptedEvents, PublishReport.attemptedEvents, List.foldl_map,
      List.foldl_map]
    refine List.foldl_ext _ _ _ fun total t ht => ?_
    rw [(hdelivered t ht).2.2]

end Publishing

/-! ### With a sink that accepts and a connection that is up -/

namespace ProducerThread

/-- A write fails only on a call that has ended, the reactor's reads end only when the client has
nothing more to send, the client gets the status the reactor gave, and the sink accepts. -/
def Smooth (t : ProducerThread) : ThreadAction → Prop
  | .write ok => ok = true ∨ ∃ r ∈ t.reactor, r.phase = .returned
  | .finish code message => ∃ r ∈ t.reactor, ∃ status ∈ r.finished,
      code = grpcStatusCode status.code ∧ message = status.message
  | .readEnded => (t.phase = .finishing ∨ t.phase = .joined) ∧ t.wire = []
  | .tryAccept answer => answer = .accepted
  | .writesDone | .streamTelemetry | .read _ => True

/-- Nothing has been refused, and nothing was lost on the way. -/
def Flows (t : ProducerThread) : Prop :=
  match t.phase with
  | .writing _ => ∀ r, t.reactor = some r → r.finished = []
  | .wrote => False
  | .finishing => t.reads ++ t.wire = t.producer.events ∧
      ∀ r, t.reactor = some r → r.finished = [] ∨
        r.finished = [.ok] ∧ r.captured.map CollectedEvent.event = r.reads ∧ t.wire = []
  | .joined => t.result.succeeded = true

/-- A reactor that is at work has not finished its call, also after a step that leaves it so. -/
theorem flows_serve {t : ProducerThread} {q : StreamReactor} {wire : List TelemetryEvent}
    (ht : t.Flows) (hr : q.reads ++ wire = t.reads ++ t.wire) (hq : q.finished = []) :
    ({ t with wire := wire, reactor := some q } : ProducerThread).Flows := by
  unfold Flows at ht ⊢
  cases hphase : t.phase with
  | writing rest =>
    intro p hp
    cases hp
    exact hq
  | wrote =>
    rw [hphase] at ht
    exact ht
  | finishing =>
    rw [hphase] at ht
    refine ⟨hr.trans ht.1, fun p hp => ?_⟩
    cases hp
    exact .inl hq
  | joined =>
    rw [hphase] at ht
    exact ht

theorem flows_moves {t u : ProducerThread} {a : ThreadAction} {own out : List CollectedEvent}
    (hwhole : AcceptedWhole t.producer.events) (hlt : t.producer.events.length < 2 ^ 64)
    (hc : t.Consistent own) (ht : t.Flows) (hrule : t.Smooth a) (h : t.Moves a u out) :
    u.Flows := by
  cases h with
  | sent event unwritten hphase =>
    unfold Flows at ht ⊢
    rw [hphase] at ht
    exact ht
  | writeFailed event unwritten hphase =>
    unfold Flows at ht
    rw [hphase] at ht
    obtain hfalse | ⟨r, hr, hreturned⟩ := hrule
    · cases hfalse
    · obtain ⟨_, _, _, status, hstatus, _⟩ :=
        StreamReactor.place_returned (hc.reactor r hr).1 hreturned
      rw [ht r hr] at hstatus
      cases hstatus
  | writesDone hphase =>
    rcases hphase with hphase | hphase
    · unfold Flows at ht ⊢
      rw [hphase] at ht
      have hall := hc.unwritten [] hphase
      rw [List.append_nil] at hall
      exact ⟨hall, fun r hr => .inl (ht r hr)⟩
    · unfold Flows at ht
      rw [hphase] at ht
      exact ht.elim
  | finished r message hphase hr hok =>
    unfold Flows at ht
    rw [hphase] at ht
    obtain ⟨hall, hended⟩ := ht
    obtain hnone | ⟨_, hcaptured, hwire⟩ := hended r hr
    · rw [hok] at hnone
      cases hnone
    rw [hwire, List.append_nil, reads_reactor hr] at hall
    obtain ⟨_, _, hcount⟩ := response_of_ok hc hlt hr hok
    have hlength : r.captured.length = t.producer.events.length := by
      rw [← hall, ← hcaptured, List.length_map]
    have haccepted : r.response.acceptedEvents = t.result.attemptedEvents := by
      rw [hc.attempted, ← hlength, ← hcount, UInt64.ofNat_toNat]
    have hwritten : t.result.writtenEvents = t.result.attemptedEvents := by
      rw [hc.written, hc.attempted, hwire, List.append_nil, reads_reactor hr, hall]
    show ProducerPublishResult.succeeded _ = true
    simp only [ProducerPublishResult.succeeded, haccepted, hwritten, decide_true, Bool.and_self]
  | failed code message hphase hcode =>
    unfold Flows at ht
    rw [hphase] at ht
    obtain ⟨r, hr, status, hgiven, hstatus, _⟩ := hrule
    obtain hnone | ⟨hok, _⟩ := ht.2 r hr
    · rw [hnone] at hgiven
      exact absurd hgiven List.not_mem_nil
    · rw [hok] at hgiven
      rw [List.mem_singleton.mp hgiven] at hstatus
      exact absurd hstatus hcode
  | arrived hr =>
    refine flows_serve ht ?_ rfl
    rw [reads, hr]
    rfl
  | read r event wire now hr hwire hphase =>
    obtain ⟨hconsistent, hvalidated⟩ := hc.reactor r hr
    obtain ⟨hrunning, _⟩ := StreamReactor.place_reading hconsistent hphase
    have hnext : AcceptedWhole (r.captured.map CollectedEvent.event ++ [event]) := by
      refine acceptedWhole_prefix (List.IsPrefix.trans ⟨wire, ?_⟩ hc.sent) hwhole
      rw [← hrunning.reads, reads_reactor hr, hwire, List.append_assoc]
      rfl
    obtain ⟨_, _, _, hfinished, _⟩ | ⟨hrefused, _⟩ := onReadDone_cases hvalidated event now
    · refine flows_serve ht ?_ (hfinished.trans hrunning.finished)
      rw [onReadDone_reads, reads_reactor hr, hwire, List.append_assoc]
      rfl
    · exact absurd hnext hrefused
  | readEnded r hr hphase =>
    obtain ⟨hrunning, _⟩ := StreamReactor.place_reading (hc.reactor r hr).1 hphase
    obtain ⟨hclosed | hclosed, hwire⟩ := hrule
    · unfold Flows at ht ⊢
      rw [hclosed] at ht ⊢
      refine ⟨?_, fun q hq => .inr ?_⟩
      · rw [← ht.1, reads_reactor hr]
        rfl
      · cases hq
        refine ⟨?_, hrunning.reads.symm, hwire⟩
        simp only [StreamReactor.onReadEnded, StreamReactor.finish, hrunning.finished]
        rfl
    · unfold Flows at ht ⊢
      rw [hclosed] at ht ⊢
      exact ht
  | answered r collected answer hr hphase =>
    obtain ⟨hrunning, _⟩ := StreamReactor.place_offering (hc.reactor r hr).1 hphase
    have haccepted : answer = .accepted := hrule
    subst haccepted
    refine flows_serve ht ?_ hrunning.finished
    rw [reads_reactor hr]
    rfl

theorem flows_start (producer : ProducerEvents) : (start producer).Flows := fun _ h => by cases h

instance decidableSmooth (t : ProducerThread) : (a : ThreadAction) → Decidable (t.Smooth a)
  | .write ok => inferInstanceAs (Decidable (ok = true ∨ ∃ r ∈ t.reactor, r.phase = .returned))
  | .finish code message => inferInstanceAs (Decidable (∃ r ∈ t.reactor, ∃ status ∈ r.finished,
      code = grpcStatusCode status.code ∧ message = status.message))
  | .readEnded =>
    inferInstanceAs (Decidable ((t.phase = .finishing ∨ t.phase = .joined) ∧ t.wire = []))
  | .tryAccept answer => inferInstanceAs (Decidable (answer = .accepted))
  | .writesDone | .streamTelemetry | .read _ => .isTrue trivial

end ProducerThread

namespace Publishing

variable {groups : List ProducerEvents}

/-- The rule, for the thread that moves. -/
def Smooth (s : Publishing) (action : Nat × ThreadAction) : Prop :=
  ∀ t ∈ s.threads[action.1]?, t.Smooth action.2

instance decidableSmooth (s : Publishing) (action : Nat × ThreadAction) :
    Decidable (s.Smooth action) :=
  inferInstanceAs (Decidable (∀ t ∈ s.threads[action.1]?, t.Smooth action.2))

theorem flows_step (hwhole : ∀ g ∈ groups, AcceptedWhole g.events)
    (hlt : ∀ g ∈ groups, g.events.length < 2 ^ 64) {s s' : Publishing} {action : Nat × ThreadAction}
    (hs : s.Consistent groups) (hflows : ∀ t ∈ s.threads, t.Flows) (hrule : s.Smooth action)
    (h : s.step action = some s') : ∀ t ∈ s'.threads, t.Flows := by
  obtain ⟨t, u, out, ht, hstep, rfl⟩ := step_cases h
  have hgroup : t.producer ∈ groups :=
    hs.producers ▸ List.mem_map_of_mem (List.mem_of_getElem? ht)
  intro v hv
  rcases List.mem_or_eq_of_mem_set hv with hv | rfl
  · exact hflows v hv
  · exact ProducerThread.flows_moves (hwhole _ hgroup) (hlt _ hgroup) (hs.thread _ t ht)
      (hflows t (List.mem_of_getElem? ht)) (hrule t ht) (ProducerThread.step_moves hstep)

end Publishing

/-! ### A publish -/

/-- All that a publish can be: nothing to do, no connection, or a run to the end. -/
theorem publish_cases {span : EventSpan} {connected : Bool} {actions : List (Nat × ThreadAction)}
    {report : PublishReport} {sunk : List CollectedEvent}
    (h : publish span connected actions = some (report, sunk)) :
    groupByProducer span.events = [] ∧ report = ⟨[]⟩ ∧ sunk = [] ∨
      groupByProducer span.events ≠ [] ∧ connected = false ∧
        report = ⟨(groupByProducer span.events).map connectionTimedOut⟩ ∨
      ∃ s, (Publishing.machine (groupByProducer span.events)).run
          (Publishing.machine (groupByProducer span.events)).init actions = some s ∧
        s.report = some report ∧ s.sunk = sunk := by
  simp only [publish] at h
  split at h
  · rename_i hempty
    cases h
    exact .inl ⟨List.isEmpty_iff.mp hempty, rfl, rfl⟩
  rename_i hempty
  split at h
  · rename_i hconnected
    cases h
    exact .inr (.inl ⟨mt List.isEmpty_iff.mpr hempty, by simpa using hconnected, rfl⟩)
  · obtain ⟨s, hrun, h⟩ := Option.bind_eq_some_iff.mp h
    obtain ⟨_, hreport, h⟩ := Option.map_eq_some_iff.mp h
    cases h
    exact .inr (.inr ⟨s, hrun, hreport, rfl⟩)

/-- **A successful publish delivers exactly once**, whatever the sink answers and gRPC does: the
sink has accepted the list's events, each as often as it is in the list and those of a producer in
list order, and both totals are the length of the list. With a connection that is up and a sink that
accepts, a publish succeeds exactly when fresh validators accept every producer's events. -/
theorem publish_exactly_once (span : EventSpan) (connected : Bool)
    (actions : List (Nat × ThreadAction)) (report : PublishReport) (sunk : List CollectedEvent)
    (h : publish span connected actions = some (report, sunk)) :
    (report.succeeded = true →
      (sunk.map CollectedEvent.event).Perm span.events ∧
      (∀ producer, eventsOf producer (sunk.map CollectedEvent.event) =
        eventsOf producer span.events) ∧
      report.attemptedEvents.toNat = span.events.length ∧
      report.acceptedEvents = report.attemptedEvents) ∧
    (connected = true →
      (Publishing.machine (groupByProducer span.events)).Obeys Publishing.Smooth
        (Publishing.machine (groupByProducer span.events)).init actions →
      (report.succeeded = true ↔
        ∀ producer, AcceptedWhole (eventsOf producer span.events))) := by
  have hnodup := groups_nodup span.events
  have hown : ∀ g ∈ groupByProducer span.events, ∀ event ∈ g.events,
      event.producerId = g.producerId := fun g hg => group_own hg
  rcases publish_cases h with ⟨hempty, rfl, rfl⟩ | ⟨hne, rfl, rfl⟩ | ⟨s, hrun, hreport, rfl⟩
  · have hperm := (groups_sameViews span.events).perm
    rw [hempty] at hperm
    have hnil : span.events = [] := hperm.nil_eq.symm
    rw [hnil]
    exact ⟨fun _ => ⟨.rfl, fun _ => rfl, rfl, rfl⟩, fun _ _ => ⟨fun _ _ => rfl, fun _ => rfl⟩⟩
  · have hfailed : ¬PublishReport.succeeded
        ⟨(groupByProducer span.events).map connectionTimedOut⟩ = true := by
      obtain ⟨g, hg⟩ := List.exists_mem_of_ne_nil _ hne
      intro hsucceeded
      have hresult := List.all_eq_true.mp hsucceeded _ (List.mem_map_of_mem hg)
      cases hresult
    exact ⟨fun hsucceeded => absurd hsucceeded hfailed, fun hconnected => by cases hconnected⟩
  · have hs : s.Consistent (groupByProducer span.events) :=
      Machine.run_invariant (Publishing.Consistent (groupByProducer span.events))
        (fun _ _ _ hs hstep => Publishing.consistent_step hnodup hown hs hstep)
        Publishing.consistent_start hrun
    refine ⟨fun hsucceeded => ?_, fun _ hobeys => ⟨fun hsucceeded => ?_, fun hwhole => ?_⟩⟩
    · obtain ⟨hviews, _, hattempted, haccepted⟩ :=
        Publishing.report_delivered hs hreport hsucceeded
      exact ⟨hviews.perm, hviews, hattempted, haccepted⟩
    · exact (Publishing.report_delivered hs hreport hsucceeded).2.1
    · have hgroups : ∀ g ∈ groupByProducer span.events, AcceptedWhole g.events := fun g hg =>
        (mem_groupByProducer.mp hg).2 ▸ hwhole g.producerId
      have hflows := Machine.obeying_invariant
        (fun s => s.Consistent (groupByProducer span.events) ∧ ∀ t ∈ s.threads, t.Flows)
        (fun _ _ _ hs hrule hstep => ⟨Publishing.consistent_step hnodup hown hs.1 hstep,
          Publishing.flows_step hgroups (groups_length_lt span) hs.1 hs.2 hrule hstep⟩)
        ⟨Publishing.consistent_start, fun t ht => by
          obtain ⟨g, _, rfl⟩ := List.mem_map.mp ht
          exact ProducerThread.flows_start g⟩ hobeys hrun
      obtain ⟨rfl, hjoined⟩ := Publishing.report_cases hreport
      refine List.all_eq_true.mpr fun result hresult => ?_
      obtain ⟨t, ht, rfl⟩ := List.mem_map.mp hresult
      have hdone := hflows.2 t ht
      unfold ProducerThread.Flows at hdone
      rw [hjoined t ht] at hdone
      exact hdone

/-! ### Two producers -/

def neighbourEvent : TelemetryEvent := { Wire.sampleEvent 0 with producerId := [0x71] }

def sampleSpan : EventSpan where
  events := [Wire.sampleEvent 1, neighbourEvent, Wire.sampleEvent 4]
  length_lt := by decide

/-- The second producer's stream is served while the first one's is open. -/
def sampleSchedule : List (Nat × ThreadAction) :=
  [(0, .write true), (1, .streamTelemetry), (0, .streamTelemetry), (0, .read 5), (1, .write true),
    (0, .tryAccept .accepted), (1, .read 6), (0, .write true), (1, .tryAccept .accepted),
    (0, .writesDone), (1, .writesDone), (0, .read 7), (1, .readEnded), (0, .tryAccept .accepted),
    (1, .finish 0 ""), (0, .readEnded), (0, .finish 0 "")]

theorem publish_exactly_once_sample :
    ∃ report sunk, publish sampleSpan true sampleSchedule = some (report, sunk) ∧
      report.succeeded = true ∧ report.attemptedEvents.toNat = 3 ∧
      (sunk.map CollectedEvent.event).Perm sampleSpan.events ∧
      ∀ producer, AcceptedWhole (eventsOf producer sampleSpan.events) := by
  have hpublished : (publish sampleSpan true sampleSchedule).isSome = true := by decide +kernel
  obtain ⟨⟨report, sunk⟩, hpublish⟩ := Option.isSome_iff_exists.mp hpublished
  have hsucceeded : (publish sampleSpan true sampleSchedule).all (fun out => out.1.succeeded) =
      true := by decide +kernel
  rw [hpublish] at hsucceeded
  have hreport : report.succeeded = true := hsucceeded
  obtain ⟨hexact, hup⟩ :=
    publish_exactly_once sampleSpan true sampleSchedule report sunk hpublish
  obtain ⟨hperm, _, hattempted, _⟩ := hexact hreport
  exact ⟨report, sunk, hpublish, hreport, hattempted, hperm,
    (hup rfl (by decide +kernel)).mp hreport⟩

end TraceForge.Generator
