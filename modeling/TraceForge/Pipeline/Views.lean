import TraceForge.Pipeline.Calls
import TraceForge.Pipeline.Ingestion

/-! Both ends of an ingestion, each seen alone.

The collector's half is a run of the collector: of `Collector.machine` behind a recorder, of the
sink's machine always. The clients' half is a run of `Publishing.machine`, in which the sink gives
any answer: a reactor that has passed the accepting flag is seen as still offering, and its push is
the sink's answer. So what a publish conserves against every sink it conserves against this one. -/
namespace TraceForge.Pipeline
open Library Concurrency Telemetry Recording Generator

variable {pb : Protobuf} {behind : Behind}

/-! ### One step of the collector -/

/-- A step is the collector's own, or a counter's `consume` returns. -/
theorem serve_cases {s t : Collector ℕ} {a : Collector.Action ℕ}
    (h : serve pb behind s a = some t) :
    s.step pb a = some t ∨ ∃ sink, a = .consume ∧ behind = .counter ∧
      s.sink.consumeReturns true = some sink ∧ t = { s with sink := sink } := by
  cases a with
  | consume =>
    cases behind with
    | recorder => exact .inl h
    | counter =>
      obtain ⟨sink, hsink, rfl⟩ := Option.map_eq_some_iff.mp h
      exact .inr ⟨sink, rfl, rfl, hsink, rfl⟩
  | streamTelemetry | read | load | push | pop | call | advance | shutdown => exact .inl h

/-- The consumer and `shutdown` move the sink's own side, and the writer when there is one. -/
theorem aside_cases {s t : Collector ℕ} {a : Collector.Action ℕ} (h : serve pb behind s a = some t)
    (ha : a = .pop ∨ a = .call ∨ a = .consume ∨ a = .advance ∨ a = .shutdown) :
    t.streams = s.streams ∧ t.sink.callers = s.sink.callers ∧ t.sink.answers = s.sink.answers := by
  have hmoved {next : QueuedSink ℕ CollectedEvent} (hnext : Collector.Background s.sink next)
      (ht : { s with sink := next } = t) :
      t.streams = s.streams ∧ t.sink.callers = s.sink.callers ∧
        t.sink.answers = s.sink.answers := by
    obtain ⟨hcallers, hanswers, _⟩ := QueuedSink.background_cases hnext
    rw [← ht]
    exact ⟨rfl, hcallers, hanswers⟩
  obtain hstep | ⟨sink, _, _, hsink, rfl⟩ := serve_cases h
  · rcases ha with rfl | rfl | rfl | rfl | rfl
    · obtain ⟨sink, hsink, ht⟩ := Option.map_eq_some_iff.mp hstep
      exact hmoved (.inl hsink) ht
    · obtain ⟨sink, hsink, ht⟩ := Option.map_eq_some_iff.mp hstep
      exact hmoved (.inr (.inl hsink)) ht
    · simp only [Collector.step, Collector.consume] at hstep
      split at hstep
      · obtain ⟨sink, hsink, rfl⟩ := Option.map_eq_some_iff.mp hstep
        obtain ⟨_, _, rfl⟩ := QueuedSink.consumeReturns_cases hsink
        exact ⟨rfl, rfl, rfl⟩
      · cases hstep
    · obtain ⟨sink, hsink, ht⟩ := Option.map_eq_some_iff.mp hstep
      exact hmoved (.inr (.inr (.inl hsink))) ht
    · obtain ⟨sink, hsink, ht⟩ := Option.map_eq_some_iff.mp hstep
      exact hmoved (.inr (.inr (.inr hsink))) ht
  · obtain ⟨_, _, rfl⟩ := QueuedSink.consumeReturns_cases hsink
    exact ⟨rfl, rfl, rfl⟩

/-- The streams stand where their answers put them. -/
theorem consistent_serve {s t : Collector ℕ} {a : Collector.Action ℕ} (hs : s.Consistent)
    (h : serve pb behind s a = some t) : t.Consistent := by
  rcases serve_cases h with hstep | ⟨sink, _, _, hsink, rfl⟩
  · exact Collector.consistent_step hs hstep
  · obtain ⟨_, _, rfl⟩ := QueuedSink.consumeReturns_cases hsink
    exact ⟨hs.stream, hs.absent⟩

/-- A stream that has not been called stays so through every step but its call. -/
theorem absent_serve {s t : Collector ℕ} {a : Collector.Action ℕ} {j : ℕ}
    (hj : s.streams j = none) (ha : a ≠ .streamTelemetry j) (h : serve pb behind s a = some t) :
    t.streams j = none := by
  have hother {i : ℕ} {r q : StreamReactor} {c : Collector ℕ} (hr : s.streams i = some r)
      (hc : c.streams = s.streams) : (c.withStream i q).streams j = none := by
    have hne : j ≠ i := by
      rintro rfl
      rw [hj] at hr
      cases hr
    exact (Function.update_of_ne hne _ _).trans ((congrFun hc j).trans hj)
  cases a with
  | streamTelemetry i =>
    obtain ⟨_, rfl⟩ := streamTelemetry_cases (h : s.streamTelemetry i = some t)
    have hne : j ≠ i := fun hji => ha (congrArg _ hji.symm)
    exact (Function.update_of_ne hne _ _).trans hj
  | read i event now =>
    obtain ⟨r, hr, _, rfl⟩ := read_cases (h : s.read i event now = some t)
    exact hother hr rfl
  | load i flag =>
    obtain ⟨r, c, hr, _, rfl | rfl⟩ := load_cases (h : s.load i flag = some t)
    · exact hother hr rfl
    · exact hother hr rfl
  | push i =>
    obtain ⟨r, c, result, sink, hr, _, _, rfl, _⟩ := push_cases (h : s.push i = some t)
    exact hother hr rfl
  | pop | call | consume | advance | shutdown =>
    rw [(aside_cases h (by simp)).1]
    exact hj

/-! ### The clients' half -/

/-- A stream's reactor for its client: what is in the push is still being offered. -/
def seen (sink : QueuedSink ℕ CollectedEvent) (i : ℕ) (r : StreamReactor) : StreamReactor :=
  match r.phase, sink.callers i with
  | .pushing, some c => { r with phase := .offering c }
  | _, _ => r

theorem seen_of_ne {sink : QueuedSink ℕ CollectedEvent} {i : ℕ} {r : StreamReactor}
    (h : r.phase ≠ .pushing) : seen sink i r = r := by
  unfold seen
  split
  · rename_i hphase _
    exact absurd hphase h
  · rfl

theorem seen_pushing {sink : QueuedSink ℕ CollectedEvent} {i : ℕ} {r : StreamReactor}
    {c : CollectedEvent} (hphase : r.phase = .pushing) (hc : sink.callers i = some c) :
    seen sink i r = { r with phase := .offering c } := by
  unfold seen
  rw [hphase, hc]

theorem seen_congr {sink next : QueuedSink ℕ CollectedEvent} {i : ℕ}
    (h : next.callers i = sink.callers i) (r : StreamReactor) : seen next i r = seen sink i r := by
  unfold seen
  rw [h]

theorem seen_finished (sink : QueuedSink ℕ CollectedEvent) (i : ℕ) (r : StreamReactor) :
    (seen sink i r).finished = r.finished ∧ (seen sink i r).response = r.response := by
  unfold seen
  split <;> exact ⟨rfl, rfl⟩

/-- An answered reactor is not in the push. -/
theorem onSinkResult_phase (r : StreamReactor) (result : SinkResult) :
    (r.onSinkResult result).phase ≠ .pushing := by cases result <;> exact nofun

theorem onReadDone_phase (r : StreamReactor) (event : TelemetryEvent) (now : Int64) :
    (r.onReadDone event now).phase ≠ .pushing := by
  simp only [StreamReactor.onReadDone]
  split <;>
  · intro hphase
    cases hphase

/-- The events accepted on the first `n` streams. -/
def acceptedOn (n : ℕ) (answers : List (ℕ × CollectedEvent × SinkResult)) : List CollectedEvent :=
  (answers.filter fun answer => answer.1 < n ∧ answer.2.2 = .accepted).map fun answer => answer.2.1

theorem acceptedOn_snoc (n : ℕ) (answers : List (ℕ × CollectedEvent × SinkResult)) (i : ℕ)
    (c : CollectedEvent) (result : SinkResult) :
    acceptedOn n (answers ++ [(i, c, result)]) =
      acceptedOn n answers ++ if i < n ∧ result = .accepted then [c] else [] := by
  by_cases h : i < n ∧ result = .accepted
  · simp [acceptedOn, h]
  · simp [acceptedOn, h]

namespace Ingestion

/-- The call of stream `i`, as its client sees it. -/
def reactor (s : Ingestion) (i : ℕ) : Option StreamReactor :=
  (s.collector.streams i).map (seen s.collector.sink i)

/-- The ingestion as a publish against some sink. -/
def publishing (s : Ingestion) : Publishing where
  threads := s.clients.mapIdx fun i c => c.thread (s.reactor i)
  sunk := acceptedOn s.clients.length s.collector.sink.answers

theorem publishing_threads (s : Ingestion) (i : ℕ) :
    s.publishing.threads[i]? = s.clients[i]?.map fun c => c.thread (s.reactor i) :=
  List.getElem?_mapIdx ..

/-- What a client's statement is for its thread. -/
def threadAction : ClientAction → ThreadAction
  | .write ok => .write ok
  | .writesDone => .writesDone
  | .finish code message => .finish code message

/-- What an action that ended in `t` is for the publish; an answer is one that the sink has given. -/
inductive Shows (t : Ingestion) : Action → ℕ × ThreadAction → Prop where
  | client (i : ℕ) (a : ClientAction) : Shows t (.client i a) (i, threadAction a)
  | arrived (i : ℕ) : Shows t (.serve (.streamTelemetry i)) (i, .streamTelemetry)
  | read (i : ℕ) (event : TelemetryEvent) (now : Int64) :
      Shows t (.serve (.read i (some event) now)) (i, .read now)
  | ended (i : ℕ) (now : Int64) : Shows t (.serve (.read i none now)) (i, .readEnded)
  | answered (i : ℕ) (a : Collector.Action ℕ) (c : CollectedEvent) (result : SinkResult)
      (hanswer : (i, c, result) ∈ t.collector.sink.answers) :
      Shows t (.serve a) (i, .tryAccept result)

/-- The publish sees nothing of an action, or a step of one thread. -/
def Seen (s : Ingestion) (a : Action) (t : Ingestion) : Prop :=
  s.publishing = t.publishing ∨ ∃ b, t.Shows a b ∧ s.publishing.step b = some t.publishing

/-- What the publish cannot see leaves it as it is. -/
theorem publishing_same {s t : Ingestion} (hclients : t.clients = s.clients)
    (hreactor : ∀ i c, s.clients[i]? = some c → t.reactor i = s.reactor i)
    (hsunk : t.publishing.sunk = s.publishing.sunk) : s.publishing = t.publishing := by
  have hthreads : s.publishing.threads = t.publishing.threads := by
    refine List.ext_getElem? fun j => ?_
    rw [publishing_threads, publishing_threads, hclients]
    cases hc : s.clients[j]? with
    | none => rfl
    | some c => rw [hreactor j c hc]
  calc s.publishing = ⟨s.publishing.threads, s.publishing.sunk⟩ := rfl
    _ = t.publishing := by rw [hthreads, ← hsunk]

/-- A step of stream `i` in which a client of the publish takes part is a step of its thread;
otherwise the publish sees none. -/
theorem stream_seen {s t : Ingestion} {action : Action} (i : ℕ)
    (hother : ∀ j, j ≠ i → t.reactor j = s.reactor j)
    (hforeign : s.clients[i]? = none → t.clients = s.clients ∧ t.publishing.sunk = s.publishing.sunk)
    (hown : ∀ c, s.clients[i]? = some c → ∃ a d out, t.clients = s.clients.set i d ∧
      t.publishing.sunk = s.publishing.sunk ++ out ∧ t.Shows action (i, a) ∧
      (c.thread (s.reactor i)).step a = some (d.thread (t.reactor i), out)) :
    s.Seen action t := by
  cases hc : s.clients[i]? with
  | none =>
    obtain ⟨hclients, hsunk⟩ := hforeign hc
    refine .inl (publishing_same hclients (fun j d hd => hother j ?_) hsunk)
    rintro rfl
    rw [hc] at hd
    cases hd
  | some c =>
    obtain ⟨a, d, out, hclients, hsunk, hshows, hstep⟩ := hown c hc
    have hthreads :
        s.publishing.threads.set i (d.thread (t.reactor i)) = t.publishing.threads := by
      refine List.ext_getElem? fun j => ?_
      rw [publishing_threads, hclients, List.getElem?_set, List.getElem?_set, publishing_threads]
      by_cases hj : i = j
      · subst hj
        have hlt := (List.getElem?_eq_some_iff.mp hc).1
        have hlength : s.publishing.threads.length = s.clients.length := List.length_mapIdx
        rw [if_pos rfl, if_pos rfl, if_pos hlt, if_pos (hlength ▸ hlt)]
        rfl
      · rw [if_neg hj, if_neg hj, hother j fun h => hj h.symm]
    refine .inr ⟨(i, a), hshows, ?_⟩
    simp only [Publishing.step, publishing_threads, hc, Option.map_some, Option.bind_some, hstep,
      hthreads, ← hsunk]

/-! ### A step of a client -/

/-- The summary is the one the collector gave. -/
theorem summary_seen (s : Ingestion) (i : ℕ) (c : Client) :
    (c.thread (s.reactor i)).summary = (c.thread (s.collector.streams i)).summary := by
  simp only [ProducerThread.summary, Client.thread, reactor]
  cases s.collector.streams i with
  | none => rfl
  | some r =>
    obtain ⟨hfinished, hresponse⟩ := seen_finished s.collector.sink i r
    simp only [Option.map_some, Option.bind_some, hfinished, hresponse]

/-- A client's statement reads nothing of the call but its end. -/
theorem client_step {s : Ingestion} {i : ℕ} {c d : Client} {a : ClientAction}
    (h : c.step (s.collector.streams i) a = some d) :
    (c.thread (s.reactor i)).step (threadAction a) = some (d.thread (s.reactor i), []) := by
  cases a with
  | write ok =>
    obtain ⟨u, hu, rfl⟩ := Option.map_eq_some_iff.mp h
    unfold ProducerThread.write at hu
    split at hu
    · rename_i event unwritten hphase
      have hwriting : (c.thread (s.reactor i)).phase = .writing (event :: unwritten) := hphase
      cases ok with
      | true =>
        cases hu
        simp only [threadAction, ProducerThread.step, ProducerThread.write, hwriting]
        rfl
      | false =>
        cases hu
        simp only [threadAction, ProducerThread.step, ProducerThread.write, hwriting]
        rfl
    · cases hu
  | writesDone =>
    obtain ⟨u, hu, rfl⟩ := Option.map_eq_some_iff.mp h
    unfold ProducerThread.writesDone at hu
    split at hu
    · rename_i hphase
      cases hu
      have hdone : (c.thread (s.reactor i)).phase = .writing [] ∨
          (c.thread (s.reactor i)).phase = .wrote := hphase
      simp only [threadAction, ProducerThread.step, ProducerThread.writesDone, if_pos hdone]
      rfl
    · cases hu
  | finish code message =>
    obtain ⟨u, hu, rfl⟩ := Option.map_eq_some_iff.mp h
    unfold ProducerThread.finish at hu
    split at hu
    · rename_i hphase
      have hfinishing : (c.thread (s.reactor i)).phase = .finishing := hphase
      simp only [threadAction, ProducerThread.step, ProducerThread.finish, if_pos hfinishing,
        summary_seen]
      split at hu
      · rename_i hcode
        obtain ⟨summary, hsummary, rfl⟩ := Option.map_eq_some_iff.mp hu
        rw [if_pos hcode, hsummary]
        rfl
      · rename_i hcode
        cases hu
        rw [if_neg hcode]
        rfl
    · cases hu

theorem client_seen {s t : Ingestion} {i : ℕ} {a : ClientAction}
    (h : s.step pb behind (.client i a) = some t) : s.Seen (.client i a) t := by
  obtain ⟨c, hc, h⟩ := Option.bind_eq_some_iff.mp h
  obtain ⟨d, hd, rfl⟩ := Option.map_eq_some_iff.mp h
  refine stream_seen i (fun _ _ => rfl) (fun hnone => ?_) fun c' hc' => ?_
  · rw [hnone] at hc
    cases hc
  · cases hc.symm.trans hc'
    refine ⟨threadAction a, d, [], rfl, ?_, .client i a, client_step hd⟩
    rw [List.append_nil]
    simp only [publishing, List.length_set]

/-! ### A step of the collector -/

/-- A step of stream `i` leaves the others' calls as they are. -/
theorem reactor_other {s : Ingestion} {clients : List Client} {sink : QueuedSink ℕ CollectedEvent}
    {i j : ℕ} {r : StreamReactor} (hj : j ≠ i)
    (hcallers : sink.callers j = s.collector.sink.callers j) :
    reactor ⟨clients, Collector.withStream i r { s.collector with sink := sink }⟩ j =
      s.reactor j := by
  simp only [reactor, Collector.withStream, Function.update_of_ne hj]
  cases s.collector.streams j with
  | none => rfl
  | some q => exact congrArg some (seen_congr hcallers q)

theorem reactor_self (clients : List Client) (c : Collector ℕ) (i : ℕ) (r : StreamReactor) :
    reactor ⟨clients, c.withStream i r⟩ i = some (seen c.sink i r) := by
  simp only [reactor, Collector.withStream, Function.update_self, Option.map_some]

theorem reactor_eq {s : Ingestion} {i : ℕ} {r : StreamReactor} (hr : s.collector.streams i = some r)
    (hphase : r.phase ≠ .pushing) : s.reactor i = some r := by
  rw [reactor, hr, Option.map_some, seen_of_ne hphase]

theorem clients_same {s : Ingestion} {i : ℕ} {c : Client} (hc : s.clients[i]? = some c) :
    s.clients = s.clients.set i c := by
  obtain ⟨hlt, rfl⟩ := List.getElem?_eq_some_iff.mp hc
  exact (List.set_getElem_self hlt).symm

/-- A new call. -/
theorem streamTelemetry_seen {s : Ingestion} {c : Collector ℕ} {i : ℕ}
    (h : s.collector.streamTelemetry i = some c) :
    s.Seen (.serve (.streamTelemetry i)) ⟨s.clients, c⟩ := by
  obtain ⟨hnew, rfl⟩ := streamTelemetry_cases h
  refine stream_seen i (fun j hj => reactor_other hj rfl) (fun _ => ⟨rfl, rfl⟩) fun d hd => ?_
  refine ⟨.streamTelemetry, d, [], clients_same hd, (List.append_nil _).symm, .arrived i, ?_⟩
  have hnone : s.reactor i = none := by rw [reactor, hnew]; rfl
  have hcreated : (StreamReactor.create {}).phase ≠ .pushing := nofun
  rw [reactor_self, seen_of_ne hcreated]
  simp only [ProducerThread.step, ProducerThread.streamTelemetry, Client.thread, hnone,
    Option.map_some]

/-- A read takes its event from the wire, on a stream of the publish. -/
theorem read_seen {s : Ingestion} {clients : List Client} {c : Collector ℕ} {i : ℕ}
    {event : Option TelemetryEvent} {now : Int64}
    (htaken : s.taken (.read i event now) = some clients)
    (h : s.collector.read i event now = some c) :
    s.Seen (.serve (.read i event now)) ⟨clients, c⟩ := by
  obtain ⟨r, hr, hphase, rfl⟩ := read_cases h
  have hreading : s.reactor i = some r := reactor_eq hr (by rw [hphase]; exact nofun)
  cases event with
  | none =>
    cases htaken
    refine stream_seen i (fun j hj => reactor_other hj rfl) (fun _ => ⟨rfl, rfl⟩) fun d hd => ?_
    refine ⟨.readEnded, d, [], clients_same hd, (List.append_nil _).symm, .ended i now, ?_⟩
    have hended : r.onReadEnded.phase ≠ .pushing := nofun
    rw [reactor_self, Option.elim_none, seen_of_ne hended]
    simp only [ProducerThread.step, ProducerThread.readEnded, Client.thread, hreading, hphase,
      if_true, Option.map_some]
  | some event =>
    unfold taken at htaken
    split at htaken
    · rename_i j event' now' heq
      cases heq
      split at htaken
      · rename_i hnone
        cases htaken
        refine stream_seen i (fun j hj => reactor_other hj rfl) (fun _ => ⟨rfl, rfl⟩) fun d hd => ?_
        rw [hnone] at hd
        cases hd
      · rename_i d hd
        split at htaken
        · cases htaken
        rename_i first wire hwire
        split at htaken
        · rename_i hfirst
          cases htaken
          subst hfirst
          refine stream_seen i (fun j hj => reactor_other hj rfl) (fun hnone => ?_) fun d' hd' => ?_
          · rw [hnone] at hd
            cases hd
          · cases hd.symm.trans hd'
            refine ⟨.read now, { d with wire := wire }, [], rfl, ?_, .read i _ now, ?_⟩
            · rw [List.append_nil]
              simp only [publishing, List.length_set]
              rfl
            · rw [reactor_self, Option.elim_some, seen_of_ne (onReadDone_phase _ _ _)]
              simp only [ProducerThread.step, ProducerThread.read, Client.thread, hreading, hwire,
                hphase, if_true, Option.map_some]
        · cases htaken
    · rename_i hno
      exact absurd rfl (hno _ _ _)

/-- An answer on stream `i` counts when the publish has that stream and it accepts. -/
theorem sunk_answered {s : Ingestion} {clients : List Client} {c : Collector ℕ} {i : ℕ}
    {collected : CollectedEvent} {result : SinkResult} (hlength : clients.length = s.clients.length)
    (hanswers : c.sink.answers = s.collector.sink.answers ++ [(i, collected, result)]) :
    (publishing ⟨clients, c⟩).sunk = s.publishing.sunk ++
      if i < s.clients.length ∧ result = .accepted then [collected] else [] := by
  simp only [publishing, hlength, hanswers, acceptedOn_snoc]

/-- The sink's answer to a call, of a client of the publish or of another. -/
theorem answered_seen {s : Ingestion} {sink : QueuedSink ℕ CollectedEvent} {i : ℕ}
    {r : StreamReactor} {collected : CollectedEvent} {result : SinkResult}
    (a : Collector.Action ℕ) (hr : s.reactor i = some { r with phase := .offering collected })
    (hother : ∀ j, j ≠ i → sink.callers j = s.collector.sink.callers j)
    (hanswers : sink.answers = s.collector.sink.answers ++ [(i, collected, result)]) :
    s.Seen (.serve a) ⟨s.clients,
      Collector.withStream i (r.onSinkResult result) { s.collector with sink := sink }⟩ := by
  refine stream_seen i (fun j hj => reactor_other hj (hother j hj)) (fun hnone => ⟨rfl, ?_⟩)
    fun d hd => ?_
  · have hge : ¬(i < s.clients.length ∧ result = .accepted) := fun h =>
      absurd (List.getElem?_eq_none_iff.mp hnone) (Nat.not_le.mpr h.1)
    rw [sunk_answered rfl hanswers, if_neg hge, List.append_nil]
  · have hlt := (List.getElem?_eq_some_iff.mp hd).1
    have hgiven : (i, collected, result) ∈ sink.answers := by
      rw [hanswers]
      exact List.mem_append_right _ (List.mem_singleton_self _)
    refine ⟨.tryAccept result, d, if result = .accepted then [collected] else [], clients_same hd,
      ?_, .answered i a collected result hgiven, ?_⟩
    · rw [sunk_answered rfl hanswers]
      simp only [hlt, true_and]
    · rw [reactor_self, seen_of_ne (onSinkResult_phase _ _)]
      simp only [ProducerThread.step, ProducerThread.tryAccept, Client.thread, hr]
      cases result <;> rfl

/-- A load that sees the flag up is not an answer yet. -/
theorem load_seen {s : Ingestion} {c : Collector ℕ} {i : ℕ} {flag : Bool}
    (h : s.collector.load i flag = some c) : s.Seen (.serve (.load i flag)) ⟨s.clients, c⟩ := by
  obtain ⟨r, collected, hr, hphase, hc⟩ := load_cases h
  have hoffering : s.reactor i = some { r with phase := .offering collected } := by
    rw [reactor_eq hr (by rw [hphase]; exact nofun), ← hphase]
  rcases hc with rfl | rfl
  · refine .inl (publishing_same rfl (fun j _ _ => ?_) rfl)
    by_cases hj : j = i
    · subst hj
      rw [reactor_self, hoffering, seen_pushing rfl (Function.update_self ..)]
    · exact reactor_other hj (Function.update_of_ne hj _ _)
  · exact answered_seen _ hoffering (fun _ _ => rfl) rfl

theorem push_seen {s : Ingestion} {c : Collector ℕ} {i : ℕ} (h : s.collector.push i = some c) :
    s.Seen (.serve (.push i)) ⟨s.clients, c⟩ := by
  obtain ⟨r, collected, result, sink, hr, hphase, hc, rfl, hcallers, hanswers⟩ := push_cases h
  refine answered_seen _ ?_ (fun j hj => ?_) hanswers
  · rw [reactor, hr, Option.map_some, seen_pushing hphase hc]
  · rw [hcallers, Function.update_of_ne hj]

/-- **The clients' half of a step** is a step of the publish, or nothing to it. -/
theorem step_seen {s t : Ingestion} {a : Action} (h : s.step pb behind a = some t) :
    s.Seen a t := by
  cases a with
  | client i a => exact client_seen h
  | serve a =>
    obtain ⟨clients, htaken, h⟩ := Option.bind_eq_some_iff.mp h
    obtain ⟨c, hc, rfl⟩ := Option.map_eq_some_iff.mp h
    have haside (ha : a = .pop ∨ a = .call ∨ a = .consume ∨ a = .advance ∨ a = .shutdown)
        (hclients : s.clients = clients) : s.Seen (.serve a) ⟨clients, c⟩ := by
      obtain ⟨hstreams, hcallers, hanswers⟩ := aside_cases hc ha
      subst hclients
      refine .inl (publishing_same rfl (fun j _ _ => ?_) ?_)
      · simp only [reactor, hstreams]
        cases s.collector.streams j with
        | none => rfl
        | some q => exact congrArg some (seen_congr (by rw [hcallers]) q)
      · simp only [publishing, hanswers]
    cases a with
    | streamTelemetry i =>
      cases htaken
      exact streamTelemetry_seen hc
    | read i event now => exact read_seen htaken hc
    | load i flag =>
      cases htaken
      exact load_seen hc
    | push i =>
      cases htaken
      exact push_seen hc
    | pop => exact haside (.inl rfl) (Option.some.inj htaken)
    | call => exact haside (.inr (.inl rfl)) (Option.some.inj htaken)
    | consume => exact haside (.inr (.inr (.inl rfl))) (Option.some.inj htaken)
    | advance => exact haside (.inr (.inr (.inr (.inl rfl)))) (Option.some.inj htaken)
    | shutdown => exact haside (.inr (.inr (.inr (.inr rfl)))) (Option.some.inj htaken)

/-! ### The halves of a run -/

theorem start_threads (producers : List ProducerEvents) :
    ((producers.map Client.start).mapIdx fun _ c => c.thread none) =
      producers.map ProducerThread.start := by
  rw [List.mapIdx_eq_zipIdx_map, List.zipIdx_map, List.map_map]
  refine List.ext_getElem? fun i => ?_
  rw [List.getElem?_map, List.getElem?_map, List.getElem?_zipIdx]
  cases producers[i]? <;> rfl

variable (pb behind) (producers : List ProducerEvents) (queue : BoundedQueue CollectedEvent)
  (writer : LogWriter)

/-- The ingestion seen by its clients. -/
def publishView : Machine.Projection (machine pb behind producers queue writer)
    (Publishing.machine producers) where
  view := publishing
  init := by
    show Publishing.mk _ _ = Publishing.mk _ _
    rw [← start_threads producers]
    rfl
  step _ _ _ h := by
    rcases step_seen h with hsame | ⟨b, _, hstep⟩
    · exact ⟨[], congrArg some hsame⟩
    · exact ⟨[b], Machine.run_cons (m := Publishing.machine producers) [] hstep⟩

/-- The ingestion seen by its queue, whatever is behind it. -/
def sinkView : Machine.Projection (machine pb behind producers queue writer)
    (QueuedSink.machine queue : Machine (QueuedSink ℕ CollectedEvent) _) where
  view s := s.collector.sink
  init := rfl
  step := by
    intro s a t h
    cases a with
    | client i a =>
      obtain ⟨c, _, h⟩ := Option.bind_eq_some_iff.mp h
      obtain ⟨_, _, rfl⟩ := Option.map_eq_some_iff.mp h
      exact ⟨[], rfl⟩
    | serve a =>
      obtain ⟨_, _, h⟩ := Option.bind_eq_some_iff.mp h
      obtain ⟨c, hc, rfl⟩ := Option.map_eq_some_iff.mp h
      rcases serve_cases hc with hstep | ⟨sink, _, _, hsink, rfl⟩
      · exact (Collector.sinkView pb queue writer).step _ a _ hstep
      · exact Collector.sink_run (.consumeReturns true) hsink

end Ingestion

end TraceForge.Pipeline
