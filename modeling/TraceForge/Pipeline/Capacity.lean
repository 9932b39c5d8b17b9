import TraceForge.Generator.Progress
import TraceForge.Pipeline.Recorded
import TraceForge.Pipeline.Serving

/-! A queue with room for a whole publish.

While the connection holds, only the publish calls and nobody shuts the sink down (`Undisturbed`), a
collector turns an event away only for want of room or because its consumer has failed. A queue that
has room for the list never wants it, in whatever order the clients, the streams and the consumer
move (`Welcomed`). Every such step leaves less to do (`work_less`), and until the publish has
returned there is one to take (`moves`): it returns, and has succeeded (`capacity_suffices`). -/
namespace TraceForge.Pipeline
open Library Concurrency Telemetry Recording Generator
open StreamValidator Offered

variable {pb : Protobuf} {behind : Behind}

namespace Ingestion

/-- The connection holds, only the publish's clients call, and the sink is not shut down. -/
def Undisturbed (s : Ingestion) : Action → Prop
  | .client i a => ∀ c ∈ s.clients[i]?, (c.thread (s.reactor i)).Smooth (threadAction a)
  | .serve (.streamTelemetry i) => i < s.clients.length
  | .serve (.read i none _) => ∀ c ∈ s.clients[i]?, (c.thread (s.reactor i)).Smooth .readEnded
  | .serve .shutdown => False
  | _ => True

variable {span : EventSpan} {capacity : ℕ} {s t : Ingestion}

/-! ### The account of both ends -/

/-- What holds of both ends in every undisturbed run. -/
structure Account (span : EventSpan) (capacity : ℕ) (s : Ingestion) : Prop where
  publishing : s.publishing.Consistent (groupByProducer span.events)
  plain : ∀ t ∈ s.publishing.threads, t.Plain
  collector : s.collector.Consistent
  sink : s.collector.sink.Valid
  opened : s.collector.sink.Open
  capacity : s.collector.sink.queue.capacity = capacity
  alone : ∀ i r, ¬s.Stranger i r
  idle : s.collector.sink.shutdown = .idle
  never : s.collector.sink.shutdowns = 0

theorem start_publishing (pb : Protobuf) (behind : Behind) (producers : List ProducerEvents)
    (queue : BoundedQueue CollectedEvent) (writer : LogWriter) :
    (machine pb behind producers queue writer).init.publishing =
      (Publishing.machine producers).init :=
  (publishView pb behind producers queue writer).init

theorem account_start (pb : Protobuf) (behind : Behind) (capacity_pos : 0 < capacity)
    (writer : LogWriter) : (machine pb behind (groupByProducer span.events)
      (.empty capacity capacity_pos) writer).init.Account span capacity where
  publishing := by
    rw [start_publishing]
    exact Publishing.consistent_start
  plain := by
    rw [start_publishing]
    intro t ht
    obtain ⟨g, _, rfl⟩ := List.mem_map.mp ht
    exact ProducerThread.plain_start g
  collector := Collector.consistent_start _ _
  sink := QueuedSink.valid_start _ rfl rfl
  opened _ _ _ := ⟨rfl, rfl⟩
  capacity := rfl
  alone _ _ h := by cases h.2
  idle := rfl
  never := rfl

theorem undisturbed_ours {a : Action} (ha : s.Undisturbed a) : Ours s.clients.length a := by
  cases a with
  | client i a => trivial
  | serve a =>
    cases a with
    | streamTelemetry i => exact ha
    | _ => trivial

/-- **Both ends keep their account.** -/
theorem account_step {a : Action} (hs : s.Account span capacity) (ha : s.Undisturbed a)
    (h : s.step pb behind a = some t) : t.Account span capacity := by
  have hpublishing : t.publishing.Consistent (groupByProducer span.events) ∧
      ∀ thread ∈ t.publishing.threads, thread.Plain := by
    rcases step_seen h with hsame | ⟨b, _, hstep⟩
    · rw [← hsame]
      exact ⟨hs.publishing, hs.plain⟩
    · exact ⟨Publishing.consistent_step (groups_nodup span.events) (fun _ hg => group_own hg)
        hs.publishing hstep, Publishing.step_plain hs.plain hstep⟩
  have halone := strangers_step hs.alone (undisturbed_ours ha) h
  cases a with
  | client i a =>
    obtain ⟨c, _, h⟩ := Option.bind_eq_some_iff.mp h
    obtain ⟨_, _, rfl⟩ := Option.map_eq_some_iff.mp h
    exact { hs with publishing := hpublishing.1, plain := hpublishing.2, alone := halone }
  | serve a =>
    obtain ⟨_, _, h⟩ := Option.bind_eq_some_iff.mp h
    obtain ⟨c, hc, rfl⟩ := Option.map_eq_some_iff.mp h
    have hnot : a ≠ .shutdown := by
      rintro rfl
      exact ha
    obtain ⟨hsink, hopened, hcapacity⟩ := serve_invariant
      (fun sink => sink.Valid ∧ sink.Open ∧ sink.queue.capacity = capacity)
      (fun _ b _ hinv hstep => ⟨QueuedSink.valid_step (a := b) hinv.1 hstep,
        QueuedSink.open_step hinv.1 hinv.2.1 hstep,
        (QueuedSink.capacity_step hstep).trans hinv.2.2⟩)
      ⟨hs.sink, hs.opened, hs.capacity⟩ hc
    obtain ⟨hshutdown, hshutdowns⟩ := serve_shutdown hnot hc
    exact
      { publishing := hpublishing.1
        plain := hpublishing.2
        collector := consistent_serve hs.collector hc
        sink := hsink
        opened := hopened
        capacity := hcapacity
        alone := halone
        idle := hshutdown.trans hs.idle
        never := hshutdowns.trans hs.never }

/-! ### Room in the queue -/

/-- What the sink has accepted of a producer are the first of its events. -/
theorem sunk_leads (hs : s.publishing.Consistent (groupByProducer span.events))
    (producer : List UInt8) : (s.publishing.sunkOf producer).map CollectedEvent.event <+:
      eventsOf producer span.events := by
  by_cases hnone : s.publishing.sunkOf producer = []
  · rw [hnone]
    exact List.nil_prefix
  obtain ⟨c, hc⟩ := List.exists_mem_of_ne_nil _ hnone
  obtain ⟨hmem, hproducer⟩ := List.mem_filter.mp hc
  have hproducer : c.event.producerId = producer := by simpa using hproducer
  obtain ⟨g, hg, hid⟩ := hs.known c hmem
  obtain ⟨thread, hthread, rfl⟩ := List.mem_map.mp (hs.producers.symm ▸ hg)
  obtain ⟨i, hi⟩ := List.getElem?_of_mem hthread
  have hleads := own_leads (hs.thread i thread hi)
  rwa [(mem_groupByProducer.mp hg).2, hid, hproducer] at hleads

/-- **An event that is pushed finds room**, when the queue has room for the list. -/
theorem queue_room (hs : s.Account span capacity) (hroom : span.events.length ≤ capacity) {i : ℕ}
    {r : StreamReactor} (hr : s.collector.streams i = some r) (hphase : r.phase = .pushing) :
    s.collector.sink.queue.items.length < s.collector.sink.queue.capacity := by
  cases hc : s.clients[i]? with
  | none => exact absurd ⟨List.getElem?_eq_none_iff.mp hc, hr⟩ (hs.alone i r)
  | some c =>
    obtain ⟨hgroup, hthread⟩ := client_thread hs.publishing hc
    obtain ⟨_, pushed, _, hcaller⟩ := StreamReactor.place_pushing (hs.collector.stream i r hr) hphase
    have hreactor : (c.thread (s.reactor i)).reactor = some { r with phase := .offering pushed } := by
      show s.reactor i = _
      rw [reactor, hr, Option.map_some, seen_pushing hphase hcaller]
    obtain ⟨hrunning, hcaptured, _⟩ :=
      StreamReactor.place_offering (hthread.reactor _ hreactor).1 rfl
    -- the pushed event is the next of its group
    have hnext : ((s.publishing.sunkOf c.producer.producerId) ++ [pushed]).map
        CollectedEvent.event <+: c.producer.events := by
      have hsent := (List.prefix_append _ _).trans hthread.sent
      rw [ProducerThread.reads_reactor hreactor, hrunning.reads, hcaptured] at hsent
      exact hsent
    have hpushed : pushed.event.producerId = c.producer.producerId :=
      group_own hgroup _ (hnext.subset (List.mem_map_of_mem
        (List.mem_append_right _ (List.mem_singleton_self pushed))))
    have hviews (producer : List UInt8) : (viewOf TelemetryEvent.producerId producer
        (s.publishing.sunk.map CollectedEvent.event ++ [pushed.event])).Sublist
        (viewOf TelemetryEvent.producerId producer span.events) := by
      rw [viewOf_append, viewOf_map]
      by_cases hproducer : producer = c.producer.producerId
      · subst hproducer
        have hown : viewOf TelemetryEvent.producerId c.producer.producerId [pushed.event] =
            [pushed.event] := viewOf_eq_self fun event hevent => by
          rw [List.mem_singleton.mp hevent, hpushed]
        rw [hown]
        rw [(mem_groupByProducer.mp hgroup).2, List.map_append] at hnext
        exact hnext.sublist
      · have hother : viewOf TelemetryEvent.producerId producer [pushed.event] = [] :=
          viewOf_eq_nil fun event hevent heq => hproducer (by
            rw [← heq, List.mem_singleton.mp hevent, hpushed])
        rw [hother, List.append_nil]
        exact (sunk_leads hs.publishing producer).sublist
    have hlength := length_le_of_views hviews
    rw [List.length_append, List.length_map, List.length_singleton,
      ← acknowledged_eq_sunk hs.collector hs.alone, hs.sink.acknowledged, hs.sink.conserved,
      List.length_append, List.length_append] at hlength
    have hcapacity := hs.capacity
    omega

/-! ### Nothing is turned away -/

/-- Every event offered was accepted, and nothing was lost on the way. -/
structure Welcomed (s : Ingestion) : Prop where
  answered : ∀ answer ∈ s.collector.sink.answers, answer.2.2 = .accepted
  flows : ∀ t ∈ s.publishing.threads, t.Flows

theorem welcomed_start (pb : Protobuf) (behind : Behind) (capacity_pos : 0 < capacity)
    (writer : LogWriter) : (machine pb behind (groupByProducer span.events)
      (.empty capacity capacity_pos) writer).init.Welcomed where
  answered _ h := absurd h List.not_mem_nil
  flows := by
    rw [start_publishing]
    intro t ht
    obtain ⟨g, _, rfl⟩ := List.mem_map.mp ht
    exact ProducerThread.flows_start g

/-- One more answer of an open sink that has room. -/
theorem answered_serve {a : Collector.Action ℕ} {c : Collector ℕ} (hs : s.Account span capacity)
    (hroom : span.events.length ≤ capacity) (hall : QueuedSink.AllTrue s.collector.sink.returns)
    (hanswered : ∀ answer ∈ s.collector.sink.answers, answer.2.2 = .accepted)
    (h : serve pb behind s.collector a = some c) :
    ∀ answer ∈ c.sink.answers, answer.2.2 = .accepted := by
  obtain ⟨haccepting, hopen⟩ := hs.opened hs.idle hs.never hall
  cases a with
  | streamTelemetry i =>
    obtain ⟨_, rfl⟩ := streamTelemetry_cases (h : s.collector.streamTelemetry i = some c)
    exact hanswered
  | read i event now =>
    obtain ⟨_, _, _, rfl⟩ := read_cases (h : s.collector.read i event now = some c)
    exact hanswered
  | load i seen =>
    have hload : s.collector.load i seen = some c := h
    unfold Collector.load at hload
    split at hload
    · cases hload
    split at hload
    · obtain ⟨⟨result, sink⟩, hsink, rfl⟩ := Option.map_eq_some_iff.mp hload
      cases result with
      | none =>
        rcases QueuedSink.load_cases hsink with ⟨_, rfl⟩ | ⟨hno, _⟩
        · exact hanswered
        · cases hno
      | some result =>
        rw [QueuedSink.load_refused hsink] at haccepting
        cases haccepting
    · cases hload
  | push i =>
    have hpush : s.collector.push i = some c := h
    unfold Collector.push at hpush
    split at hpush
    · cases hpush
    rename_i r hr
    split at hpush
    · rename_i hphase
      obtain ⟨⟨_, _⟩, hsink, rfl⟩ := Option.map_eq_some_iff.mp hpush
      obtain ⟨event, _, rfl, rfl⟩ := QueuedSink.push_cases hsink
      have haccepted := tryPush_room hopen (queue_room hs hroom hr hphase) event
      intro answer hanswer
      rcases List.mem_append.mp hanswer with hold | hnew
      · exact hanswered answer hold
      · rw [List.mem_singleton.mp hnew, haccepted]
        rfl
    · cases hpush
  | pop | call | consume | advance | shutdown =>
    rw [(aside_cases h (by simp)).2.2]
    exact hanswered

/-- What the publish sees of an undisturbed step is smooth, when the answers are acceptances. -/
theorem smooth_of_shows {a : Action} {b : ℕ × ThreadAction} (ha : s.Undisturbed a)
    (hanswered : ∀ answer ∈ t.collector.sink.answers, answer.2.2 = .accepted)
    (hb : t.Shows a b) : s.publishing.Smooth b := by
  intro thread hthread
  rw [publishing_threads] at hthread
  obtain ⟨c, hc, rfl⟩ := Option.map_eq_some_iff.mp hthread
  cases hb with
  | client i a => exact ha c hc
  | arrived i => trivial
  | read i event now => trivial
  | ended i now => exact ha c hc
  | answered i a collected result hanswer => exact hanswered _ hanswer

/-- **An undisturbed step** leaves nothing turned away, when the queue has room for the list. -/
theorem welcomed_step {a : Action} (hs : s.Account span capacity)
    (hroom : span.events.length ≤ capacity)
    (hwhole : ∀ producer, AcceptedWhole (eventsOf producer span.events))
    (hall : QueuedSink.AllTrue s.collector.sink.returns) (hwelcomed : s.Welcomed)
    (ha : s.Undisturbed a) (h : s.step pb behind a = some t) : t.Welcomed := by
  have hanswered : ∀ answer ∈ t.collector.sink.answers, answer.2.2 = .accepted := by
    cases a with
    | client i a =>
      obtain ⟨c, _, h⟩ := Option.bind_eq_some_iff.mp h
      obtain ⟨_, _, rfl⟩ := Option.map_eq_some_iff.mp h
      exact hwelcomed.answered
    | serve a =>
      obtain ⟨_, _, h⟩ := Option.bind_eq_some_iff.mp h
      obtain ⟨c, hc, rfl⟩ := Option.map_eq_some_iff.mp h
      exact answered_serve hs hroom hall hwelcomed.answered hc
  refine ⟨hanswered, ?_⟩
  rcases step_seen h with hsame | ⟨b, hb, hstep⟩
  · rw [← hsame]
    exact hwelcomed.flows
  · exact Publishing.flows_step (fun g hg => (mem_groupByProducer.mp hg).2 ▸ hwhole g.producerId)
      (groups_length_lt span) hs.publishing hwelcomed.flows
      (smooth_of_shows ha hanswered hb) hstep

/-- What `consume` has returned is not taken back. -/
theorem returns_step {a : Action} (h : s.step pb behind a = some t) :
    s.collector.sink.returns <+: t.collector.sink.returns := by
  cases a with
  | client i a =>
    obtain ⟨c, _, h⟩ := Option.bind_eq_some_iff.mp h
    obtain ⟨_, _, rfl⟩ := Option.map_eq_some_iff.mp h
    exact List.prefix_rfl
  | serve a =>
    obtain ⟨_, _, h⟩ := Option.bind_eq_some_iff.mp h
    obtain ⟨c, hc, rfl⟩ := Option.map_eq_some_iff.mp h
    exact serve_invariant (fun sink => s.collector.sink.returns <+: sink.returns)
      (fun _ _ _ hinv hstep => hinv.trans (QueuedSink.returns_step hstep)) List.prefix_rfl hc

/-! ### Every step uses something up -/

/-- A client's statements, and the reads of what it writes. -/
def clientWork (c : Client) : ℕ :=
  8 * c.wire.length +
    match c.phase with
    | .writing unwritten => 9 * unwritten.length + 3
    | .wrote => 2
    | .finishing => 1
    | .joined => 0

/-- The publish's streams. -/
def callers (s : Ingestion) : List ℕ := List.range s.clients.length

def work (s : Ingestion) : ℕ :=
  (s.clients.map clientWork).sum + (callsWork s.callers s.collector + s.collector.sink.work)

/-- A statement of the client leaves less to do. -/
theorem clientWork_less {reactor : Option StreamReactor} {c d : Client} {a : ClientAction}
    (h : c.step reactor a = some d) : clientWork d < clientWork c := by
  cases a with
  | write ok =>
    obtain ⟨u, hu, rfl⟩ := Option.map_eq_some_iff.mp h
    unfold ProducerThread.write at hu
    split at hu
    · rename_i event unwritten hphase
      have hphase : c.phase = .writing (event :: unwritten) := hphase
      cases ok with
      | true =>
        cases hu
        simp only [clientWork, Client.ofThread, Client.thread, hphase, List.length_append,
          List.length_cons, List.length_nil]
        omega
      | false =>
        cases hu
        simp only [clientWork, Client.ofThread, Client.thread, hphase, List.length_cons]
        omega
    · cases hu
  | writesDone =>
    obtain ⟨u, hu, rfl⟩ := Option.map_eq_some_iff.mp h
    unfold ProducerThread.writesDone at hu
    split at hu
    · rename_i hphase
      cases hu
      have hphase : c.phase = .writing [] ∨ c.phase = .wrote := hphase
      rcases hphase with hphase | hphase <;>
        simp only [clientWork, Client.ofThread, Client.thread, hphase] <;> omega
    · cases hu
  | finish code message =>
    obtain ⟨u, hu, rfl⟩ := Option.map_eq_some_iff.mp h
    obtain hmoves := ProducerThread.finish_moves hu
    cases hmoves with
    | finished r message hphase | failed code message hphase =>
      have hphase : c.phase = .finishing := hphase
      simp only [clientWork, Client.ofThread, Client.thread, hphase]
      omega

/-- An event read takes its client's wire down. -/
theorem taken_read {s : Ingestion} {i : ℕ} {event : TelemetryEvent} {now : Int64}
    {clients : List Client} (hi : i < s.clients.length)
    (h : s.taken (.read i (some event) now) = some clients) :
    (clients.map clientWork).sum + 8 ≤ (s.clients.map clientWork).sum := by
  simp only [taken, List.getElem?_eq_getElem hi] at h
  split at h
  · cases h
  rename_i first wire hwire
  split at h
  · cases h
    refine sum_set_less (List.getElem?_eq_getElem hi) ?_
    simp only [clientWork, hwire, List.length_cons]
    omega
  · cases h

/-- Any other step of the collector leaves the clients as they are. -/
theorem taken_other {s : Ingestion} {a : Collector.Action ℕ} {clients : List Client}
    (ha : ∀ i event now, a ≠ .read i (some event) now) (h : s.taken a = some clients) :
    clients = s.clients := by
  unfold taken at h
  split at h
  · exact absurd rfl (ha _ _ _)
  · exact (Option.some.inj h).symm

/-- **Every undisturbed step** leaves less to do. -/
theorem work_less {a : Action} (hs : s.Account span capacity) (ha : s.Undisturbed a)
    (h : s.step pb behind a = some t) : t.work < s.work := by
  have hcallers : t.callers = s.callers := by rw [callers, callers, step_length h]
  have hcalled (i : ℕ) (hi : s.collector.streams i ≠ none) : i ∈ s.callers := by
    obtain ⟨r, hr⟩ := Option.ne_none_iff_exists'.mp hi
    exact List.mem_range.mpr (Nat.lt_of_not_le fun hge => hs.alone i r ⟨hge, hr⟩)
  rw [work, work, hcallers]
  cases a with
  | client i a =>
    obtain ⟨c, hc, h⟩ := Option.bind_eq_some_iff.mp h
    obtain ⟨d, hd, rfl⟩ := Option.map_eq_some_iff.mp h
    have hclients : ((s.clients.set i d).map clientWork).sum + 1 ≤ (s.clients.map clientWork).sum :=
      sum_set_less hc (clientWork_less hd)
    exact Nat.add_lt_add_right hclients _
  | serve a =>
    obtain ⟨clients, htaken, h⟩ := Option.bind_eq_some_iff.mp h
    obtain ⟨c, hc, rfl⟩ := Option.map_eq_some_iff.mp h
    by_cases hread : ∃ i event now, a = .read i (some event) now
    · obtain ⟨i, event, now, rfl⟩ := hread
      have hread : s.collector.read i (some event) now = some c := hc
      obtain ⟨r, hr, _⟩ := read_cases hread
      have hmem := hcalled i (by rw [hr]; exact Option.some_ne_none _)
      have hclients := taken_read (List.mem_range.mp hmem) htaken
      have hcalls := arrival_work List.nodup_range hmem hread
      show (clients.map clientWork).sum + (callsWork s.callers c + c.sink.work) < _
      rw [callers]
      omega
    · have hother (i : ℕ) (event : TelemetryEvent) (now : Int64) :
          a ≠ .read i (some event) now := fun heq => hread ⟨i, event, now, heq⟩
      cases taken_other hother htaken
      refine Nat.add_lt_add_left (serve_less hcalled (fun i hi => ?_) hother ?_ hc) _
      · rw [hi] at ha
        exact List.mem_range.mpr ha
      · rintro rfl
        exact ha

/-! ### Some step is possible -/

/-- A call seen reading is. -/
theorem reading_seen {i : ℕ} {r : StreamReactor} (hr : s.reactor i = some r)
    (hphase : r.phase = .reading) : s.collector.streams i = some r := by
  obtain ⟨q, hq, rfl⟩ := Option.map_eq_some_iff.mp hr
  unfold seen at hphase ⊢
  split at hphase
  · cases hphase
  · exact hq

/-- A call seen offering is, or has passed the accepting flag. -/
theorem offering_seen {i : ℕ} {r : StreamReactor} {c : CollectedEvent} (hr : s.reactor i = some r)
    (hphase : r.phase = .offering c) :
    s.collector.streams i = some r ∨
      ∃ q, s.collector.streams i = some q ∧ q.phase = .pushing ∧
        s.collector.sink.callers i = some c := by
  obtain ⟨q, hq, rfl⟩ := Option.map_eq_some_iff.mp hr
  unfold seen at hphase ⊢
  split at hphase
  · rename_i pushed hpushing hcaller
    cases hphase
    exact .inr ⟨q, hq, hpushing, hcaller⟩
  · exact .inl hq

/-- A statement that the client's thread can take, the client can. -/
theorem client_able {i : ℕ} {c : Client} {a : ClientAction}
    (h : ((c.thread (s.reactor i)).step (threadAction a)).isSome = true) :
    ∃ d, c.step (s.collector.streams i) a = some d := by
  refine Option.isSome_iff_exists.mp ?_
  cases a with
  | write ok =>
    simp only [threadAction, ProducerThread.step, ProducerThread.write, Client.step, Client.thread,
      Option.isSome_map] at h ⊢
    split at h
    · cases ok <;> rfl
    · cases h
  | writesDone =>
    simp only [threadAction, ProducerThread.step, ProducerThread.writesDone, Client.step,
      Option.isSome_map] at h ⊢
    by_cases hphase : c.phase = .writing [] ∨ c.phase = .wrote
    · have hwritten : (c.thread (s.collector.streams i)).phase = .writing [] ∨
          (c.thread (s.collector.streams i)).phase = .wrote := hphase
      rw [if_pos hwritten]
      rfl
    · have hother : ¬((c.thread (s.reactor i)).phase = .writing [] ∨
          (c.thread (s.reactor i)).phase = .wrote) := hphase
      rw [if_neg hother] at h
      cases h
  | finish code message =>
    simp only [threadAction, ProducerThread.step, ProducerThread.finish, summary_seen, Client.step,
      Option.isSome_map] at h ⊢
    by_cases hphase : c.phase = .finishing
    · have hfinishing (reactor : Option StreamReactor) :
          (c.thread reactor).phase = .finishing := hphase
      rw [if_pos (hfinishing _)] at h ⊢
      by_cases hcode : code = grpcStatusCode .ok
      · rw [if_pos hcode, Option.isSome_map] at h ⊢
        exact h
      · rw [if_neg hcode]
        rfl
    · have hother : (c.thread (s.reactor i)).phase ≠ .finishing := hphase
      rw [if_neg hother] at h
      cases h

/-- What a client's thread can do, it can do here, or its call can. -/
theorem thread_moves {i : ℕ} {c : Client} {u : ProducerThread} {a : ThreadAction}
    {out : List CollectedEvent} (hs : s.Account span capacity) (hc : s.clients[i]? = some c)
    (hsmooth : (c.thread (s.reactor i)).Smooth a)
    (h : (c.thread (s.reactor i)).step a = some (u, out)) :
    ∃ b t, s.Undisturbed b ∧ s.step pb behind b = some t := by
  have hown : ∀ d ∈ s.clients[i]?, (d.thread (s.reactor i)).Smooth a := by
    intro d hd
    cases hc.symm.trans hd
    exact hsmooth
  have hclient (b : ClientAction) (hb : threadAction b = a) :
      ∃ b t, s.Undisturbed b ∧ s.step pb behind b = some t := by
    subst hb
    obtain ⟨d, hd⟩ := client_able (by rw [h]; rfl)
    exact ⟨.client i b, _, hown, by rw [step, hc, Option.bind_some, hd]; rfl⟩
  have hserve (b : Collector.Action ℕ) (clients : List Client) (hb : s.Undisturbed (.serve b))
      (htaken : s.taken b = some clients) (hsome : (serve pb behind s.collector b).isSome = true) :
      ∃ b t, s.Undisturbed b ∧ s.step pb behind b = some t := by
    obtain ⟨collector, hcollector⟩ := Option.isSome_iff_exists.mp hsome
    exact ⟨.serve b, ⟨clients, collector⟩, hb, by
      rw [step, htaken, Option.bind_some, hcollector, Option.map_some]⟩
  cases ProducerThread.step_moves h with
  | sent | writeFailed => exact hclient (.write _) rfl
  | writesDone => exact hclient .writesDone rfl
  | finished | failed => exact hclient (.finish _ _) rfl
  | arrived hr =>
    have hnone : s.collector.streams i = none := Option.map_eq_none_iff.mp hr
    exact hserve (.streamTelemetry i) s.clients (List.getElem?_eq_some_iff.mp hc).1 rfl
      (by simp [serve, Collector.step, Collector.streamTelemetry, hnone])
  | read r event wire now hr hwire hphase =>
    have hreading := reading_seen hr hphase
    have hwire : c.wire = event :: wire := hwire
    exact hserve (.read i (some event) now) _ trivial
      (by simp only [taken, hc, hwire, if_true]; rfl)
      (by simp [serve, Collector.step, Collector.read, hreading, hphase])
  | readEnded r hr hphase =>
    have hreading := reading_seen hr hphase
    exact hserve (.read i none 0) s.clients hown rfl
      (by simp [serve, Collector.step, Collector.read, hreading, hphase])
  | answered r collected answer hr hphase =>
    rcases offering_seen hr hphase with hoffering | ⟨q, hq, hpushing, hcaller⟩
    · obtain ⟨_, _, hnobody⟩ :=
        StreamReactor.place_offering (hs.collector.stream i r hoffering) hphase
      exact hserve (.load i true) s.clients trivial rfl
        (by simp [serve, Collector.step, Collector.load, hoffering, hphase, QueuedSink.load,
          hnobody])
    · exact hserve (.push i) s.clients trivial rfl
        (by simp [serve, Collector.step, Collector.push, hq, hpushing, QueuedSink.push, hcaller])

/-- **Until the publish returns**, some step is possible that does not disturb it. -/
theorem moves (hs : s.Account span capacity) :
    s.report.isSome ∨ ∃ a t, s.Undisturbed a ∧ s.step pb behind a = some t := by
  rcases Publishing.step_exists hs.publishing hs.plain with hdone | ⟨⟨i, a⟩, next, hsmooth, hstep⟩
  · exact .inl (report_publishing s ▸ hdone)
  · refine .inr ?_
    obtain ⟨thread, u, out, hthread, hmoved, _⟩ := Publishing.step_cases hstep
    have hrule := hsmooth thread hthread
    rw [publishing_threads] at hthread
    obtain ⟨c, hc, rfl⟩ := Option.map_eq_some_iff.mp hthread
    exact thread_moves hs hc hrule hmoved

/-! ### Every run -/

theorem returns_allTrue {a : Action} (h : s.step pb behind a = some t)
    (hall : QueuedSink.AllTrue t.collector.sink.returns) :
    QueuedSink.AllTrue s.collector.sink.returns :=
  fun r hr => hall r ((returns_step h).subset hr)

/-- A counter fails no event. -/
theorem counter_allTrue {producers : List ProducerEvents} {queue : BoundedQueue CollectedEvent}
    {writer : LogWriter} (h : (machine pb .counter producers queue writer).Reachable s) :
    QueuedSink.AllTrue s.collector.sink.returns := by
  refine Machine.reachable_invariant
    (fun s : Ingestion => QueuedSink.AllTrue s.collector.sink.returns)
    (fun _ hr => absurd hr List.not_mem_nil) (fun s a t hs hstep => ?_) h
  cases a with
  | client i a =>
    obtain ⟨c, _, hstep⟩ := Option.bind_eq_some_iff.mp hstep
    obtain ⟨_, _, rfl⟩ := Option.map_eq_some_iff.mp hstep
    exact hs
  | serve a =>
    obtain ⟨_, _, hstep⟩ := Option.bind_eq_some_iff.mp hstep
    obtain ⟨c, hc, rfl⟩ := Option.map_eq_some_iff.mp hstep
    exact serve_allTrue hs hc

/-- Nine steps an event, five a producer and the consumer's end. -/
theorem start_work (pb : Protobuf) (behind : Behind) (span : EventSpan)
    (capacity_pos : 0 < capacity) (writer : LogWriter) :
    (machine pb behind (groupByProducer span.events) (.empty capacity capacity_pos) writer).init.work =
      9 * span.events.length + 5 * (groupByProducer span.events).length + 1 := by
  have hclients (groups : List ProducerEvents) : ((groups.map Client.start).map clientWork).sum =
      9 * (groups.map fun g => g.events.length).sum + 3 * groups.length := by
    induction groups with
    | nil => rfl
    | cons g rest ih =>
      simp only [List.map_cons, List.sum_cons, ih, List.length_cons]
      have hstart : clientWork (.start g) = 9 * g.events.length + 3 := by
        simp only [clientWork, Client.start, Client.ofThread, ProducerThread.start,
          List.length_nil, Nat.mul_zero, Nat.zero_add]
      omega
  have hcalls : callsWork (List.range (groupByProducer span.events).length)
      (Collector.start (.empty capacity capacity_pos) writer) =
      2 * (groupByProducer span.events).length := by
    show ((List.range _).map fun _ => 2).sum = _
    rw [List.map_const', List.sum_replicate, List.length_range, smul_eq_mul, Nat.mul_comm]
  have hlength : ((groupByProducer span.events).map Client.start).length =
      (groupByProducer span.events).length := List.length_map _
  show (((groupByProducer span.events).map Client.start).map clientWork).sum +
    (callsWork (List.range ((groupByProducer span.events).map Client.start).length) _ + 1) = _
  rw [hclients, groups_length_sum, hlength]
  show _ + (callsWork _ (Collector.start (.empty capacity capacity_pos) writer) + 1) = _
  rw [hcalls]
  omega

variable {writer : LogWriter} {capacity_pos : 0 < capacity}

/-- An undisturbed step leaves less to do, and the account holds. -/
theorem account_less (s : Ingestion) (a : Action) (t : Ingestion) (hs : s.Account span capacity)
    (ha : s.Undisturbed a) (h : s.step pb behind a = some t) :
    t.Account span capacity ∧ t.work < s.work :=
  ⟨account_step hs ha h, work_less hs ha h⟩

/-- Every publish that has not returned can be brought to its return. -/
theorem reaches_report (hs : s.Account span capacity) :
    let m := machine pb behind (groupByProducer span.events) (.empty capacity capacity_pos) writer
    ∃ more t, m.run s more = some t ∧ m.Obeys Undisturbed s more ∧ t.report.isSome :=
  Machine.obeying_reaches_goal _ _ work account_less (fun _ => moves) hs

/-- What has succeeded was accepted whole. -/
theorem report_whole (hs : s.Account span capacity) {report : PublishReport}
    (hreport : s.report = some report) (hsucceeded : report.succeeded = true) :
    ∀ producer, AcceptedWhole (eventsOf producer span.events) := by
  rw [← report_publishing] at hreport
  exact (Publishing.report_delivered hs.publishing hreport hsucceeded).2.1

/-- **What is accepted whole succeeds**, as long as the consumer does not fail. -/
theorem report_succeeds (span : EventSpan) (hroom : span.events.length ≤ capacity)
    (hwhole : ∀ producer, AcceptedWhole (eventsOf producer span.events)) :
    let m := machine pb behind (groupByProducer span.events) (.empty capacity capacity_pos) writer
    ∀ actions s, m.run m.init actions = some s → m.Obeys Undisturbed m.init actions →
    (behind = .counter ∨ QueuedSink.AllTrue s.collector.sink.returns) →
    ∀ report, s.report = some report → report.succeeded = true := by
  intro m actions s hrun hobeys hkept report hreport
  have hstart : m.init.Account span capacity := account_start pb behind capacity_pos writer
  have hall : QueuedSink.AllTrue s.collector.sink.returns := by
    rcases hkept with rfl | hall
    · exact counter_allTrue ⟨actions, hrun⟩
    · exact hall
  have hwelcomed := (Machine.obeying_invariant
    (fun s : Ingestion => s.Account span capacity ∧
      (QueuedSink.AllTrue s.collector.sink.returns → s.Welcomed))
    (fun _ _ _ hs ha hstep => ⟨account_step hs.1 ha hstep, fun hall =>
      welcomed_step hs.1 hroom hwhole (returns_allTrue hstep hall)
        (hs.2 (returns_allTrue hstep hall)) ha hstep⟩)
    ⟨hstart, fun _ => welcomed_start pb behind capacity_pos writer⟩ hobeys hrun).2 hall
  rw [← report_publishing] at hreport
  obtain ⟨rfl, hjoined⟩ := Publishing.report_cases hreport
  refine List.all_eq_true.mpr fun result hresult => ?_
  obtain ⟨t, ht, rfl⟩ := List.mem_map.mp hresult
  have hdone := hwelcomed.flows t ht
  unfold ProducerThread.Flows at hdone
  rw [hjoined t ht] at hdone
  exact hdone

/-- **With room for the list, a publish that nothing disturbs always ends, and well.** No order of
the clients, the streams and the consumer goes on for longer than nine steps an event and five a
producer, none is stuck before the publish has returned, and so each returns. It succeeds exactly
when fresh validators accept every producer's events, unless the consumer has failed. -/
theorem capacity_suffices (pb : Protobuf) (behind : Behind) (span : EventSpan) (capacity : ℕ)
    (capacity_pos : 0 < capacity) (writer : LogWriter) (hroom : span.events.length ≤ capacity) :
    let m := machine pb behind (groupByProducer span.events) (.empty capacity capacity_pos) writer
    ∀ actions s, m.run m.init actions = some s → m.Obeys Undisturbed m.init actions →
    actions.length ≤ 9 * span.events.length + 5 * (groupByProducer span.events).length + 1 ∧
    (s.report.isSome ∨ ∃ a t, s.Undisturbed a ∧ m.step s a = some t) ∧
    (∃ more t, m.run s more = some t ∧ m.Obeys Undisturbed s more ∧ t.report.isSome) ∧
    ∀ report, s.report = some report →
      (report.succeeded = true → ∀ producer, AcceptedWhole (eventsOf producer span.events)) ∧
      ((∀ producer, AcceptedWhole (eventsOf producer span.events)) →
        behind = .counter ∨ QueuedSink.AllTrue s.collector.sink.returns →
        report.succeeded = true ∧
          SameViews TelemetryEvent.producerId
            (s.collector.sink.pushed.map CollectedEvent.event) span.events) := by
  intro m actions s hrun hobeys
  have hstart : m.init.Account span capacity := account_start pb behind capacity_pos writer
  obtain ⟨hs, hlength⟩ := Machine.obeying_length_le _ work account_less hstart hobeys hrun
  rw [start_work] at hlength
  refine ⟨by omega, moves hs, reaches_report hs, fun report hreport =>
    ⟨report_whole hs hreport, fun hwhole hkept => ?_⟩⟩
  have hsucceeded := report_succeeds span hroom hwhole actions s hrun hobeys hkept report hreport
  refine ⟨hsucceeded, ?_⟩
  rw [hs.sink.acknowledged.symm, acknowledged_eq_sunk hs.collector hs.alone]
  rw [← report_publishing] at hreport
  exact (Publishing.report_delivered hs.publishing hreport hsucceeded).1

theorem sample_whole (producer : List UInt8) :
    AcceptedWhole (eventsOf producer sampleSpan.events) := by
  have hgroups : ∀ g ∈ groupByProducer sampleSpan.events, AcceptedWhole g.events := by
    decide +kernel
  by_cases hnil : eventsOf producer sampleSpan.events = []
  · rw [hnil]
    rfl
  · exact hgroups ⟨producer, eventsOf producer sampleSpan.events⟩
      (mem_groupByProducer.mpr ⟨hnil, rfl⟩)

/-- Two producers, a counter and room for their three events. -/
theorem capacity_suffices_sample :
    let m := machine samplePb .counter (groupByProducer sampleSpan.events)
      (.empty 3 (Nat.succ_pos 2)) (.create (.fresh "log" fun _ => none) {} 0)
    ∃ actions s report, actions.length ≤ 38 ∧ m.run m.init actions = some s ∧
      s.report = some report ∧ report.succeeded = true := by
  intro m
  have hsuffices := capacity_suffices samplePb .counter sampleSpan 3 (Nat.succ_pos 2)
    (.create (.fresh "log" fun _ => none) {} 0) (Nat.le_refl 3)
  obtain ⟨_, _, ⟨actions, s, hrun, hobeys, hreported⟩, _⟩ := hsuffices [] m.init rfl trivial
  obtain ⟨report, hreport⟩ := Option.isSome_iff_exists.mp hreported
  obtain ⟨hlength, _, _, hends⟩ := hsuffices actions s hrun hobeys
  exact ⟨actions, s, report, hlength, hrun, hreport,
    ((hends report hreport).2 sample_whole (.inl rfl)).1⟩

end Ingestion

end TraceForge.Pipeline
