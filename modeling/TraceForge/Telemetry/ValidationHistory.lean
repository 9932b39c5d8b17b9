import Mathlib.Data.Finset.Card
import Mathlib.Order.Interval.Finset.Nat
import TraceForge.Telemetry.Validation
import TraceForge.Telemetry.Wire

/-! Everything a validator has been offered.

Beside the validator stands the list of the events it has accepted. They carry one producer id,
and as long as there are fewer than `2 ^ 64` of them their sequence numbers increase and the
counters are exact (`Offered.Sound`). At `2 ^ 64` accepted events the count is zero again, which
to the validator is a stream that has not begun (`offerAll_counting`). -/
namespace TraceForge.Telemetry
open StreamValidator

structure Offered where
  validator : StreamValidator := {}
  accepted : List TelemetryEvent := []

namespace Offered

def offer (s : Offered) (event : TelemetryEvent) : Offered :=
  let (result, validator) := s.validator.accept event
  { validator := validator
    accepted := if result.accepted then s.accepted ++ [event] else s.accepted }

/-- A fresh validator, offered every event in turn. -/
def offerAll (events : List TelemetryEvent) : Offered := events.foldl offer {}

theorem offer_accepted {s : Offered} {event : TelemetryEvent} {v : StreamValidator}
    (h : s.validator.accept event = (⟨true, ""⟩, v)) :
    s.offer event = ⟨v, s.accepted ++ [event]⟩ := by
  simp only [offer, h, if_true]

theorem offer_rejected {s : Offered} {event : TelemetryEvent}
    (h : (s.validator.accept event).1.accepted = false)
    (hsame : (s.validator.accept event).2 = s.validator) : s.offer event = s := by
  simp only [offer, h, hsame, Bool.false_eq_true, if_false]

theorem offerAll_snoc (events : List TelemetryEvent) (event : TelemetryEvent) :
    offerAll (events ++ [event]) = (offerAll events).offer event := by
  rw [offerAll, List.foldl_append]
  rfl

/-! ### What has been accepted -/

/-- The validator stands where its accepted events have brought it. -/
structure Sound (s : Offered) : Prop where
  oneProducer : ∀ event ∈ s.accepted, event.producerId = s.validator.producerId
  begun : s.validator.producerId = [] → s.accepted = [] ∧ s.validator.acceptedEvents = 0
  tracks : s.accepted.length < 2 ^ 64 → s.validator.Tracks s.accepted
  below : s.accepted.length < 2 ^ 64 →
    ∀ event ∈ s.accepted, event.sequenceNumber ≤ s.validator.lastSequenceNumber
  increasing : s.accepted.length < 2 ^ 64 →
    s.accepted.Pairwise fun a b => a.sequenceNumber < b.sequenceNumber

theorem sound_start : Sound {} where
  oneProducer _ h := absurd h List.not_mem_nil
  begun _ := ⟨rfl, rfl⟩
  tracks _ := tracks_start
  below _ _ h := absurd h List.not_mem_nil
  increasing _ := .nil

theorem count_acceptedEvents (event : TelemetryEvent) (v : StreamValidator) :
    (v.count event).acceptedEvents = v.acceptedEvents + 1 := by
  simp only [count]
  split <;> rfl

/-- The producer of a stream is that of any event it counts. -/
theorem count_producerId {event : TelemetryEvent} {v : StreamValidator} (h : v.Continues event)
    (hbegun : v.producerId = [] → v.acceptedEvents = 0) :
    (v.count event).producerId = event.producerId := by
  simp only [count]
  split
  · rfl
  · rename_i hcounted
    exact (h.producer.resolve_left (mt hbegun hcounted)).symm

theorem offer_sound {s : Offered} (hs : s.Sound) (event : TelemetryEvent) :
    (s.offer event).Sound := by
  rcases accept_cases event s.validator with ⟨hevent, hnext, haccept⟩ | ⟨_, hrejected, _, hsame⟩
  · rw [offer_accepted haccept]
    have hproducer := count_producerId hnext fun h => (hs.begun h).2
    have hfewer (h : (s.accepted ++ [event]).length < 2 ^ 64) : s.accepted.length < 2 ^ 64 := by
      rw [List.length_append] at h
      omega
    have hlater (h : s.accepted.length < 2 ^ 64) (e : TelemetryEvent) (he : e ∈ s.accepted) :
        e.sequenceNumber < event.sequenceNumber := by
      have hcounted : s.validator.acceptedEvents ≠ 0 := by
        intro hzero
        have hlen := (hs.tracks h).summary.acceptedEvents
        have hnone : s.validator.acceptedEvents.toNat = 0 := congrArg UInt64.toNat hzero
        have hempty := List.length_eq_zero_iff.mp (hlen.symm.trans hnone)
        rw [hempty] at he
        exact absurd he List.not_mem_nil
      exact UInt64.lt_of_le_of_lt (hs.below h e he) (hnext.sequence.resolve_left hcounted)
    exact
      { oneProducer := fun e he => by
          show e.producerId = (s.validator.count event).producerId
          rw [hproducer]
          rcases List.mem_append.mp he with he | he
          · have hsame := hs.oneProducer e he
            rcases hnext.producer with hnone | hcontinues
            · rw [(hs.begun hnone).1] at he
              exact absurd he List.not_mem_nil
            · rw [hsame, hcontinues]
          · rw [List.mem_singleton.mp he]
        begun := fun h => absurd (hproducer.symm.trans h) hevent.producer
        tracks := fun h => by
          rw [List.length_append, List.length_singleton] at h
          exact tracks_count (hs.tracks (by omega)) hevent hnext h
        below := fun h e he => by
          rcases List.mem_append.mp he with he | he
          · exact UInt64.le_of_lt (hlater (hfewer h) e he)
          · rw [List.mem_singleton.mp he]
            exact UInt64.le_refl _
        increasing := fun h => by
          refine List.pairwise_append.mpr ⟨hs.increasing (hfewer h), List.pairwise_singleton .., ?_⟩
          intro e he e' he'
          rw [List.mem_singleton.mp he']
          exact hlater (hfewer h) e he }
  · rw [offer_rejected hrejected hsame]
    exact hs

theorem offerAll_sound (events : List TelemetryEvent) : (offerAll events).Sound := by
  induction events using List.reverseRecOn with
  | nil => exact sound_start
  | append_singleton events event ih =>
    rw [offerAll_snoc]
    exact offer_sound ih event

/-! ### Streams accepted whole -/

theorem accepted_length_le (events : List TelemetryEvent) :
    (offerAll events).accepted.length ≤ events.length := by
  induction events using List.reverseRecOn with
  | nil => exact Nat.le_refl _
  | append_singleton events event ih =>
    rw [offerAll_snoc, List.length_append]
    obtain ⟨_, _, haccept⟩ | ⟨_, hrejected, _, hsame⟩ :=
      accept_cases event (offerAll events).validator
    · rw [offer_accepted haccept, List.length_append]
      exact Nat.add_le_add_right ih _
    · rw [offer_rejected hrejected hsame]
      exact Nat.le_add_right_of_le ih

/-- A fresh validator accepts every one of `events`, in this order. -/
def AcceptedWhole (events : List TelemetryEvent) : Prop := (offerAll events).accepted = events

instance (events : List TelemetryEvent) : Decidable (AcceptedWhole events) :=
  inferInstanceAs (Decidable (_ = _))

theorem acceptedWhole_snoc {events : List TelemetryEvent} {event : TelemetryEvent} :
    AcceptedWhole (events ++ [event]) ↔
      AcceptedWhole events ∧ event.Acceptable ∧ (offerAll events).validator.Continues event := by
  unfold AcceptedWhole
  rw [offerAll_snoc]
  obtain ⟨hacceptable, hnext, haccept⟩ | ⟨hrefused, hrejected, _, hsame⟩ :=
    accept_cases event (offerAll events).validator
  · rw [offer_accepted haccept]
    exact ⟨fun h => ⟨List.append_cancel_right h, hacceptable, hnext⟩, fun h => by rw [h.1]⟩
  · rw [offer_rejected hrejected hsame]
    refine ⟨fun h => ?_, fun h => absurd h.2 hrefused⟩
    have hle := accepted_length_le events
    rw [h, List.length_append, List.length_singleton] at hle
    omega

/-- What comes first in such a stream is one itself. -/
theorem acceptedWhole_prefix {before events : List TelemetryEvent} (h : before <+: events)
    (hevents : AcceptedWhole events) : AcceptedWhole before := by
  obtain ⟨rest, rfl⟩ := h
  induction rest using List.reverseRecOn with
  | nil => rwa [List.append_nil] at hevents
  | append_singleton rest event ih =>
    rw [← List.append_assoc] at hevents
    exact ih (acceptedWhole_snoc.mp hevents).1

theorem offerAll_snoc_accepted {events : List TelemetryEvent} {event : TelemetryEvent}
    (h : AcceptedWhole (events ++ [event])) :
    (offerAll (events ++ [event])).validator = (offerAll events).validator.count event := by
  obtain ⟨_, hacceptable, hnext⟩ := acceptedWhole_snoc.mp h
  obtain ⟨_, _, haccept⟩ | ⟨hrefused, _⟩ := accept_cases event (offerAll events).validator
  · rw [offerAll_snoc, offer_accepted haccept]
  · exact absurd ⟨hacceptable, hnext⟩ hrefused

/-- **Acceptable events of one producer**, numbered ever higher, are accepted whole. -/
theorem acceptedWhole_of_increasing {producer : List UInt8} {events : List TelemetryEvent}
    (hevents : ∀ event ∈ events, event.Acceptable ∧ event.producerId = producer)
    (hincreasing : events.Pairwise fun a b => a.sequenceNumber < b.sequenceNumber) :
    AcceptedWhole events := by
  induction events using List.reverseRecOn with
  | nil => rfl
  | append_singleton events event ih =>
    obtain ⟨hbefore, _, hlater⟩ := List.pairwise_append.mp hincreasing
    obtain ⟨hacceptable, hproducer⟩ := hevents event (by simp)
    have hwhole := ih (fun e he => hevents e (List.mem_append_left _ he)) hbefore
    refine acceptedWhole_snoc.mpr ⟨hwhole, hacceptable, ?_⟩
    rcases events.eq_nil_or_concat with rfl | ⟨before, last, rfl⟩
    · exact ⟨.inl rfl, .inl rfl⟩
    rw [List.concat_eq_append] at *
    have haccepted : (offerAll (before ++ [last])).accepted = before ++ [last] := hwhole
    have hlast : last ∈ before ++ [last] := by simp
    have hcontinues := (offerAll_sound (before ++ [last])).oneProducer last (by rwa [haccepted])
    have hsame := (hevents last (List.mem_append_left _ hlast)).2
    refine ⟨.inr (hproducer.trans (hsame.symm.trans hcontinues)), .inr ?_⟩
    rw [offerAll_snoc_accepted hwhole]
    exact hlater last hlast event (List.mem_singleton_self event)

/-! ### Gaps -/

/-- Of the numbers from `a` to `b`, those in a list and those that are not are all there are. -/
theorem card_absent {a b : Nat} {xs : List Nat} (hnodup : xs.Nodup)
    (hin : ∀ x ∈ xs, a ≤ x ∧ x ≤ b) :
    ((Finset.Icc a b).filter (· ∉ xs)).card + xs.length = b + 1 - a := by
  have hpresent : (Finset.Icc a b).filter (· ∈ xs) = xs.toFinset := by
    ext x
    simp only [Finset.mem_filter, Finset.mem_Icc, List.mem_toFinset]
    exact ⟨And.right, fun hx => ⟨hin x hx, hx⟩⟩
  have hsplit := Finset.card_filter_add_card_filter_not (s := Finset.Icc a b) (· ∈ xs)
  rw [hpresent, List.toFinset_card_of_nodup hnodup, Nat.card_Icc] at hsplit
  omega

/-- The sequence numbers of the accepted events, as numbers. -/
def numbers (s : Offered) : List Nat := s.accepted.map fun event => event.sequenceNumber.toNat

/-- The first accepted event has the first sequence number, and no other a lower one. -/
theorem Sound.span {s : Offered} (hs : s.Sound) (hlt : s.accepted.length < 2 ^ 64) :
    ∀ n ∈ s.numbers,
      s.validator.firstSequenceNumber.toNat ≤ n ∧ n ≤ s.validator.lastSequenceNumber.toNat := by
  intro n hn
  obtain ⟨event, hevent, rfl⟩ := List.mem_map.mp hn
  refine ⟨?_, UInt64.le_iff_toNat_le.mp (hs.below hlt event hevent)⟩
  have hfirst : s.validator.firstSequenceNumber = _ := (hs.tracks hlt).summary.firstSequenceNumber
  have hincreasing := hs.increasing hlt
  rw [hfirst]
  cases haccepted : s.accepted with
  | nil =>
    rw [haccepted] at hevent
    exact absurd hevent List.not_mem_nil
  | cons first rest =>
    rw [haccepted] at hevent hincreasing
    rcases List.mem_cons.mp hevent with rfl | hrest
    · exact Nat.le_refl _
    · exact Nat.le_of_lt (UInt64.lt_iff_toNat_lt.mp (List.rel_of_pairwise_cons hincreasing hrest))

/-- **A stream's state is its history.** A rejected event changes nothing and the accepted ones
share a producer. As long as there are fewer than `2 ^ 64` of them, their numbers increase, the
first and last are the stream's, and accepted events and gaps fill the span between: the gaps are
the numbers in it that no accepted event carries. -/
theorem stream_history (offered : List TelemetryEvent) :
    let s := offerAll offered
    let v := s.validator
    (∀ event, (v.accept event).1.accepted = false → (v.accept event).2 = v) ∧
      (∀ event ∈ s.accepted, event.producerId = v.producerId) ∧
      (s.accepted.length < 2 ^ 64 →
        (s.accepted.Pairwise fun a b => a.sequenceNumber < b.sequenceNumber) ∧
        (s.accepted ≠ [] →
          s.accepted.head?.map TelemetryEvent.sequenceNumber = some v.firstSequenceNumber ∧
          s.accepted.getLast?.map TelemetryEvent.sequenceNumber = some v.lastSequenceNumber ∧
          v.acceptedEvents.toNat = s.accepted.length ∧
          v.firstSequenceNumber.toNat ≤ v.lastSequenceNumber.toNat ∧
          v.acceptedEvents.toNat + v.sequenceGaps.toNat =
            v.lastSequenceNumber.toNat - v.firstSequenceNumber.toNat + 1 ∧
          v.sequenceGaps.toNat = ((Finset.Icc v.firstSequenceNumber.toNat
            v.lastSequenceNumber.toNat).filter (· ∉ s.numbers)).card)) := by
  intro s v
  have hs : s.Sound := offerAll_sound offered
  refine ⟨fun event h => ?_, hs.oneProducer, fun hlt => ⟨hs.increasing hlt, fun hne => ?_⟩⟩
  · rcases accept_cases event v with ⟨_, _, haccept⟩ | ⟨_, _, _, hsame⟩
    · rw [haccept] at h
      cases h
    · exact hsame
  have htracks := hs.tracks hlt
  have hspan := htracks.span hne
  have hcount : v.acceptedEvents.toNat = s.accepted.length := htracks.summary.acceptedEvents
  have hgaps : v.sequenceGaps.toNat = missing s.accepted := htracks.summary.sequenceGaps
  have hfirst : v.firstSequenceNumber = _ := htracks.summary.firstSequenceNumber
  have hlast : v.lastSequenceNumber = _ := htracks.summary.lastSequenceNumber
  have hpos := List.length_pos_iff.mpr hne
  have hnodup : s.numbers.Nodup := by
    refine List.pairwise_map.mpr ((hs.increasing hlt).imp fun h => ?_)
    exact Nat.ne_of_lt (UInt64.lt_iff_toNat_lt.mp h)
  have hnumbers : s.numbers.length = s.accepted.length := List.length_map _
  have habsent : ((Finset.Icc v.firstSequenceNumber.toNat
      v.lastSequenceNumber.toNat).filter (· ∉ s.numbers)).card + s.numbers.length = _ :=
    card_absent hnodup (hs.span hlt)
  have hspan : missing s.accepted + s.accepted.length + v.firstSequenceNumber.toNat =
      v.lastSequenceNumber.toNat + 1 := hspan
  refine ⟨?_, ?_, hcount, by omega, by omega, by omega⟩
  · rw [hfirst, List.head?_eq_some_head hne]
    rfl
  · rw [hlast, List.getLast?_eq_some_getLast hne]
    rfl

/-! ### Counting from zero -/

/-- **A stream numbered from zero** is accepted whole, however long it is: the counts wrap around
together with the numbers. -/
theorem offerAll_counting (producer : List UInt8) (events : List TelemetryEvent)
    (hevents : ∀ event ∈ events, event.Acceptable ∧ event.producerId = producer)
    (hnumbers : events.map TelemetryEvent.sequenceNumber =
      (List.range events.length).map UInt64.ofNat) :
    let s := offerAll events
    s.accepted = events ∧ s.validator.acceptedEvents = UInt64.ofNat events.length ∧
      s.validator.sequenceGaps = 0 ∧ s.validator.firstSequenceNumber = 0 ∧
      (events ≠ [] → s.validator.producerId = producer ∧
        s.validator.lastSequenceNumber + 1 = UInt64.ofNat events.length) := by
  induction events using List.reverseRecOn with
  | nil => exact ⟨rfl, rfl, rfl, rfl, fun h => absurd rfl h⟩
  | append_singleton events event ih =>
    intro s
    rw [List.map_append, List.length_append, List.length_singleton, List.range_succ,
      List.map_append] at hnumbers
    obtain ⟨hbefore, hnumber⟩ := List.append_inj' hnumbers rfl
    have hnumber : event.sequenceNumber = UInt64.ofNat events.length := (List.cons.inj hnumber).1
    obtain ⟨hacceptable, hproducer⟩ := hevents event (by simp)
    obtain ⟨haccepted, hcount, hgaps, hfirst, hlast⟩ :=
      ih (fun e he => hevents e (List.mem_append_left _ he)) hbefore
    have hnext : (offerAll events).validator.Continues event := by
      by_cases hnil : events = []
      · rw [hnil]
        exact ⟨.inl rfl, .inl rfl⟩
      obtain ⟨hp, hl⟩ := hlast hnil
      refine ⟨.inr (hproducer.trans hp.symm), ?_⟩
      rw [hcount, hnumber, ← hl]
      by_cases hwrapped : (offerAll events).validator.lastSequenceNumber + 1 = 0
      · exact .inl hwrapped
      · refine .inr ?_
        have hne : ((offerAll events).validator.lastSequenceNumber + 1).toNat ≠ 0 := fun h =>
          hwrapped (UInt64.toNat_inj.mp h)
        rw [UInt64.lt_iff_toNat_lt]
        rw [UInt64.toNat_add] at hne ⊢
        have hlt := (offerAll events).validator.lastSequenceNumber.toNat_lt
        have hone : (1 : UInt64).toNat = 1 := rfl
        omega
    have hwhole : AcceptedWhole (events ++ [event]) :=
      acceptedWhole_snoc.mpr ⟨haccepted, hacceptable, hnext⟩
    have hcounted : s.validator = (offerAll events).validator.count event :=
      offerAll_snoc_accepted hwhole
    have hbegun (h : (offerAll events).validator.producerId = []) :
        (offerAll events).validator.acceptedEvents = 0 := ((offerAll_sound events).begun h).2
    have hadded : UInt64.ofNat (events ++ [event]).length = UInt64.ofNat events.length + 1 := by
      rw [List.length_append, UInt64.ofNat_add]
      rfl
    rw [hadded, hcounted]
    refine ⟨hwhole, ?_, ?_, ?_, fun _ => ⟨(count_producerId hnext hbegun).trans hproducer, ?_⟩⟩
    · rw [count_acceptedEvents, hcount]
    · by_cases hzero : (offerAll events).validator.acceptedEvents = 0
      · simpa only [count, if_pos hzero] using hgaps
      · have hne : events ≠ [] := by
          rintro rfl
          exact hzero hcount
        simp only [count, if_neg hzero]
        rw [hgaps, hnumber, ← (hlast hne).2, UInt64.zero_add, UInt64.add_comm,
          UInt64.add_sub_cancel, UInt64.sub_self]
    · by_cases hzero : (offerAll events).validator.acceptedEvents = 0
      · simp only [count, if_pos hzero]
        rw [hnumber, ← hcount, hzero]
      · simpa only [count, if_neg hzero] using hfirst
    · show event.sequenceNumber + 1 = _
      rw [hnumber]

/-- The events of one producer with the sequence numbers below `n`. -/
def countingEvents (n : Nat) : List TelemetryEvent :=
  (List.range n).map fun i => Wire.sampleEvent (UInt64.ofNat i)

theorem offerAll_countingEvents (n : Nat) :
    (offerAll (countingEvents n)).accepted.length = n ∧
      (offerAll (countingEvents n)).validator.acceptedEvents = UInt64.ofNat n ∧
      (offerAll (countingEvents n)).validator.sequenceGaps = 0 ∧
      (offerAll (countingEvents n)).validator.firstSequenceNumber = 0 := by
  have hlength : (countingEvents n).length = n := by
    rw [countingEvents, List.length_map, List.length_range]
  have hevents : ∀ event ∈ countingEvents n, event.Acceptable ∧ event.producerId = [0x70] := by
    intro event h
    obtain ⟨i, _, rfl⟩ := List.mem_map.mp h
    refine ⟨?_, rfl⟩
    exact
      { schema := rfl
        producer := List.cons_ne_nil _ _
        producer_le := show [0x70].length ≤ kMaxProducerIdBytes by decide
        clock := .inl rfl
        timestamp := show (0 : Int64) < 100 by decide
        payload := ⟨_, rfl, show Library.Double.isFinite _ = true by decide⟩ }
  obtain ⟨haccepted, hcount, hgaps, hfirst, _⟩ :=
    offerAll_counting [0x70] (countingEvents n) hevents (by
      rw [hlength, countingEvents, List.map_map]
      rfl)
  rw [hlength] at hcount
  exact ⟨by rw [haccepted, hlength], hcount, hgaps, hfirst⟩

/-- A count that has wrapped around to zero does not fill the span. -/
theorem counts_wrapped {s : Offered} (hlength : s.accepted.length = 2 ^ 64)
    (hcount : s.validator.acceptedEvents = UInt64.ofNat (2 ^ 64))
    (hgaps : s.validator.sequenceGaps = 0) :
    s.accepted ≠ [] ∧ s.validator.acceptedEvents = 0 ∧
      ¬s.validator.acceptedEvents.toNat + s.validator.sequenceGaps.toNat =
        s.validator.lastSequenceNumber.toNat - s.validator.firstSequenceNumber.toNat + 1 := by
  have hzero : s.validator.acceptedEvents = 0 := by
    apply UInt64.toNat_inj.mp
    rw [hcount, UInt64.toNat_ofNat', Nat.mod_self]
    rfl
  refine ⟨?_, hzero, ?_⟩
  · intro hnil
    rw [hnil, List.length_nil] at hlength
    exact Nat.ne_of_lt (Nat.two_pow_pos 64) hlength
  · rw [hzero, hgaps]
    exact Nat.ne_of_lt (Nat.succ_pos _)

/-- After `2 ^ 64` events, all accepted, the count of them is zero. -/
theorem stream_count_wraps :
    (offerAll (countingEvents (2 ^ 64))).accepted ≠ [] ∧
      (offerAll (countingEvents (2 ^ 64))).validator.acceptedEvents = 0 ∧
      ¬(offerAll (countingEvents (2 ^ 64))).validator.acceptedEvents.toNat +
          (offerAll (countingEvents (2 ^ 64))).validator.sequenceGaps.toNat =
        (offerAll (countingEvents (2 ^ 64))).validator.lastSequenceNumber.toNat -
          (offerAll (countingEvents (2 ^ 64))).validator.firstSequenceNumber.toNat + 1 :=
  have hcounted := offerAll_countingEvents (2 ^ 64)
  counts_wrapped hcounted.1 hcounted.2.1 hcounted.2.2.1

end Offered

end TraceForge.Telemetry
