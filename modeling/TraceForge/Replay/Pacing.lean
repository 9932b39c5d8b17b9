import TraceForge.Library.Rounding
import TraceForge.Library.Signed
import TraceForge.Replay.Exits

/-! The pacing of a replay.

A paced record waits for its distance from the first one, divided by the speed and cast to
nanoseconds. The speed is only checked to be finite and not negative, so the quotient of two
numbers that are both fine need not fit the type it is cast to; `inStep_iff` says when it does. -/
namespace TraceForge.Replay
open Library Telemetry Recording

variable {pb : Protobuf} {content : File}

/-- What the duration that is cast to nanoseconds stands for. -/
def scaled (speed : Double) (elapsed : Int) : Int := truncate (elapsed / speed.toRat)

/-- When `sleep_until` is told to return. -/
def deadline (speed : Double) (wallOrigin : Int64) (elapsed : Int) : Int :=
  wallOrigin.toInt + scaled speed elapsed

/-- The arithmetic of a paced replay, begun at `wallOrigin`, is that of its types. -/
structure InStep (speed : Double) (wallOrigin : Int64) (waits : List Int) : Prop where
  offsets : ∀ elapsed ∈ waits, Signed.InRange (scaled speed elapsed)
  deadlines : ∀ elapsed ∈ waits, Signed.InRange (deadline speed wallOrigin elapsed)
  ordered : (waits.map (deadline speed wallOrigin)).Pairwise (· ≤ ·)

/-- How far each entry lies behind the first. -/
def elapsed : List LogIndexEntry → List Int
  | [] => []
  | first :: rest => (first :: rest).map fun entry =>
    entry.collectorArrivalTimestampNs.toInt - first.collectorArrivalTimestampNs.toInt

/-- A distance that ends, at this speed, within the wall clock's type. -/
def Reaches (speed : Double) (wallOrigin : Int64) (elapsed : Int) : Prop :=
  (elapsed : ℚ) < (2 ^ 63 - max wallOrigin.toInt 0 : Int) * speed.toRat

/-! ### Arithmetic -/

section Arithmetic
variable {speed : Double}

theorem quotient_nonneg (hspeed : 0 < speed.toRat) {elapsed : Int} (h : 0 ≤ elapsed) :
    0 ≤ (elapsed : ℚ) / speed.toRat :=
  div_nonneg (Int.cast_nonneg h) (le_of_lt hspeed)

/-- **One wait** is in range when its distance is. -/
theorem inRange_iff (hspeed : 0 < speed.toRat) (wallOrigin : Int64) {elapsed : Int}
    (h : 0 ≤ elapsed) :
    Signed.InRange (scaled speed elapsed) ∧ Signed.InRange (deadline speed wallOrigin elapsed) ↔
      Reaches speed wallOrigin elapsed := by
  have hquotient := quotient_nonneg hspeed h
  have hnonneg : 0 ≤ scaled speed elapsed := truncate_nonneg hquotient
  have hlow : -2 ^ 63 ≤ wallOrigin.toInt := wallOrigin.le_toInt
  have hreaches : Reaches speed wallOrigin elapsed ↔
      scaled speed elapsed < 2 ^ 63 - max wallOrigin.toInt 0 := by
    rw [Reaches, scaled, truncate_lt_iff hquotient, div_lt_iff₀ hspeed]
  rw [hreaches, Signed.InRange, Signed.InRange, deadline]
  omega

theorem deadline_mono (hspeed : 0 < speed.toRat) (wallOrigin : Int64) {a b : Int} (ha : 0 ≤ a)
    (h : a ≤ b) : deadline speed wallOrigin a ≤ deadline speed wallOrigin b := by
  have hquotients : (a : ℚ) / speed.toRat ≤ b / speed.toRat :=
    div_le_div_of_nonneg_right (Int.cast_le.mpr h) (le_of_lt hspeed)
  exact Int.add_le_add_left (truncate_mono (quotient_nonneg hspeed ha) hquotients) _

theorem Reaches.mono {wallOrigin : Int64} {a b : Int} (h : a ≤ b)
    (hb : Reaches speed wallOrigin b) : Reaches speed wallOrigin a :=
  lt_of_le_of_lt (Int.cast_le.mpr h) hb

/-- **Pacing stays in range** exactly when no two entries are too far apart. -/
theorem inStep_iff (hspeed : 0 < speed.toRat) (wallOrigin : Int64) {entries : List LogIndexEntry}
    (hsorted : entries.Pairwise fun a b =>
      a.collectorArrivalTimestampNs ≤ b.collectorArrivalTimestampNs) :
    InStep speed wallOrigin (elapsed entries) ↔
      ∀ a ∈ entries, ∀ b ∈ entries, Reaches speed wallOrigin
        (b.collectorArrivalTimestampNs.toInt - a.collectorArrivalTimestampNs.toInt) := by
  cases entries with
  | nil =>
    refine iff_of_true ⟨?_, ?_, List.Pairwise.nil⟩ ?_ <;> intro _ h <;> cases h
  | cons first rest =>
    have hfirst : ∀ entry ∈ first :: rest,
        first.collectorArrivalTimestampNs.toInt ≤ entry.collectorArrivalTimestampNs.toInt := by
      intro entry hentry
      rcases List.mem_cons.mp hentry with rfl | hrest
      · exact le_refl _
      · exact Int64.le_iff_toInt_le.mp (List.rel_of_pairwise_cons hsorted hrest)
    have hbehind : ∀ wait ∈ elapsed (first :: rest), 0 ≤ wait := by
      intro wait hwait
      obtain ⟨entry, hentry, rfl⟩ := List.mem_map.mp hwait
      exact Int.sub_nonneg_of_le (hfirst entry hentry)
    constructor
    · intro h a ha b hb
      have hwait : b.collectorArrivalTimestampNs.toInt - first.collectorArrivalTimestampNs.toInt ∈
          elapsed (first :: rest) := List.mem_map_of_mem hb
      have hreaches := (inRange_iff hspeed wallOrigin (hbehind _ hwait)).mp
        ⟨h.offsets _ hwait, h.deadlines _ hwait⟩
      exact hreaches.mono (Int.sub_le_sub_left (hfirst a ha) _)
    · intro h
      have hrange : ∀ wait ∈ elapsed (first :: rest), Signed.InRange (scaled speed wait) ∧
          Signed.InRange (deadline speed wallOrigin wait) := by
        intro wait hwait
        refine (inRange_iff hspeed wallOrigin (hbehind wait hwait)).mpr ?_
        obtain ⟨entry, hentry, rfl⟩ := List.mem_map.mp hwait
        exact h first List.mem_cons_self entry hentry
      refine ⟨fun wait hwait => (hrange wait hwait).1, fun wait hwait => (hrange wait hwait).2, ?_⟩
      rw [elapsed, List.map_map]
      refine List.pairwise_map.mpr (hsorted.imp_of_mem fun {a b} ha _ hab => ?_)
      exact deadline_mono hspeed wallOrigin (Int.sub_nonneg_of_le (hfirst a ha))
        (Int.sub_le_sub_right (Int64.le_iff_toInt_le.mp hab) _)

end Arithmetic

/-! ### The waits of a walk -/

theorem pace_waits {options : ReplayOptions} (hspeed : options.speed.greaterThan 0 = true)
    (timestamp : Int64) (d : Delivery) :
    let origin := d.replayOriginNs.getD timestamp
    (d.pace options timestamp).replayOriginNs = some origin ∧
      (d.pace options timestamp).waits = d.waits ++ [timestamp.toInt - origin.toInt] := by
  rw [Delivery.pace, if_pos hspeed]
  exact ⟨rfl, rfl⟩

/-- Nothing but the pacing waits. -/
theorem deliver_paced {options : ReplayOptions} {consumer : ReplayConsumer} {entry : LogIndexEntry}
    {payload : List UInt8} {d d' : Delivery}
    (h : d.deliver pb options consumer entry payload = .ok d') :
    d'.replayOriginNs = (d.pace options entry.collectorArrivalTimestampNs).replayOriginNs ∧
      d'.waits = (d.pace options entry.collectorArrivalTimestampNs).waits := by
  by_cases hintact : ∃ event, Intact pb entry payload event
  · obtain ⟨event, hintact⟩ := hintact
    rw [deliver_intact options consumer hintact d] at h
    split at h
    · cases h
      exact ⟨rfl, rfl⟩
    · cases h
  · obtain ⟨status, message, _, hdeliver⟩ :=
      deliver_broken options consumer (not_exists.mp hintact) d
    rw [hdeliver] at h
    cases h

theorem deliverable_stored {p : LogIndexEntry × LogRecord} (h : Stored pb content p) :
    deliverable pb content p.1 = some p.2 := by
  obtain ⟨payload, hpayload, hintact⟩ := h.intact
  rw [deliverable_eq_some hpayload hintact]
  exact congrArg some h.record.symm

/-- **The waits** of a walk in which every record is delivered. -/
theorem walk_waits {options : ReplayOptions} (hspeed : options.speed.greaterThan 0 = true)
    {consumer : ReplayConsumer}
    (haccepts : ∀ calls record, (consumer.all fun consume => consume calls record) = true)
    (ps : List (LogIndexEntry × LogRecord)) (hps : ∀ p ∈ ps, Stored pb content p)
    (hwindow : ∀ p ∈ ps, pastWindow options p.1 = false) (d : Delivery) (origin : Int64)
    (horigin : ∀ p ∈ ps.head?,
      d.replayOriginNs.getD p.1.collectorArrivalTimestampNs = origin) :
    (replayPayloads pb options consumer content (ps.map Prod.fst) d).waits =
      d.waits ++ ps.map fun p => p.1.collectorArrivalTimestampNs.toInt - origin.toInt := by
  induction ps generalizing d with
  | nil => exact (List.append_nil _).symm
  | cons p rest ih =>
    obtain ⟨hp, hrest⟩ := List.forall_mem_cons.mp hps
    obtain ⟨hin, hins⟩ := List.forall_mem_cons.mp hwindow
    obtain ⟨payload, hpayload, hdeliver⟩ :=
      deliver_deliverable options consumer (deliverable_stored hp) d
    rw [if_pos (haccepts _ _)] at hdeliver
    obtain ⟨d', hok, -, -⟩ := hdeliver
    obtain ⟨hpaced, hwaits⟩ := deliver_paced hok
    obtain ⟨hkept, hadded⟩ := pace_waits hspeed p.1.collectorArrivalTimestampNs d
    have hfirst := horigin p rfl
    rw [hfirst] at hkept hadded
    have hnext : ∀ q ∈ rest.head?,
        d'.replayOriginNs.getD q.1.collectorArrivalTimestampNs = origin := by
      intro q _
      rw [hpaced, hkept]
      rfl
    rw [List.map_cons, replayPayloads_ok hin hpayload hok, ih hrest hins d' hnext, hwaits, hadded,
      List.append_assoc]
    rfl

/-! ### The replay of a complete log -/

/-- No two records of the window are too far apart for the wall clock. -/
def Paceable (options : ReplayOptions) (wallOrigin : Int64) (records : List LogRecord) : Prop :=
  ∀ a ∈ records, ∀ b ∈ records,
    inWindow options a.collectorArrivalTimestampNs = true →
    inWindow options b.collectorArrivalTimestampNs = true →
    Reaches options.speed wallOrigin
      (b.collectorArrivalTimestampNs.toInt - a.collectorArrivalTimestampNs.toInt)

/-- The entries of a window are the records in it. -/
theorem mem_window {L : Layout pb} {file : File} (hb : L.bytes = file.bytes)
    (options : ReplayOptions) (timestamp : Int64) :
    (∃ entry ∈ (window options L).map Prod.fst, entry.collectorArrivalTimestampNs = timestamp) ↔
      ∃ record ∈ L.records, record.collectorArrivalTimestampNs = timestamp ∧
        inWindow options timestamp = true := by
  have hrecords : (pairs L).map Prod.snd = L.records := by
    rw [← pairs_zip, List.map_snd_zip]
    exact Nat.le_of_eq (L.records_length.trans L.index_length.symm)
  have hmem (p : LogIndexEntry × LogRecord) : p ∈ window options L ↔
      p ∈ pairs L ∧ inWindow options p.1.collectorArrivalTimestampNs = true := by
    rw [window, List.mem_filter, timeline, List.mem_insertionSort]
  rw [← hrecords]
  constructor
  · rintro ⟨entry, hentry, rfl⟩
    obtain ⟨p, hp, rfl⟩ := List.mem_map.mp hentry
    obtain ⟨hpair, hin⟩ := (hmem p).mp hp
    exact ⟨p.2, List.mem_map_of_mem hpair, (stored_pairs hb hpair).keys_eq.1.symm, hin⟩
  · rintro ⟨record, hrecord, rfl, hin⟩
    obtain ⟨p, hpair, rfl⟩ := List.mem_map.mp hrecord
    have hkey := (stored_pairs hb hpair).keys_eq.1
    rw [← hkey] at hin
    exact ⟨p.1, List.mem_map_of_mem ((hmem p).mpr ⟨hpair, hin⟩), hkey⟩

/-- A window that the replay rejects has nothing in it. -/
theorem inWindow_rejected {options : ReplayOptions}
    (h : (options.untilCollectorTimestampNs.any fun last =>
      options.fromCollectorTimestampNs.any fun first => decide (last ≤ first)) = true)
    (timestamp : Int64) : inWindow options timestamp = false := by
  unfold inWindow
  cases hlast : options.untilCollectorTimestampNs with
  | none =>
    rw [hlast] at h
    cases h
  | some last =>
    cases hfirst : options.fromCollectorTimestampNs with
    | none =>
      rw [hlast, hfirst] at h
      cases h
    | some first =>
      rw [hlast, hfirst] at h
      have hle : last ≤ first := of_decide_eq_true h
      rw [Bool.and_eq_false_iff]
      by_cases hfrom : first ≤ timestamp
      · exact .inr (decide_eq_false (Int64.not_lt.mpr (Int64.le_trans hle hfrom)))
      · exact .inl (decide_eq_false hfrom)

/-- **Pacing stays in range** exactly when no two records of the window lie too far apart. The
distances are those that a replay of the unchanged file waits for, unless its consumer stops it. -/
theorem pacing_in_range_iff (pb : Protobuf) (file : File) (maximumRecords : UInt64)
    (options : ReplayOptions) (wallOrigin : Int64)
    (hcomplete :
      (readLog pb .granted file {maximumRecords := maximumRecords}).status = .complete)
    (hfinite : options.speed.isFinite = true) (hpositive : options.speed.greaterThan 0 = true) :
    let log := readLog pb .granted file {maximumRecords := maximumRecords}
    let engine := ReplayEngine.create pb .granted file maximumRecords
    let waits := elapsed (engine.selected options)
    (∀ consumer : ReplayConsumer,
      (∀ calls record, (consumer.all fun consume => consume calls record) = true) →
      (engine.replay pb (some file) options consumer).waits = waits) ∧
    (InStep options.speed wallOrigin waits ↔ Paceable options wallOrigin log.records) := by
  intro log engine waits
  obtain ⟨L, hb, hn⟩ := layout_of_complete hcomplete
  have hlog : log = L.result file {maximumRecords := maximumRecords} complete :=
    readLog_complete _ hb hn
  have hengine : engine = ⟨L.index.insertionSort Before, ""⟩ := create_layout hb hn
  have hselected : engine.selected options = (window options L).map Prod.fst := by
    rw [ReplayEngine.selected, hengine]
    exact window_index options L
  have hspeed : 0 < options.speed.toRat := by
    rw [Double.greaterThan_finite hfinite] at hpositive
    exact of_decide_eq_true hpositive
  have hsorted : engine.index.Pairwise Before :=
    create_sorted pb .granted file maximumRecords
  have hwaits : waits = elapsed ((window options L).map Prod.fst) := congrArg elapsed hselected
  refine ⟨fun consumer haccepts => ?_, ?_⟩
  · have hnonnegative : options.speed.lessThan 0 = false := by
      rw [Double.lessThan_finite hfinite]
      exact decide_eq_false (not_lt.mpr (le_of_lt hspeed))
    have hgood : engine.good = true := by rw [hengine]; rfl
    cases hordered : options.untilCollectorTimestampNs.any fun last =>
        options.fromCollectorTimestampNs.any fun first => decide (last ≤ first) with
    | true =>
      have hnone : engine.selected options = [] :=
        List.filter_eq_nil_iff.mpr fun entry _ => by
          rw [inWindow_rejected hordered]
          exact Bool.false_ne_true
      show _ = elapsed (engine.selected options)
      rw [hnone]
      unfold ReplayEngine.replay ReplayEngine.replayWith
      simp only [hgood, hfinite, hnonnegative, hordered, Bool.not_true, Bool.or_self,
        Bool.false_eq_true, if_false, if_true]
      rfl
    | false =>
      have hwalk : engine.replay pb (some file) options consumer =
          replayPayloads pb options consumer file (engine.selected options) engine.begun :=
        replay_walk pb .granted file maximumRecords consumer file hgood hfinite hnonnegative
          hordered
      have hstored : ∀ p ∈ window options L, Stored pb file p := fun _ => stored_window hb
      have hwindow : ∀ p ∈ window options L, pastWindow options p.1 = false :=
        fun _ hp => inWindow_pastWindow (List.mem_filter.mp hp).2
      rw [hwalk, hselected, hwaits]
      cases hentries : window options L with
      | nil => rfl
      | cons first rest =>
        rw [hentries] at hstored hwindow
        rw [walk_waits hpositive haccepts (first :: rest) hstored hwindow _
          first.1.collectorArrivalTimestampNs (by rintro _ ⟨⟩; rfl)]
        show [] ++ _ = elapsed (first.1 :: rest.map Prod.fst)
        rw [List.nil_append, elapsed, ← List.map_cons, List.map_map]
        rfl
  · rw [hwaits, inStep_iff hspeed wallOrigin]
    · rw [hlog]
      have hmem := mem_window hb options
      constructor
      · intro h a ha b hb' hina hinb
        obtain ⟨entry, hentry, hkey⟩ := (hmem _).mpr ⟨a, ha, rfl, hina⟩
        obtain ⟨entry', hentry', hkey'⟩ := (hmem _).mpr ⟨b, hb', rfl, hinb⟩
        rw [← hkey, ← hkey']
        exact h entry hentry entry' hentry'
      · intro h entry hentry entry' hentry'
        obtain ⟨a, ha, hkey, hina⟩ := (hmem _).mp ⟨entry, hentry, rfl⟩
        obtain ⟨b, hb', hkey', hinb⟩ := (hmem _).mp ⟨entry', hentry', rfl⟩
        rw [← hkey] at hina ⊢
        rw [← hkey'] at hinb ⊢
        exact h a ha b hb' hina hinb
    · rw [← hselected]
      exact (hsorted.sublist List.filter_sublist).imp before_le

/-- A speed of 2^-60, at which 20 ns are more than the clock's type has. -/
def slowOptions : ReplayOptions where
  speed := ⟨0x3C30000000000000⟩

/-- The sample log at that speed: a wait is cast out of range. -/
theorem pacing_slow :
    (readLog samplePb .granted sampleFile {maximumRecords := 4}).status = .complete ∧
      slowOptions.speed.isFinite = true ∧ slowOptions.speed.greaterThan 0 = true ∧
      ¬InStep slowOptions.speed 0
        (sampleEngine.replay samplePb (some sampleFile) slowOptions none).waits := by
  refine ⟨by decide +kernel, by decide +kernel, by decide +kernel, fun h => ?_⟩
  have hwait : (20 : Int) ∈
      (sampleEngine.replay samplePb (some sampleFile) slowOptions none).waits := by decide +kernel
  have hscaled : scaled slowOptions.speed 20 = 20 * 2 ^ 60 := by decide +kernel
  have hrange := (h.offsets 20 hwait).2
  rw [hscaled] at hrange
  exact absurd hrange (by decide)

/-- The window of the sample log at double speed. -/
theorem pacing_in_range_sample :
    let options := {sampleOptions with speed := ⟨0x4000000000000000⟩}
    elapsed (sampleEngine.selected options) = [0, 0, 10] ∧
      InStep options.speed 7 (elapsed (sampleEngine.selected options)) := by
  intro options
  refine ⟨by decide +kernel, ?_⟩
  refine (pacing_in_range_iff samplePb sampleFile 4 options 7 (by decide +kernel)
    (by decide +kernel) (by decide +kernel)).2.mpr ?_
  intro a _ b _ hina hinb
  have hbounds (timestamp : Int64) (hin : inWindow options timestamp = true) :
      10 ≤ timestamp.toInt ∧ timestamp.toInt < 30 := by
    obtain ⟨hfrom, huntil⟩ := Bool.and_eq_true_iff.mp hin
    exact ⟨Int64.le_iff_toInt_le.mp (of_decide_eq_true hfrom),
      Int64.lt_iff_toInt_lt.mp (of_decide_eq_true huntil)⟩
  have hlt : b.collectorArrivalTimestampNs.toInt - a.collectorArrivalTimestampNs.toInt < 20 := by
    have ha := hbounds _ hina
    have hb := hbounds _ hinb
    omega
  have hreaches : Reaches options.speed 7 20 := by
    unfold Reaches
    decide +kernel
  exact hreaches.mono (Int.le_of_lt hlt)

end TraceForge.Replay
