import TraceForge.Recording.Writer
import TraceForge.Replay.AlwaysSeek
import TraceForge.Telemetry.Wire

/-! Replay delivers the window, once, in order.

The index is sorted by collector timestamp and append index, so what lies before the window is cut
off by the binary search and what lies behind it by the loop's break: the entries walked are the
window (`current_window`). On the file that was indexed each of them is `Stored`, and a delivery of
stored entries to a consumer that accepts them all is a fold over them (`Delivered`). -/
namespace TraceForge.Replay
open Library Telemetry Recording
open LittleEndian (split)

/-! ### The order -/

theorem comesBefore_iff (a b : LogIndexEntry) :
    comesBefore a b = true ↔
      a.collectorArrivalTimestampNs < b.collectorArrivalTimestampNs ∨
        a.collectorArrivalTimestampNs = b.collectorArrivalTimestampNs ∧
          a.recordIndex < b.recordIndex := by
  unfold comesBefore
  by_cases h : a.collectorArrivalTimestampNs = b.collectorArrivalTimestampNs
  · simp [h, Int64.lt_irrefl]
  · simp [h]

/-- The order the sort puts the index in. -/
def Before (a b : LogIndexEntry) : Prop := comesBefore b a = false

instance : DecidableRel Before := fun a b => inferInstanceAs (Decidable (comesBefore b a = false))

theorem before_iff (a b : LogIndexEntry) :
    Before a b ↔
      a.collectorArrivalTimestampNs.toInt < b.collectorArrivalTimestampNs.toInt ∨
        a.collectorArrivalTimestampNs.toInt = b.collectorArrivalTimestampNs.toInt ∧
          a.recordIndex.toNat ≤ b.recordIndex.toNat := by
  rw [Before, ← Bool.not_eq_true, comesBefore_iff, Int64.lt_iff_toInt_lt, ← Int64.toInt_inj,
    UInt64.lt_iff_toNat_lt]
  omega

theorem before_trans {a b c : LogIndexEntry} (hab : Before a b) (hbc : Before b c) :
    Before a c := by
  rw [before_iff] at hab hbc ⊢
  omega

theorem before_total (a b : LogIndexEntry) : Before a b ∨ Before b a := by
  rw [before_iff, before_iff]
  omega

instance : Std.Total Before := ⟨before_total⟩

instance : IsTrans LogIndexEntry Before := ⟨fun _ _ _ => before_trans⟩

instance : Std.Total fun a b : LogIndexEntry × LogRecord => Before a.1 b.1 :=
  ⟨fun a b => before_total a.1 b.1⟩

instance : IsTrans (LogIndexEntry × LogRecord) fun a b => Before a.1 b.1 :=
  ⟨fun _ _ _ => before_trans⟩

theorem before_le {a b : LogIndexEntry} (h : Before a b) :
    a.collectorArrivalTimestampNs ≤ b.collectorArrivalTimestampNs := by
  rw [before_iff] at h
  rw [Int64.le_iff_toInt_le]
  omega

/-- Two records of a log are never equal in the order. -/
theorem comesBefore_of_before {a b : LogIndexEntry} (h : Before a b)
    (hne : a.recordIndex ≠ b.recordIndex) : comesBefore a b = true := by
  rw [before_iff] at h
  rw [comesBefore_iff, Int64.lt_iff_toInt_lt, ← Int64.toInt_inj, UInt64.lt_iff_toNat_lt]
  have hne : a.recordIndex.toNat ≠ b.recordIndex.toNat := fun heq => hne (UInt64.toNat_inj.mp heq)
  omega

/-! ### The window -/

def inWindow (options : ReplayOptions) (timestamp : Int64) : Bool :=
  (options.fromCollectorTimestampNs.all fun first => decide (first ≤ timestamp)) &&
    options.untilCollectorTimestampNs.all fun last => decide (timestamp < last)

/-- What a bound on the timestamp cuts off an ordered index is a front part. -/
theorem fronted_timestamp {entries : List LogIndexEntry}
    (hsorted : entries.Pairwise Before) (bound : Int64) :
    Search.Fronted (fun entry => decide (entry.collectorArrivalTimestampNs < bound)) entries := by
  refine hsorted.imp fun {a b} hab hb => ?_
  exact decide_eq_true (Int64.lt_of_le_of_lt (before_le hab) (of_decide_eq_true hb))

/-- The loop stops where the window ends, so the rest of the entries do not matter. -/
theorem replayPayloads_takeWhile {pb : Protobuf} {options : ReplayOptions}
    {consumer : ReplayConsumer} {file : File} (entries : List LogIndexEntry) (d : Delivery) :
    replayPayloads pb options consumer file entries d =
      replayPayloads pb options consumer file
        (entries.takeWhile fun entry => !pastWindow options entry) d := by
  induction entries generalizing d with
  | nil => rfl
  | cons entry rest ih =>
    by_cases hpast : pastWindow options entry = true
    · rw [List.takeWhile_cons_of_neg (by simp [hpast])]
      exact if_pos hpast
    · rw [List.takeWhile_cons_of_pos (by simp [hpast]), replayPayloads, replayPayloads,
        if_neg hpast, if_neg hpast]
      cases payloadAt file entry with
      | none => rfl
      | some payload =>
        simp only
        cases d.deliver pb options consumer entry payload with
        | error d' => rfl
        | ok d' => exact ih d'

/-- **The entries walked** are those of the window. -/
theorem current_window (options : ReplayOptions) {engine : ReplayEngine}
    (hsorted : engine.index.Pairwise Before) :
    ((engine.current options).takeWhile fun entry => !pastWindow options entry) =
      engine.index.filter fun entry => inWindow options entry.collectorArrivalTimestampNs := by
  have hcurrent : engine.current options = engine.index.filter fun entry =>
      options.fromCollectorTimestampNs.all fun first =>
        decide (first ≤ entry.collectorArrivalTimestampNs) := by
    unfold ReplayEngine.current
    cases options.fromCollectorTimestampNs with
    | none => simp
    | some first =>
      simp only
      rw [Search.drop_lowerBound (fronted_timestamp hsorted first)]
      refine List.filter_congr fun entry _ => ?_
      simp [← Int64.not_lt]
  have hpast : Search.Fronted (fun entry => !pastWindow options entry) engine.index := by
    unfold pastWindow
    cases options.untilCollectorTimestampNs with
    | none => exact hsorted.imp fun _ _ => rfl
    | some last =>
      refine (fronted_timestamp hsorted last).imp fun {a b} hab hb => ?_
      simp only [Option.any_some, Bool.not_eq_true', decide_eq_false_iff_not, Int64.not_le,
        decide_eq_true_eq] at hab hb ⊢
      exact hab hb
  rw [hcurrent, Search.takeWhile_fronted (Search.fronted_filter hpast _), List.filter_filter]
  refine List.filter_congr fun entry _ => ?_
  rw [inWindow, Bool.and_comm]
  congr 1
  unfold pastWindow
  cases options.untilCollectorTimestampNs with
  | none => rfl
  | some last => simp [← Int64.not_le]

/-! ### One delivery -/

/-- FNV-1a. -/
def fnv1a (bytes : List UInt8) : UInt64 := bytes.foldl hashByte kFnvOffsetBasis

/-- What a record contributes to the hash: its number, its timestamp, the length of its payload
and the payload, as the file has it. -/
def hashedBytes (file : File) (entry : LogIndexEntry) : List UInt8 :=
  split 8 entry.recordIndex.toNat ++
    split 8 entry.collectorArrivalTimestampNs.toUInt64.toNat ++
    split 4 entry.payloadSize.toNat ++
    (file.bytes.drop (entry.fileOffset.toNat + 36)).take entry.payloadSize.toNat

theorem hashLittleEndian_split (size : Nat) (hash value : UInt64) :
    hashLittleEndian size hash value = (split size value.toNat).foldl hashByte hash := by
  induction size generalizing hash value with
  | zero => rfl
  | succ size ih =>
    rw [hashLittleEndian, ih, low_byte, next_byte]
    rfl

/-- An entry and its record, when the file has the record's payload. -/
structure Stored (pb : Protobuf) (file : File) (p : LogIndexEntry × LogRecord) : Prop where
  payload : ∃ payload, payloadAt file p.1 = some payload ∧ crc32c payload = p.1.payloadCrc32c ∧
    pb.parseFromArray payload = some p.2.event
  schema : p.2.event.schemaVersion = kTelemetrySchemaVersion
  source : p.2.event.sourceTimestampNs = p.1.sourceTimestampNs
  record : p.2 =
    { recordIndex := p.1.recordIndex
      fileOffset := p.1.fileOffset
      collectorArrivalTimestampNs := p.1.collectorArrivalTimestampNs
      event := p.2.event }

theorem Stored.keys_eq {pb : Protobuf} {file : File} {p : LogIndexEntry × LogRecord}
    (h : Stored pb file p) :
    p.1.collectorArrivalTimestampNs = p.2.collectorArrivalTimestampNs ∧
      p.1.recordIndex = p.2.recordIndex := by
  rw [h.record]
  exact ⟨rfl, rfl⟩

theorem hashRecord_stored {file : File} {entry : LogIndexEntry} {payload : List UInt8}
    (h : payloadAt file entry = some payload) (hash : UInt64) :
    hashRecord hash entry.recordIndex entry.collectorArrivalTimestampNs payload =
      (hashedBytes file entry).foldl hashByte hash := by
  unfold payloadAt at h
  by_cases hlength : ((file.bytes.drop (entry.fileOffset.toNat + 36)).take
      entry.payloadSize.toNat).length = entry.payloadSize.toNat
  · rw [if_pos hlength] at h
    cases h
    have hsize : (UInt32.ofNat ((file.bytes.drop (entry.fileOffset.toNat + 36)).take
        entry.payloadSize.toNat).length).toUInt64.toNat = entry.payloadSize.toNat := by
      rw [hlength, UInt32.ofNat_toNat, UInt32.toNat_toUInt64]
    simp only [hashRecord, hashLittleEndian_split, hsize, hashedBytes, List.foldl_append]
  · rw [if_neg hlength] at h
    cases h

/-- What `d'` has more than `d` once the pairs were delivered. -/
structure Delivered (file : File) (d d' : Delivery) (ps : List (LogIndexEntry × LogRecord)) :
    Prop where
  calls : d'.calls = d.calls ++ ps.map Prod.snd
  hash : d'.result.hash = (ps.flatMap fun p => hashedBytes file p.1).foldl hashByte d.result.hash
  replayedRecords : d'.result.replayedRecords = d.result.replayedRecords + UInt64.ofNat ps.length
  firstTimestampNs : d'.result.firstTimestampNs =
    d.result.firstTimestampNs.or (ps.head?.map fun p => p.2.collectorArrivalTimestampNs)
  lastTimestampNs : d'.result.lastTimestampNs =
    (ps.getLast?.map fun p => p.2.collectorArrivalTimestampNs).or d.result.lastTimestampNs

theorem delivered_nil (file : File) (d : Delivery) : Delivered file d d [] where
  calls := (List.append_nil _).symm
  hash := rfl
  replayedRecords := (UInt64.add_zero _).symm
  firstTimestampNs := (Option.or_none).symm
  lastTimestampNs := rfl

theorem delivered_cons {file : File} {d d₁ d₂ : Delivery} {p : LogIndexEntry × LogRecord}
    {rest : List (LogIndexEntry × LogRecord)} (hp : Delivered file d d₁ [p])
    (hrest : Delivered file d₁ d₂ rest) : Delivered file d d₂ (p :: rest) where
  calls := by rw [hrest.calls, hp.calls, List.append_assoc]; rfl
  hash := by
    have hone : [p].flatMap (fun p => hashedBytes file p.1) = hashedBytes file p.1 :=
      List.flatMap_singleton ..
    rw [hrest.hash, hp.hash, hone, List.flatMap_cons, List.foldl_append]
  replayedRecords := by
    have hlength : (p :: rest).length = [p].length + rest.length := Nat.add_comm ..
    rw [hrest.replayedRecords, hp.replayedRecords, hlength, UInt64.ofNat_add, UInt64.add_assoc]
  firstTimestampNs := by
    rw [hrest.firstTimestampNs, hp.firstTimestampNs]
    cases d.result.firstTimestampNs <;> rfl
  lastTimestampNs := by
    have hlast : (p :: rest).getLast? = some (rest.getLast?.getD p) := List.getLast?_cons
    rw [hrest.lastTimestampNs, hp.lastTimestampNs, hlast]
    cases rest.getLast? <;> rfl

theorem pace_result (options : ReplayOptions) (timestamp : Int64) (d : Delivery) :
    (d.pace options timestamp).result = d.result ∧ (d.pace options timestamp).calls = d.calls := by
  unfold Delivery.pace
  split <;> exact ⟨rfl, rfl⟩

/-- The record that an entry and its event make. -/
def recordOf (entry : LogIndexEntry) (event : TelemetryEvent) : LogRecord where
  recordIndex := entry.recordIndex
  fileOffset := entry.fileOffset
  collectorArrivalTimestampNs := entry.collectorArrivalTimestampNs
  event := event

/-- What a payload must be for its record to be offered. -/
structure Intact (pb : Protobuf) (entry : LogIndexEntry) (payload : List UInt8)
    (event : TelemetryEvent) : Prop where
  checksum : crc32c payload = entry.payloadCrc32c
  parses : pb.parseFromArray payload = some event
  valid : ¬(event.schemaVersion ≠ kTelemetrySchemaVersion ∨
    event.sourceTimestampNs ≠ entry.sourceTimestampNs)

/-- A delivery that has waited, hashed its record and called the consumer. -/
def Delivery.offer (options : ReplayOptions) (consumer : ReplayConsumer) (entry : LogIndexEntry)
    (payload : List UInt8) (event : TelemetryEvent) (d : Delivery) : Delivery :=
  {d.pace options entry.collectorArrivalTimestampNs with
    result := {d.result with
      hash := hashRecord d.result.hash entry.recordIndex entry.collectorArrivalTimestampNs payload}
    calls := d.calls ++ if consumer.isSome then [recordOf entry event] else []}

/-- The record was accepted. -/
def Delivery.count (timestamp : Int64) (d : Delivery) : Delivery :=
  {d with result := {d.result with
    firstTimestampNs := some (d.result.firstTimestampNs.getD timestamp)
    lastTimestampNs := some timestamp
    replayedRecords := d.result.replayedRecords + 1}}

section Deliver
variable {pb : Protobuf} {entry : LogIndexEntry} {payload : List UInt8}

/-- **A payload that is not intact** ends the replay as it is. -/
theorem deliver_broken (options : ReplayOptions) (consumer : ReplayConsumer)
    (h : ∀ event, ¬Intact pb entry payload event) (d : Delivery) :
    ∃ status message, status ≠ .complete ∧
      d.deliver pb options consumer entry payload = .error (d.finish status message) := by
  unfold Delivery.deliver
  by_cases hcrc : crc32c payload ≠ entry.payloadCrc32c
  · exact ⟨.logError, _, by decide, if_pos hcrc⟩
  rw [if_neg hcrc]
  cases hparse : pb.parseFromArray payload with
  | none => exact ⟨.logError, _, by decide, rfl⟩
  | some event =>
    refine ⟨.logError, "indexed telemetry payload is no longer valid", by decide, if_pos ?_⟩
    by_contra hvalid
    exact h event ⟨not_not.mp hcrc, hparse, hvalid⟩

/-- **An intact payload** is offered, and counted if the consumer accepts it. -/
theorem deliver_intact (options : ReplayOptions) (consumer : ReplayConsumer)
    {event : TelemetryEvent} (h : Intact pb entry payload event) (d : Delivery) :
    d.deliver pb options consumer entry payload =
      if consumer.all fun consume => consume d.calls (recordOf entry event) then
        .ok ((d.offer options consumer entry payload event).count
          entry.collectorArrivalTimestampNs)
      else
        .error ((d.offer options consumer entry payload event).finish .consumerError
          "replay consumer rejected a record") := by
  have hpace := pace_result options entry.collectorArrivalTimestampNs d
  rw [Delivery.deliver, if_neg (not_not.mpr h.checksum), h.parses]
  simp only [if_neg h.valid, hpace.1, hpace.2]
  show (if (!consumer.all fun consume => consume d.calls (recordOf entry event)) = true then _
    else _) = _
  cases consumer.all fun consume => consume d.calls (recordOf entry event) <;> rfl

end Deliver

theorem Stored.intact {pb : Protobuf} {file : File} {p : LogIndexEntry × LogRecord}
    (h : Stored pb file p) :
    ∃ payload, payloadAt file p.1 = some payload ∧ Intact pb p.1 payload p.2.event := by
  obtain ⟨payload, hpayload, hcrc, hparse⟩ := h.payload
  exact ⟨payload, hpayload, hcrc, hparse,
    fun hor => hor.elim (fun hne => hne h.schema) fun hne => hne h.source⟩

/-- **One delivery** of a stored entry to a consumer that accepts everything. -/
theorem deliver_stored {pb : Protobuf} {file : File} (options : ReplayOptions)
    {consume : List LogRecord → LogRecord → Bool} (hconsume : ∀ calls r, consume calls r = true)
    {p : LogIndexEntry × LogRecord} (hp : Stored pb file p) (d : Delivery) :
    ∃ payload d', payloadAt file p.1 = some payload ∧
      d.deliver pb options (some consume) p.1 payload = .ok d' ∧ Delivered file d d' [p] := by
  obtain ⟨payload, hpayload, hintact⟩ := hp.intact
  have hrecord : recordOf p.1 p.2.event = p.2 := hp.record.symm
  have harrival := hp.keys_eq.1.symm
  refine ⟨payload, _, hpayload,
    (deliver_intact options _ hintact d).trans (if_pos (hconsume _ _)), ?_⟩
  exact
    { calls := congrArg (fun record => d.calls ++ [record]) hrecord
      hash := by
        have hone : [p].flatMap (fun p => hashedBytes file p.1) = hashedBytes file p.1 :=
          List.flatMap_singleton ..
        rw [hone]
        exact hashRecord_stored hpayload d.result.hash
      replayedRecords := rfl
      firstTimestampNs := by
        simp only [List.head?_cons, Option.map_some, harrival]
        cases hfirst : d.result.firstTimestampNs <;>
          simp [Delivery.offer, Delivery.count, hfirst]
      lastTimestampNs := by
        simp only [List.getLast?_singleton, Option.map_some, harrival]
        rfl }

/-- **Any number of deliveries**, none of them behind the window. -/
theorem replayPayloads_stored {pb : Protobuf} {file : File} (options : ReplayOptions)
    {consume : List LogRecord → LogRecord → Bool} (hconsume : ∀ calls r, consume calls r = true)
    (ps : List (LogIndexEntry × LogRecord)) (hps : ∀ p ∈ ps, Stored pb file p)
    (hwindow : ∀ p ∈ ps, pastWindow options p.1 = false) (d : Delivery) :
    ∃ d', Delivered file d d' ps ∧
      replayPayloads pb options (some consume) file (ps.map Prod.fst) d =
        d'.finish .complete "replay completed" := by
  induction ps generalizing d with
  | nil => exact ⟨d, delivered_nil file d, rfl⟩
  | cons p rest ih =>
    obtain ⟨hp, hrest⟩ := List.forall_mem_cons.mp hps
    obtain ⟨hin, hins⟩ := List.forall_mem_cons.mp hwindow
    obtain ⟨payload, d₁, hpayload, hdeliver, hone⟩ := deliver_stored options hconsume hp d
    obtain ⟨d₂, hmany, hreplay⟩ := ih hrest hins d₁
    refine ⟨d₂, delivered_cons hone hmany, ?_⟩
    rw [List.map_cons, replayPayloads_ok hin hpayload hdeliver, hreplay]

/-! ### The log that was indexed -/

/-- The entries and records of a layout side by side. -/
def pairs {pb : Protobuf} (L : Layout pb) : List (LogIndexEntry × LogRecord) :=
  numbered (fun f i offset => (f.entry i offset, f.record i offset)) 0 32 L.frames

variable {pb : Protobuf}

theorem numbered_zip {β γ : Type} (view : Frame pb → Nat → Nat → β) (other : Frame pb → Nat → Nat → γ)
    (i offset : Nat) (fs : List (Frame pb)) :
    (numbered view i offset fs).zip (numbered other i offset fs) =
      numbered (fun f i offset => (view f i offset, other f i offset)) i offset fs := by
  induction fs generalizing i offset with
  | nil => rfl
  | cons f rest ih => rw [numbered, numbered, numbered, List.zip_cons_cons, ih]

theorem pairs_zip (L : Layout pb) : L.index.zip L.records = pairs L := numbered_zip _ _ 0 32 L.frames

theorem pairs_index (L : Layout pb) : (pairs L).map Prod.fst = L.index := by
  rw [← pairs_zip, List.map_fst_zip]
  exact Nat.le_of_eq (L.index_length.trans L.records_length.symm)

theorem pairs_at {L : Layout pb} {n : Nat} {p : LogIndexEntry × LogRecord}
    (h : (pairs L)[n]? = some p) :
    ∃ f, L.frames[n]? = some f ∧
      p = (f.entry n (L.prefixOf n).bytes.length, f.record n (L.prefixOf n).bytes.length) := by
  rw [pairs, numbered_getElem?, Option.map_eq_some_iff] at h
  obtain ⟨f, hf, rfl⟩ := h
  exact ⟨f, hf, by rw [Nat.zero_add, Layout.bytes_length]; rfl⟩

/-- **The file that was indexed** stores every record. -/
theorem stored_pairs {L : Layout pb} {file : File} (hb : L.bytes = file.bytes)
    {p : LogIndexEntry × LogRecord} (h : p ∈ pairs L) : Stored pb file p := by
  obtain ⟨n, hn⟩ := List.getElem?_of_mem h
  obtain ⟨f, hf, rfl⟩ := pairs_at hn
  have hlt := file.length_lt
  have hbytes := Layout.bytes_at hf
  have hall := congrArg List.length hbytes
  rw [List.length_append, List.length_append, Frame.bytes_length] at hall
  have hle := f.payload_le
  rw [kMaximumPayloadSize_toNat] at hle
  have hoffset : (UInt64.ofNat (L.prefixOf n).bytes.length).toNat = (L.prefixOf n).bytes.length := by
    rw [UInt64.toNat_ofNat']
    rw [← hb] at hlt
    omega
  have hsize : (UInt32.ofNat f.payload.length).toNat = f.payload.length := by
    rw [UInt32.toNat_ofNat']
    omega
  have hpayload : payloadAt file (f.entry n (L.prefixOf n).bytes.length) = some f.payload := by
    have hfront : ((L.prefixOf n).bytes ++ f.header n).length = (L.prefixOf n).bytes.length + 36 := by
      rw [List.length_append, f.header_length]
    have hsplit : file.bytes = ((L.prefixOf n).bytes ++ f.header n) ++
        (f.payload ++ framesBytes (n + 1) (L.frames.drop (n + 1))) := by
      rw [← hb, hbytes, Frame.bytes, List.append_assoc, List.append_assoc]
    simp only [payloadAt, Frame.entry, hoffset, hsize]
    rw [hsplit, ← hfront, List.drop_left, List.take_left, if_pos rfl]
  exact
    { payload := ⟨f.payload, hpayload, rfl, f.parses⟩
      schema := f.schema
      source := rfl
      record := rfl }

theorem pairs_distinct {L : Layout pb} {file : File} (hb : L.bytes = file.bytes) :
    (pairs L).Pairwise fun a b => a.1.recordIndex ≠ b.1.recordIndex := by
  have hlt := Layout.frames_length_lt hb
  have hlength : (pairs L).length = L.frames.length := numbered_length _ 0 32 L.frames
  refine List.pairwise_iff_getElem.mpr fun i j hi hj hij heq => ?_
  obtain ⟨f, _, hf⟩ := pairs_at (List.getElem?_eq_getElem hi)
  obtain ⟨g, _, hg⟩ := pairs_at (List.getElem?_eq_getElem hj)
  rw [hf, hg] at heq
  have hnumber : (UInt64.ofNat i).toNat = (UInt64.ofNat j).toNat := congrArg UInt64.toNat heq
  rw [UInt64.toNat_ofNat', UInt64.toNat_ofNat'] at hnumber
  omega

/-! ### The replay of a complete log -/

theorem max_timestamp (a b : Int64) : max a b = if a ≤ b then b else a := rfl

instance int64LawfulOrderMax : Std.LawfulOrderMax Int64 where
  max_eq_or a b := by
    rw [max_timestamp]
    split
    · exact .inr rfl
    · exact .inl rfl
  max_le_iff a b c := by
    rw [max_timestamp]
    split
    · rename_i hab
      exact ⟨fun hc => ⟨Int64.le_trans hab hc, hc⟩, fun hc => hc.2⟩
    · rename_i hab
      have hba : b ≤ a := Int64.le_of_lt (Int64.not_le.mp hab)
      exact ⟨fun hc => ⟨hc, Int64.le_trans hba hc⟩, fun hc => hc.1⟩

/-- The pairs of a layout in replay order. -/
def timeline (L : Layout pb) : List (LogIndexEntry × LogRecord) :=
  (pairs L).insertionSort fun a b => Before a.1 b.1

theorem timeline_index (L : Layout pb) :
    (timeline L).map Prod.fst = L.index.insertionSort Before := by
  rw [← pairs_index]
  exact List.map_insertionSort _ Before _ _ fun _ _ _ _ => Iff.rfl

theorem timeline_sorted {L : Layout pb} {file : File} (hb : L.bytes = file.bytes) :
    (timeline L).Pairwise fun a b => comesBefore a.1 b.1 = true := by
  have hsorted : (timeline L).Pairwise fun a b => Before a.1 b.1 :=
    List.pairwise_insertionSort _ (pairs L)
  have hdistinct : (timeline L).Pairwise fun a b => a.1.recordIndex ≠ b.1.recordIndex :=
    ((List.perm_insertionSort _ (pairs L)).pairwise_iff fun h => h.symm).mpr (pairs_distinct hb)
  exact (hsorted.and hdistinct).imp fun h => comesBefore_of_before h.1 h.2

/-- The part of the timeline in a window. -/
def window (options : ReplayOptions) (L : Layout pb) : List (LogIndexEntry × LogRecord) :=
  (timeline L).filter fun p => inWindow options p.1.collectorArrivalTimestampNs

/-- What the engine that indexed the log selects. -/
theorem window_index (options : ReplayOptions) (L : Layout pb) :
    ((L.index.insertionSort Before).filter fun entry =>
      inWindow options entry.collectorArrivalTimestampNs) = (window options L).map Prod.fst := by
  rw [← timeline_index, List.filter_map]
  rfl

theorem stored_window {L : Layout pb} {file : File} (hb : L.bytes = file.bytes)
    {options : ReplayOptions} {p : LogIndexEntry × LogRecord} (h : p ∈ window options L) :
    Stored pb file p :=
  stored_pairs hb ((List.mem_insertionSort _).mp (List.mem_of_mem_filter h))

/-- The records of a window stand in the collector's order. -/
theorem window_sorted {L : Layout pb} {file : File} (hb : L.bytes = file.bytes)
    (options : ReplayOptions) : (window options L).Pairwise fun a b =>
      a.2.collectorArrivalTimestampNs < b.2.collectorArrivalTimestampNs ∨
        a.2.collectorArrivalTimestampNs = b.2.collectorArrivalTimestampNs ∧
          a.2.recordIndex < b.2.recordIndex := by
  have hsorted : (window options L).Pairwise fun a b => comesBefore a.1 b.1 = true :=
    (timeline_sorted hb).sublist List.filter_sublist
  refine hsorted.imp_of_mem fun {a b} ha hb' hab => ?_
  have hfirst := (stored_window hb ha).keys_eq
  have hsecond := (stored_window hb hb').keys_eq
  rw [← hfirst.1, ← hfirst.2, ← hsecond.1, ← hsecond.2]
  exact (comesBefore_iff a.1 b.1).mp hab

theorem window_length_lt {L : Layout pb} {file : File} (hb : L.bytes = file.bytes)
    (options : ReplayOptions) : (window options L).length < 2 ^ 63 := by
  have hall : (timeline L).length = L.frames.length :=
    (List.length_insertionSort _ _).trans (numbered_length _ 0 32 L.frames)
  have hfilter := List.length_filter_le
    (fun p : LogIndexEntry × LogRecord => inWindow options p.1.collectorArrivalTimestampNs)
    (timeline L)
  rw [hall] at hfilter
  exact Nat.lt_of_le_of_lt hfilter (Layout.frames_length_lt hb)

theorem inWindow_pastWindow {options : ReplayOptions} {entry : LogIndexEntry}
    (h : inWindow options entry.collectorArrivalTimestampNs = true) :
    pastWindow options entry = false := by
  rw [inWindow, Bool.and_eq_true] at h
  unfold pastWindow
  cases hlast : options.untilCollectorTimestampNs with
  | none => rfl
  | some last =>
    rw [hlast] at h
    exact decide_eq_false (Int64.not_le.mpr (of_decide_eq_true h.2))

/-- The bounds of a window pass the replay's check. -/
theorem bounds_ordered {options : ReplayOptions}
    (hbounds : ∀ first last, options.fromCollectorTimestampNs = some first →
      options.untilCollectorTimestampNs = some last → first < last) :
    (options.untilCollectorTimestampNs.any fun last =>
      options.fromCollectorTimestampNs.any fun first => decide (last ≤ first)) = false := by
  cases hlast : options.untilCollectorTimestampNs with
  | none => rfl
  | some last =>
    cases hfirst : options.fromCollectorTimestampNs with
    | none => rfl
    | some first => exact decide_eq_false (Int64.not_le.mpr (hbounds first last hfirst hlast))

/-- The engine of a complete log. -/
theorem create_layout {L : Layout pb} {file : File} {maximumRecords : UInt64}
    (hb : L.bytes = file.bytes) (hn : L.frames.length ≤ maximumRecords.toNat) :
    ReplayEngine.create pb .granted file maximumRecords =
      ⟨L.index.insertionSort Before, ""⟩ := by
  rw [ReplayEngine.create, readLog_complete _ hb hn]
  rfl

theorem create_sorted (pb : Protobuf) (access : Access) (file : File) (maximumRecords : UInt64) :
    (ReplayEngine.create pb access file maximumRecords).index.Pairwise Before := by
  rcases create_cases pb access file maximumRecords with ⟨message, hrefused⟩ | ⟨L, _, _, hlayout⟩
  · rw [hrefused]
    exact List.Pairwise.nil
  · rw [hlayout]
    exact List.pairwise_insertionSort Before L.index

/-- A replay before its first record. -/
def ReplayEngine.begun (engine : ReplayEngine) : Delivery where
  result :=
    { indexedRecords := UInt64.ofNat engine.index.length
      hash := kFnvOffsetBasis }
  replayOriginNs := none
  calls := []
  waits := []

/-- **A replay that passes its checks** walks the window. -/
theorem replay_walk (pb : Protobuf) (access : Access) (file : File) (maximumRecords : UInt64)
    {options : ReplayOptions} (consumer : ReplayConsumer) (content : File) :
    let engine := ReplayEngine.create pb access file maximumRecords
    engine.good = true → options.speed.isFinite = true → options.speed.lessThan 0 = false →
    (options.untilCollectorTimestampNs.any fun last =>
      options.fromCollectorTimestampNs.any fun first => decide (last ≤ first)) = false →
    engine.replay pb (some content) options consumer =
      replayPayloads pb options consumer content
        (engine.index.filter fun entry => inWindow options entry.collectorArrivalTimestampNs)
        engine.begun := by
  intro engine hgood hfinite hnonnegative hordered
  have haddress : ∀ entry ∈ engine.index, Addressable entry :=
    addressable_create pb access file maximumRecords
  rw [← current_window options (create_sorted pb access file maximumRecords),
    ← replayPayloads_takeWhile]
  unfold ReplayEngine.replay ReplayEngine.replayWith
  simp only [hgood, hfinite, hnonnegative, hordered, Bool.not_true, Bool.or_self,
    Bool.false_eq_true, if_false, replay_current haddress]
  rfl

/-- **A complete log is replayed** as its window, by an engine that indexed it. -/
theorem replay_layout {L : Layout pb} {file : File} {maximumRecords : UInt64}
    (options : ReplayOptions) {consume : List LogRecord → LogRecord → Bool}
    (hb : L.bytes = file.bytes) (hn : L.frames.length ≤ maximumRecords.toNat)
    (hspeed : options.speed.isFinite = true ∧ options.speed.lessThan 0 = false)
    (hbounds : ∀ first last, options.fromCollectorTimestampNs = some first →
      options.untilCollectorTimestampNs = some last → first < last)
    (hconsume : ∀ calls r, consume calls r = true) :
    let engine := ReplayEngine.create pb .granted file maximumRecords
    ∃ d, Delivered file engine.begun d (window options L) ∧
      engine.replay pb (some file) options (some consume) =
        d.finish .complete "replay completed" := by
  intro engine
  have hindex : engine = ⟨L.index.insertionSort Before, ""⟩ := create_layout hb hn
  have hgood : engine.good = true := by rw [hindex]; rfl
  have hwindow : (engine.index.filter fun entry =>
      inWindow options entry.collectorArrivalTimestampNs) = (window options L).map Prod.fst := by
    rw [hindex]
    exact window_index options L
  obtain ⟨d, hdelivered, hreplay⟩ := replayPayloads_stored options hconsume (window options L)
    (fun p hp => stored_window hb hp)
    (fun p hp => inWindow_pastWindow (List.mem_filter.mp hp).2) engine.begun
  refine ⟨d, hdelivered, ?_⟩
  rw [← hreplay, ← hwindow]
  exact replay_walk pb .granted file maximumRecords (some consume) file hgood hspeed.1 hspeed.2
    (bounds_ordered hbounds)

/-- **Replay delivers exactly the window, once, in order.** For a complete log there is one order
of the records in the window, by timestamp and then by append index, and a replay of the unchanged
file calls an accepting consumer with these records in this order, whatever the speed. The result
counts them, has their least and greatest timestamps, and hashes them in that order. -/
theorem replay_window (pb : Protobuf) (file : File) (maximumRecords : UInt64)
    (options : ReplayOptions)
    (hcomplete :
      (readLog pb .granted file {maximumRecords := maximumRecords}).status = .complete)
    (hbounds : ∀ first last, options.fromCollectorTimestampNs = some first →
      options.untilCollectorTimestampNs = some last → first < last) :
    let log := readLog pb .granted file {maximumRecords := maximumRecords}
    ∃ ordered : List (LogIndexEntry × LogRecord),
      ordered.Perm ((log.index.zip log.records).filter fun p =>
        inWindow options p.2.collectorArrivalTimestampNs) ∧
      (ordered.Pairwise fun a b =>
        a.2.collectorArrivalTimestampNs < b.2.collectorArrivalTimestampNs ∨
          a.2.collectorArrivalTimestampNs = b.2.collectorArrivalTimestampNs ∧
            a.2.recordIndex < b.2.recordIndex) ∧
      ∀ (speed : Double) (consume : List LogRecord → LogRecord → Bool),
        speed.isFinite = true → speed.lessThan 0 = false → (∀ calls r, consume calls r = true) →
        let replay := (ReplayEngine.create pb .granted file maximumRecords).replay pb (some file)
          {options with speed := speed} (some consume)
        replay.result.status = .complete ∧ replay.calls = ordered.map Prod.snd ∧
          replay.result.replayedRecords.toNat = ordered.length ∧
          replay.result.firstTimestampNs =
            (ordered.map fun p => p.2.collectorArrivalTimestampNs).min? ∧
          replay.result.lastTimestampNs =
            (ordered.map fun p => p.2.collectorArrivalTimestampNs).max? ∧
          replay.result.hash = fnv1a (ordered.flatMap fun p => hashedBytes file p.1) := by
  intro log
  obtain ⟨L, hb, hn⟩ := layout_of_complete hcomplete
  have hlog : log = L.result file {maximumRecords := maximumRecords} complete :=
    readLog_complete _ hb hn
  have hzip : log.index.zip log.records = pairs L := by
    rw [hlog]
    exact pairs_zip L
  have hstrict := window_sorted hb options
  have hordered : ((window options L).map fun p => p.2.collectorArrivalTimestampNs).Pairwise
      fun a b => a ≤ b := by
    refine List.pairwise_map.mpr (hstrict.imp fun hab => ?_)
    rcases hab with hlt | ⟨heq, _⟩
    · exact Int64.le_of_lt hlt
    · exact heq ▸ Int64.le_refl _
  have hlength := window_length_lt hb options
  refine ⟨window options L, ?_, hstrict, fun speed consume hfinite hnonnegative hconsume => ?_⟩
  · rw [hzip]
    refine ((List.perm_insertionSort _ (pairs L)).filter _).trans (List.Perm.of_eq ?_)
    exact List.filter_congr fun p hp => by rw [(stored_pairs hb hp).keys_eq.1]
  · intro replay
    obtain ⟨d, hd, hreplay⟩ := replay_layout {options with speed := speed} hb hn
      ⟨hfinite, hnonnegative⟩ hbounds hconsume
    have hdone : replay = d.finish .complete "replay completed" := hreplay
    rw [hdone]
    refine ⟨rfl, hd.calls, ?_, ?_, ?_, hd.hash⟩
    · show d.result.replayedRecords.toNat = _
      rw [hd.replayedRecords]
      show ((0 : UInt64) + UInt64.ofNat (window options L).length).toNat = _
      rw [UInt64.zero_add, UInt64.toNat_ofNat']
      omega
    · rw [Search.min?_ordered hordered, List.head?_map]
      exact hd.firstTimestampNs
    · rw [Search.max?_ordered hordered, List.getLast?_map]
      exact hd.lastTimestampNs.trans Option.or_none

/-- The arrivals of the four records of a small log: two of them are equal, the first is last. -/
def sampleArrivals : List Int64 := [30, 10, 10, 20]

def samplePb : Protobuf := Wire.protobuf [Wire.sampleEvent 1]

def sampleFile : File :=
  (LogWriter.writeLog samplePb (.fresh "log" fun _ => none) {createdUnixNs := 7} 0
    (sampleArrivals.map fun arrival => (Wire.sampleEvent 1, arrival))).output.visible

def sampleOptions : ReplayOptions where
  fromCollectorTimestampNs := some 10
  untilCollectorTimestampNs := some 30

/-- The records at 10 and 20, at double speed. -/
theorem replay_window_sample :
    ∃ ordered : List (LogIndexEntry × LogRecord),
      (ordered.map fun p => (p.2.recordIndex, p.2.collectorArrivalTimestampNs)) =
        [(1, 10), (2, 10), (3, 20)] ∧
      let replay := (ReplayEngine.create samplePb .granted sampleFile 4).replay samplePb
        (some sampleFile) {sampleOptions with speed := ⟨0x4000000000000000⟩}
        (some fun _ _ => true)
      replay.result.status = .complete ∧ replay.calls = ordered.map Prod.snd ∧
        replay.result.hash = fnv1a (ordered.flatMap fun p => hashedBytes sampleFile p.1) := by
  obtain ⟨ordered, _, _, hreplay⟩ := replay_window samplePb sampleFile 4 sampleOptions
    (by decide +kernel) (fun first last hfirst hlast => by
      rw [← Option.some.inj hfirst, ← Option.some.inj hlast]
      decide)
  obtain ⟨hstatus, hcalls, _, _, _, hhash⟩ := hreplay ⟨0x4000000000000000⟩ (fun _ _ => true)
    (by decide +kernel) (by decide +kernel) fun _ _ => rfl
  refine ⟨ordered, ?_, by dsimp only; exact ⟨hstatus, hcalls, hhash⟩⟩
  have hwalk : ((ReplayEngine.create samplePb .granted sampleFile 4).replay samplePb
      (some sampleFile) {sampleOptions with speed := ⟨0x4000000000000000⟩}
      (some fun _ _ => true)).calls.map
        (fun r => (r.recordIndex, r.collectorArrivalTimestampNs)) =
      [(1, 10), (2, 10), (3, 20)] := by decide +kernel
  rw [← hwalk, hcalls, List.map_map]
  rfl

end TraceForge.Replay
