import TraceForge.Generator.WorkloadGenerator
import TraceForge.Library.Hashing
import TraceForge.Replay.Exits

/-! What the two hashes tell apart.

A replay hashes its records, each written as its number, its timestamp and its counted payload; a
workload hashes its events, each counted. Both are FNV-1a, whose prime is odd. -/
namespace TraceForge.Replay
open Library Telemetry Recording Hashing
open LittleEndian (split)

variable {pb : Protobuf} {content : File}

/-- What a replay hashes of a record. -/
structure Replayed where
  recordIndex : UInt64
  collectorArrivalTimestampNs : Int64
  payload : List UInt8
deriving DecidableEq

namespace Replayed

def bytes (r : Replayed) : List UInt8 :=
  split 8 r.recordIndex.toNat ++ split 8 r.collectorArrivalTimestampNs.toUInt64.toNat ++
    counted 4 r.payload

/-- A payload whose size a record header can hold. -/
def Sized (r : Replayed) : Prop := r.payload.length < 2 ^ 32

/-- One byte of the payload, the timestamp or the number has changed. -/
inductive ChangedByte (r : Replayed) : Replayed → Prop
  | payload {payload : List UInt8} (h : DifferOnce r.payload payload) :
    ChangedByte r {r with payload := payload}
  | timestamp {timestamp : Int64} (h : DifferOnce
      (split 8 r.collectorArrivalTimestampNs.toUInt64.toNat) (split 8 timestamp.toUInt64.toNat)) :
    ChangedByte r {r with collectorArrivalTimestampNs := timestamp}
  | recordIndex {recordIndex : UInt64}
      (h : DifferOnce (split 8 r.recordIndex.toNat) (split 8 recordIndex.toNat)) :
    ChangedByte r {r with recordIndex := recordIndex}

theorem ChangedByte.bytes {r r' : Replayed} (h : ChangedByte r r') :
    DifferOnce r.bytes r'.bytes := by
  cases h with
  | payload h => exact h.counted.append_left _
  | timestamp h => exact (h.append_left _).append_right _
  | recordIndex h => exact (h.append_right _).append_right _

theorem bytes_ne_nil (r : Replayed) : r.bytes ≠ [] := by
  intro h
  have hlength := congrArg List.length h
  simp only [Replayed.bytes, List.length_append, LittleEndian.split_length, List.length_nil]
    at hlength
  omega

/-- **A record shows where it ends.** -/
theorem bytes_selfDelimiting : SelfDelimiting Sized Replayed.bytes := by
  intro a b rest rest' ha hb heq
  have hword (v : UInt64) : v.toNat < 256 ^ 8 := v.toNat_lt
  simp only [Replayed.bytes, List.append_assoc] at heq
  obtain ⟨hindex, heq⟩ := split_selfDelimiting 8 _ _ _ _ (hword _) (hword _) heq
  obtain ⟨htimestamp, heq⟩ := split_selfDelimiting 8 _ _ _ _ (hword _) (hword _) heq
  obtain ⟨hpayload, hrest⟩ := counted_selfDelimiting 4 _ _ _ _ ha hb heq
  have hsame : a.collectorArrivalTimestampNs = b.collectorArrivalTimestampNs :=
    congrArg Int64.ofUInt64 (UInt64.toNat_inj.mp htimestamp)
  refine ⟨?_, hrest⟩
  cases a
  cases b
  cases UInt64.toNat_inj.mp hindex
  cases hsame
  cases hpayload
  rfl

end Replayed

/-- The prime is odd, so it has an inverse. -/
theorem hashByte_lossless : Lossless hashByte :=
  xorMultiply_lossless (by decide : kFnvPrime * 14886173955864302971 = 1)

/-! ### What a replay reports -/

/-- What is hashed of an indexed record. -/
def replayed (content : File) (entry : LogIndexEntry) : Replayed where
  recordIndex := entry.recordIndex
  collectorArrivalTimestampNs := entry.collectorArrivalTimestampNs
  payload := (content.bytes.drop (entry.fileOffset.toNat + 36)).take entry.payloadSize.toNat

theorem replayed_sized (content : File) (entry : LogIndexEntry) :
    (replayed content entry).Sized := by
  have hlength : (replayed content entry).payload.length ≤ entry.payloadSize.toNat :=
    List.length_take_le ..
  exact Nat.lt_of_le_of_lt hlength entry.payloadSize.toNat_lt

theorem hashedBytes_replayed {entry : LogIndexEntry} {payload : List UInt8}
    (h : payloadAt content entry = some payload) :
    hashedBytes content entry = (replayed content entry).bytes := by
  have hlength : (replayed content entry).payload.length = entry.payloadSize.toNat := by
    by_contra hshort
    exact Option.some_ne_none payload (h.symm.trans (if_neg hshort))
  rw [Replayed.bytes, counted, hlength, ← List.append_assoc]
  rfl

/-- A delivery hashes its record, or ends the replay with an error. -/
theorem deliver_hash (pb : Protobuf) (options : ReplayOptions) (consumer : ReplayConsumer)
    {entry : LogIndexEntry} {payload : List UInt8} (h : payloadAt content entry = some payload)
    (d : Delivery) :
    match d.deliver pb options consumer entry payload with
    | .ok d' => d'.result.hash = (replayed content entry).bytes.foldl hashByte d.result.hash
    | .error d' => d'.result.status ≠ .complete := by
  have hhash := hashRecord_stored h d.result.hash
  rw [hashedBytes_replayed h] at hhash
  by_cases hintact : ∃ event, Intact pb entry payload event
  · obtain ⟨event, hintact⟩ := hintact
    rw [deliver_intact options consumer hintact d]
    cases consumer.all fun consume => consume d.calls (recordOf entry event) with
    | false => exact fun h => by cases h
    | true => exact hhash
  · obtain ⟨status, message, hstatus, hdeliver⟩ :=
      deliver_broken options consumer (not_exists.mp hintact) d
    rw [hdeliver]
    exact hstatus

/-- **A walk that completes** has hashed every entry it was given. -/
theorem walk_hash (options : ReplayOptions) (consumer : ReplayConsumer)
    (entries : List LogIndexEntry)
    (hwindow : ∀ entry ∈ entries, pastWindow options entry = false) (d : Delivery)
    (h : (replayPayloads pb options consumer content entries d).result.status = .complete) :
    (replayPayloads pb options consumer content entries d).result.hash =
      ((entries.map (replayed content)).flatMap Replayed.bytes).foldl hashByte d.result.hash := by
  induction entries generalizing d with
  | nil => rfl
  | cons entry rest ih =>
    obtain ⟨hin, hins⟩ := List.forall_mem_cons.mp hwindow
    cases hpayload : payloadAt content entry with
    | none =>
      rw [replayPayloads_unreadable hin hpayload] at h
      cases h
    | some payload =>
      have hdeliver := deliver_hash pb options consumer hpayload d
      cases hresult : d.deliver pb options consumer entry payload with
      | error d' =>
        rw [replayPayloads_error hin hpayload hresult] at h
        rw [hresult] at hdeliver
        exact absurd h hdeliver
      | ok d' =>
        rw [replayPayloads_ok hin hpayload hresult] at h ⊢
        rw [hresult] at hdeliver
        rw [ih hins d' h, hdeliver, List.map_cons, List.flatMap_cons, List.foldl_append]

/-- A replay of these records has completed with this hash. -/
def Reported (pb : Protobuf) (records : List Replayed) (hash : UInt64) : Prop :=
  ∃ access file maximumRecords content options consumer,
    let engine := ReplayEngine.create pb access file maximumRecords
    let replay := engine.replay pb (some content) options consumer
    replay.result.status = .complete ∧ replay.result.hash = hash ∧
      records = (engine.selected options).map (replayed content)

/-- A replay that has completed has passed its checks. -/
theorem replay_complete {engine : ReplayEngine} {content : Option File} {options : ReplayOptions}
    {consumer : ReplayConsumer}
    (h : (engine.replay pb content options consumer).result.status = .complete) :
    engine.good = true ∧ options.speed.isFinite = true ∧ options.speed.lessThan 0 = false ∧
      (options.untilCollectorTimestampNs.any fun last =>
        options.fromCollectorTimestampNs.any fun first => decide (last ≤ first)) = false := by
  unfold ReplayEngine.replay ReplayEngine.replayWith at h
  simp only at h
  split at h
  · cases h
  rename_i hgood
  split at h
  · cases h
  rename_i hspeed
  split at h
  · cases h
  rename_i hordered
  obtain ⟨hfinite, hnonnegative⟩ := Bool.or_eq_false_iff.mp (Bool.eq_false_iff.mpr hspeed)
  exact ⟨by simpa using hgood, by simpa using hfinite, hnonnegative,
    Bool.eq_false_iff.mpr hordered⟩

/-- **The reported hash** is that of the selected records. -/
theorem reported_hash {records : List Replayed} {hash : UInt64} (h : Reported pb records hash) :
    hash = fnv1a (records.flatMap Replayed.bytes) ∧ ∀ r ∈ records, r.Sized := by
  obtain ⟨access, file, maximumRecords, content, options, consumer, hstatus, rfl, rfl⟩ := h
  refine ⟨?_, fun r hr => ?_⟩
  · obtain ⟨hgood, hfinite, hnonnegative, hordered⟩ := replay_complete hstatus
    rw [replay_walk pb access file maximumRecords consumer content hgood hfinite hnonnegative
      hordered] at hstatus ⊢
    exact walk_hash options consumer _
      (fun entry h => inWindow_pastWindow (List.mem_filter.mp h).2) _ hstatus
  · obtain ⟨entry, _, rfl⟩ := List.mem_map.mp hr
    exact replayed_sized content entry

/-! ### What a workload reports -/

/-- FNV-1a as the generator has it. -/
def eventHash (bytes : List UInt8) : UInt64 :=
  bytes.foldl Generator.hashByte Generator.kFnvOffsetBasis

theorem generatorHashByte_lossless : Lossless Generator.hashByte :=
  xorMultiply_lossless (by decide : Generator.kFnvPrime * 14886173955864302971 = 1)

theorem hashSize_split (count : Nat) (hash size : UInt64) :
    Generator.hashSize count hash size =
      (split count size.toNat).foldl Generator.hashByte hash := by
  induction count generalizing hash size with
  | zero => rfl
  | succ count ih =>
    rw [Generator.hashSize, ih, low_byte, next_byte]
    rfl

theorem hashEvents_encodings {events : List TelemetryEvent} {start hash : UInt64}
    (h : events.foldlM (Generator.hashEvent pb) start = .ok hash) :
    ∃ encodings : List (List UInt8), events.map pb.serializeToString = encodings.map some ∧
      hash = (encodings.flatMap (counted 8)).foldl Generator.hashByte start := by
  induction events generalizing start with
  | nil =>
    cases h
    exact ⟨[], rfl, rfl⟩
  | cons event rest ih =>
    rw [List.foldlM_cons, Generator.hashEvent] at h
    cases hencoded : pb.serializeToString event with
    | none =>
      rw [hencoded] at h
      cases h
    | some encoded =>
      rw [hencoded] at h
      obtain ⟨encodings, hall, hhash⟩ := ih h
      have hsize : split 8 (UInt64.ofNat encoded.length).toNat = split 8 encoded.length := by
        rw [UInt64.toNat_ofNat']
        exact LittleEndian.split_mod 8 _
      refine ⟨encoded :: encodings, by rw [List.map_cons, List.map_cons, hencoded, hall], ?_⟩
      rw [hhash, hashSize_split, hsize, List.flatMap_cons, List.foldl_append, counted,
        List.foldl_append]

/-! ### What they tell apart -/

/-- Records of which one has changed in one byte. -/
def ChangedRecord (a b : List Replayed) : Prop :=
  ∃ front r r' back, r.ChangedByte r' ∧ a = front ++ r :: back ∧ b = front ++ r' :: back

theorem ChangedRecord.bytes {a b : List Replayed} (h : ChangedRecord a b) :
    DifferOnce (a.flatMap Replayed.bytes) (b.flatMap Replayed.bytes) := by
  obtain ⟨front, r, r', back, hchanged, rfl, rfl⟩ := h
  simp only [List.flatMap_append, List.flatMap_cons]
  exact (hchanged.bytes.append_right _).append_left _

/-- **The hashes separate.** Both are fed byte streams that can be taken apart, and neither loses a
difference in one byte; what is reported is the hash of the selected records, and of the serialized
events. So a byte of one selected record cannot change without the hash. -/
theorem hashes_separate (pb : Protobuf) :
    Separates Replayed.Sized Replayed.bytes fnv1a ∧
    Separates (fun encoded : List UInt8 => encoded.length < 2 ^ 64) (counted 8) eventHash ∧
    (∀ records hash, Reported pb records hash →
      hash = fnv1a (records.flatMap Replayed.bytes) ∧ ∀ r ∈ records, r.Sized) ∧
    (∀ a b hash hash', Reported pb a hash → Reported pb b hash' → ChangedRecord a b →
      hash ≠ hash') ∧
    ∀ events hash, Generator.stableEventHash pb events = .ok hash →
      ∃ encodings : List (List UInt8), events.map pb.serializeToString = encodings.map some ∧
        hash = eventHash (encodings.flatMap (counted 8)) := by
  have hreplay (a b : List UInt8) (h : DifferOnce a b) : fnv1a a ≠ fnv1a b :=
    hashByte_lossless.foldl_ne kFnvOffsetBasis h
  refine ⟨⟨fun a b ha hb heq => ?_, hreplay⟩, ⟨fun a b ha hb heq => ?_, fun a b h => ?_⟩,
    fun _ _ => reported_hash, fun a b hash hash' ha hb hchanged => ?_,
    fun _ _ => hashEvents_encodings⟩
  · exact Replayed.bytes_selfDelimiting.flatMap_inj (fun r _ => r.bytes_ne_nil) ha hb heq
  · have hne (encoded : List UInt8) : counted 8 encoded ≠ [] := List.cons_ne_nil _ _
    exact (counted_selfDelimiting 8).flatMap_inj (fun encoded _ => hne encoded) ha hb heq
  · exact generatorHashByte_lossless.foldl_ne Generator.kFnvOffsetBasis h
  · rw [(reported_hash ha).1, (reported_hash hb).1]
    exact hreplay _ _ hchanged.bytes

/-- A log of two records, of which the second arrives first. -/
def hashedFile (arrival : Int64) : File :=
  (LogWriter.writeLog samplePb (.fresh "log" fun _ => none) {createdUnixNs := 7} 0
    [(Wire.sampleEvent 1, 30), (Wire.sampleEvent 1, arrival)]).output.visible

def hashedEngine (arrival : Int64) : ReplayEngine := .create samplePb .granted (hashedFile arrival) 2

def hashedReplay (arrival : Int64) : Delivery :=
  (hashedEngine arrival).replay samplePb (some (hashedFile arrival)) {} none

theorem hashedReplay_reported {arrival : Int64}
    (h : (hashedReplay arrival).result.status = .complete) :
    Reported samplePb (((hashedEngine arrival).selected {}).map (replayed (hashedFile arrival)))
      (hashedReplay arrival).result.hash := by
  unfold hashedReplay hashedEngine at h ⊢
  generalize hashedFile arrival = file at h ⊢
  exact ⟨.granted, file, 2, file, {}, none, h, rfl, rfl⟩

/-- Two logs that differ in a byte of one timestamp: both replays complete, with different hashes. -/
theorem hashes_separate_sample :
    (hashedReplay 10).result.status = .complete ∧ (hashedReplay 11).result.status = .complete ∧
      (hashedReplay 10).result.hash ≠ (hashedReplay 11).result.hash := by
  have hfirst : (hashedReplay 10).result.status = .complete := by decide +kernel
  have hsecond : (hashedReplay 11).result.status = .complete := by decide +kernel
  obtain ⟨_, _, _, hchanged, _⟩ := hashes_separate samplePb
  refine ⟨hfirst, hsecond, hchanged _ _ _ _ (hashedReplay_reported hfirst)
    (hashedReplay_reported hsecond) ?_⟩
  let record (arrival : Int64) : Replayed := ⟨1, arrival, Wire.encode (Wire.sampleEvent 1)⟩
  let last : Replayed := ⟨0, 30, Wire.encode (Wire.sampleEvent 1)⟩
  have honce : DifferOnce (split 8 (10 : Int64).toUInt64.toNat)
      (split 8 (11 : Int64).toUInt64.toNat) :=
    ⟨[], 10, 11, List.replicate 7 0, by decide, by decide +kernel, by decide +kernel⟩
  refine ⟨[], record 10, record 11, [last], .timestamp honce, ?_, ?_⟩
  · show ((hashedEngine 10).selected {}).map (replayed (hashedFile 10)) = [record 10, last]
    decide +kernel
  · show ((hashedEngine 11).selected {}).map (replayed (hashedFile 11)) = [record 11, last]
    decide +kernel

end TraceForge.Replay
