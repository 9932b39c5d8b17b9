import TraceForge.Recording.Reader

/-! The v1 format as a grammar.

A layout is a file header and a list of frames, and `Layout.bytes` is the byte string it stands
for. A frame carries the proof that its payload is small enough and parses as an event of the
right schema, so every layout is a well-formed log. Frames are numbered from zero; the only free
fields are the header's flags, time and reserved bytes, the arrival times and the payloads. -/
namespace TraceForge.Recording
open Library Telemetry
open LittleEndian (split combine)

/-! ### The file header -/

structure FileHeader where
  flags : List UInt8
  created : Int64
  reserved : List UInt8
  flags_length : flags.length = 4
  reserved_length : reserved.length = 4

namespace FileHeader

def fields (h : FileHeader) : List (List UInt8) :=
  [kFileMagic, split 2 1, split 2 32, h.flags, split 8 h.created.toUInt64.toNat, h.reserved]

def body (h : FileHeader) : List UInt8 := h.fields.flatten

def checksum (h : FileHeader) : List UInt8 := split 4 (crc32c h.body).toNat

def bytes (h : FileHeader) : List UInt8 := h.body ++ h.checksum

theorem body_length (h : FileHeader) : h.body.length = 28 := by
  simp [body, fields, kFileMagic, h.flags_length, h.reserved_length]

theorem bytes_length (h : FileHeader) : h.bytes.length = 32 := by
  rw [bytes, List.length_append, body_length, checksum, LittleEndian.split_length]

theorem bytes_eq (h : FileHeader) : h.bytes = (h.fields ++ [h.checksum]).flatten := by
  rw [List.flatten_append, List.flatten_singleton]
  rfl

theorem bytes_body (h : FileHeader) : h.bytes.take 28 = h.body := by
  rw [bytes, ← body_length h, List.take_left]

end FileHeader

/-! ### Records -/

structure Frame (pb : Protobuf) where
  arrival : Int64
  payload : List UInt8
  event : TelemetryEvent
  payload_le : payload.length ≤ kMaximumPayloadSize.toNat
  parses : pb.parseFromArray payload = some event
  schema : event.schemaVersion = kTelemetrySchemaVersion

namespace Frame
variable {pb : Protobuf}

def fields (f : Frame pb) (i : Nat) : List (List UInt8) :=
  [kRecordMagic, split 2 36, split 2 1, split 4 f.payload.length,
    split 4 (crc32c f.payload).toNat, split 8 (UInt64.ofNat i).toNat,
    split 8 f.arrival.toUInt64.toNat]

def body (f : Frame pb) (i : Nat) : List UInt8 := (f.fields i).flatten

def checksum (f : Frame pb) (i : Nat) : List UInt8 := split 4 (crc32c (f.body i)).toNat

def header (f : Frame pb) (i : Nat) : List UInt8 := f.body i ++ f.checksum i

/-- The record as number `i` of a log. -/
def bytes (f : Frame pb) (i : Nat) : List UInt8 := f.header i ++ f.payload

theorem body_length (f : Frame pb) (i : Nat) : (f.body i).length = 32 := by
  simp [body, fields, kRecordMagic]

theorem header_length (f : Frame pb) (i : Nat) : (f.header i).length = 36 := by
  rw [header, List.length_append, body_length, checksum, LittleEndian.split_length]

theorem bytes_length (f : Frame pb) (i : Nat) : (f.bytes i).length = 36 + f.payload.length := by
  rw [bytes, List.length_append, header_length]

theorem header_eq (f : Frame pb) (i : Nat) :
    f.header i = (f.fields i ++ [f.checksum i]).flatten := by
  rw [List.flatten_append, List.flatten_singleton]
  rfl

theorem header_body (f : Frame pb) (i : Nat) : (f.header i).take 32 = f.body i := by
  rw [header, ← body_length f i, List.take_left]

/-- The index entry of the record as number `i` at `offset`. -/
def entry (f : Frame pb) (i offset : Nat) : LogIndexEntry where
  recordIndex := UInt64.ofNat i
  fileOffset := UInt64.ofNat offset
  payloadSize := UInt32.ofNat f.payload.length
  payloadCrc32c := crc32c f.payload
  collectorArrivalTimestampNs := f.arrival
  sourceTimestampNs := f.event.sourceTimestampNs

def record (f : Frame pb) (i offset : Nat) : LogRecord where
  recordIndex := UInt64.ofNat i
  fileOffset := UInt64.ofNat offset
  collectorArrivalTimestampNs := f.arrival
  event := f.event

end Frame

section
variable {pb : Protobuf}

/-- Frames numbered from `i` on. -/
def framesBytes : Nat → List (Frame pb) → List UInt8
  | _, [] => []
  | i, f :: rest => f.bytes i ++ framesBytes (i + 1) rest

/-- One value per frame, from its number and its offset. -/
def numbered {β : Type} (view : Frame pb → Nat → Nat → β) : Nat → Nat → List (Frame pb) → List β
  | _, _, [] => []
  | i, offset, f :: rest =>
    view f i offset :: numbered view (i + 1) (offset + (36 + f.payload.length)) rest

theorem framesBytes_append (i : Nat) (fs gs : List (Frame pb)) :
    framesBytes i (fs ++ gs) = framesBytes i fs ++ framesBytes (i + fs.length) gs := by
  induction fs generalizing i with
  | nil => rfl
  | cons f rest ih =>
    rw [List.cons_append, framesBytes, framesBytes, ih, List.append_assoc, List.length_cons,
      Nat.add_right_comm, Nat.add_assoc]

theorem numbered_length {β : Type} (view : Frame pb → Nat → Nat → β) (i offset : Nat)
    (fs : List (Frame pb)) : (numbered view i offset fs).length = fs.length := by
  induction fs generalizing i offset with
  | nil => rfl
  | cons f rest ih => rw [numbered, List.length_cons, ih, List.length_cons]

theorem numbered_take {β : Type} (view : Frame pb → Nat → Nat → β) (i offset k : Nat)
    (fs : List (Frame pb)) :
    (numbered view i offset fs).take k = numbered view i offset (fs.take k) := by
  induction fs generalizing i offset k with
  | nil => rw [List.take_nil, numbered, List.take_nil]
  | cons f rest ih =>
    cases k with
    | zero => rfl
    | succ k => rw [numbered, List.take_succ_cons, List.take_succ_cons, numbered, ih]

/-- A view of the values is a view of the frames. -/
theorem map_numbered {β γ : Type} (g : β → γ) (view : Frame pb → Nat → Nat → β) (i offset : Nat)
    (fs : List (Frame pb)) :
    (numbered view i offset fs).map g =
      numbered (fun f i offset => g (view f i offset)) i offset fs := by
  induction fs generalizing i offset with
  | nil => rfl
  | cons f rest ih => rw [numbered, List.map_cons, ih, numbered]

theorem numbered_append {β : Type} (view : Frame pb → Nat → Nat → β) (i offset : Nat)
    (fs gs : List (Frame pb)) :
    numbered view i offset (fs ++ gs) = numbered view i offset fs ++
      numbered view (i + fs.length) (offset + (framesBytes i fs).length) gs := by
  induction fs generalizing i offset with
  | nil => rfl
  | cons f rest ih =>
    rw [List.cons_append, numbered, numbered, ih, framesBytes, List.length_append,
      Frame.bytes_length, List.length_cons, List.cons_append]
    congr 3 <;> omega

theorem numbered_getElem? {β : Type} (view : Frame pb → Nat → Nat → β) (i offset n : Nat)
    (fs : List (Frame pb)) :
    (numbered view i offset fs)[n]? =
      fs[n]?.map fun f => view f (i + n) (offset + (framesBytes i (fs.take n)).length) := by
  induction fs generalizing i offset n with
  | nil => rfl
  | cons f rest ih =>
    cases n with
    | zero => rfl
    | succ n =>
      rw [numbered, List.getElem?_cons_succ, List.getElem?_cons_succ, ih, List.take_succ_cons,
        framesBytes, List.length_append, Frame.bytes_length, Nat.add_assoc i, Nat.add_comm 1 n,
        Nat.add_assoc offset]

/-- Record `n` stands between the records before it and those behind it. -/
theorem framesBytes_at {i n : Nat} {fs : List (Frame pb)} {f : Frame pb} (h : fs[n]? = some f) :
    framesBytes i fs = framesBytes i (fs.take n) ++
      (f.bytes (i + n) ++ framesBytes (i + n + 1) (fs.drop (n + 1))) := by
  obtain ⟨hn, hf⟩ := List.getElem?_eq_some_iff.mp h
  have hsplit : fs = fs.take n ++ (f :: fs.drop (n + 1)) := by
    rw [← hf, ← List.drop_eq_getElem_cons hn, List.take_append_drop]
  have hlen : (fs.take n).length = n := List.length_take_of_le (Nat.le_of_lt hn)
  conv => lhs; rw [hsplit]
  rw [framesBytes_append, hlen, framesBytes]

end

/-! ### Whole logs -/

structure Layout (pb : Protobuf) where
  header : FileHeader
  frames : List (Frame pb)

namespace Layout
variable {pb : Protobuf}

def bytes (L : Layout pb) : List UInt8 := L.header.bytes ++ framesBytes 0 L.frames

def index (L : Layout pb) : List LogIndexEntry := numbered Frame.entry 0 32 L.frames

def records (L : Layout pb) : List LogRecord := numbered Frame.record 0 32 L.frames

def append (L : Layout pb) (fs : List (Frame pb)) : Layout pb := {L with frames := L.frames ++ fs}

/-- A log without records. -/
def headerOnly (pb : Protobuf) (h : FileHeader) : Layout pb := ⟨h, []⟩

/-- The first `n` records. -/
def prefixOf (L : Layout pb) (n : Nat) : Layout pb := {L with frames := L.frames.take n}

theorem bytes_length (L : Layout pb) :
    L.bytes.length = 32 + (framesBytes 0 L.frames).length := by
  rw [bytes, List.length_append, FileHeader.bytes_length]

theorem headerOnly_bytes (h : FileHeader) : (headerOnly pb h).bytes = h.bytes := List.append_nil _

theorem headerOnly_append (L : Layout pb) : (headerOnly pb L.header).append L.frames = L := rfl

theorem append_bytes (L : Layout pb) (fs : List (Frame pb)) :
    (L.append fs).bytes = L.bytes ++ framesBytes L.frames.length fs := by
  rw [bytes, append, framesBytes_append, Nat.zero_add, ← List.append_assoc]
  rfl

theorem append_index (L : Layout pb) (fs : List (Frame pb)) :
    (L.append fs).index =
      L.index ++ numbered Frame.entry L.frames.length L.bytes.length fs := by
  rw [index, append, numbered_append, Nat.zero_add, bytes_length]
  rfl

theorem append_records (L : Layout pb) (fs : List (Frame pb)) :
    (L.append fs).records =
      L.records ++ numbered Frame.record L.frames.length L.bytes.length fs := by
  rw [records, append, numbered_append, Nat.zero_add, bytes_length]
  rfl

theorem index_length (L : Layout pb) : L.index.length = L.frames.length :=
  numbered_length Frame.entry 0 32 L.frames

theorem records_length (L : Layout pb) : L.records.length = L.frames.length :=
  numbered_length Frame.record 0 32 L.frames

theorem prefixOf_length {L : Layout pb} {n : Nat} (hn : n ≤ L.frames.length) :
    (L.prefixOf n).frames.length = n := List.length_take_of_le hn

theorem prefixOf_index (L : Layout pb) (n : Nat) : (L.prefixOf n).index = L.index.take n :=
  (numbered_take Frame.entry 0 32 n L.frames).symm

theorem prefixOf_succ {L : Layout pb} {n : Nat} {f : Frame pb} (h : L.frames[n]? = some f) :
    L.prefixOf (n + 1) = (L.prefixOf n).append [f] := by
  rw [prefixOf, append, prefixOf, List.take_add_one, h]
  rfl

theorem prefixOf_bytes (L : Layout pb) (n : Nat) : (L.prefixOf n).bytes <+: L.bytes := by
  have hframes : framesBytes 0 L.frames = framesBytes 0 (L.frames.take n) ++
      framesBytes (0 + (L.frames.take n).length) (L.frames.drop n) := by
    rw [← framesBytes_append, List.take_append_drop]
  rw [bytes, bytes, hframes, ← List.append_assoc]
  exact List.prefix_append ..

/-- An index entry is that of the record at its number, behind the records before it. -/
theorem entry_at {L : Layout pb} {n : Nat} {entry : LogIndexEntry}
    (h : L.index[n]? = some entry) :
    ∃ f, L.frames[n]? = some f ∧ entry = f.entry n (L.prefixOf n).bytes.length := by
  rw [index, numbered_getElem?, Option.map_eq_some_iff] at h
  obtain ⟨f, hf, rfl⟩ := h
  exact ⟨f, hf, by rw [Nat.zero_add, bytes_length]; rfl⟩

theorem bytes_at {L : Layout pb} {n : Nat} {f : Frame pb} (h : L.frames[n]? = some f) :
    L.bytes = (L.prefixOf n).bytes ++
      (f.bytes n ++ framesBytes (n + 1) (L.frames.drop (n + 1))) := by
  rw [bytes, framesBytes_at h, Nat.zero_add, ← List.append_assoc]
  rfl

/-- A log that fits a file has fewer records than the file has bytes. -/
theorem frames_length_lt {L : Layout pb} {file : File} (hb : L.bytes = file.bytes) :
    L.frames.length < 2 ^ 63 := by
  have hlt := file.length_lt
  have hframes (i : Nat) (fs : List (Frame pb)) : fs.length ≤ (framesBytes i fs).length := by
    induction fs generalizing i with
    | nil => exact Nat.zero_le _
    | cons f rest ih =>
      have hrest := ih (i + 1)
      rw [framesBytes, List.length_append, f.bytes_length, List.length_cons]
      omega
  have hall := hframes 0 L.frames
  rw [← hb, L.bytes_length] at hlt
  omega

end Layout

end TraceForge.Recording
