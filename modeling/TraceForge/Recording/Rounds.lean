import TraceForge.Recording.Truncation

/-! The record loop, round by round.

`rounds` lists the loop's variables each time its body is entered. Every round begins at the end of
a well-formed record (`rounds_boundary`), so there is one round for 36 bytes at most, the offsets
are the file's and a payload is read only where the file has it (`InBounds`). What the rounds leave
behind is described by `Consistent`, whichever way the read ends. -/
namespace TraceForge.Recording
open Library Telemetry

variable {pb : Protobuf} {file : File} {options : LogReadOptions}

/-- The loop's variables at the beginning of each round. -/
def rounds (pb : Protobuf) (options : LogReadOptions) (reading : Reading) : List Reading :=
  if reading.offset < reading.result.fileSize then
    match h : readRecord pb options reading with
    | .error _ => [reading]
    | .ok next =>
      have := readRecord_consumes h
      reading :: rounds pb options next
  else []
termination_by reading.remaining

/-- The rounds of a whole read. -/
def logRounds (pb : Protobuf) (file : File) (options : LogReadOptions) : List Reading :=
  if file.size < kFileHeaderSize then []
  else match readExact kFileHeaderSize.toNat (IFStream.openFile file) with
  | none => []
  | some (fileHeader, input) =>
    match checkFileHeader fileHeader with
    | some _ => []
    | none => rounds pb options (startReading file fileHeader input)

/-- The payload buffer of a round, if it comes to that: its size, and the stream it is read from. -/
def payloadBuffer (options : LogReadOptions) (reading : Reading) : Option (UInt32 × IFStream) :=
  if reading.result.index.length = options.maximumRecords.toNat then none
  else if reading.result.fileSize - reading.offset < kRecordHeaderSize then none
  else match readExact kRecordHeaderSize.toNat reading.input with
  | none => none
  | some (recordHeader, input) =>
    match checkRecordHeader recordHeader with
    | some _ => none
    | none =>
      let payloadSize := (decodeLittleEndian 4 recordHeader 8).toUInt32
      if reading.result.fileSize - reading.offset - kRecordHeaderSize < payloadSize.toUInt64 then
        none
      else some (payloadSize, input)

/-! ### The rounds of a read -/

theorem rounds_error {reading : Reading} {result : LogReadResult}
    (hlt : reading.offset < reading.result.fileSize)
    (h : readRecord pb options reading = .error result) :
    rounds pb options reading = [reading] := by
  rw [rounds, if_pos hlt]
  split
  · rfl
  · rename_i heq
    rw [h] at heq
    cases heq

theorem rounds_ok {reading next : Reading} (hlt : reading.offset < reading.result.fileSize)
    (h : readRecord pb options reading = .ok next) :
    rounds pb options reading = reading :: rounds pb options next := by
  rw [rounds, if_pos hlt]
  split
  · rename_i heq
    rw [h] at heq
    cases heq
  · rename_i heq
    rw [h] at heq
    cases heq
    rfl

/-- A round from a boundary that goes on has found a record there. -/
theorem readRecord_next {L : Layout pb} {rest : List UInt8} {next : Reading}
    (hb : file.bytes = L.bytes ++ rest)
    (h : readRecord pb options (boundary file options L) = .ok next) :
    ∃ (f : Frame pb) (tail : List UInt8), rest = f.bytes L.frames.length ++ tail ∧
      next = boundary file options (L.append [f]) := by
  have hlimit : L.frames.length ≠ options.maximumRecords.toNat := by
    intro hlimit
    rw [readRecord, if_pos (by rw [← hlimit]; exact L.index_length)] at h
    cases h
  rw [readRecord_inspect hb hlimit] at h
  split at h
  · cases h
  rename_i header payload event hok
  cases h
  obtain ⟨f, tail, hrest, rfl, rfl, rfl⟩ := frame_of_inspect hok
  exact ⟨f, tail, hrest, accept_boundary L f⟩

/-- **Every round** begins at a boundary with bytes behind it, and takes 36 of them or is the
last. -/
theorem rounds_boundary (options : LogReadOptions) (L : Layout pb) (rest : List UInt8)
    (hb : file.bytes = L.bytes ++ rest) :
    (rounds pb options (boundary file options L)).length ≤ rest.length / 36 + 1 ∧
      ∀ reading ∈ rounds pb options (boundary file options L), ∃ (M : Layout pb)
        (tail : List UInt8), file.bytes = M.bytes ++ tail ∧ tail ≠ [] ∧
          reading = boundary file options M := by
  induction hlen : rest.length using Nat.strongRecOn generalizing L rest with
  | ind size ih =>
    have hoffset := boundary_offset_lt options hb
    by_cases hnil : rest = []
    · rw [rounds, if_neg (by rw [hoffset]; exact not_not.mpr hnil)]
      exact ⟨Nat.zero_le _, fun reading h => absurd h List.not_mem_nil⟩
    have hlt := hoffset.mpr hnil
    cases hround : readRecord pb options (boundary file options L) with
    | error result =>
      rw [rounds_error hlt hround]
      refine ⟨Nat.le_add_left 1 _, fun reading h => ?_⟩
      rw [List.mem_singleton.mp h]
      exact ⟨L, rest, hb, hnil, rfl⟩
    | ok next =>
      obtain ⟨f, tail, hrest, rfl⟩ := readRecord_next hb hround
      rw [hrest, List.length_append, f.bytes_length] at hlen
      have hb' : file.bytes = (L.append [f]).bytes ++ tail := by
        rw [hb, hrest, L.append_bytes, framesBytes, framesBytes, List.append_nil,
          List.append_assoc]
      obtain ⟨hcount, hall⟩ := ih tail.length (by omega) (L.append [f]) tail hb' rfl
      rw [rounds_ok hlt hround]
      refine ⟨?_, List.forall_mem_cons.mpr ⟨⟨L, rest, hb, hnil, rfl⟩, hall⟩⟩
      rw [List.length_cons]
      omega

/-- What is read of a log are rounds from the boundary behind its file header, if that passes. -/
theorem logRounds_boundary (pb : Protobuf) (file : File) (options : LogReadOptions) :
    logRounds pb file options = [] ∨ ∃ (h : FileHeader) (rest : List UInt8),
      file.bytes = (Layout.headerOnly pb h).bytes ++ rest ∧
        logRounds pb file options = rounds pb options (boundary file options (.headerOnly pb h)) := by
  have hshort : file.size < kFileHeaderSize ↔ file.bytes.length < 32 := by
    rw [UInt64.lt_iff_toNat_lt, file.size_toNat, kFileHeaderSize_toNat]
  unfold logRounds
  by_cases h32 : file.bytes.length < 32
  · exact .inl (if_pos (hshort.mpr h32))
  rw [if_neg (mt hshort.mp h32)]
  have hread : readExact kFileHeaderSize.toNat (IFStream.openFile file) =
      some (file.bytes.take 32, ⟨file, 32, false, false⟩) :=
    readExact_window [] file.bytes rfl rfl (Nat.not_lt.mp h32)
  rw [hread]
  cases hcheck : checkFileHeader (file.bytes.take 32) with
  | some message => exact .inl (by simp only [hcheck])
  | none =>
    obtain ⟨h, hbytes⟩ := fileHeader_of_check (by rw [List.length_take]; omega) hcheck
    refine .inr ⟨h, file.bytes.drop 32, ?_, ?_⟩
    · rw [Layout.headerOnly_bytes, hbytes, List.take_append_drop]
    · simp only [hcheck]
      rw [← hbytes, startReading_boundary]

/-! ### Offsets and buffers -/

/-- A round's sums and differences are the integers', its reads succeed, and its payload buffer is
small and inside the file. -/
structure InBounds (file : File) (options : LogReadOptions) (reading : Reading) : Prop where
  offset_lt : reading.offset.toNat < file.bytes.length
  left : (reading.result.fileSize - reading.offset).toNat =
    file.bytes.length - reading.offset.toNat
  header : 36 ≤ file.bytes.length - reading.offset.toNat →
    readExact kRecordHeaderSize.toNat reading.input ≠ none ∧
      (reading.result.fileSize - reading.offset - kRecordHeaderSize).toNat =
        file.bytes.length - reading.offset.toNat - 36
  payload : ∀ payloadSize input, payloadBuffer options reading = some (payloadSize, input) →
    payloadSize ≤ kMaximumPayloadSize ∧
      reading.offset.toNat + 36 + payloadSize.toNat ≤ file.bytes.length ∧
      readExact payloadSize.toNat input ≠ none ∧
      (kRecordHeaderSize + payloadSize.toUInt64).toNat = 36 + payloadSize.toNat ∧
      (reading.offset + (kRecordHeaderSize + payloadSize.toUInt64)).toNat =
        reading.offset.toNat + 36 + payloadSize.toNat
  expected : reading.expectedRecordIndex.toNat + 1 < 2 ^ 64

theorem checkRecordHeader_size {header : List UInt8} (h : checkRecordHeader header = none) :
    (decodeLittleEndian 4 header 8).toUInt32 ≤ kMaximumPayloadSize := by
  unfold checkRecordHeader at h
  split_ifs at h with _ _ _ hmaximum
  exact UInt32.not_lt.mp hmaximum

theorem boundary_inBounds {M : Layout pb} {tail : List UInt8}
    (hb : file.bytes = M.bytes ++ tail) (hne : tail ≠ []) :
    InBounds file options (boundary file options M) := by
  have hlt := file.length_lt
  have hlen : file.bytes.length = M.bytes.length + tail.length := by
    rw [hb, List.length_append]
  have hpos := List.length_pos_iff.mpr hne
  have hoffset : (UInt64.ofNat M.bytes.length).toNat = M.bytes.length := (layout_validBytes hb).1
  have hleft : (file.size - UInt64.ofNat M.bytes.length).toNat = tail.length := by
    rw [UInt64.toNat_sub_of_le _ _ (UInt64.le_iff_toNat_le.mpr (by
      rw [hoffset, file.size_toNat]; omega)), hoffset, file.size_toNat]
    omega
  have hbehind (h36 : 36 ≤ tail.length) :
      (file.size - UInt64.ofNat M.bytes.length - kRecordHeaderSize).toNat = tail.length - 36 := by
    rw [UInt64.toNat_sub_of_le _ _ (UInt64.le_iff_toNat_le.mpr (by
      rw [hleft, kRecordHeaderSize_toNat]; exact h36)), hleft, kRecordHeaderSize_toNat]
  have hheader (h36 : 36 ≤ tail.length) :
      readExact kRecordHeaderSize.toNat (boundary file options M).input =
        some (tail.take 36, ⟨file, M.bytes.length + 36, false, false⟩) :=
    readExact_window _ _ hb rfl h36
  refine
    { offset_lt := ?_
      left := ?_
      header := fun h36 => ?_
      payload := fun payloadSize input hbuffer => ?_
      expected := ?_ }
  · show (UInt64.ofNat M.bytes.length).toNat < _
    omega
  · show (file.size - UInt64.ofNat M.bytes.length).toNat =
      file.bytes.length - (UInt64.ofNat M.bytes.length).toNat
    omega
  · have h36 : 36 ≤ file.bytes.length - (UInt64.ofNat M.bytes.length).toNat := h36
    have htail : 36 ≤ tail.length := by omega
    refine ⟨by rw [hheader htail]; exact Option.some_ne_none _, (hbehind htail).trans ?_⟩
    show _ = file.bytes.length - (UInt64.ofNat M.bytes.length).toNat - 36
    omega
  · have hoff : (boundary file options M).offset = UInt64.ofNat M.bytes.length := rfl
    have hshort : ¬(boundary file options M).result.fileSize - (boundary file options M).offset <
        kRecordHeaderSize → 36 ≤ tail.length := by
      intro h
      rw [UInt64.lt_iff_toNat_lt, kRecordHeaderSize_toNat] at h
      exact Nat.le_trans (Nat.not_lt.mp h) (Nat.le_of_eq hleft)
    unfold payloadBuffer at hbuffer
    split at hbuffer
    · cases hbuffer
    split at hbuffer
    · cases hbuffer
    rename_i hfull
    have h36 := hshort hfull
    rw [hheader h36] at hbuffer
    simp only at hbuffer
    split at hbuffer
    · cases hbuffer
    rename_i hcheck
    split at hbuffer
    · cases hbuffer
    rename_i hroom
    cases hbuffer
    have hmaximum := checkRecordHeader_size hcheck
    generalize (decodeLittleEndian 4 (tail.take 36) 8).toUInt32 = payloadSize at hroom hmaximum ⊢
    have hbelow : payloadSize.toNat ≤ tail.length - 36 := by
      rw [UInt64.lt_iff_toNat_lt, UInt32.toNat_toUInt64] at hroom
      exact Nat.le_trans (Nat.not_lt.mp hroom) (Nat.le_of_eq (hbehind h36))
    have hsplit : file.bytes = (M.bytes ++ tail.take 36) ++ tail.drop 36 := by
      rw [List.append_assoc, List.take_append_drop, hb]
    have hread : readExact payloadSize.toNat ⟨file, M.bytes.length + 36, false, false⟩ =
        some ((tail.drop 36).take payloadSize.toNat,
          ⟨file, M.bytes.length + 36 + payloadSize.toNat, false, false⟩) :=
      readExact_window _ _ hsplit (by rw [List.length_append, List.length_take]; omega)
        (by rw [List.length_drop]; omega)
    have hsum : (kRecordHeaderSize + payloadSize.toUInt64).toNat = 36 + payloadSize.toNat := by
      have hsize := payloadSize.toNat_lt
      rw [UInt64.toNat_add, UInt32.toNat_toUInt64, kRecordHeaderSize_toNat]
      omega
    refine ⟨hmaximum, ?_, by rw [hread]; exact Option.some_ne_none _, hsum, ?_⟩
    · rw [hoff, hoffset]
      omega
    · rw [UInt64.toNat_add, hsum, hoff, hoffset]
      omega
  · have hframes := Layout.frames_length_lt (layout_validBytes hb).2.symm
    show (UInt64.ofNat M.frames.length).toNat + 1 < 2 ^ 64
    rw [UInt64.toNat_ofNat']
    omega

/-! ### What a read leaves behind -/

/-- What a record and its index entry both say. -/
def LogRecord.summary (record : LogRecord) : UInt64 × UInt64 × Int64 × Int64 :=
  (record.recordIndex, record.fileOffset, record.collectorArrivalTimestampNs,
    record.event.sourceTimestampNs)

def LogIndexEntry.summary (entry : LogIndexEntry) : UInt64 × UInt64 × Int64 × Int64 :=
  (entry.recordIndex, entry.fileOffset, entry.collectorArrivalTimestampNs, entry.sourceTimestampNs)

/-- The result's offsets, counts and records agree, however the read ended. -/
structure LogReadResult.Consistent (file : File) (options : LogReadOptions)
    (result : LogReadResult) : Prop where
  fileSize : result.fileSize.toNat = file.bytes.length
  status : result.status ≠ .ioError
  recordIndex : ∀ (i : Nat) (entry : LogIndexEntry), result.index[i]? = some entry →
    entry.recordIndex.toNat = i
  first : ∀ entry : LogIndexEntry, result.index[0]? = some entry → entry.fileOffset.toNat = 32
  next : ∀ (i : Nat) (entry after : LogIndexEntry), result.index[i]? = some entry →
    result.index[i + 1]? = some after →
    after.fileOffset.toNat = entry.fileOffset.toNat + 36 + entry.payloadSize.toNat
  refused : headerRefusal file ≠ none → result.validBytes = 0 ∧ result.index = []
  validBytes : headerRefusal file = none →
    result.validBytes.toNat = result.index.getLast?.elim 32 LogIndexEntry.ends
  validBytes_le : result.validBytes ≤ result.fileSize
  errorOffset : headerRefusal file = none → result.status ≠ .complete →
    result.errorOffset = result.validBytes
  records : if options.retainRecords then
      result.records.map LogRecord.summary = result.index.map LogIndexEntry.summary
    else result.records = []

theorem verdict_status {limit n : Nat} {rest : List UInt8} {v : LogReadStatus × String}
    (h : verdict pb limit n rest = some v) : v.1 ≠ .ioError := by
  unfold verdict at h
  split at h
  · cases h
    exact fun h => by cases h
  split at h
  · cases h
    exact fun h => by cases h
  split at h
  · rename_i herror
    cases h
    rcases inspect_error herror with h | h | h <;> rw [h] <;> exact fun h => by cases h
  · cases h

/-- The entry of a record, with its offset as an integer. -/
theorem entry_offset {L : Layout pb} {tail : List UInt8} (hb : file.bytes = L.bytes ++ tail) {i : Nat}
    {entry : LogIndexEntry} (h : L.index[i]? = some entry) :
    entry.recordIndex.toNat = i ∧ entry.fileOffset.toNat = (L.prefixOf i).bytes.length ∧
      entry.ends = (L.prefixOf (i + 1)).bytes.length := by
  obtain ⟨f, hf, rfl⟩ := Layout.entry_at h
  have hframes := Layout.frames_length_lt (layout_validBytes hb).2.symm
  have hi := (List.getElem?_eq_some_iff.mp hf).1
  have hfile := file.length_lt
  have hall := (L.prefixOf_bytes (i + 1)).length_le
  have hnext : (L.prefixOf (i + 1)).bytes.length =
      (L.prefixOf i).bytes.length + (36 + f.payload.length) := by
    rw [Layout.prefixOf_succ hf, Layout.append_bytes, framesBytes, framesBytes, List.append_nil,
      List.length_append, f.bytes_length]
  rw [hb, List.length_append] at hfile
  refine ⟨?_, ?_, ?_⟩
  · show (UInt64.ofNat i).toNat = i
    rw [UInt64.toNat_ofNat']
    omega
  · show (UInt64.ofNat (L.prefixOf i).bytes.length).toNat = _
    rw [UInt64.toNat_ofNat']
    omega
  · rw [f.entry_ends _ _ (by omega), hnext]

theorem result_consistent {L : Layout pb} {tail : List UInt8} {v : LogReadStatus × String}
    (hb : file.bytes = L.bytes ++ tail) (hv : v.1 ≠ .ioError) (hheader : headerRefusal file = none) :
    (L.result file options v).Consistent file options := by
  have hvalid := (layout_validBytes hb).1
  have hlen : file.bytes.length = L.bytes.length + tail.length := by
    rw [hb, List.length_append]
  have hlt := file.length_lt
  refine
    { fileSize := file.size_toNat
      status := hv
      recordIndex := fun i entry h => (entry_offset hb h).1
      first := fun entry h => ?_
      next := fun i entry after h hafter => ?_
      refused := fun h => absurd hheader h
      validBytes := fun _ => ?_
      validBytes_le := ?_
      errorOffset := fun _ hstatus => if_neg hstatus
      records := ?_ }
  · rw [(entry_offset hb h).2.1, Layout.bytes_length]
    rfl
  · exact (entry_offset hb hafter).2.1.trans (entry_offset hb h).2.2.symm
  · have hlast := last_ends 0 32 L.frames (by rw [L.bytes_length] at hlen; omega)
    show (UInt64.ofNat L.bytes.length).toNat = _
    rw [hvalid, L.bytes_length]
    exact hlast.symm
  · show UInt64.ofNat L.bytes.length ≤ file.size
    rw [UInt64.le_iff_toNat_le, hvalid, file.size_toNat]
    omega
  · show if options.retainRecords then List.map _ (if options.retainRecords then L.records else []) =
      List.map _ L.index else (if options.retainRecords then L.records else []) = []
    cases options.retainRecords
    · rfl
    · simp only [if_true]
      rw [Layout.records, Layout.index, map_numbered, map_numbered]
      rfl

/-- **Every read** of a file goes through a bounded number of rounds, each within the file's
bounds, and its result is consistent; whether records are retained changes nothing else. -/
theorem readLog_invariants (pb : Protobuf) (file : File) (options : LogReadOptions) :
    let result := readLog pb .granted file options
    (logRounds pb file options).length ≤ (file.bytes.length - 32) / 36 + 1 ∧
      (∀ reading ∈ logRounds pb file options, InBounds file options reading) ∧
      result.Consistent file options ∧
      {result with records := []} =
        readLog pb .granted file {options with retainRecords := false} := by
  intro result
  have hrounds : (logRounds pb file options).length ≤ (file.bytes.length - 32) / 36 + 1 ∧
      ∀ reading ∈ logRounds pb file options, InBounds file options reading := by
    rcases logRounds_boundary pb file options with hnone | ⟨h, rest, hb, hrounds⟩
    · rw [hnone]
      exact ⟨Nat.zero_le _, fun reading h => absurd h List.not_mem_nil⟩
    · obtain ⟨hcount, hall⟩ := rounds_boundary options _ rest hb
      have hlen : file.bytes.length = 32 + rest.length := by
        rw [hb, List.length_append, Layout.headerOnly_bytes, h.bytes_length]
      rw [hrounds]
      refine ⟨hcount.trans (by omega), fun reading hreading => ?_⟩
      obtain ⟨M, tail, hM, hne, rfl⟩ := hall reading hreading
      exact boundary_inBounds hM hne
  refine ⟨hrounds.1, hrounds.2, ?_⟩
  cases hheader : headerRefusal file with
  | some message =>
    have hread (options : LogReadOptions) : readLog pb .granted file options =
        makeFailure {fileSize := file.size} .corrupt 0 message := readLog_refused hheader
    rw [show result = _ from hread options, hread]
    refine ⟨
      { fileSize := file.size_toNat
        status := fun h => by cases h
        recordIndex := fun i entry h => by cases h
        first := fun entry h => by cases h
        next := fun i entry after h => by cases h
        refused := fun _ => ⟨rfl, rfl⟩
        validBytes := fun h => by rw [hheader] at h; cases h
        validBytes_le := UInt64.le_iff_toNat_le.mpr (Nat.zero_le _)
        errorOffset := fun h => by rw [hheader] at h; cases h
        records := ?_ }, rfl⟩
    show if options.retainRecords then List.map _ [] = List.map _ [] else _
    cases options.retainRecords <;> rfl
  | none =>
    obtain ⟨L, tail, v, hb, hn, hv, hread⟩ := readLog_cases pb file options hheader
    have hread' : readLog pb .granted file {options with retainRecords := false} =
        L.result file {options with retainRecords := false} v := readLog_layout hb hn hv
    refine ⟨?_, ?_⟩
    · rw [show result = _ from hread]
      exact result_consistent hb (verdict_status hv) hheader
    · rw [show result = _ from hread, hread']
      rfl

end TraceForge.Recording
