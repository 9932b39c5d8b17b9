import Mathlib.Tactic.SplitIfs
import TraceForge.Recording.Layout

/-! The reader against the grammar.

The header checks pass exactly on the grammar's headers (`fileHeader_of_check`,
`record_of_checks`). `inspect` is what one round of the loop decides from the bytes that are left,
and `boundary` is the loop's state after a whole layout; from a boundary a round either returns or
reaches the next boundary (`readRecord_inspect`). Two facts about the whole reader follow:
`readLog_layout` computes its result on a layout and a tail on which the loop ends, and
`readLog_cases` finds that layout and tail in any file whose header passes. -/
namespace TraceForge.Recording
open Library Telemetry
open LittleEndian (split combine)

/-! ### The file header -/

theorem crc_lt (bytes : List UInt8) : (crc32c bytes).toNat < 256 ^ 4 := (crc32c bytes).toNat_lt

/-- A stored checksum matches exactly when its field is the checksum's. -/
theorem checksum_iff (source : List UInt8) (offset : Nat) (covered : List UInt8)
    (ho : offset + 4 ≤ source.length) :
    (decodeLittleEndian 4 source offset).toUInt32 = crc32c covered ↔
      (source.drop offset).take 4 = split 4 (crc32c covered).toNat := by
  rw [field_of_decode 4 source offset (by decide) ho, ← decode_narrow source offset ho]
  constructor
  · intro h
    rw [h]
  · intro h
    have hc := congrArg combine h
    rw [LittleEndian.combine_split_of_lt (decodeLittleEndian 4 source offset).toUInt32.toNat_lt,
      LittleEndian.combine_split_of_lt (crc_lt covered)] at hc
    exact UInt32.toNat_inj.mp hc

theorem checkFileHeader_bytes (f : FileHeader) : checkFileHeader f.bytes = none := by
  have hlen := f.bytes_length
  have hmagic : f.bytes.take 8 = kFileMagic := by
    rw [f.bytes_eq]
    exact Fields.slice [] kFileMagic _
  have hversion : decodeLittleEndian 2 f.bytes 8 = kLogFormatVersion := by
    apply UInt64.toNat_inj.mp
    rw [f.bytes_eq]
    exact decode_field 2 8 [kFileMagic] (split 2 1) _ rfl rfl (by decide)
  have hsize : decodeLittleEndian 2 f.bytes 10 = kFileHeaderSize := by
    apply UInt64.toNat_inj.mp
    rw [f.bytes_eq]
    exact decode_field 2 10 [kFileMagic, split 2 1] (split 2 32) _ rfl rfl (by decide)
  have hcheck : (decodeLittleEndian 4 f.bytes 28).toUInt32 = crc32c (f.bytes.take 28) := by
    rw [checksum_iff _ _ _ (by omega), f.bytes_body, FileHeader.bytes,
      ← f.body_length, List.drop_left]
    exact List.take_of_length_le (by simp [FileHeader.checksum])
  rw [checkFileHeader, if_neg (by simp [hmagic]), if_neg (by simp [hversion, hsize]),
    if_neg (by simp [hcheck])]

theorem decode_created (f : FileHeader) :
    (decodeLittleEndian 8 f.bytes 16).toInt64 = f.created := by
  have hcreated : decodeLittleEndian 8 f.bytes 16 = f.created.toUInt64 := by
    apply UInt64.toNat_inj.mp
    rw [f.bytes_eq]
    refine (decode_field 8 16 [kFileMagic, split 2 1, split 2 32, f.flags]
      (split 8 f.created.toUInt64.toNat) _ ?_ (by simp) (by decide)).trans ?_
    · simp [kFileMagic, f.flags_length]
    · exact LittleEndian.combine_split_of_lt f.created.toUInt64.toNat_lt
  rw [hcreated, Int64.toInt64_toUInt64]

/-- A header that passes every check is one of the grammar's. -/
theorem fileHeader_of_check {bytes : List UInt8} (hlen : bytes.length = 32)
    (h : checkFileHeader bytes = none) : ∃ f : FileHeader, f.bytes = bytes := by
  unfold checkFileHeader at h
  split at h
  · cases h
  rename_i hmagic
  split at h
  · cases h
  rename_i hversion
  split at h
  · cases h
  rename_i hcheck
  have hmagic := not_not.mp hmagic
  obtain ⟨hv, hs⟩ := not_or.mp hversion
  have hv := not_not.mp hv
  have hs := not_not.mp hs
  have hcheck := (checksum_iff _ _ _ (by omega)).mp (not_not.mp hcheck)
  let f : FileHeader :=
    { flags := (bytes.drop 12).take 4
      created := (decodeLittleEndian 8 bytes 16).toInt64
      reserved := (bytes.drop 24).take 4
      flags_length := by simp [hlen]
      reserved_length := by simp [hlen] }
  have hbody : f.body = bytes.take 28 := by
    have h8 := field_of_decode 2 bytes 8 (by decide) (by omega)
    have h10 := field_of_decode 2 bytes 10 (by decide) (by omega)
    have h16 := field_of_decode 8 bytes 16 (by decide) (by omega)
    rw [hv] at h8
    rw [hs] at h10
    have hchop := Fields.chop_flatten [8, 2, 2, 4, 8, 4] bytes
    simp only [Fields.chop, List.drop_drop, Nat.reduceAdd, hmagic, h8, h10, h16] at hchop
    rw [FileHeader.body, FileHeader.fields, UInt64.toUInt64_toInt64]
    exact hchop
  refine ⟨f, ?_⟩
  have htail : bytes.drop 28 = f.checksum := by
    rw [FileHeader.checksum, hbody, ← hcheck]
    exact (List.take_of_length_le (by simp [hlen])).symm
  rw [FileHeader.bytes, hbody, ← htail, List.take_append_drop]

theorem FileHeader.bytes_injective {f g : FileHeader} (h : f.bytes = g.bytes) : f = g := by
  have hflags (e : FileHeader) : (e.bytes.drop 12).take 4 = e.flags := by
    rw [e.bytes_eq]
    have hs := Fields.slice [kFileMagic, split 2 1, split 2 32] e.flags
      [split 8 e.created.toUInt64.toNat, e.reserved, e.checksum]
    rw [e.flags_length] at hs
    exact hs
  have hreserved (e : FileHeader) : (e.bytes.drop 24).take 4 = e.reserved := by
    rw [e.bytes_eq]
    have hs := Fields.slice
      [kFileMagic, split 2 1, split 2 32, e.flags, split 8 e.created.toUInt64.toNat] e.reserved
      [e.checksum]
    have hbefore : [kFileMagic, split 2 1, split 2 32, e.flags,
        split 8 e.created.toUInt64.toNat].flatten.length = 24 := by
      simp [kFileMagic, e.flags_length]
    rw [e.reserved_length, hbefore] at hs
    exact hs
  have hf := hflags f
  have hr := hreserved f
  have hc := decode_created f
  rw [h, hflags g] at hf
  rw [h, hreserved g] at hr
  rw [h, decode_created g] at hc
  cases f
  cases g
  simp only at hf hr hc
  subst hf hr hc
  rfl

/-! ### One record -/

section Record
variable {pb : Protobuf}

theorem Frame.payload_lt (f : Frame pb) : f.payload.length < 256 ^ 4 := by
  have h := f.payload_le
  rw [kMaximumPayloadSize_toNat] at h
  omega

theorem Frame.payloadSize_toNat (f : Frame pb) :
    (UInt32.ofNat f.payload.length).toNat = f.payload.length := by
  rw [UInt32.toNat_ofNat']
  exact Nat.mod_eq_of_lt f.payload_lt

theorem decode_headerSize (f : Frame pb) (i : Nat) :
    decodeLittleEndian 2 (f.header i) 4 = kRecordHeaderSize := by
  apply UInt64.toNat_inj.mp
  rw [f.header_eq]
  exact decode_field 2 4 [kRecordMagic] (split 2 36) _ rfl rfl (by decide)

theorem decode_version (f : Frame pb) (i : Nat) :
    decodeLittleEndian 2 (f.header i) 6 = kRecordFormatVersion := by
  apply UInt64.toNat_inj.mp
  rw [f.header_eq]
  exact decode_field 2 6 [kRecordMagic, split 2 36] (split 2 1) _ rfl rfl (by decide)

theorem decode_payloadSize (f : Frame pb) (i : Nat) :
    (decodeLittleEndian 4 (f.header i) 8).toUInt32 = UInt32.ofNat f.payload.length := by
  have hlen := f.header_length i
  apply UInt32.toNat_inj.mp
  rw [decode_narrow _ _ (by omega), f.header_eq, f.payloadSize_toNat]
  refine (decode_field 4 8 [kRecordMagic, split 2 36, split 2 1] (split 4 f.payload.length) _ rfl
    (by simp) (by decide)).trans ?_
  exact LittleEndian.combine_split_of_lt f.payload_lt

theorem decode_payloadCrc (f : Frame pb) (i : Nat) :
    (decodeLittleEndian 4 (f.header i) 12).toUInt32 = crc32c f.payload := by
  have hlen := f.header_length i
  apply UInt32.toNat_inj.mp
  rw [decode_narrow _ _ (by omega), f.header_eq]
  refine (decode_field 4 12 [kRecordMagic, split 2 36, split 2 1, split 4 f.payload.length]
    (split 4 (crc32c f.payload).toNat) _ (by simp [kRecordMagic]) (by simp) (by decide)).trans ?_
  exact LittleEndian.combine_split_of_lt (crc_lt f.payload)

theorem decode_recordIndex (f : Frame pb) (i : Nat) :
    decodeLittleEndian 8 (f.header i) 16 = UInt64.ofNat i := by
  apply UInt64.toNat_inj.mp
  rw [f.header_eq]
  refine (decode_field 8 16 [kRecordMagic, split 2 36, split 2 1, split 4 f.payload.length,
    split 4 (crc32c f.payload).toNat] (split 8 (UInt64.ofNat i).toNat) _ (by simp [kRecordMagic])
    (by simp) (by decide)).trans ?_
  exact LittleEndian.combine_split_of_lt (UInt64.ofNat i).toNat_lt

theorem decode_arrival (f : Frame pb) (i : Nat) :
    (decodeLittleEndian 8 (f.header i) 24).toInt64 = f.arrival := by
  have harrival : decodeLittleEndian 8 (f.header i) 24 = f.arrival.toUInt64 := by
    apply UInt64.toNat_inj.mp
    rw [f.header_eq]
    refine (decode_field 8 24 [kRecordMagic, split 2 36, split 2 1, split 4 f.payload.length,
      split 4 (crc32c f.payload).toNat, split 8 (UInt64.ofNat i).toNat]
      (split 8 f.arrival.toUInt64.toNat) _ (by simp [kRecordMagic]) (by simp) (by decide)).trans ?_
    exact LittleEndian.combine_split_of_lt f.arrival.toUInt64.toNat_lt
  rw [harrival, Int64.toInt64_toUInt64]

theorem checkRecordHeader_frame (f : Frame pb) (i : Nat) :
    checkRecordHeader (f.header i) = none := by
  have hlen := f.header_length i
  have hmagic : (f.header i).take 4 = kRecordMagic := by
    rw [f.header_eq]
    exact Fields.slice [] kRecordMagic _
  have hcheck : (decodeLittleEndian 4 (f.header i) 32).toUInt32 =
      crc32c ((f.header i).take 32) := by
    rw [checksum_iff _ _ _ (by omega), f.header_body, Frame.header, ← f.body_length i,
      List.drop_left]
    exact List.take_of_length_le (by simp [Frame.checksum])
  have hsize : ¬kMaximumPayloadSize < (decodeLittleEndian 4 (f.header i) 8).toUInt32 := by
    rw [decode_payloadSize, UInt32.lt_iff_toNat_lt, f.payloadSize_toNat]
    exact Nat.not_lt.mpr f.payload_le
  rw [checkRecordHeader, if_neg (by simp [hmagic]),
    if_neg (by simp [decode_headerSize, decode_version]), if_neg (by simp [hcheck]), if_neg hsize]

theorem checkRecordPayload_frame (f : Frame pb) (i : Nat) :
    checkRecordPayload pb (UInt64.ofNat i) (f.header i) f.payload = .ok f.event := by
  rw [checkRecordPayload, if_neg (by simp [decode_payloadCrc]),
    if_neg (by simp [decode_recordIndex]), f.parses]
  exact if_neg (by simp [f.schema])

/-- A header and a payload that pass every check as record `i` are a frame's. -/
theorem record_of_checks {i : Nat} {header payload : List UInt8} {event : TelemetryEvent}
    (hlen : header.length = 36) (hheader : checkRecordHeader header = none)
    (hsize : payload.length = (decodeLittleEndian 4 header 8).toUInt32.toNat)
    (hpayload : checkRecordPayload pb (UInt64.ofNat i) header payload = .ok event) :
    ∃ f : Frame pb, f.header i = header ∧ f.payload = payload ∧ f.event = event := by
  unfold checkRecordHeader at hheader
  split at hheader
  · cases hheader
  rename_i hmagic
  split at hheader
  · cases hheader
  rename_i hversion
  split at hheader
  · cases hheader
  rename_i hcheck
  split at hheader
  · cases hheader
  rename_i hmax
  unfold checkRecordPayload at hpayload
  split at hpayload
  · cases hpayload
  rename_i hcrc
  split at hpayload
  · cases hpayload
  rename_i hindex
  split at hpayload
  · cases hpayload
  rename_i parsed hparse
  split at hpayload
  · cases hpayload
  rename_i hschema
  cases hpayload
  have hmagic := not_not.mp hmagic
  obtain ⟨hs, hv⟩ := not_or.mp hversion
  have hs := not_not.mp hs
  have hv := not_not.mp hv
  have hcheck := (checksum_iff _ _ _ (by omega)).mp (not_not.mp hcheck)
  have hcrc := (checksum_iff _ _ _ (by omega)).mp (not_not.mp hcrc)
  have hindex := not_not.mp hindex
  let f : Frame pb :=
    { arrival := (decodeLittleEndian 8 header 24).toInt64
      payload := payload
      event := event
      payload_le := by
        rw [hsize]
        exact UInt32.le_iff_toNat_le.mp (UInt32.not_lt.mp hmax)
      parses := hparse
      schema := not_not.mp hschema }
  have hbody : f.body i = header.take 32 := by
    have h4 := field_of_decode 2 header 4 (by decide) (by omega)
    have h6 := field_of_decode 2 header 6 (by decide) (by omega)
    have h8 := field_of_decode 4 header 8 (by decide) (by omega)
    have h16 := field_of_decode 8 header 16 (by decide) (by omega)
    have h24 := field_of_decode 8 header 24 (by decide) (by omega)
    rw [hs] at h4
    rw [hv] at h6
    rw [← decode_narrow _ _ (by omega), ← hsize] at h8
    rw [hindex] at h16
    have hchop := Fields.chop_flatten [4, 2, 2, 4, 4, 8, 8] header
    simp only [Fields.chop, List.drop_drop, Nat.reduceAdd, hmagic, h4, h6, h8, hcrc, h16, h24]
      at hchop
    rw [Frame.body, Frame.fields, UInt64.toUInt64_toInt64]
    exact hchop
  refine ⟨f, ?_, rfl, rfl⟩
  have htail : header.drop 32 = f.checksum i := by
    rw [Frame.checksum, hbody, ← hcheck]
    exact (List.take_of_length_le (by simp [hlen])).symm
  rw [Frame.header, hbody, ← htail, List.take_append_drop]

theorem Frame.header_injective {f g : Frame pb} {i : Nat} (hh : f.header i = g.header i)
    (hp : f.payload = g.payload) : f = g := by
  have ha := decode_arrival f i
  rw [hh, decode_arrival g i] at ha
  have he : f.event = g.event := by
    have hf := f.parses
    rw [hp, g.parses] at hf
    exact (Option.some.inj hf).symm
  cases f
  cases g
  simp only at ha hp he
  subst ha hp he
  rfl

end Record

/-! ### One round of the loop -/

section Loop
variable (pb : Protobuf)

/-- What a round decides from the bytes that are left: a refusal, or a record's header, payload
and event. -/
def inspect (i : Nat) (rest : List UInt8) :
    Except (LogReadStatus × String) (List UInt8 × List UInt8 × TelemetryEvent) :=
  if rest.length < 36 then .error (.truncatedTail, "final record header is incomplete")
  else match checkRecordHeader (rest.take 36) with
  | some failure => .error failure
  | none =>
    let size := (decodeLittleEndian 4 (rest.take 36) 8).toUInt32.toNat
    if rest.length - 36 < size then .error (.truncatedTail, "final record payload is incomplete")
    else match checkRecordPayload pb (UInt64.ofNat i) (rest.take 36) ((rest.drop 36).take size) with
      | .error failure => .error failure
      | .ok event => .ok (rest.take 36, (rest.drop 36).take size, event)

/-- How the loop ends after `n` records with `rest` left, if it ends there. -/
def verdict (limit n : Nat) (rest : List UInt8) : Option (LogReadStatus × String) :=
  if rest = [] then some (.complete, "log is complete")
  else if n = limit then some (.resourceLimit, "record-count limit reached")
  else match inspect pb n rest with
    | .error failure => some failure
    | .ok _ => none

variable {pb}

/-- A whole record in front is accepted, whatever follows. -/
theorem inspect_frame (f : Frame pb) (i : Nat) (rest : List UInt8) :
    inspect pb i (f.bytes i ++ rest) = .ok (f.header i, f.payload, f.event) := by
  have hlen : (f.bytes i ++ rest).length = 36 + f.payload.length + rest.length := by
    rw [List.length_append, f.bytes_length]
  have htake : (f.bytes i ++ rest).take 36 = f.header i := by
    rw [Frame.bytes, List.append_assoc, ← f.header_length i, List.take_left]
  have hdrop : (f.bytes i ++ rest).drop 36 = f.payload ++ rest := by
    rw [Frame.bytes, List.append_assoc, ← f.header_length i, List.drop_left]
  have hsize : (decodeLittleEndian 4 (f.header i) 8).toUInt32.toNat = f.payload.length := by
    rw [decode_payloadSize, f.payloadSize_toNat]
  simp only [inspect, htake, hdrop, hsize, checkRecordHeader_frame, List.take_left,
    checkRecordPayload_frame]
  rw [if_neg (by omega), if_neg (by omega)]

/-- What a round accepts is a whole record in front. -/
theorem frame_of_inspect {i : Nat} {rest header payload : List UInt8} {event : TelemetryEvent}
    (h : inspect pb i rest = .ok (header, payload, event)) :
    ∃ (f : Frame pb) (tail : List UInt8), rest = f.bytes i ++ tail ∧ f.header i = header ∧
      f.payload = payload ∧ f.event = event := by
  unfold inspect at h
  simp only at h
  split at h
  · cases h
  rename_i hshort
  split at h
  · cases h
  rename_i hheader
  split at h
  · cases h
  rename_i hpart
  split at h
  · cases h
  rename_i parsed hpayload
  cases h
  obtain ⟨f, hf, hp, he⟩ := record_of_checks (by rw [List.length_take]; omega) hheader
    (by rw [List.length_take, List.length_drop]; omega) hpayload
  refine ⟨f, (rest.drop 36).drop f.payload.length, ?_, hf, hp, he⟩
  have hlen : f.payload.length = (decodeLittleEndian 4 (rest.take 36) 8).toUInt32.toNat := by
    rw [hp, List.length_take, List.length_drop]
    omega
  rw [Frame.bytes, hf, List.append_assoc, hlen, hp, List.take_append_drop, List.take_append_drop]

/-- The loop's variables after the records of a layout. -/
def boundary (file : File) (options : LogReadOptions) (L : Layout pb) : Reading where
  input := ⟨file, L.bytes.length, false, false⟩
  result :=
    { fileSize := file.size
      createdUnixNs := L.header.created
      validBytes := UInt64.ofNat L.bytes.length
      index := L.index
      records := if options.retainRecords then L.records else [] }
  offset := UInt64.ofNat L.bytes.length
  expectedRecordIndex := UInt64.ofNat L.frames.length

theorem readExact_window {n : Nat} {file : File} (before rest : List UInt8) {pos : Nat}
    (hb : file.bytes = before ++ rest) (hp : before.length = pos) (hn : n ≤ rest.length) :
    readExact n ⟨file, pos, false, false⟩ = some (rest.take n, ⟨file, pos + n, false, false⟩) := by
  have hin : pos + n ≤ file.bytes.length := by
    rw [hb, List.length_append]
    omega
  have hwin : IFStream.window ⟨file, pos, false, false⟩ n = rest.take n := by
    rw [IFStream.window, hb, ← hp, List.drop_left]
  have hread := IFStream.read_full (s := ⟨file, pos, false, false⟩) rfl hin
  rw [hwin] at hread
  rw [readExact, hread, if_pos (by rw [List.length_take]; omega)]

/-- **One round from a boundary** decides what `inspect` decides. -/
theorem readRecord_inspect {file : File} {options : LogReadOptions} {L : Layout pb}
    {rest : List UInt8} (hb : file.bytes = L.bytes ++ rest)
    (hn : L.frames.length ≠ options.maximumRecords.toNat) :
    readRecord pb options (boundary file options L) =
      match inspect pb L.frames.length rest with
      | .error failure => .error (makeFailure (boundary file options L).result failure.1
          (boundary file options L).offset failure.2)
      | .ok (header, payload, event) =>
        .ok ((boundary file options L).accept options
          ⟨file, L.bytes.length + 36 + payload.length, false, false⟩ header event) := by
  have hsize := file.size_toNat
  have hlt := file.length_lt
  have hlen : file.bytes.length = L.bytes.length + rest.length := by
    rw [hb, List.length_append]
  have hoffset : (UInt64.ofNat L.bytes.length).toNat = L.bytes.length := by
    rw [UInt64.toNat_ofNat']
    omega
  have hleft : ((boundary file options L).result.fileSize -
      (boundary file options L).offset).toNat = rest.length := by
    show (file.size - UInt64.ofNat L.bytes.length).toNat = rest.length
    rw [UInt64.toNat_sub_of_le _ _ (UInt64.le_iff_toNat_le.mpr (by omega))]
    omega
  have hshort : (boundary file options L).result.fileSize - (boundary file options L).offset <
      kRecordHeaderSize ↔ rest.length < 36 := by
    rw [UInt64.lt_iff_toNat_lt, hleft, kRecordHeaderSize_toNat]
  have hlimit : (boundary file options L).result.index.length ≠ options.maximumRecords.toNat := by
    simp only [boundary, L.index_length]
    exact hn
  unfold readRecord inspect
  simp only [if_neg hlimit]
  by_cases h36 : rest.length < 36
  · rw [if_pos (hshort.mpr h36), if_pos h36]
  rw [if_neg (mt hshort.mp h36), if_neg h36]
  have hread : readExact kRecordHeaderSize.toNat (boundary file options L).input =
      some (rest.take 36, ⟨file, L.bytes.length + 36, false, false⟩) :=
    readExact_window _ _ hb rfl (Nat.not_lt.mp h36)
  rw [hread]
  simp only
  cases checkRecordHeader (rest.take 36) with
  | some failure => rfl
  | none =>
    simp only
    generalize (decodeLittleEndian 4 (rest.take 36) 8).toUInt32 = size
    have hpart : (boundary file options L).result.fileSize - (boundary file options L).offset -
        kRecordHeaderSize < size.toUInt64 ↔ rest.length - 36 < size.toNat := by
      rw [UInt64.lt_iff_toNat_lt, UInt64.toNat_sub_of_le _ _ (UInt64.le_iff_toNat_le.mpr
        (by rw [hleft, kRecordHeaderSize_toNat]; omega)), hleft, kRecordHeaderSize_toNat,
        UInt32.toNat_toUInt64]
    by_cases hcut : rest.length - 36 < size.toNat
    · rw [if_pos (hpart.mpr hcut), if_pos hcut]
    rw [if_neg (mt hpart.mp hcut), if_neg hcut]
    have hb' : file.bytes = (L.bytes ++ rest.take 36) ++ rest.drop 36 := by
      rw [List.append_assoc, List.take_append_drop, hb]
    have hread' : readExact size.toNat ⟨file, L.bytes.length + 36, false, false⟩ =
        some ((rest.drop 36).take size.toNat,
          ⟨file, L.bytes.length + 36 + size.toNat, false, false⟩) :=
      readExact_window _ _ hb' (by rw [List.length_append, List.length_take]; omega)
        (by rw [List.length_drop]; omega)
    have hexpected : (boundary file options L).expectedRecordIndex =
        UInt64.ofNat L.frames.length := rfl
    rw [hread', hexpected]
    simp only
    cases checkRecordPayload pb (UInt64.ofNat L.frames.length) (rest.take 36)
      ((rest.drop 36).take size.toNat) with
    | error failure => rfl
    | ok event =>
      have hpayload : ((rest.drop 36).take size.toNat).length = size.toNat := by
        rw [List.length_take, List.length_drop]
        omega
      simp only [hpayload]

/-- A record in front takes the loop from one boundary to the next. -/
theorem accept_boundary {file : File} {options : LogReadOptions} (L : Layout pb) (f : Frame pb) :
    (boundary file options L).accept options
        ⟨file, L.bytes.length + 36 + f.payload.length, false, false⟩ (f.header L.frames.length)
        f.event =
      boundary file options (L.append [f]) := by
  have hlen : (L.append [f]).bytes.length = L.bytes.length + 36 + f.payload.length := by
    rw [L.append_bytes, framesBytes, framesBytes, List.append_nil, List.length_append,
      f.bytes_length]
    omega
  have hsize : (UInt32.ofNat f.payload.length).toUInt64 = UInt64.ofNat f.payload.length := by
    apply UInt64.toNat_inj.mp
    have hp := f.payload_lt
    rw [UInt32.toNat_toUInt64, f.payloadSize_toNat, UInt64.toNat_ofNat']
    omega
  have hnext : UInt64.ofNat L.bytes.length + (kRecordHeaderSize + UInt64.ofNat f.payload.length) =
      UInt64.ofNat (L.append [f]).bytes.length := by
    rw [hlen, UInt64.ofNat_add, UInt64.ofNat_add, UInt64.add_assoc]
    rfl
  have hentry : (L.append [f]).index = L.index ++ [f.entry L.frames.length L.bytes.length] := by
    rw [L.append_index]
    rfl
  have hrecord : (L.append [f]).records =
      L.records ++ [f.record L.frames.length L.bytes.length] := by
    rw [L.append_records]
    rfl
  have hcount : UInt64.ofNat L.frames.length + 1 = UInt64.ofNat (L.append [f]).frames.length := by
    rw [Layout.append, List.length_append, UInt64.ofNat_add]
    rfl
  simp only [Reading.accept, boundary, decode_payloadSize, decode_payloadCrc, decode_recordIndex,
    decode_arrival, hsize, hnext, hentry, hrecord, hcount, hlen]
  cases options.retainRecords <;> rfl

/-! ### Whole reads -/

/-- The result of a read that ends with `v` after the records of `L`. -/
def Layout.result (L : Layout pb) (file : File) (options : LogReadOptions)
    (v : LogReadStatus × String) : LogReadResult where
  status := v.1
  createdUnixNs := L.header.created
  fileSize := file.size
  validBytes := UInt64.ofNat L.bytes.length
  errorOffset := if v.1 = .complete then 0 else UInt64.ofNat L.bytes.length
  message := v.2
  index := L.index
  records := if options.retainRecords then L.records else []

theorem checkRecordHeader_status {header : List UInt8} {v : LogReadStatus × String}
    (h : checkRecordHeader header = some v) : v.1 = .corrupt ∨ v.1 = .resourceLimit := by
  unfold checkRecordHeader at h
  split_ifs at h <;> cases h <;> simp

theorem checkRecordPayload_status {expected : UInt64} {header payload : List UInt8}
    {v : LogReadStatus × String} (h : checkRecordPayload pb expected header payload = .error v) :
    v.1 = .corrupt := by
  unfold checkRecordPayload at h
  split at h
  · cases h
    rfl
  split at h
  · cases h
    rfl
  split at h
  · cases h
    rfl
  split at h
  · cases h
    rfl
  · cases h

theorem inspect_error {i : Nat} {rest : List UInt8} {v : LogReadStatus × String}
    (h : inspect pb i rest = .error v) :
    v.1 = .truncatedTail ∨ v.1 = .corrupt ∨ v.1 = .resourceLimit := by
  unfold inspect at h
  simp only at h
  split at h
  · cases h
    exact .inl rfl
  split at h
  · rename_i hfailure
    cases h
    exact .inr (checkRecordHeader_status hfailure)
  split at h
  · cases h
    exact .inl rfl
  split at h
  · rename_i hfailure
    cases h
    exact .inr (.inl (checkRecordPayload_status hfailure))
  · cases h

/-- The loop is over the bytes the offset has not reached. -/
theorem boundary_offset_lt {file : File} (options : LogReadOptions) {L : Layout pb}
    {rest : List UInt8} (hb : file.bytes = L.bytes ++ rest) :
    (boundary file options L).offset < (boundary file options L).result.fileSize ↔ rest ≠ [] := by
  have hsize := file.size_toNat
  have hlt := file.length_lt
  have hlen : file.bytes.length = L.bytes.length + rest.length := by
    rw [hb, List.length_append]
  show UInt64.ofNat L.bytes.length < file.size ↔ rest ≠ []
  rw [UInt64.lt_iff_toNat_lt, hsize, UInt64.toNat_ofNat', ← List.length_pos_iff]
  omega

theorem readRecords_error {options : LogReadOptions} {reading : Reading} {result : LogReadResult}
    (hlt : reading.offset < reading.result.fileSize)
    (h : readRecord pb options reading = .error result) :
    readRecords pb options reading = result := by
  rw [readRecords, if_pos hlt]
  split
  · rename_i heq
    rw [h] at heq
    cases heq
    rfl
  · rename_i heq
    rw [h] at heq
    cases heq

theorem readRecords_ok {options : LogReadOptions} {reading next : Reading}
    (hlt : reading.offset < reading.result.fileSize)
    (h : readRecord pb options reading = .ok next) :
    readRecords pb options reading = readRecords pb options next := by
  rw [readRecords, if_pos hlt]
  split
  · rename_i heq
    rw [h] at heq
    cases heq
  · rename_i heq
    rw [h] at heq
    cases heq
    rfl

theorem readRecords_verdict {file : File} {options : LogReadOptions} {L : Layout pb}
    {rest : List UInt8} {v : LogReadStatus × String} (hb : file.bytes = L.bytes ++ rest)
    (hv : verdict pb options.maximumRecords.toNat L.frames.length rest = some v) :
    readRecords pb options (boundary file options L) = L.result file options v := by
  have hoffset := boundary_offset_lt options hb
  unfold verdict at hv
  split at hv
  · rename_i hnil
    cases hv
    rw [readRecords, if_neg (by rw [hoffset]; simp [hnil])]
    rfl
  rename_i hne
  split at hv
  · rename_i hlimit
    cases hv
    apply readRecords_error (hoffset.mpr hne)
    have hindex : (boundary file options L).result.index.length =
        options.maximumRecords.toNat := by
      rw [← hlimit]
      exact L.index_length
    rw [readRecord, if_pos hindex]
    rfl
  rename_i hlimit
  split at hv
  · rename_i failure herror
    cases hv
    apply readRecords_error (hoffset.mpr hne)
    have hstatus : v.1 ≠ .complete := by
      rcases inspect_error herror with h | h | h <;> simp [h]
    rw [readRecord_inspect hb hlimit, herror]
    simp only [Layout.result, if_neg hstatus]
    rfl
  · cases hv

/-- Whole records take the loop from boundary to boundary. -/
theorem readRecords_frames {file : File} {options : LogReadOptions} (L : Layout pb)
    (fs : List (Frame pb)) (tail : List UInt8)
    (hb : file.bytes = L.bytes ++ (framesBytes L.frames.length fs ++ tail))
    (hn : L.frames.length + fs.length ≤ options.maximumRecords.toNat) :
    readRecords pb options (boundary file options L) =
      readRecords pb options (boundary file options (L.append fs)) := by
  induction fs generalizing L with
  | nil => rw [Layout.append, List.append_nil]
  | cons f rest ih =>
    rw [List.length_cons] at hn
    rw [framesBytes, List.append_assoc] at hb
    have hround : readRecord pb options (boundary file options L) =
        .ok (boundary file options (L.append [f])) := by
      rw [readRecord_inspect hb (by omega), inspect_frame]
      simp only [accept_boundary]
    have hne : f.bytes L.frames.length ++ (framesBytes (L.frames.length + 1) rest ++ tail) ≠ [] := by
      apply List.ne_nil_of_length_pos
      rw [List.length_append, f.bytes_length]
      omega
    have hcount : (L.append [f]).frames.length = L.frames.length + 1 := List.length_append
    have happend : (L.append [f]).append rest = L.append (f :: rest) := by
      rw [Layout.append, Layout.append, Layout.append, List.append_assoc]
      rfl
    rw [readRecords_ok ((boundary_offset_lt options hb).mpr hne) hround, ih (L.append [f]), happend]
    · rw [hb, L.append_bytes, hcount, framesBytes, framesBytes, List.append_nil, List.append_assoc]
    · rw [hcount]
      omega

/-- The message of the file-header check that stops a read, if one does. -/
def headerRefusal (file : File) : Option String :=
  if file.bytes.length < 32 then some "file header is incomplete"
  else checkFileHeader (file.bytes.take 32)

theorem readLog_opened (file : File) (options : LogReadOptions) :
    readLog pb .granted file options =
      match headerRefusal file with
      | some message => makeFailure {fileSize := file.size} .corrupt 0 message
      | none => readRecords pb options (startReading file (file.bytes.take 32)
          ⟨file, 32, false, false⟩) := by
  have hshort : file.size < kFileHeaderSize ↔ file.bytes.length < 32 := by
    rw [UInt64.lt_iff_toNat_lt, file.size_toNat, kFileHeaderSize_toNat]
  unfold readLog headerRefusal
  simp only [Access.granted, Bool.not_true, Bool.false_eq_true, if_false]
  by_cases h32 : file.bytes.length < 32
  · rw [if_pos (hshort.mpr h32), if_pos h32]
  rw [if_neg (mt hshort.mp h32), if_neg h32]
  have hread : readExact kFileHeaderSize.toNat (IFStream.openFile file) =
      some (file.bytes.take 32, ⟨file, 32, false, false⟩) :=
    readExact_window [] file.bytes rfl rfl (Nat.not_lt.mp h32)
  cases hcheck : checkFileHeader (file.bytes.take 32) with
  | some message => simp only [hread, hcheck]
  | none => simp only [hread, hcheck]

/-- The loop starts at the boundary behind the file header. -/
theorem startReading_boundary (file : File) (options : LogReadOptions) (h : FileHeader) :
    startReading file h.bytes ⟨file, 32, false, false⟩ =
      boundary file options (Layout.headerOnly pb h) := by
  have hbytes : (Layout.headerOnly pb h).bytes.length = 32 := by
    rw [Layout.headerOnly_bytes, h.bytes_length]
  simp only [startReading, boundary, decode_created, hbytes]
  cases options.retainRecords <;> rfl

/-- **The reader on a layout**: with `tail` behind the records of `L` and a verdict on it, the
read returns those records and that verdict. -/
theorem readLog_layout {file : File} {options : LogReadOptions} {L : Layout pb}
    {tail : List UInt8} {v : LogReadStatus × String} (hb : file.bytes = L.bytes ++ tail)
    (hn : L.frames.length ≤ options.maximumRecords.toNat)
    (hv : verdict pb options.maximumRecords.toNat L.frames.length tail = some v) :
    readLog pb .granted file options = L.result file options v := by
  have hheader : file.bytes.take 32 = L.header.bytes := by
    rw [hb, Layout.bytes, List.append_assoc, ← L.header.bytes_length, List.take_left]
  have hlen : ¬file.bytes.length < 32 := by
    rw [hb, List.length_append, L.bytes_length]
    omega
  have hframes : file.bytes = (Layout.headerOnly pb L.header).bytes ++
      (framesBytes 0 L.frames ++ tail) := by
    rw [hb, Layout.bytes, Layout.headerOnly_bytes, List.append_assoc]
  have hrefusal : headerRefusal file = none := by
    rw [headerRefusal, if_neg hlen, hheader, checkFileHeader_bytes]
  have hcount : (Layout.headerOnly pb L.header).frames.length + L.frames.length ≤
      options.maximumRecords.toNat := by
    rw [Layout.headerOnly, List.length_nil, Nat.zero_add]
    exact hn
  rw [readLog_opened, hrefusal, hheader]
  simp only
  rw [startReading_boundary, readRecords_frames _ L.frames tail hframes hcount,
    L.headerOnly_append, readRecords_verdict hb hv]

/-- From any boundary the loop finds the records that are there and a tail it ends on. -/
theorem exists_layout (limit : Nat) (L : Layout pb) (rest : List UInt8)
    (hn : L.frames.length ≤ limit) :
    ∃ (fs : List (Frame pb)) (tail : List UInt8) (v : LogReadStatus × String),
      rest = framesBytes L.frames.length fs ++ tail ∧ L.frames.length + fs.length ≤ limit ∧
        verdict pb limit (L.frames.length + fs.length) tail = some v := by
  induction hlen : rest.length using Nat.strongRecOn generalizing L rest with
  | ind size ih =>
    cases hv : verdict pb limit L.frames.length rest with
    | some v => exact ⟨[], rest, v, rfl, hn, hv⟩
    | none =>
      unfold verdict at hv
      split at hv
      · cases hv
      split at hv
      · cases hv
      rename_i hlimit
      split at hv
      · cases hv
      rename_i accepted hok
      obtain ⟨header, payload, event⟩ := accepted
      obtain ⟨f, tail, hrest, _, _, _⟩ := frame_of_inspect hok
      have hcount : (L.append [f]).frames.length = L.frames.length + 1 := List.length_append
      have hshorter : tail.length < size := by
        rw [← hlen, hrest, List.length_append, f.bytes_length]
        omega
      obtain ⟨fs, tail', v, htail, hfs, hv'⟩ :=
        ih tail.length hshorter (L.append [f]) tail (by omega) rfl
      rw [hcount] at htail hfs hv'
      refine ⟨f :: fs, tail', v, ?_, ?_, ?_⟩
      · rw [hrest, htail, framesBytes, List.append_assoc]
      · rw [List.length_cons]
        omega
      · rw [List.length_cons, Nat.add_comm fs.length 1, ← Nat.add_assoc]
        exact hv'

theorem readLog_refused {file : File} {options : LogReadOptions} {message : String}
    (h : headerRefusal file = some message) :
    readLog pb .granted file options =
      makeFailure {fileSize := file.size} .corrupt 0 message := by
  rw [readLog_opened, h]

variable (pb) in
/-- **Every file** whose header passes is the bytes of a layout and a tail with a verdict. -/
theorem readLog_cases (file : File) (options : LogReadOptions) (h : headerRefusal file = none) :
    ∃ (L : Layout pb) (tail : List UInt8) (v : LogReadStatus × String),
      file.bytes = L.bytes ++ tail ∧ L.frames.length ≤ options.maximumRecords.toNat ∧
        verdict pb options.maximumRecords.toNat L.frames.length tail = some v ∧
        readLog pb .granted file options = L.result file options v := by
  unfold headerRefusal at h
  split at h
  · cases h
  rename_i hlen
  obtain ⟨header, hheader⟩ := fileHeader_of_check
    (by rw [List.length_take]; omega) h
  obtain ⟨fs, tail, v, hrest, hn, hv⟩ := exists_layout options.maximumRecords.toNat
    (Layout.headerOnly pb header) (file.bytes.drop 32) (Nat.zero_le _)
  simp only [Layout.headerOnly, List.length_nil, Nat.zero_add] at hrest hn hv
  have hb : file.bytes = (⟨header, fs⟩ : Layout pb).bytes ++ tail := by
    rw [Layout.bytes, List.append_assoc, hheader, ← hrest, List.take_append_drop]
  exact ⟨⟨header, fs⟩, tail, v, hb, hn, hv, readLog_layout hb hn hv⟩

end Loop

end TraceForge.Recording
