import TraceForge.Recording.Acceptance
import TraceForge.Recording.Writer
import TraceForge.Telemetry.Wire

/-! The writer against the grammar.

The headers the writer builds are the grammar's (`fileHeader_bytes`, `recordHeader_frame`), so a
writer that is good holds a layout: its file is the layout's bytes and its counters are the
layout's (`LogWriter.Holds`). Construction establishes that and an append whose stream stays good
adds one frame (`append_holds`). Reading the file back is then the reader on a layout
(`read_written`). -/
namespace TraceForge.Recording
open Library Telemetry
open LittleEndian (split combine)

/-! ### Headers -/

/-- The next field of a header that is zero from `offset` on. -/
theorem encode_header (size total offset : Nat) (before : List UInt8) (value : UInt64)
    (ho : before.length = offset) (hs : size ≤ total) :
    encodeLittleEndian size (before ++ List.replicate total 0) offset value =
      (before ++ split size value.toNat) ++ List.replicate (total - size) 0 := by
  obtain ⟨rest, rfl⟩ := Nat.exists_eq_add_of_le hs
  rw [encode_next size rest before offset value ho, Nat.add_sub_cancel_left]

/-- The file header a writer writes: flags and reserved bytes are zero. -/
def FileHeader.written (created : Int64) : FileHeader where
  flags := split 4 0
  created := created
  reserved := split 4 0
  flags_length := LittleEndian.split_length 4 0
  reserved_length := LittleEndian.split_length 4 0

theorem fileHeader_bytes (created : Int64) :
    fileHeader created = (FileHeader.written created).bytes := by
  have hbody : ((((((kFileMagic ++ split 2 1) ++ split 2 32) ++ split 4 0) ++
      split 8 created.toUInt64.toNat) ++ split 4 0)) = (FileHeader.written created).body := by
    simp [FileHeader.body, FileHeader.fields, FileHeader.written, List.append_assoc]
  have hlen := (FileHeader.written created).body_length
  have htake : ((FileHeader.written created).body ++ List.replicate 4 0).take 28 =
      (FileHeader.written created).body := by
    rw [← hlen, List.take_left]
  simp only [fileHeader]
  rw [encode_header 2 24 8 kFileMagic kLogFormatVersion rfl (by decide),
    encode_header 2 22 10 _ kFileHeaderSize (by simp [kFileMagic]) (by decide),
    encode_header 4 20 12 _ 0 (by simp [kFileMagic]) (by decide),
    encode_header 8 16 16 _ created.toUInt64 (by simp [kFileMagic]) (by decide),
    encode_header 4 8 24 _ 0 (by simp [kFileMagic]) (by decide)]
  have hversion : kLogFormatVersion.toNat = 1 := rfl
  have hzero : (0 : UInt64).toNat = 0 := rfl
  rw [hversion, kFileHeaderSize_toNat, hzero, hbody, htake,
    encode_header 4 4 28 _ _ hlen (by decide), UInt32.toNat_toUInt64]
  exact List.append_nil _

theorem recordHeader_length (payload : List UInt8) (recordCount : UInt64) (arrival : Int64) :
    (recordHeader payload recordCount arrival).length = kRecordHeaderSize.toNat := by
  simp only [recordHeader, encodeLittleEndian_length]
  rfl

variable {pb : Protobuf}

theorem recordHeader_frame (f : Frame pb) (i : Nat) :
    recordHeader f.payload (UInt64.ofNat i) f.arrival = f.header i := by
  have hbody : (((((((kRecordMagic ++ split 2 36) ++ split 2 1) ++ split 4 f.payload.length) ++
      split 4 (crc32c f.payload).toNat) ++ split 8 (UInt64.ofNat i).toNat) ++
      split 8 f.arrival.toUInt64.toNat)) = f.body i := by
    simp [Frame.body, Frame.fields, List.append_assoc]
  have hlen := f.body_length i
  have htake : (f.body i ++ List.replicate 4 0).take 32 = f.body i := by
    rw [← hlen, List.take_left]
  simp only [recordHeader]
  rw [encode_header 2 32 4 kRecordMagic kRecordHeaderSize rfl (by decide),
    encode_header 2 30 6 _ kRecordFormatVersion (by simp [kRecordMagic]) (by decide),
    encode_header 4 28 8 _ _ (by simp [kRecordMagic]) (by decide),
    encode_header 4 24 12 _ _ (by simp [kRecordMagic]) (by decide),
    encode_header 8 20 16 _ _ (by simp [kRecordMagic]) (by decide),
    encode_header 8 12 24 _ _ (by simp [kRecordMagic]) (by decide)]
  have hversion : kRecordFormatVersion.toNat = 1 := rfl
  rw [hversion, kRecordHeaderSize_toNat, UInt32.toNat_toUInt64, UInt32.toNat_toUInt64,
    f.payloadSize_toNat, hbody, htake, encode_header 4 4 32 _ _ hlen (by decide),
    UInt32.toNat_toUInt64]
  exact List.append_nil _

/-! ### One operation -/

namespace LogWriter

/-- A good writer and the layout in its file. -/
structure Holds (w : LogWriter) (L : Layout pb) : Prop where
  noError : w.error = ""
  isOpen : w.output.isOpen = true
  goodbit : w.output.goodbit = true
  bytes : w.output.file.bytes = L.bytes
  recordCount : w.recordCount = UInt64.ofNat L.frames.length
  bytesWritten : w.bytesWritten = UInt64.ofNat L.bytes.length

@[simp] theorem fail_output (message : String) (w : LogWriter) :
    (w.fail message).output = w.output := by
  unfold fail
  split <;> rfl

theorem Holds.good {w : LogWriter} {L : Layout pb} (h : w.Holds L) : w.good = true := by
  simp [LogWriter.good, h.noError, h.isOpen, h.goodbit]

theorem writeBytes_output (bytes : List UInt8) (w : LogWriter) :
    (w.writeBytes bytes).2.output = w.output.write bytes := by
  simp only [writeBytes]
  split
  · rw [fail_output]
  · rfl

theorem writeBytes_good (bytes : List UInt8) (w : LogWriter)
    (h : (w.writeBytes bytes).2.output.goodbit = true) :
    w.writeBytes bytes = (true,
      {w with
        output := w.output.write bytes
        bytesWritten := w.bytesWritten + UInt64.ofNat bytes.length}) := by
  rw [writeBytes_output] at h
  simp only [writeBytes, h, Bool.not_true, Bool.false_eq_true, if_false]

theorem flush_output (w : LogWriter) (hw : w.good = true) :
    w.flush.2.output = w.output.flush := by
  simp only [flush, hw, Bool.not_true, Bool.false_eq_true, if_false]
  split
  · rw [fail_output]
  · rfl

theorem flush_holds {w : LogWriter} {L : Layout pb} (h : w.Holds L)
    (hgood : w.flush.2.output.goodbit = true) : w.flush.1 = true ∧ w.flush.2.Holds L := by
  rw [flush_output w h.good] at hgood
  have hflush : w.flush = (true, {w with output := w.output.flush}) := by
    simp only [flush, h.good, hgood, Bool.not_true, Bool.false_eq_true, if_false]
  rw [hflush]
  exact ⟨rfl,
    { noError := h.noError
      isOpen := by rw [OFStream.flush_isOpen, h.isOpen]
      goodbit := hgood
      bytes := by rw [OFStream.flush_file, h.bytes]
      recordCount := h.recordCount
      bytesWritten := h.bytesWritten }⟩

theorem writeBytes_goodbit {bytes : List UInt8} {w w' : LogWriter} {ok : Bool}
    (heq : w.writeBytes bytes = (ok, w')) (hw' : w'.output.goodbit = true) :
    w.output.goodbit = true ∧ ok = true := by
  have hout := writeBytes_output bytes w
  rw [heq] at hout
  rw [hout] at hw'
  have hok := writeBytes_good bytes w (by rw [heq, hout]; exact hw')
  rw [heq] at hok
  exact ⟨(OFStream.write_good hw').1, congrArg Prod.fst hok⟩

theorem flush_goodbit {w : LogWriter} (hw : w.flush.2.output.goodbit = true) :
    w.output.goodbit = true := by
  cases hg : w.good
  · simpa [flush, hg] using hw
  · rw [flush_output w hg] at hw
    exact (OFStream.flush_good hw).1

/-- The record a good writer writes when its stream stays good: both writes succeeded, and what
is left is a flush when one is due. -/
theorem appendPayload_good {payload : List UInt8} {arrival : Int64} {w : LogWriter}
    (h : (w.appendPayload payload arrival).2.output.goodbit = true) :
    let header := recordHeader payload w.recordCount arrival
    let written : LogWriter :=
      {w with
        output := (w.output.write header).write payload
        bytesWritten := w.bytesWritten + UInt64.ofNat header.length + UInt64.ofNat payload.length
        recordCount := w.recordCount + 1}
    written.output.goodbit = true ∧
      w.appendPayload payload arrival =
        if written.recordCount % w.options.flushEveryRecords = 0 then written.flush
        else (true, written) := by
  unfold appendPayload at h ⊢
  split at h
  · rename_i heq
    cases (writeBytes_goodbit heq h).2
  rename_i w₁ heq₁
  split at h
  · rename_i heq₂
    cases (writeBytes_goodbit heq₂ h).2
  rename_i w₂ heq₂
  have hgood₂ : w₂.output.goodbit = true := by
    simp only at h
    split at h
    · have hcounted := flush_goodbit h
      exact hcounted
    · exact h
  have hgood₁ := (writeBytes_goodbit heq₂ hgood₂).1
  have hw₁ := writeBytes_good (recordHeader payload w.recordCount arrival) w
    (by rw [heq₁]; exact hgood₁)
  have hw₂ := writeBytes_good payload w₁ (by rw [heq₂]; exact hgood₂)
  rw [heq₁] at hw₁
  rw [heq₂] at hw₂
  cases hw₁
  cases hw₂
  exact ⟨hgood₂, rfl⟩

/-- A stream that is good after an append was good before it. -/
theorem append_goodbit {event : TelemetryEvent} {arrival : Int64} {w : LogWriter}
    (h : (w.append pb event arrival).2.output.goodbit = true) : w.output.goodbit = true := by
  unfold append at h
  split at h
  · exact h
  split at h
  · rwa [fail_output] at h
  split at h
  · rwa [fail_output] at h
  split at h
  · rwa [fail_output] at h
  · have hwritten := (appendPayload_good h).1
    exact (OFStream.write_good (OFStream.write_good hwritten).1).1

/-- What a good writer does with a frame that serializes to its payload. -/
theorem append_frame {w : LogWriter} {L : Layout pb} (hw : w.Holds L) (f : Frame pb)
    (hs : pb.serializeToString f.event = some f.payload) :
    w.append pb f.event f.arrival = w.appendPayload f.payload f.arrival := by
  have hsize : ¬kMaximumPayloadSize.toNat < f.payload.length := Nat.not_lt.mpr f.payload_le
  rw [append, if_neg (by simp [hw.good]), if_neg (by simp [f.schema]), hs]
  exact if_neg hsize

/-- **One append**: a frame that serializes to its payload is added to the layout. -/
theorem append_holds {w : LogWriter} {L : Layout pb} (hw : w.Holds L) (f : Frame pb)
    (hs : pb.serializeToString f.event = some f.payload)
    (hgood : (w.append pb f.event f.arrival).2.output.goodbit = true) :
    (w.append pb f.event f.arrival).1 = true ∧
      (w.append pb f.event f.arrival).2.Holds (L.append [f]) := by
  rw [append_frame hw f hs] at hgood ⊢
  obtain ⟨hwritten, heq⟩ := appendPayload_good hgood
  rw [hw.recordCount, recordHeader_frame] at hwritten heq
  obtain ⟨hfirst, hbytes₂, hopen₂⟩ := OFStream.write_good hwritten
  obtain ⟨_, hbytes₁, hopen₁⟩ := OFStream.write_good hfirst
  have hframe : (L.append [f]).bytes = L.bytes ++ (f.header L.frames.length ++ f.payload) := by
    rw [L.append_bytes, framesBytes, framesBytes, List.append_nil, Frame.bytes]
  have hholds : LogWriter.Holds
      {w with
        output := (w.output.write (f.header L.frames.length)).write f.payload
        bytesWritten := w.bytesWritten + UInt64.ofNat (f.header L.frames.length).length +
          UInt64.ofNat f.payload.length
        recordCount := UInt64.ofNat L.frames.length + 1} (L.append [f]) :=
    { noError := hw.noError
      isOpen := by rw [hopen₂, hopen₁, hw.isOpen]
      goodbit := hwritten
      bytes := by rw [hbytes₂, hbytes₁, hw.bytes, hframe, List.append_assoc]
      recordCount := by
        rw [Layout.append, List.length_append, UInt64.ofNat_add]
        rfl
      bytesWritten := by
        rw [hframe, List.length_append, List.length_append, UInt64.ofNat_add, UInt64.ofNat_add,
          ← UInt64.add_assoc, hw.bytesWritten] }
  rw [heq] at hgood ⊢
  split
  · rename_i hdue
    rw [if_pos hdue] at hgood
    exact flush_holds hholds hgood
  · exact ⟨rfl, hholds⟩

end LogWriter

end TraceForge.Recording
