import TraceForge.Library.Burst
import TraceForge.Recording.Recovery

/-! Bursts of damage.

A checksum covers the file header, each record header and each payload. Within any one of them,
damage to at most four consecutive bytes changes the register of its checksum, also where the
window reaches into the stored checksum (`header_burst`, `payload_burst`). The first check that
notices is always one that refuses the log as corrupt, never one that takes it for a truncated
tail: a damaged length is refused by the header's checksum before it is looked at. -/
namespace TraceForge.Recording
open Library Telemetry
open LittleEndian (split combine)

/-! ### Checksums and bursts -/

/-- The register after the bytes, before the final complement. -/
def checksumRegister (bytes : List UInt8) : BitVec 32 :=
  Crc.register polynomial (BitVec.allOnes 32) bytes

theorem checksumRegister_burst {a b : List UInt8} {lo hi : Nat} (h : DiffersWithin a b lo hi)
    (hne : b ≠ a) (hwindow : hi ≤ lo + 4) : checksumRegister a ≠ checksumRegister b := by
  obtain ⟨before, x, y, after, hax, hby, hxy, hshort⟩ := h.split (Nat.le_of_lt (h.lt_of_ne hne))
  have hdiffer : x ≠ y := fun heq => hne (by rw [hax, hby, heq])
  rw [hax, hby]
  exact Crc.register_burst polynomial polynomial_msb _ before after hxy (by omega) hdiffer

theorem crc32c_register {a b : List UInt8} (h : crc32c a = crc32c b) :
    checksumRegister a = checksumRegister b := by
  have hbits := congrArg UInt32.toBitVec h
  rw [crc32c_toBitVec, crc32c_toBitVec] at hbits
  exact BitVec.not_inj.mp hbits

/-- Bytes that end in their own checksum leave one constant in the register. -/
theorem checked_register {covered check : List UInt8}
    (h : check = split 4 (crc32c covered).toNat) :
    checksumRegister (covered ++ check) = Crc.shifts polynomial 32 (BitVec.allOnes 32) := by
  have hlen : 8 * check.length = 32 := by rw [h, LittleEndian.split_length]
  apply (Crc.register_check polynomial polynomial_msb _ (BitVec.allOnes 32) covered check hlen).mpr
  have hpack : Crc.pack 32 check = (crc32c covered).toBitVec := by
    apply BitVec.eq_of_toNat_eq
    rw [Crc.pack_toNat (by omega), h, LittleEndian.combine_split_of_lt (crc_lt covered)]
    rfl
  rw [hpack, crc32c_toBitVec, BitVec.xor_allOnes]

theorem payload_burst {a b : List UInt8} {lo hi : Nat} (h : DiffersWithin a b lo hi)
    (hne : b ≠ a) (hwindow : hi ≤ lo + 4) : crc32c a ≠ crc32c b :=
  fun hcrc => checksumRegister_burst h hne hwindow (crc32c_register hcrc)

/-- Bytes whose last four are the checksum of those before. -/
def Checked (covered : Nat) (header : List UInt8) : Prop :=
  (header.drop covered).take 4 = split 4 (crc32c (header.take covered)).toNat

theorem Checked.register {covered : Nat} {header : List UInt8} (h : Checked covered header)
    (hlen : header.length = covered + 4) :
    checksumRegister header = Crc.shifts polynomial 32 (BitVec.allOnes 32) := by
  have hcheck : (header.drop covered).take 4 = header.drop covered :=
    List.take_of_length_le (by rw [List.length_drop]; omega)
  have hregister := checked_register (hcheck.symm.trans h)
  rwa [List.take_append_drop] at hregister

/-- Two headers cannot both carry their own checksum and differ in a burst. -/
theorem header_burst {a b : List UInt8} {lo hi covered : Nat} (h : DiffersWithin a b lo hi)
    (hne : b ≠ a) (hwindow : hi ≤ lo + 4) (hlen : a.length = covered + 4)
    (ha : Checked covered a) : ¬Checked covered b := fun hb =>
  checksumRegister_burst h hne hwindow
    ((ha.register hlen).trans (hb.register (h.length.trans hlen)).symm)

/-! ### What the reader makes of it -/

theorem checkFileHeader_checked {header : List UInt8} (hlen : header.length = 32)
    (h : checkFileHeader header = none) : Checked 28 header := by
  unfold checkFileHeader at h
  split at h
  · cases h
  split at h
  · cases h
  split at h
  · cases h
  rename_i hcheck
  exact (checksum_iff _ _ _ (by omega)).mp (not_not.mp hcheck)

/-- A record header without its own checksum is corrupt, whatever its length field says. -/
theorem checkRecordHeader_unchecked {header : List UInt8} (hlen : header.length = 36)
    (h : ¬Checked 32 header) : ∃ message, checkRecordHeader header = some (.corrupt, message) := by
  unfold checkRecordHeader
  split
  · exact ⟨_, rfl⟩
  split
  · exact ⟨_, rfl⟩
  split
  · exact ⟨_, rfl⟩
  rename_i hcheck
  exact absurd ((checksum_iff _ _ _ (by omega)).mp (not_not.mp hcheck)) h

variable {pb : Protobuf}

theorem Frame.header_checked (f : Frame pb) (i : Nat) : Checked 32 (f.header i) := by
  have hlen := f.header_length i
  have hpass := checkRecordHeader_frame f i
  by_contra hbad
  obtain ⟨message, hrefused⟩ := checkRecordHeader_unchecked hlen hbad
  rw [hpass] at hrefused
  cases hrefused

/-- A damaged record header refuses the record. -/
theorem inspect_header {f : Frame pb} {i : Nat} {header : List UInt8} (rest : List UInt8)
    {lo hi : Nat}
    (h : DiffersWithin (f.header i) header lo hi) (hne : header ≠ f.header i)
    (hwindow : hi ≤ lo + 4) :
    ∃ message, inspect pb i (header ++ rest) = .error (.corrupt, message) := by
  have hlen : header.length = 36 := by rw [h.length, f.header_length]
  obtain ⟨message, hrefused⟩ := checkRecordHeader_unchecked hlen
    (header_burst h hne hwindow (f.header_length i) (f.header_checked i))
  have htake : (header ++ rest).take 36 = header := by rw [← hlen, List.take_left]
  refine ⟨message, ?_⟩
  rw [inspect, if_neg (by rw [List.length_append]; omega), htake, hrefused]

/-- A damaged payload behind an intact header refuses the record. -/
theorem inspect_payload {f : Frame pb} (i : Nat) {payload : List UInt8} (rest : List UInt8)
    {lo hi : Nat} (h : DiffersWithin f.payload payload lo hi) (hne : payload ≠ f.payload)
    (hwindow : hi ≤ lo + 4) :
    ∃ message, inspect pb i (f.header i ++ (payload ++ rest)) = .error (.corrupt, message) := by
  have hlen := f.header_length i
  have htake : (f.header i ++ (payload ++ rest)).take 36 = f.header i := by
    rw [← hlen, List.take_left]
  have hdrop : (f.header i ++ (payload ++ rest)).drop 36 = payload ++ rest := by
    rw [← hlen, List.drop_left]
  have hsize : (decodeLittleEndian 4 (f.header i) 8).toUInt32.toNat = payload.length := by
    rw [decode_payloadSize, f.payloadSize_toNat, h.length]
  have hcrc : (decodeLittleEndian 4 (f.header i) 12).toUInt32 ≠ crc32c payload := by
    rw [decode_payloadCrc]
    exact payload_burst h hne hwindow
  refine ⟨"record payload checksum mismatch", ?_⟩
  simp only [inspect, htake, hdrop, hsize, checkRecordHeader_frame, List.take_left]
  rw [if_neg (by rw [List.length_append]; omega),
    if_neg (by rw [List.length_append, List.length_append]; omega), checkRecordPayload,
    if_pos hcrc]

/-! ### Damaged logs -/

/-- The bytes from `start` to `stop` are covered by one checksum, behind `n` records. -/
inductive Covered (index : List LogIndexEntry) : Nat → Nat → Nat → Prop where
  | fileHeader : Covered index 0 0 32
  | recordHeader {n : Nat} {entry : LogIndexEntry} (at_n : index[n]? = some entry) :
    Covered index n entry.fileOffset.toNat (entry.fileOffset.toNat + 36)
  | payload {n : Nat} {entry : LogIndexEntry} (at_n : index[n]? = some entry) :
    Covered index n (entry.fileOffset.toNat + 36)
      (entry.fileOffset.toNat + 36 + entry.payloadSize.toNat)

/-- A log whose record `n` is refused as corrupt reads as corrupt, with the records before it. -/
theorem readLog_refused_record {L : Layout pb} {damaged : File} {options : LogReadOptions}
    {n : Nat} {rest : List UInt8} {message : String}
    (hb : damaged.bytes = (L.prefixOf n).bytes ++ rest) (hn : n < L.frames.length)
    (hlimit : L.frames.length ≤ options.maximumRecords.toNat)
    (hinspect : inspect pb n rest = .error (.corrupt, message)) :
    (readLog pb .granted damaged options).status = .corrupt ∧
      (readLog pb .granted damaged options).index = L.index.take n := by
  have hcount := Layout.prefixOf_length (Nat.le_of_lt hn)
  have hne : rest ≠ [] := by
    rintro rfl
    cases hinspect
  have hread : readLog pb .granted damaged options =
      (L.prefixOf n).result damaged options (.corrupt, message) :=
    readLog_layout hb (by omega)
      (by rw [verdict, if_neg hne, if_neg (by omega), hcount, hinspect])
  rw [hread]
  exact ⟨rfl, L.prefixOf_index n⟩

theorem readLog_refused_header {L : Layout pb} {file damaged : File} {options : LogReadOptions}
    {lo hi : Nat} (hb : L.bytes = file.bytes)
    (hdamage : DiffersWithin file.bytes damaged.bytes lo hi) (hne : damaged.bytes ≠ file.bytes)
    (hwindow : hi ≤ lo + 4) (hstop : hi ≤ 32) :
    (readLog pb .granted damaged options).status = .corrupt ∧
      (readLog pb .granted damaged options).index = [] := by
  have hheader := L.header.bytes_length
  have hchecked := checkFileHeader_checked hheader (checkFileHeader_bytes L.header)
  rw [← hb, Layout.bytes] at hdamage hne
  have hfront : DiffersWithin ([] ++ (L.header.bytes ++ framesBytes 0 L.frames)) damaged.bytes
      lo hi := hdamage
  have hinside : hi ≤ ([] : List UInt8).length + L.header.bytes.length := by
    rw [hheader, List.length_nil, Nat.zero_add]
    exact hstop
  obtain ⟨header, hd, hpart⟩ := hfront.part (Nat.zero_le lo) hinside
  have hdiffer : header ≠ L.header.bytes := by
    rintro rfl
    exact hne hd
  have hlen : header.length = 32 := by rw [hpart.length, hheader]
  have htake : damaged.bytes.take 32 = header := by rw [hd, ← hlen]; exact List.take_left
  have hunchecked := header_burst hpart hdiffer
    (by simp only [List.length_nil, Nat.sub_zero]; exact hwindow) hheader hchecked
  obtain ⟨message, hrefusal⟩ : ∃ message, headerRefusal damaged = some message := by
    unfold headerRefusal
    split
    · exact ⟨_, rfl⟩
    rw [htake]
    cases hcheck : checkFileHeader header with
    | some message => exact ⟨message, rfl⟩
    | none => exact absurd (checkFileHeader_checked hlen hcheck) hunchecked
  rw [readLog_refused hrefusal]
  exact ⟨rfl, rfl⟩

/-- **A burst of damage is always noticed and never truncated away.** Damage to at most four
consecutive bytes of a complete log, all of them covered by one checksum, makes it corrupt, with
the index of the records before; recovery refuses it and leaves it as it is. -/
theorem readLog_burst (pb : Protobuf) (file damaged : File) (options : LogReadOptions)
    (n start stop lo hi : Nat)
    (hcomplete : (readLog pb .granted file options).status = .complete)
    (hcovered : Covered (readLog pb .granted file options).index n start stop)
    (hdamage : DiffersWithin file.bytes damaged.bytes lo hi)
    (hne : damaged.bytes ≠ file.bytes) (hwindow : hi ≤ lo + 4) (hstart : start ≤ lo)
    (hstop : hi ≤ stop) :
    let result := readLog pb .granted damaged options
    let recovery := (recoverTruncatedTail pb .granted damaged options).1
    result.status = .corrupt ∧
      result.index = (readLog pb .granted file options).index.take n ∧
      recovery.succeeded = false ∧ recovery.changed = false ∧
      (recoverTruncatedTail pb .granted damaged options).2 = damaged := by
  intro result recovery
  obtain ⟨L, hb, hn⟩ := layout_of_complete hcomplete
  have hindex : (readLog pb .granted file options).index = L.index := by
    rw [readLog_complete options hb hn]
    rfl
  rw [hindex] at hcovered ⊢
  have hread : result.status = .corrupt ∧ result.index = L.index.take n := by
    have hlong := file.length_lt
    rw [← hb] at hlong
    cases hcovered with
    | fileHeader => exact readLog_refused_header hb hdamage hne hwindow hstop
    | recordHeader hat =>
      obtain ⟨f, hf, rfl⟩ := Layout.entry_at hat
      have hbytes := Layout.bytes_at hf
      have hoffset : ((f.entry n (L.prefixOf n).bytes.length).fileOffset).toNat =
          (L.prefixOf n).bytes.length := (layout_validBytes (hb.symm.trans hbytes)).1
      rw [hoffset] at hstart hstop
      rw [← hb, hbytes, Frame.bytes, List.append_assoc] at hdamage hne
      obtain ⟨header, hd, hpart⟩ := hdamage.part hstart (by rw [f.header_length]; exact hstop)
      have hdiffer : header ≠ f.header n := by
        rintro rfl
        exact hne hd
      obtain ⟨message, hinspect⟩ := inspect_header
        (f.payload ++ framesBytes (n + 1) (L.frames.drop (n + 1))) hpart hdiffer (by omega)
      exact readLog_refused_record hd (List.getElem?_eq_some_iff.mp hf).1 hn hinspect
    | payload hat =>
      obtain ⟨f, hf, rfl⟩ := Layout.entry_at hat
      have hbytes := Layout.bytes_at hf
      have hoffset : ((f.entry n (L.prefixOf n).bytes.length).fileOffset).toNat =
          (L.prefixOf n).bytes.length := (layout_validBytes (hb.symm.trans hbytes)).1
      have hsize : ((f.entry n (L.prefixOf n).bytes.length).payloadSize).toNat =
          f.payload.length := f.payloadSize_toNat
      rw [hoffset] at hstart hstop
      rw [hsize] at hstop
      rw [← hb, hbytes, Frame.bytes, List.append_assoc, ← List.append_assoc] at hdamage hne
      have hbefore : ((L.prefixOf n).bytes ++ f.header n).length =
          (L.prefixOf n).bytes.length + 36 := by
        rw [List.length_append, f.header_length]
      obtain ⟨payload, hd, hpart⟩ := hdamage.part (by rw [hbefore]; exact hstart)
        (by rw [hbefore]; exact hstop)
      have hdiffer : payload ≠ f.payload := by
        rintro rfl
        exact hne hd
      obtain ⟨message, hinspect⟩ := inspect_payload n
        (framesBytes (n + 1) (L.frames.drop (n + 1))) hpart hdiffer (by omega)
      rw [List.append_assoc] at hd
      exact readLog_refused_record hd (List.getElem?_eq_some_iff.mp hf).1 hn hinspect
  obtain ⟨hstatus, htaken⟩ := hread
  obtain ⟨hchanged, hsame, hsucceeded, _⟩ := recover_unchanged pb .granted damaged options fun h => by
      rw [show (readLog pb .granted damaged options).status = .corrupt from hstatus] at h
      cases h.1
  have hfailed : recovery.succeeded = false :=
    Bool.eq_false_of_not_eq_true fun h => by
      rw [show (readLog pb .granted damaged options).status = .corrupt from hstatus] at hsucceeded
      cases hsucceeded.mp h
  exact ⟨hstatus, htaken, hfailed, hchanged, hsame⟩

/-- A flipped bit in the second payload's length field. -/
theorem readLog_burst_length :
    let damaged : File := ⟨sampleLog.bytes.set 98 0x17, by
      rw [List.length_set, sampleLog_length]; decide⟩
    (readLog samplePb .granted damaged {}).status = .corrupt ∧
      (readLog samplePb .granted damaged {}).index = [sampleFrame.entry 0 32] := by
  intro damaged
  have hread := readLog_complete {} sampleLog_layout (by decide)
  have hdamage : DiffersWithin sampleLog.bytes damaged.bytes 98 99 := by
    refine ⟨List.length_set, fun i hne => ?_⟩
    by_contra hout
    exact hne (List.getElem?_set_ne (by omega))
  have hat : (readLog samplePb .granted sampleLog {}).index[1]? =
      some (sampleFrame.entry 1 90) := by
    rw [hread]
    rfl
  have hburst := readLog_burst samplePb sampleLog damaged {} 1 90 126 98 99 (by rw [hread]; rfl)
    (.recordHeader hat) hdamage (by decide +kernel) (by decide) (by decide) (by decide)
  rw [hread] at hburst
  exact ⟨hburst.1, hburst.2.1⟩

end TraceForge.Recording
