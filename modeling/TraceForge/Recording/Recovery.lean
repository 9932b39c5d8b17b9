import TraceForge.Recording.Acceptance
import TraceForge.Telemetry.Wire

/-! `recover_truncated_tail`: cutting an incomplete final record off.

A log that ends in a truncated tail is a layout and a tail (`readLog_cases`), the cut leaves the
layout, and reading a layout is complete. Nothing else is ever changed. -/
namespace TraceForge.Recording
open Library Telemetry

structure RecoveryResult where
  succeeded : Bool := false
  changed : Bool := false
  originalSize : UInt64 := 0
  recoveredSize : UInt64 := 0
  message : String := ""
deriving DecidableEq

/-- The result and the file afterwards. A resize that fails leaves the file alone. -/
def recoverTruncatedTail (pb : Protobuf) (access : Access) (file : File)
    (options : LogReadOptions) : RecoveryResult × File :=
  let readResult := readLog pb access file options
  let recovery : RecoveryResult :=
    { originalSize := readResult.fileSize
      recoveredSize := readResult.fileSize }
  if readResult.status = .complete then
    ({recovery with succeeded := true, message := "log was already complete"}, file)
  else if readResult.status ≠ .truncatedTail ∨ readResult.validBytes < kFileHeaderSize then
    ({recovery with message := "refusing recovery because the log is not a " ++
        "recoverable truncated tail: " ++ readResult.message}, file)
  else match if access.resizes then file.resize? readResult.validBytes.toNat else none with
  | none => ({recovery with message := "failed to truncate incomplete tail"}, file)
  | some resized =>
    ({recovery with
        succeeded := true
        changed := true
        recoveredSize := readResult.validBytes
        message := "removed incomplete final record"}, resized)

variable {pb : Protobuf}

/-! ### Which files are changed -/

/-- Anything but a truncated tail that can be resized is left alone. -/
theorem recover_unchanged (pb : Protobuf) (access : Access) (file : File)
    (options : LogReadOptions)
    (h : ¬((readLog pb access file options).status = .truncatedTail ∧ access.resizes = true)) :
    let outcome := recoverTruncatedTail pb access file options
    outcome.1.changed = false ∧ outcome.2 = file ∧
      (outcome.1.succeeded = true ↔ (readLog pb access file options).status = .complete) ∧
      outcome.1.originalSize = (readLog pb access file options).fileSize ∧
      outcome.1.recoveredSize = (readLog pb access file options).fileSize := by
  intro outcome
  simp only [outcome, recoverTruncatedTail]
  by_cases hc : (readLog pb access file options).status = .complete
  · rw [if_pos hc]
    simp only [hc, and_self]
  rw [if_neg hc]
  split
  · simp only [hc, Bool.false_eq_true, and_self]
  rename_i hlong
  have htruncated := not_not.mp (not_or.mp hlong).1
  have hresizes : access.resizes = false :=
    Bool.eq_false_of_not_eq_true fun hr => h ⟨htruncated, hr⟩
  simp only [hresizes, hc, Bool.false_eq_true, if_false, and_self]

/-- Only a file that could be read has a truncated tail. -/
theorem granted_of_truncated {access : Access} {file : File} {options : LogReadOptions}
    (h : (readLog pb access file options).status = .truncatedTail) :
    access.sizeKnown = true ∧ access.opens = true ∧
      readLog pb access file options = readLog pb .granted file options := by
  refine granted_of_read ?_
  rw [h]
  exact fun hio => by cases hio

/-- The bytes a truncated log is cut to: a layout the options admit, with a tail behind it. -/
theorem layout_of_truncated {file : File} {options : LogReadOptions}
    (h : (readLog pb .granted file options).status = .truncatedTail) :
    ∃ (L : Layout pb) (tail : List UInt8) (v : LogReadStatus × String),
      file.bytes = L.bytes ++ tail ∧ L.frames.length ≤ options.maximumRecords.toNat ∧
        readLog pb .granted file options = L.result file options v := by
  cases hheader : headerRefusal file with
  | some message =>
    rw [readLog_refused hheader] at h
    cases h
  | none =>
    obtain ⟨L, tail, v, hb, hn, _, hread⟩ := readLog_cases pb file options hheader
    exact ⟨L, tail, v, hb, hn, hread⟩

theorem layout_validBytes {file : File} {L : Layout pb} {tail : List UInt8}
    (hb : file.bytes = L.bytes ++ tail) :
    (UInt64.ofNat L.bytes.length).toNat = L.bytes.length ∧
      (file.cut L.bytes.length).bytes = L.bytes := by
  have hlt := file.length_lt
  rw [hb, List.length_append] at hlt
  refine ⟨?_, ?_⟩
  · rw [UInt64.toNat_ofNat']
    omega
  · rw [File.cut_bytes, hb, List.take_left]

/-- **A truncated tail is cut off**, when the file can be resized: what is left is the layout in
front of it. -/
theorem recover_truncated {access : Access} {file : File} {options : LogReadOptions}
    {L : Layout pb} {tail : List UInt8} {v : LogReadStatus × String}
    (hread : readLog pb access file options = L.result file options v)
    (hv : v.1 = .truncatedTail) (hb : file.bytes = L.bytes ++ tail)
    (hresizes : access.resizes = true) :
    recoverTruncatedTail pb access file options =
      ({ succeeded := true
         changed := true
         originalSize := file.size
         recoveredSize := UInt64.ofNat L.bytes.length
         message := "removed incomplete final record" }, file.cut L.bytes.length) := by
  obtain ⟨hvalid, _⟩ := layout_validBytes hb
  have hcomplete : (L.result file options v).status ≠ .complete := by
    show v.1 ≠ .complete
    rw [hv]
    decide
  have hlong : ¬((L.result file options v).status ≠ .truncatedTail ∨
      (L.result file options v).validBytes < kFileHeaderSize) := by
    rintro (hstatus | hshort)
    · exact hstatus hv
    · have hshort : (UInt64.ofNat L.bytes.length).toNat < 32 := UInt64.lt_iff_toNat_lt.mp hshort
      rw [hvalid, L.bytes_length] at hshort
      omega
  have hresize : file.resize? (L.result file options v).validBytes.toNat =
      some (file.cut L.bytes.length) := by
    show file.resize? (UInt64.ofNat L.bytes.length).toNat = _
    rw [hvalid]
    apply File.resize?_of_le
    rw [hb, List.length_append]
    exact Nat.le_add_right ..
  simp only [recoverTruncatedTail, hread, if_neg hcomplete, if_neg hlong, hresizes, if_true,
    hresize]
  rfl

/-- What is left of a truncated log reads complete, with the records it had. -/
theorem readLog_cut_layout {file : File} (options : LogReadOptions) {L : Layout pb}
    {tail : List UInt8} (hb : file.bytes = L.bytes ++ tail)
    (hn : L.frames.length ≤ options.maximumRecords.toNat) :
    readLog pb .granted (file.cut L.bytes.length) options =
      L.result (file.cut L.bytes.length) options complete :=
  readLog_complete options (layout_validBytes hb).2.symm hn

/-! ### Recovery is sound -/

theorem readLog_fileSize (pb : Protobuf) (access : Access) (file : File)
    (options : LogReadOptions) :
    (readLog pb access file options).fileSize =
      if access.sizeKnown then file.size else fileSizeUnknown := by
  obtain ⟨sizeKnown, opens, resizes⟩ := access
  cases sizeKnown
  · rfl
  cases opens
  · rfl
  show (readLog pb .granted file options).fileSize = file.size
  cases hheader : headerRefusal file with
  | some message =>
    rw [readLog_refused hheader]
    rfl
  | none =>
    obtain ⟨L, tail, v, _, _, _, hread⟩ := readLog_cases pb file options hheader
    rw [hread]
    rfl

/-- **Recovery is sound on any file.** It changes exactly the logs with a truncated tail that can
be resized, to the bytes that were valid; those read complete, with the index and the records
they had, and are not changed again. Every other file is left alone. It succeeds when the log was
complete or was changed, and the sizes it reports are the file's when the system knows them. -/
theorem recover_sound (pb : Protobuf) (access : Access) (file : File)
    (options : LogReadOptions) :
    let before := readLog pb access file options
    let recovery := (recoverTruncatedTail pb access file options).1
    let after := (recoverTruncatedTail pb access file options).2
    (recovery.changed = true ↔ before.status = .truncatedTail ∧ access.resizes = true) ∧
      (recovery.changed = true →
        after.bytes = file.bytes.take before.validBytes.toNat ∧
        (readLog pb access after options).status = .complete ∧
        (readLog pb access after options).index = before.index ∧
        (readLog pb access after options).records = before.records ∧
        (recoverTruncatedTail pb access after options).1.succeeded = true ∧
        (recoverTruncatedTail pb access after options).1.changed = false ∧
        (recoverTruncatedTail pb access after options).2 = after) ∧
      (recovery.changed = false → after = file) ∧
      (recovery.succeeded = true ↔ before.status = .complete ∨ recovery.changed = true) ∧
      (if access.sizeKnown then
        recovery.originalSize = file.size ∧ recovery.recoveredSize = after.size
      else recovery.originalSize = fileSizeUnknown ∧
        recovery.recoveredSize = fileSizeUnknown) := by
  intro before recovery after
  by_cases h : before.status = .truncatedTail ∧ access.resizes = true
  · obtain ⟨hstatus, hresizes⟩ := h
    obtain ⟨hknown, hopens, hgranted⟩ := granted_of_truncated hstatus
    have hagain : access = .granted := by
      obtain ⟨sizeKnown, opens, resizes⟩ := access
      simp only at hknown hopens hresizes
      subst hknown hopens hresizes
      rfl
    subst hagain
    obtain ⟨L, tail, v, hb, hn, hread⟩ := layout_of_truncated hstatus
    have hv : v.1 = .truncatedTail := by
      simp only [before, hread] at hstatus
      exact hstatus
    have houtcome := recover_truncated hread hv hb hresizes
    obtain ⟨hvalid, hcut⟩ := layout_validBytes hb
    have hreread := readLog_cut_layout options hb hn
    have hsecond := recover_unchanged pb .granted (file.cut L.bytes.length) options (by
        rw [hreread]
        rintro ⟨hstatus, _⟩
        cases hstatus)
    simp only [hreread] at hsecond
    obtain ⟨hchanged, hsame, hsucceeded, _⟩ := hsecond
    have hrecovered : UInt64.ofNat L.bytes.length = (file.cut L.bytes.length).size := by
      rw [File.size, hcut]
    have hfront : (file.cut L.bytes.length).bytes =
        file.bytes.take (L.result file options v).validBytes.toNat := by
      show _ = file.bytes.take (UInt64.ofNat L.bytes.length).toNat
      rw [hvalid, File.cut_bytes]
    simp only [recovery, after, before, houtcome, hread, hreread]
    refine ⟨⟨fun _ => ⟨hv, hresizes⟩, fun _ => trivial⟩, fun _ => ?_, fun h => ?_, ?_, ?_⟩
    · exact ⟨hfront, rfl, rfl, rfl, hsucceeded.mpr rfl, hchanged, hsame⟩
    · cases h
    · exact ⟨fun _ => .inr trivial, fun _ => trivial⟩
    · exact ⟨trivial, hrecovered⟩
  · obtain ⟨hchanged, hsame, hsucceeded, horiginal, hrecovered⟩ :=
      recover_unchanged pb access file options h
    have hsize := readLog_fileSize pb access file options
    simp only [recovery, after, before, hchanged, hsame, hsucceeded, horiginal, hrecovered,
      Bool.false_eq_true, false_iff, or_false, IsEmpty.forall_iff, forall_const, true_and]
    refine ⟨h, ?_⟩
    cases hknown : access.sizeKnown
    · rw [hknown] at hsize
      exact ⟨hsize, hsize⟩
    · rw [hknown] at hsize
      exact ⟨hsize, hsize⟩

/-- Where the system does not tell the size of a file, the sizes reported are not the file's. -/
theorem recover_size_unknown :
    let file : File := ⟨[0x54, 0x46], by decide⟩
    let outcome := recoverTruncatedTail (Wire.protobuf []) ⟨false, true, true⟩ file {}
    ¬(outcome.1.originalSize = file.size ∧ outcome.1.recoveredSize = outcome.2.size) := by
  decide

end TraceForge.Recording
