import TraceForge.Recording.Truncation

/-! What recovery may remove.

A tail that an interrupted append can leave starts like a record with the next number, as far as
it goes (`CutAppend`). The reader looks at a tail's length before it looks at its bytes, so
recovery also removes tails that no append of this log can have left (`ForeignTail`):
`removes_cut_appends_iff`. -/
namespace TraceForge.Recording
open Library Telemetry
open LittleEndian (split)

variable {pb : Protobuf}

/-- How every record starts: the magic, the header size and the version. -/
def recordStart : List UInt8 := kRecordMagic ++ (split 2 36 ++ split 2 1)

/-- What an append of record `n` may have left: the bytes that are there are those of a record,
and a whole header has the number `n`. -/
def CutAppend (n : Nat) (tail : List UInt8) : Prop :=
  tail.take 8 <+: recordStart ∧ (36 ≤ tail.length → (decodeLittleEndian 8 tail 16).toNat = n)

/-- Recovery of this file removes nothing but a cut append, and refuses a file whose remaining
bytes are anything else. -/
def RemovesCutAppends (pb : Protobuf) (access : Access) (file : File) (options : LogReadOptions) :
    Prop :=
  let recovery := (recoverTruncatedTail pb access file options).1
  let after := (recoverTruncatedTail pb access file options).2
  (recovery.changed = true →
    CutAppend (readLog pb access after options).index.length
      (file.bytes.drop after.bytes.length)) ∧
  ∀ (L : Layout pb) (tail : List UInt8), file.bytes = L.bytes ++ tail →
    ¬CutAppend L.frames.length tail →
    recovery.succeeded = false ∧ recovery.changed = false ∧ after = file

/-- An incomplete tail of a log below its record limit that no append of it can have left: less
than a header whose bytes are not a record's, or a header that passes its checks with another
number than the next, in front of an incomplete payload. -/
def ForeignTail (pb : Protobuf) (access : Access) (file : File) (options : LogReadOptions) :
    Prop :=
  access = .granted ∧ ∃ (L : Layout pb) (tail : List UInt8), file.bytes = L.bytes ++ tail ∧
    L.frames.length < options.maximumRecords.toNat ∧
    (tail.length < 36 ∧ ¬tail.take 8 <+: recordStart ∨
      36 ≤ tail.length ∧ checkRecordHeader (tail.take 36) = none ∧
        tail.length - 36 < (decodeLittleEndian 4 (tail.take 36) 8).toUInt32.toNat ∧
        (decodeLittleEndian 8 tail 16).toNat ≠ L.frames.length)

/-! ### Cut appends -/

theorem cutAppend_nil (n : Nat) : CutAppend n [] :=
  ⟨List.nil_prefix, fun h => absurd h (by decide)⟩

/-- A field inside the header is decoded from the header alone. -/
theorem decode_take (size offset : Nat) {tail : List UInt8} (hs : size ≤ 8)
    (ho : offset + size ≤ 36) (hlen : 36 ≤ tail.length) :
    decodeLittleEndian size (tail.take 36) offset = decodeLittleEndian size tail offset := by
  have htake : ((tail.take 36).drop offset).take size = (tail.drop offset).take size := by
    rw [List.drop_take, List.take_take, Nat.min_eq_left (by omega)]
  apply UInt64.toNat_inj.mp
  rw [decode_toNat size _ offset hs (by rw [List.length_take]; omega),
    decode_toNat size tail offset hs (by omega), htake]

/-- A header that passes its checks starts like a record. -/
theorem start_of_check {tail : List UInt8} (hlen : 36 ≤ tail.length)
    (h : checkRecordHeader (tail.take 36) = none) : tail.take 8 = recordStart := by
  unfold checkRecordHeader at h
  split at h
  · cases h
  rename_i hmagic
  split at h
  · cases h
  rename_i hversion
  obtain ⟨hsize, hversion⟩ := not_or.mp hversion
  have hmagic : tail.take 4 = kRecordMagic := by
    rw [← not_not.mp hmagic, List.take_take]
    rfl
  have h4 := field_of_decode 2 tail 4 (by decide) (by omega)
  have h6 := field_of_decode 2 tail 6 (by decide) (by omega)
  rw [← decode_take 2 4 (by decide) (by decide) hlen, not_not.mp hsize] at h4
  rw [← decode_take 2 6 (by decide) (by decide) hlen, not_not.mp hversion] at h6
  have h8 : tail.take 8 = tail.take 4 ++ ((tail.drop 4).take 2 ++ (tail.drop 6).take 2) := by
    rw [← List.take_append_drop 4 (tail.take 8), List.take_take, List.drop_take,
      ← List.take_append_drop 2 ((tail.drop 4).take (8 - 4)), List.take_take, List.drop_take,
      List.drop_drop]
    rfl
  rw [h8, h4, h6, hmagic]
  rfl

/-- Whatever starts with a whole record is what an append of it may have left. -/
theorem cutAppend_frame (f : Frame pb) {n : Nat} (hn : n < 2 ^ 64) (rest : List UInt8) :
    CutAppend n (f.bytes n ++ rest) := by
  have hlen : 36 ≤ (f.bytes n ++ rest).length := by
    rw [List.length_append, f.bytes_length]
    omega
  have htake : (f.bytes n ++ rest).take 36 = f.header n := by
    rw [Frame.bytes, List.append_assoc, ← f.header_length n, List.take_left]
  refine ⟨?_, fun _ => ?_⟩
  · have hstart := start_of_check hlen (by rw [htake]; exact checkRecordHeader_frame f n)
    exact hstart.symm ▸ List.prefix_rfl
  · rw [← decode_take 8 16 (by decide) (by decide) hlen, htake, decode_recordIndex,
      UInt64.toNat_ofNat']
    omega

/-! ### Two ways to see a file -/

theorem framesBytes_nest {i : Nat} {fs gs : List (Frame pb)} {tail tail' : List UInt8}
    (h : framesBytes i fs ++ tail = framesBytes i gs ++ tail') :
    fs = gs ∧ tail = tail' ∨
      (∃ (f : Frame pb) (rest : List UInt8), tail = f.bytes (i + fs.length) ++ rest) ∨
      ∃ (g : Frame pb) (rest : List UInt8), tail' = g.bytes (i + gs.length) ++ rest := by
  induction fs generalizing i gs with
  | nil =>
    cases gs with
    | nil => exact .inl ⟨rfl, h⟩
    | cons g gs =>
      rw [framesBytes, framesBytes, List.append_assoc] at h
      exact .inr (.inl ⟨g, _, h⟩)
  | cons f fs ih =>
    cases gs with
    | nil =>
      rw [framesBytes, framesBytes, List.append_assoc] at h
      exact .inr (.inr ⟨f, _, h.symm⟩)
    | cons g gs =>
      rw [framesBytes, framesBytes, List.append_assoc, List.append_assoc] at h
      obtain ⟨rfl, hrest⟩ := Frame.bytes_injective h
      have hnext := ih hrest
      rw [Nat.add_right_comm i 1, Nat.add_right_comm i 1] at hnext
      rcases hnext with ⟨rfl, htail⟩ | hframe | hframe
      · exact .inl ⟨rfl, htail⟩
      · exact .inr (.inl hframe)
      · exact .inr (.inr hframe)

/-- **Two layouts in front of one file** are the same, or one of the tails starts with a record
that the other layout counts. -/
theorem layouts_nest {L M : Layout pb} {tail tail' : List UInt8}
    (h : L.bytes ++ tail = M.bytes ++ tail') :
    L = M ∧ tail = tail' ∨
      (∃ (f : Frame pb) (rest : List UInt8), tail = f.bytes L.frames.length ++ rest) ∨
      ∃ (g : Frame pb) (rest : List UInt8), tail' = g.bytes M.frames.length ++ rest := by
  rw [Layout.bytes, Layout.bytes, List.append_assoc, List.append_assoc] at h
  obtain ⟨hheader, hframes⟩ := List.append_inj h (by
    rw [L.header.bytes_length, M.header.bytes_length])
  have hnest := framesBytes_nest hframes
  rw [Nat.zero_add, Nat.zero_add] at hnest
  rcases hnest with ⟨hfs, htail⟩ | hframe | hframe
  · refine .inl ⟨?_, htail⟩
    cases L
    cases M
    simp only at hheader hfs
    rw [FileHeader.bytes_injective hheader, hfs]
  · exact .inr (.inl hframe)
  · exact .inr (.inr hframe)

/-! ### What is removed -/

/-- The reader ends on a tail as truncated exactly when its header or its payload is not there
whole, and says so of a header only after its checks. -/
theorem verdict_truncated {limit n : Nat} {tail : List UInt8} {v : LogReadStatus × String}
    (h : verdict pb limit n tail = some v) (hv : v.1 = .truncatedTail) :
    n ≠ limit ∧ (tail.length < 36 ∨ 36 ≤ tail.length ∧ checkRecordHeader (tail.take 36) = none ∧
      tail.length - 36 < (decodeLittleEndian 4 (tail.take 36) 8).toUInt32.toNat) := by
  unfold verdict at h
  split at h
  · cases h
    cases hv
  split at h
  · cases h
    cases hv
  rename_i hlimit
  refine ⟨hlimit, ?_⟩
  split at h
  · rename_i herror
    cases h
    unfold inspect at herror
    simp only at herror
    split at herror
    · rename_i hshort
      exact .inl hshort
    rename_i hlong
    split at herror
    · rename_i hfailure
      cases herror
      rcases checkRecordHeader_status hfailure with h | h <;> rw [h] at hv <;> cases hv
    rename_i hheader
    split at herror
    · rename_i hpart
      exact .inr ⟨Nat.not_lt.mp hlong, hheader, hpart⟩
    split at herror
    · rename_i hfailure
      cases herror
      rw [checkRecordPayload_status hfailure] at hv
      cases hv
    · cases herror
  · cases h

/-- A foreign tail is a truncated tail to the reader. -/
theorem readLog_foreign {file : File} {options : LogReadOptions} {L : Layout pb}
    {tail : List UInt8} (hb : file.bytes = L.bytes ++ tail)
    (hn : L.frames.length < options.maximumRecords.toNat)
    (htail : tail.length < 36 ∧ tail ≠ [] ∨
      36 ≤ tail.length ∧ checkRecordHeader (tail.take 36) = none ∧
        tail.length - 36 < (decodeLittleEndian 4 (tail.take 36) 8).toUInt32.toNat) :
    ∃ v, v.1 = .truncatedTail ∧ readLog pb .granted file options = L.result file options v := by
  have hne : tail ≠ [] := by
    rcases htail with ⟨_, hne⟩ | ⟨hlong, _⟩
    · exact hne
    · exact List.ne_nil_of_length_pos (by omega)
  obtain ⟨message, hinspect⟩ : ∃ message,
      inspect pb L.frames.length tail = .error (.truncatedTail, message) := by
    rcases htail with ⟨hshort, _⟩ | ⟨hlong, hheader, hpart⟩
    · exact ⟨_, by rw [inspect, if_pos hshort]⟩
    · refine ⟨"final record payload is incomplete", ?_⟩
      simp only [inspect, hheader]
      rw [if_neg (Nat.not_lt.mpr hlong), if_pos hpart]
  have hverdict : verdict pb options.maximumRecords.toNat L.frames.length tail =
      some (.truncatedTail, message) := by
    rw [verdict, if_neg hne, if_neg (by omega), hinspect]
  exact ⟨_, rfl, readLog_layout hb (Nat.le_of_lt hn) hverdict⟩

/-- What is changed is a layout below the limit with a tail that is not there whole. -/
theorem layout_of_changed {access : Access} {file : File} {options : LogReadOptions}
    (h : (readLog pb access file options).status = .truncatedTail ∧ access.resizes = true) :
    access = .granted ∧ ∃ (L : Layout pb) (tail : List UInt8) (v : LogReadStatus × String),
      file.bytes = L.bytes ++ tail ∧ L.frames.length < options.maximumRecords.toNat ∧
      v.1 = .truncatedTail ∧ verdict pb options.maximumRecords.toNat L.frames.length tail = some v ∧
      readLog pb .granted file options = L.result file options v := by
  obtain ⟨hstatus, hresizes⟩ := h
  obtain ⟨hknown, hopens, hgranted⟩ := granted_of_truncated hstatus
  refine ⟨?_, ?_⟩
  · obtain ⟨sizeKnown, opens, resizes⟩ := access
    simp only at hknown hopens hresizes
    subst hknown hopens hresizes
    rfl
  rw [hgranted] at hstatus
  cases hheader : headerRefusal file with
  | some message =>
    rw [readLog_refused hheader] at hstatus
    cases hstatus
  | none =>
    obtain ⟨L, tail, v, hb, hn, hverdict, hread⟩ := readLog_cases pb file options hheader
    rw [hread] at hstatus
    have hlimit := (verdict_truncated hverdict hstatus).1
    exact ⟨L, tail, v, hb, by omega, hstatus, hverdict, hread⟩

/-- What the reader ends on as truncated is a cut append or foreign. -/
theorem cutAppend_of_verdict {file : File} {options : LogReadOptions} {L : Layout pb}
    {tail : List UInt8} {v : LogReadStatus × String} (hb : file.bytes = L.bytes ++ tail)
    (hn : L.frames.length < options.maximumRecords.toNat)
    (hverdict : verdict pb options.maximumRecords.toNat L.frames.length tail = some v)
    (hv : v.1 = .truncatedTail) (hforeign : ¬ForeignTail pb .granted file options) :
    CutAppend L.frames.length tail := by
  rcases (verdict_truncated hverdict hv).2 with hshort | ⟨hlong, hheader, hpart⟩
  · refine ⟨?_, fun hlong => by omega⟩
    by_contra hstart
    exact hforeign ⟨rfl, L, tail, hb, hn, .inl ⟨hshort, hstart⟩⟩
  · refine ⟨(start_of_check hlong hheader).symm ▸ List.prefix_rfl, fun _ => ?_⟩
    by_contra hindex
    exact hforeign ⟨rfl, L, tail, hb, hn, .inr ⟨hlong, hheader, hpart, hindex⟩⟩

/-- A file with remaining bytes that are no cut append is refused unless they are foreign. -/
theorem refused_of_not_cutAppend {access : Access} {file : File} {options : LogReadOptions}
    (hforeign : ¬ForeignTail pb access file options) {L : Layout pb} {tail : List UInt8}
    (hb : file.bytes = L.bytes ++ tail) (htail : ¬CutAppend L.frames.length tail) :
    (recoverTruncatedTail pb access file options).1.succeeded = false ∧
      (recoverTruncatedTail pb access file options).1.changed = false ∧
      (recoverTruncatedTail pb access file options).2 = file := by
  have hcount (M : Layout pb) (rest : List UInt8) (hM : file.bytes = M.bytes ++ rest) :
      M.frames.length < 2 ^ 64 := by
    have hcut : M.bytes = (file.cut M.bytes.length).bytes := (layout_validBytes hM).2.symm
    have hlt := Layout.frames_length_lt hcut
    omega
  have hnoframe (f : Frame pb) (rest : List UInt8) (h : tail = f.bytes L.frames.length ++ rest) :
      False := htail (h ▸ cutAppend_frame f (hcount L tail hb) rest)
  by_cases h : (readLog pb access file options).status = .truncatedTail ∧ access.resizes = true
  · exfalso
    obtain ⟨rfl, M, rest, v, hM, hn, hv, hverdict, _⟩ := layout_of_changed h
    rcases layouts_nest (hb.symm.trans hM) with ⟨rfl, rfl⟩ | ⟨f, rest', hframe⟩ |
        ⟨f, rest', hframe⟩
    · exact htail (cutAppend_of_verdict hM hn hverdict hv hforeign)
    · exact hnoframe f rest' hframe
    -- the reader would have gone on with the record
    · have hne : rest ≠ [] := by
        apply List.ne_nil_of_length_pos
        rw [hframe, List.length_append, f.bytes_length]
        omega
      rw [verdict, if_neg hne, if_neg (by omega), hframe, inspect_frame] at hverdict
      cases hverdict
  · obtain ⟨hchanged, hsame, hsucceeded, _⟩ := recover_unchanged pb access file options h
    refine ⟨?_, hchanged, hsame⟩
    by_contra hnot
    have hcomplete := hsucceeded.mp (Bool.of_not_eq_false hnot)
    have hgranted : readLog pb access file options = readLog pb .granted file options := by
      obtain ⟨sizeKnown, opens, resizes⟩ := access
      cases sizeKnown
      · cases hcomplete
      cases opens
      · cases hcomplete
      rfl
    rw [hgranted] at hcomplete
    obtain ⟨M, hM, _⟩ := layout_of_complete hcomplete
    rw [← List.append_nil M.bytes] at hM
    rcases layouts_nest (hb.symm.trans hM.symm) with ⟨_, rfl⟩ | ⟨f, rest', hframe⟩ |
        ⟨f, rest', hframe⟩
    · exact htail (cutAppend_nil _)
    · exact hnoframe f rest' hframe
    · have hlen := congrArg List.length hframe
      rw [List.length_append, f.bytes_length, List.length_nil] at hlen
      omega

/-- **Recovery removes only cut appends exactly when the file has no foreign tail.** -/
theorem removes_cut_appends_iff (pb : Protobuf) (access : Access) (file : File)
    (options : LogReadOptions) :
    RemovesCutAppends pb access file options ↔ ¬ForeignTail pb access file options := by
  constructor
  · rintro ⟨_, hrefuses⟩ ⟨rfl, L, tail, hb, hn, htail⟩
    have hnot : ¬CutAppend L.frames.length tail := by
      rintro ⟨hstart, hindex⟩
      rcases htail with ⟨_, hforeign⟩ | ⟨hlong, _, _, hforeign⟩
      · exact hforeign hstart
      · exact hforeign (hindex hlong)
    obtain ⟨v, hv, hread⟩ := readLog_foreign hb hn (htail.imp
      (fun h => ⟨h.1, fun hnil => hnot (hnil ▸ cutAppend_nil _)⟩) fun h => ⟨h.1, h.2.1, h.2.2.1⟩)
    have hchanged := (hrefuses L tail hb hnot).2.1
    rw [recover_truncated hread hv hb rfl] at hchanged
    cases hchanged
  · intro hforeign
    refine ⟨fun hchanged => ?_, fun L tail hb htail => refused_of_not_cutAppend hforeign hb htail⟩
    have hstatus := (recover_sound pb access file options).1.mp hchanged
    obtain ⟨rfl, L, tail, v, hb, hn, hv, hverdict, hread⟩ := layout_of_changed hstatus
    obtain ⟨_, hcut⟩ := layout_validBytes hb
    have hreread : readLog pb .granted (file.cut L.bytes.length) options = _ :=
      readLog_cut_layout options hb (Nat.le_of_lt hn)
    have hkept : (L.result (file.cut L.bytes.length) options complete).index.length =
        L.frames.length := L.index_length
    rw [recover_truncated hread hv hb rfl]
    simp only [hreread]
    rw [hkept, hcut, hb, List.drop_left]
    exact cutAppend_of_verdict hb hn hverdict hv hforeign

/-! ### Foreign tails -/

/-- A log without records. -/
def emptyLayout : Layout samplePb := .headerOnly samplePb sampleLayout.header

/-- One byte behind it that no record starts with. -/
def strayByte : File where
  bytes := emptyLayout.bytes ++ [0x58]
  length_lt := by
    rw [List.length_append, Layout.bytes_length]
    decide

/-- The header of record 5 behind it, and nothing of its payload. -/
def skippedIndex : File where
  bytes := emptyLayout.bytes ++ sampleFrame.header 5
  length_lt := by
    rw [List.length_append, Layout.bytes_length, sampleFrame.header_length]
    decide

/-- Both are cut off although no append to an empty log leaves either. -/
theorem foreign_tails_removed :
    (recoverTruncatedTail samplePb .granted strayByte {}).2.bytes = emptyLayout.bytes ∧
      (recoverTruncatedTail samplePb .granted skippedIndex {}).2.bytes = emptyLayout.bytes ∧
      ¬RemovesCutAppends samplePb .granted strayByte {} ∧
      ¬RemovesCutAppends samplePb .granted skippedIndex {} := by
  have hstray : ¬CutAppend emptyLayout.frames.length [0x58] := by
    rintro ⟨hstart, _⟩
    revert hstart
    decide
  have hskipped : ¬CutAppend emptyLayout.frames.length (sampleFrame.header 5) := by
    rintro ⟨_, hindex⟩
    have hfive := hindex (by rw [sampleFrame.header_length])
    rw [decode_recordIndex] at hfive
    revert hfive
    decide
  refine ⟨by decide +kernel, by decide +kernel, fun h => ?_, fun h => ?_⟩
  · have hrefused := (h.2 emptyLayout [0x58] rfl hstray).2.1
    revert hrefused
    decide +kernel
  · have hrefused := (h.2 emptyLayout (sampleFrame.header 5) rfl hskipped).2.1
    revert hrefused
    decide +kernel

end TraceForge.Recording
