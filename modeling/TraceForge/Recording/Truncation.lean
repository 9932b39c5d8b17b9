import TraceForge.Recording.Recovery

/-! Interrupted writes.

A prefix of a log is a layout of its whole records and a part of the next one (`frames_cut`). A
part of a record is a truncated tail to the reader (`inspect_part`), so reading the prefix finds
exactly the records that lie inside it, and recovery leaves exactly those. -/
namespace TraceForge.Recording
open Library Telemetry

variable {pb : Protobuf}

/-! ### Where records end -/

/-- The first byte behind the record. -/
def LogIndexEntry.ends (entry : LogIndexEntry) : Nat :=
  entry.fileOffset.toNat + 36 + entry.payloadSize.toNat

theorem Frame.entry_ends (f : Frame pb) (i offset : Nat) (h : offset < 2 ^ 64) :
    (f.entry i offset).ends = offset + (36 + f.payload.length) := by
  have ho : (UInt64.ofNat offset).toNat = offset := by
    rw [UInt64.toNat_ofNat']
    omega
  simp only [LogIndexEntry.ends, Frame.entry, ho, f.payloadSize_toNat, Nat.add_assoc]

theorem entries_inside {i offset : Nat} {fs : List (Frame pb)}
    (hfit : offset + (framesBytes i fs).length < 2 ^ 64) :
    ∀ entry ∈ numbered Frame.entry i offset fs,
      offset < entry.ends ∧ entry.ends ≤ offset + (framesBytes i fs).length := by
  induction fs generalizing i offset with
  | nil => exact fun entry h => absurd h List.not_mem_nil
  | cons f rest ih =>
    rw [framesBytes, List.length_append, f.bytes_length] at hfit ⊢
    have hends := f.entry_ends i offset (by omega)
    intro entry hentry
    rcases List.mem_cons.mp hentry with rfl | hrest
    · omega
    · obtain ⟨hlow, hhigh⟩ := ih (by omega) entry hrest
      omega

/-- The last record ends where the frames do. -/
theorem last_ends (i offset : Nat) (fs : List (Frame pb))
    (hfit : offset + (framesBytes i fs).length < 2 ^ 64) :
    (numbered Frame.entry i offset fs).getLast?.elim offset LogIndexEntry.ends =
      offset + (framesBytes i fs).length := by
  induction fs generalizing i offset with
  | nil => rfl
  | cons f rest ih =>
    rw [framesBytes, List.length_append, f.bytes_length] at hfit ⊢
    have hends := f.entry_ends i offset (by omega)
    have hrest := ih (i + 1) (offset + (36 + f.payload.length)) (by omega)
    rw [numbered, List.getLast?_cons]
    cases hlast : (numbered Frame.entry (i + 1) (offset + (36 + f.payload.length)) rest).getLast? with
    | none =>
      rw [hlast] at hrest
      simp only [Option.elim, Option.getD] at hrest ⊢
      omega
    | some entry =>
      rw [hlast] at hrest
      simp only [Option.elim, Option.getD] at hrest ⊢
      omega

/-! ### A part of a record -/

/-- A proper part of a record is an incomplete header or an incomplete payload. -/
theorem inspect_part (f : Frame pb) (i : Nat) {n : Nat} (hn : n < 36 + f.payload.length) :
    ∃ message, inspect pb i ((f.bytes i).take n) = .error (.truncatedTail, message) := by
  have hlen : ((f.bytes i).take n).length = n := by
    rw [List.length_take, f.bytes_length]
    omega
  by_cases h36 : n < 36
  · exact ⟨_, by rw [inspect, if_pos (by rw [hlen]; exact h36)]⟩
  have htake : ((f.bytes i).take n).take 36 = f.header i := by
    rw [List.take_take, Nat.min_eq_left (Nat.not_lt.mp h36), Frame.bytes, ← f.header_length i,
      List.take_left]
  have hsize : (decodeLittleEndian 4 (f.header i) 8).toUInt32.toNat = f.payload.length := by
    rw [decode_payloadSize, f.payloadSize_toNat]
  refine ⟨"final record payload is incomplete", ?_⟩
  simp only [inspect, htake, hsize, hlen, checkRecordHeader_frame]
  rw [if_neg h36, if_pos (by omega)]

/-- **A prefix of the frames' bytes** is some whole frames and a tail that is empty or a part of
the next one; the whole frames are those that end inside it. -/
theorem frames_cut (i offset : Nat) (fs : List (Frame pb)) (n : Nat)
    (hfit : offset + (framesBytes i fs).length < 2 ^ 64) (hn : n ≤ (framesBytes i fs).length) :
    ∃ (k : Nat) (tail : List UInt8), k ≤ fs.length ∧
      (framesBytes i fs).take n = framesBytes i (fs.take k) ++ tail ∧
      (tail = [] ∨ k < fs.length ∧
        ∃ message, inspect pb (i + k) tail = .error (.truncatedTail, message)) ∧
      (numbered Frame.entry i offset fs).filter (fun entry => decide (entry.ends ≤ offset + n)) =
        numbered Frame.entry i offset (fs.take k) := by
  induction fs generalizing i offset n with
  | nil => exact ⟨0, [], Nat.le_refl _, List.take_nil, .inl rfl, rfl⟩
  | cons f rest ih =>
    rw [framesBytes, List.length_append, f.bytes_length] at hfit hn
    have hends := f.entry_ends i offset (by omega)
    by_cases hwhole : 36 + f.payload.length ≤ n
    · obtain ⟨k, tail, hk, hbytes, htail, hfilter⟩ :=
        ih (i + 1) (offset + (36 + f.payload.length)) (n - (36 + f.payload.length)) (by omega)
          (by omega)
      have hoffset : offset + (36 + f.payload.length) + (n - (36 + f.payload.length)) =
          offset + n := by omega
      have hcount : i + 1 + k = i + (k + 1) := by omega
      rw [hoffset] at hfilter
      rw [hcount] at htail
      refine ⟨k + 1, tail, Nat.succ_le_succ hk, ?_, ?_, ?_⟩
      · have hf : (f.bytes i).take n = f.bytes i :=
          List.take_of_length_le (by rw [f.bytes_length]; exact hwhole)
        rw [framesBytes, List.take_append, hf, f.bytes_length, hbytes, List.take_succ_cons,
          framesBytes, List.append_assoc]
      · exact htail.imp_right fun hpart => ⟨Nat.succ_lt_succ hpart.1, hpart.2⟩
      · have hinside : decide ((f.entry i offset).ends ≤ offset + n) = true := by
          rw [hends]
          exact decide_eq_true (by omega)
        rw [numbered, List.filter_cons, if_pos hinside, hfilter, List.take_succ_cons, numbered]
    · refine ⟨0, (f.bytes i).take n, Nat.zero_le _, ?_, .inr ⟨Nat.succ_pos _, ?_⟩, ?_⟩
      · rw [framesBytes, List.take_append_of_le_length (by rw [f.bytes_length]; omega)]
        rfl
      · exact inspect_part f i (Nat.not_le.mp hwhole)
      · apply List.filter_eq_nil_iff.mpr
        intro entry hentry
        rcases List.mem_cons.mp hentry with rfl | hrest
        · rw [hends, decide_eq_true_eq]
          omega
        · have hinside := entries_inside (by omega) entry hrest
          rw [decide_eq_true_eq]
          omega

/-! ### An interrupted log -/

/-- A log that reads to a layout and nothing or a truncated tail is recovered to the layout. -/
theorem recover_layout {file : File} {options : LogReadOptions} {L : Layout pb}
    {tail : List UInt8} {v : LogReadStatus × String}
    (hread : readLog pb .granted file options = L.result file options v)
    (hb : file.bytes = L.bytes ++ tail)
    (hv : v.1 = .complete ∧ tail = [] ∨ v.1 = .truncatedTail) :
    (recoverTruncatedTail pb .granted file options).1.succeeded = true ∧
      (recoverTruncatedTail pb .granted file options).2.bytes = L.bytes := by
  rcases hv with ⟨hv, hnil⟩ | hv
  · have hstatus : (readLog pb .granted file options).status = .complete := by
      rw [hread]
      exact hv
    obtain ⟨_, hsame, hsucceeded, _⟩ :=
      recover_unchanged pb .granted file options
        fun h => by
          rw [hstatus] at h
          cases h.1
    refine ⟨hsucceeded.mpr hstatus, ?_⟩
    rw [hsame, hb, hnil, List.append_nil]
  · rw [recover_truncated hread hv hb rfl]
    exact ⟨rfl, (layout_validBytes hb).2⟩

/-- The layout a log is cut to, with what is left of the next record. -/
theorem layout_cut {L : Layout pb} {file : File} {length : Nat} (hb : L.bytes = file.bytes)
    (hlow : 32 ≤ length) (hhigh : length ≤ file.bytes.length) :
    ∃ (k : Nat) (tail : List UInt8), k ≤ L.frames.length ∧
      (file.cut length).bytes = (L.prefixOf k).bytes ++ tail ∧
      (tail = [] ∨ k < L.frames.length ∧
        ∃ message, inspect pb k tail = .error (.truncatedTail, message)) ∧
      L.index.filter (fun entry => decide (entry.ends ≤ length)) = (L.prefixOf k).index := by
  have hlt := file.length_lt
  rw [← hb, L.bytes_length] at hhigh hlt
  obtain ⟨k, tail, hk, hbytes, htail, hfilter⟩ := frames_cut 0 32 L.frames (length - 32)
    (by omega) (by omega)
  rw [Nat.add_sub_cancel' hlow] at hfilter
  rw [Nat.zero_add] at htail
  refine ⟨k, tail, hk, ?_, htail, hfilter⟩
  have hheader : L.header.bytes.take length = L.header.bytes :=
    List.take_of_length_le (by rw [L.header.bytes_length]; exact hlow)
  rw [File.cut_bytes, ← hb, Layout.bytes, List.take_append, hheader, L.header.bytes_length, hbytes,
    ← List.append_assoc]
  rfl

/-- The cut is at a record's end exactly when nothing is left of the next record. -/
theorem boundary_iff {L : Layout pb} {file : File} {length k : Nat} {tail : List UInt8}
    (hlow : 32 ≤ length)
    (hcut : (file.cut length).bytes = (L.prefixOf k).bytes ++ tail)
    (hhigh : length ≤ file.bytes.length)
    (hfilter : L.index.filter (fun entry => decide (entry.ends ≤ length)) =
      (L.prefixOf k).index) :
    (length = 32 ∨ ∃ entry ∈ L.index, entry.ends = length) ↔ tail = [] := by
  have hlt := file.length_lt
  have hlen : length = (L.prefixOf k).bytes.length + tail.length := by
    rw [← List.length_append, ← hcut, File.cut_bytes, List.length_take, Nat.min_eq_left hhigh]
  have hbytes := (L.prefixOf k).bytes_length
  have hfit : 32 + (framesBytes 0 (L.prefixOf k).frames).length < 2 ^ 64 := by omega
  constructor
  · rintro (h32 | ⟨entry, hentry, hends⟩)
    · exact List.length_eq_zero_iff.mp (by omega)
    · have hkept : entry ∈ (L.prefixOf k).index := by
        rw [← hfilter]
        exact List.mem_filter.mpr ⟨hentry, decide_eq_true (by omega)⟩
      have hinside := (entries_inside hfit entry hkept).2
      exact List.length_eq_zero_iff.mp (by omega)
  · intro hnil
    rw [hnil, List.length_nil, Nat.add_zero] at hlen
    have hlast := last_ends 0 32 (L.prefixOf k).frames hfit
    cases hl : (L.prefixOf k).index.getLast? with
    | none =>
      rw [Layout.index] at hl
      rw [hl] at hlast
      exact .inl (by rw [hlen, hbytes, ← hlast]; rfl)
    | some entry =>
      have hmem : entry ∈ L.index := by
        have hkept := List.mem_of_getLast? hl
        rw [← hfilter] at hkept
        exact (List.mem_filter.mp hkept).1
      rw [Layout.index] at hl
      rw [hl] at hlast
      exact .inr ⟨entry, hmem, by rw [hlen, hbytes, ← hlast]; rfl⟩

/-- **Reading an interrupted log** finds exactly the records that lie inside what is left, and
says whether it ends at a record's end; recovery keeps exactly those. Less than a file header is
refused and left alone. -/
theorem readLog_interrupted (pb : Protobuf) (file : File) (options : LogReadOptions)
    (length : Nat) (hcomplete : (readLog pb .granted file options).status = .complete)
    (hlimit : (readLog pb .granted file options).index.length < options.maximumRecords.toNat)
    (hlength : length ≤ file.bytes.length) :
    let full := readLog pb .granted file options
    let result := readLog pb .granted (file.cut length) options
    let recovery := (recoverTruncatedTail pb .granted (file.cut length) options).1
    let after := (recoverTruncatedTail pb .granted (file.cut length) options).2
    (32 ≤ length →
      result.index = full.index.filter (fun entry => decide (entry.ends ≤ length)) ∧
      result.records = full.records.take result.index.length ∧
      result.validBytes.toNat = result.index.getLast?.elim 32 LogIndexEntry.ends ∧
      (length = 32 ∨ (∃ entry ∈ full.index, entry.ends = length) → result.status = .complete) ∧
      (¬(length = 32 ∨ ∃ entry ∈ full.index, entry.ends = length) →
        result.status = .truncatedTail) ∧
      recovery.succeeded = true ∧ after.bytes <+: file.bytes ∧
      (readLog pb .granted after options).status = .complete ∧
      (readLog pb .granted after options).index = result.index ∧
      (readLog pb .granted after options).records = result.records) ∧
    (length < 32 →
      result.status = .corrupt ∧ result.index = [] ∧ result.records = [] ∧
      after = file.cut length) := by
  intro full result recovery after
  obtain ⟨L, hb, hn⟩ := layout_of_complete hcomplete
  have hfull : full = L.result file options complete := readLog_complete options hb hn
  refine ⟨fun hlow => ?_, fun hshort => ?_⟩
  · obtain ⟨k, tail, hk, hcut, htail, hfilter⟩ := layout_cut hb hlow hlength
    have hboundary := boundary_iff hlow hcut hlength hfilter
    have hcount : (L.prefixOf k).frames.length = k := Layout.prefixOf_length hk
    have hbelow : L.frames.length < options.maximumRecords.toNat := by
      have hindex := L.index_length
      rw [show readLog pb .granted file options = full from rfl, hfull] at hlimit
      rwa [← hindex]
    have hkn : (L.prefixOf k).frames.length ≤ options.maximumRecords.toNat := by omega
    -- whatever is left of the next record, the loop ends on it
    obtain ⟨v, hverdict, hv⟩ : ∃ v,
        verdict pb options.maximumRecords.toNat (L.prefixOf k).frames.length tail = some v ∧
          (v.1 = .complete ∧ tail = [] ∨ v.1 = .truncatedTail ∧ tail ≠ []) := by
      by_cases hnil : tail = []
      · exact ⟨complete, by rw [verdict, if_pos hnil]; rfl, .inl ⟨rfl, hnil⟩⟩
      · obtain ⟨_, message, hpart⟩ := htail.resolve_left hnil
        refine ⟨(.truncatedTail, message), ?_, .inr ⟨rfl, hnil⟩⟩
        rw [verdict, if_neg hnil, if_neg (by omega), hcount, hpart]
    have hread : result = (L.prefixOf k).result (file.cut length) options v :=
      readLog_layout hcut hkn hverdict
    obtain ⟨hsucceeded, hafter⟩ := recover_layout hread hcut (hv.imp_right And.left)
    have hreread : readLog pb .granted after options =
        (L.prefixOf k).result after options complete := readLog_complete options hafter.symm hkn
    have hvalid := layout_validBytes hcut
    have hlast := last_ends 0 32 (L.prefixOf k).frames (by
      have hlt := (file.cut length).length_lt
      rw [hcut, List.length_append, Layout.bytes_length] at hlt
      omega)
    have hindex : result.index = (L.prefixOf k).index := by
      rw [hread]
      rfl
    refine ⟨?_, ?_, ?_, fun h => ?_, fun h => ?_, hsucceeded, ?_, ?_, ?_, ?_⟩
    · rw [hindex, hfull]
      exact hfilter.symm
    · rw [hindex, Layout.index_length, hcount, hread, hfull]
      show (if options.retainRecords then (L.prefixOf k).records else []) =
        (if options.retainRecords then L.records else []).take k
      cases options.retainRecords
      · exact List.take_nil.symm
      · exact (numbered_take Frame.record 0 32 k L.frames).symm
    · rw [hindex, hread]
      show (UInt64.ofNat (L.prefixOf k).bytes.length).toNat = _
      rw [hvalid.1, Layout.bytes_length]
      exact hlast.symm
    · have hnil := hboundary.mp (by rw [hfull] at h; exact h)
      rw [hread]
      exact (hv.resolve_right fun hcut => hcut.2 hnil).1
    · have hne : tail ≠ [] := fun hnil => h (by rw [hfull]; exact hboundary.mpr hnil)
      rw [hread]
      exact (hv.resolve_left fun hwhole => hne hwhole.2).1
    · show after.bytes <+: file.bytes
      rw [hafter]
      have hfront : (L.prefixOf k).bytes <+: (file.cut length).bytes := ⟨tail, hcut.symm⟩
      exact hfront.trans (List.take_prefix length file.bytes)
    · rw [hreread]
      rfl
    · rw [hreread, hindex]
      rfl
    · rw [hreread, hread]
      rfl
  · have hrefusal : headerRefusal (file.cut length) = some "file header is incomplete" := by
      rw [headerRefusal, if_pos]
      rw [File.cut_bytes, List.length_take]
      omega
    have hread : result = makeFailure {fileSize := (file.cut length).size} .corrupt 0
        "file header is incomplete" := readLog_refused hrefusal
    have hunchanged := recover_unchanged pb .granted (file.cut length) options fun h => by
        rw [show readLog pb .granted (file.cut length) options = result from rfl, hread] at h
        cases h.1
    rw [hread]
    exact ⟨rfl, rfl, rfl, hunchanged.2.1⟩

/-- The second of two records cut after ten bytes. -/
theorem readLog_interrupted_header :
    let cut := sampleLog.cut 100
    (readLog samplePb .granted cut {}).index = [sampleFrame.entry 0 32] ∧
      (readLog samplePb .granted cut {}).status = .truncatedTail ∧
      (recoverTruncatedTail samplePb .granted cut {}).1.succeeded = true := by
  have hread := readLog_complete {} sampleLog_layout (by decide)
  have hinside := (readLog_interrupted samplePb sampleLog {} 100 (by rw [hread]; rfl)
    (by rw [hread]; decide) (by rw [sampleLog_length]; decide)).1 (by decide)
  rw [hread] at hinside
  obtain ⟨hindex, _, _, _, hstatus, hsucceeded, _⟩ := hinside
  refine ⟨?_, hstatus ?_, hsucceeded⟩
  · rw [hindex]
    rfl
  · show ¬(100 = 32 ∨ ∃ entry ∈ sampleLayout.index, entry.ends = 100)
    decide

end TraceForge.Recording
