import TraceForge.Recording.Truncation

/-! The record limit.

The loop looks at the limit before it looks at the next bytes, so a limited read is the unlimited
one until the limit is reached with bytes left, and stops there whatever the bytes are. -/
namespace TraceForge.Recording
open Library Telemetry

variable {pb : Protobuf} {file : File}

/-- No log that fits a file has as many records. -/
def LogReadOptions.unlimited (options : LogReadOptions) : LogReadOptions :=
  {options with maximumRecords := 0xFFFFFFFFFFFFFFFF}

/-- A verdict that is not the limit's does not depend on the limit. -/
theorem verdict_limit {limit limit' n : Nat} {rest : List UInt8} (h : n ≠ limit) (h' : n ≠ limit') :
    verdict pb limit n rest = verdict pb limit' n rest := by
  rw [verdict, verdict, if_neg h, if_neg h']

/-- An unlimited read ends on the tail itself. -/
theorem readLog_unlimited (pb : Protobuf) (options : LogReadOptions)
    (hheader : headerRefusal file = none) :
    ∃ (L : Layout pb) (tail : List UInt8) (v : LogReadStatus × String),
      file.bytes = L.bytes ++ tail ∧ L.frames.length < 2 ^ 63 ∧
        verdict pb options.unlimited.maximumRecords.toNat L.frames.length tail = some v ∧
        readLog pb .granted file options.unlimited = L.result file options v := by
  obtain ⟨L, tail, v, hb, _, hv, hread⟩ := readLog_cases pb file options.unlimited hheader
  exact ⟨L, tail, v, hb, Layout.frames_length_lt (layout_validBytes hb).2.symm, hv, hread⟩

/-- With bytes behind as many records as the limit admits, recovery does not touch the file. -/
theorem recover_limited {access : Access} {options : LogReadOptions} {L : Layout pb}
    {rest : List UInt8} (hb : file.bytes = L.bytes ++ rest) (hrest : rest ≠ [])
    (hn : L.frames.length = options.maximumRecords.toNat) :
    (recoverTruncatedTail pb access file options).1.changed = false ∧
      (recoverTruncatedTail pb access file options).2 = file := by
  have hunchanged := recover_unchanged pb access file options fun h => by
    obtain ⟨hstatus, _⟩ := h
    obtain ⟨_, _, hgranted⟩ := granted_of_truncated hstatus
    rw [hgranted, readLog_limited hb hrest hn] at hstatus
    cases hstatus
  exact ⟨hunchanged.1, hunchanged.2.1⟩

/-- **The record limit is exact.** A read with room for all records, or with no byte left at the
limit, is the unlimited read. Any other stops at the limit, with the records before it, whatever
follows; and recovery then leaves the file alone. -/
theorem record_limit_exact (pb : Protobuf) (file : File) (options : LogReadOptions)
    (hheader : headerRefusal file = none) :
    let m := options.maximumRecords.toNat
    let R := readLog pb .granted file options.unlimited
    let result := readLog pb .granted file options
    (R.index.length < m ∨ R.status = .complete ∧ R.index.length = m → result = R) ∧
    (¬(R.index.length < m ∨ R.status = .complete ∧ R.index.length = m) →
      result.status = .resourceLimit ∧ result.index = R.index.take m ∧
      result.records = R.records.take m ∧
      result.validBytes.toNat = (R.index.take m).getLast?.elim 32 LogIndexEntry.ends ∧
      result.errorOffset = result.validBytes) ∧
    ∀ (access : Access) (L : Layout pb) (rest : List UInt8), L.frames.length = m →
      file.bytes = L.bytes ++ rest → rest ≠ [] →
      (recoverTruncatedTail pb access file options).1.changed = false ∧
        (recoverTruncatedTail pb access file options).2 = file := by
  intro m R result
  obtain ⟨L, tail, v, hb, hlt, hv, hread⟩ := readLog_unlimited pb options hheader
  have hunlimited : options.unlimited.maximumRecords.toNat = 2 ^ 64 - 1 := rfl
  have hcount : R.index.length = L.frames.length := by
    rw [show R = _ from hread]
    exact L.index_length
  refine ⟨?_, fun hbeyond => ?_, fun access L rest hn hb hrest => recover_limited hb hrest hn⟩
  · rintro (hroom | ⟨hcomplete, hfull⟩)
    · rw [hcount] at hroom
      have hv' : verdict pb m L.frames.length tail = some v := by
        rw [← hv]
        exact verdict_limit (by omega) (by omega)
      rw [show R = _ from hread]
      exact readLog_layout hb (Nat.le_of_lt hroom) hv'
    · rw [hcount] at hfull
      rw [show R = _ from hread] at hcomplete ⊢
      obtain ⟨rfl, rfl⟩ := verdict_complete hv hcomplete
      rw [List.append_nil] at hb
      exact readLog_complete options hb.symm (Nat.le_of_eq hfull)
  · have hstop : result = (L.prefixOf m).result file options
        (.resourceLimit, "record-count limit reached") := by
      rcases Nat.lt_trichotomy m L.frames.length with hless | hequal | hmore
      · exact readLog_beyond hb hless
      · have hself : L.prefixOf m = L := by
          rw [Layout.prefixOf, hequal, List.take_length]
        rw [hself]
        refine readLog_limited hb (fun hnil => ?_) hequal.symm
        subst hnil
        cases hv
        exact hbeyond (.inr ⟨by rw [show R = _ from hread]; rfl, hcount.trans hequal.symm⟩)
      · exact absurd (.inl (hcount.symm ▸ hmore)) hbeyond
    obtain ⟨rest, hrest⟩ := L.prefixOf_bytes m
    have hfront : file.bytes = (L.prefixOf m).bytes ++ (rest ++ tail) := by
      rw [hb, ← hrest, List.append_assoc]
    have hfile := file.length_lt
    rw [hfront, List.length_append, Layout.bytes_length] at hfile
    have hlast := last_ends 0 32 (L.prefixOf m).frames (by omega)
    have hindex : R.index.take m = (L.prefixOf m).index := by
      rw [show R = _ from hread, L.prefixOf_index]
      rfl
    rw [hindex, show result = _ from hstop, show R = _ from hread]
    refine ⟨rfl, rfl, ?_, ?_, rfl⟩
    · show (if options.retainRecords then (L.prefixOf m).records else []) =
        (if options.retainRecords then L.records else []).take m
      cases options.retainRecords
      · exact List.take_nil.symm
      · exact (numbered_take Frame.record 0 32 m L.frames).symm
    · show (UInt64.ofNat (L.prefixOf m).bytes.length).toNat = _
      rw [(layout_validBytes hfront).1, Layout.bytes_length]
      exact hlast.symm

/-- The log of two records, read with a limit of one. -/
theorem record_limit_exact_one :
    let result := readLog samplePb .granted sampleLog {maximumRecords := 1}
    result.status = .resourceLimit ∧ result.index = [sampleFrame.entry 0 32] ∧
      (recoverTruncatedTail samplePb .granted sampleLog {maximumRecords := 1}).2 = sampleLog := by
  intro result
  have hheader : headerRefusal sampleLog = none := by decide +kernel
  obtain ⟨_, hstop, hleft⟩ := record_limit_exact samplePb sampleLog {maximumRecords := 1} hheader
  have hread := readLog_complete (LogReadOptions.unlimited {maximumRecords := 1}) sampleLog_layout
    (by decide)
  have hcount : (sampleLayout.result sampleLog (LogReadOptions.unlimited {maximumRecords := 1})
      complete).index.length = 2 := sampleLayout.index_length
  rw [hread, hcount] at hstop
  obtain ⟨hstatus, hindex, _⟩ := hstop (by decide)
  have hb : sampleLog.bytes = (sampleLayout.prefixOf 1).bytes ++ sampleFrame.bytes 1 := by
    rw [← sampleLog_layout, Layout.bytes_at (L := sampleLayout) (n := 1) (f := sampleFrame) rfl]
    exact congrArg _ (List.append_nil _)
  have hne : sampleFrame.bytes 1 ≠ [] := by
    apply List.ne_nil_of_length_pos
    rw [sampleFrame.bytes_length]
    omega
  exact ⟨hstatus, hindex.trans rfl, (hleft .granted _ _ rfl hb hne).2⟩

end TraceForge.Recording
