import TraceForge.Recording.ReaderProofs
import TraceForge.Telemetry.Wire

/-! What the reader accepts.

A layout is read back from its bytes, so a byte string is at most one layout's
(`Layout.bytes_injective`). `readLog_complete_iff`: the reader reports a complete log exactly on
the bytes of a layout, and then it reports that layout. -/
namespace TraceForge.Recording
open Library Telemetry

variable {pb : Protobuf}

/-! ### A layout is its bytes -/

theorem Frame.bytes_injective {f g : Frame pb} {i : Nat} {rest rest' : List UInt8}
    (h : f.bytes i ++ rest = g.bytes i ++ rest') : f = g ∧ rest = rest' := by
  have hf := inspect_frame f i rest
  rw [h, inspect_frame] at hf
  have hparts := Except.ok.inj hf
  have hheader := congrArg Prod.fst hparts
  have hpayload := congrArg (fun parts => parts.2.1) hparts
  have hfg : f = g := Frame.header_injective hheader.symm hpayload.symm
  subst hfg
  exact ⟨rfl, List.append_cancel_left h⟩

theorem framesBytes_injective {i : Nat} {fs gs : List (Frame pb)}
    (h : framesBytes i fs = framesBytes i gs) : fs = gs := by
  induction fs generalizing i gs with
  | nil =>
    cases gs with
    | nil => rfl
    | cons g gs =>
      have hlen := congrArg List.length h
      rw [framesBytes, framesBytes, List.length_append, g.bytes_length, List.length_nil] at hlen
      omega
  | cons f fs ih =>
    cases gs with
    | nil =>
      have hlen := congrArg List.length h
      rw [framesBytes, framesBytes, List.length_append, f.bytes_length, List.length_nil] at hlen
      omega
    | cons g gs =>
      obtain ⟨hfg, hrest⟩ := Frame.bytes_injective h
      rw [hfg, ih hrest]

theorem Layout.bytes_injective {L M : Layout pb} (h : L.bytes = M.bytes) : L = M := by
  obtain ⟨hheader, hframes⟩ := List.append_inj h (by
    rw [L.header.bytes_length, M.header.bytes_length])
  have hh := FileHeader.bytes_injective hheader
  have hf := framesBytes_injective hframes
  cases L
  cases M
  simp only at hh hf
  subst hh hf
  rfl

/-! ### Complete logs -/

/-- How a read of a whole log ends. -/
def complete : LogReadStatus × String := (.complete, "log is complete")

theorem verdict_complete {limit n : Nat} {rest : List UInt8} {v : LogReadStatus × String}
    (h : verdict pb limit n rest = some v) (hc : v.1 = .complete) : rest = [] ∧ v = complete := by
  unfold verdict at h
  split at h
  · rename_i hnil
    exact ⟨hnil, (Option.some.inj h).symm⟩
  split at h
  · cases h
    cases hc
  split at h
  · rename_i herror
    cases h
    rcases inspect_error herror with h | h | h <;> rw [h] at hc <;> cases hc
  · cases h

/-- A whole layout is read to its end. -/
theorem readLog_complete {L : Layout pb} {file : File} (options : LogReadOptions)
    (hb : L.bytes = file.bytes) (hn : L.frames.length ≤ options.maximumRecords.toNat) :
    readLog pb .granted file options = L.result file options complete :=
  readLog_layout (by rw [List.append_nil, hb]) hn rfl

/-- Anything behind as many records as the limit admits is not looked at. -/
theorem readLog_limited {L : Layout pb} {file : File} {options : LogReadOptions}
    {rest : List UInt8} (hb : file.bytes = L.bytes ++ rest) (hrest : rest ≠ [])
    (hn : L.frames.length = options.maximumRecords.toNat) :
    readLog pb .granted file options =
      L.result file options (.resourceLimit, "record-count limit reached") :=
  readLog_layout hb (Nat.le_of_eq hn) (by rw [verdict, if_neg hrest, if_pos hn])

/-- Of more records than the limit admits, the first ones are read. -/
theorem readLog_beyond {L : Layout pb} {file : File} {options : LogReadOptions}
    {tail : List UInt8} (hb : file.bytes = L.bytes ++ tail)
    (hn : options.maximumRecords.toNat < L.frames.length) :
    readLog pb .granted file options =
      (L.prefixOf options.maximumRecords.toNat).result file options
        (.resourceLimit, "record-count limit reached") := by
  have hf : L.frames[options.maximumRecords.toNat]? = some L.frames[options.maximumRecords.toNat] :=
    List.getElem?_eq_getElem hn
  rw [Layout.bytes_at hf, List.append_assoc] at hb
  refine readLog_limited hb ?_ (Layout.prefixOf_length (Nat.le_of_lt hn))
  apply List.ne_nil_of_length_pos
  rw [List.length_append, List.length_append, Frame.bytes_length]
  omega

/-- A log read to its end is a whole layout. -/
theorem layout_of_complete {file : File} {options : LogReadOptions}
    (h : (readLog pb .granted file options).status = .complete) :
    ∃ L : Layout pb, L.bytes = file.bytes ∧ L.frames.length ≤ options.maximumRecords.toNat := by
  cases hheader : headerRefusal file with
  | some message =>
    rw [readLog_refused hheader] at h
    cases h
  | none =>
    obtain ⟨L, tail, v, hb, hn, hv, hread⟩ := readLog_cases pb file options hheader
    rw [hread] at h
    obtain ⟨hnil, _⟩ := verdict_complete hv h
    rw [hnil, List.append_nil] at hb
    exact ⟨L, hb.symm, hn⟩

/-- A log that is not refused for an i/o error was granted. -/
theorem granted_of_read {access : Access} {file : File} {options : LogReadOptions}
    (h : (readLog pb access file options).status ≠ .ioError) :
    access.sizeKnown = true ∧ access.opens = true ∧
      readLog pb access file options = readLog pb .granted file options := by
  obtain ⟨sizeKnown, opens, resizes⟩ := access
  cases sizeKnown
  · exact absurd rfl h
  cases opens
  · exact absurd rfl h
  exact ⟨rfl, rfl, rfl⟩

/-- **A complete read** is that of a layout. -/
theorem read_of_complete {access : Access} {file : File} {options : LogReadOptions}
    (h : (readLog pb access file options).status = .complete) :
    ∃ L : Layout pb, L.bytes = file.bytes ∧ L.frames.length ≤ options.maximumRecords.toNat ∧
      readLog pb access file options = L.result file options complete := by
  obtain ⟨_, _, hgranted⟩ := granted_of_read (by rw [h]; exact fun hio => by cases hio)
  rw [hgranted] at h
  obtain ⟨L, hb, hn⟩ := layout_of_complete h
  exact ⟨L, hb, hn, by rw [hgranted, readLog_complete options hb hn]⟩

/-- **The reader accepts exactly the format**: a file is complete when it is a layout within the
record limit and nothing more; that layout is unique and is the one the result reports. -/
theorem readLog_complete_iff (pb : Protobuf) (file : File) (options : LogReadOptions) :
    ((readLog pb .granted file options).status = .complete ↔
      ∃ L : Layout pb, L.bytes = file.bytes ∧
        L.frames.length ≤ options.maximumRecords.toNat) ∧
    ∀ L : Layout pb, L.bytes = file.bytes →
      (∀ M : Layout pb, M.bytes = file.bytes → M = L) ∧
      (L.frames.length ≤ options.maximumRecords.toNat →
        (readLog pb .granted file options).index = L.index ∧
        readLog pb .granted file options = L.result file options complete) := by
  refine ⟨⟨layout_of_complete, ?_⟩, fun L hb => ⟨?_, fun hn => ?_⟩⟩
  · rintro ⟨L, hb, hn⟩
    rw [readLog_complete options hb hn]
    rfl
  · intro M hM
    exact Layout.bytes_injective (hM.trans hb.symm)
  · have hread := readLog_complete options hb hn
    exact ⟨by rw [hread]; rfl, hread⟩

/-! ### A log of two records -/

def samplePb : Protobuf := Wire.protobuf [Wire.sampleEvent 1]

def sampleFrame : Frame samplePb where
  arrival := -3
  payload := Wire.encode (Wire.sampleEvent 1)
  event := Wire.sampleEvent 1
  payload_le := by decide
  parses := by decide
  schema := rfl

/-- The same event twice. -/
def sampleLayout : Layout samplePb where
  header :=
    { flags := [0, 0, 0, 0]
      created := 7
      reserved := [0, 0, 0, 0]
      flags_length := rfl
      reserved_length := rfl }
  frames := [sampleFrame, sampleFrame]

def sampleLog : File where
  bytes := sampleLayout.bytes
  length_lt := by
    rw [Layout.bytes_length]
    decide

theorem sampleLog_layout : sampleLayout.bytes = sampleLog.bytes := rfl

theorem sampleLog_length : sampleLog.bytes.length = 148 := by decide +kernel

end TraceForge.Recording
