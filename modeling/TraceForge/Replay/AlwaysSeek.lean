import TraceForge.Library.Signed
import TraceForge.Recording.Acceptance
import TraceForge.Replay.Engine

/-! Skipping a header equals seeking past it.

Both ways put the stream in front of the payload, or leave it at the end of a file that has
nothing there (`Ready`), and then read the same (`payloadAt`). Skipping does so because the stream
is where the last payload ended, or both lie behind the file (`Cursor.Located`); every read that
succeeds keeps that, whatever the file has become. A replay is therefore one over `payloadAt`,
which knows no stream (`replayRecords_payloads`). -/
namespace TraceForge.Replay
open Library Telemetry Recording

/-! ### One payload -/

/-- The bytes the file has where an entry's payload was, when it has all of them. -/
def payloadAt (file : File) (entry : LogIndexEntry) : Option (List UInt8) :=
  let bytes := (file.bytes.drop (entry.fileOffset.toNat + 36)).take entry.payloadSize.toNat
  if bytes.length = entry.payloadSize.toNat then some bytes else none

/-- A record that ends where a stream can seek. -/
def Addressable (entry : LogIndexEntry) : Prop :=
  entry.fileOffset.toNat + 36 + entry.payloadSize.toNat < 2 ^ 63

/-- The offset of the payload, and where the record ends. -/
theorem addressable_offsets {entry : LogIndexEntry} (h : Addressable entry) :
    (entry.fileOffset + kRecordHeaderSize).toNat = entry.fileOffset.toNat + 36 ∧
      (entry.fileOffset + kRecordHeaderSize + entry.payloadSize.toUInt64).toNat =
        entry.fileOffset.toNat + 36 + entry.payloadSize.toNat := by
  unfold Addressable at h
  have hpayload : (entry.fileOffset + kRecordHeaderSize).toNat = entry.fileOffset.toNat + 36 := by
    rw [UInt64.toNat_add, kRecordHeaderSize_toNat]
    omega
  refine ⟨hpayload, ?_⟩
  rw [UInt64.toNat_add, hpayload, UInt32.toNat_toUInt64]
  omega

/-- A position that stands for `target`: it is there, or both lie behind the file. -/
def Stands (file : File) (target pos : Nat) : Prop :=
  pos = target ∨ file.bytes.length ≤ pos ∧ file.bytes.length ≤ target

/-- A stream in front of `target`, or at the end of a file that does not reach it. -/
structure Ready (file : File) (target : Nat) (s : IFStream) : Prop where
  sameFile : s.file = file
  failbit : s.failbit = false
  place : s.eofbit = false ∧ s.pos = target ∨
    s.eofbit = true ∧ file.bytes.length ≤ s.pos ∧ file.bytes.length ≤ target

/-- Seeking makes a stream ready. -/
theorem ready_seekg {s : IFStream} {offset : UInt64} (h : offset.toNat < 2 ^ 63) :
    Ready s.file offset.toNat (s.clear.seekg offset.toInt64) := by
  have hint := Signed.toInt_toInt64 h
  have hpositive : ¬offset.toInt64 < 0 := by
    rw [Int64.lt_iff_toInt_lt, hint]
    exact Int.not_lt.mpr (Int.natCast_nonneg _)
  have hseek : s.clear.seekg offset.toInt64 =
      {s with pos := offset.toNat, eofbit := false, failbit := false} := by
    simp only [IFStream.seekg, IFStream.clear, Bool.false_eq_true, if_false, if_neg hpositive, hint,
      Int.toNat_natCast]
  rw [hseek]
  exact ⟨rfl, rfl, .inl ⟨rfl, rfl⟩⟩

/-- Skipping a header makes a stream ready that stands at the record. -/
theorem ready_ignore {s : IFStream} {offset : Nat} (h : Stands s.file offset s.pos) :
    Ready s.file (offset + 36) (s.clear.ignore 36) := by
  have hlength : (s.clear.window 36).length = min 36 (s.file.bytes.length - s.pos) :=
    s.clear.window_length 36
  have hignore : s.clear.ignore 36 =
      {s.clear with
        pos := s.pos + (s.clear.window 36).length
        eofbit := decide ((s.clear.window 36).length < 36)} := rfl
  rw [hignore]
  refine ⟨rfl, rfl, ?_⟩
  by_cases hin : s.pos + 36 ≤ s.file.bytes.length
  · have hpos : s.pos = offset := h.resolve_right fun hbehind => by omega
    left
    refine ⟨decide_eq_false ?_, ?_⟩
    · omega
    · simp only [hlength]
      omega
  · right
    refine ⟨decide_eq_true ?_, ?_, ?_⟩
    · omega
    · simp only [hlength]
      omega
    · rcases h with hpos | hbehind <;> omega

/-- **A ready stream reads the payload**, and stands behind it when it could. -/
theorem read_ready {entry : LogIndexEntry} {s : IFStream}
    (h : Ready s.file (entry.fileOffset.toNat + 36) s) :
    (if (s.read entry.payloadSize.toNat).1.length = entry.payloadSize.toNat then
        some (s.read entry.payloadSize.toNat).1 else none) = payloadAt s.file entry ∧
      (payloadAt s.file entry ≠ none →
        Stands s.file (entry.fileOffset.toNat + 36 + entry.payloadSize.toNat)
          (s.read entry.payloadSize.toNat).2.pos) := by
  have hpos := s.read_pos entry.payloadSize.toNat
  rcases h.place with ⟨heof, hplace⟩ | ⟨heof, hend, hbehind⟩
  · have hgood : s.good = true := by rw [IFStream.good, heof, h.failbit]; rfl
    have hread : (s.read entry.payloadSize.toNat).1 =
        (s.file.bytes.drop (entry.fileOffset.toNat + 36)).take entry.payloadSize.toNat := by
      rw [IFStream.read, if_pos hgood, IFStream.window, hplace]
    rw [hread] at hpos ⊢
    refine ⟨rfl, fun hsome => .inl ?_⟩
    rw [hpos, hplace]
    unfold payloadAt at hsome
    by_cases hlength : ((s.file.bytes.drop (entry.fileOffset.toNat + 36)).take
        entry.payloadSize.toNat).length = entry.payloadSize.toNat
    · rw [hlength]
    · exact absurd (if_neg hlength) hsome
  · have hgood : s.good = false := by rw [IFStream.good, heof]; rfl
    have hread : (s.read entry.payloadSize.toNat).1 = [] := by
      rw [IFStream.read, hgood]
      rfl
    have hnothing : (s.file.bytes.drop (entry.fileOffset.toNat + 36)).take
        entry.payloadSize.toNat = [] := by
      rw [List.drop_eq_nil_of_le hbehind, List.take_nil]
    rw [hread] at hpos ⊢
    refine ⟨by rw [payloadAt, hnothing], fun _ => .inr ⟨?_, ?_⟩⟩
    · rw [hpos]
      exact Nat.le_trans hend (Nat.le_add_right ..)
    · exact Nat.le_trans hbehind (Nat.le_add_right ..)

/-- Whichever way the stream was made ready, the payload is the file's. -/
theorem readPayload_ready {sequentialRecord : Bool} {entry : LogIndexEntry} {input : IFStream}
    (haddress : Addressable entry)
    (hstands : sequentialRecord = true → Stands input.file entry.fileOffset.toNat input.pos) :
    (readPayload sequentialRecord entry input).1 = payloadAt input.file entry ∧
      (readPayload sequentialRecord entry input).2.file = input.file ∧
      (payloadAt input.file entry ≠ none →
        Stands input.file (entry.fileOffset.toNat + 36 + entry.payloadSize.toNat)
          (readPayload sequentialRecord entry input).2.pos) := by
  obtain ⟨hoffset, _⟩ := addressable_offsets haddress
  generalize hs : (if sequentialRecord then input.clear.ignore kRecordHeaderSize.toNat
    else input.clear.seekg (entry.fileOffset + kRecordHeaderSize).toInt64) = s
  have hready : Ready input.file (entry.fileOffset.toNat + 36) s := by
    rw [← hs]
    by_cases hseq : sequentialRecord = true
    · rw [if_pos hseq]
      exact ready_ignore (hstands hseq)
    · rw [if_neg hseq, ← hoffset]
      refine ready_seekg ?_
      rw [hoffset]
      exact Nat.lt_of_le_of_lt (Nat.le_add_right ..) haddress
  have hfail : s.fail = false := hready.failbit
  have hdone : readPayload sequentialRecord entry input =
      (if (s.read entry.payloadSize.toNat).1.length = entry.payloadSize.toNat then
        some (s.read entry.payloadSize.toNat).1 else none, (s.read entry.payloadSize.toNat).2) := by
    simp only [readPayload, hs, hfail, Bool.false_eq_true, if_false]
    split <;> rfl
  have hfile := hready.sameFile
  rw [hdone, ← hfile]
  rw [← hfile] at hready
  obtain ⟨hpayload, hplace⟩ := read_ready hready
  exact ⟨hpayload, s.read_file _, hplace⟩

/-! ### The cursor -/

/-- The stream stands where the last payload ended. -/
structure Cursor.Located (file : File) (c : Cursor) : Prop where
  sameFile : c.input.file = file
  stands : ∀ next, c.nextPhysicalOffset = some next → Stands file next.toNat c.input.pos

theorem located_openFile (file : File) : (Cursor.openFile file).Located file where
  sameFile := rfl
  stands := fun _ h => by cases h

/-- **One read** of the cursor: the payload is the file's, and a success keeps the stream in
place, with or without skipping. -/
theorem payload_located {file : File} {c : Cursor} {entry : LogIndexEntry} (skips : Bool)
    (haddress : Addressable entry) (hc : c.Located file) :
    (c.payload skips entry).1 = payloadAt file entry ∧
      (payloadAt file entry ≠ none → (c.payload skips entry).2.Located file) := by
  have hfile := hc.sameFile
  have hstands : (skips && c.nextPhysicalOffset == some entry.fileOffset) = true →
      Stands c.input.file entry.fileOffset.toNat c.input.pos := by
    intro hseq
    simp only [Bool.and_eq_true, beq_iff_eq] at hseq
    rw [hfile]
    exact hc.stands _ hseq.2
  obtain ⟨hpayload, hsame, hplace⟩ := readPayload_ready haddress hstands
  rw [hfile] at hpayload hsame hplace
  refine ⟨hpayload, fun hsome => ⟨hsame, fun next hnext => ?_⟩⟩
  cases hnext
  rw [(addressable_offsets haddress).2]
  exact hplace hsome

/-! ### The replay -/

/-- The replay of some entries over the payloads of a file. -/
def replayPayloads (pb : Protobuf) (options : ReplayOptions) (consumer : ReplayConsumer)
    (file : File) : List LogIndexEntry → Delivery → Delivery
  | [], d => d.finish .complete "replay completed"
  | entry :: rest, d =>
    if pastWindow options entry then d.finish .complete "replay completed"
    else match payloadAt file entry with
    | none => d.finish .ioError "failed to read indexed record payload"
    | some payload =>
      match d.deliver pb options consumer entry payload with
      | .error d => d
      | .ok d => replayPayloads pb options consumer file rest d

variable {pb : Protobuf}

section Round
variable {options : ReplayOptions} {consumer : ReplayConsumer} {file : File}
  {entry : LogIndexEntry} {payload : List UInt8} {d d' : Delivery}

/-- A round whose payload cannot be read is the last. -/
theorem replayPayloads_unreadable (hin : pastWindow options entry = false)
    (hpayload : payloadAt file entry = none) (rest : List LogIndexEntry) :
    replayPayloads pb options consumer file (entry :: rest) d =
      d.finish .ioError "failed to read indexed record payload" := by
  rw [replayPayloads, if_neg (by rw [hin]; exact Bool.false_ne_true), hpayload]

/-- So is one that ends with an error. -/
theorem replayPayloads_error (hin : pastWindow options entry = false)
    (hpayload : payloadAt file entry = some payload)
    (hdeliver : d.deliver pb options consumer entry payload = .error d')
    (rest : List LogIndexEntry) :
    replayPayloads pb options consumer file (entry :: rest) d = d' := by
  rw [replayPayloads, if_neg (by rw [hin]; exact Bool.false_ne_true), hpayload]
  simp only [hdeliver]

theorem replayPayloads_ok (hin : pastWindow options entry = false)
    (hpayload : payloadAt file entry = some payload)
    (hdeliver : d.deliver pb options consumer entry payload = .ok d') (rest : List LogIndexEntry) :
    replayPayloads pb options consumer file (entry :: rest) d =
      replayPayloads pb options consumer file rest d' := by
  rw [replayPayloads, if_neg (by rw [hin]; exact Bool.false_ne_true), hpayload]
  simp only [hdeliver]

end Round

/-- **The stream does not matter**: from any cursor in place, a replay is one over payloads. -/
theorem replayRecords_payloads {options : ReplayOptions} {consumer : ReplayConsumer} (skips : Bool)
    {file : File} {entries : List LogIndexEntry} (haddress : ∀ entry ∈ entries, Addressable entry)
    {c : Cursor} (hc : c.Located file) (d : Delivery) :
    replayRecords pb options consumer skips entries c d =
      replayPayloads pb options consumer file entries d := by
  induction entries generalizing c d with
  | nil => rfl
  | cons entry rest ih =>
    obtain ⟨hentry, hrest⟩ := List.forall_mem_cons.mp haddress
    obtain ⟨hpayload, hnext⟩ := payload_located skips hentry hc
    rw [replayRecords, replayPayloads]
    by_cases hpast : pastWindow options entry = true
    · rw [if_pos hpast, if_pos hpast]
    · rw [if_neg hpast, if_neg hpast]
      generalize c.payload skips entry = read at hpayload hnext
      obtain ⟨bytes, c'⟩ := read
      simp only at hpayload hnext
      subst hpayload
      cases hread : payloadAt file entry with
      | none => rfl
      | some payload =>
        simp only
        cases d.deliver pb options consumer entry payload with
        | error d' => rfl
        | ok d' => exact ih hrest (hnext (by rw [hread]; exact Option.some_ne_none _)) d'

/-! ### The index -/

/-- **All that construction can do**: refuse a log that is not complete, or sort the index of a
layout. -/
theorem create_cases (pb : Protobuf) (access : Access) (file : File) (maximumRecords : UInt64) :
    (∃ message, ReplayEngine.create pb access file maximumRecords =
        ⟨[], "cannot index telemetry log: " ++ message⟩) ∨
      ∃ L : Layout pb, L.bytes = file.bytes ∧ L.frames.length ≤ maximumRecords.toNat ∧
        ReplayEngine.create pb access file maximumRecords =
          ⟨L.index.insertionSort fun left right => comesBefore right left = false, ""⟩ := by
  by_cases hstatus : (readLog pb access file
      {maximumRecords := maximumRecords, retainRecords := false}).status = .complete
  · right
    obtain ⟨L, hb, hn, hread⟩ := read_of_complete hstatus
    refine ⟨L, hb, hn, ?_⟩
    rw [ReplayEngine.create, hread]
    rfl
  · exact .inl ⟨_, by rw [ReplayEngine.create, if_pos hstatus]⟩

theorem addressable_index {L : Layout pb} {file : File} (hb : L.bytes = file.bytes)
    {entry : LogIndexEntry} (h : entry ∈ L.index) : Addressable entry := by
  obtain ⟨n, hn⟩ := List.getElem?_of_mem h
  obtain ⟨f, hf, rfl⟩ := Layout.entry_at hn
  have hlt := file.length_lt
  have hall := congrArg List.length (Layout.bytes_at hf)
  rw [List.length_append, List.length_append, Frame.bytes_length] at hall
  rw [← hb] at hlt
  have hle := f.payload_le
  rw [kMaximumPayloadSize_toNat] at hle
  simp only [Addressable, Frame.entry, UInt64.toNat_ofNat', UInt32.toNat_ofNat']
  omega

theorem mem_current {options : ReplayOptions} {engine : ReplayEngine} {entry : LogIndexEntry}
    (h : entry ∈ engine.current options) : entry ∈ engine.index := by
  unfold ReplayEngine.current at h
  split at h
  · exact h
  · exact List.mem_of_mem_drop h

theorem addressable_create (pb : Protobuf) (access : Access) (file : File)
    (maximumRecords : UInt64) :
    ∀ entry ∈ (ReplayEngine.create pb access file maximumRecords).index, Addressable entry := by
  rcases create_cases pb access file maximumRecords with ⟨message, hengine⟩ | ⟨L, hb, _, hengine⟩
  · rw [hengine]
    exact fun entry h => absurd h List.not_mem_nil
  · rw [hengine]
    exact fun entry h => addressable_index hb ((List.mem_insertionSort _).mp h)

/-- **An engine's replay** is one over the payloads of the file as it is then. -/
theorem replay_current {engine : ReplayEngine} (haddress : ∀ entry ∈ engine.index, Addressable entry)
    (skips : Bool) (options : ReplayOptions) (consumer : ReplayConsumer) (content : File)
    (d : Delivery) :
    replayRecords pb options consumer skips (engine.current options) (.openFile content) d =
      replayPayloads pb options consumer content (engine.current options) d :=
  replayRecords_payloads skips (fun entry h => haddress entry (mem_current h))
    (located_openFile content) d

/-- **Skipping equals seeking**: whatever the log was when it was indexed and whatever the file is
when it is replayed, both replays have the same result and make the same calls. -/
theorem replay_always_seek (pb : Protobuf) (access : Access) (file : File)
    (maximumRecords : UInt64) (content : Option File) (options : ReplayOptions)
    (consumer : ReplayConsumer) :
    let engine := ReplayEngine.create pb access file maximumRecords
    engine.replay pb content options consumer =
      engine.replayAlwaysSeek pb content options consumer := by
  intro engine
  have haddress : ∀ entry ∈ engine.index, Addressable entry :=
    addressable_create pb access file maximumRecords
  unfold ReplayEngine.replay ReplayEngine.replayAlwaysSeek ReplayEngine.replayWith
  cases content with
  | none => rfl
  | some content => simp only [replay_current haddress]

end TraceForge.Replay
