import TraceForge.Library.Machine
import TraceForge.Recording.RoundTrip
import TraceForge.Recording.Truncation

/-! What a crash can lose.

A session is a writer and the appends it has acknowledged, each with the length of the file when
it returned. A flush is due after every `k`-th record, so the records that no completed flush
covers are fewer than `k` whatever explicit flushes come between (`Covers`). A crash comes between
two calls or in the middle of one (`Underway`), and leaves a prefix of what was written with all
that was flushed; the reader finds the records inside it, and those include every covered one. -/
namespace TraceForge.Recording
open Library Telemetry

variable {pb : Protobuf}

/-- An append that returned true, and where the file ended then. -/
structure Acknowledged where
  event : TelemetryEvent
  collectorArrivalTimestampNs : Int64
  fileEnd : Nat

inductive WriterCall where
  | append (event : TelemetryEvent) (collectorArrivalTimestampNs : Int64)
  | flush

structure WriterSession where
  writer : LogWriter
  acknowledged : List Acknowledged

namespace WriterSession

def step (pb : Protobuf) (s : WriterSession) : WriterCall → WriterSession
  | .append event arrival =>
    let (ok, writer) := s.writer.append pb event arrival
    { writer := writer
      acknowledged := if ok then
          s.acknowledged ++ [⟨event, arrival, writer.output.file.bytes.length⟩]
        else s.acknowledged }
  | .flush => {s with writer := s.writer.flush.2}

def run (pb : Protobuf) (s : WriterSession) (calls : List WriterCall) : WriterSession :=
  calls.foldl (step pb) s

/-- A writer on a new file, and nothing acknowledged. -/
def start (path : String) (device : Nat → Option Nat) (options : LogWriterOptions) (now : Int64) :
    WriterSession :=
  ⟨.create (.fresh path device) options now, []⟩

/-- The acknowledged records that no completed flush covers. -/
def uncovered (s : WriterSession) : List Acknowledged :=
  s.acknowledged.filter fun record => decide (s.writer.output.flushed < record.fileEnd)

/-- The acknowledged records as they were appended. -/
def records (s : WriterSession) : List (TelemetryEvent × Int64) :=
  s.acknowledged.map fun record => (record.event, record.collectorArrivalTimestampNs)

/-! ### The flush schedule -/

/-- The first `covered` records of `L` are behind a completed flush, and no flush is overdue. -/
structure Covers (s : WriterSession) (interval : UInt64) (L : Layout pb) (covered : Nat) :
    Prop where
  flushEvery : s.writer.options.flushEveryRecords = interval
  isOpen : s.writer.output.isOpen = true
  bytes : s.writer.output.file.bytes = L.bytes
  holds : s.writer.error = "" → s.writer.Holds L
  records : s.records = LogWriter.appended L.frames
  inside : ∀ record ∈ s.acknowledged, record.fileEnd ≤ L.bytes.length
  due : L.frames.length - L.frames.length % interval.toNat ≤ covered
  covered_le : covered ≤ L.frames.length
  flushed : ∀ record ∈ s.acknowledged.take covered, record.fileEnd ≤ s.writer.output.flushed
  flushedBytes : covered = 0 ∨ (L.prefixOf covered).bytes.length ≤ s.writer.output.flushed

variable {s : WriterSession} {interval : UInt64} {L : Layout pb} {covered : Nat}

theorem Covers.count (h : s.Covers interval L covered) : s.acknowledged.length = L.frames.length := by
  have hlen := congrArg List.length h.records
  rwa [WriterSession.records, List.length_map, LogWriter.appended, List.length_map] at hlen

/-- Right after a flush every record is covered. -/
theorem covers_all (hinterval : s.writer.options.flushEveryRecords = interval)
    (hholds : s.writer.Holds L) (hrecords : s.records = LogWriter.appended L.frames)
    (hinside : ∀ record ∈ s.acknowledged, record.fileEnd ≤ L.bytes.length)
    (hflushed : L.bytes.length ≤ s.writer.output.flushed) : s.Covers interval L L.frames.length where
  flushEvery := hinterval
  isOpen := hholds.isOpen
  bytes := hholds.bytes
  holds _ := hholds
  records := hrecords
  inside := hinside
  due := Nat.sub_le ..
  covered_le := Nat.le_refl _
  flushed record hrecord :=
    Nat.le_trans (hinside record (List.mem_of_mem_take hrecord)) hflushed
  flushedBytes := by
    refine .inr ?_
    rw [Layout.prefixOf, List.take_length]
    exact hflushed

/-- A refusal leaves the file and what is known of it. -/
theorem Covers.refused (h : s.Covers interval L covered) {message : String} (hm : message ≠ "") :
    Covers {s with writer := s.writer.fail message} interval L covered := by
  have hout := LogWriter.fail_output message s.writer
  have hoptions : (s.writer.fail message).options = s.writer.options := by
    unfold LogWriter.fail
    split <;> rfl
  have herror : (s.writer.fail message).error ≠ "" := by
    unfold LogWriter.fail
    split
    · exact hm
    · rename_i hne
      intro hnil
      exact hne (beq_iff_eq.mpr hnil)
  exact
    { flushEvery := by rw [hoptions]; exact h.flushEvery
      isOpen := by rw [hout]; exact h.isOpen
      bytes := by rw [hout]; exact h.bytes
      holds := fun hnil => absurd hnil herror
      records := h.records
      inside := h.inside
      due := h.due
      covered_le := h.covered_le
      flushed := by rw [hout]; exact h.flushed
      flushedBytes := by rw [hout]; exact h.flushedBytes }

/-- Fewer records than the flush interval are uncovered. -/
theorem Covers.uncovered_lt (h : s.Covers interval L covered)
    (hinterval : 1 ≤ interval) : s.uncovered.length < interval.toNat := by
  have hpos : 0 < interval.toNat := UInt64.le_iff_toNat_le.mp hinterval
  have hcovered : (s.acknowledged.take covered).filter
      (fun record => decide (s.writer.output.flushed < record.fileEnd)) = [] := by
    apply List.filter_eq_nil_iff.mpr
    intro record hrecord
    simpa using h.flushed record hrecord
  have hle : s.uncovered.length ≤ (s.acknowledged.drop covered).length := by
    rw [uncovered, ← List.take_append_drop covered s.acknowledged, List.filter_append, hcovered,
      List.nil_append, List.take_append_drop]
    exact List.length_filter_le ..
  have hmod := Nat.mod_lt L.frames.length hpos
  have hdue := h.due
  rw [List.length_drop, h.count] at hle
  omega

end WriterSession

namespace LogWriter

/-- What a flush or an append leaves flushed. -/
theorem flush_flushed {w : LogWriter} (hw : w.good = true)
    (hgood : w.flush.2.output.goodbit = true) :
    w.flush.2.options = w.options ∧
      w.flush.2.output.file.bytes.length ≤ w.flush.2.output.flushed := by
  have hout := flush_output w hw
  rw [hout] at hgood
  refine ⟨?_, ?_⟩
  · simp only [flush, hw, hgood, Bool.not_true, Bool.false_eq_true, if_false]
  · have hbytes := congrArg File.bytes (OFStream.flush_good hgood).2
    have hlen := congrArg List.length hbytes
    rw [OFStream.visible, File.cut_bytes, OFStream.flush_file, List.length_take] at hlen
    rw [hout, OFStream.flush_file]
    omega

theorem append_flushed {w : LogWriter} {L : Layout pb} (hw : w.Holds L) (f : Frame pb)
    (hs : pb.serializeToString f.event = some f.payload)
    (hgood : (w.append pb f.event f.arrival).2.output.goodbit = true) :
    let after := (w.append pb f.event f.arrival).2
    after.options = w.options ∧
      if (w.recordCount + 1) % w.options.flushEveryRecords = 0 then
        after.output.file.bytes.length ≤ after.output.flushed
      else after.output.flushed = w.output.flushed := by
  intro after
  simp only [after]
  rw [append_frame hw f hs] at hgood ⊢
  obtain ⟨hwritten, heq⟩ := appendPayload_good hgood
  rw [heq] at hgood ⊢
  by_cases hdue : (w.recordCount + 1) % w.options.flushEveryRecords = 0
  · simp only [if_pos hdue] at hgood ⊢
    refine flush_flushed ?_ hgood
    obtain ⟨hfirst, _, hopen⟩ := OFStream.write_good hwritten
    obtain ⟨_, _, hopen'⟩ := OFStream.write_good hfirst
    have hwasOpen := hopen.trans (hopen'.trans hw.isOpen)
    simp only [good, hw.noError, hwasOpen, beq_self_eq_true, Bool.true_and]
    exact hwritten
  · simp only [if_neg hdue]
    exact ⟨trivial, by rw [OFStream.write_flushed, OFStream.write_flushed]⟩

/-- The payload of an event that passes the writer's checks. -/
def validPayload (pb : Protobuf) (event : TelemetryEvent) : Option (List UInt8) :=
  if event.schemaVersion = kTelemetrySchemaVersion then
    (pb.serializeToString event).filter fun payload => payload.length ≤ kMaximumPayloadSize.toNat
  else none

/-- An event that does not pass is refused, with a message and nothing else. -/
theorem append_invalid {w : LogWriter} (hw : w.good = true) {event : TelemetryEvent}
    (arrival : Int64) (hinvalid : validPayload pb event = none) :
    ∃ message, message ≠ "" ∧ w.append pb event arrival = (false, w.fail message) := by
  unfold append
  rw [if_neg (by simp [hw])]
  split
  · exact ⟨_, by decide, rfl⟩
  rename_i hschema
  split
  · exact ⟨_, by decide, rfl⟩
  rename_i payload hs
  split
  · exact ⟨_, by decide, rfl⟩
  rename_i hsize
  rw [validPayload, if_pos (not_not.mp hschema), hs, Option.filter_some, if_pos] at hinvalid
  · cases hinvalid
  · exact decide_eq_true (Nat.not_lt.mp hsize)

theorem append_valid {w : LogWriter} (hw : w.good = true) {event : TelemetryEvent}
    {payload : List UInt8} (arrival : Int64) (hvalid : validPayload pb event = some payload) :
    w.append pb event arrival = w.appendPayload payload arrival := by
  unfold validPayload at hvalid
  split at hvalid
  · rename_i hschema
    obtain ⟨hs, hsize⟩ := Option.filter_eq_some_iff.mp hvalid
    rw [append, if_neg (by simp [hw]), if_neg (not_not.mpr hschema), hs]
    exact if_neg (Nat.not_lt.mpr (of_decide_eq_true hsize))
  · cases hvalid

/-- An event that passes makes a frame. -/
theorem frame_of_valid {event : TelemetryEvent} {payload : List UInt8} (arrival : Int64)
    (hparse : ∀ payload, pb.serializeToString event = some payload →
      pb.parseFromArray payload = some event)
    (hvalid : validPayload pb event = some payload) :
    ∃ f : Frame pb, f.event = event ∧ f.arrival = arrival ∧ f.payload = payload ∧
      pb.serializeToString f.event = some f.payload := by
  unfold validPayload at hvalid
  split at hvalid
  · rename_i hschema
    obtain ⟨hs, hsize⟩ := Option.filter_eq_some_iff.mp hvalid
    let f : Frame pb :=
      { arrival := arrival
        payload := payload
        event := event
        payload_le := of_decide_eq_true hsize
        parses := hparse payload hs
        schema := hschema }
    exact ⟨f, rfl, rfl, rfl, hs⟩
  · cases hvalid

/-- An append to a good writer is refused for its event, or its event makes a frame. -/
theorem append_cases {w : LogWriter} (hw : w.good = true) {event : TelemetryEvent}
    (arrival : Int64) (hparse : ∀ payload, pb.serializeToString event = some payload →
      pb.parseFromArray payload = some event) :
    (∃ message, message ≠ "" ∧ w.append pb event arrival = (false, w.fail message)) ∨
      ∃ f : Frame pb, f.event = event ∧ f.arrival = arrival ∧
        pb.serializeToString f.event = some f.payload := by
  cases hvalid : validPayload pb event with
  | none => exact .inl (append_invalid hw arrival hvalid)
  | some payload =>
    obtain ⟨f, hevent, harrival, _, hs⟩ := frame_of_valid arrival hparse hvalid
    exact .inr ⟨f, hevent, harrival, hs⟩

end LogWriter

namespace WriterSession

/-! ### One call -/

/-- Parsing undoes serializing, for the event of an append. -/
def ParsesBack (pb : Protobuf) : WriterCall → Prop
  | .append event _ => ∀ payload, pb.serializeToString event = some payload →
      pb.parseFromArray payload = some event
  | .flush => True

variable {s : WriterSession} {interval : UInt64} {L : Layout pb} {covered : Nat}

/-- The remainder that is not flushed grows with each record until a flush is due. -/
theorem sub_mod_succ {n k : Nat} (h : ¬(n + 1) % k = 0) : n + 1 - (n + 1) % k = n - n % k := by
  have hdiv : (n + 1) / k = n / k :=
    Nat.succ_div_of_not_dvd fun hdvd => h (Nat.mod_eq_zero_of_dvd hdvd)
  have hn := Nat.div_add_mod n k
  have hn' := Nat.div_add_mod (n + 1) k
  rw [hdiv] at hn'
  omega

/-- An append that is acknowledged. -/
theorem step_frame (h : s.Covers interval L covered) (hw : s.writer.Holds L) (f : Frame pb)
    (hs : pb.serializeToString f.event = some f.payload)
    (hgood : (s.step pb (.append f.event f.arrival)).writer.output.goodbit = true) :
    ∃ covered', (s.step pb (.append f.event f.arrival)).Covers interval (L.append [f]) covered' := by
  have hgood : (s.writer.append pb f.event f.arrival).2.output.goodbit = true := hgood
  obtain ⟨hok, hafter⟩ := LogWriter.append_holds hw f hs hgood
  obtain ⟨hoptions, hflushed⟩ := LogWriter.append_flushed hw f hs hgood
  have hstep : s.step pb (.append f.event f.arrival) =
      { writer := (s.writer.append pb f.event f.arrival).2
        acknowledged := s.acknowledged ++ [⟨f.event, f.arrival, (L.append [f]).bytes.length⟩] } := by
    simp only [step, hok, if_true, hafter.bytes]
  have hgrows : L.bytes.length ≤ (L.append [f]).bytes.length := by
    rw [L.append_bytes, List.length_append]
    exact Nat.le_add_right ..
  have hrecords : (s.step pb (.append f.event f.arrival)).records =
      LogWriter.appended (L.append [f]).frames := by
    rw [hstep, WriterSession.records, List.map_append, Layout.append, LogWriter.appended,
      List.map_append]
    exact congrArg (· ++ [(f.event, f.arrival)]) h.records
  have hinside : ∀ record ∈ (s.step pb (.append f.event f.arrival)).acknowledged,
      record.fileEnd ≤ (L.append [f]).bytes.length := by
    rw [hstep]
    intro record hrecord
    rcases List.mem_append.mp hrecord with hold | hnew
    · exact Nat.le_trans (h.inside record hold) hgrows
    · rw [List.mem_singleton.mp hnew]
  have hcount : (L.append [f]).frames.length = L.frames.length + 1 := List.length_append
  have hdue : (s.writer.recordCount + 1) % s.writer.options.flushEveryRecords = 0 ↔
      (L.frames.length + 1) % interval.toNat = 0 := by
    have hlt := Layout.frames_length_lt h.bytes.symm
    have hnat : (s.writer.recordCount + 1).toNat = L.frames.length + 1 := by
      rw [hw.recordCount, UInt64.toNat_add, UInt64.toNat_ofNat']
      have hone : (1 : UInt64).toNat = 1 := rfl
      omega
    rw [← UInt64.toNat_inj, UInt64.toNat_mod, hnat, h.flushEvery]
    rfl
  by_cases hflush : (s.writer.recordCount + 1) % s.writer.options.flushEveryRecords = 0
  · rw [if_pos hflush, hafter.bytes] at hflushed
    refine ⟨_, covers_all ?_ ?_ hrecords hinside ?_⟩
    · rw [hstep, hoptions]
      exact h.flushEvery
    · rw [hstep]
      exact hafter
    · rw [hstep]
      exact hflushed
  · rw [if_neg hflush] at hflushed
    have hle := h.covered_le
    refine ⟨covered, ?_⟩
    exact
      { flushEvery := by rw [hstep, hoptions]; exact h.flushEvery
        isOpen := by rw [hstep]; exact hafter.isOpen
        bytes := by rw [hstep]; exact hafter.bytes
        holds := fun _ => by rw [hstep]; exact hafter
        records := hrecords
        inside := hinside
        due := by
          rw [hcount, sub_mod_succ (mt hdue.mpr hflush)]
          exact h.due
        covered_le := by omega
        flushed := by
          rw [hstep, hflushed, List.take_append_of_le_length (by rw [h.count]; exact hle)]
          exact h.flushed
        flushedBytes := by
          have hsame : (L.append [f]).prefixOf covered = L.prefixOf covered := by
            rw [Layout.prefixOf, Layout.prefixOf, Layout.append,
              List.take_append_of_le_length hle]
          rw [hstep, hflushed, hsame]
          exact h.flushedBytes }

/-- **One call** on a stream that stays good adds the record it acknowledges, if it does. -/
theorem step_covers {call : WriterCall} (h : s.Covers interval L covered) (hcall : ParsesBack pb call)
    (hgood : (s.step pb call).writer.output.goodbit = true) :
    ∃ (added : List (Frame pb)) (covered' : Nat),
      (s.step pb call).Covers interval (L.append added) covered' := by
  have hsame : L.append [] = L := by
    rw [Layout.append, List.append_nil]
  by_cases hw : s.writer.good = true
  · have hnoError : s.writer.error = "" := by
      simp only [LogWriter.good, Bool.and_eq_true, beq_iff_eq] at hw
      exact hw.1.1
    have hholds := h.holds hnoError
    cases call with
    | flush =>
      obtain ⟨_, hafter⟩ := LogWriter.flush_holds hholds hgood
      obtain ⟨hoptions, hflushed⟩ := LogWriter.flush_flushed hw hgood
      rw [hafter.bytes] at hflushed
      have hcovers : (s.step pb .flush).Covers interval L L.frames.length :=
        covers_all (hoptions ▸ h.flushEvery) hafter h.records h.inside hflushed
      exact ⟨[], _, hsame.symm ▸ hcovers⟩
    | append event arrival =>
      rcases LogWriter.append_cases hw arrival hcall with ⟨message, hm, hrefused⟩ |
          ⟨f, rfl, rfl, hs⟩
      · have hstep : s.step pb (.append event arrival) =
            {s with writer := s.writer.fail message} := by
          simp only [step, hrefused, Bool.false_eq_true, if_false]
        rw [hstep]
        exact ⟨[], covered, hsame.symm ▸ h.refused hm⟩
      · obtain ⟨covered', hafter⟩ := step_frame h hholds f hs hgood
        exact ⟨[f], covered', hafter⟩
  · have hstep : s.step pb call = s := by
      cases call <;> simp [step, LogWriter.append, LogWriter.flush, hw]
    rw [hstep]
    exact ⟨[], covered, hsame.symm ▸ h⟩

/-! ### Runs -/

theorem step_goodbit {call : WriterCall} (h : (s.step pb call).writer.output.goodbit = true) :
    s.writer.output.goodbit = true := by
  cases call with
  | append event arrival =>
    have hafter : (s.writer.append pb event arrival).2.output.goodbit = true := h
    exact LogWriter.append_goodbit hafter
  | flush => exact LogWriter.flush_goodbit h

theorem run_goodbit {calls : List WriterCall}
    (h : (s.run pb calls).writer.output.goodbit = true) : s.writer.output.goodbit = true := by
  induction calls generalizing s with
  | nil => exact h
  | cons call rest ih => exact step_goodbit (ih h)

theorem run_covers {calls : List WriterCall} (h : s.Covers interval L covered)
    (hcalls : ∀ call ∈ calls, ParsesBack pb call)
    (hgood : (s.run pb calls).writer.output.goodbit = true) :
    ∃ (L' : Layout pb) (covered' : Nat), (s.run pb calls).Covers interval L' covered' := by
  induction calls generalizing s L covered with
  | nil => exact ⟨L, covered, h⟩
  | cons call rest ih =>
    obtain ⟨hcall, hrest⟩ := List.forall_mem_cons.mp hcalls
    obtain ⟨_, _, hstep⟩ := step_covers h hcall (run_goodbit hgood)
    exact ih hstep hrest hgood

theorem start_covers (pb : Protobuf) {path : String} {device : Nat → Option Nat}
    {options : LogWriterOptions} {now : Int64} (hflush : 1 ≤ options.flushEveryRecords)
    (hgood : (start path device options now).writer.output.goodbit = true) :
    ∃ L : Layout pb, (start path device options now).Covers options.flushEveryRecords L 0 := by
  have hnonzero : options.flushEveryRecords ≠ 0 := by
    rintro hzero
    rw [hzero] at hflush
    exact absurd hflush (by decide)
  have hnew := LogWriter.create_holds pb path device options now hnonzero hgood
  exact ⟨_,
    { flushEvery := by
        have hcreate : (LogWriter.create (.fresh path device) options now).output.goodbit = true :=
          hgood
        show (LogWriter.create (.fresh path device) options now).options.flushEveryRecords = _
        rw [LogWriter.create_fresh hnonzero] at hcreate ⊢
        rw [LogWriter.writeFileHeader, LogWriter.writeBytes_good _ _ hcreate]
      isOpen := hnew.isOpen
      bytes := hnew.bytes
      holds := fun _ => hnew
      records := rfl
      inside := fun record h => absurd h List.not_mem_nil
      due := Nat.sub_le ..
      covered_le := Nat.le_refl _
      flushed := fun record h => absurd h List.not_mem_nil
      flushedBytes := .inl rfl }⟩

end WriterSession

/-! ### Crashes -/

/-- A moment of a session: no call is in progress, or one that leads from `s` to `t`. -/
def WriterSession.Underway (pb : Protobuf) (s t : WriterSession) : Prop :=
  t = s ∨ ∃ call, WriterSession.ParsesBack pb call ∧ t = s.step pb call

/-- What a crash may leave of a file: all that was flushed before the call in progress, and a part
of what is written when that has returned. -/
structure Crash (before after : OFStream) (disk : File) : Prop where
  written : disk.bytes <+: after.file.bytes
  flushed : before.visible.bytes <+: disk.bytes

/-- What a reader has of a log after a crash: a torn tail is cut off first. -/
def readAfterCrash (pb : Protobuf) (disk : File) (options : LogReadOptions) : LogReadResult :=
  if (readLog pb .granted disk options).status = .truncatedTail then
    readLog pb .granted (recoverTruncatedTail pb .granted disk options).2 options
  else readLog pb .granted disk options

/-- **A prefix of a log** with room for its records reads, after recovery, as the records that
lie inside it. -/
theorem readAfterCrash_prefix {L : Layout pb} {file disk : File} (options : LogReadOptions)
    (hb : L.bytes = file.bytes) (hlimit : L.frames.length ≤ options.maximumRecords.toNat)
    (hdisk : disk.bytes <+: file.bytes) (hlow : 32 ≤ disk.bytes.length) :
    ∃ k ≤ L.frames.length,
      L.index.filter (fun entry => decide (entry.ends ≤ disk.bytes.length)) =
        (L.prefixOf k).index ∧
      ∃ after : File, (L.prefixOf k).bytes = after.bytes ∧
        readAfterCrash pb disk options = (L.prefixOf k).result after options complete := by
  have hcutDisk : file.cut disk.bytes.length = disk :=
    File.ext (List.prefix_iff_eq_take.mp hdisk).symm
  obtain ⟨k, tail, hk, hcut, htail, hfilter⟩ :=
    layout_cut hb hlow hdisk.length_le
  rw [hcutDisk] at hcut
  have hcount : (L.prefixOf k).frames.length = k := Layout.prefixOf_length hk
  have hkn : (L.prefixOf k).frames.length ≤ options.maximumRecords.toNat := by omega
  refine ⟨k, hk, hfilter, ?_⟩
  by_cases hnil : tail = []
  · have hwhole : (L.prefixOf k).bytes = disk.bytes := by
      rw [hcut, hnil, List.append_nil]
    have hread := readLog_complete options hwhole hkn
    refine ⟨disk, hwhole, ?_⟩
    rw [readAfterCrash, hread]
    rfl
  · obtain ⟨hlt, message, hpart⟩ := htail.resolve_left hnil
    have hverdict : verdict pb options.maximumRecords.toNat (L.prefixOf k).frames.length tail =
        some (.truncatedTail, message) := by
      rw [verdict, if_neg hnil, if_neg (by omega), hcount, hpart]
    have hread := readLog_layout hcut hkn hverdict
    obtain ⟨_, hafter⟩ := recover_layout hread hcut (.inr rfl)
    refine ⟨_, hafter.symm, ?_⟩
    rw [readAfterCrash, if_pos (by rw [hread]; rfl)]
    exact readLog_complete options hafter.symm hkn

/-- Less than a file header holds no record, and is left alone. -/
theorem readAfterCrash_short (pb : Protobuf) {disk : File} (options : LogReadOptions)
    (hshort : disk.bytes.length < 32) :
    readAfterCrash pb disk options =
      makeFailure {fileSize := disk.size} .corrupt 0 "file header is incomplete" := by
  have hrefusal : headerRefusal disk = some "file header is incomplete" := if_pos hshort
  have hread : readLog pb .granted disk options = _ := readLog_refused hrefusal
  rw [readAfterCrash, hread, if_neg]
  intro h
  cases h

/-- What a disk has of the flushed bytes, it has of the covered records. -/
theorem WriterSession.Covers.covered_bytes {s : WriterSession} {interval : UInt64} {L : Layout pb}
    {covered : Nat} {disk : File} (h : s.Covers interval L covered)
    (hflushed : s.writer.output.visible.bytes <+: disk.bytes) :
    covered = 0 ∨ (L.prefixOf covered).bytes.length ≤ disk.bytes.length := by
  refine h.flushedBytes.imp id fun hcovered => ?_
  have hvisible := hflushed.length_le
  have hinside := (L.prefixOf_bytes covered).length_le
  rw [OFStream.visible, File.cut_bytes, List.length_take, h.bytes] at hvisible
  omega

/-- **The records that are covered** lie inside whatever has their bytes. -/
theorem covered_survive {L : Layout pb} {covered k : Nat} {file disk : File}
    (hb : L.bytes = file.bytes) (hle : covered ≤ L.frames.length)
    (hcovered : covered = 0 ∨ (L.prefixOf covered).bytes.length ≤ disk.bytes.length)
    (hfilter : L.index.filter (fun entry => decide (entry.ends ≤ disk.bytes.length)) =
      (L.prefixOf k).index) : covered ≤ k := by
  rcases hcovered with rfl | hcovered
  · exact Nat.zero_le k
  have hlt := file.length_lt
  have hinside := (L.prefixOf_bytes covered).length_le
  rw [← hb] at hlt
  have hbytes := (L.prefixOf covered).bytes_length
  -- every entry of the covered records passes the filter
  have hall : (L.index.take covered).filter (fun entry => decide (entry.ends ≤ disk.bytes.length)) =
      L.index.take covered := by
    rw [List.filter_eq_self]
    intro entry hentry
    rw [← L.prefixOf_index covered] at hentry
    have hinside := (entries_inside (by omega) entry hentry).2
    exact decide_eq_true (by omega)
  have hlen := congrArg List.length hfilter
  rw [← List.take_append_drop covered L.index, List.filter_append, hall, List.length_append,
    List.length_take, L.index_length, Layout.index_length, Layout.prefixOf, List.length_take]
    at hlen
  omega

/-- **What a session holds at any moment**: when the call in progress returns, its records are those
of a layout, of which the covered ones were there before. -/
theorem WriterSession.Covers.underway {s t : WriterSession} {interval : UInt64} {L : Layout pb}
    {covered : Nat} (h : s.Covers interval L covered) (hmoment : s.Underway pb t)
    (hgood : t.writer.output.goodbit = true) :
    ∃ L' : Layout pb, t.writer.output.file.bytes = L'.bytes ∧
      t.records = LogWriter.appended L'.frames ∧ L.frames.length ≤ L'.frames.length ∧
      L'.prefixOf covered = L.prefixOf covered := by
  rcases hmoment with rfl | ⟨call, hcall, rfl⟩
  · exact ⟨L, h.bytes, h.records, Nat.le_refl _, rfl⟩
  · obtain ⟨added, _, hafter⟩ := WriterSession.step_covers h hcall hgood
    refine ⟨_, hafter.bytes, hafter.records, ?_, ?_⟩
    · rw [Layout.append, List.length_append]
      exact Nat.le_add_right ..
    · rw [Layout.prefixOf, Layout.prefixOf, Layout.append,
        List.take_append_of_le_length h.covered_le]

/-- **A crash loses fewer records than the flush interval.** In every state of a writer whose
stream has not failed, fewer acknowledged records than that are not covered by a completed flush;
so whatever prefix of the file a crash leaves, between two calls or in the middle of one, the reader
finds the first records appended, all but fewer than the interval of those acknowledged. -/
theorem bounded_loss (pb : Protobuf) (path : String) (device : Nat → Option Nat)
    (options : LogWriterOptions) (now : Int64) (calls : List WriterCall)
    (hflush : 1 ≤ options.flushEveryRecords)
    (hparse : ∀ call ∈ calls, WriterSession.ParsesBack pb call)
    (hstream : ((WriterSession.start path device options now).run pb
      calls).writer.output.goodbit = true) :
    let s := (WriterSession.start path device options now).run pb calls
    s.uncovered.length < options.flushEveryRecords.toNat ∧
      ∀ (t : WriterSession) (disk : File) (readOptions : LogReadOptions), s.Underway pb t →
        t.writer.output.goodbit = true → Crash s.writer.output t.writer.output disk →
        t.acknowledged.length ≤ readOptions.maximumRecords.toNat →
        let result := readAfterCrash pb disk readOptions
        ∃ m ≤ t.acknowledged.length,
          s.acknowledged.length - (options.flushEveryRecords.toNat - 1) ≤ m ∧
          (32 ≤ disk.bytes.length → result.status = .complete) ∧
          (result.index.map fun entry => (entry.recordIndex.toNat,
              entry.collectorArrivalTimestampNs, entry.sourceTimestampNs)) =
            ((t.records.take m).mapIdx fun i r => (i, r.2, r.1.sourceTimestampNs)) ∧
          (result.records.map fun record => (record.recordIndex.toNat,
              record.collectorArrivalTimestampNs, record.event)) =
            (if readOptions.retainRecords then
              (t.records.take m).mapIdx fun i r => (i, r.2, r.1) else []) := by
  intro s
  obtain ⟨_, hstart⟩ := WriterSession.start_covers pb hflush (WriterSession.run_goodbit hstream)
  obtain ⟨L, covered, hcovers⟩ : ∃ (L : Layout pb) (covered : Nat),
      s.Covers options.flushEveryRecords L covered :=
    WriterSession.run_covers hstart hparse hstream
  refine ⟨hcovers.uncovered_lt hflush, fun t disk readOptions hmoment hgood hcrash hlimit => ?_⟩
  obtain ⟨L', hfile, hrecords, hlonger, hsame⟩ := hcovers.underway hmoment hgood
  have hpos : 0 < options.flushEveryRecords.toNat := UInt64.le_iff_toNat_le.mp hflush
  have hdue := hcovers.due
  have hle := hcovers.covered_le
  have hcount : s.acknowledged.length = L.frames.length := hcovers.count
  have hmod := Nat.mod_lt L.frames.length hpos
  have hcovered := hcovers.covered_bytes hcrash.flushed
  have hacknowledged : t.acknowledged.length = L'.frames.length := by
    have hlength := congrArg List.length hrecords
    rwa [WriterSession.records, List.length_map, LogWriter.appended, List.length_map] at hlength
  by_cases hlow : 32 ≤ disk.bytes.length
  · obtain ⟨k, hk, hfilter, after, hafter, hread⟩ :=
      readAfterCrash_prefix readOptions hfile.symm (hacknowledged ▸ hlimit) hcrash.written hlow
    have hsurvive := covered_survive hfile.symm (by omega) (hsame.symm ▸ hcovered) hfilter
    have hkept : (L'.prefixOf k).frames.length ≤ readOptions.maximumRecords.toNat := by
      rw [Layout.prefixOf_length hk]
      omega
    obtain ⟨hcomplete, hindex, hfound⟩ := readLog_frames readOptions hafter hkept
    have htake : LogWriter.appended (L'.prefixOf k).frames = t.records.take k := by
      rw [hrecords, LogWriter.appended, Layout.prefixOf, List.map_take]
      rfl
    rw [hcomplete, htake] at hindex hfound
    simp only [hread]
    exact ⟨k, by omega, by omega, fun _ => rfl, hindex, hfound⟩
  · have hbytes := (L.prefixOf covered).bytes_length
    simp only [readAfterCrash_short pb readOptions (Nat.not_le.mp hlow)]
    refine ⟨0, Nat.zero_le _, by omega, fun h => absurd h hlow, rfl, ?_⟩
    cases readOptions.retainRecords <;> rfl

/-- Three appends with a flush due after every second. -/
def sampleCalls : List WriterCall :=
  [.append (Wire.sampleEvent 1) 5, .append (Wire.sampleEvent 1) 6, .append (Wire.sampleEvent 1) 7]

def sampleSession : WriterSession :=
  (WriterSession.start "log" (fun _ => none) {flushEveryRecords := 2} 1).run samplePb sampleCalls

/-- A fourth append, with which a flush is due. -/
def sampleUnderway : WriterSession := sampleSession.step samplePb (.append (Wire.sampleEvent 1) 8)

/-- A crash in the middle of the fourth record, before the flush: three are read back. -/
theorem bounded_loss_torn :
    let disk := sampleUnderway.writer.output.file.cut 230
    sampleSession.acknowledged.length = 3 ∧ sampleSession.uncovered.length < 2 ∧
      sampleUnderway.acknowledged.length = 4 ∧
      ∃ m ≤ 4, 2 ≤ m ∧ (readAfterCrash samplePb disk {}).status = .complete ∧
        (readAfterCrash samplePb disk {}).records.length = m := by
  intro disk
  have hacknowledged : sampleSession.acknowledged.length = 3 := by decide +kernel
  have hreturned : sampleUnderway.acknowledged.length = 4 := by decide +kernel
  have hflushed : sampleSession.writer.output.visible.bytes <+: disk.bytes := by decide +kernel
  have hdisk : Crash sampleSession.writer.output sampleUnderway.writer.output disk :=
    ⟨File.cut_prefix _ 230, hflushed⟩
  have hparses (arrival : Int64) :
      WriterSession.ParsesBack samplePb (.append (Wire.sampleEvent 1) arrival) := by
    intro payload hp
    cases hp
    decide
  have hcalls : ∀ call ∈ sampleCalls, WriterSession.ParsesBack samplePb call := by
    intro call hcall
    simp only [sampleCalls, List.mem_cons, List.not_mem_nil, or_false] at hcall
    rcases hcall with rfl | rfl | rfl
    · exact hparses 5
    · exact hparses 6
    · exact hparses 7
  have hsession : (WriterSession.start "log" (fun _ => none) {flushEveryRecords := 2} 1).run
      samplePb sampleCalls = sampleSession := rfl
  have hloss := bounded_loss samplePb "log" (fun _ => none) {flushEveryRecords := 2} 1
    sampleCalls (by decide) hcalls (by decide +kernel)
  simp only [hsession, hacknowledged] at hloss
  obtain ⟨huncovered, hcrash⟩ := hloss
  obtain ⟨m, hle, hge, hstatus, _, hrecords⟩ := hcrash sampleUnderway disk {}
    (.inr ⟨_, hparses 8, rfl⟩) (by decide +kernel) hdisk (by rw [hreturned]; decide)
  rw [hreturned] at hle
  have hlen := congrArg List.length hrecords
  rw [List.length_map, if_pos rfl, List.length_mapIdx, List.length_take] at hlen
  have hrecorded : sampleUnderway.records.length = 4 := (List.length_map _).trans hreturned
  refine ⟨hacknowledged, huncovered, hreturned, m, hle, hge, hstatus (by decide +kernel),
    hlen.trans ?_⟩
  exact Nat.min_eq_left (hrecorded.symm ▸ hle)

end TraceForge.Recording
