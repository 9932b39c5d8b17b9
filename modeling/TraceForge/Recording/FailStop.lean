import TraceForge.Recording.CrashLoss

/-! A writer that fails.

The first call that returns false leaves a writer that is not good, and a writer that is not good
does nothing more (`failStopped_of_not_good`). Until then every valid event is written whole, so the
file is the file header and the framed events, cut at the write that failed (`Stores`). Reading it
finds the records that were stored whole (`readLog_stored`). -/
namespace TraceForge.Recording
open Library Telemetry

variable {pb : Protobuf}

namespace LogWriter

/-- A call and what it returns. -/
def call (pb : Protobuf) (w : LogWriter) : WriterCall → Bool × LogWriter
  | .append event arrival => w.append pb event arrival
  | .flush => w.flush

def callAll (pb : Protobuf) (w : LogWriter) (calls : List WriterCall) : LogWriter :=
  calls.foldl (fun w next => (w.call pb next).2) w

/-! ### After a failure -/

/-- Every later call returns false and hands no byte to the stream. -/
def FailStopped (pb : Protobuf) (w : LogWriter) : Prop :=
  ∀ (later : List WriterCall) (next : WriterCall),
    ((w.callAll pb later).call pb next).1 = false ∧
      ((w.callAll pb later).call pb next).2.output = w.output

theorem call_of_not_good {w : LogWriter} (hw : w.good = false) (next : WriterCall) :
    w.call pb next = (false, w) := by
  cases next <;> simp [call, append, flush, hw]

theorem failStopped_of_not_good {w : LogWriter} (hw : w.good = false) : w.FailStopped pb := by
  intro later next
  have hlater : w.callAll pb later = w := by
    induction later with
    | nil => rfl
    | cons first rest ih =>
      rw [callAll, List.foldl_cons, call_of_not_good hw first]
      exact ih
  rw [hlater, call_of_not_good hw next]
  exact ⟨rfl, rfl⟩

theorem good_fail {message : String} (hm : message ≠ "") (w : LogWriter) :
    (w.fail message).good = false := by
  have herror : (w.fail message).error ≠ "" := by
    unfold fail
    split
    · exact hm
    · rename_i hne
      exact fun hnil => hne (beq_iff_eq.mpr hnil)
  rw [good, beq_false_of_ne herror]
  rfl

theorem good_of_goodbit {w : LogWriter} (h : w.output.goodbit = false) : w.good = false := by
  rw [good, h, Bool.and_false]

theorem writeBytes_false {bytes : List UInt8} {w w' : LogWriter}
    (h : w.writeBytes bytes = (false, w')) : w'.good = false := by
  apply good_of_goodbit
  have houtput := congrArg (fun answer => answer.2.output) h
  rw [writeBytes_output] at houtput
  rw [← houtput]
  by_contra hgood
  rw [writeBytes_good bytes w (by rw [writeBytes_output]; simpa using hgood)] at h
  cases h

theorem flush_false {w : LogWriter} (h : w.flush.1 = false) : w.flush.2.good = false := by
  cases hw : w.good
  · simp [flush, hw]
  · apply good_of_goodbit
    rw [flush_output w hw]
    cases hgood : w.output.flush.goodbit
    · rfl
    · simp [flush, hw, hgood] at h

theorem appendPayload_false {payload : List UInt8} {arrival : Int64} {w : LogWriter}
    (h : (w.appendPayload payload arrival).1 = false) :
    (w.appendPayload payload arrival).2.good = false := by
  unfold appendPayload at h ⊢
  split at h
  · rename_i hheader
    exact writeBytes_false hheader
  split at h
  · rename_i hpayload
    exact writeBytes_false hpayload
  rename_i written _
  simp only at h ⊢
  by_cases hdue : (written.recordCount + 1) % written.options.flushEveryRecords = 0
  · rw [if_pos hdue] at h ⊢
    exact flush_false h
  · rw [if_neg hdue] at h
    cases h

/-- **A call that returns false** leaves a writer that is not good. -/
theorem call_false {w : LogWriter} {next : WriterCall} (h : (w.call pb next).1 = false) :
    (w.call pb next).2.good = false := by
  cases hw : w.good
  · rw [call_of_not_good hw]
    exact hw
  cases next with
  | flush => exact flush_false h
  | append event arrival =>
    cases hvalid : validPayload pb event with
    | none =>
      obtain ⟨message, hm, hrefused⟩ := append_invalid hw arrival hvalid
      rw [call, hrefused]
      exact good_fail hm w
    | some payload =>
      rw [call, append_valid hw arrival hvalid] at h ⊢
      exact appendPayload_false h

/-- An event that does not pass the checks adds nothing to the file. -/
theorem append_invalid_output (w : LogWriter) {event : TelemetryEvent} (arrival : Int64)
    (hinvalid : validPayload pb event = none) :
    (w.append pb event arrival).1 = false ∧ (w.append pb event arrival).2.output = w.output := by
  cases hw : w.good
  · have hstopped : w.append pb event arrival = (false, w) :=
      call_of_not_good hw (.append event arrival)
    rw [hstopped]
    exact ⟨rfl, rfl⟩
  · obtain ⟨message, _, hrefused⟩ := append_invalid hw arrival hinvalid
    rw [hrefused]
    exact ⟨rfl, fail_output message w⟩

end LogWriter

/-! ### What the valid events come to -/

/-- An append whose event passes the writer's checks. -/
structure ValidAppend where
  event : TelemetryEvent
  collectorArrivalTimestampNs : Int64
  payload : List UInt8

def WriterCall.valid? (pb : Protobuf) : WriterCall → Option ValidAppend
  | .append event arrival => (LogWriter.validPayload pb event).map (⟨event, arrival, ·⟩)
  | .flush => none

/-- The valid events, in append order. -/
def validAppends (pb : Protobuf) (calls : List WriterCall) : List ValidAppend :=
  calls.filterMap (WriterCall.valid? pb)

/-- Records numbered from `recordCount` on. -/
def framed : UInt64 → List ValidAppend → List UInt8
  | _, [] => []
  | recordCount, a :: rest =>
    recordHeader a.payload recordCount a.collectorArrivalTimestampNs ++ a.payload ++
      framed (recordCount + 1) rest

/-- The whole log of some valid events. -/
def wholeLog (created : Int64) (appends : List ValidAppend) : List UInt8 :=
  fileHeader created ++ framed 0 appends

def Frame.toAppend (f : Frame pb) : ValidAppend := ⟨f.event, f.arrival, f.payload⟩

theorem framed_frames (i : Nat) (fs : List (Frame pb)) :
    framed (UInt64.ofNat i) (fs.map Frame.toAppend) = framesBytes i fs := by
  induction fs generalizing i with
  | nil => rfl
  | cons f rest ih =>
    have hnext : UInt64.ofNat i + 1 = UInt64.ofNat (i + 1) := (UInt64.ofNat_add i 1).symm
    rw [List.map_cons, framed, hnext, ih, framesBytes, Frame.bytes, ← recordHeader_frame]
    rfl

theorem wholeLog_layout (created : Int64) (fs : List (Frame pb)) :
    wholeLog created (fs.map Frame.toAppend) =
      (⟨.written created, fs⟩ : Layout pb).bytes := by
  rw [wholeLog, fileHeader_bytes, Layout.bytes, ← framed_frames]
  rfl

theorem framed_append (recordCount : UInt64) (a b : List ValidAppend) :
    framed recordCount (a ++ b) =
      framed recordCount a ++ framed (recordCount + UInt64.ofNat a.length) b := by
  induction a generalizing recordCount with
  | nil =>
    rw [List.nil_append, framed, List.nil_append]
    exact congrArg (framed · b) (UInt64.add_zero _).symm
  | cons first rest ih =>
    have hcount : recordCount + 1 + UInt64.ofNat rest.length =
        recordCount + UInt64.ofNat (first :: rest).length := by
      rw [UInt64.add_assoc, List.length_cons, Nat.add_comm rest.length, UInt64.ofNat_add]
      rfl
    rw [List.cons_append, framed, framed, ih, hcount, ← List.append_assoc]

theorem wholeLog_mono (created : Int64) {a b : List ValidAppend} (h : a <+: b) :
    wholeLog created a <+: wholeLog created b := by
  obtain ⟨rest, rfl⟩ := h
  rw [wholeLog, wholeLog, framed_append, ← List.append_assoc]
  exact List.prefix_append ..

/-- Every record takes some room. -/
theorem wholeLog_lt (created : Int64) {appends : List ValidAppend} {m : Nat}
    (hm : m < appends.length) :
    (wholeLog created (appends.take m)).length <
      (wholeLog created (appends.take (m + 1))).length := by
  have hnext : appends.take (m + 1) = appends.take m ++ [appends[m]] := by
    rw [List.take_add_one, List.getElem?_eq_getElem hm]
    rfl
  rw [hnext, wholeLog, wholeLog, framed_append]
  simp [framed, recordHeader_length]

/-! ### What is stored -/

namespace LogWriter

theorem writeBytes_true {bytes : List UInt8} {w w' : LogWriter}
    (h : w.writeBytes bytes = (true, w')) :
    w'.output.file.bytes = w.output.file.bytes ++ bytes := by
  have houtput := congrArg (fun answer => answer.2.output) h
  rw [writeBytes_output] at houtput
  have hgood : (w.output.write bytes).goodbit = true := by
    by_contra hbad
    rw [writeBytes, if_pos (by simpa using hbad)] at h
    cases h
  rw [← houtput]
  exact (OFStream.write_good hgood).2.1

theorem flush_file (w : LogWriter) : w.flush.2.output.file = w.output.file := by
  cases hw : w.good
  · simp [flush, hw]
  · rw [flush_output w hw, OFStream.flush_file]

/-- A record is added as far as its two writes stored it. -/
theorem appendPayload_adds (payload : List UInt8) (arrival : Int64) (w : LogWriter) :
    (w.appendPayload payload arrival).2.output.file.bytes <+:
      w.output.file.bytes ++ (recordHeader payload w.recordCount arrival ++ payload) := by
  unfold appendPayload
  split
  · rename_i first heq
    have hfirst := writeBytes_output (recordHeader payload w.recordCount arrival) w
    rw [heq] at hfirst
    rw [hfirst, ← List.append_assoc]
    exact (OFStream.write_adds _ w.output).trans (List.prefix_append ..)
  rename_i first heq
  rw [← List.append_assoc, ← writeBytes_true heq]
  split
  · rename_i second heq'
    have hsecond := writeBytes_output payload first
    rw [heq'] at hsecond
    rw [hsecond]
    exact OFStream.write_adds payload first.output
  rename_i second heq'
  rw [← writeBytes_true heq']
  simp only
  split
  · rewrite [flush_file]
    exact List.prefix_refl _
  · exact List.prefix_refl _

theorem create_bytes (target : Target) (options : LogWriterOptions) (now : Int64) :
    (create target options now).output.file.bytes <+:
      fileHeader (if options.createdUnixNs = 0 then now else options.createdUnixNs) := by
  by_cases hfresh : target = .fresh target.path target.device ∧ options.flushEveryRecords ≠ 0
  · rw [hfresh.1, create_fresh hfresh.2, writeFileHeader, writeBytes_output]
    generalize fileHeader (if options.createdUnixNs = 0 then now else options.createdUnixNs) = header
    exact OFStream.write_adds header (OFStream.openFile target.device)
  · have hfile : (create target options now).output.file = File.empty := by
      unfold create
      by_cases hflush : options.flushEveryRecords = 0
      · rw [if_pos hflush, fail_output]
        rfl
      rw [if_neg hflush]
      obtain ⟨path, existsError, alreadyExists, opens, device⟩ := target
      cases existsError <;> cases alreadyExists <;> cases opens
      case false.false.true => exact absurd ⟨rfl, hflush⟩ hfresh
      all_goals by_cases hcreated : options.createdUnixNs = 0 <;> simp [hcreated, OFStream.closed]
    rw [hfile]
    exact List.nil_prefix

/-- The file holds a prefix of the valid events' log, all of it as long as the writer is good. -/
structure Stores (w : LogWriter) (created : Int64) (appends : List ValidAppend) (L : Layout pb) :
    Prop where
  header : L.header = .written created
  frames : L.frames.map Frame.toAppend <+: appends
  fits : L.bytes.length < 2 ^ 64
  bytes : w.output.file.bytes <+: L.bytes
  whole : w.good = true → w.Holds L ∧ L.frames.map Frame.toAppend = appends

theorem Stores.front {w : LogWriter} {created : Int64} {appends : List ValidAppend}
    {L : Layout pb} (h : w.Stores created appends L) :
    w.output.file.bytes <+: wholeLog created appends := by
  have hlog : wholeLog created (L.frames.map Frame.toAppend) = L.bytes := by
    rw [wholeLog_layout, ← h.header]
  exact h.bytes.trans (hlog ▸ wholeLog_mono created h.frames)

/-- A writer that has failed keeps what it has, whatever comes next. -/
theorem Stores.stopped {w w' : LogWriter} {created : Int64} {appends more : List ValidAppend}
    {L : Layout pb} (h : w.Stores created appends L) (hbad : w'.good = false)
    (hfile : w'.output.file = w.output.file) : w'.Stores created (appends ++ more) L where
  header := h.header
  frames := h.frames.trans (List.prefix_append ..)
  fits := h.fits
  bytes := hfile ▸ h.bytes
  whole hgood := by
    rw [hbad] at hgood
    cases hgood

theorem create_stores (pb : Protobuf) (target : Target) (options : LogWriterOptions)
    (now : Int64) :
    ∃ L : Layout pb, (create target options now).Stores
      (if options.createdUnixNs = 0 then now else options.createdUnixNs) [] L := by
  have hbytes := create_bytes target options now
  have hwhole (hgood : (create target options now).good = true) :
      (create target options now).Holds (Layout.headerOnly pb
        (.written (if options.createdUnixNs = 0 then now else options.createdUnixNs))) := by
    obtain ⟨htarget, hflush⟩ := create_good hgood
    have hgoodbit : (create target options now).output.goodbit = true := by
      simp only [good, Bool.and_eq_true] at hgood
      exact hgood.2
    rw [htarget] at hgoodbit ⊢
    exact create_holds pb _ _ options now hflush hgoodbit
  exact ⟨.headerOnly pb (.written _),
    { header := rfl
      frames := List.nil_prefix
      fits := by
        rw [Layout.headerOnly_bytes, FileHeader.bytes_length]
        decide
      bytes := by
        rw [Layout.headerOnly_bytes, ← fileHeader_bytes]
        exact hbytes
      whole := fun hgood => ⟨hwhole hgood, rfl⟩ }⟩

/-- **One call** stores what it can of its event. -/
theorem call_stores {w : LogWriter} {created : Int64} {appends : List ValidAppend} {L : Layout pb}
    (h : w.Stores created appends L) {next : WriterCall}
    (hnext : WriterSession.ParsesBack pb next) :
    ∃ L' : Layout pb,
      (w.call pb next).2.Stores created (appends ++ (next.valid? pb).toList) L' := by
  cases hw : w.good
  · rw [call_of_not_good hw]
    exact ⟨L, h.stopped hw rfl⟩
  obtain ⟨hholds, hframes⟩ := h.whole hw
  cases next with
  | flush =>
    rw [WriterCall.valid?, Option.toList_none, List.append_nil, call]
    refine ⟨L, { header := h.header, frames := h.frames, fits := h.fits, bytes := ?_, whole := ?_ }⟩
    · rw [flush_file]
      exact h.bytes
    · intro hgood
      simp only [good, Bool.and_eq_true] at hgood
      exact ⟨(flush_holds hholds hgood.2).2, hframes⟩
  | append event arrival =>
    cases hvalid : validPayload pb event with
    | none =>
      obtain ⟨message, hm, hrefused⟩ := append_invalid hw arrival hvalid
      rw [call, hrefused]
      exact ⟨L, h.stopped (good_fail hm w) (congrArg OFStream.file (fail_output message w))⟩
    | some payload =>
      obtain ⟨f, rfl, rfl, rfl, hs⟩ := frame_of_valid arrival hnext hvalid
      have hlog : (L.append [f]).bytes =
          w.output.file.bytes ++ (recordHeader f.payload w.recordCount f.arrival ++ f.payload) := by
        rw [L.append_bytes, framesBytes, framesBytes, List.append_nil, hholds.bytes,
          hholds.recordCount, recordHeader_frame, Frame.bytes]
      have hall : (L.append [f]).frames.map Frame.toAppend =
          appends ++ (WriterCall.valid? pb (.append f.event f.arrival)).toList := by
        rw [WriterCall.valid?, hvalid, Layout.append, List.map_append, hframes]
        rfl
      refine ⟨L.append [f],
        { header := h.header
          frames := hall ▸ List.prefix_refl _
          fits := ?_
          bytes := ?_
          whole := fun hgood => ⟨?_, hall⟩ }⟩
      · have hlt := w.output.file.length_lt
        have hsize := f.payload_lt
        rw [L.append_bytes, framesBytes, framesBytes, List.append_nil, List.length_append,
          f.bytes_length, ← hholds.bytes]
        omega
      · rw [call, append_valid hw f.arrival hvalid, hlog]
        exact appendPayload_adds f.payload f.arrival w
      · simp only [good, Bool.and_eq_true] at hgood
        exact (append_holds hholds f hs hgood.2).2

theorem callAll_stores {w : LogWriter} {created : Int64} {appends : List ValidAppend}
    {L : Layout pb} (h : w.Stores created appends L) {calls : List WriterCall}
    (hcalls : ∀ next ∈ calls, WriterSession.ParsesBack pb next) :
    ∃ L' : Layout pb, (w.callAll pb calls).Stores created (appends ++ validAppends pb calls) L' := by
  induction calls generalizing w appends L with
  | nil => exact ⟨L, by rw [validAppends, List.filterMap_nil, List.append_nil]; exact h⟩
  | cons first rest ih =>
    obtain ⟨hfirst, hrest⟩ := List.forall_mem_cons.mp hcalls
    obtain ⟨L', hstep⟩ := call_stores h hfirst
    obtain ⟨L'', hafter⟩ := ih hstep hrest
    refine ⟨L'', ?_⟩
    have hvalid : validAppends pb (first :: rest) =
        (first.valid? pb).toList ++ validAppends pb rest := by
      rw [validAppends, List.filterMap_cons]
      cases first.valid? pb <;> rfl
    rw [hvalid, ← List.append_assoc]
    exact hafter

end LogWriter

/-! ### Reading it -/

/-- What is stored of a layout that fits: its first `m` records, and less than the next one. -/
theorem stored_cut {L : Layout pb} {bytes : List UInt8} (hfits : L.bytes.length < 2 ^ 64)
    (hstored : bytes <+: L.bytes) (hlow : 32 ≤ bytes.length) :
    ∃ (m : Nat) (tail : List UInt8), m ≤ L.frames.length ∧
      bytes = (L.prefixOf m).bytes ++ tail ∧
      (tail = [] ∨ ∃ message, inspect pb m tail = .error (.truncatedTail, message)) ∧
      (m < L.frames.length → bytes.length < (L.prefixOf (m + 1)).bytes.length) := by
  have hle := hstored.length_le
  rw [L.bytes_length] at hle hfits
  obtain ⟨m, tail, hm, hcut, htail, _⟩ := frames_cut 0 32 L.frames (bytes.length - 32)
    (by omega) (by omega)
  have hbytes : bytes = (L.prefixOf m).bytes ++ tail := by
    have hheader : L.header.bytes.take bytes.length = L.header.bytes :=
      List.take_of_length_le (by rw [L.header.bytes_length]; exact hlow)
    conv => lhs; rw [List.prefix_iff_eq_take.mp hstored]
    rw [Layout.bytes, List.take_append, hheader, L.header.bytes_length, hcut, ← List.append_assoc]
    rfl
  rw [Nat.zero_add] at htail
  refine ⟨m, tail, hm, hbytes, htail.imp_right And.right, fun hlt => ?_⟩
  have hf : L.frames[m]? = some L.frames[m] := List.getElem?_eq_getElem hlt
  generalize L.frames[m] = f at hf
  have hcount : (L.prefixOf m).frames.length = m := Layout.prefixOf_length hm
  have hnext : (L.prefixOf (m + 1)).bytes = (L.prefixOf m).bytes ++ f.bytes m := by
    rw [Layout.prefixOf_succ hf, Layout.append_bytes, hcount, framesBytes, framesBytes,
      List.append_nil]
  have hpart : tail.length < (f.bytes m).length := by
    by_contra hlong
    rw [hbytes, Layout.bytes_at hf, List.prefix_append_right_inj] at hstored
    -- a whole record in front would have been accepted
    obtain ⟨rest, rfl⟩ := List.prefix_of_prefix_length_le (List.prefix_append _ _) hstored
      (Nat.not_lt.mp hlong)
    rcases htail with hnil | ⟨_, message, herror⟩
    · have hlen := congrArg List.length hnil
      rw [List.length_append, f.bytes_length, List.length_nil] at hlen
      omega
    · rw [inspect_frame] at herror
      cases herror
  have hlen := congrArg List.length hbytes
  rw [List.length_append] at hlen
  rw [hnext, List.length_append]
  omega

/-- **Reading a layout and a part of the next record** finds the records up to the limit. -/
theorem readLog_stored {file : File} (options : LogReadOptions) {L : Layout pb}
    {tail : List UInt8} (hb : file.bytes = L.bytes ++ tail)
    (htail : tail = [] ∨
      ∃ message, inspect pb L.frames.length tail = .error (.truncatedTail, message)) :
    let limit := options.maximumRecords.toNat
    ∃ message, readLog pb .granted file options =
      (L.prefixOf (min L.frames.length limit)).result file options
        (if limit < L.frames.length ∨ limit = L.frames.length ∧ tail ≠ [] then .resourceLimit
          else if tail = [] then .complete else .truncatedTail, message) := by
  intro limit
  have hself : L.prefixOf L.frames.length = L := by
    rw [Layout.prefixOf, List.take_length]
  rcases Nat.lt_trichotomy limit L.frames.length with hless | hequal | hmore
  · rw [Nat.min_eq_right (Nat.le_of_lt hless), if_pos (.inl hless)]
    exact ⟨_, readLog_beyond hb hless⟩
  · rw [hequal, Nat.min_self, hself]
    by_cases hnil : tail = []
    · rw [if_neg (by simp [hnil]), if_pos hnil]
      exact ⟨_, readLog_layout hb (Nat.le_of_eq hequal.symm) (by rw [verdict, if_pos hnil])⟩
    · rw [if_pos (.inr ⟨rfl, hnil⟩)]
      exact ⟨_, readLog_limited hb hnil hequal.symm⟩
  · have hbelow : ¬(limit < L.frames.length ∨ limit = L.frames.length ∧ tail ≠ []) := by omega
    rw [Nat.min_eq_left (Nat.le_of_lt hmore), hself, if_neg hbelow]
    by_cases hnil : tail = []
    · rw [if_pos hnil]
      exact ⟨_, readLog_layout hb (Nat.le_of_lt hmore) (by rw [verdict, if_pos hnil])⟩
    · obtain ⟨message, hpart⟩ := htail.resolve_left hnil
      rw [if_neg hnil]
      refine ⟨message, readLog_layout hb (Nat.le_of_lt hmore) ?_⟩
      rw [verdict, if_neg hnil, if_neg (Nat.ne_of_lt hmore), hpart]

/-- `m` records of a log are stored whole, and no more. -/
structure StoredWhole (created : Int64) (appends : List ValidAppend) (stored : File) (m : Nat) :
    Prop where
  le : m ≤ appends.length
  whole : (wholeLog created (appends.take m)).length ≤ stored.bytes.length
  part : m < appends.length →
    stored.bytes.length < (wholeLog created (appends.take (m + 1))).length

/-- The records of a stored log that are whole, as a layout. -/
theorem LogWriter.Stores.layout {w : LogWriter} {created : Int64} {appends : List ValidAppend}
    {L : Layout pb} (h : w.Stores created appends L) (hlow : 32 ≤ w.output.file.bytes.length) :
    ∃ (M : Layout pb) (tail : List UInt8),
      M.frames.map Frame.toAppend = appends.take M.frames.length ∧
      w.output.file.bytes = M.bytes ++ tail ∧
      (tail = [] ∨
        ∃ message, inspect pb M.frames.length tail = .error (.truncatedTail, message)) ∧
      StoredWhole created appends w.output.file M.frames.length ∧
      (wholeLog created (appends.take M.frames.length)).length = M.bytes.length := by
  obtain ⟨m, tail, hm, hbytes, htail, hpart⟩ := stored_cut h.fits h.bytes hlow
  have hcount : (L.prefixOf m).frames.length = m := Layout.prefixOf_length hm
  have hlen := congrArg List.length hbytes
  rw [List.length_append] at hlen
  obtain ⟨later, happends⟩ := h.frames
  have htake (n : Nat) (hn : n ≤ L.frames.length) :
      appends.take n = (L.prefixOf n).frames.map Frame.toAppend := by
    rw [← happends, List.take_append_of_le_length (by rw [List.length_map]; exact hn),
      ← List.map_take]
    rfl
  have hlog (n : Nat) (hn : n ≤ L.frames.length) :
      wholeLog created (appends.take n) = (L.prefixOf n).bytes := by
    rw [htake n hn, wholeLog_layout, ← h.header]
    rfl
  have hlength : appends.length = L.frames.length + later.length := by
    rw [← happends, List.length_append, List.length_map]
  refine ⟨L.prefixOf m, tail, ?_, hbytes, ?_, ⟨?_, ?_, fun hlt => ?_⟩, ?_⟩
  · rw [hcount, htake m hm]
  · rw [hcount]
    exact htail
  · omega
  · rw [hcount, hlog m hm]
    omega
  · rw [hcount] at hlt ⊢
    by_cases hmore : m < L.frames.length
    · rw [hlog (m + 1) hmore]
      exact hpart hmore
    · have hall := h.bytes.length_le
      have hroom := wholeLog_lt created hlt
      have hself : L.prefixOf m = L := by
        rw [Layout.prefixOf, List.take_of_length_le (Nat.not_lt.mp hmore)]
      rw [hlog m hm, hself] at hroom
      omega
  · rw [hcount, hlog m hm]

/-- **A writer is fail-stop and its file stays readable.** After any calls: a call that returns
false is the last one that touches the stream, and one that is refused for its event touches it
not at all. The file is a prefix of the log of the valid events, and reading it finds the records
that are whole in it, as many as the options admit. -/
theorem fail_stop (pb : Protobuf) (target : Target) (options : LogWriterOptions) (now : Int64)
    (calls : List WriterCall) (hparse : ∀ next ∈ calls, WriterSession.ParsesBack pb next) :
    let w := (LogWriter.create target options now).callAll pb calls
    let created := if options.createdUnixNs = 0 then now else options.createdUnixNs
    let appends := validAppends pb calls
    let stored := w.output.file
    (∀ next, (w.call pb next).1 = false → (w.call pb next).2.FailStopped pb) ∧
    (∀ event arrival, LogWriter.validPayload pb event = none →
      (w.append pb event arrival).1 = false ∧ (w.append pb event arrival).2.output = w.output) ∧
    stored.bytes <+: wholeLog created appends ∧
    (stored.bytes.length < 32 → ∀ readOptions,
      let result := readLog pb .granted stored readOptions
      result.status = .corrupt ∧ result.index = [] ∧ result.records = []) ∧
    (32 ≤ stored.bytes.length → ∃ m, StoredWhole created appends stored m ∧ ∀ readOptions,
      let result := readLog pb .granted stored readOptions
      let limit := readOptions.maximumRecords.toNat
      let whole := (wholeLog created (appends.take m)).length
      let found := appends.take (min m limit)
      result.status =
        (if limit < m ∨ limit = m ∧ whole < stored.bytes.length then .resourceLimit
          else if whole < stored.bytes.length then .truncatedTail else .complete) ∧
      (result.index.map fun entry => (entry.recordIndex.toNat,
          entry.collectorArrivalTimestampNs, entry.sourceTimestampNs)) =
        (found.mapIdx fun i a => (i, a.collectorArrivalTimestampNs, a.event.sourceTimestampNs)) ∧
      (result.records.map fun record => (record.recordIndex.toNat,
          record.collectorArrivalTimestampNs, record.event)) =
        (if readOptions.retainRecords then
          found.mapIdx fun i a => (i, a.collectorArrivalTimestampNs, a.event) else [])) := by
  intro w created appends stored
  obtain ⟨_, hstart⟩ := LogWriter.create_stores pb target options now
  obtain ⟨L, hstores⟩ := LogWriter.callAll_stores hstart hparse
  rw [List.nil_append] at hstores
  refine ⟨fun next hfalse => LogWriter.failStopped_of_not_good (LogWriter.call_false hfalse),
    fun event arrival hinvalid => LogWriter.append_invalid_output w arrival hinvalid,
    hstores.front, fun hshort readOptions => ?_, fun hlow => ?_⟩
  · have hrefusal : headerRefusal stored = some "file header is incomplete" := if_pos hshort
    have hread : readLog pb .granted stored readOptions =
        makeFailure {fileSize := stored.size} .corrupt 0 "file header is incomplete" :=
      readLog_refused hrefusal
    rw [hread]
    exact ⟨rfl, rfl, rfl⟩
  · obtain ⟨M, tail, hframes, hb, htail, hwhole, hlength⟩ := hstores.layout hlow
    refine ⟨M.frames.length, hwhole, fun readOptions => ?_⟩
    intro result limit whole found
    have hlen : stored.bytes.length = M.bytes.length + tail.length := by
      rw [← List.length_append]
      exact congrArg List.length hb
    have htorn : whole < stored.bytes.length ↔ tail ≠ [] := by
      rw [hlen, show whole = M.bytes.length from hlength, ← List.length_pos_iff]
      omega
    obtain ⟨message, hread⟩ := readLog_stored readOptions hb htail
    have hfound : LogWriter.appended (M.prefixOf (min M.frames.length limit)).frames =
        found.map fun a => (a.event, a.collectorArrivalTimestampNs) := by
      have htake : found = ((M.prefixOf (min M.frames.length limit)).frames).map Frame.toAppend := by
        rw [Layout.prefixOf, List.map_take, hframes, List.take_take,
          Nat.min_eq_left (Nat.min_le_left _ _)]
      rw [htake, List.map_map]
      rfl
    have hlt : (M.prefixOf (min M.frames.length limit)).frames.length < 2 ^ 63 := by
      have hfits := Layout.frames_length_lt (layout_validBytes hb).2.symm
      rw [Layout.prefixOf, List.length_take]
      omega
    obtain ⟨hindex, hrecords⟩ := Layout.result_appended hlt stored readOptions
      (if limit < M.frames.length ∨ limit = M.frames.length ∧ tail ≠ [] then .resourceLimit
        else if tail = [] then .complete else .truncatedTail, message)
    rw [hfound] at hindex hrecords
    rw [show result = _ from hread]
    refine ⟨?_, hindex.trans ?_, hrecords.trans ?_⟩
    · show (if limit < M.frames.length ∨ limit = M.frames.length ∧ tail ≠ [] then
        LogReadStatus.resourceLimit
        else if tail = [] then .complete else .truncatedTail) = _
      simp only [htorn]
      by_cases hnil : tail = [] <;> simp [hnil]
    · simp [List.mapIdx_eq_zipIdx_map, List.zipIdx_map]
    · simp [List.mapIdx_eq_zipIdx_map, List.zipIdx_map, Function.comp_def]

/-- A device whose fifth operation, the second record's payload, fails after three bytes. -/
def sampleDevice : Nat → Option Nat := fun operation => if operation = 4 then some 3 else none

/-- A writer on that device after the first `n` of three appends. -/
def sampleWriter (n : Nat) : LogWriter :=
  (LogWriter.create (.fresh "log" sampleDevice) {} 1).callAll samplePb (sampleCalls.take n)

/-- The second append is torn and nothing follows it: one record is read back. -/
theorem fail_stop_torn :
    let result := readLog samplePb .granted (sampleWriter 2).output.file {}
    (sampleWriter 2).FailStopped samplePb ∧ result.status = .truncatedTail ∧
      (result.records.map fun record => (record.recordIndex.toNat,
        record.collectorArrivalTimestampNs, record.event)) = [(0, 5, Wire.sampleEvent 1)] := by
  intro result
  have hcalls (n : Nat) : ∀ next ∈ sampleCalls.take n, WriterSession.ParsesBack samplePb next := by
    intro next hnext
    have hmem := List.mem_of_mem_take hnext
    simp only [sampleCalls, List.mem_cons, List.not_mem_nil, or_false] at hmem
    rcases hmem with rfl | rfl | rfl
    all_goals
      intro payload hp
      cases hp
      decide
  have hwriter (n : Nat) : (LogWriter.create (.fresh "log" sampleDevice) {} 1).callAll samplePb
      (sampleCalls.take n) = sampleWriter n := rfl
  have hone := fail_stop samplePb (.fresh "log" sampleDevice) {} 1 (sampleCalls.take 1) (hcalls 1)
  have htwo := fail_stop samplePb (.fresh "log" sampleDevice) {} 1 (sampleCalls.take 2) (hcalls 2)
  simp only [hwriter] at hone htwo
  obtain ⟨hstops, _⟩ := hone
  obtain ⟨_, _, _, _, hreads⟩ := htwo
  have hlength : (sampleWriter 2).output.file.bytes.length = 129 := by decide +kernel
  rw [hlength] at hreads
  obtain ⟨m, ⟨hle, hwhole, hpart⟩, hread⟩ := hreads (by decide)
  rw [hlength, if_pos trivial] at hwhole hpart
  have hcount : (validAppends samplePb (sampleCalls.take 2)).length = 2 := by decide
  have hshort : (wholeLog 1 ((validAppends samplePb (sampleCalls.take 2)).take 1)).length < 129 := by
    decide +kernel
  have hlong : 129 < (wholeLog 1 ((validAppends samplePb (sampleCalls.take 2)).take 2)).length := by
    decide +kernel
  have hm : m = 1 := by
    rcases m with _ | _ | _ | m
    · exact absurd (hpart (by rw [hcount]; decide)) (Nat.lt_asymm hshort)
    · rfl
    · exact absurd hwhole (Nat.not_le.mpr hlong)
    · rw [hcount] at hle
      omega
  subst hm
  obtain ⟨hstatus, _, hrecords⟩ := hread {}
  have hstopped : (sampleWriter 2).FailStopped samplePb :=
    hstops (.append (Wire.sampleEvent 1) 6) (by decide +kernel)
  refine ⟨hstopped, hstatus.trans ?_, hrecords.trans ?_⟩
  · decide +kernel
  · decide +kernel

end TraceForge.Recording
