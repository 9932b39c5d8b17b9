import TraceForge.Recording.WriterProofs

/-! Writing a log and reading it back.

`appendAll_holds` carries `LogWriter.Holds` over any number of appends, and closing makes the
whole layout visible. `read_written` is the round trip. -/
namespace TraceForge.Recording
open Library Telemetry

variable {pb : Protobuf}

namespace LogWriter

/-! ### A writer's life -/

theorem create_fresh {path : String} {device : Nat → Option Nat} {options : LogWriterOptions}
    {now : Int64} (hflush : options.flushEveryRecords ≠ 0) :
    create (.fresh path device) options now =
      (LogWriter.writeFileHeader
        { options := {options with
            createdUnixNs := if options.createdUnixNs = 0 then now else options.createdUnixNs}
          output := .openFile device
          error := ""
          recordCount := 0
          bytesWritten := 0 }).2 := by
  rw [create, if_neg hflush]
  by_cases hcreated : options.createdUnixNs = 0
  · simp only [if_pos hcreated, Target.fresh]
    rfl
  · simp only [if_neg hcreated, Target.fresh]
    rfl

theorem create_holds (pb : Protobuf) (path : String) (device : Nat → Option Nat)
    (options : LogWriterOptions) (now : Int64) (hflush : options.flushEveryRecords ≠ 0)
    (hgood : (create (.fresh path device) options now).output.goodbit = true) :
    (create (.fresh path device) options now).Holds (Layout.headerOnly pb
      (.written (if options.createdUnixNs = 0 then now else options.createdUnixNs))) := by
  rw [create_fresh hflush] at hgood ⊢
  generalize (if options.createdUnixNs = 0 then now else options.createdUnixNs) = created
    at hgood ⊢
  rw [writeFileHeader] at hgood ⊢
  have hwrite := writeBytes_good _ _ hgood
  rw [writeBytes_output] at hgood
  obtain ⟨_, hbytes, hopen⟩ := OFStream.write_good hgood
  rw [hwrite]
  have hlayout : (Layout.headerOnly pb (.written created)).bytes = fileHeader created := by
    rw [Layout.headerOnly_bytes, fileHeader_bytes]
  exact
    { noError := rfl
      isOpen := hopen
      goodbit := hgood
      bytes := by rw [hbytes, hlayout]; exact List.nil_append _
      recordCount := rfl
      bytesWritten := by rw [hlayout]; exact UInt64.zero_add _ }

/-- A writer that is good after its construction created its file. -/
theorem create_good {target : Target} {options : LogWriterOptions} {now : Int64}
    (h : (create target options now).good = true) :
    target = .fresh target.path target.device ∧ options.flushEveryRecords ≠ 0 := by
  have hfailed (w : LogWriter) (message : String) (hopen : w.output.isOpen = false)
      (h : (w.fail message).good = true) : False := by
    rw [good, fail_output, hopen, Bool.and_false, Bool.false_and] at h
    cases h
  obtain ⟨path, existsError, alreadyExists, opens, device⟩ := target
  unfold create at h
  by_cases hflush : options.flushEveryRecords = 0
  · rw [if_pos hflush] at h
    exact (hfailed _ _ rfl h).elim
  · refine ⟨?_, hflush⟩
    rw [if_neg hflush] at h
    by_cases hcreated : options.createdUnixNs = 0 <;> simp only [hcreated, if_true, if_false] at h
    all_goals
      split at h
      · exact (hfailed _ _ rfl h).elim
      split at h
      · exact (hfailed _ _ rfl h).elim
      split at h
      · exact (hfailed _ _ rfl h).elim
      simp_all [Target.fresh]

theorem appendAll_goodbit {records : List (TelemetryEvent × Int64)} {w : LogWriter}
    (h : (w.appendAll pb records).output.goodbit = true) : w.output.goodbit = true := by
  induction records generalizing w with
  | nil => exact h
  | cons record rest ih => exact append_goodbit (ih h)

/-- The frames' events and arrival times, as they are appended. -/
def appended (fs : List (Frame pb)) : List (TelemetryEvent × Int64) :=
  fs.map fun f => (f.event, f.arrival)

/-- **Any number of appends** on a stream that stays good. -/
theorem appendAll_holds {w : LogWriter} {L : Layout pb} (hw : w.Holds L) (fs : List (Frame pb))
    (hs : ∀ f ∈ fs, pb.serializeToString f.event = some f.payload)
    (hgood : (w.appendAll pb (appended fs)).output.goodbit = true) :
    (w.appendAll pb (appended fs)).Holds (L.append fs) := by
  induction fs generalizing w L with
  | nil =>
    rw [Layout.append, List.append_nil]
    exact hw
  | cons f rest ih =>
    obtain ⟨hf, hrest⟩ := List.forall_mem_cons.mp hs
    have hstep := (append_holds hw f hf (appendAll_goodbit hgood)).2
    have hall := ih hstep hrest hgood
    have hlayout : (L.append [f]).append rest = L.append (f :: rest) := by
      rw [Layout.append, Layout.append, Layout.append, List.append_assoc]
      rfl
    rw [hlayout] at hall
    exact hall

/-- Closing a good writer makes its whole layout visible. -/
theorem close_visible {w : LogWriter} {L : Layout pb} (hw : w.Holds L)
    (hgood : w.close.output.goodbit = true) :
    w.close.output.visible.bytes = L.bytes ∧ w.close.bytesWritten = UInt64.ofNat L.bytes.length := by
  rw [close, if_pos hw.isOpen] at hgood ⊢
  exact ⟨by rw [(OFStream.flush_good hgood).2, hw.bytes], hw.bytesWritten⟩

theorem close_goodbit {w : LogWriter} (h : w.close.output.goodbit = true) :
    w.output.goodbit = true := by
  unfold close at h
  split at h
  · exact (OFStream.flush_good h).1
  · exact h

end LogWriter

/-! ### What the layout says about the records -/

/-- A view of the frames, read through `g`, as a function of number and frame alone. -/
theorem numbered_map {β γ : Type} {view : Frame pb → Nat → Nat → β} {g : β → γ}
    (out : Nat → Frame pb → γ) (i offset : Nat) (fs : List (Frame pb))
    (h : ∀ f j o, j < i + fs.length → g (view f j o) = out j f) :
    (numbered view i offset fs).map g = fs.mapIdx fun j f => out (i + j) f := by
  induction fs generalizing i offset with
  | nil => rfl
  | cons f rest ih =>
    rw [List.length_cons] at h
    rw [numbered, List.map_cons, List.mapIdx_cons, h f i offset (by omega),
      ih (i + 1) _ (fun f j o hj => h f j o (by omega))]
    simp only [Nat.add_zero, Nat.add_assoc, Nat.add_comm 1]

theorem frames_exist (records : List (TelemetryEvent × Int64))
    (hevents : ∀ r ∈ records, r.1.schemaVersion = kTelemetrySchemaVersion ∧
      ∃ payload, pb.serializeToString r.1 = some payload ∧
        payload.length ≤ kMaximumPayloadSize.toNat)
    (hparse : ∀ r ∈ records, ∀ payload,
      pb.serializeToString r.1 = some payload → pb.parseFromArray payload = some r.1) :
    ∃ fs : List (Frame pb), LogWriter.appended fs = records ∧
      ∀ f ∈ fs, pb.serializeToString f.event = some f.payload := by
  induction records with
  | nil => exact ⟨[], rfl, fun f hf => absurd hf List.not_mem_nil⟩
  | cons r rest ih =>
    obtain ⟨⟨hschema, payload, hs, hle⟩, hrest⟩ := List.forall_mem_cons.mp hevents
    obtain ⟨hr, hparses⟩ := List.forall_mem_cons.mp hparse
    obtain ⟨fs, hfs, hall⟩ := ih hrest hparses
    let f : Frame pb :=
      { arrival := r.2
        payload := payload
        event := r.1
        payload_le := hle
        parses := hr payload hs
        schema := hschema }
    refine ⟨f :: fs, ?_, List.forall_mem_cons.mpr ⟨hs, hall⟩⟩
    rw [← hfs]
    rfl

/-- A read that ends behind the records of a layout has one index entry and one record a frame. -/
theorem Layout.result_appended {L : Layout pb} (hlt : L.frames.length < 2 ^ 63) (file : File)
    (options : LogReadOptions) (v : LogReadStatus × String) :
    ((L.result file options v).index.map fun entry => (entry.recordIndex.toNat,
        entry.collectorArrivalTimestampNs, entry.sourceTimestampNs)) =
      ((LogWriter.appended L.frames).mapIdx fun i r => (i, r.2, r.1.sourceTimestampNs)) ∧
    ((L.result file options v).records.map fun record => (record.recordIndex.toNat,
        record.collectorArrivalTimestampNs, record.event)) =
      (if options.retainRecords then
        (LogWriter.appended L.frames).mapIdx fun i r => (i, r.2, r.1) else []) := by
  have hnumber (j : Nat) (hj : j < 0 + L.frames.length) : (UInt64.ofNat j).toNat = j := by
    rw [UInt64.toNat_ofNat']
    omega
  refine ⟨?_, ?_⟩
  · refine (numbered_map (fun i f => (i, f.arrival, f.event.sourceTimestampNs)) 0 32
      L.frames fun f j o hj => by simp only [Frame.entry, hnumber j hj]).trans ?_
    simp [LogWriter.appended, List.mapIdx_eq_zipIdx_map, List.zipIdx_map]
  · show List.map _ (if options.retainRecords then L.records else []) = _
    cases options.retainRecords
    · rfl
    · refine (numbered_map (fun i f => (i, f.arrival, f.event)) 0 32
        L.frames fun f j o hj => by simp only [Frame.record, hnumber j hj]).trans ?_
      simp [LogWriter.appended, List.mapIdx_eq_zipIdx_map, List.zipIdx_map]

/-- **A file that holds a layout** reads complete, with one index entry and one record a frame. -/
theorem readLog_frames {file : File} {L : Layout pb} (options : LogReadOptions)
    (hbytes : L.bytes = file.bytes) (hlimit : L.frames.length ≤ options.maximumRecords.toNat) :
    let result := readLog pb .granted file options
    result = L.result file options complete ∧
      (result.index.map fun entry => (entry.recordIndex.toNat,
          entry.collectorArrivalTimestampNs, entry.sourceTimestampNs)) =
        ((LogWriter.appended L.frames).mapIdx fun i r => (i, r.2, r.1.sourceTimestampNs)) ∧
      (result.records.map fun record => (record.recordIndex.toNat,
          record.collectorArrivalTimestampNs, record.event)) =
        (if options.retainRecords then
          (LogWriter.appended L.frames).mapIdx fun i r => (i, r.2, r.1) else []) := by
  intro result
  have hresult : result = L.result file options complete := readLog_complete options hbytes hlimit
  rw [hresult]
  exact ⟨rfl, Layout.result_appended (Layout.frames_length_lt hbytes) file options complete⟩

/-! ### The round trip -/

/-- **A log reads back as it was written**, whatever the flush interval, as long as the stream
was good to the end: complete, with the writer's time and size, and one record and one index entry
per append, in order. -/
theorem read_written (pb : Protobuf) (path : String) (device : Nat → Option Nat)
    (options : LogWriterOptions) (now : Int64) (records : List (TelemetryEvent × Int64))
    (readOptions : LogReadOptions) (hcreated : options.createdUnixNs ≠ 0)
    (hflush : 1 ≤ options.flushEveryRecords)
    (hevents : ∀ r ∈ records, r.1.schemaVersion = kTelemetrySchemaVersion ∧
      ∃ payload, pb.serializeToString r.1 = some payload ∧
        payload.length ≤ kMaximumPayloadSize.toNat)
    (hparse : ∀ r ∈ records, ∀ payload,
      pb.serializeToString r.1 = some payload → pb.parseFromArray payload = some r.1)
    (hstream : (LogWriter.writeLog pb (.fresh path device) options now
      records).output.goodbit = true)
    (hlimit : records.length ≤ readOptions.maximumRecords.toNat) :
    let w := LogWriter.writeLog pb (.fresh path device) options now records
    let result := readLog pb .granted w.output.visible readOptions
    result.status = .complete ∧ result.createdUnixNs = options.createdUnixNs ∧
      result.validBytes = result.fileSize ∧ result.fileSize = w.bytesWritten ∧
      (result.index.map fun entry => (entry.recordIndex.toNat,
          entry.collectorArrivalTimestampNs, entry.sourceTimestampNs)) =
        (records.mapIdx fun i r => (i, r.2, r.1.sourceTimestampNs)) ∧
      (result.records.map fun record => (record.recordIndex.toNat,
          record.collectorArrivalTimestampNs, record.event)) =
        (if readOptions.retainRecords then records.mapIdx fun i r => (i, r.2, r.1) else []) := by
  intro w result
  obtain ⟨fs, rfl, hs⟩ := frames_exist records hevents hparse
  have hnonzero : options.flushEveryRecords ≠ 0 := by
    rintro hzero
    rw [hzero] at hflush
    exact absurd hflush (by decide)
  have happended := LogWriter.close_goodbit hstream
  have hnew := LogWriter.create_holds pb path device options now hnonzero
    (LogWriter.appendAll_goodbit happended)
  have hwritten := LogWriter.appendAll_holds hnew fs hs happended
  obtain ⟨hvisible, hcount⟩ := LogWriter.close_visible hwritten hstream
  rw [if_neg hcreated] at hvisible hcount
  generalize hL : (Layout.headerOnly pb (.written options.createdUnixNs)).append fs = L
    at hvisible hcount
  have hframes : L.frames = fs := by
    rw [← hL]
    rfl
  have hresult := readLog_frames readOptions hvisible.symm (by
    rw [hframes]
    rwa [LogWriter.appended, List.length_map] at hlimit)
  rw [hframes] at hresult
  obtain ⟨hcomplete, hindex, hrecords⟩ := hresult
  have hsize : w.output.visible.size = UInt64.ofNat L.bytes.length := by
    rw [← hvisible]
    rfl
  refine ⟨congrArg LogReadResult.status hcomplete, ?_, ?_, ?_, hindex, hrecords⟩
  · have hcreatedUnixNs : result.createdUnixNs = L.header.created :=
      congrArg LogReadResult.createdUnixNs hcomplete
    rw [hcreatedUnixNs, ← hL]
    rfl
  · exact (congrArg LogReadResult.validBytes hcomplete).trans
      (hsize.symm.trans (congrArg LogReadResult.fileSize hcomplete).symm)
  · exact (congrArg LogReadResult.fileSize hcomplete).trans (hsize.trans hcount.symm)

/-- Two records, the second one earlier than the first and before the epoch. -/
theorem read_written_two :
    let a := Wire.sampleEvent 1
    let b := Wire.sampleEvent 2
    let w := LogWriter.writeLog (Wire.protobuf [a, b]) (.fresh "log" fun _ => none)
      {createdUnixNs := 7} 0 [(a, 5), (b, -3)]
    let result := readLog (Wire.protobuf [a, b]) .granted w.output.visible {}
    result.status = .complete ∧
      (result.records.map fun record => (record.recordIndex.toNat,
        record.collectorArrivalTimestampNs, record.event)) = [(0, 5, a), (1, -3, b)] := by
  intro a b w result
  have h := read_written (Wire.protobuf [a, b]) "log" (fun _ => none) {createdUnixNs := 7} 0
    [(a, 5), (b, -3)] {} (by decide) (by decide) ?_ ?_ (by decide +kernel) (by decide)
  · exact ⟨h.1, h.2.2.2.2.2⟩
  · intro r hr
    simp only [List.mem_cons, List.not_mem_nil, or_false] at hr
    rcases hr with rfl | rfl
    · exact ⟨rfl, _, rfl, by decide⟩
    · exact ⟨rfl, _, rfl, by decide⟩
  · intro r hr payload hp
    simp only [List.mem_cons, List.not_mem_nil, or_false] at hr
    cases hp
    rcases hr with rfl | rfl
    · decide
    · decide

end TraceForge.Recording
