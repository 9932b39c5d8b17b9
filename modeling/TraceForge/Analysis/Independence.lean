import TraceForge.Analysis.Analyzer
import TraceForge.Library.Interleave
import TraceForge.Recording.RoundTrip

/-! Analysis does not depend on how producers interleave.

The loop's body at records of two producers can be swapped: the accumulators are told apart by
producer, the first and last arrival and the fault counters do not mind the order, and the UTC
deltas come out permuted (`Alike`), which their distribution does not see. Two complete logs with
the same records of every producer therefore have one report, but for the size of the file: that
depends on how the events were serialized, which a parsed event does not say. -/
namespace TraceForge.Analysis
open Library Telemetry Recording

/-! ### What does not mind the order -/

theorem earlier_comm (a b : Int64) (first : Option Int64) :
    earlier b (earlier a first) = earlier a (earlier b first) := by
  cases first <;> simp only [earlier] <;> grind

theorem later_comm (a b : Int64) (last : Option Int64) :
    later b (later a last) = later a (later b last) := by
  cases last <;> simp only [later] <;> grind

theorem faults_comm (a b : TelemetryEvent) (faults : FaultStats) :
    (faults.add a).add b = (faults.add b).add a := by
  have hcases (event : TelemetryEvent) :
      (∀ f : FaultStats, f.add event = f) ∨
        (∀ f : FaultStats, f.add event = { f with warnings := f.warnings + 1 }) ∨
        (∀ f : FaultStats, f.add event = { f with errors := f.errors + 1 }) ∨
        (∀ f : FaultStats, f.add event = { f with critical := f.critical + 1 }) := by
    unfold FaultStats.add
    split
    · split
      · exact .inr (.inl fun _ => rfl)
      split
      · exact .inr (.inr (.inl fun _ => rfl))
      split
      · exact .inr (.inr (.inr fun _ => rfl))
      · exact .inl fun _ => rfl
    · exact .inl fun _ => rfl
  rcases hcases a with ha | ha | ha | ha <;> rcases hcases b with hb | hb | hb | hb <;>
    simp only [ha, hb]

theorem percentile_perm {values values' : List ℚ} (h : values.Perm values') (fraction : ℚ) :
    percentile values fraction = percentile values' fraction := by
  have hsorted : values.insertionSort (· ≤ ·) = values'.insertionSort (· ≤ ·) := by
    refine List.Perm.eq_of_sortedLE List.sortedLE_insertionSort List.sortedLE_insertionSort ?_
    exact ((List.perm_insertionSort _ values).trans h).trans
      (List.perm_insertionSort _ values').symm
  simp only [percentile, hsorted]

theorem max?_perm {values values' : List ℚ} (h : values.Perm values') :
    values.max? = values'.max? := by
  cases hmax : values'.max? with
  | none =>
    rw [List.max?_eq_none_iff] at hmax ⊢
    exact (hmax ▸ h).eq_nil
  | some m =>
    rw [List.max?_eq_some_iff] at hmax ⊢
    exact ⟨h.mem_iff.mpr hmax.1, fun b hb => hmax.2 b (h.mem_iff.mp hb)⟩

theorem distribution_perm {values values' : List ℚ} (h : values.Perm values') :
    distribution values = distribution values' := by
  simp only [distribution, percentile_perm h, max?_perm h, h.length_eq]

/-! ### Records of different producers -/

/-- Equal but for the order of the UTC deltas. -/
structure Alike (a b : Analyzing) : Prop where
  producers : a.producers = b.producers
  streams : a.streams = b.streams
  previousSourceTimestamps : a.previousSourceTimestamps = b.previousSourceTimestamps
  utcArrivalDeltaMs : a.utcArrivalDeltaMs.Perm b.utcArrivalDeltaMs
  firstCollectorTimestamp : a.firstCollectorTimestamp = b.firstCollectorTimestamp
  lastCollectorTimestamp : a.lastCollectorTimestamp = b.lastCollectorTimestamp
  faults : a.faults = b.faults

theorem alike_equivalence : Equivalence Alike where
  refl _ := ⟨rfl, rfl, rfl, .rfl, rfl, rfl, rfl⟩
  symm h :=
    ⟨h.1.symm, h.2.symm, h.3.symm, h.4.symm, h.5.symm, h.6.symm, h.7.symm⟩
  trans h h' :=
    ⟨h.1.trans h'.1, h.2.trans h'.2, h.3.trans h'.3, h.4.trans h'.4, h.5.trans h'.5,
      h.6.trans h'.6, h.7.trans h'.7⟩

/-- The producer of a record. -/
def producerOf (record : TelemetryEvent × Int64) : List UInt8 := record.1.producerId

theorem analyzeRecord_respects (digits : ℕ) (record : TelemetryEvent × Int64) {a b : Analyzing}
    (h : Alike a b) : Alike (analyzeRecord digits a record) (analyzeRecord digits b record) where
  producers := by simp only [analyzeRecord, h.producers]
  streams := by simp only [analyzeRecord, h.streams, h.previousSourceTimestamps]
  previousSourceTimestamps := by simp only [analyzeRecord, h.previousSourceTimestamps]
  utcArrivalDeltaMs := h.utcArrivalDeltaMs.append_right _
  firstCollectorTimestamp := by simp only [analyzeRecord, h.firstCollectorTimestamp]
  lastCollectorTimestamp := by simp only [analyzeRecord, h.lastCollectorTimestamp]
  faults := by simp only [analyzeRecord, h.faults]

/-- **Two producers' records** can be swapped. -/
theorem analyzeRecord_swap (digits : ℕ) (x y : TelemetryEvent × Int64) (s : Analyzing)
    (h : producerOf x ≠ producerOf y) :
    Alike (analyzeRecord digits (analyzeRecord digits s x) y)
      (analyzeRecord digits (analyzeRecord digits s y) x) := by
  have hstream : streamKey x.1 ≠ streamKey y.1 := fun he => h (congrArg Prod.fst he)
  have hsource : sourceKey x.1 ≠ sourceKey y.1 := fun he => h (congrArg Prod.fst he)
  exact
    { producers := update_comm _ h _ _
      streams := by
        -- neither record is the last one of the other's source clock
        simp only [analyzeRecord, update_of_ne _ hsource, update_of_ne _ hsource.symm]
        exact update_comm _ hstream _ _
      previousSourceTimestamps :=
        update_comm s.previousSourceTimestamps hsource (fun _ => x.1.sourceTimestampNs)
          fun _ => y.1.sourceTimestampNs
      utcArrivalDeltaMs := by
        simp only [analyzeRecord, List.append_assoc]
        exact List.perm_append_comm.append_left _
      firstCollectorTimestamp := earlier_comm ..
      lastCollectorTimestamp := later_comm ..
      faults := faults_comm .. }

theorem analyzeRecord_commutes (digits : ℕ) :
    Commutes producerOf (analyzeRecord digits) Alike where
  equivalence := alike_equivalence
  respects record _ _ h := analyzeRecord_respects digits record h
  swap x y s h := analyzeRecord_swap digits x y s h

theorem report_alike (digits : ℕ) (records fileBytes : UInt64) {a b : Analyzing}
    (h : Alike a b) : report digits records fileBytes a = report digits records fileBytes b := by
  have hempty : a.utcArrivalDeltaMs.isEmpty = b.utcArrivalDeltaMs.isEmpty := by
    rw [Bool.eq_iff_iff, List.isEmpty_iff, List.isEmpty_iff]
    exact ⟨fun ha => (ha ▸ h.utcArrivalDeltaMs.symm).eq_nil,
      fun hb => (hb ▸ h.utcArrivalDeltaMs).eq_nil⟩
  simp only [report, duration, h.producers, h.streams, h.firstCollectorTimestamp,
    h.lastCollectorTimestamp, h.faults, hempty, distribution_perm h.utcArrivalDeltaMs]

/-! ### Complete logs -/

variable {pb : Protobuf} {access : Access} {file : File} {maximumRecords : UInt64}

/-- How many bytes the payloads of a log have. -/
def payloadBytes (log : LogReadResult) : Nat :=
  (log.index.map fun entry => entry.payloadSize.toNat).sum

/-- Every payload is as long as the serialization of its event. -/
def AsSerialized (pb : Protobuf) (log : LogReadResult) : Prop :=
  (log.index.map fun entry => some entry.payloadSize.toNat) =
    log.records.map fun record => (pb.serializeToString record.event).map List.length

/-- A view of the frames, read through `g`, as a function of the frame alone. -/
theorem numbered_map_frame {β γ : Type} (view : Frame pb → Nat → Nat → β) (g : β → γ)
    {out : Frame pb → γ} (h : ∀ f i offset, g (view f i offset) = out f) (i offset : Nat)
    (fs : List (Frame pb)) : (numbered view i offset fs).map g = fs.map out := by
  induction fs generalizing i offset with
  | nil => rfl
  | cons f rest ih => rw [numbered, List.map_cons, List.map_cons, h, ih]

/-- The records of a layout, as the analyzer looks at them. -/
theorem arrivals_records (L : Layout pb) : arrivals L.records = LogWriter.appended L.frames :=
  numbered_map_frame Frame.record (fun record => (record.event, record.collectorArrivalTimestampNs))
    (fun _ _ _ => rfl) 0 32 L.frames

theorem payloadSizes_index (L : Layout pb) :
    (L.index.map fun entry => entry.payloadSize.toNat) =
      L.frames.map fun f => f.payload.length :=
  numbered_map_frame Frame.entry (fun entry => entry.payloadSize.toNat)
    (fun f _ _ => f.payloadSize_toNat) 0 32 L.frames

theorem framesBytes_sum (i : Nat) (fs : List (Frame pb)) :
    (framesBytes i fs).length = 36 * fs.length + (fs.map fun f => f.payload.length).sum := by
  induction fs generalizing i with
  | nil => rfl
  | cons f rest ih =>
    rw [framesBytes, List.length_append, f.bytes_length, ih, List.length_cons, List.map_cons,
      List.sum_cons]
    omega

/-- What a complete log is made of. -/
theorem complete_log
    (h : (logToAnalyze pb access file maximumRecords).status = .complete) :
    let log := logToAnalyze pb access file maximumRecords
    file.bytes.length = 32 + 36 * (arrivals log.records).length + payloadBytes log ∧
      log.fileSize = file.size := by
  obtain ⟨L, hb, _, hread⟩ := read_of_complete h
  have hlog : logToAnalyze pb access file maximumRecords =
      L.result file { maximumRecords := maximumRecords, retainRecords := true } complete := hread
  simp only [hlog, Layout.result, if_true, arrivals_records]
  refine ⟨?_, trivial⟩
  rw [← hb, L.bytes_length, framesBytes_sum, payloadBytes, payloadSizes_index,
    LogWriter.appended, List.length_map, Nat.add_assoc]

theorem analyzeLog_complete (digits : ℕ)
    (h : (logToAnalyze pb access file maximumRecords).status = .complete) :
    let records := arrivals (logToAnalyze pb access file maximumRecords).records
    analyzeLog digits pb access file maximumRecords =
      report digits (UInt64.ofNat records.length) file.size
        (records.foldl (analyzeRecord digits) {}) := by
  simp only [analyzeLog, h, ne_eq, not_true_eq_false, if_false, arrivals, List.length_map,
    (complete_log h).2]

/-- A file that can be read has fewer records than a counter can hold. -/
theorem arrivals_length_lt (h : (logToAnalyze pb access file maximumRecords).status = .complete) :
    (arrivals (logToAnalyze pb access file maximumRecords).records).length < 2 ^ 63 := by
  obtain ⟨L, hb, _, hread⟩ := read_of_complete h
  have hrecords : (logToAnalyze pb access file maximumRecords).records = L.records :=
    congrArg LogReadResult.records hread
  rw [hrecords, arrivals_records, LogWriter.appended, List.length_map]
  exact L.frames_length_lt hb

/-! ### Two logs -/

/-- The report, for a file of another size. -/
def AnalysisReport.withFileBytes (report : AnalysisReport) (fileBytes : UInt64) : AnalysisReport :=
  { report with fileBytes := fileBytes }

theorem asSerialized_payloadBytes {log : LogReadResult} (h : AsSerialized pb log) :
    payloadBytes log = ((arrivals log.records).map fun record =>
      ((pb.serializeToString record.1).map List.length).getD 0).sum := by
  have hsizes := congrArg (List.map fun size => size.getD 0) h
  simp only [List.map_map, Function.comp_def, Option.getD_some] at hsizes
  rw [payloadBytes, hsizes, arrivals, List.map_map]
  rfl

/-- **One report for every interleaving**: two complete logs with the same records of every
producer are analyzed alike. The size of the file is the same when the payloads have as many bytes
in both, as they have when both logs hold the serializations of their events. -/
theorem interleaving_independent (digits : ℕ) (pb : Protobuf) (access access' : Access)
    (file file' : File) (maximumRecords maximumRecords' : UInt64)
    (hcomplete : (logToAnalyze pb access file maximumRecords).status = .complete)
    (hcomplete' : (logToAnalyze pb access' file' maximumRecords').status = .complete)
    (hviews : SameViews producerOf
      (arrivals (logToAnalyze pb access file maximumRecords).records)
      (arrivals (logToAnalyze pb access' file' maximumRecords').records)) :
    let log := logToAnalyze pb access file maximumRecords
    let log' := logToAnalyze pb access' file' maximumRecords'
    let report := analyzeLog digits pb access file maximumRecords
    let report' := analyzeLog digits pb access' file' maximumRecords'
    report'.withFileBytes report.fileBytes = report ∧
      (report'.fileBytes = report.fileBytes ↔ payloadBytes log' = payloadBytes log) ∧
      (AsSerialized pb log → AsSerialized pb log' → report' = report) := by
  intro log log' report report'
  have hlength : (arrivals log'.records).length = (arrivals log.records).length :=
    hviews.perm.length_eq.symm
  have hreport : report = _ := analyzeLog_complete digits hcomplete
  have hreport' : report' = _ := analyzeLog_complete digits hcomplete'
  have hsame : report'.withFileBytes report.fileBytes = report := by
    have halike := hviews.foldl (analyzeRecord_commutes digits) {}
    rw [hreport', hreport, hlength,
      report_alike digits _ _ halike]
    rfl
  have hbytes : report'.fileBytes = report.fileBytes ↔ payloadBytes log' = payloadBytes log := by
    obtain ⟨hsize, _⟩ := complete_log hcomplete
    obtain ⟨hsize', _⟩ := complete_log hcomplete'
    rw [hreport', hreport]
    show file'.size = file.size ↔ _
    rw [← UInt64.toNat_inj, File.size_toNat, File.size_toNat]
    simp only [log, log'] at hlength ⊢
    omega
  refine ⟨hsame, hbytes, fun hs hs' => ?_⟩
  have hpayloads : payloadBytes log' = payloadBytes log := by
    rw [asSerialized_payloadBytes hs, asSerialized_payloadBytes hs']
    exact (hviews.perm.symm.map _).sum_eq
  rw [← hsame, ← hbytes.mpr hpayloads]
  rfl

/-! ### Two producers, one event each -/

/-- Independence as it would be with the size of the file included. -/
def ReportsAgree (digits : ℕ) (pb : Protobuf) (access : Access) (file file' : File)
    (maximumRecords : UInt64) : Prop :=
  (logToAnalyze pb access file maximumRecords).status = .complete →
  (logToAnalyze pb access file' maximumRecords).status = .complete →
  SameViews producerOf (arrivals (logToAnalyze pb access file maximumRecords).records)
    (arrivals (logToAnalyze pb access file' maximumRecords).records) →
  analyzeLog digits pb access file' maximumRecords = analyzeLog digits pb access file maximumRecords

def firstEvent : TelemetryEvent := Wire.sampleEvent 0

def otherEvent : TelemetryEvent := { Wire.sampleEvent 0 with producerId := [0x71] }

/-- The first event with its sequence number written out although it is zero. -/
def padded : List UInt8 := Wire.encode firstEvent ++ [0x18, 0x00]

/-- Protobuf parses a field that holds its default like one that is absent. -/
def paddedPb : Protobuf where
  serializeToString event := some (Wire.encode event)
  parseFromArray bytes :=
    if bytes = padded then some firstEvent
    else (Wire.protobuf [firstEvent, otherEvent]).parseFromArray bytes

def plainFrame : Frame paddedPb where
  arrival := 5
  payload := Wire.encode firstEvent
  event := firstEvent
  payload_le := by decide
  parses := by decide
  schema := rfl

def paddedFrame : Frame paddedPb where
  arrival := 5
  payload := padded
  event := firstEvent
  payload_le := by decide
  parses := by decide
  schema := rfl

def otherFrame : Frame paddedPb where
  arrival := 7
  payload := Wire.encode otherEvent
  event := otherEvent
  payload_le := by decide
  parses := by decide
  schema := rfl

def frontLayout : Layout paddedPb := ⟨sampleLayout.header, [plainFrame, otherFrame]⟩

/-- The other way round, and with the longer payload. -/
def backLayout : Layout paddedPb := ⟨sampleLayout.header, [otherFrame, paddedFrame]⟩

def frontLog : File where
  bytes := frontLayout.bytes
  length_lt := by
    rw [Layout.bytes_length]
    decide

def backLog : File where
  bytes := backLayout.bytes
  length_lt := by
    rw [Layout.bytes_length]
    decide

theorem front_read : logToAnalyze paddedPb .granted frontLog 1000000 =
    frontLayout.result frontLog { maximumRecords := 1000000, retainRecords := true } complete :=
  readLog_complete _ rfl (by decide)

theorem back_read : logToAnalyze paddedPb .granted backLog 1000000 =
    backLayout.result backLog { maximumRecords := 1000000, retainRecords := true } complete :=
  readLog_complete _ rfl (by decide)

theorem front_back_views :
    SameViews producerOf (arrivals (logToAnalyze paddedPb .granted frontLog 1000000).records)
      (arrivals (logToAnalyze paddedPb .granted backLog 1000000).records) := by
  rw [front_read, back_read]
  show SameViews producerOf (arrivals frontLayout.records) (arrivals backLayout.records)
  rw [arrivals_records, arrivals_records]
  intro k
  by_cases hfirst : producerOf (firstEvent, 5) = k
  · subst hfirst
    rfl
  · show viewOf producerOf k [(firstEvent, 5), (otherEvent, 7)] =
      viewOf producerOf k [(otherEvent, 7), (firstEvent, 5)]
    by_cases hother : producerOf (otherEvent, 7) = k
    · subst hother
      rfl
    · rw [viewOf_cons_of_ne hfirst, viewOf_cons_of_ne hother, viewOf_cons_of_ne hother,
        viewOf_cons_of_ne hfirst]

theorem interleaving_independent_padded :
    (analyzeLog 64 paddedPb .granted backLog).withFileBytes
        (analyzeLog 64 paddedPb .granted frontLog).fileBytes =
      analyzeLog 64 paddedPb .granted frontLog := by
  have hcomplete := congrArg LogReadResult.status front_read
  have hcomplete' := congrArg LogReadResult.status back_read
  exact (interleaving_independent 64 paddedPb .granted .granted frontLog backLog 1000000 1000000
    hcomplete hcomplete' front_back_views).1

/-- The same records of each producer, in files of different sizes. -/
theorem file_bytes_differ : ¬ReportsAgree 64 paddedPb .granted frontLog backLog 1000000 := by
  intro h
  have hcomplete := congrArg LogReadResult.status front_read
  have hcomplete' := congrArg LogReadResult.status back_read
  have hbytes := congrArg AnalysisReport.fileBytes (h hcomplete hcomplete' front_back_views)
  rw [analyzeLog_complete 64 hcomplete, analyzeLog_complete 64 hcomplete'] at hbytes
  have hsizes : backLog.size ≠ frontLog.size := by decide +kernel
  exact hsizes hbytes

end TraceForge.Analysis
