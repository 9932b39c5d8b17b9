import TraceForge.Analysis.Independence
import TraceForge.App.Commands
import TraceForge.App.OptionProofs
import TraceForge.Replay.Summary

/-! The commands agree about a log.

Three of them only read it, each in its own way: `inspect` and `analyze` keep the records, `replay`
keeps the index and reads the payloads again. Each exits with 0 exactly when the log is complete,
and then they speak of the same records (`commands_agree`). What `recover` accepts, the other three
accept afterwards (`recover_readies`). -/
namespace TraceForge.App
open Library Telemetry Recording
open Replay (ReplayOptions ReplayEngine ReplayConsumer Before inWindow Accepting
  replay_result replay_indexed replay_unheard)

variable {pb : Protobuf} {access : Access} {file : File}

/-! ### Reading -/

/-- Not keeping the records changes nothing else of a read. -/
theorem readLog_unretained (maximumRecords : UInt64) :
    readLog pb access file { maximumRecords := maximumRecords, retainRecords := false } =
      { readLog pb access file { maximumRecords := maximumRecords } with records := [] } := by
  obtain ⟨sizeKnown, opens, resizes⟩ := access
  cases sizeKnown
  · rfl
  cases opens
  · rfl
  show readLog pb .granted file _ = { readLog pb .granted file _ with records := [] }
  cases hheader : headerRefusal file with
  | some message =>
    rw [readLog_refused hheader, readLog_refused hheader]
    rfl
  | none =>
    obtain ⟨L, tail, v, hb, hn, hv, hread⟩ :=
      readLog_cases pb file { maximumRecords := maximumRecords } hheader
    have hunretained : readLog pb .granted file
        { maximumRecords := maximumRecords, retainRecords := false } =
          L.result file { maximumRecords := maximumRecords, retainRecords := false } v :=
      readLog_layout hb hn hv
    rw [hunretained, hread]
    rfl

theorem inspect_code :
    (runInspect pb access file).2 = 0 ↔ (readLog pb access file {}).status = .complete := by
  show (if (readLog pb access file {}).status = .complete then (0 : Int32) else 3) = 0 ↔ _
  split <;> simp_all

theorem inspect_refused (h : (readLog pb access file {}).status ≠ .complete) :
    (runInspect pb access file).2 = 3 ∧ (runInspect pb access file).1.error =
      some ((readLog pb access file {}).errorOffset, (readLog pb access file {}).message) :=
  ⟨if_neg h, if_pos h⟩

/-- `analyze` reads what `inspect` reads. -/
theorem analyze_complete (digits : ℕ) (h : (readLog pb access file {}).status = .complete) :
    let analysis := runAnalyze digits pb access file
    analysis.2 = 0 ∧ analysis.1.records = (runInspect pb access file).1.records ∧
      analysis.1.fileBytes = (runInspect pb access file).1.fileBytes := by
  intro analysis
  have hreport : analysis.1 =
      Analysis.report digits (UInt64.ofNat (readLog pb access file {}).records.length)
        (readLog pb access file {}).fileSize
        ((Analysis.arrivals (readLog pb access file {}).records).foldl
          (Analysis.analyzeRecord digits) {}) := if_neg (not_not.mpr h)
  have hcode : analysis.2 = if analysis.1.status ≠ .complete then 3 else 0 := rfl
  rw [hcode, hreport]
  exact ⟨rfl, rfl, rfl⟩

theorem analyze_refused (digits : ℕ) (h : (readLog pb access file {}).status ≠ .complete) :
    let analysis := runAnalyze digits pb access file
    analysis.2 = 3 ∧ analysis.1.message =
      "cannot analyze telemetry log: " ++ (readLog pb access file {}).message := by
  intro analysis
  have hreport : analysis.1 =
      { fileBytes := (readLog pb access file {}).fileSize
        message := "cannot analyze telemetry log: " ++ (readLog pb access file {}).message } :=
    if_pos h
  have hcode : analysis.2 = if analysis.1.status ≠ .complete then 3 else 0 := rfl
  rw [hcode, hreport]
  exact ⟨rfl, rfl⟩

/-! ### Replaying -/

/-- The bounds of the window are not the wrong way round. -/
def Ordered (options : ReplayOptions) : Prop :=
  ∀ first last, options.fromCollectorTimestampNs = some first →
    options.untilCollectorTimestampNs = some last → first < last

theorem ordered_of_check {options : ReplayOptions}
    (h : (options.untilCollectorTimestampNs.any fun last =>
      options.fromCollectorTimestampNs.any fun first => decide (last ≤ first)) = false) :
    Ordered options := by
  intro first last hfirst hlast
  rw [hfirst, hlast] at h
  exact Int64.not_le.mp (of_decide_eq_false h)

/-- The speeds that `replay` accepts. -/
theorem replay_speed {stod : Stod} {args : List Text} {o : ReplayCommandOptions}
    (h : parseReplay stod args = .ok (.options o)) :
    o.options.speed.isFinite = true ∧ o.options.speed.lessThan 0 = false := by
  refine Command.parse_invariant
    (fun o : ReplayCommandOptions =>
      o.options.speed.isFinite = true ∧ o.options.speed.lessThan 0 = false)
    (fun flag hflag o ho => ?_) (fun option hoption name value o next ho hset => ?_)
    ⟨by decide +kernel, by decide +kernel⟩ h
  · cases List.mem_singleton.mp hflag
    exact ho
  simp only [replayCommand, List.mem_cons, List.not_mem_nil, or_false] at hoption
  rcases hoption with rfl | rfl | rfl <;> dsimp only at hset
  · obtain ⟨v, _, rfl⟩ := setInteger_ok.mp hset
    exact ho
  · obtain ⟨v, _, rfl⟩ := setInteger_ok.mp hset
    exact ho
  · rw [parseSpeed] at hset
    cases hstod : stod value with
    | error message =>
      rw [hstod] at hset
      cases hset
    | ok found =>
      obtain ⟨speed, consumed⟩ := found
      simp only [hstod, Except.bind] at hset
      split at hset
      · cases hset
      · rename_i haccepted
        cases hset
        have haccepted : (consumed = value.length ∧ speed.isFinite = true) ∧
            speed.lessThan 0 = false := by simpa using haccepted
        exact ⟨haccepted.1.2, haccepted.2⟩

/-- What `replay` hands its engine: it prints every record, or nobody listens. -/
def printer (printEvents : Bool) : ReplayConsumer :=
  if printEvents then some fun _ _ => true else none

theorem accepting_printer (printEvents : Bool) : Accepting (printer printEvents) := by
  cases printEvents with
  | false => exact Replay.accepting_none
  | true =>
    intro consume h calls r
    cases h
    rfl

/-- The engine of `replay`. -/
def engineOf (pb : Protobuf) (access : Access) (file : File) : ReplayEngine :=
  ReplayEngine.create pb access file 1000000

theorem engine_refused (h : (readLog pb access file {}).status ≠ .complete) :
    engineOf pb access file =
      ⟨[], "cannot index telemetry log: " ++ (readLog pb access file {}).message⟩ := by
  rw [engineOf, ReplayEngine.create, readLog_unretained]
  exact if_pos h

theorem engine_complete (h : (readLog pb access file {}).status = .complete) :
    ∃ L : Layout pb, L.bytes = file.bytes ∧
      L.frames.length ≤ (1000000 : UInt64).toNat ∧
      readLog pb access file {} = L.result file {} complete ∧
      engineOf pb access file = ReplayEngine.create pb .granted file 1000000 ∧
      engineOf pb access file = ⟨L.index.insertionSort Before, ""⟩ := by
  obtain ⟨L, hb, hn, hread⟩ := read_of_complete h
  have hsame : engineOf pb access file = ReplayEngine.create pb .granted file 1000000 := by
    obtain ⟨_, _, hgranted⟩ :=
      granted_of_read (show (readLog pb access file {}).status ≠ .ioError by
        rw [h]
        decide)
    rw [engineOf, ReplayEngine.create, ReplayEngine.create, readLog_unretained,
      readLog_unretained]
    show (if ({ readLog pb access file {} with records := [] } : LogReadResult).status ≠ _
      then _ else _) = _
    rw [hgranted]
  exact ⟨L, hb, hn, hread, hsame, hsame.trans (Replay.create_layout hb hn)⟩

/-- A log that `inspect` refuses cannot be replayed. -/
theorem replay_refused (h : (readLog pb access file {}).status ≠ .complete)
    (content : Option File) (options : ReplayOptions) (consumer : ReplayConsumer) :
    let replay := (engineOf pb access file).replay pb content options consumer
    replay.result.status = .logError ∧ replay.calls = [] ∧ replay.result.message =
      "cannot index telemetry log: " ++ (readLog pb access file {}).message := by
  have hbad : (engineOf pb access file).good = false := by
    rw [engine_refused h, ReplayEngine.good]
    simp
  unfold ReplayEngine.replay ReplayEngine.replayWith
  rw [if_pos (by rw [hbad]; rfl), engine_refused h]
  exact ⟨rfl, rfl, rfl⟩

/-- Nor can one be replayed with its bounds the wrong way round. -/
theorem replay_inverted {engine : ReplayEngine} (hgood : engine.good = true)
    {options : ReplayOptions} (hspeed : options.speed.isFinite = true ∧
      options.speed.lessThan 0 = false) (h : ¬Ordered options) (content : Option File)
    (consumer : ReplayConsumer) :
    let replay := engine.replay pb content options consumer
    replay.result.status = .invalidOptions ∧ replay.calls = [] := by
  have hcheck : (options.untilCollectorTimestampNs.any fun last =>
      options.fromCollectorTimestampNs.any fun first => decide (last ≤ first)) = true := by
    by_contra hno
    exact h (ordered_of_check (Bool.eq_false_of_not_eq_true hno))
  unfold ReplayEngine.replay ReplayEngine.replayWith
  simp only [hgood, hspeed.1, hspeed.2, hcheck, Bool.not_true, Bool.or_self, Bool.false_eq_true,
    if_false, if_true]
  exact ⟨rfl, rfl⟩

/-- The records that a window has of a log, in the order of a replay. -/
structure ReplayOrder (options : ReplayOptions) (log : LogReadResult)
    (ordered : List LogRecord) : Prop where
  perm : ordered.Perm
    (log.records.filter fun r => inWindow options r.collectorArrivalTimestampNs)
  sorted : ordered.Pairwise fun a b =>
    a.collectorArrivalTimestampNs < b.collectorArrivalTimestampNs ∨
      a.collectorArrivalTimestampNs = b.collectorArrivalTimestampNs ∧
        a.recordIndex < b.recordIndex

theorem window_order {L : Layout pb} (hb : L.bytes = file.bytes) (options : ReplayOptions) :
    ReplayOrder options (L.result file {} complete)
      ((Replay.window options L).map Prod.snd) where
  perm := by
    have hrecords : L.records = (Replay.pairs L).map Prod.snd := by
      rw [← Replay.pairs_zip, List.map_snd_zip]
      rw [L.index_length, L.records_length]
    have hwindow : (Replay.window options L).Perm ((Replay.pairs L).filter fun p =>
        inWindow options p.2.collectorArrivalTimestampNs) := by
      refine ((List.perm_insertionSort _ (Replay.pairs L)).filter _).trans (List.Perm.of_eq ?_)
      exact List.filter_congr fun p hp => by rw [(Replay.stored_pairs hb hp).keys_eq.1]
    show ((Replay.window options L).map Prod.snd).Perm (L.records.filter _)
    rw [hrecords, List.filter_map]
    exact hwindow.map Prod.snd
  sorted := List.pairwise_map.mpr (Replay.window_sorted hb options)

/-- A complete log is replayed in the order of its timestamps. -/
theorem replay_complete (h : (readLog pb access file {}).status = .complete)
    {options : ReplayOptions} (hspeed : options.speed.isFinite = true ∧
      options.speed.lessThan 0 = false) (hordered : Ordered options) (printEvents : Bool) :
    let replay := (engineOf pb access file).replay pb (some file) options (printer printEvents)
    ∃ ordered, ReplayOrder options (readLog pb access file {}) ordered ∧
      replay.result.status = .complete ∧
      replay.result.replayedRecords.toNat = ordered.length ∧
      replay.calls = if printEvents then ordered else [] := by
  intro replay
  obtain ⟨L, hb, hn, hread, hgranted, _⟩ := engine_complete h
  have hlength := Replay.window_length_lt hb options
  obtain ⟨d, hd, hheard⟩ : ∃ d,
      Replay.Delivered file (engineOf pb access file).begun d (Replay.window options L) ∧
        (engineOf pb access file).replay pb (some file) options (printer true) =
          d.finish .complete "replay completed" := by
    rw [hgranted]
    exact Replay.replay_layout options hb hn hspeed hordered fun _ _ => rfl
  have hresult : replay.result = (d.finish .complete "replay completed").result := by
    rw [← hheard]
    exact replay_result rfl rfl rfl (accepting_printer printEvents) (accepting_printer true) _ _
  refine ⟨(Replay.window options L).map Prod.snd, ?_, ?_, ?_, ?_⟩
  · rw [hread]
    exact window_order hb options
  · rw [hresult]
    rfl
  · rw [hresult, List.length_map]
    show d.result.replayedRecords.toNat = _
    rw [hd.replayedRecords]
    show ((0 : UInt64) + UInt64.ofNat (Replay.window options L).length).toNat = _
    rw [UInt64.zero_add, UInt64.toNat_ofNat']
    omega
  · cases printEvents with
    | false => exact replay_unheard _ _
    | true => exact (congrArg Replay.Delivery.calls hheard).trans hd.calls

/-! ### The commands agree -/

/-- The file as `replay` finds it behind the index. -/
def content (access : Access) (file : File) : Option File :=
  if access.opens then some file else none

/-- What `replay` ends with, next to what `inspect` says of the log. -/
structure ReplayAgrees (pb : Protobuf) (access : Access) (file : File) (o : ReplayCommandOptions)
    (printed : List LogRecord) (result : Replay.ReplayResult) (code : Int32) : Prop where
  code_iff : code = 0 ↔ (runInspect pb access file).2 = 0 ∧ Ordered o.options
  refused : code ≠ 0 → code = 3 ∧ printed = []
  message : ∀ offset message, (runInspect pb access file).1.error = some (offset, message) →
    result.message = "cannot index telemetry log: " ++ message
  indexed : (runInspect pb access file).2 = 0 →
    result.indexedRecords = (runInspect pb access file).1.records
  replayed : code = 0 → ∃ ordered, ReplayOrder o.options (readLog pb access file {}) ordered ∧
    result.replayedRecords.toNat = ordered.length ∧
    printed = if o.printEvents then ordered else []

/-- The engine's answer to the options of a command line. -/
def replayOf (pb : Protobuf) (access : Access) (file : File) (o : ReplayCommandOptions) :
    Replay.Delivery :=
  (engineOf pb access file).replay pb (content access file) o.options (printer o.printEvents)

theorem runReplay_options {stod : Stod} {args : List Text} {o : ReplayCommandOptions}
    (h : parseReplay stod args = .ok (.options o)) :
    runReplay stod pb access file (content access file) args =
      (.result (replayOf pb access file o).calls o.options.speed (replayOf pb access file o).result,
        if (replayOf pb access file o).result.status = .complete then 0 else 3) := by
  rw [runReplay, h]
  rfl

theorem no_error (h : (readLog pb access file {}).status = .complete) :
    (runInspect pb access file).1.error = none := if_neg (not_not.mpr h)

theorem replay_agrees {o : ReplayCommandOptions} (hspeed : o.options.speed.isFinite = true ∧
    o.options.speed.lessThan 0 = false) :
    ReplayAgrees pb access file o (replayOf pb access file o).calls
      (replayOf pb access file o).result
      (if (replayOf pb access file o).result.status = .complete then 0 else 3) := by
  by_cases h : (readLog pb access file {}).status = .complete
  · obtain ⟨L, hb, _, hread, _, hengine⟩ := engine_complete h
    have hopens := (granted_of_read (show (readLog pb access file {}).status ≠ .ioError by
      rw [h]
      decide)).2.1
    have hgood : (engineOf pb access file).good = true := by
      rw [hengine]
      rfl
    have hindexed : (replayOf pb access file o).result.indexedRecords =
        (runInspect pb access file).1.records := by
      show _ = UInt64.ofNat (readLog pb access file {}).records.length
      rw [replayOf, replay_indexed, hengine, hread, List.length_insertionSort, L.index_length]
      show _ = UInt64.ofNat L.records.length
      rw [L.records_length]
    have hmessage (offset : UInt64) (message : String)
        (herror : (runInspect pb access file).1.error = some (offset, message)) :
        (replayOf pb access file o).result.message =
          "cannot index telemetry log: " ++ message := by
      rw [no_error h] at herror
      cases herror
    by_cases hordered : Ordered o.options
    · have hcontent : content access file = some file := if_pos hopens
      obtain ⟨ordered, horder, hstatus, hcount, hcalls⟩ :=
        replay_complete h hspeed hordered o.printEvents
      rw [← hcontent] at hstatus hcount hcalls
      have hcode : (if (replayOf pb access file o).result.status = .complete then (0 : Int32)
          else 3) = 0 := if_pos hstatus
      rw [hcode]
      exact
        { code_iff := iff_of_true rfl ⟨inspect_code.mpr h, hordered⟩
          refused := fun hne => absurd rfl hne
          message := hmessage
          indexed := fun _ => hindexed
          replayed := fun _ => ⟨ordered, horder, hcount, hcalls⟩ }
    · obtain ⟨hstatus, hcalls⟩ := replay_inverted hgood hspeed hordered (content access file)
        (printer o.printEvents)
      have hcode : (if (replayOf pb access file o).result.status = .complete then (0 : Int32)
          else 3) = 3 := by
        rw [replayOf, hstatus]
        rfl
      rw [hcode]
      exact
        { code_iff := iff_of_false (by decide) fun hboth => hordered hboth.2
          refused := fun _ => ⟨rfl, hcalls⟩
          message := hmessage
          indexed := fun _ => hindexed
          replayed := fun hzero => absurd hzero (by decide) }
  · obtain ⟨hstatus, hcalls, hmessage⟩ :=
      replay_refused h (content access file) o.options (printer o.printEvents)
    obtain ⟨hinspected, herror⟩ := inspect_refused h
    have hcode : (if (replayOf pb access file o).result.status = .complete then (0 : Int32)
        else 3) = 3 := by
      rw [replayOf, hstatus]
      rfl
    have hfound : (runInspect pb access file).2 ≠ 0 := by
      rw [hinspected]
      decide
    rw [hcode]
    exact
      { code_iff := iff_of_false (by decide) fun hboth => hfound hboth.1
        refused := fun _ => ⟨rfl, hcalls⟩
        message := fun offset message hsome => by
          rw [herror] at hsome
          cases hsome
          exact hmessage
        indexed := fun hzero => absurd hzero hfound
        replayed := fun hzero => absurd hzero (by decide) }

/-- What `recover` says of a complete log. -/
def alreadyComplete (file : File) : RecoveryResult where
  succeeded := true
  originalSize := file.size
  recoveredSize := file.size
  message := "log was already complete"

theorem recover_complete (h : (readLog pb access file {}).status = .complete) :
    runRecover pb access file = ((alreadyComplete file, 0), file) := by
  obtain ⟨L, _, _, hread⟩ := read_of_complete h
  rw [runRecover, recoverTruncatedTail, if_pos h, hread]
  rfl

/-- A truncated tail that can be cut off leaves the records in front of it. -/
theorem recover_cut (hstatus : (readLog pb access file {}).status = .truncatedTail)
    (hresizes : access.resizes = true) :
    (runRecover pb access file).1.2 = 0 ∧
      ∃ L : Layout pb, (runRecover pb access file).2.bytes = L.bytes ∧
        readLog pb access (runRecover pb access file).2 {} =
          L.result (runRecover pb access file).2 {} complete ∧
        (readLog pb access file {}).records = L.records ∧
        (readLog pb access file {}).createdUnixNs = L.header.created := by
  obtain ⟨hknown, hopens, hgranted⟩ := granted_of_truncated hstatus
  have haccess : access = .granted := by
    obtain ⟨sizeKnown, opens, resizes⟩ := access
    simp only at hknown hopens hresizes
    subst hknown hopens hresizes
    rfl
  subst haccess
  obtain ⟨L, tail, v, hb, hn, hread⟩ := layout_of_truncated hstatus
  have hv : v.1 = .truncatedTail := by
    rw [hread] at hstatus
    exact hstatus
  have hrecovered := recover_truncated hread hv hb hresizes
  have hcut := (layout_validBytes hb).2
  rw [runRecover, hrecovered]
  refine ⟨rfl, L, hcut, readLog_cut_layout {} hb hn, ?_, ?_⟩
  · rw [hread]
    rfl
  · rw [hread]
    rfl

/-- `inspect` of a whole layout. -/
theorem inspect_layout {L : Layout pb} (hb : file.bytes = L.bytes)
    (hread : readLog pb access file {} = L.result file {} complete) :
    runInspect pb access file =
      ({ status := .complete
         records := UInt64.ofNat L.records.length
         fileBytes := file.size
         validBytes := file.size
         createdUnixNs := L.header.created
         error := none }, 0) := by
  have hsize : UInt64.ofNat L.bytes.length = file.size := by rw [← hb, File.size]
  rw [runInspect, hread]
  simp only [Layout.result, complete, hsize]
  rfl

/-- Every command takes the log: `recover` has nothing to do, and a replay may only be refused for
its bounds. -/
structure Accepted (digits : ℕ) (stod : Stod) (pb : Protobuf) (access : Access) (file : File) :
    Prop where
  inspects : (runInspect pb access file).2 = 0
  analyzes : (runAnalyze digits pb access file).2 = 0
  replays : ∀ args o, parseReplay stod args = .ok (.options o) → Ordered o.options →
    (runReplay stod pb access file (content access file) args).2 = 0
  recovers : runRecover pb access file = ((alreadyComplete file, 0), file)

theorem accepted_of_complete (digits : ℕ) (stod : Stod)
    (h : (readLog pb access file {}).status = .complete) :
    Accepted digits stod pb access file where
  inspects := inspect_code.mpr h
  analyzes := (analyze_complete digits h).1
  replays args o hargs hordered := by
    rw [runReplay_options hargs]
    exact (replay_agrees (replay_speed hargs)).code_iff.mpr ⟨inspect_code.mpr h, hordered⟩
  recovers := recover_complete h

/-- No command takes the log, nor can it be recovered. -/
structure Refused (digits : ℕ) (stod : Stod) (pb : Protobuf) (access : Access) (file : File) :
    Prop where
  inspects : (runInspect pb access file).2 = 3
  analyzes : (runAnalyze digits pb access file).2 = 3
  replays : ∀ args o, parseReplay stod args = .ok (.options o) →
    (runReplay stod pb access file (content access file) args).2 = 3
  recovers : (runRecover pb access file).1.2 = 3 ∧ (runRecover pb access file).2 = file

theorem recover_failed (hcomplete : (readLog pb access file {}).status ≠ .complete)
    (hcut : ¬((readLog pb access file {}).status = .truncatedTail ∧ access.resizes = true)) :
    (runRecover pb access file).1.2 = 3 ∧ (runRecover pb access file).2 = file := by
  obtain ⟨_, hsame, hsucceeded, _⟩ := recover_unchanged pb access file {} hcut
  have hfailed : (recoverTruncatedTail pb access file {}).1.succeeded = false :=
    Bool.eq_false_of_not_eq_true fun h => hcomplete (hsucceeded.mp h)
  refine ⟨?_, hsame⟩
  show (if (recoverTruncatedTail pb access file {}).1.succeeded then (0 : Int32) else 3) = 3
  rw [hfailed]
  rfl

theorem refused_of_incomplete (digits : ℕ) (stod : Stod)
    (hcomplete : (readLog pb access file {}).status ≠ .complete)
    (hcut : ¬((readLog pb access file {}).status = .truncatedTail ∧ access.resizes = true)) :
    Refused digits stod pb access file where
  inspects := (inspect_refused hcomplete).1
  analyzes := (analyze_refused digits hcomplete).1
  replays args o hargs := by
    have hagrees : ReplayAgrees pb access file o (replayOf pb access file o).calls
        (replayOf pb access file o).result
        (if (replayOf pb access file o).result.status = .complete then 0 else 3) :=
      replay_agrees (replay_speed hargs)
    rw [runReplay_options hargs]
    refine (hagrees.refused fun hzero => hcomplete ?_).1
    exact inspect_code.mp (hagrees.code_iff.mp hzero).1
  recovers := recover_failed hcomplete hcut

/-- **What `recover` accepts is ready.** It exits with 0 exactly for a log that `inspect` accepts
and for a truncated one that can be resized; otherwise it leaves the file alone. Afterwards
`inspect` finds the records it found before and no more wrong, and every command takes the log. -/
theorem recover_readies (digits : ℕ) (stod : Stod) (pb : Protobuf) (access : Access)
    (file : File) :
    let inspected := runInspect pb access file
    let recovered := runRecover pb access file
    let after := recovered.2
    (recovered.1.2 = 0 ↔ inspected.2 = 0 ∨
      inspected.1.status = .truncatedTail ∧ access.resizes = true) ∧
    (recovered.1.2 ≠ 0 → recovered.1.2 = 3 ∧ after = file) ∧
    (recovered.1.2 = 0 →
      (readLog pb access after {}).records = (readLog pb access file {}).records ∧
      runInspect pb access after =
        ({ inspected.1 with
            status := .complete
            fileBytes := after.size
            validBytes := after.size
            error := none }, 0) ∧
      Accepted digits stod pb access after) := by
  intro inspected recovered after
  by_cases hcomplete : (readLog pb access file {}).status = .complete
  · have hrecovered : recovered = ((alreadyComplete file, 0), file) := recover_complete hcomplete
    have hafter : after = file := congrArg Prod.snd hrecovered
    have hzero : recovered.1.2 = 0 := by rw [hrecovered]
    obtain ⟨L, hb, _, hread⟩ := read_of_complete hcomplete
    have hinspected := inspect_layout hb.symm hread
    refine ⟨iff_of_true hzero (.inl (inspect_code.mpr hcomplete)), fun hne => absurd hzero hne,
      fun _ => ⟨by rw [hafter], ?_, ?_⟩⟩
    · rw [hafter]
      simp only [inspected, hinspected]
    · rw [hafter]
      exact accepted_of_complete digits stod hcomplete
  · have hfound : inspected.2 ≠ 0 := fun hzero => hcomplete (inspect_code.mp hzero)
    by_cases hcut : (readLog pb access file {}).status = .truncatedTail ∧ access.resizes = true
    · obtain ⟨hzero, L, hb, hread, hrecords, hcreated⟩ := recover_cut hcut.1 hcut.2
      refine ⟨iff_of_true hzero (.inr hcut), fun hne => absurd hzero hne,
        fun _ => ⟨?_, ?_, accepted_of_complete digits stod (by rw [hread]; rfl)⟩⟩
      · rw [hread, hrecords]
        rfl
      · rw [inspect_layout hb hread, ← hrecords, ← hcreated]
        rfl
    · have hfailed := recover_failed hcomplete hcut
      have hne : recovered.1.2 ≠ 0 := by
        rw [hfailed.1]
        decide
      refine ⟨iff_of_false hne ?_, fun _ => hfailed, fun hzero => absurd hzero hne⟩
      rintro (hzero | htruncated)
      · exact hfound hzero
      · exact hcut htruncated

end TraceForge.App
