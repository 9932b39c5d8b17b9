import TraceForge.App.CollectorRuns
import TraceForge.App.CommandProofs
import TraceForge.Telemetry.FlushedLog

/-! How `traceforge collect` ends, and what it leaves.

A process that returns had been signalled and had every call ended. It returns 1 exactly when the
stream of its log has failed, with the message for that; otherwise 0, after everything accepted was
consumed, and then the other commands find the accepted events in the log (`collector_exits`). -/
namespace TraceForge.App
open Library Concurrency Telemetry Recording
open Pipeline (Behind)

variable {pb : Protobuf}

/-! ### The launch -/

/-- A collector that serves has valid options, an empty queue of that capacity and, when it
records, a writer that is good. -/
theorem launch_serves {surroundings : Surroundings} {args : List Text}
    {launched : CollectorProcess} (h : runCollector surroundings args = .serves launched) :
    ∃ (o : CollectorOptions) (capacity_pos : 0 < o.queueCapacity.toNat),
      parseCollector args = .ok (.options o) ∧
      launched = .start (consumerOf surroundings o).1 (.empty o.queueCapacity.toNat capacity_pos)
        (consumerOf surroundings o).2 ∧
      ((consumerOf surroundings o).1 = .recorder →
        (consumerOf surroundings o).2 = recorderOf surroundings o ∧
        (recorderOf surroundings o).good = true) := by
  unfold runCollector at h
  split at h
  · cases h
  · cases h
  rename_i o hargs
  simp only [launch] at h
  split at h
  · cases h
  rename_i hgood
  split at h
  · cases h
  rename_i queue hqueue
  split at h
  · cases h
  cases h
  unfold BoundedQueue.create at hqueue
  split at hqueue
  · cases hqueue
  rename_i hpos
  cases hqueue
  refine ⟨o, Nat.pos_of_ne_zero hpos, hargs, rfl, fun hrecorder => ?_⟩
  have hwriter : (consumerOf surroundings o).2 = recorderOf surroundings o := by
    unfold consumerOf at hrecorder ⊢
    split at hrecorder
    · cases hrecorder
    · rename_i hpath
      rw [if_neg hpath]
  refine ⟨hwriter, ?_⟩
  rw [hrecorder, hwriter] at hgood
  simpa using hgood

/-! ### The log that is left -/

/-- What the commands make of the log of a collector that has recorded these events. -/
structure Leaves (digits : ℕ) (stod : Stod) (pb : Protobuf) (log : File)
    (recorded : List CollectedEvent) : Prop where
  whole : recorded.length ≤ 1000000 → Accepted digits stod pb .granted log ∧
    Analysis.arrivals (readLog pb .granted log {}).records = recorded.map CollectedEvent.record
  beyond : 1000000 < recorded.length → Refused digits stod pb .granted log

namespace CollectorProcess

section Finished
variable {digits : ℕ} {stod : Stod} {capacity : ℕ} {capacity_pos : 0 < capacity} {target : Target}
  {options : LogWriterOptions} {now : Int64} {u : CollectorProcess}

theorem finish_recorder (hbehind : u.behind = .recorder) :
    u.finish.collector.streams = u.collector.streams ∧
      u.finish.collector.sink = u.collector.sink ∧
      u.finish.collector.writer = u.collector.writer.flush.2.close ∧
      u.finish.main = .exited (if !u.collector.writer.flush.1 then
        .flushFailed ("Failed to flush recording: " ++ u.collector.writer.flush.2.error)
        else .shutDown u.shutdownLine) := by
  unfold finish
  rw [hbehind]
  exact ⟨rfl, rfl, rfl, rfl⟩

/-- A recorder's last flush that returned true leaves the log. -/
theorem leaves_log (hopen : (LogWriter.create target options now).good = true)
    (hu : u.Sound pb (.empty capacity capacity_pos) (.create target options now))
    (hbehind : u.behind = .recorder) (hdown : 0 < u.collector.sink.shutdowns)
    (hreads : ∀ i r, u.collector.streams i = some r → ∀ event ∈ r.reads, Carries pb event)
    (hflush : u.collector.writer.flush.1 = true) :
    Leaves digits stod pb u.finish.log u.collector.sink.acknowledged := by
  have hlog : u.finish.log = u.collector.writer.flush.2.output.visible := by
    rw [log, (finish_recorder hbehind).2.2.1, LogWriter.close_flushed hflush]
  obtain ⟨hwhole, hbeyond⟩ := Collector.flushed_log hopen (hu.recorded hbehind) hreads hdown hflush
    {} rfl
  rw [hlog]
  refine ⟨fun hfew => ?_, fun hmany => ?_⟩
  · obtain ⟨hcomplete, hrecords⟩ := hwhole hfew
    exact ⟨accepted_of_complete digits stod hcomplete, hrecords⟩
  · have hstatus := hbeyond hmany
    refine refused_of_incomplete digits stod ?_ ?_
    · rw [hstatus]
      decide
    · rw [hstatus]
      rintro ⟨hcut, _⟩
      cases hcut

/-- The line of a process that has consumed everything. -/
theorem line_drained {queue : BoundedQueue CollectedEvent} {writer : LogWriter}
    (hu : u.Sound pb queue writer) (hdown : 0 < u.collector.sink.shutdowns)
    (hall : QueuedSink.AllTrue u.collector.sink.returns) :
    u.shutdownLine.consumerFailures = 0 ∧
      u.shutdownLine.consumed = u.shutdownLine.accepted ∧
      u.shutdownLine.accepted = UInt64.ofNat u.collector.sink.acknowledged.length := by
  have hrefused : u.collector.sink.refused = [] := by
    rw [QueuedSink.refused, List.filter_eq_nil_iff.mpr fun r hr => by simp [hall r hr],
      List.map_nil]
  have hfinished := hu.valid.joined (hu.valid.returned hdown).1
  have hcounted := hu.counted
  rw [QueuedSink.Counted, QueuedSink.uncountedFailure, hfinished, hrefused] at hcounted
  refine ⟨(UInt64.add_zero _).symm.trans hcounted,
    (QueuedSink.drained hu.valid hdown hrefused).2.2, ?_⟩
  rw [hu.valid.acknowledged]
  exact hu.valid.acceptedItems

end Finished

/-- How a collector has exited. -/
def Exited (digits : ℕ) (stod : Stod) (pb : Protobuf) (s : CollectorProcess) : Exit → Prop
  | .flushFailed message =>
    s.behind = .recorder ∧ s.collector.writer.output.goodbit = false ∧
      (message = "Failed to flush recording: failed while writing telemetry log" ∨
        message = "Failed to flush recording: failed to flush telemetry log")
  | .shutDown line =>
    line.signal = s.shutdownSignal ∧ line.consumerFailures = 0 ∧ line.consumed = line.accepted ∧
      line.accepted = UInt64.ofNat s.collector.sink.acknowledged.length ∧
      (s.behind = .recorder → Leaves digits stod pb s.log s.collector.sink.acknowledged)

/-- **How a process returns** that has shut its sink down and finished. -/
theorem finish_exits (digits : ℕ) (stod : Stod) {capacity : ℕ} {capacity_pos : 0 < capacity}
    {target : Target} {options : LogWriterOptions} {now : Int64} {writer : LogWriter}
    {u : CollectorProcess} {exit : Exit} (hu : u.Sound pb (.empty capacity capacity_pos) writer)
    (hmain : u.main = .flushing)
    (hrecorder : u.behind = .recorder →
      writer = .create target options now ∧ (LogWriter.create target options now).good = true)
    (hexit : u.finish.main = .exited exit)
    (hreads : ∀ i r, u.collector.streams i = some r → ∀ event ∈ r.reads, Carries pb event) :
    (u.finish.shutdownSignal = SIGINT ∨ u.finish.shutdownSignal = SIGTERM) ∧
    (∀ i r, u.finish.collector.streams i = some r → ∃ status, r.finished = [status]) ∧
    u.finish.Exited digits stod pb exit := by
  have hplaced := hu.placed
  rw [Placed, hmain] at hplaced
  obtain ⟨hshutting, hended, hdown⟩ := hplaced
  refine ⟨?_, fun i r hr => ?_, ?_⟩
  · rw [finish_signal]
    exact hu.signalled.resolve_left (hu.seen hshutting)
  · rw [finish_streams] at hr
    obtain ⟨q, hq, hphase⟩ := hended i ((hu.called i).mpr (by rw [hr]; exact Option.some_ne_none _))
    cases hr.symm.trans hq
    obtain ⟨_, _, _, status, hfinished, _⟩ :=
      StreamReactor.place_returned (hu.consistent.stream i r hr) hphase
    exact ⟨status, hfinished⟩
  · cases hconsumer : u.behind with
    | counter =>
      have hmain : u.finish.main = .exited (.shutDown u.shutdownLine) := by
        unfold finish
        rw [hconsumer]
      cases hmain.symm.trans hexit
      obtain ⟨hfailures, hconsumed, haccepted⟩ := line_drained hu hdown (hu.unfailing hconsumer)
      rw [Exited, finish_signal, finish_sink, finish_behind, hconsumer]
      exact ⟨rfl, hfailures, hconsumed, haccepted, fun hno => by cases hno⟩
    | recorder =>
      obtain ⟨hwriter, hopen⟩ := hrecorder hconsumer
      rw [hwriter] at hu
      obtain ⟨_, _, hclosed, hmain⟩ := finish_recorder hconsumer
      cases hflush : u.collector.writer.flush.1 with
      | false =>
        rw [hflush, Bool.not_false, if_pos rfl] at hmain
        cases hmain.symm.trans hexit
        obtain ⟨hnamed, hbit⟩ :=
          Collector.flush_failed hopen (hu.recorded hconsumer) hreads hdown hflush
        rw [Exited, finish_behind, hclosed]
        refine ⟨hconsumer, LogWriter.close_failed hbit, ?_⟩
        rcases hnamed with herror | herror <;> rw [herror]
        · exact .inl rfl
        · exact .inr rfl
      | true =>
        rw [hflush, Bool.not_true, if_neg Bool.false_ne_true] at hmain
        cases hmain.symm.trans hexit
        have hall := Collector.recorded_true
          (Collector.recorded_reachable (hu.recorded hconsumer)) (LogWriter.good_of_flush hflush).1
        obtain ⟨hfailures, hconsumed, haccepted⟩ := line_drained hu hdown hall
        rw [Exited, finish_signal, finish_sink]
        exact ⟨rfl, hfailures, hconsumed, haccepted,
          fun _ => leaves_log hopen hu hconsumer hdown hreads hflush⟩

def sampleSurroundings : Surroundings where
  target _ := .fresh "log" fun _ => none
  now := 7
  listens _ := true

def sampleArgs : List Text := ["--output", "log", "--queue-capacity", "1"].map Generator.utf8

def sampleWriter : LogWriter :=
  .create (.fresh "log" fun _ => none) { flushEveryRecords := 64, createdUnixNs := 0 } 7

def sampleProcess : CollectorProcess := .start .recorder (.empty 1 Nat.one_pos) sampleWriter

def samplePb : Protobuf := Wire.protobuf [Wire.sampleEvent 1]

theorem sample_launches : runCollector sampleSurroundings sampleArgs = .serves sampleProcess := by
  have hargs : parseCollector sampleArgs = .ok (.options
      { queueCapacity := 1, outputPath := Generator.utf8 "log" }) := by decide +kernel
  have hgood : sampleWriter.good = true := by decide +kernel
  have hpath : Generator.utf8 "log" ≠ [] := by decide
  have hconsumer : consumerOf sampleSurroundings
      { queueCapacity := 1, outputPath := Generator.utf8 "log" } = (.recorder, sampleWriter) :=
    if_neg hpath
  rw [runCollector, hargs]
  simp only [launch, hconsumer, hgood]
  rfl

end CollectorProcess

end TraceForge.App
