import TraceForge.Analysis.Analyzer
import TraceForge.App.Options
import TraceForge.Recording.Recovery

/-! `traceforge inspect`, `analyze`, `recover` and `replay` (`app/main.cpp`).

Each command reads a log with the default record limit, prints what it found and turns its status
into an exit code. What is printed is kept as the values that go into the line, not as text. -/
namespace TraceForge.App
open Library Telemetry Recording Generator
open Replay (ReplayEngine ReplayResult)
open Analysis (AnalysisReport analyzeLog)

/-! ### `inspect` -/

/-- The line that `inspect` prints. -/
structure Inspection where
  status : LogReadStatus
  records : UInt64
  fileBytes : UInt64
  validBytes : UInt64
  createdUnixNs : Int64
  /-- The offset and the message of what is wrong. -/
  error : Option (UInt64 × String)
deriving DecidableEq

def runInspect (pb : Protobuf) (access : Access) (file : File) : Inspection × Int32 :=
  let result := readLog pb access file {}
  ({ status := result.status
     records := UInt64.ofNat result.records.length
     fileBytes := result.fileSize
     validBytes := result.validBytes
     createdUnixNs := result.createdUnixNs
     error :=
      if result.status ≠ .complete then some (result.errorOffset, result.message) else none },
    if result.status = .complete then 0 else 3)

/-! ### `recover` -/

/-- The result is printed as it is; the file is the one afterwards. -/
def runRecover (pb : Protobuf) (access : Access) (file : File) :
    (RecoveryResult × Int32) × File :=
  let (result, file) := recoverTruncatedTail pb access file {}
  ((result, if result.succeeded then 0 else 3), file)

/-! ### `analyze` -/

/-- Of a report that is not complete only the message is printed. -/
def runAnalyze (digits : ℕ) (pb : Protobuf) (access : Access) (file : File) :
    AnalysisReport × Int32 :=
  let report := analyzeLog digits pb access file
  (report, if report.status ≠ .complete then 3 else 0)

/-! ### `replay` -/

/-- What `replay` prints: an error, its help, or the records it was to print and its result. -/
inductive Replayed where
  | usage (error : Text)
  | help
  | result (printed : List LogRecord) (speed : Double) (result : ReplayResult)

/-- `args` are the arguments behind the file; `content` is the file when it is replayed. -/
def runReplay (stod : Stod) (pb : Protobuf) (access : Access) (file : File)
    (content : Option File) (args : List Text) : Replayed × Int32 :=
  match parseReplay stod args with
  | .error message => (.usage (utf8 "Replay error: " ++ message), 2)
  | .ok .help => (.help, 0)
  | .ok (.options o) =>
    let engine := ReplayEngine.create pb access file 1000000
    let delivery :=
      engine.replay pb content o.options (if o.printEvents then some fun _ _ => true else none)
    (.result delivery.calls o.options.speed delivery.result,
      if delivery.result.status = .complete then 0 else 3)

end TraceForge.App
