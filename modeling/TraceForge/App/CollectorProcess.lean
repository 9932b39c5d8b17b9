import TraceForge.App.Options
import TraceForge.Pipeline.Ingestion

/-! `traceforge collect` as a process (`run_collector` in `app/main.cpp`).

The main thread waits for the server, shuts the sink down, flushes the recorder and returns. Around
it run the server's calls, the sink's consumer thread, the signal handler and the thread that polls
for a signal. `grpc::Server::Shutdown` without a deadline takes no new call and lets the others end;
`Wait` returns when it has been called and they have ended.

The process also remembers which calls it has taken. No step but the return of `Wait` reads this. -/
namespace TraceForge.App
open Library Concurrency Telemetry Recording Generator
open Pipeline (Behind serve)

def SIGINT : Int32 := 2
def SIGTERM : Int32 := 15

/-! ### The process -/

/-- The numbers of the line that ends with `consumer_failures`. -/
structure ShutdownLine where
  signal : Int32
  accepted : UInt64
  rejected : UInt64
  consumed : UInt64
  queueHighWatermark : ℕ
  consumerFailures : UInt64
deriving DecidableEq

/-- How `run_collector` returns once the server was running. -/
inductive Exit where
  | flushFailed (message : String)
  | shutDown (line : ShutdownLine)
deriving DecidableEq

def Exit.code : Exit → Int32
  | .flushFailed _ => 1
  | .shutDown _ => 0

/-- Where the main thread is: in `Wait`, in `sink.shutdown()`, behind it, or returned. -/
inductive MainThread where
  | waiting
  | stopping
  | flushing
  | exited (exit : Exit)
deriving DecidableEq

def MainThread.returned : MainThread → Bool
  | .exited _ => true
  | _ => false

structure CollectorProcess where
  behind : Behind
  collector : Collector ℕ
  shutdownSignal : Int32
  /-- `Shutdown` has been called. -/
  shuttingDown : Bool
  main : MainThread
  calls : List ℕ

namespace CollectorProcess

/-- The server is running and has taken no call. -/
def start (behind : Behind) (queue : BoundedQueue CollectedEvent) (writer : LogWriter) :
    CollectorProcess where
  behind := behind
  collector := .start queue writer
  shutdownSignal := 0
  shuttingDown := false
  main := .waiting
  calls := []

/-- Every call has ended. -/
def idle (s : CollectorProcess) : Bool :=
  s.calls.all fun i => (s.collector.streams i).all fun r => r.phase = .returned

/-- What the other threads can do: calls are taken until the server shuts down, and the sink is
shut down by the main thread only. -/
def allows (s : CollectorProcess) : Collector.Action ℕ → Bool
  | .streamTelemetry _ => s.main = .waiting && !s.shuttingDown
  | .shutdown => false
  | _ => !s.main.returned

def called (s : CollectorProcess) : Collector.Action ℕ → List ℕ
  | .streamTelemetry i => s.calls ++ [i]
  | _ => s.calls

def shutdownLine (s : CollectorProcess) : ShutdownLine :=
  let stats := s.collector.sink.stats
  { signal := s.shutdownSignal
    accepted := stats.queue.acceptedItems
    rejected := stats.queue.rejectedItems
    consumed := stats.consumedEvents
    queueHighWatermark := stats.queue.highWatermark
    consumerFailures := stats.consumerFailures }

/-- From the flush to the return, with the destructors. A counter has no writer. -/
def finish (s : CollectorProcess) : CollectorProcess :=
  match s.behind with
  | .counter => { s with main := .exited (.shutDown s.shutdownLine) }
  | .recorder =>
    let (ok, writer) := s.collector.writer.flush
    { s with
      collector := { s.collector with writer := writer.close }
      main := .exited (if !ok then .flushFailed ("Failed to flush recording: " ++ writer.error)
        else .shutDown s.shutdownLine) }

/-- The log as it is on disk. -/
def log (s : CollectorProcess) : File := s.collector.writer.output.visible

inductive Action where
  | serve (a : Collector.Action ℕ)
  /-- The handler runs for a signal. -/
  | signal (n : Int32)
  /-- The monitor sees a signal. -/
  | monitor
  | waitReturns
  /-- The next statement of `sink.shutdown()`. -/
  | shutdown
  | finish

def step (pb : Protobuf) (s : CollectorProcess) : Action → Option CollectorProcess
  | .serve a =>
    if s.allows a then
      (Pipeline.serve pb s.behind s.collector a).map fun collector =>
        { s with collector := collector, calls := s.called a }
    else none
  | .signal n =>
    if (n = SIGINT || n = SIGTERM) && !s.main.returned then
      some { s with shutdownSignal := n }
    else none
  | .monitor =>
    if s.main = .waiting && s.shutdownSignal ≠ 0 && !s.shuttingDown then
      some { s with shuttingDown := true }
    else none
  | .waitReturns =>
    if s.main = .waiting && s.shuttingDown && s.idle then some { s with main := .stopping }
    else none
  | .shutdown =>
    if s.main = .stopping then
      s.collector.sink.shutdownStep.map fun sink =>
        { s with
          collector := { s.collector with sink := sink }
          main := if 0 < sink.shutdowns then .flushing else .stopping }
    else none
  | .finish => if s.main = .flushing then some s.finish else none

def machine (pb : Protobuf) (launched : CollectorProcess) : Machine CollectorProcess Action where
  init := launched
  step := step pb

end CollectorProcess

/-! ### Its start -/

/-- What the system answers a starting collector: about the output path, the time, and whether the
address can be listened on. -/
structure Surroundings where
  target : Text → Target
  now : Int64
  listens : Text → Bool

/-- What becomes of a command line. -/
inductive Launch where
  | help
  /-- An exit code, the text on stderr, and the log that is left if one was created. -/
  | exits (code : Int32) (message : Text) (log : Option File)
  /-- An exception leaves `main`. -/
  | terminates (message : String)
  | serves (process : CollectorProcess)

/-- A counter's place for a writer. -/
def noWriter : LogWriter where
  options := {}
  output := .closed (fun _ => none) true
  error := ""
  recordCount := 0
  bytesWritten := 0

def recorderOf (surroundings : Surroundings) (o : CollectorOptions) : LogWriter :=
  .create (surroundings.target o.outputPath)
    { flushEveryRecords := o.flushEveryRecords, createdUnixNs := 0 } surroundings.now

/-- The consumer that the options ask for, and its writer. -/
def consumerOf (surroundings : Surroundings) (o : CollectorOptions) : Behind × LogWriter :=
  if o.outputPath = [] then (.counter, noWriter) else (.recorder, recorderOf surroundings o)

/-- The log that a writer has created, once it is destroyed. -/
def leftBy (w : LogWriter) : Option File :=
  if w.output.isOpen then some w.close.output.visible else none

/-- From the consumer to the running server. -/
def launch (surroundings : Surroundings) (o : CollectorOptions) : Launch :=
  let (behind, writer) := consumerOf surroundings o
  if behind = .recorder && !writer.good then
    .exits 1 (utf8 "Collector error: " ++ utf8 writer.error) (leftBy writer)
  else match BoundedQueue.create o.queueCapacity.toNat with
  | .error message => .terminates message
  | .ok queue =>
    if !surroundings.listens o.listenAddress then
      .exits 1 (utf8 "Failed to start collector on " ++ o.listenAddress) (leftBy writer)
    else .serves (.start behind queue writer)

/-- `args` are the arguments behind `collect`. -/
def runCollector (surroundings : Surroundings) (args : List Text) : Launch :=
  match parseCollector args with
  | .error message => .exits 2 (utf8 "Collector error: " ++ message) none
  | .ok .help => .help
  | .ok (.options o) => launch surroundings o

end TraceForge.App
