import TraceForge.Generator.WorkloadPublisher

/-! A publish and the collector that takes it, end to end.

On one side `WorkloadPublisher::publish` with a thread for each producer, on the other
`CollectorService` with its queue and whatever consumes from it; between them the messages that
have been written and not yet read. A client's end takes the steps of its `ProducerThread`, the
collector's end those of `Collector`, and a stream of the publish reads what its client has written.

The publish need not be alone: streams that none of its clients has opened come and go and bring
what they like. -/
namespace TraceForge.Pipeline
open Library Concurrency Telemetry Recording Generator

/-! ### What is behind the queue -/

/-- The collector's consumer: a `LogWriterConsumer`, or one that keeps no event and always returns
true (`CountingConsumer` in `app/main.cpp`, `LatencyConsumer` in `benchmarks/pipeline_benchmark.cpp`). -/
inductive Behind where
  | recorder
  | counter
deriving DecidableEq

/-- A step of the collector. A counter's `consume` touches no writer. -/
def serve (pb : Protobuf) (behind : Behind) (s : Collector ℕ) :
    Collector.Action ℕ → Option (Collector ℕ)
  | .consume =>
    match behind with
    | .recorder => s.step pb .consume
    | .counter => (s.sink.consumeReturns true).map fun sink => { s with sink := sink }
  | a => s.step pb a

/-! ### One producer's end -/

/-- A producer's thread without the other end of its call. -/
structure Client where
  producer : ProducerEvents
  result : ProducerPublishResult
  phase : ThreadPhase
  /-- Written and not yet read. -/
  wire : List TelemetryEvent

inductive ClientAction where
  | write (ok : Bool)
  | writesDone
  | finish (code : Int32) (message : String)
deriving DecidableEq

namespace Client

def ofThread (t : ProducerThread) : Client := ⟨t.producer, t.result, t.phase, t.wire⟩

/-- The thread, with the call as it stands at the collector. -/
def thread (reactor : Option StreamReactor) (c : Client) : ProducerThread :=
  ⟨c.producer, c.result, c.phase, c.wire, reactor⟩

def start (producer : ProducerEvents) : Client := ofThread (.start producer)

/-- A statement of the thread; `Finish` brings the summary of the call at the collector. -/
def step (reactor : Option StreamReactor) (c : Client) (a : ClientAction) : Option Client :=
  let t := c.thread reactor
  match a with
  | .write ok => (t.write ok).map ofThread
  | .writesDone => t.writesDone.map ofThread
  | .finish code message => (t.finish code message).map ofThread

end Client

/-! ### Both ends -/

/-- The clients, whose streams have their positions for names, and the collector. -/
structure Ingestion where
  clients : List Client
  collector : Collector ℕ

inductive Action where
  | client (i : ℕ) (a : ClientAction)
  | serve (a : Collector.Action ℕ)

namespace Ingestion

/-- The clients once a read has taken its event: the first on the wire, for a stream of theirs. -/
def taken (s : Ingestion) : Collector.Action ℕ → Option (List Client)
  | .read i (some event) _ =>
    match s.clients[i]? with
    | none => some s.clients
    | some c =>
      match c.wire with
      | [] => none
      | first :: wire =>
        if first = event then some (s.clients.set i { c with wire := wire }) else none
  | _ => some s.clients

def step (pb : Protobuf) (behind : Behind) (s : Ingestion) : Action → Option Ingestion
  | .client i a =>
    s.clients[i]?.bind fun c =>
      (c.step (s.collector.streams i) a).map fun c => { s with clients := s.clients.set i c }
  | .serve a =>
    (s.taken a).bind fun clients =>
      (serve pb behind s.collector a).map fun collector => ⟨clients, collector⟩

def machine (pb : Protobuf) (behind : Behind) (producers : List ProducerEvents)
    (queue : BoundedQueue CollectedEvent) (writer : LogWriter) : Machine Ingestion Action where
  init := ⟨producers.map Client.start, .start queue writer⟩
  step := step pb behind

/-- The report, when every thread has been joined. -/
def report (s : Ingestion) : Option PublishReport :=
  if s.clients.all fun c => c.phase = .joined then some ⟨s.clients.map Client.result⟩ else none

end Ingestion

end TraceForge.Pipeline
