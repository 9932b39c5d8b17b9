import TraceForge.Library.Machine
import TraceForge.Library.OrderedMap
import TraceForge.Telemetry.CollectorService

/-! `WorkloadPublisher::publish` (`generator/workload_publisher.cpp`) and the streams it opens.

The events are grouped by producer and every group has a thread, which writes it to a stream of its
own. At the other end of a stream is a `StreamReactor`; what has been written and not yet read is on
the wire between them, in order. A step is one of either end, and gRPC decides its outcome: it may
fail a write or end a call with an error whenever it likes. An OK status is the reactor's, and
brings its summary. The sink gives any answer. -/
namespace TraceForge.Generator
open Library Telemetry
open Std (ExtTreeMap)

/-! ### The report -/

/-- The numbers gRPC gives its status codes. -/
def grpcStatusCode : StatusCode → Int32
  | .ok => 0
  | .invalidArgument => 3
  | .resourceExhausted => 8
  | .unavailable => 14

structure ProducerPublishResult where
  producerId : List UInt8 := []
  attemptedEvents : UInt64 := 0
  writtenEvents : UInt64 := 0
  acceptedEvents : UInt64 := 0
  sequenceGaps : UInt64 := 0
  grpcStatusCode : Int32 := 0
  errorMessage : String := ""
deriving DecidableEq

def ProducerPublishResult.succeeded (result : ProducerPublishResult) : Bool :=
  result.grpcStatusCode = Generator.grpcStatusCode .ok &&
    result.writtenEvents = result.attemptedEvents && result.acceptedEvents = result.attemptedEvents

structure PublishReport where
  producers : List ProducerPublishResult
deriving DecidableEq

namespace PublishReport

def succeeded (report : PublishReport) : Bool :=
  report.producers.all ProducerPublishResult.succeeded

def attemptedEvents (report : PublishReport) : UInt64 :=
  report.producers.foldl (fun total result => total + result.attemptedEvents) 0

def acceptedEvents (report : PublishReport) : UInt64 :=
  report.producers.foldl (fun total result => total + result.acceptedEvents) 0

end PublishReport

/-! ### Groups -/

structure ProducerEvents where
  producerId : List UInt8
  events : List TelemetryEvent
deriving DecidableEq

/-- The map that collects each producer's events. -/
def grouped (events : List TelemetryEvent) :
    ExtTreeMap (List UInt8) (List TelemetryEvent) compare :=
  events.foldl (fun grouped event => update grouped event.producerId (· ++ [event])) ∅

def groupByProducer (events : List TelemetryEvent) : List ProducerEvents :=
  (grouped events).toList.map fun entry => ⟨entry.1, entry.2⟩

/-! ### One producer's thread -/

/-- Where a thread is: in its loop, out of it, in `Finish`, or with its result stored. -/
inductive ThreadPhase where
  | writing (unwritten : List TelemetryEvent)
  | wrote
  | finishing
  | joined
deriving DecidableEq

structure ProducerThread where
  producer : ProducerEvents
  result : ProducerPublishResult
  phase : ThreadPhase
  /-- Written and not yet read. -/
  wire : List TelemetryEvent
  /-- The call at the collector, once it has arrived. -/
  reactor : Option StreamReactor

inductive ThreadAction where
  | write (ok : Bool)
  | writesDone
  | finish (code : Int32) (message : String)
  | streamTelemetry
  | read (now : Int64)
  | readEnded
  | tryAccept (answer : SinkResult)
deriving DecidableEq

namespace ProducerThread

def start (producer : ProducerEvents) : ProducerThread where
  producer := producer
  result :=
    { producerId := producer.producerId
      attemptedEvents := UInt64.ofNat producer.events.length }
  phase := .writing producer.events
  wire := []
  reactor := none

/-- `Write`: what fails is not sent, and ends the loop. -/
def write (ok : Bool) (t : ProducerThread) : Option ProducerThread :=
  match t.phase with
  | .writing (event :: unwritten) =>
    if ok then
      some { t with
        phase := .writing unwritten
        wire := t.wire ++ [event]
        result := { t.result with writtenEvents := t.result.writtenEvents + 1 } }
    else some { t with phase := .wrote }
  | _ => none

def writesDone (t : ProducerThread) : Option ProducerThread :=
  if t.phase = .writing [] ∨ t.phase = .wrote then some { t with phase := .finishing } else none

/-- The summary, when the collector has ended the call well. -/
def summary (t : ProducerThread) : Option StreamSummary :=
  t.reactor.bind fun r => if r.finished = [.ok] then some r.response else none

/-- `Finish` returns, and the thread stores its result. -/
def finish (code : Int32) (message : String) (t : ProducerThread) : Option ProducerThread :=
  if t.phase = .finishing then
    let result := { t.result with grpcStatusCode := code, errorMessage := message }
    if code = grpcStatusCode .ok then
      t.summary.map fun summary =>
        { t with
          phase := .joined
          result :=
            { result with
              acceptedEvents := summary.acceptedEvents
              sequenceGaps := summary.sequenceGaps } }
    else some { t with phase := .joined, result := result }
  else none

/-- The call arrives at the collector. -/
def streamTelemetry (t : ProducerThread) : Option ProducerThread :=
  match t.reactor with
  | some _ => none
  | none => some { t with reactor := some (.create {}) }

/-- The reactor's read completes with the next message. -/
def read (now : Int64) (t : ProducerThread) : Option ProducerThread :=
  match t.reactor, t.wire with
  | some r, event :: wire =>
    if r.phase = .reading then
      some { t with wire := wire, reactor := some (r.onReadDone event now) }
    else none
  | _, _ => none

/-- The reactor's read completes without a message: the client has no more, or the call is cut. -/
def readEnded (t : ProducerThread) : Option ProducerThread :=
  match t.reactor with
  | some r => if r.phase = .reading then some { t with reactor := some r.onReadEnded } else none
  | none => none

/-- The sink answers, and what it accepts is its own from then on. -/
def tryAccept (answer : SinkResult) (t : ProducerThread) :
    Option (ProducerThread × List CollectedEvent) :=
  match t.reactor with
  | none => none
  | some r =>
    match r.phase with
    | .offering collected =>
      some ({ t with reactor := some (r.onSinkResult answer) },
        if answer = .accepted then [collected] else [])
    | _ => none

/-- A step, and what the sink accepts in it. -/
def step (t : ProducerThread) : ThreadAction → Option (ProducerThread × List CollectedEvent)
  | .write ok => (t.write ok).map (·, [])
  | .writesDone => t.writesDone.map (·, [])
  | .finish code message => (t.finish code message).map (·, [])
  | .streamTelemetry => t.streamTelemetry.map (·, [])
  | .read now => (t.read now).map (·, [])
  | .readEnded => t.readEnded.map (·, [])
  | .tryAccept answer => t.tryAccept answer

end ProducerThread

/-! ### All of them -/

/-- The threads, and everything the sink has accepted from them. -/
structure Publishing where
  threads : List ProducerThread
  sunk : List CollectedEvent

namespace Publishing

/-- A step of one thread or of the reactor that serves it. -/
def step (s : Publishing) (action : Nat × ThreadAction) : Option Publishing :=
  s.threads[action.1]?.bind fun t =>
    (t.step action.2).map fun moved =>
      { threads := s.threads.set action.1 moved.1, sunk := s.sunk ++ moved.2 }

def machine (producers : List ProducerEvents) : Machine Publishing (Nat × ThreadAction) where
  init := { threads := producers.map ProducerThread.start, sunk := [] }
  step := step

/-- The report, when every thread has been joined. -/
def report (s : Publishing) : Option PublishReport :=
  if s.threads.all fun t => t.phase = .joined then some ⟨s.threads.map ProducerThread.result⟩
  else none

end Publishing

/-- A publisher exists only for a configuration that its constructor let pass. The timeout is a
count of milliseconds. -/
structure WorkloadPublisher where
  target : List UInt8
  connectTimeout : Int64
  target_ne : target ≠ []
  connectTimeout_pos : 0 < connectTimeout

def WorkloadPublisher.create (target : List UInt8) (connectTimeout : Int64) :
    Except String WorkloadPublisher :=
  if htarget : target = [] then .error "publisher target cannot be empty"
  else if hpos : 0 < connectTimeout then .ok ⟨target, connectTimeout, htarget, hpos⟩
  else .error "connect timeout must be positive"

/-- A `std::span` of events, whose size is a `size_t`. -/
structure EventSpan where
  events : List TelemetryEvent
  length_lt : events.length < 2 ^ 64

def connectionTimedOut (producer : ProducerEvents) : ProducerPublishResult where
  producerId := producer.producerId
  attemptedEvents := UInt64.ofNat producer.events.length
  grpcStatusCode := grpcStatusCode .unavailable
  errorMessage := "collector connection timed out"

/-- The report of a publish whose threads and reactors took these steps, and what the sink accepted;
`none` when they cannot, or do not let the publish return. -/
def publish (span : EventSpan) (connected : Bool) (actions : List (Nat × ThreadAction)) :
    Option (PublishReport × List CollectedEvent) :=
  let producers := groupByProducer span.events
  if producers.isEmpty then some (⟨[]⟩, [])
  else if !connected then some (⟨producers.map connectionTimedOut⟩, [])
  else
    ((Publishing.machine producers).run (Publishing.machine producers).init actions).bind fun s =>
      s.report.map fun report => (report, s.sunk)

end TraceForge.Generator
