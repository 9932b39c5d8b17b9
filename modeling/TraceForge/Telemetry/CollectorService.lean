import TraceForge.Recording.Writer
import TraceForge.Telemetry.QueuedSink
import TraceForge.Telemetry.Validation

/-! The collector: `CollectorService` (`telemetry/collector_service.cpp`) in front of a
`QueuedTelemetrySink` whose consumer is a `LogWriterConsumer` (`recording/log_consumer.cpp`).

Any number of streams run at once. A stream's `OnReadDone` is one step up to `try_accept`, which
takes the sink's two steps, and goes on with the sink's answer. gRPC delivers a read only while one
is outstanding, so a reactor that returned without starting one is not called again.

A reactor also remembers what it was given, what it offered to the sink and every `Finish`. -/
namespace TraceForge.Telemetry
open Library Concurrency Recording

structure CollectedEvent where
  event : TelemetryEvent
  collectorArrivalTimestampNs : Int64
deriving DecidableEq

inductive StatusCode where
  | ok
  | invalidArgument
  | resourceExhausted
  | unavailable
deriving DecidableEq

structure Status where
  code : StatusCode
  message : String
deriving DecidableEq

def Status.ok : Status := ⟨.ok, ""⟩

/-! ### One stream -/

/-- Where a reactor is: with a read outstanding, in `try_accept` before and after the flag, or
returned without another read. -/
inductive Phase where
  | reading
  | offering (collected : CollectedEvent)
  | pushing
  | returned
deriving DecidableEq

structure StreamReactor where
  validator : StreamValidator
  response : StreamSummary
  phase : Phase
  reads : List TelemetryEvent
  captured : List CollectedEvent
  finished : List Status

namespace StreamReactor

/-- The constructor starts the first read. -/
def create (response : StreamSummary) : StreamReactor where
  validator := {}
  response := response
  phase := .reading
  reads := []
  captured := []
  finished := []

def finish (status : Status) (r : StreamReactor) : StreamReactor :=
  {r with phase := .returned, finished := r.finished ++ [status]}

/-- `OnReadDone(true)` up to the call of `try_accept`; `now` is the system clock's answer. -/
def onReadDone (event : TelemetryEvent) (now : Int64) (r : StreamReactor) : StreamReactor :=
  let (validation, validator) := r.validator.accept event
  let r := {r with validator := validator, reads := r.reads ++ [event]}
  if !validation.accepted then r.finish ⟨.invalidArgument, validation.error⟩
  else
    let collected : CollectedEvent := ⟨event, now⟩
    {r with phase := .offering collected, captured := r.captured ++ [collected]}

/-- `OnReadDone(false)`. -/
def onReadEnded (r : StreamReactor) : StreamReactor :=
  {r with response := r.validator.populateSummary r.response}.finish .ok

/-- What follows `try_accept`. -/
def onSinkResult (result : SinkResult) (r : StreamReactor) : StreamReactor :=
  match result with
  | .accepted => {r with phase := .reading}
  | .overloaded =>
    r.finish ⟨.resourceExhausted, "telemetry queue reached its fixed capacity"⟩
  | .unavailable =>
    r.finish ⟨.unavailable, "telemetry ingestion pipeline is unavailable"⟩

end StreamReactor

/-! ### The collector -/

structure Collector (Stream : Type) where
  streams : Stream → Option StreamReactor
  sink : QueuedSink Stream CollectedEvent
  writer : LogWriter

namespace Collector

variable {Stream : Type} [DecidableEq Stream] (pb : Protobuf)

def withStream (i : Stream) (r : StreamReactor) (s : Collector Stream) : Collector Stream :=
  {s with streams := Function.update s.streams i (some r)}

/-- `StreamTelemetry`: a new reactor for a stream that has none. -/
def streamTelemetry (i : Stream) (s : Collector Stream) : Option (Collector Stream) :=
  match s.streams i with
  | some _ => none
  | none => some (s.withStream i (.create {}))

/-- A read of stream `i` completes, with an event or at the end of the stream. -/
def read (i : Stream) (event : Option TelemetryEvent) (now : Int64) (s : Collector Stream) :
    Option (Collector Stream) :=
  match s.streams i with
  | none => none
  | some r =>
    if r.phase = .reading then
      some (s.withStream i (event.elim r.onReadEnded fun event => r.onReadDone event now))
    else none

/-- The sink's accepting flag is loaded and `seen` in stream `i`'s call. -/
def load (i : Stream) (seen : Bool) (s : Collector Stream) : Option (Collector Stream) :=
  match s.streams i with
  | none => none
  | some r =>
    match r.phase with
    | .offering collected =>
      (s.sink.load i collected seen).map fun answer =>
        {s with sink := answer.2}.withStream i
          (answer.1.elim {r with phase := .pushing} fun result => r.onSinkResult result)
    | _ => none

def push (i : Stream) (s : Collector Stream) : Option (Collector Stream) :=
  match s.streams i with
  | none => none
  | some r =>
    if r.phase = .pushing then
      (s.sink.push i).map fun answer =>
        {s with sink := answer.2}.withStream i (r.onSinkResult answer.1)
    else none

/-- `LogWriterConsumer::consume`, which returns what `append` does. -/
def consume (s : Collector Stream) : Option (Collector Stream) :=
  match s.sink.consumer with
  | .consuming collected =>
    let (ok, writer) := s.writer.append pb collected.event collected.collectorArrivalTimestampNs
    (s.sink.consumeReturns ok).map fun sink => {s with sink := sink, writer := writer}
  | _ => none

/-! ### The machine -/

inductive Action (Stream : Type) where
  | streamTelemetry (i : Stream)
  | read (i : Stream) (event : Option TelemetryEvent) (now : Int64)
  | load (i : Stream) (seen : Bool)
  | push (i : Stream)
  | pop
  | call
  | consume
  | advance
  | shutdown

def step (s : Collector Stream) : Action Stream → Option (Collector Stream)
  | .streamTelemetry i => s.streamTelemetry i
  | .read i event now => s.read i event now
  | .load i seen => s.load i seen
  | .push i => s.push i
  | .pop => s.sink.pop.map fun sink => {s with sink := sink}
  | .call => s.sink.call.map fun sink => {s with sink := sink}
  | .consume => s.consume pb
  | .advance => s.sink.advance.map fun sink => {s with sink := sink}
  | .shutdown => s.sink.shutdownStep.map fun sink => {s with sink := sink}

def start (queue : BoundedQueue CollectedEvent) (writer : LogWriter) : Collector Stream where
  streams := fun _ => none
  sink := QueuedSink.start Stream queue
  writer := writer

def machine (queue : BoundedQueue CollectedEvent) (writer : LogWriter) :
    Machine (Collector Stream) (Action Stream) where
  init := start queue writer
  step := step pb

/-- The events of stream `i` that the sink answered accepted on, in that order. -/
def acknowledged (s : Collector Stream) (i : Stream) : List CollectedEvent :=
  (s.sink.answers.filter fun answer => answer.1 = i ∧ answer.2.2 = .accepted).map
    fun answer => answer.2.1

end Collector

end TraceForge.Telemetry
