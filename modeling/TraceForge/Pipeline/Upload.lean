import TraceForge.Phone.Publisher
import TraceForge.Telemetry.CollectorService

/-! A phone and the collector that takes its sessions.

On one side `GrpcTelemetryPublisher` with a connection for each `start` that found no stream, on the
other `CollectorService` with its queue and its recorder. Connection `n` has a call of its own, which
reads what was added to its stream, in order; `stop` has its answer from the call when that has ended
with OK. Anybody else may call and bring what he likes. -/
namespace TraceForge.Pipeline
open Library Concurrency Telemetry Recording Phone

/-- A call at the collector: the phone's connection, or somebody else. -/
inductive Caller where
  | phone (n : ℕ)
  | other (n : ℕ)
deriving DecidableEq

/-- What `GrpcTelemetryPublisher.stop` returns: the summary's fields, read by `toInt`. -/
structure UploadSummary where
  producerId : List UInt8
  acceptedEvents : Int
  firstSequenceNumber : Int
  lastSequenceNumber : Int
  sequenceGaps : Int
deriving DecidableEq

def UploadSummary.ofResponse (summary : StreamSummary) : UploadSummary where
  producerId := summary.producerId
  acceptedEvents := summary.acceptedEvents.toInt64.toInt
  firstSequenceNumber := summary.firstSequenceNumber.toInt64.toInt
  lastSequenceNumber := summary.lastSequenceNumber.toInt64.toInt
  sequenceGaps := summary.sequenceGaps.toInt64.toInt

/-- `summaries` is what `stop` has returned, by connection. No step reads it. -/
structure Upload where
  publisher : GrpcTelemetryPublisher
  collector : Collector Caller
  summaries : List (ℕ × UploadSummary)

namespace Upload

inductive Action where
  | phone (a : PublisherAction)
  | serve (a : Collector.Action Caller)

/-- The response of connection `n`'s call, which the phone gets with an OK status. -/
def response (s : Upload) (n : ℕ) : Option StreamSummary :=
  (s.collector.streams (.phone n)).bind fun r =>
    if r.finished = [.ok] then some r.response else none

/-- The phone's call ends without an error only when the collector has ended it with OK. -/
def answers (s : Upload) : PublisherAction → Bool
  | .completed n .result .value => (s.response n).isSome
  | _ => true

/-- What the end of an await makes `stop` return. -/
def returned (s : Upload) : PublisherAction → List (ℕ × UploadSummary)
  | .completed n .shutdown .value =>
    (s.response n).toList.map fun response => (n, .ofResponse response)
  | _ => []

/-- A call of the phone's comes from a connection, and a read brings its next event. -/
def carries (s : Upload) : Collector.Action Caller → Bool
  | .streamTelemetry (.phone n) => n < s.publisher.connections.length
  | .read (.phone n) (some event) _ =>
    match s.publisher.connections[n]?, s.collector.streams (.phone n) with
    | some connection, some r => connection.added[r.reads.length]? = some event
    | _, _ => false
  | _ => true

def step (pb : Protobuf) (s : Upload) : Action → Option Upload
  | .phone a =>
    if s.answers a then
      (s.publisher.step a).map fun publisher =>
        { s with publisher := publisher, summaries := s.summaries ++ s.returned a }
    else none
  | .serve a =>
    if s.carries a then (s.collector.step pb a).map fun collector => { s with collector := collector }
    else none

def machine (pb : Protobuf) (producerId : List UInt8) (queue : BoundedQueue CollectedEvent)
    (writer : LogWriter) : Machine Upload Action where
  init := ⟨.initial producerId, .start queue writer, []⟩
  step := step pb

end Upload

end TraceForge.Pipeline
