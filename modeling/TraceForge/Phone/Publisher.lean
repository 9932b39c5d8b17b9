import TraceForge.Library.Machine
import TraceForge.Telemetry.Event

/-! `GrpcTelemetryPublisher` and its encoder.

Each call of `start` that finds no stream makes a connection: a channel and an event stream. The
publisher keeps the connections it ever made, by number, and its fields name one of them or none.
A call that works on a connection is suspended at an await of its own, kept with the connection; a
call that has no connection returns at once. The publishes run to their end. -/
namespace TraceForge.Phone
open Library Telemetry

/-! ### The encoder -/

inductive MotionSensor
  | accelerometer
  | gyroscope

/-- `sourceTimestamp` is in microseconds since the epoch. -/
structure MotionSample where
  sensor : MotionSensor
  x : Double
  y : Double
  z : Double
  sourceTimestamp : Int64

structure LocationSample where
  latitude : Double
  longitude : Double
  horizontalAccuracyMeters : Double
  sourceTimestamp : Int64
  isMocked : Bool

structure TelemetryEncoder where
  producerId : List UInt8

namespace TelemetryEncoder

def schemaVersion : UInt32 := 1

def baseEvent (encoder : TelemetryEncoder) (sourceTimestamp : Int64) (sequenceNumber : UInt64)
    (payload : Payload) : TelemetryEvent where
  schemaVersion := schemaVersion
  producerId := encoder.producerId
  sequenceNumber := sequenceNumber
  sourceTimestampNs := sourceTimestamp * 1000
  sourceClock := CLOCK_DOMAIN_UTC
  payload := some payload

def encodeMotion (encoder : TelemetryEncoder) (sample : MotionSample) (sequenceNumber : UInt64) :
    TelemetryEvent :=
  let vector : Vector3 := ⟨sample.x, sample.y, sample.z⟩
  encoder.baseEvent sample.sourceTimestamp sequenceNumber
    (match sample.sensor with
    | .accelerometer => .accelerometer vector
    | .gyroscope => .gyroscope vector)

def encodeLocation (encoder : TelemetryEncoder) (sample : LocationSample)
    (sequenceNumber : UInt64) : TelemetryEvent :=
  encoder.baseEvent sample.sourceTimestamp sequenceNumber
    (.gps ⟨sample.latitude, sample.longitude, sample.horizontalAccuracyMeters, sample.isMocked⟩)

end TelemetryEncoder

/-! ### Connections -/

/-- The future a call in progress awaits. -/
inductive PublisherAwait
  /-- `start`: the channel's readiness. -/
  | ready
  /-- `start`: the cancel of the state subscription, once the channel is ready. -/
  | cancel
  /-- `start`: the same cancel in the `catch`, and the two awaits behind it. -/
  | cancelOnError
  | terminateOnError
  | closeOnError
  /-- `stop`: the events' close and the collector's answer. -/
  | result
  /-- `stop`: the channel's shutdown. -/
  | shutdown
  /-- `stop`: the channel's termination, before it throws. -/
  | terminate
deriving DecidableEq

/-- How a future ends; a future without a time limit cannot time out. -/
inductive PublisherOutcome
  | value
  | error
  | timeout
deriving DecidableEq

structure Connection where
  /-- `shutdown` or `terminate` has been called on the channel. -/
  channelDown : Bool
  eventsClosed : Bool
  /-- What was added to the event stream, oldest first. -/
  added : List TelemetryEvent
  /-- Where the calls that hold the channel are suspended. -/
  calls : List PublisherAwait

namespace Connection

def opened : Connection := ⟨false, false, [], [.ready]⟩

def suspend (await : PublisherAwait) (c : Connection) : Connection :=
  {c with calls := await :: c.calls}

/-- `StreamController.add`, on a stream that is not closed. -/
def add (event : TelemetryEvent) (c : Connection) : Connection :=
  if c.eventsClosed then c else {c with added := c.added ++ [event]}

/-- A call goes on to its next await, or to its end. What is not listed does not happen: only the
awaits of `ready`, `result` and `shutdown` have a time limit. -/
def goOn (c : Connection) : PublisherAwait → PublisherOutcome → Option Connection
  | .ready, .value => some (c.suspend .cancel)
  | .ready, .error | .ready, .timeout => some (c.suspend .cancelOnError)
  | .cancel, .value => some c
  | .cancelOnError, .value => some ({c with channelDown := true}.suspend .terminateOnError)
  -- the errors of `terminate` are ignored
  | .terminateOnError, .value | .terminateOnError, .error =>
    some ({c with eventsClosed := true}.suspend .closeOnError)
  | .closeOnError, .value => some c
  | .result, .value => some ({c with channelDown := true}.suspend .shutdown)
  | .result, .error | .result, .timeout => some ({c with channelDown := true}.suspend .terminate)
  | .shutdown, .value | .shutdown, .error => some c
  | .shutdown, .timeout => some ({c with channelDown := true}.suspend .terminate)
  | .terminate, .value | .terminate, .error => some c
  -- no error of a `cancel` or a `close` either: `cancel` fails only when the `onCancel` of its stream
  -- does, and neither the channel's states nor the events have one
  | .cancel, _ | .cancelOnError, _ | .terminateOnError, .timeout | .closeOnError, _
  | .terminate, .timeout => none

end Connection

/-! ### The publisher -/

structure GrpcTelemetryPublisher where
  encoder : TelemetryEncoder
  connections : List Connection
  channel : Option Nat
  events : Option Nat
  completion : Option Nat
  nextSequenceNumber : UInt64

inductive PublisherAction
  | start
  | stop
  | publishMotion (sample : MotionSample)
  | publishLocation (sample : LocationSample)
  | completed (connection : Nat) (await : PublisherAwait) (outcome : PublisherOutcome)

namespace GrpcTelemetryPublisher

def initial (producerId : List UInt8) : GrpcTelemetryPublisher where
  encoder := ⟨producerId⟩
  connections := []
  channel := none
  events := none
  completion := none
  nextSequenceNumber := 0

/-- `start` up to its first await. -/
def start (p : GrpcTelemetryPublisher) : GrpcTelemetryPublisher :=
  if p.events.isSome then p else {p with connections := p.connections ++ [.opened]}

/-- The end of `start`. -/
def assign (n : Nat) (p : GrpcTelemetryPublisher) : GrpcTelemetryPublisher :=
  { p with
    channel := some n
    events := some n
    nextSequenceNumber := 0
    completion := some n }

/-- `_add`; without an open stream it throws. -/
def add (event : TelemetryEvent) (p : GrpcTelemetryPublisher) : GrpcTelemetryPublisher :=
  match p.events with
  | none => p
  | some n => {p with connections := p.connections.modify n (.add event)}

/-- The counter advances before the event is added, also when there is no stream to add it to. -/
def advance (p : GrpcTelemetryPublisher) : GrpcTelemetryPublisher :=
  {p with nextSequenceNumber := p.nextSequenceNumber + 1}

def publishMotion (sample : MotionSample) (p : GrpcTelemetryPublisher) : GrpcTelemetryPublisher :=
  p.advance.add (p.encoder.encodeMotion sample p.nextSequenceNumber)

def publishLocation (sample : LocationSample) (p : GrpcTelemetryPublisher) :
    GrpcTelemetryPublisher :=
  p.advance.add (p.encoder.encodeLocation sample p.nextSequenceNumber)

/-- `stop` up to its first await: the fields are taken, and the events closed. -/
def stop (p : GrpcTelemetryPublisher) : GrpcTelemetryPublisher :=
  match p.events, p.completion, p.channel with
  | some events, some _, some channel =>
    let closed := p.connections.modify events fun c => {c with eventsClosed := true}
    { p with
      events := none
      completion := none
      channel := none
      connections := closed.modify channel (.suspend .result) }
  | _, _, _ => p

/-- A call in progress goes on; a `start` whose channel is ready stores it. -/
def completed (n : Nat) (await : PublisherAwait) (outcome : PublisherOutcome)
    (p : GrpcTelemetryPublisher) : Option GrpcTelemetryPublisher :=
  p.connections[n]?.bind fun connection =>
    if await ∈ connection.calls then
      ({connection with calls := connection.calls.erase await}.goOn await outcome).map
        fun connection =>
          let p := {p with connections := p.connections.set n connection}
          if await = PublisherAwait.cancel then p.assign n else p
    else none

def step (p : GrpcTelemetryPublisher) : PublisherAction → Option GrpcTelemetryPublisher
  | .start => some p.start
  | .stop => some p.stop
  | .publishMotion sample => some (p.publishMotion sample)
  | .publishLocation sample => some (p.publishLocation sample)
  | .completed n await outcome => p.completed n await outcome

/-- No call of `start` or `stop` is in progress. -/
def Quiet (p : GrpcTelemetryPublisher) : Prop := ∀ c ∈ p.connections, c.calls = []

end GrpcTelemetryPublisher

/-- The publisher with calls and completions in any order. -/
def publisher (producerId : List UInt8) : Machine GrpcTelemetryPublisher PublisherAction :=
  ⟨.initial producerId, GrpcTelemetryPublisher.step⟩

end TraceForge.Phone
