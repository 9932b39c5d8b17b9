import TraceForge.Library.Double

/-! The telemetry messages (`proto/traceforge/v1/telemetry.proto`).

Strings are their bytes, since the code only measures and compares them. Enumerations are open,
as proto3 has them: any 32-bit value can arrive, and `ClockDomain_IsValid` and its like say
which values have a name. -/
namespace TraceForge.Telemetry
open Library

/-! ### Enumerations -/

def CLOCK_DOMAIN_UNSPECIFIED : Int32 := 0
def CLOCK_DOMAIN_UTC : Int32 := 1
def CLOCK_DOMAIN_DEVICE_MONOTONIC : Int32 := 2

def ClockDomain_IsValid (value : Int32) : Bool :=
  value == CLOCK_DOMAIN_UNSPECIFIED || value == CLOCK_DOMAIN_UTC ||
    value == CLOCK_DOMAIN_DEVICE_MONOTONIC

def STATE_UNSPECIFIED : Int32 := 0
def STATE_INITIALIZING : Int32 := 1
def STATE_READY : Int32 := 2
def STATE_DEGRADED : Int32 := 3
def STATE_STOPPED : Int32 := 4

/-- The states are numbered from unspecified to stopped. -/
def ControllerStatus_State_IsValid (value : Int32) : Bool :=
  decide (STATE_UNSPECIFIED ≤ value) && decide (value ≤ STATE_STOPPED)

def ControllerStatus_State_Name (value : Int32) : String :=
  if value = STATE_UNSPECIFIED then "STATE_UNSPECIFIED"
  else if value = STATE_INITIALIZING then "STATE_INITIALIZING"
  else if value = STATE_READY then "STATE_READY"
  else if value = STATE_DEGRADED then "STATE_DEGRADED"
  else if value = STATE_STOPPED then "STATE_STOPPED"
  else ""

def SEVERITY_UNSPECIFIED : Int32 := 0
def SEVERITY_WARNING : Int32 := 1
def SEVERITY_ERROR : Int32 := 2
def SEVERITY_CRITICAL : Int32 := 3

/-- The severities are numbered from unspecified to critical. -/
def FaultEvent_Severity_IsValid (value : Int32) : Bool :=
  decide (SEVERITY_UNSPECIFIED ≤ value) && decide (value ≤ SEVERITY_CRITICAL)

/-! ### Messages -/

structure Vector3 where
  x : Double
  y : Double
  z : Double
deriving DecidableEq

structure GpsFix where
  latitudeDegrees : Double
  longitudeDegrees : Double
  horizontalAccuracyMeters : Double
  isMocked : Bool
deriving DecidableEq

structure Temperature where
  degreesCelsius : Double
deriving DecidableEq

structure CameraMetadata where
  frameNumber : UInt64
  widthPixels : UInt32
  heightPixels : UInt32
  exposureTimeNs : UInt64
deriving DecidableEq

structure ControllerStatus where
  state : Int32
  detail : List UInt8
deriving DecidableEq

structure FaultEvent where
  severity : Int32
  code : UInt32
  message : List UInt8
deriving DecidableEq

/-- The `oneof payload`; an event without one has `PAYLOAD_NOT_SET`. -/
inductive Payload where
  | accelerometer (value : Vector3)
  | gyroscope (value : Vector3)
  | gps (value : GpsFix)
  | temperature (value : Temperature)
  | camera (value : CameraMetadata)
  | controllerStatus (value : ControllerStatus)
  | fault (value : FaultEvent)
deriving DecidableEq

/-- `unknownFields` is whatever the event and its payload carry beyond the schema, as Protobuf
keeps it. -/
structure TelemetryEvent where
  schemaVersion : UInt32
  producerId : List UInt8
  sequenceNumber : UInt64
  sourceTimestampNs : Int64
  sourceClock : Int32
  payload : Option Payload
  unknownFields : List UInt8 := []
deriving DecidableEq

structure StreamSummary where
  producerId : List UInt8 := []
  acceptedEvents : UInt64 := 0
  firstSequenceNumber : UInt64 := 0
  lastSequenceNumber : UInt64 := 0
  sequenceGaps : UInt64 := 0
deriving DecidableEq

def kTelemetrySchemaVersion : UInt32 := 1

/-- The Protobuf library as the code calls it. -/
structure Protobuf where
  serializeToString : TelemetryEvent → Option (List UInt8)
  parseFromArray : List UInt8 → Option TelemetryEvent

end TraceForge.Telemetry
