import TraceForge.Library.ProtoWire
import TraceForge.Telemetry.Event

/-! Telemetry events on the wire: field numbers and types of `telemetry.proto`.

`encode` is what Protobuf serializes for an event; fields beyond the schema come last. A
serialized event is as long as its strings and a little more (`encode_length`). -/
namespace TraceForge.Telemetry.Wire
open Library.ProtoWire

def vector3 (v : Vector3) : List UInt8 :=
  fixed64Field 1 v.x.bits ++ fixed64Field 2 v.y.bits ++ fixed64Field 3 v.z.bits

def gpsFix (g : GpsFix) : List UInt8 :=
  fixed64Field 1 g.latitudeDegrees.bits ++ fixed64Field 2 g.longitudeDegrees.bits ++
    fixed64Field 3 g.horizontalAccuracyMeters.bits ++ varintField 4 (if g.isMocked then 1 else 0)

def temperature (t : Temperature) : List UInt8 := fixed64Field 1 t.degreesCelsius.bits

def cameraMetadata (c : CameraMetadata) : List UInt8 :=
  varintField 1 c.frameNumber ++ varintField 2 c.widthPixels.toUInt64 ++
    varintField 3 c.heightPixels.toUInt64 ++ varintField 4 c.exposureTimeNs

/-- An enumeration is sign-extended to 64 bits. -/
def enumField (field : Nat) (value : Int32) : List UInt8 :=
  varintField field value.toInt64.toUInt64

def controllerStatus (s : ControllerStatus) : List UInt8 :=
  enumField 1 s.state ++ stringField 2 s.detail

def faultEvent (f : FaultEvent) : List UInt8 :=
  enumField 1 f.severity ++ varintField 2 f.code.toUInt64 ++ stringField 3 f.message

def payload : Payload → List UInt8
  | .accelerometer value => messageField 10 (vector3 value)
  | .gyroscope value => messageField 11 (vector3 value)
  | .gps value => messageField 12 (gpsFix value)
  | .temperature value => messageField 13 (temperature value)
  | .camera value => messageField 14 (cameraMetadata value)
  | .controllerStatus value => messageField 15 (controllerStatus value)
  | .fault value => messageField 16 (faultEvent value)

def encode (event : TelemetryEvent) : List UInt8 :=
  varintField 1 event.schemaVersion.toUInt64 ++ stringField 2 event.producerId ++
    varintField 3 event.sequenceNumber ++ varintField 4 event.sourceTimestampNs.toUInt64 ++
    enumField 5 event.sourceClock ++ event.payload.elim [] payload ++ event.unknownFields

/-- Protobuf restricted to some events: it writes any event, and parses the bytes of these. -/
def protobuf (events : List TelemetryEvent) : Protobuf where
  serializeToString event := some (encode event)
  parseFromArray bytes := events.find? fun event => encode event == bytes

/-- Twenty-one and a half degrees from one producer. -/
def sampleEvent (sequenceNumber : UInt64) : TelemetryEvent where
  schemaVersion := kTelemetrySchemaVersion
  producerId := [0x70]
  sequenceNumber := sequenceNumber
  sourceTimestampNs := 100
  sourceClock := CLOCK_DOMAIN_UTC
  payload := some (.temperature ⟨⟨0x4035800000000000⟩⟩)

/-! ### How long an event is -/

/-- The bytes of the payload's string, if it has one. -/
def textLength : Payload → Nat
  | .controllerStatus value => value.detail.length
  | .fault value => value.message.length
  | _ => 0

theorem payload_length (p : Payload) : (payload p).length ≤ 100 + textLength p := by
  cases p with
  | accelerometer v | gyroscope v =>
    have hm (field : Nat) := messageField_length field (vector3 v)
    have hx := fixed64Field_length 1 v.x.bits
    have hy := fixed64Field_length 2 v.y.bits
    have hz := fixed64Field_length 3 v.z.bits
    refine Nat.le_trans (hm _) ?_
    simp only [vector3, List.length_append]
    omega
  | gps g =>
    have hlat := fixed64Field_length 1 g.latitudeDegrees.bits
    have hlon := fixed64Field_length 2 g.longitudeDegrees.bits
    have hacc := fixed64Field_length 3 g.horizontalAccuracyMeters.bits
    have hmocked := varintField_length 4 (if g.isMocked then 1 else 0)
    refine Nat.le_trans (messageField_length 12 (gpsFix g)) ?_
    simp only [gpsFix, List.length_append]
    omega
  | temperature t =>
    have ht := fixed64Field_length 1 t.degreesCelsius.bits
    refine Nat.le_trans (messageField_length 13 (temperature t)) ?_
    simp only [temperature]
    omega
  | camera c =>
    have hframe := varintField_length 1 c.frameNumber
    have hwidth := varintField_length 2 c.widthPixels.toUInt64
    have hheight := varintField_length 3 c.heightPixels.toUInt64
    have hexposure := varintField_length 4 c.exposureTimeNs
    refine Nat.le_trans (messageField_length 14 (cameraMetadata c)) ?_
    simp only [cameraMetadata, List.length_append]
    omega
  | controllerStatus s =>
    have hstate := varintField_length 1 s.state.toInt64.toUInt64
    have hdetail := stringField_length 2 s.detail
    refine Nat.le_trans (messageField_length 15 (controllerStatus s)) ?_
    simp only [controllerStatus, enumField, List.length_append, textLength]
    omega
  | fault f =>
    have hseverity := varintField_length 1 f.severity.toInt64.toUInt64
    have hcode := varintField_length 2 f.code.toUInt64
    have hmessage := stringField_length 3 f.message
    refine Nat.le_trans (messageField_length 16 (faultEvent f)) ?_
    simp only [faultEvent, enumField, List.length_append, textLength]
    omega

theorem encode_length (event : TelemetryEvent) :
    (encode event).length ≤ 200 + event.producerId.length +
      event.payload.elim 0 textLength + event.unknownFields.length := by
  have hschema := varintField_length 1 event.schemaVersion.toUInt64
  have hproducer := stringField_length 2 event.producerId
  have hsequence := varintField_length 3 event.sequenceNumber
  have htimestamp := varintField_length 4 event.sourceTimestampNs.toUInt64
  have hclock := varintField_length 5 event.sourceClock.toInt64.toUInt64
  have hpayload : (event.payload.elim [] payload).length ≤
      100 + event.payload.elim 0 textLength := by
    cases event.payload with
    | none => exact Nat.zero_le _
    | some p => exact payload_length p
  simp only [encode, enumField, List.length_append]
  omega

end TraceForge.Telemetry.Wire
