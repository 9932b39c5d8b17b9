import TraceForge.Library.Streams
import TraceForge.Recording.Format

/-! `LogWriter`: the writer of `recording/log.cpp`.

A failure is sticky: the first message is kept, and a writer that is not good appends nothing.
Headers are built in place over a zeroed array, field by field, and their checksum covers what has
been written before it. -/
namespace TraceForge.Recording
open Library Telemetry

structure LogWriterOptions where
  flushEveryRecords : UInt64 := 64
  createdUnixNs : Int64 := 0

/-- The output path and what the operating system answers about it. -/
structure Target where
  path : String
  existsError : Bool
  alreadyExists : Bool
  opens : Bool
  device : Nat → Option Nat

/-- A path where nothing exists yet and a file can be created. -/
def Target.fresh (path : String) (device : Nat → Option Nat) : Target where
  path := path
  existsError := false
  alreadyExists := false
  opens := true
  device := device

structure LogWriter where
  options : LogWriterOptions
  output : OFStream
  error : String
  recordCount : UInt64
  bytesWritten : UInt64

/-! ### Headers -/

def fileHeader (createdUnixNs : Int64) : List UInt8 :=
  let header := kFileMagic ++ List.replicate 24 0
  let header := encodeLittleEndian 2 header 8 kLogFormatVersion
  let header := encodeLittleEndian 2 header 10 kFileHeaderSize
  let header := encodeLittleEndian 4 header 12 0
  let header := encodeLittleEndian 8 header 16 createdUnixNs.toUInt64
  let header := encodeLittleEndian 4 header 24 0
  encodeLittleEndian 4 header 28 (crc32c (header.take 28)).toUInt64

def recordHeader (payload : List UInt8) (recordCount : UInt64)
    (collectorArrivalTimestampNs : Int64) : List UInt8 :=
  let header := kRecordMagic ++ List.replicate 32 0
  let header := encodeLittleEndian 2 header 4 kRecordHeaderSize
  let header := encodeLittleEndian 2 header 6 kRecordFormatVersion
  let header := encodeLittleEndian 4 header 8 (UInt32.ofNat payload.length).toUInt64
  let header := encodeLittleEndian 4 header 12 (crc32c payload).toUInt64
  let header := encodeLittleEndian 8 header 16 recordCount
  let header := encodeLittleEndian 8 header 24 collectorArrivalTimestampNs.toUInt64
  encodeLittleEndian 4 header 32 (crc32c (header.take 32)).toUInt64

/-! ### Operations -/

namespace LogWriter

def good (w : LogWriter) : Bool := w.error == "" && w.output.isOpen && w.output.goodbit

/-- The first message stays. -/
def fail (message : String) (w : LogWriter) : LogWriter :=
  if w.error == "" then {w with error := message} else w

def writeBytes (bytes : List UInt8) (w : LogWriter) : Bool × LogWriter :=
  let w := {w with output := w.output.write bytes}
  if !w.output.goodbit then (false, w.fail "failed while writing telemetry log")
  else (true, {w with bytesWritten := w.bytesWritten + UInt64.ofNat bytes.length})

def writeFileHeader (w : LogWriter) : Bool × LogWriter :=
  w.writeBytes (fileHeader w.options.createdUnixNs)

def flush (w : LogWriter) : Bool × LogWriter :=
  if !w.good then (false, w)
  else
    let w := {w with output := w.output.flush}
    if !w.output.goodbit then (false, w.fail "failed to flush telemetry log") else (true, w)

/-- The constructor; `now` is the system clock's answer. -/
def create (target : Target) (options : LogWriterOptions) (now : Int64) : LogWriter :=
  let w : LogWriter :=
    { options := options
      output := .closed target.device true
      error := ""
      recordCount := 0
      bytesWritten := 0 }
  if options.flushEveryRecords = 0 then w.fail "flush_every_records must be positive"
  else
    let w := if options.createdUnixNs = 0 then
        {w with options := {options with createdUnixNs := now}} else w
    if target.existsError then w.fail "failed to check whether output log already exists"
    else if target.alreadyExists then
      w.fail ("refusing to overwrite existing telemetry log: " ++ target.path)
    else if !target.opens then
      {w with output := .closed target.device false}.fail
        ("failed to open log for writing: " ++ target.path)
    else ({w with output := .openFile target.device}.writeFileHeader).2

/-- What `append` does once the payload has passed its checks: write the record, count it, flush
when a flush is due. -/
def appendPayload (payload : List UInt8) (collectorArrivalTimestampNs : Int64) (w : LogWriter) :
    Bool × LogWriter :=
  match w.writeBytes (recordHeader payload w.recordCount collectorArrivalTimestampNs) with
  | (false, w) => (false, w)
  | (true, w) =>
    match w.writeBytes payload with
    | (false, w) => (false, w)
    | (true, w) =>
      let w := {w with recordCount := w.recordCount + 1}
      if w.recordCount % w.options.flushEveryRecords = 0 then w.flush else (true, w)

def append (pb : Protobuf) (event : TelemetryEvent) (collectorArrivalTimestampNs : Int64)
    (w : LogWriter) : Bool × LogWriter :=
  if !w.good then (false, w)
  else if event.schemaVersion ≠ kTelemetrySchemaVersion then
    (false, w.fail "refusing to write an unsupported telemetry schema version")
  else match pb.serializeToString event with
  | none => (false, w.fail "failed to serialize telemetry event")
  | some payload =>
    if kMaximumPayloadSize.toNat < payload.length then
      (false, w.fail "telemetry payload exceeds the format limit")
    else w.appendPayload payload collectorArrivalTimestampNs

/-- Appends one after another. -/
def appendAll (pb : Protobuf) (records : List (TelemetryEvent × Int64)) (w : LogWriter) :
    LogWriter :=
  records.foldl (fun w record => (w.append pb record.1 record.2).2) w

/-- The destructor. -/
def close (w : LogWriter) : LogWriter :=
  if w.output.isOpen then {w with output := w.output.flush} else w

/-- A writer's whole life: constructed, appended to, destroyed. -/
def writeLog (pb : Protobuf) (target : Target) (options : LogWriterOptions) (now : Int64)
    (records : List (TelemetryEvent × Int64)) : LogWriter :=
  ((create target options now).appendAll pb records).close

end LogWriter

end TraceForge.Recording
