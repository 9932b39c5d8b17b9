import Mathlib.Data.List.Sort
import TraceForge.Library.Search
import TraceForge.Recording.Reader

/-! `ReplayEngine` (`replay/replay.cpp`).

The engine is an index sorted by collector timestamp; a replay walks a window of it over the file
as it is at that time. A walk has two parts. The `Cursor` is the file's stream and where the last
payload ended, which decides between skipping a header and seeking. The `Delivery` is everything
else: the result, the consumer's calls and the pacing. A consumer answers from the records it has
been called with, so it may keep a state of its own. Sleeping is remembered as the recording time
that each paced record lies behind the first. -/
namespace TraceForge.Replay
open Library Telemetry Recording

structure ReplayOptions where
  fromCollectorTimestampNs : Option Int64 := none
  untilCollectorTimestampNs : Option Int64 := none
  speed : Double := ⟨0⟩

inductive ReplayStatus where
  | complete
  | invalidOptions
  | logError
  | ioError
  | consumerError
deriving DecidableEq

structure ReplayResult where
  status : ReplayStatus := .logError
  indexedRecords : UInt64 := 0
  replayedRecords : UInt64 := 0
  hash : UInt64 := 0
  firstTimestampNs : Option Int64 := none
  lastTimestampNs : Option Int64 := none
  message : String := ""
deriving DecidableEq

/-- `std::function<bool(const LogRecord&)>`, possibly empty. -/
abbrev ReplayConsumer := Option (List LogRecord → LogRecord → Bool)

/-! ### The hash -/

def kFnvOffsetBasis : UInt64 := 14695981039346656037
def kFnvPrime : UInt64 := 1099511628211

def hashByte (hash : UInt64) (byte : UInt8) : UInt64 := (hash ^^^ byte.toUInt64) * kFnvPrime

/-- Hashes the `size` low bytes of `value`, the lowest first. -/
def hashLittleEndian : Nat → UInt64 → UInt64 → UInt64
  | 0, hash, _ => hash
  | size + 1, hash, remaining =>
    hashLittleEndian size (hashByte hash (remaining &&& 0xFF).toUInt8) (remaining >>> 8)

def hashRecord (hash recordIndex : UInt64) (collectorArrivalTimestampNs : Int64)
    (payload : List UInt8) : UInt64 :=
  let hash := hashLittleEndian 8 hash recordIndex
  let hash := hashLittleEndian 8 hash collectorArrivalTimestampNs.toUInt64
  let hash := hashLittleEndian 4 hash (UInt32.ofNat payload.length).toUInt64
  payload.foldl hashByte hash

/-! ### The index -/

/-- The comparison the index is sorted by. -/
def comesBefore (left right : LogIndexEntry) : Bool :=
  if left.collectorArrivalTimestampNs ≠ right.collectorArrivalTimestampNs then
    decide (left.collectorArrivalTimestampNs < right.collectorArrivalTimestampNs)
  else decide (left.recordIndex < right.recordIndex)

structure ReplayEngine where
  index : List LogIndexEntry
  error : String

namespace ReplayEngine

/-- The constructor. -/
def create (pb : Protobuf) (access : Access) (file : File) (maximumRecords : UInt64) :
    ReplayEngine :=
  let log := readLog pb access file {maximumRecords := maximumRecords, retainRecords := false}
  if log.status ≠ .complete then
    {index := [], error := "cannot index telemetry log: " ++ log.message}
  else
    { index := log.index.insertionSort fun left right => comesBefore right left = false
      error := "" }

def good (engine : ReplayEngine) : Bool := engine.error == ""

end ReplayEngine

/-! ### One payload -/

/-- A cleared stream skips the header when the record follows the last payload, and seeks to the
payload otherwise. The bytes come back when all of them could be read. -/
def readPayload (sequentialRecord : Bool) (entry : LogIndexEntry) (input : IFStream) :
    Option (List UInt8) × IFStream :=
  let input := input.clear
  let input :=
    if sequentialRecord then input.ignore kRecordHeaderSize.toNat
    else input.seekg (entry.fileOffset + kRecordHeaderSize).toInt64
  if input.fail then (none, input)
  else
    let (payload, input) := input.read entry.payloadSize.toNat
    if payload.length = entry.payloadSize.toNat then (some payload, input) else (none, input)

structure Cursor where
  input : IFStream
  nextPhysicalOffset : Option UInt64

namespace Cursor

def openFile (file : File) : Cursor := ⟨.openFile file, none⟩

/-- Reads an entry's payload and notes where it ended; with `skips` off every entry is sought. -/
def payload (skips : Bool) (entry : LogIndexEntry) (c : Cursor) : Option (List UInt8) × Cursor :=
  let sequentialRecord := skips && c.nextPhysicalOffset == some entry.fileOffset
  let (payload, input) := readPayload sequentialRecord entry c.input
  (payload,
    { input := input
      nextPhysicalOffset :=
        some (entry.fileOffset + kRecordHeaderSize + entry.payloadSize.toUInt64) })

end Cursor

/-! ### One delivery -/

structure Delivery where
  result : ReplayResult
  replayOriginNs : Option Int64
  calls : List LogRecord
  waits : List Int
deriving DecidableEq

namespace Delivery

def finish (status : ReplayStatus) (message : String) (d : Delivery) : Delivery :=
  {d with result := {d.result with status := status, message := message}}

/-- The first paced record sets the origin; every one waits for its distance from it. -/
def pace (options : ReplayOptions) (timestamp : Int64) (d : Delivery) : Delivery :=
  if options.speed.greaterThan 0 then
    let origin := d.replayOriginNs.getD timestamp
    {d with
      replayOriginNs := some origin
      waits := d.waits ++ [timestamp.toInt - origin.toInt]}
  else d

/-- What a round does with a payload it could read: an error ends the replay. -/
def deliver (pb : Protobuf) (options : ReplayOptions) (consumer : ReplayConsumer)
    (entry : LogIndexEntry) (payload : List UInt8) (d : Delivery) : Except Delivery Delivery :=
  if crc32c payload ≠ entry.payloadCrc32c then
    .error (d.finish .logError "record payload changed after index construction")
  else match pb.parseFromArray payload with
  | none => .error (d.finish .logError "indexed telemetry payload is no longer valid")
  | some event =>
    if event.schemaVersion ≠ kTelemetrySchemaVersion ∨
        event.sourceTimestampNs ≠ entry.sourceTimestampNs then
      .error (d.finish .logError "indexed telemetry payload is no longer valid")
    else
      let timestamp := entry.collectorArrivalTimestampNs
      let record : LogRecord :=
        { recordIndex := entry.recordIndex
          fileOffset := entry.fileOffset
          collectorArrivalTimestampNs := timestamp
          event := event }
      let d := d.pace options timestamp
      let d := {d with result := {d.result with
        hash := hashRecord d.result.hash record.recordIndex timestamp payload}}
      let accepted := consumer.all fun consume => consume d.calls record
      let d := {d with calls := d.calls ++ if consumer.isSome then [record] else []}
      if !accepted then .error (d.finish .consumerError "replay consumer rejected a record")
      else .ok {d with result := {d.result with
        firstTimestampNs := some (d.result.firstTimestampNs.getD timestamp)
        lastTimestampNs := some timestamp
        replayedRecords := d.result.replayedRecords + 1}}

end Delivery

/-! ### The replay -/

/-- Whether an entry lies at or behind the window's end. -/
def pastWindow (options : ReplayOptions) (entry : LogIndexEntry) : Bool :=
  options.untilCollectorTimestampNs.any fun last =>
    decide (last ≤ entry.collectorArrivalTimestampNs)

def replayRecords (pb : Protobuf) (options : ReplayOptions) (consumer : ReplayConsumer)
    (skips : Bool) : List LogIndexEntry → Cursor → Delivery → Delivery
  | [], _, d => d.finish .complete "replay completed"
  | entry :: rest, c, d =>
    if pastWindow options entry then d.finish .complete "replay completed"
    else match c.payload skips entry with
    | (none, _) => d.finish .ioError "failed to read indexed record payload"
    | (some payload, c) =>
      match d.deliver pb options consumer entry payload with
      | .error d => d
      | .ok d => replayRecords pb options consumer skips rest c d

namespace ReplayEngine

/-- The first entry of the window. -/
def current (options : ReplayOptions) (engine : ReplayEngine) : List LogIndexEntry :=
  match options.fromCollectorTimestampNs with
  | none => engine.index
  | some first =>
    engine.index.drop (Search.lowerBound
      (fun entry => decide (entry.collectorArrivalTimestampNs < first)) engine.index)

/-- `replay` on the file's content at that time, `none` when it cannot be opened. -/
def replayWith (skips : Bool) (pb : Protobuf) (content : Option File) (options : ReplayOptions)
    (consumer : ReplayConsumer) (engine : ReplayEngine) : Delivery :=
  let d : Delivery :=
    { result :=
        { indexedRecords := UInt64.ofNat engine.index.length
          hash := kFnvOffsetBasis }
      replayOriginNs := none
      calls := []
      waits := [] }
  if !engine.good then d.finish .logError engine.error
  else if !options.speed.isFinite || options.speed.lessThan 0 then
    d.finish .invalidOptions "replay speed must be finite and non-negative"
  else if options.untilCollectorTimestampNs.any fun last =>
      options.fromCollectorTimestampNs.any fun first => decide (last ≤ first) then
    d.finish .invalidOptions "until timestamp must be greater than from timestamp"
  else match content with
  | none => d.finish .ioError "failed to open indexed telemetry log"
  | some file =>
    replayRecords pb options consumer skips (engine.current options) (.openFile file) d

def replay (pb : Protobuf) (content : Option File) (options : ReplayOptions)
    (consumer : ReplayConsumer) (engine : ReplayEngine) : Delivery :=
  engine.replayWith true pb content options consumer

/-- The replay of the always-seek baseline, which never skips. -/
def replayAlwaysSeek (pb : Protobuf) (content : Option File) (options : ReplayOptions)
    (consumer : ReplayConsumer) (engine : ReplayEngine) : Delivery :=
  engine.replayWith false pb content options consumer

end ReplayEngine

end TraceForge.Replay
