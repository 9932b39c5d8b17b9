import TraceForge.Library.Streams
import TraceForge.Recording.Format

/-! `read_log`: the reader of `recording/log.cpp`.

One round of the record loop is `readRecord`; `readRecords` repeats it while the offset is below
the file size. Every check is the source's, in its order, with its status and message. Offsets
and sizes are 64-bit and wrap as the source's would. -/
namespace TraceForge.Recording
open Library Telemetry

inductive LogReadStatus where
  | complete
  | truncatedTail
  | corrupt
  | ioError
  | resourceLimit
deriving DecidableEq

structure LogRecord where
  recordIndex : UInt64
  fileOffset : UInt64
  collectorArrivalTimestampNs : Int64
  event : TelemetryEvent
deriving DecidableEq

structure LogIndexEntry where
  recordIndex : UInt64
  fileOffset : UInt64
  payloadSize : UInt32
  payloadCrc32c : UInt32
  collectorArrivalTimestampNs : Int64
  sourceTimestampNs : Int64
deriving DecidableEq

structure LogReadOptions where
  maximumRecords : UInt64 := 1000000
  retainRecords : Bool := true

structure LogReadResult where
  status : LogReadStatus := .ioError
  createdUnixNs : Int64 := 0
  fileSize : UInt64 := 0
  validBytes : UInt64 := 0
  errorOffset : UInt64 := 0
  message : String := ""
  index : List LogIndexEntry := []
  records : List LogRecord := []
deriving DecidableEq

/-- What the operating system answers about the log's path. -/
structure Access where
  sizeKnown : Bool
  opens : Bool
  resizes : Bool

def Access.granted : Access := ⟨true, true, true⟩

/-- What `file_size` returns next to an error: the largest value there is. -/
def fileSizeUnknown : UInt64 := 0xFFFFFFFFFFFFFFFF

def makeFailure (result : LogReadResult) (status : LogReadStatus) (offset : UInt64)
    (message : String) : LogReadResult :=
  {result with status := status, errorOffset := offset, message := message}

/-- `none` when fewer than `n` bytes came. -/
def readExact (n : Nat) (input : IFStream) : Option (List UInt8 × IFStream) :=
  if (input.read n).1.length = n then some (input.read n) else none

/-! ### The checks -/

/-- The message of the first file-header check that fails. -/
def checkFileHeader (fileHeader : List UInt8) : Option String :=
  if fileHeader.take 8 ≠ kFileMagic then some "invalid log magic"
  else if decodeLittleEndian 2 fileHeader 8 ≠ kLogFormatVersion ∨
      decodeLittleEndian 2 fileHeader 10 ≠ kFileHeaderSize then
    some "unsupported log header version or size"
  else if (decodeLittleEndian 4 fileHeader 28).toUInt32 ≠ crc32c (fileHeader.take 28) then
    some "file header checksum mismatch"
  else none

/-- The first check of a complete record header that fails. -/
def checkRecordHeader (recordHeader : List UInt8) : Option (LogReadStatus × String) :=
  if recordHeader.take 4 ≠ kRecordMagic then some (.corrupt, "invalid record magic")
  else if decodeLittleEndian 2 recordHeader 4 ≠ kRecordHeaderSize ∨
      decodeLittleEndian 2 recordHeader 6 ≠ kRecordFormatVersion then
    some (.corrupt, "unsupported record header version or size")
  else if (decodeLittleEndian 4 recordHeader 32).toUInt32 ≠ crc32c (recordHeader.take 32) then
    some (.corrupt, "record header checksum mismatch")
  else if kMaximumPayloadSize < (decodeLittleEndian 4 recordHeader 8).toUInt32 then
    some (.resourceLimit, "record payload exceeds format limit")
  else none

/-- The checks of a complete record, once its header has passed. -/
def checkRecordPayload (pb : Protobuf) (expectedRecordIndex : UInt64)
    (recordHeader payload : List UInt8) : Except (LogReadStatus × String) TelemetryEvent :=
  if (decodeLittleEndian 4 recordHeader 12).toUInt32 ≠ crc32c payload then
    .error (.corrupt, "record payload checksum mismatch")
  else if decodeLittleEndian 8 recordHeader 16 ≠ expectedRecordIndex then
    .error (.corrupt, "record index is not contiguous")
  else match pb.parseFromArray payload with
    | none => .error (.corrupt, "telemetry payload is not valid Protobuf")
    | some event =>
      if event.schemaVersion ≠ kTelemetrySchemaVersion then
        .error (.corrupt, "unsupported telemetry schema version")
      else .ok event

/-! ### The record loop -/

/-- The loop's variables. -/
structure Reading where
  input : IFStream
  result : LogReadResult
  offset : UInt64
  expectedRecordIndex : UInt64

/-- What a round does with a record that passed: index it, keep it if asked, move on. -/
def Reading.accept (options : LogReadOptions) (reading : Reading) (input : IFStream)
    (recordHeader : List UInt8) (event : TelemetryEvent) : Reading :=
  let payloadSize := (decodeLittleEndian 4 recordHeader 8).toUInt32
  let record : LogRecord :=
    { recordIndex := decodeLittleEndian 8 recordHeader 16
      fileOffset := reading.offset
      collectorArrivalTimestampNs := (decodeLittleEndian 8 recordHeader 24).toInt64
      event := event }
  let entry : LogIndexEntry :=
    { recordIndex := record.recordIndex
      fileOffset := reading.offset
      payloadSize := payloadSize
      payloadCrc32c := (decodeLittleEndian 4 recordHeader 12).toUInt32
      collectorArrivalTimestampNs := record.collectorArrivalTimestampNs
      sourceTimestampNs := event.sourceTimestampNs }
  let offset := reading.offset + (kRecordHeaderSize + payloadSize.toUInt64)
  { input := input
    result := {reading.result with
      index := reading.result.index ++ [entry]
      records := if options.retainRecords then reading.result.records ++ [record]
        else reading.result.records
      validBytes := offset}
    offset := offset
    expectedRecordIndex := reading.expectedRecordIndex + 1 }

/-- One round of the record loop: the variables after it, or the result it returns. -/
def readRecord (pb : Protobuf) (options : LogReadOptions) (reading : Reading) :
    Except LogReadResult Reading :=
  let refuse (failure : LogReadStatus × String) : Except LogReadResult Reading :=
    .error (makeFailure reading.result failure.1 reading.offset failure.2)
  if reading.result.index.length = options.maximumRecords.toNat then
    refuse (.resourceLimit, "record-count limit reached")
  else if reading.result.fileSize - reading.offset < kRecordHeaderSize then
    refuse (.truncatedTail, "final record header is incomplete")
  else match readExact kRecordHeaderSize.toNat reading.input with
  | none => refuse (.ioError, "failed to read record header")
  | some (recordHeader, input) =>
    match checkRecordHeader recordHeader with
    | some failure => refuse failure
    | none =>
      let payloadSize := (decodeLittleEndian 4 recordHeader 8).toUInt32
      if reading.result.fileSize - reading.offset - kRecordHeaderSize < payloadSize.toUInt64 then
        refuse (.truncatedTail, "final record payload is incomplete")
      else match readExact payloadSize.toNat input with
      | none => refuse (.ioError, "failed to read record payload")
      | some (payload, input) =>
        match checkRecordPayload pb reading.expectedRecordIndex recordHeader payload with
        | .error failure => refuse failure
        | .ok event => .ok (reading.accept options input recordHeader event)

/-- Bytes the stream has not delivered yet. -/
def Reading.remaining (reading : Reading) : Nat :=
  reading.input.file.bytes.length - reading.input.pos

theorem readExact_pos {n : Nat} {input next : IFStream} {bytes : List UInt8}
    (h : readExact n input = some (bytes, next)) :
    next.file = input.file ∧ next.pos = input.pos + n ∧
      (0 < n → input.pos < input.file.bytes.length) := by
  unfold readExact at h
  split at h
  · rename_i hlen
    have hnext : next = (input.read n).2 := by rw [Option.some.inj h]
    have hle := IFStream.read_length_le input n
    refine ⟨hnext ▸ IFStream.read_file input n, ?_, fun hn => by omega⟩
    rw [hnext, IFStream.read_pos, hlen]
  · cases h

/-- A round that goes on has consumed at least a header. -/
theorem readRecord_consumes {pb : Protobuf} {options : LogReadOptions} {reading next : Reading}
    (h : readRecord pb options reading = .ok next) : next.remaining < reading.remaining := by
  unfold readRecord at h
  simp only at h
  split at h
  · cases h
  split at h
  · cases h
  split at h
  · cases h
  rename_i recordHeader input hheader
  split at h
  · cases h
  split at h
  · cases h
  split at h
  · cases h
  rename_i payload input' hpayload
  split at h
  · cases h
  cases h
  obtain ⟨hf, hp, hin⟩ := readExact_pos hheader
  obtain ⟨hf', hp', _⟩ := readExact_pos hpayload
  have hlt := hin (by decide)
  rw [kRecordHeaderSize_toNat] at hp
  simp only [Reading.remaining, Reading.accept, hf', hf, hp', hp]
  omega

def readRecords (pb : Protobuf) (options : LogReadOptions) (reading : Reading) : LogReadResult :=
  if reading.offset < reading.result.fileSize then
    match h : readRecord pb options reading with
    | .error result => result
    | .ok next =>
      have := readRecord_consumes h
      readRecords pb options next
  else {reading.result with status := .complete, message := "log is complete"}
termination_by reading.remaining

/-- The variables when the file header has passed. -/
def startReading (file : File) (fileHeader : List UInt8) (input : IFStream) : Reading :=
  { input := input
    result :=
      { fileSize := file.size
        createdUnixNs := (decodeLittleEndian 8 fileHeader 16).toInt64
        validBytes := kFileHeaderSize }
    offset := kFileHeaderSize
    expectedRecordIndex := 0 }

def readLog (pb : Protobuf) (access : Access) (file : File) (options : LogReadOptions) :
    LogReadResult :=
  if !access.sizeKnown then
    makeFailure {fileSize := fileSizeUnknown} .ioError 0 "failed to determine log file size"
  else
    let result : LogReadResult := {fileSize := file.size}
    if !access.opens then makeFailure result .ioError 0 "failed to open log file"
    else if result.fileSize < kFileHeaderSize then
      makeFailure result .corrupt 0 "file header is incomplete"
    else match readExact kFileHeaderSize.toNat (IFStream.openFile file) with
    | none => makeFailure result .ioError 0 "failed to read file header"
    | some (fileHeader, input) =>
      match checkFileHeader fileHeader with
      | some message => makeFailure result .corrupt 0 message
      | none => readRecords pb options (startReading file fileHeader input)

end TraceForge.Recording
