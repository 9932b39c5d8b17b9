import TraceForge.Generator.WorkloadGenerator
import TraceForge.Library.Decimal
import TraceForge.Replay.Engine

/-! The options of `traceforge collect`, `generate` and `replay` (`app/main.cpp`).

The three commands read their options alike: one after the other, an option that takes a value
together with the next argument. What differs is the table of options. Arguments are byte strings,
and an error is the text of the exception that ends the loop. -/
namespace TraceForge.App
open Library Generator
open Decimal
open Replay (ReplayOptions)

abbrev Text := List UInt8

/-! ### Values -/

/-- `parse_integer`. -/
def parseInteger (type : IntegerType) (value option : Text) : Except Text ℤ :=
  match fromChars type value with
  | ([], .ok parsed) => .ok parsed
  | _ => .error (utf8 "invalid value for " ++ option)

/-- `parse_probability`. -/
def parseProbability (value option : Text) : Except Text UInt32 :=
  (parseInteger uint64 value option).bind fun parsed =>
    if 2 ^ 32 - 1 < parsed then .error (utf8 "value is too large for " ++ option)
    else .ok (UInt32.ofNat parsed.toNat)

/-- `std::stod`: the number and how many characters of the text it is, or the exception's text. -/
abbrev Stod := Text → Except Text (Double × ℕ)

/-- `parse_speed`. -/
def parseSpeed (stod : Stod) (value : Text) : Except Text Double :=
  (stod value).bind fun (parsed, consumed) =>
    if consumed ≠ value.length || !parsed.isFinite || parsed.lessThan 0 then
      .error (utf8 "replay speed must be finite and non-negative")
    else .ok parsed

/-! ### The loop -/

/-- What a command does with the value of an option, given the option's name. -/
abbrev Setter (α : Type) := Text → Text → α → Except Text α

/-- The options of a command: those without a value, those with one, and what it says of others. -/
structure Command (α : Type) where
  flags : List (String × (α → α))
  options : List (String × Setter α)
  unknown : String

/-- The end of the loop over the arguments: the help was printed, or all options are read. -/
inductive Parsed (α : Type) where
  | help
  | options (o : α)
deriving DecidableEq

namespace Command

variable {α : Type}

def isHelp (option : Text) : Bool := option = utf8 "--help" || option = utf8 "-h"

/-- The entry of an option in a table. -/
def entry {β : Type} (table : List (String × β)) (option : Text) : Option β :=
  (table.find? fun entry => utf8 entry.1 = option).map Prod.snd

def parse (c : Command α) : List Text → α → Except Text (Parsed α)
  | [], o => .ok (.options o)
  | option :: rest, o =>
    if isHelp option then .ok .help
    else match entry c.flags option with
    | some set => c.parse rest (set o)
    | none =>
      match rest with
      | [] => .error (utf8 "missing value after " ++ option)
      | value :: rest =>
        match entry c.options option with
        | none => .error (utf8 c.unknown ++ option)
        | some set =>
          match set option value o with
          | .error message => .error message
          | .ok o => c.parse rest o

end Command

/-! ### Setters -/

section Setters
variable {α : Type}

/-- An integer that need only fit its type. -/
def setInteger (type : IntegerType) (set : ℤ → α → α) : Setter α := fun option value o =>
  (parseInteger type value option).map fun parsed => set parsed o

/-- An integer between two bounds. -/
def setBounded (type : IntegerType) (low high : ℤ) (message : String) (set : ℤ → α → α) :
    Setter α := fun option value o =>
  (parseInteger type value option).bind fun parsed =>
    if parsed < low ∨ high < parsed then .error (utf8 message) else .ok (set parsed o)

def setProbability (set : UInt32 → α → α) : Setter α := fun option value o =>
  (parseProbability value option).map fun parsed => set parsed o

def setText (set : Text → α → α) : Setter α := fun _ value o => .ok (set value o)

end Setters

/-! ### `collect` -/

/-- The delay is a count of microseconds. -/
structure CollectorOptions where
  listenAddress : Text := utf8 "0.0.0.0:50051"
  queueCapacity : UInt64 := 4096
  consumerDelay : Int64 := 0
  outputPath : Text := []
  flushEveryRecords : UInt64 := 64
deriving DecidableEq

def collectorCommand : Command CollectorOptions where
  flags := []
  options :=
    [("--listen", setText fun value o => { o with listenAddress := value }),
      ("--queue-capacity", setBounded uint64 1 1000000
        "queue capacity must be between 1 and 1000000"
        fun capacity o => { o with queueCapacity := UInt64.ofNat capacity.toNat }),
      ("--consumer-delay-us", setBounded int64 0 10000000
        "consumer delay must be between 0 and 10000000 us"
        fun delay o => { o with consumerDelay := Int64.ofInt delay }),
      ("--output", fun _ value o =>
        if value = [] then .error (utf8 "output path cannot be empty")
        else .ok { o with outputPath := value }),
      ("--flush-every", setBounded uint64 1 1000000
        "flush interval must be between 1 and 1000000"
        fun flushEvery o => { o with flushEveryRecords := UInt64.ofNat flushEvery.toNat })]
  unknown := "unknown collector option: "

/-- What `run_collector` makes of the arguments behind `collect`. -/
def parseCollector (args : List Text) : Except Text (Parsed CollectorOptions) :=
  match collectorCommand.parse args {} with
  | .ok (.options o) =>
    if o.outputPath ≠ [] ∧ 0 < o.consumerDelay then
      .error (utf8 "consumer delay cannot be combined with file recording")
    else .ok (.options o)
  | parsed => parsed

/-! ### `generate` -/

/-- The timeout is a count of milliseconds. -/
structure GeneratorOptions where
  config : GeneratorConfig := {}
  printEvents : Bool := false
  target : Text := []
  connectTimeout : Int64 := 5000
deriving DecidableEq

/-- Durations on the command line are in larger units than those of the configuration. -/
def generatorCommand : Command GeneratorOptions where
  flags := [("--print-events", fun o => { o with printEvents := true })]
  options :=
    [("--seed", setInteger uint64 fun seed o =>
        { o with config := { o.config with seed := UInt64.ofNat seed.toNat } }),
      ("--duration-ms", setBounded int64 1 3600000 "duration must be between 1 and 3600000 ms"
        fun durationMs o => { o with
          config := { o.config with duration := Int64.ofInt durationMs * 1000000 } }),
      ("--jitter-us", setBounded int64 0 3600000000 "jitter must be between 0 and 3600000000 us"
        fun jitterUs o => { o with
          config := { o.config with maxJitter := Int64.ofInt jitterUs * 1000 } }),
      ("--clock-drift-ppm", setInteger int64 fun drift o =>
        { o with config := { o.config with clockDriftPpm := Int64.ofInt drift } }),
      ("--drop-per-million", setProbability fun p o => { o with
        config := { o.config with faults := { o.config.faults with dropPerMillion := p } } }),
      ("--duplicate-per-million", setProbability fun p o => { o with
        config := { o.config with faults := { o.config.faults with duplicatePerMillion := p } } }),
      ("--reorder-per-million", setProbability fun p o => { o with
        config := { o.config with faults := { o.config.faults with reorderPerMillion := p } } }),
      ("--target", setText fun value o => { o with target := value }),
      ("--connect-timeout-ms", setBounded int64 1 60000
        "connect timeout must be between 1 and 60000 ms"
        fun timeoutMs o => { o with connectTimeout := Int64.ofInt timeoutMs })]
  unknown := "unknown generator option: "

/-- What `run_generator` makes of the arguments behind `generate`. -/
def parseGenerator (args : List Text) : Except Text (Parsed GeneratorOptions) :=
  generatorCommand.parse args {}

/-! ### `replay` -/

structure ReplayCommandOptions where
  options : ReplayOptions := {}
  printEvents : Bool := false

def replayCommand (stod : Stod) : Command ReplayCommandOptions where
  flags := [("--print-events", fun o => { o with printEvents := true })]
  options :=
    [("--from-ns", setInteger int64 fun first o => { o with
        options := { o.options with fromCollectorTimestampNs := some (Int64.ofInt first) } }),
      ("--until-ns", setInteger int64 fun last o => { o with
        options := { o.options with untilCollectorTimestampNs := some (Int64.ofInt last) } }),
      ("--speed", fun _ value o => (parseSpeed stod value).map fun speed =>
        { o with options := { o.options with speed := speed } })]
  unknown := "unknown replay option: "

/-- What `run_replay` makes of the arguments behind the file. -/
def parseReplay (stod : Stod) (args : List Text) : Except Text (Parsed ReplayCommandOptions) :=
  (replayCommand stod).parse args {}

end TraceForge.App
