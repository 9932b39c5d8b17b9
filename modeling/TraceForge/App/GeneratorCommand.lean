import TraceForge.Analysis.Analyzer
import TraceForge.App.Options
import TraceForge.Generator.WorkloadPublisher

/-! `traceforge generate` (`run_generator` in `app/main.cpp`).

The command reads its options, generates and prints; with a target it then publishes what it has
generated and returns when the publish does. What is printed is kept as the values that go into the
lines, not as text. -/
namespace TraceForge.App
open Library Telemetry Generator

/-! ### What is printed -/

/-- A line of `--print-events`. -/
structure EventLine where
  sourceTimestampNs : Int64
  producerId : List UInt8
  sequenceNumber : UInt64
  payload : String
deriving DecidableEq

def eventLine (event : TelemetryEvent) : EventLine where
  sourceTimestampNs := event.sourceTimestampNs
  producerId := event.producerId
  sequenceNumber := event.sequenceNumber
  payload := Analysis.payloadName event.payload

/-- The line that begins with `seed`. -/
structure WorkloadLine where
  seed : UInt64
  generated : UInt64
  emitted : ℕ
  dropped : UInt64
  duplicated : UInt64
  reorderedPairs : UInt64
  hash : UInt64
deriving DecidableEq

def workloadLine (seed : UInt64) (workload : GeneratedWorkload) : WorkloadLine where
  seed := seed
  generated := workload.stats.generatedEvents
  emitted := workload.events.length
  dropped := workload.stats.droppedEvents
  duplicated := workload.stats.duplicatedEvents
  reorderedPairs := workload.stats.reorderedPairs
  hash := workload.hash

/-- The line that begins with `publish_target`; before it comes a line for each producer's result. -/
structure PublishLine where
  target : Text
  producers : ℕ
  attempted : UInt64
  accepted : UInt64
  success : Bool
deriving DecidableEq

def publishLine (target : Text) (report : PublishReport) : PublishLine where
  target := target
  producers := report.producers.length
  attempted := report.attemptedEvents
  accepted := report.acceptedEvents
  success := report.succeeded

/-! ### The command -/

/-- What is left to do once the workload's line is printed. -/
inductive Publication where
  /-- Nothing; the command returns 0. -/
  | nowhere
  /-- The publisher's constructor throws; the command returns 2. -/
  | refused (message : Text)
  | to (publisher : WorkloadPublisher)

/-- What becomes of a command line. -/
inductive GeneratorLaunch where
  | help
  /-- The text on stderr; the command returns 2. -/
  | fails (message : Text)
  | generates (printed : List EventLine) (line : WorkloadLine) (workload : GeneratedWorkload)
    (publication : Publication)

/-- The line and the workload of a command that goes on to publish. -/
def GeneratorLaunch.toPublish : GeneratorLaunch → Option (WorkloadLine × GeneratedWorkload)
  | .generates _ line workload (.to _) => some (line, workload)
  | _ => none

theorem GeneratorLaunch.toPublish_eq_some {launch : GeneratorLaunch} {line : WorkloadLine}
    {workload : GeneratedWorkload} (h : launch.toPublish = some (line, workload)) :
    ∃ printed publisher, launch = .generates printed line workload (.to publisher) := by
  unfold toPublish at h
  split at h
  · cases h
    exact ⟨_, _, rfl⟩
  · cases h

def generatorError (message : Text) : Text := utf8 "Generator error: " ++ message

def publication (o : GeneratorOptions) : Publication :=
  if o.target = [] then .nowhere
  else match WorkloadPublisher.create o.target o.connectTimeout with
  | .error message => .refused (generatorError (utf8 message))
  | .ok publisher => .to publisher

/-- `args` are the arguments behind `generate`. -/
def runGenerator (pb : Protobuf) (engine : UInt64 → RandomEngine) (args : List Text) :
    GeneratorLaunch :=
  match parseGenerator args with
  | .error message => .fails (generatorError message)
  | .ok .help => .help
  | .ok (.options o) =>
    match WorkloadGenerator.create o.config >>= generate pb engine with
    | .error message => .fails (generatorError (utf8 message))
    | .ok workload =>
      .generates (if o.printEvents then workload.events.map eventLine else [])
        (workloadLine o.config.seed workload) workload (publication o)

/-- The exit code of a publish that has returned. -/
def publishCode (report : PublishReport) : Int32 := if report.succeeded then 0 else 3

theorem publishCode_zero {report : PublishReport} : publishCode report = 0 ↔ report.succeeded := by
  unfold publishCode
  cases report.succeeded <;> decide

/-! ### Its workload -/

theorem create_config {config : GeneratorConfig} {g : WorkloadGenerator}
    (h : WorkloadGenerator.create config = .ok g) : g.config = config := by
  unfold WorkloadGenerator.create at h
  split at h
  · cases h
  · cases h
    rfl

/-- A command that generates has read its options, and its generator's constructor let them pass. -/
theorem generates_cases {pb : Protobuf} {engine : UInt64 → RandomEngine} {args : List Text}
    {printed : List EventLine} {line : WorkloadLine} {workload : GeneratedWorkload}
    {next : Publication} (h : runGenerator pb engine args = .generates printed line workload next) :
    ∃ o g, parseGenerator args = .ok (.options o) ∧ g.config = o.config ∧
      generate pb engine g = .ok workload ∧
      printed = (if o.printEvents then workload.events.map eventLine else []) ∧
      line = workloadLine o.config.seed workload ∧ next = publication o := by
  unfold runGenerator at h
  split at h
  · cases h
  · cases h
  rename_i o hargs
  split at h
  · cases h
  rename_i workload' hworkload
  cases h
  cases hcreate : WorkloadGenerator.create o.config with
  | error message =>
    rw [hcreate] at hworkload
    cases hworkload
  | ok g =>
    rw [hcreate] at hworkload
    exact ⟨o, g, hargs, create_config hcreate, hworkload, rfl, rfl, rfl⟩

end TraceForge.App
