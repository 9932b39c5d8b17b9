import TraceForge.Concurrency.Wakeup
import TraceForge.Telemetry.OfferedEvents
import TraceForge.Telemetry.CollectorLog
import TraceForge.Telemetry.ValidationHistory
import TraceForge.Library.Machine
import TraceForge.Recording.RoundTrip
import TraceForge.Recording.Tails
import TraceForge.Recording.FailStop
import TraceForge.Recording.Rounds
import TraceForge.Recording.RecordLimit
import TraceForge.Recording.Corruption
import TraceForge.Recording.ValidatedEvents
import TraceForge.Replay.Pacing
import TraceForge.Replay.Hashes
import TraceForge.Phone.Interleaving
import TraceForge.Phone.Numbering
import TraceForge.Phone.SampleStats
import TraceForge.Analysis.Gaps
import TraceForge.Analysis.Timing
import TraceForge.Generator.Progress
import TraceForge.Generator.Generation
import TraceForge.Generator.Draws
import TraceForge.Generator.ExactSchedule
import TraceForge.Generator.EventLimit
import TraceForge.Pipeline.Analyzed
import TraceForge.Pipeline.Losses
import TraceForge.Pipeline.Capacity
import TraceForge.Pipeline.Uploaded
import TraceForge.App.OptionProofs
import TraceForge.App.CommandProofs
import TraceForge.App.CollectorShutdown
import TraceForge.App.CollectorCrash
import TraceForge.App.Deployment
import TraceForge.App.GeneratorExit
