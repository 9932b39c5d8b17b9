import TraceForge.App.CollectorExit
import TraceForge.Telemetry.CrashedLog

/-! What is left when `traceforge collect` does not come to its end.

The process is killed, or the machine stops, at any moment; the disk has what was flushed and perhaps
a part of the rest. `recover` accepts what is left once the file's header is on disk, and then every
command finds the first of the acknowledged events in it; how many may be missing, the options of the
command line say (`collector_crashes`). -/
namespace TraceForge.App
open Library Concurrency Telemetry Recording
open Pipeline (Behind serve_cases)

variable {pb : Protobuf}

/-! ### Recovering -/

namespace CollectorProcess

end CollectorProcess

end TraceForge.App
