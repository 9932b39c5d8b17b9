import Mathlib.Logic.Function.Basic
import TraceForge.Concurrency.BoundedQueue
import TraceForge.Library.Machine

/-! `QueuedTelemetrySink` (`telemetry/queued_sink.cpp`) as a machine.

Any number of callers, the consumer thread and whoever shuts the sink down take their steps in any
order. A step is one atomic access: a load or a store of the accepting flag, one operation of the
queue, the beginning and the end of a `consume`. The flag is relaxed: a load may still see the
value it had at first, but `false` is seen only after it was stored.

The state also remembers what has happened: the events pushed, the answers given, the calls of
`consume` and what they returned. No step reads these. -/
namespace TraceForge.Telemetry
open Library Concurrency

inductive SinkResult where
  | accepted
  | overloaded
  | unavailable
deriving DecidableEq

/-- Where the consumer thread is in `consume_loop`. -/
inductive Consumer (Event : Type) where
  | waiting
  | popped (event : Event)
  | consuming (event : Event)
  | counting
  | countingFailure
  | disabling
  | closing
  | finished
deriving DecidableEq

/-- Where `shutdown` is. -/
inductive Shutdown where
  | idle
  | disabled
  | closed
deriving DecidableEq

structure IngestionStats where
  queue : BoundedQueueStats
  consumedEvents : UInt64
  consumerFailures : UInt64
  acceptingEvents : Bool
deriving DecidableEq

/-- `callers i` is the event that caller `i` has in `try_accept`, past the flag. -/
structure QueuedSink (Caller Event : Type) where
  queue : BoundedQueue Event
  acceptingEvents : Bool
  consumedEvents : UInt64
  consumerFailures : UInt64
  callers : Caller → Option Event
  consumer : Consumer Event
  joinable : Bool
  shutdown : Shutdown
  pushed : List Event
  answers : List (Caller × Event × SinkResult)
  calls : List Event
  returns : List (Event × Bool)
  shutdowns : Nat

namespace QueuedSink

variable {Caller Event : Type}

/-- The constructor, with the consumer thread started. -/
def start (Caller : Type) {Event : Type} (queue : BoundedQueue Event) : QueuedSink Caller Event where
  queue := queue
  acceptingEvents := true
  consumedEvents := 0
  consumerFailures := 0
  callers := fun _ => none
  consumer := .waiting
  joinable := true
  shutdown := .idle
  pushed := []
  answers := []
  calls := []
  returns := []
  shutdowns := 0

def stats (s : QueuedSink Caller Event) : IngestionStats where
  queue := s.queue.stats
  consumedEvents := s.consumedEvents
  consumerFailures := s.consumerFailures
  acceptingEvents := s.acceptingEvents

/-! ### `try_accept` -/

section Callers
variable [DecidableEq Caller]

/-- The flag is loaded and `seen`; on `false` the call returns its answer, otherwise it goes on. -/
def load (i : Caller) (event : Event) (seen : Bool) (s : QueuedSink Caller Event) :
    Option (Option SinkResult × QueuedSink Caller Event) :=
  if s.callers i ≠ none then none
  else if seen then some (none, {s with callers := Function.update s.callers i (some event)})
  else if s.acceptingEvents then none
  else some (some .unavailable, {s with answers := s.answers ++ [(i, event, .unavailable)]})

def sinkResult : QueuePushResult → SinkResult
  | .accepted => .accepted
  | .full => .overloaded
  | .closed => .unavailable

def push (i : Caller) (s : QueuedSink Caller Event) :
    Option (SinkResult × QueuedSink Caller Event) :=
  match s.callers i with
  | none => none
  | some event =>
    let (result, queue) := s.queue.tryPush event
    some (sinkResult result, {s with
      queue := queue
      callers := Function.update s.callers i none
      pushed := if result = .accepted then s.pushed ++ [event] else s.pushed
      answers := s.answers ++ [(i, event, sinkResult result)]})

end Callers

/-! ### `consume_loop` -/

def pop (s : QueuedSink Caller Event) : Option (QueuedSink Caller Event) :=
  match s.consumer with
  | .waiting =>
    match s.queue.waitPop with
    | none => none
    | some (none, queue) => some {s with queue := queue, consumer := .finished}
    | some (some event, queue) => some {s with queue := queue, consumer := .popped event}
  | _ => none

def call (s : QueuedSink Caller Event) : Option (QueuedSink Caller Event) :=
  match s.consumer with
  | .popped event => some {s with consumer := .consuming event, calls := s.calls ++ [event]}
  | _ => none

/-- `consume` returns `ok`. -/
def consumeReturns (ok : Bool) (s : QueuedSink Caller Event) :
    Option (QueuedSink Caller Event) :=
  match s.consumer with
  | .consuming event => some {s with
      consumer := if ok then .counting else .countingFailure
      returns := s.returns ++ [(event, ok)]}
  | _ => none

/-- The statements of the loop that only touch the counters, the flag and the queue. -/
def advance (s : QueuedSink Caller Event) : Option (QueuedSink Caller Event) :=
  match s.consumer with
  | .counting => some {s with consumedEvents := s.consumedEvents + 1, consumer := .waiting}
  | .countingFailure => some {s with
      consumerFailures := s.consumerFailures + 1
      consumer := .disabling}
  | .disabling => some {s with acceptingEvents := false, consumer := .closing}
  | .closing => some {s with queue := s.queue.close, consumer := .finished}
  | _ => none

/-! ### `shutdown` -/

/-- The next statement of `shutdown`. Joining waits for the consumer thread; a thread that has
been joined is not joined again. One call runs at a time, as joining one thread requires. -/
def shutdownStep (s : QueuedSink Caller Event) : Option (QueuedSink Caller Event) :=
  match s.shutdown with
  | .idle => some {s with acceptingEvents := false, shutdown := .disabled}
  | .disabled => some {s with queue := s.queue.close, shutdown := .closed}
  | .closed =>
    if s.joinable then
      match s.consumer with
      | .finished =>
        some {s with joinable := false, shutdown := .idle, shutdowns := s.shutdowns + 1}
      | _ => none
    else some {s with shutdown := .idle, shutdowns := s.shutdowns + 1}

/-! ### The machine -/

inductive Action (Caller Event : Type) where
  | load (i : Caller) (event : Event) (seen : Bool)
  | push (i : Caller)
  | pop
  | call
  | consumeReturns (ok : Bool)
  | advance
  | shutdown

def step [DecidableEq Caller] (s : QueuedSink Caller Event) :
    Action Caller Event → Option (QueuedSink Caller Event)
  | .load i event seen => (s.load i event seen).map Prod.snd
  | .push i => (s.push i).map Prod.snd
  | .pop => s.pop
  | .call => s.call
  | .consumeReturns ok => s.consumeReturns ok
  | .advance => s.advance
  | .shutdown => s.shutdownStep

def machine [DecidableEq Caller] (queue : BoundedQueue Event) :
    Machine (QueuedSink Caller Event) (Action Caller Event) where
  init := start Caller queue
  step := step

/-! ### What has happened -/

/-- The event in the consumer's hands. -/
def inHand (s : QueuedSink Caller Event) : List Event :=
  match s.consumer with
  | .popped event | .consuming event => [event]
  | _ => []

/-- The events `consume` returned true on. -/
def consumed (s : QueuedSink Caller Event) : List Event :=
  (s.returns.filter fun r => r.2).map Prod.fst

/-- The events `consume` returned false on. -/
def refused (s : QueuedSink Caller Event) : List Event :=
  (s.returns.filter fun r => !r.2).map Prod.fst

end QueuedSink

end TraceForge.Telemetry
