import TraceForge.Library.Machine
import TraceForge.Library.Slot

/-! The phone client's telemetry controller.

`start` and `stop` are asynchronous: each runs until it awaits a future and goes on when that
future completes, and in between the other one may run. The machine has one action for each call
and one for each completion, and the state keeps where the calls in progress are suspended. A
suspended call keeps no local that the rest of its body reads, so calls suspended at one place are
alike.

A subscription field and the refresh timer are slots: the field, and beside it the subscriptions
that were made and not cancelled. `cancel` ends a subscription at once; the future it returns may
complete later, and with an error. -/
namespace TraceForge.Phone
open Library

inductive LocationReadiness
  | ready
  | servicesDisabled
  | permissionDenied
  | permissionDeniedForever
deriving DecidableEq

/-- What `TelemetryPublisher.stop` returns, as far as the controller reads it. -/
structure TelemetryUploadSummary where
  acceptedEvents : Int
  sequenceGaps : Int

structure TelemetryPublisher where
  endpoint : String

/-- The future a call in progress awaits. -/
inductive Suspension
  | publisherStart
  | prepareLocation
  | cancels
  | publisherStop
deriving DecidableEq

structure TelemetryController where
  isRunning : Bool
  status : String
  transportStatus : String
  publisherStarted : Bool
  accelerometerSubscription : Slot
  gyroscopeSubscription : Slot
  locationSubscription : Slot
  refreshTimer : Slot
  /-- `publisher.start` has succeeded and `publisher.stop` was not called since. -/
  publisherLive : Bool
  /-- Where the calls in progress are suspended. -/
  calls : List Suspension

/-- An outcome is what the awaited future completes with; the text is what `$error` prints. -/
inductive Action
  | start
  | stop
  | publisherStart (outcome : Except String Unit)
  | prepareLocation (outcome : Except String LocationReadiness)
  | cancels (outcome : Except String Unit)
  | publisherStop (outcome : Except String TelemetryUploadSummary)

namespace TelemetryController

def initial : TelemetryController where
  isRunning := false
  status := "Stopped"
  transportStatus := "Network stream stopped"
  publisherStarted := false
  accelerometerSubscription := .vacant
  gyroscopeSubscription := .vacant
  locationSubscription := .vacant
  refreshTimer := .vacant
  publisherLive := false
  calls := []

/-! ### `start` -/

/-- From the first `listen` to the call of `prepareLocation`. -/
def captureMotion (c : TelemetryController) : TelemetryController :=
  { c with
    accelerometerSubscription := c.accelerometerSubscription.assign
    gyroscopeSubscription := c.gyroscopeSubscription.assign
    refreshTimer := c.refreshTimer.assign
    calls := .prepareLocation :: c.calls }

def start (publisher : Option TelemetryPublisher) (c : TelemetryController) :
    TelemetryController :=
  if c.isRunning then c
  else match publisher with
    | some publisher =>
      { c with
        isRunning := true
        status := "Starting motion sensors"
        transportStatus := s!"Connecting to {publisher.endpoint}"
        calls := .publisherStart :: c.calls }
    | none =>
      captureMotion
        { c with
          isRunning := true
          status := "Starting motion sensors"
          transportStatus := "Network stream disabled" }

/-- `start` after `await publisher.start()`; it does not look at `isRunning`. -/
def publisherStartCompleted (publisher : TelemetryPublisher) (outcome : Except String Unit)
    (c : TelemetryController) : TelemetryController :=
  match outcome with
  | .ok _ =>
    captureMotion
      { c with
        publisherStarted := true
        publisherLive := true
        transportStatus := s!"Streaming to {publisher.endpoint}" }
  | .error error =>
    captureMotion
      { c with
        publisherStarted := false
        transportStatus := s!"Network stream unavailable: {error}" }

/-- `start` after `await source.prepareLocation()`. -/
def prepareLocationCompleted (outcome : Except String LocationReadiness)
    (c : TelemetryController) : TelemetryController :=
  match outcome with
  | .ok locationReadiness =>
    if !c.isRunning then c
    else match locationReadiness with
      | .ready =>
        { c with
          locationSubscription := c.locationSubscription.assign
          status := "Capturing motion and location" }
      | .servicesDisabled =>
        { c with status := "Capturing motion; location services are disabled" }
      | .permissionDenied =>
        { c with status := "Capturing motion; location permission was denied" }
      | .permissionDeniedForever =>
        { c with status := "Capturing motion; location permission is blocked" }
  | .error error => { c with status := s!"Capturing motion; location failed: {error}" }

/-! ### `stop` -/

def stop (c : TelemetryController) : TelemetryController :=
  if !c.isRunning then c
  else
    { c with
      isRunning := false
      refreshTimer := c.refreshTimer.cancel.clear
      accelerometerSubscription := c.accelerometerSubscription.cancel
      gyroscopeSubscription := c.gyroscopeSubscription.cancel
      locationSubscription := c.locationSubscription.cancel
      calls := .cancels :: c.calls }

/-- `stop` after the cancels: the three fields are set to null, whatever they hold by now. -/
def forgetSubscriptions (c : TelemetryController) : TelemetryController :=
  { c with
    accelerometerSubscription := c.accelerometerSubscription.clear
    gyroscopeSubscription := c.gyroscopeSubscription.clear
    locationSubscription := c.locationSubscription.clear
    status := "Stopped" }

/-- `stop` after `await Future.wait(...)`; an error leaves `stop` there. -/
def cancelsCompleted (publisher : Option TelemetryPublisher) (outcome : Except String Unit)
    (c : TelemetryController) : TelemetryController :=
  match outcome with
  | .ok _ =>
    let c := forgetSubscriptions c
    if publisher.isSome && c.publisherStarted then
      { c with
        publisherStarted := false
        publisherLive := false
        calls := .publisherStop :: c.calls }
    else c
  | .error _ => c

/-- `stop` after `await publisher.stop()`. -/
def publisherStopCompleted (outcome : Except String TelemetryUploadSummary)
    (c : TelemetryController) : TelemetryController :=
  match outcome with
  | .ok summary =>
    { c with
      transportStatus := s!"Collector accepted {summary.acceptedEvents} events; " ++
        s!"{summary.sequenceGaps} sequence gaps" }
  | .error error => { c with transportStatus := s!"Network stream failed: {error}" }

/-! ### The machine -/

/-- One of the calls suspended there goes on. -/
def resume (c : TelemetryController) (suspension : Suspension) : Option TelemetryController :=
  if suspension ∈ c.calls then some { c with calls := c.calls.erase suspension } else none

def step (publisher : Option TelemetryPublisher) (c : TelemetryController) :
    Action → Option TelemetryController
  | .start => some (c.start publisher)
  | .stop => some c.stop
  | .publisherStart outcome =>
    publisher.bind fun p => (c.resume .publisherStart).map (publisherStartCompleted p outcome)
  | .prepareLocation outcome =>
    (c.resume .prepareLocation).map (prepareLocationCompleted outcome)
  | .cancels outcome => (c.resume .cancels).map (cancelsCompleted publisher outcome)
  | .publisherStop outcome => (c.resume .publisherStop).map (publisherStopCompleted outcome)

end TelemetryController

/-- The controller with the calls and completions in any order. -/
def controller (publisher : Option TelemetryPublisher) : Machine TelemetryController Action :=
  ⟨.initial, TelemetryController.step publisher⟩

end TraceForge.Phone
