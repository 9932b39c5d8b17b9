import TraceForge.Phone.Controller

/-! What the controller leaves running.

With no call in progress a stopped controller should have nothing live and a running one should
have one subscription to each motion sensor (`Lifecycle`). It does not: `stop` pressed while the
publisher connects leaves the subscriptions `start` makes afterwards. `InTurn` is what a step must
not do, and under it the controller keeps `InOrder`: the motion slots follow whether it is
capturing, the location slot is live only while running, and a publisher that is live in a stopped
controller has a `stop` on its way to it. -/
namespace TraceForge.Phone
open Library

namespace TelemetryController

variable {publisher : Option TelemetryPublisher} {c d : TelemetryController}

/-- What should hold when no call is in progress. -/
structure Lifecycle (c : TelemetryController) : Prop where
  stopped : c.isRunning = false →
    c.accelerometerSubscription.Released ∧ c.gyroscopeSubscription.Released ∧
      c.locationSubscription.Released ∧ c.refreshTimer.Released ∧ c.publisherLive = false
  running : c.isRunning = true →
    c.accelerometerSubscription.live.length = 1 ∧ c.gyroscopeSubscription.live.length = 1 ∧
      c.locationSubscription.live.length ≤ 1

/-- A subscription field holds a subscription that was not cancelled. -/
def Subscribed (c : TelemetryController) : Prop :=
  c.accelerometerSubscription.Holding ∨ c.gyroscopeSubscription.Holding ∨
    c.locationSubscription.Holding

instance (c : TelemetryController) : Decidable c.Subscribed :=
  inferInstanceAs (Decidable (_ ∨ _ ∨ _))

/-- The step does not cut into what another call has done or has still to do. -/
def InTurn (c : TelemetryController) : Action → Prop
  | .start => True
  -- the `start` that connects would subscribe after it
  | .stop => c.isRunning = true → .publisherStart ∉ c.calls
  | .publisherStart (.ok _) => True
  -- an earlier start of the publisher would be forgotten
  | .publisherStart (.error _) => c.publisherStarted = false
  | .prepareLocation (.ok .ready) => c.isRunning = true → ¬ c.locationSubscription.Holding
  | .prepareLocation _ => True
  -- a `start` has subscribed since the fields were cancelled
  | .cancels (.ok _) => ¬ c.Subscribed
  -- no other `stop` goes on to the publisher
  | .cancels (.error _) =>
    c.publisherStarted = true → c.isRunning = false → 1 < c.calls.count .cancels
  | .publisherStop _ => True

instance (c : TelemetryController) : (a : Action) → Decidable (c.InTurn a)
  | .start | .publisherStart (.ok _) | .prepareLocation (.error _)
  | .prepareLocation (.ok .servicesDisabled) | .prepareLocation (.ok .permissionDenied)
  | .prepareLocation (.ok .permissionDeniedForever) | .publisherStop _ =>
    inferInstanceAs (Decidable True)
  | .stop => inferInstanceAs (Decidable (_ → _))
  | .publisherStart (.error _) => inferInstanceAs (Decidable (_ = _))
  | .prepareLocation (.ok .ready) => inferInstanceAs (Decidable (_ → _))
  | .cancels (.ok _) => inferInstanceAs (Decidable (¬ _))
  | .cancels (.error _) => inferInstanceAs (Decidable (_ → _ → _))

/-- The motion sensors should be subscribed to. -/
def Capturing (c : TelemetryController) : Prop :=
  c.isRunning = true ∧ .publisherStart ∉ c.calls

structure InOrder (publisher : Option TelemetryPublisher) (c : TelemetryController) : Prop where
  starting : c.calls.count .publisherStart ≤ 1
  running : .publisherStart ∈ c.calls → c.isRunning = true
  connecting : .publisherStart ∈ c.calls → publisher.isSome = true
  accelerometer : c.accelerometerSubscription.Follows c.Capturing
  gyroscope : c.gyroscopeSubscription.Follows c.Capturing
  refreshTimer : c.refreshTimer.Follows c.Capturing
  location : c.locationSubscription.Released ∨
    c.isRunning = true ∧ c.locationSubscription.Sole
  publisherLive : c.publisherLive = c.publisherStarted
  present : c.publisherStarted = true → publisher.isSome = true
  stopping : c.publisherStarted = true → c.isRunning = false → .cancels ∈ c.calls

/-! ### Where the calls are -/

theorem resume_eq {suspension : Suspension} (h : c.resume suspension = some d) :
    suspension ∈ c.calls ∧ d = { c with calls := c.calls.erase suspension } := by
  unfold resume at h
  split at h
  · next hmem => exact ⟨hmem, (Option.some.inj h).symm⟩
  · cases h

theorem inOrder_initial : InOrder publisher initial where
  starting := Nat.zero_le 1
  running h := absurd h List.not_mem_nil
  connecting h := absurd h List.not_mem_nil
  accelerometer := ⟨fun h => absurd h.1 Bool.false_ne_true, fun _ => rfl⟩
  gyroscope := ⟨fun h => absurd h.1 Bool.false_ne_true, fun _ => rfl⟩
  refreshTimer := ⟨fun h => absurd h.1 Bool.false_ne_true, fun _ => rfl⟩
  location := .inl rfl
  publisherLive := rfl
  present := nofun
  stopping := nofun

/-- A step that only moves calls and texts keeps the order, if the calls that await
`publisher.start` stay and a publisher still has its `stop`. -/
theorem InOrder.moved (h : InOrder publisher c) (calls : List Suspension)
    (status transportStatus : String)
    (hcount : calls.count .publisherStart = c.calls.count .publisherStart)
    (hstop : c.publisherStarted = true → c.isRunning = false → .cancels ∈ calls) :
    InOrder publisher { c with calls, status, transportStatus } := by
  have hmem : .publisherStart ∈ calls ↔ .publisherStart ∈ c.calls := by
    rw [← List.count_pos_iff, ← List.count_pos_iff, hcount]
  have hcapturing : Capturing { c with calls, status, transportStatus } ↔ c.Capturing := by
    rw [Capturing, Capturing, hmem]
  exact
    { starting := hcount ▸ h.starting
      running := fun hc => h.running (hmem.mp hc)
      connecting := fun hc => h.connecting (hmem.mp hc)
      accelerometer := h.accelerometer.congr hcapturing
      gyroscope := h.gyroscope.congr hcapturing
      refreshTimer := h.refreshTimer.congr hcapturing
      location := h.location
      publisherLive := h.publisherLive
      present := h.present
      stopping := hstop }

/-- So does a completion of another future. -/
theorem InOrder.awaited (h : InOrder publisher c) (suspension : Suspension)
    (hstart : .publisherStart ≠ suspension) (hcancels : .cancels ≠ suspension)
    (status transportStatus : String) :
    InOrder publisher
      { c with calls := c.calls.erase suspension, status, transportStatus } :=
  h.moved _ status transportStatus (List.count_erase_of_ne hstart) fun hs hr =>
    (List.mem_erase_of_ne hcancels).mpr (h.stopping hs hr)

/-! ### One step -/

/-- `start` goes on to capture while running, with nothing live that it stores over. -/
theorem captureMotion_inOrder (hrunning : c.isRunning = true)
    (hcalls : .publisherStart ∉ c.calls)
    (haccelerometer : c.accelerometerSubscription.Released)
    (hgyroscope : c.gyroscopeSubscription.Released) (htimer : c.refreshTimer.Released)
    (hlocation : c.locationSubscription.Released ∨
      c.isRunning = true ∧ c.locationSubscription.Sole)
    (hlive : c.publisherLive = c.publisherStarted)
    (hpresent : c.publisherStarted = true → publisher.isSome = true) :
    InOrder publisher c.captureMotion := by
  have hmem : .publisherStart ∉ c.captureMotion.calls := by
    intro h
    rcases List.mem_cons.mp h with h | h
    · cases h
    · exact hcalls h
  have hcapturing : c.captureMotion.Capturing := ⟨hrunning, hmem⟩
  exact
    { starting := by rw [List.count_eq_zero.mpr hmem]; exact Nat.zero_le 1
      running := fun _ => hrunning
      connecting := fun h => absurd h hmem
      accelerometer := ⟨fun _ => haccelerometer.assign, fun h => absurd hcapturing h⟩
      gyroscope := ⟨fun _ => hgyroscope.assign, fun h => absurd hcapturing h⟩
      refreshTimer := ⟨fun _ => htimer.assign, fun h => absurd hcapturing h⟩
      location := hlocation
      publisherLive := hlive
      present := hpresent
      stopping := fun _ h => absurd (hrunning.symm.trans h) Bool.false_ne_true.symm }

theorem InOrder.not_running (h : InOrder publisher c) (hrunning : c.isRunning = false) :
    .publisherStart ∉ c.calls := by
  intro hmem
  exact Bool.false_ne_true (hrunning.symm.trans (h.running hmem))

theorem start_inOrder (h : InOrder publisher c) : InOrder publisher (c.start publisher) := by
  unfold start
  split
  · exact h
  next hrunning =>
  have hidle : ¬ c.Capturing := fun hc => hrunning hc.1
  have hcalls := h.not_running (Bool.eq_false_iff.mpr hrunning)
  have hlocation : c.locationSubscription.Released :=
    h.location.resolve_right fun hl => hrunning hl.1
  split
  · have hcount : (Suspension.publisherStart :: c.calls).count .publisherStart = 1 := by
      rw [List.count_cons_self, List.count_eq_zero.mpr hcalls]
    exact
      { starting := Nat.le_of_eq hcount
        running := fun _ => rfl
        connecting := fun _ => rfl
        accelerometer := ⟨fun hc => absurd List.mem_cons_self hc.2,
          fun _ => h.accelerometer.released hidle⟩
        gyroscope := ⟨fun hc => absurd List.mem_cons_self hc.2,
          fun _ => h.gyroscope.released hidle⟩
        refreshTimer := ⟨fun hc => absurd List.mem_cons_self hc.2,
          fun _ => h.refreshTimer.released hidle⟩
        location := .inl hlocation
        publisherLive := h.publisherLive
        present := h.present
        stopping := nofun }
  · exact captureMotion_inOrder rfl hcalls (h.accelerometer.released hidle)
      (h.gyroscope.released hidle) (h.refreshTimer.released hidle) (.inl hlocation)
      h.publisherLive h.present

theorem publisherStartCompleted_inOrder {p : TelemetryPublisher} {outcome : Except String Unit}
    (h : InOrder (some p) c) (hturn : c.InTurn (.publisherStart outcome))
    (hmem : .publisherStart ∈ c.calls) :
    InOrder (some p)
      (publisherStartCompleted p outcome
        { c with calls := c.calls.erase .publisherStart }) := by
  have hidle : ¬ c.Capturing := fun hc => hc.2 hmem
  have hrunning := h.running hmem
  have hcalls : .publisherStart ∉ c.calls.erase .publisherStart := by
    rw [← List.count_eq_zero, List.count_erase_self]
    exact Nat.sub_eq_zero_of_le h.starting
  cases outcome with
  | ok _ =>
    exact captureMotion_inOrder hrunning hcalls (h.accelerometer.released hidle)
      (h.gyroscope.released hidle) (h.refreshTimer.released hidle) h.location rfl fun _ => rfl
  | error error =>
    have hlive : c.publisherLive = false := h.publisherLive.trans hturn
    exact captureMotion_inOrder hrunning hcalls (h.accelerometer.released hidle)
      (h.gyroscope.released hidle) (h.refreshTimer.released hidle) h.location hlive nofun

theorem prepareLocationCompleted_inOrder {outcome : Except String LocationReadiness}
    (h : InOrder publisher c) (hturn : c.InTurn (.prepareLocation outcome)) :
    InOrder publisher
      (prepareLocationCompleted outcome
        { c with calls := c.calls.erase .prepareLocation }) := by
  have hmoved := fun status => h.awaited .prepareLocation nofun nofun status c.transportStatus
  unfold prepareLocationCompleted
  split
  · split
    · exact hmoved c.status
    next hrunning =>
    have hrunning : c.isRunning = true := by simpa using hrunning
    split
    · have hreleased : c.locationSubscription.Released := by
        refine h.location.resolve_right fun hl => ?_
        exact hturn hrunning hl.2.holding
      exact { hmoved "Capturing motion and location" with
        location := .inr ⟨hrunning, hreleased.assign⟩ }
    · exact hmoved _
    · exact hmoved _
    · exact hmoved _
  · exact hmoved _

theorem stop_inOrder (h : InOrder publisher c) (hturn : c.InTurn .stop) :
    InOrder publisher c.stop := by
  unfold stop
  split
  · exact h
  next hrunning =>
  have hrunning : c.isRunning = true := by simpa using hrunning
  have hcalls : .publisherStart ∉ Suspension.cancels :: c.calls := by
    intro hmem
    rcases List.mem_cons.mp hmem with hmem | hmem
    · cases hmem
    · exact hturn hrunning hmem
  have hlocation : c.locationSubscription.cancel.Released := by
    rcases h.location with hl | hl
    · exact hl.cancel
    · exact hl.2.cancel
  exact
    { starting := by rw [List.count_eq_zero.mpr hcalls]; exact Nat.zero_le 1
      running := fun hmem => absurd hmem hcalls
      connecting := fun hmem => absurd hmem hcalls
      accelerometer := ⟨fun hc => absurd hc.1 Bool.false_ne_true, fun _ => h.accelerometer.cancel⟩
      gyroscope := ⟨fun hc => absurd hc.1 Bool.false_ne_true, fun _ => h.gyroscope.cancel⟩
      refreshTimer := ⟨fun hc => absurd hc.1 Bool.false_ne_true,
        fun _ => h.refreshTimer.cancel.clear⟩
      location := .inl hlocation
      publisherLive := h.publisherLive
      present := h.present
      stopping := fun _ _ => List.mem_cons_self }

theorem InOrder.not_subscribed (h : InOrder publisher c) (hnot : ¬ c.Subscribed) :
    ¬ c.Capturing ∧ c.locationSubscription.Released := by
  constructor
  · intro hcapturing
    exact hnot (.inl (h.accelerometer.sole hcapturing).holding)
  · exact h.location.resolve_right fun hl => hnot (.inr (.inr hl.2.holding))

/-- Null is stored over cancelled subscriptions only. -/
theorem forgetSubscriptions_inOrder (h : InOrder publisher c) (hnot : ¬ c.Subscribed) :
    InOrder publisher c.forgetSubscriptions := by
  obtain ⟨hidle, hlocation⟩ := h.not_subscribed hnot
  exact { h with
    accelerometer := ⟨fun hc => absurd hc hidle, fun _ => (h.accelerometer.released hidle).clear⟩
    gyroscope := ⟨fun hc => absurd hc hidle, fun _ => (h.gyroscope.released hidle).clear⟩
    refreshTimer := h.refreshTimer
    location := .inl hlocation.clear }

theorem InOrder.publisherStopped (h : InOrder publisher c) :
    InOrder publisher { c with publisherStarted := false, publisherLive := false } :=
  { h with publisherLive := rfl, present := nofun, stopping := nofun }

theorem cancelsCompleted_inOrder {outcome : Except String Unit} (h : InOrder publisher c)
    (hturn : c.InTurn (.cancels outcome)) :
    InOrder publisher
      (cancelsCompleted publisher outcome { c with calls := c.calls.erase .cancels }) := by
  have hcount : (c.calls.erase .cancels).count .publisherStart = c.calls.count .publisherStart :=
    List.count_erase_of_ne (by decide)
  cases outcome with
  | error error =>
    refine h.moved _ c.status c.transportStatus hcount fun hs hr => ?_
    rw [← List.count_pos_iff, List.count_erase_self]
    exact Nat.sub_pos_of_lt (hturn hs hr)
  | ok _ =>
    unfold cancelsCompleted
    dsimp only
    split
    · have hstop : ((.publisherStop : Suspension) :: c.calls.erase .cancels).count
          .publisherStart = c.calls.count .publisherStart := by
        rw [List.count_cons_of_ne (by decide), hcount]
      have hmoved := h.publisherStopped.moved _ c.status c.transportStatus hstop nofun
      exact forgetSubscriptions_inOrder hmoved hturn
    next hsome =>
    have hstarted : c.publisherStarted = false := by
      by_contra hs
      have hs : c.publisherStarted = true := by simpa using hs
      exact hsome (Bool.and_eq_true_iff.mpr ⟨h.present hs, hs⟩)
    have hmoved := h.moved _ c.status c.transportStatus hcount fun hs =>
      absurd (hstarted.symm.trans hs) Bool.false_ne_true
    exact forgetSubscriptions_inOrder hmoved hturn

theorem publisherStopCompleted_inOrder {outcome : Except String TelemetryUploadSummary}
    (h : InOrder publisher c) :
    InOrder publisher
      (publisherStopCompleted outcome { c with calls := c.calls.erase .publisherStop }) := by
  cases outcome with
  | ok summary => exact h.awaited .publisherStop nofun nofun c.status _
  | error error => exact h.awaited .publisherStop nofun nofun c.status _

theorem step_inOrder {a : Action} (h : InOrder publisher c) (hturn : c.InTurn a)
    (hstep : c.step publisher a = some d) : InOrder publisher d := by
  cases a with
  | start =>
    cases hstep
    exact start_inOrder h
  | stop =>
    cases hstep
    exact stop_inOrder h hturn
  | publisherStart outcome =>
    obtain ⟨p, rfl, hstep⟩ := Option.bind_eq_some_iff.mp hstep
    obtain ⟨r, hr, rfl⟩ := Option.map_eq_some_iff.mp hstep
    obtain ⟨hmem, rfl⟩ := resume_eq hr
    exact publisherStartCompleted_inOrder h hturn hmem
  | prepareLocation outcome =>
    obtain ⟨r, hr, rfl⟩ := Option.map_eq_some_iff.mp hstep
    obtain ⟨_, rfl⟩ := resume_eq hr
    exact prepareLocationCompleted_inOrder h hturn
  | cancels outcome =>
    obtain ⟨r, hr, rfl⟩ := Option.map_eq_some_iff.mp hstep
    obtain ⟨_, rfl⟩ := resume_eq hr
    exact cancelsCompleted_inOrder h hturn
  | publisherStop outcome =>
    obtain ⟨r, hr, rfl⟩ := Option.map_eq_some_iff.mp hstep
    obtain ⟨_, rfl⟩ := resume_eq hr
    exact publisherStopCompleted_inOrder h

/-- With no call in progress the order is what the lifecycle asks. -/
theorem InOrder.lifecycle (h : InOrder publisher c) (hcalls : c.calls = []) : c.Lifecycle where
  stopped hrunning := by
    have hidle : ¬ c.Capturing := fun hc => Bool.false_ne_true (hrunning.symm.trans hc.1)
    have hlocation : c.locationSubscription.Released := by
      refine h.location.resolve_right fun hl => ?_
      exact Bool.false_ne_true (hrunning.symm.trans hl.1)
    have hstarted : c.publisherStarted = false := by
      rw [Bool.eq_false_iff]
      intro hs
      have hmem := h.stopping hs hrunning
      rw [hcalls] at hmem
      exact List.not_mem_nil hmem
    exact ⟨h.accelerometer.released hidle, h.gyroscope.released hidle, hlocation,
      h.refreshTimer.released hidle, h.publisherLive.trans hstarted⟩
  running hrunning := by
    have hcapturing : c.Capturing := ⟨hrunning, hcalls ▸ List.not_mem_nil⟩
    refine ⟨(h.accelerometer.sole hcapturing).length, (h.gyroscope.sole hcapturing).length, ?_⟩
    rcases h.location with hl | hl
    · rw [show c.locationSubscription.live = [] from hl]
      exact Nat.zero_le 1
    · exact Nat.le_of_eq hl.2.length

end TelemetryController

/-- A run in turn stays in order. -/
theorem run_inOrder {publisher : Option TelemetryPublisher} {c d : TelemetryController}
    {actions : List Action} (h : c.InOrder publisher)
    (hturn : (controller publisher).Obeys TelemetryController.InTurn c actions)
    (hrun : (controller publisher).run c actions = some d) : d.InOrder publisher :=
  Machine.obeying_invariant (TelemetryController.InOrder publisher)
    (fun _ _ _ h hturn hstep => TelemetryController.step_inOrder h hturn hstep) h hturn hrun

end TraceForge.Phone
