import TraceForge.Phone.Lifecycle

/-! Every step out of turn can end in a violation.

Whatever is in progress can be brought to an end by completions in turn (`exists_ending`), which
cancel nothing. So what a step out of turn breaks is still broken when no call is in progress any
more: a leaked subscription stays live, a publisher whose start was forgotten is not stopped, and
a `start` that was cut into subscribes in a stopped controller (`out_of_turn`). With what a run in
turn keeps, this makes being in turn exactly what the lifecycle needs (`lifecycle_in_turn`). -/
namespace TraceForge.Phone
open Library

namespace TelemetryController

variable {publisher : Option TelemetryPublisher} {c d : TelemetryController}

/-! ### Ending what is in progress -/

/-- How many completions end the calls. -/
def work (calls : List Suspension) : Nat := calls.length + calls.count .publisherStart

/-- A completion that ends a suspended call, or lets `start` go on to its second await. -/
def ending (c : TelemetryController) : Suspension → Action
  | .publisherStart => .publisherStart (if c.publisherStarted then .ok () else .error "")
  | .prepareLocation => .prepareLocation (.error "")
  | .cancels => .cancels (.error "")
  | .publisherStop => .publisherStop (.error "")

structure Endable (publisher : Option TelemetryPublisher) (c : TelemetryController) : Prop where
  connecting : .publisherStart ∈ c.calls → publisher.isSome = true
  quiet : c.publisherStarted = false ∨ c.isRunning = true ∨
    (.cancels ∉ c.calls ∧ .publisherStart ∉ c.calls)

def Leaky (c : TelemetryController) : Prop :=
  c.accelerometerSubscription.Leaked ∨ c.gyroscopeSubscription.Leaked ∨
    c.locationSubscription.Leaked

/-- The accelerometer is subscribed to, or a `start` has yet to subscribe. -/
def Subscribing (c : TelemetryController) : Prop :=
  ¬ c.accelerometerSubscription.Released ∨ .publisherStart ∈ c.calls

/-- What ending calls does not undo. -/
structure Ended (c d : TelemetryController) : Prop where
  isRunning : d.isRunning = c.isRunning
  publisherStarted : c.publisherStarted = false → d.publisherStarted = false
  publisherLive : c.publisherLive = true → d.publisherLive = true
  leaky : c.Leaky → d.Leaky
  subscribing : c.Subscribing → d.Subscribing

theorem Ended.trans {e : TelemetryController} (h : Ended c d) (k : Ended d e) : Ended c e where
  isRunning := k.isRunning.trans h.isRunning
  publisherStarted := k.publisherStarted ∘ h.publisherStarted
  publisherLive := k.publisherLive ∘ h.publisherLive
  leaky := k.leaky ∘ h.leaky
  subscribing := k.subscribing ∘ h.subscribing

theorem resume_cons {suspension : Suspension} {rest : List Suspension}
    (h : c.calls = suspension :: rest) : c.resume suspension = some { c with calls := rest } := by
  unfold resume
  rw [h, if_pos List.mem_cons_self, List.erase_cons_head]

theorem captureMotion_ended (c : TelemetryController) : Ended c c.captureMotion where
  isRunning := rfl
  publisherStarted := id
  publisherLive := id
  leaky h := by
    rcases h with h | h | h
    · exact .inl (Slot.assign_leaked h.not_released)
    · exact .inr (.inl (Slot.assign_leaked h.not_released))
    · exact .inr (.inr h)
  subscribing _ := .inl (List.cons_ne_nil _ _)

/-- A completion that only moves a call and changes a text. -/
theorem ended_of_moved {suspension : Suspension} {rest : List Suspension}
    (hcalls : c.calls = suspension :: rest) (hne : .publisherStart ≠ suspension)
    (status transportStatus : String) :
    Ended c { c with calls := rest, status, transportStatus } where
  isRunning := rfl
  publisherStarted := id
  publisherLive := id
  leaky := id
  subscribing h := by
    rcases h with h | h
    · exact .inl h
    · rw [hcalls] at h
      exact .inr ((List.mem_cons.mp h).resolve_left hne)

theorem Endable.moved {suspension : Suspension} {rest : List Suspension}
    (h : Endable publisher c) (hcalls : c.calls = suspension :: rest)
    (status transportStatus : String) :
    Endable publisher { c with calls := rest, status, transportStatus } where
  connecting hmem := h.connecting (hcalls ▸ List.mem_cons_of_mem _ hmem)
  quiet := by
    rcases h.quiet with hq | hq | ⟨hcancels, hstart⟩
    · exact .inl hq
    · exact .inr (.inl hq)
    · rw [hcalls] at hcancels hstart
      exact .inr (.inr ⟨fun hm => hcancels (List.mem_cons_of_mem _ hm),
        fun hm => hstart (List.mem_cons_of_mem _ hm)⟩)

theorem work_cons (suspension : Suspension) (rest : List Suspension) :
    work rest < work (suspension :: rest) := by
  have hcount : rest.count .publisherStart ≤ (suspension :: rest).count .publisherStart :=
    List.count_le_count_cons
  simp only [work, List.length_cons]
  omega

/-- The suspended `publisher.start` completes, with success if the publisher was started. -/
theorem publisherStart_ending {rest : List Suspension} (h : Endable publisher c)
    (hcalls : c.calls = .publisherStart :: rest) :
    ∃ d, c.step publisher (c.ending .publisherStart) = some d ∧
      c.InTurn (c.ending .publisherStart) ∧ Endable publisher d ∧ Ended c d ∧
      work d.calls < work c.calls := by
  have hsome := h.connecting (hcalls ▸ List.mem_cons_self)
  have hwork : work (.prepareLocation :: rest) < work c.calls := by
    rw [hcalls, work, work, List.count_cons_self, List.count_cons_of_ne (by decide)]
    simp only [List.length_cons]
    omega
  have hrunning : c.publisherStarted = true → c.isRunning = true := by
    intro hs
    rcases h.quiet with hq | hq | ⟨_, hstart⟩
    · exact absurd (hq.symm.trans hs) Bool.false_ne_true
    · exact hq
    · exact absurd (hcalls ▸ List.mem_cons_self) hstart
  obtain ⟨p, rfl⟩ := Option.isSome_iff_exists.mp hsome
  unfold ending step
  cases hs : c.publisherStarted with
  | true =>
    let e : TelemetryController :=
      { c with
        calls := rest
        publisherStarted := true
        publisherLive := true
        transportStatus := s!"Streaming to {p.endpoint}" }
    refine ⟨e.captureMotion, ?_, trivial, ⟨fun _ => rfl, .inr (.inl (hrunning hs))⟩, ?_, hwork⟩
    · rw [resume_cons hcalls]
      rfl
    · exact { captureMotion_ended e with
        publisherStarted := fun hf => absurd (hf.symm.trans hs) Bool.false_ne_true
        publisherLive := fun _ => rfl
        subscribing := fun _ => .inl (List.cons_ne_nil _ _) }
  | false =>
    let e : TelemetryController :=
      { c with
        calls := rest
        publisherStarted := false
        transportStatus := s!"Network stream unavailable: " }
    refine ⟨e.captureMotion, ?_, hs, ⟨fun _ => rfl, .inl rfl⟩, ?_, hwork⟩
    · rw [resume_cons hcalls]
      rfl
    · exact { captureMotion_ended e with
        publisherStarted := fun _ => rfl
        subscribing := fun _ => .inl (List.cons_ne_nil _ _) }

theorem ending_step {suspension : Suspension} {rest : List Suspension} (h : Endable publisher c)
    (hcalls : c.calls = suspension :: rest) :
    ∃ d, c.step publisher (c.ending suspension) = some d ∧ c.InTurn (c.ending suspension) ∧
      Endable publisher d ∧ Ended c d ∧ work d.calls < work c.calls := by
  have hwork : work rest < work c.calls := hcalls ▸ work_cons suspension rest
  cases suspension with
  | publisherStart => exact publisherStart_ending h hcalls
  | prepareLocation =>
    refine ⟨_, ?_, trivial, h.moved hcalls "Capturing motion; location failed: "
      c.transportStatus, ended_of_moved hcalls (by decide) _ _, hwork⟩
    rw [ending, step, resume_cons hcalls]
    rfl
  | cancels =>
    refine ⟨_, ?_, fun hs hr => ?_, h.moved hcalls c.status c.transportStatus,
      ended_of_moved hcalls (by decide) _ _, hwork⟩
    · rw [ending, step, resume_cons hcalls]
      rfl
    · rcases h.quiet with hq | hq | ⟨hcancels, _⟩
      · exact absurd (hq.symm.trans hs) Bool.false_ne_true
      · exact absurd (hr.symm.trans hq) Bool.false_ne_true
      · exact absurd (hcalls ▸ List.mem_cons_self) hcancels
  | publisherStop =>
    refine ⟨_, ?_, trivial, h.moved hcalls c.status "Network stream failed: ",
      ended_of_moved hcalls (by decide) _ _, hwork⟩
    rw [ending, step, resume_cons hcalls]
    rfl

/-- **Whatever is in progress can end**, in turn and without a cancel. -/
theorem exists_ending (h : Endable publisher c) :
    ∃ actions d, (controller publisher).Obeys InTurn c actions ∧
      (controller publisher).run c actions = some d ∧ d.calls = [] ∧ Ended c d := by
  induction hn : work c.calls using Nat.strongRecOn generalizing c with
  | ind n ih =>
  match hcalls : c.calls with
  | [] => exact ⟨[], c, trivial, rfl, hcalls, ⟨rfl, id, id, id, id⟩⟩
  | suspension :: rest =>
    obtain ⟨e, hstep, hturn, hendable, hended, hwork⟩ := ending_step h hcalls
    obtain ⟨actions, d, hobeys, hrun, hd, hended'⟩ := ih _ (hn ▸ hwork) hendable rfl
    refine ⟨_ :: actions, d, Machine.obeys_cons hstep hturn hobeys, ?_, hd, hended.trans hended'⟩
    exact ((controller publisher).run_cons actions hstep).trans hrun

/-! ### Stopping -/

/-- Some subscription was not cancelled. -/
def Live (c : TelemetryController) : Prop :=
  ¬ c.accelerometerSubscription.Released ∨ ¬ c.gyroscopeSubscription.Released ∨
    ¬ c.locationSubscription.Released

theorem Leaky.live (h : c.Leaky) : c.Live :=
  h.imp Slot.Leaked.not_released (.imp Slot.Leaked.not_released Slot.Leaked.not_released)

theorem Subscribed.live (h : c.Subscribed) : c.Live :=
  h.imp Slot.Holding.not_released (.imp Slot.Holding.not_released Slot.Holding.not_released)

theorem stop_leaky (h : c.Leaky) : c.stop.Leaky := by
  unfold stop
  split
  · exact h
  · exact h.imp Slot.Leaked.cancel (.imp Slot.Leaked.cancel Slot.Leaked.cancel)

theorem stop_not_subscribed (h : c.isRunning = true) : ¬ c.stop.Subscribed := by
  rw [stop, h]
  rintro (h | h | h) <;> exact Slot.cancel_not_holding h

theorem stop_publisher (c : TelemetryController) :
    c.stop.publisherStarted = c.publisherStarted ∧ c.stop.publisherLive = c.publisherLive := by
  unfold stop
  split <;> exact ⟨rfl, rfl⟩

/-- What is live when the fields are set to null is leaked. -/
theorem cancelsCompleted_leaky (h : c.Live) :
    (cancelsCompleted publisher (.ok ()) c).Leaky := by
  have hforgot : c.forgetSubscriptions.Leaky :=
    h.imp Slot.clear_leaked (.imp Slot.clear_leaked Slot.clear_leaked)
  unfold cancelsCompleted
  dsimp only
  split <;> exact hforgot

theorem cancelsCompleted_isRunning (publisher : Option TelemetryPublisher)
    (c : TelemetryController) :
    (cancelsCompleted publisher (.ok ()) c).isRunning = c.isRunning := by
  unfold cancelsCompleted
  dsimp only
  split <;> rfl

/-- A publisher that does not count as started is not stopped. -/
theorem cancelsCompleted_publisherLive (hlive : c.publisherLive = true)
    (hstarted : c.publisherStarted = false) :
    (cancelsCompleted publisher (.ok ()) c).publisherLive = true := by
  have hforgot : c.forgetSubscriptions.publisherStarted = false := hstarted
  unfold cancelsCompleted
  dsimp only
  rw [hforgot, Bool.and_false, if_neg Bool.false_ne_true]
  exact hlive

theorem cancelsCompleted_publisherStarted (hsome : publisher.isSome = true) :
    (cancelsCompleted publisher (.ok ()) c).publisherStarted = false := by
  unfold cancelsCompleted
  dsimp only
  split
  · rfl
  next hstarted =>
  rw [hsome, Bool.true_and] at hstarted
  exact Bool.eq_false_iff.mpr hstarted

theorem mem_cancelsCompleted_calls {suspension : Suspension}
    (hne : suspension ≠ .publisherStop) :
    suspension ∈ (cancelsCompleted publisher (.ok ()) c).calls ↔ suspension ∈ c.calls := by
  unfold cancelsCompleted
  dsimp only
  split
  · exact List.mem_cons.trans (or_iff_right hne)
  · rfl

/-- `stop` with its cancels completing at once, whatever else is suspended. -/
def stopNow (publisher : Option TelemetryPublisher) (c : TelemetryController) :
    TelemetryController :=
  cancelsCompleted publisher (.ok ()) { c.stop with calls := c.calls }

theorem stopNow_step (publisher : Option TelemetryPublisher) (hrunning : c.isRunning = true) :
    (controller publisher).step c.stop (.cancels (.ok ())) = some (c.stopNow publisher) := by
  have hcalls : c.stop.calls = .cancels :: c.calls := by
    rw [stop, hrunning]
    rfl
  show c.stop.step publisher (.cancels (.ok ())) = some (c.stopNow publisher)
  rw [step, resume_cons hcalls]
  rfl

theorem stopNow_isRunning (hrunning : c.isRunning = true) :
    (c.stopNow publisher).isRunning = false := by
  rw [stopNow, cancelsCompleted_isRunning, stop, hrunning]
  rfl

theorem mem_stopNow_calls {suspension : Suspension} (hne : suspension ≠ .publisherStop) :
    suspension ∈ (c.stopNow publisher).calls ↔ suspension ∈ c.calls :=
  mem_cancelsCompleted_calls hne

/-! ### Out of turn -/

/-- A run in turn from here ends with no call in progress and the lifecycle violated. -/
def CanViolate (publisher : Option TelemetryPublisher) (c : TelemetryController) : Prop :=
  ∃ actions d, (controller publisher).Obeys InTurn c actions ∧
    (controller publisher).run c actions = some d ∧ d.calls = [] ∧ ¬ d.Lifecycle

/-- It has leaked a subscription, or forgotten that its publisher is started. -/
def Lost (c : TelemetryController) : Prop :=
  c.Leaky ∨ c.publisherLive = true ∧ c.publisherStarted = false

theorem Ended.lost (h : Ended c d) (hlost : c.Lost) : d.Lost := by
  rcases hlost with hleaky | ⟨hlive, hstarted⟩
  · exact .inl (h.leaky hleaky)
  · exact .inr ⟨h.publisherLive hlive, h.publisherStarted hstarted⟩

theorem CanViolate.of_run {actions : List Action}
    (hturn : (controller publisher).Obeys InTurn c actions)
    (hrun : (controller publisher).run c actions = some d) (h : d.CanViolate publisher) :
    c.CanViolate publisher := by
  obtain ⟨rest, e, hrest, he, hcalls, hviolated⟩ := h
  refine ⟨actions ++ rest, e, Machine.obeys_append hrun hturn hrest, ?_, hcalls, hviolated⟩
  rw [Machine.run_append, hrun, Option.bind_some, he]

theorem stopNow_lost (h : c.Lost) :
    (c.stopNow publisher).Leaky ∨ (c.stopNow publisher).publisherLive = true := by
  obtain ⟨hstarted, hlive⟩ := stop_publisher c
  rcases h with h | ⟨h, hnot⟩
  · exact .inl (cancelsCompleted_leaky (stop_leaky h).live)
  · exact .inr (cancelsCompleted_publisherLive (hlive.trans h) (hstarted.trans hnot))

/-- What a settled controller has lost is still live when it is stopped. -/
theorem settled_canViolate (hrunning : c.isRunning = true) (hcalls : c.calls = [])
    (hlost : c.Lost) : c.CanViolate publisher := by
  have hnone : ∀ suspension, suspension ∉ c.calls := fun _ => hcalls ▸ List.not_mem_nil
  have hnot : ∀ suspension, suspension ≠ .publisherStop →
      suspension ∉ (c.stopNow publisher).calls :=
    fun _ hne hmem => hnone _ ((mem_stopNow_calls hne).mp hmem)
  have hstart := hnot .publisherStart (by decide)
  have hendable : Endable publisher (c.stopNow publisher) :=
    ⟨fun hmem => absurd hmem hstart, .inr (.inr ⟨hnot .cancels (by decide), hstart⟩)⟩
  obtain ⟨actions, d, hobeys, hrun, hd, hended⟩ := exists_ending hendable
  have hstop : (controller publisher).step c .stop = some c.stop := rfl
  have hstep := stopNow_step publisher hrunning
  refine ⟨.stop :: .cancels (.ok ()) :: actions, d,
    Machine.obeys_cons hstop (fun _ => hnone _)
      (Machine.obeys_cons hstep (stop_not_subscribed hrunning) hobeys), ?_, hd, ?_⟩
  · rw [Machine.run_cons _ _ hstop, Machine.run_cons _ _ hstep, hrun]
  · intro hlifecycle
    have hidle : d.isRunning = false := hended.isRunning.trans (stopNow_isRunning hrunning)
    obtain ⟨haccelerometer, hgyroscope, hlocation, _, hpublisher⟩ := hlifecycle.stopped hidle
    rcases stopNow_lost hlost with hleaky | hlive
    · rcases hended.leaky hleaky with h | h | h
      · exact h.not_released haccelerometer
      · exact h.not_released hgyroscope
      · exact h.not_released hlocation
    · exact Bool.false_ne_true (hpublisher.symm.trans (hended.publisherLive hlive))

/-- What a running controller has lost is still lost when no call is in progress. -/
theorem running_canViolate (h : Endable publisher c) (hrunning : c.isRunning = true)
    (hlost : c.Lost) : c.CanViolate publisher := by
  obtain ⟨actions, d, hobeys, hrun, hcalls, hended⟩ := exists_ending h
  exact .of_run hobeys hrun
    (settled_canViolate (hended.isRunning.trans hrunning) hcalls (hended.lost hlost))

theorem stop_out_of_turn (h : InOrder publisher c) (hrunning : c.isRunning = true)
    (hmem : .publisherStart ∈ c.calls) : c.stop.CanViolate publisher := by
  have hsome := h.connecting hmem
  have hendable : Endable publisher (c.stopNow publisher) :=
    ⟨fun _ => hsome, .inl (cancelsCompleted_publisherStarted hsome)⟩
  obtain ⟨actions, d, hobeys, hrun, hcalls, hended⟩ := exists_ending hendable
  have hstep := stopNow_step publisher hrunning
  refine .of_run (Machine.obeys_cons hstep (stop_not_subscribed hrunning) hobeys)
    (((controller publisher).run_cons actions hstep).trans hrun)
    ⟨[], d, trivial, rfl, hcalls, fun hlifecycle => ?_⟩
  have hidle : d.isRunning = false := hended.isRunning.trans (stopNow_isRunning hrunning)
  -- the call of `start` that was cut into has subscribed by now
  have hsubscribing : (c.stopNow publisher).Subscribing :=
    .inr ((mem_stopNow_calls (by decide)).mpr hmem)
  rcases hended.subscribing hsubscribing with hlive | hmem
  · exact hlive (hlifecycle.stopped hidle).1
  · rw [hcalls] at hmem
    exact List.not_mem_nil hmem

theorem publisherStart_out_of_turn {p : TelemetryPublisher} {error : String}
    (h : InOrder (some p) c) (hmem : .publisherStart ∈ c.calls)
    (hstarted : c.publisherStarted = true) :
    (publisherStartCompleted p (.error error)
      { c with calls := c.calls.erase .publisherStart }).CanViolate (some p) :=
  running_canViolate ⟨fun _ => rfl, .inl rfl⟩ (h.running hmem)
    (.inr ⟨h.publisherLive.trans hstarted, rfl⟩)

theorem prepareLocation_out_of_turn (h : InOrder publisher c) (hrunning : c.isRunning = true)
    (hholding : c.locationSubscription.Holding) :
    (prepareLocationCompleted (.ok .ready)
      { c with calls := c.calls.erase .prepareLocation }).CanViolate publisher := by
  unfold prepareLocationCompleted
  dsimp only
  rw [hrunning, Bool.not_true, if_neg Bool.false_ne_true]
  exact running_canViolate ⟨fun hmem => h.connecting (List.mem_of_mem_erase hmem), .inr (.inl rfl)⟩
    rfl (.inl (.inr (.inr (Slot.assign_leaked hholding.not_released))))

theorem cancels_out_of_turn (h : InOrder publisher c) (hsubscribed : c.Subscribed) :
    (cancelsCompleted publisher (.ok ())
      { c with calls := c.calls.erase .cancels }).CanViolate publisher := by
  have hrunning : c.isRunning = true := by
    by_contra hr
    have hidle : ¬ c.Capturing := fun hc => hr hc.1
    rcases hsubscribed with hs | hs | hs
    · exact hs.not_released (h.accelerometer.released hidle)
    · exact hs.not_released (h.gyroscope.released hidle)
    · exact hs.not_released (h.location.resolve_right fun hl => hr hl.1)
  have hconnecting : .publisherStart ∈ (cancelsCompleted publisher (.ok ())
      { c with calls := c.calls.erase .cancels }).calls → publisher.isSome = true := by
    intro hmem
    have hmem := (mem_cancelsCompleted_calls (by decide)).mp hmem
    exact h.connecting (List.mem_of_mem_erase hmem)
  have hstill := (cancelsCompleted_isRunning publisher
    { c with calls := c.calls.erase .cancels }).trans hrunning
  exact running_canViolate ⟨hconnecting, .inr (.inl hstill)⟩ hstill
    (.inl (cancelsCompleted_leaky hsubscribed.live))

/-- The last `stop` ends at an error of its cancels and leaves the publisher started. -/
theorem cancels_error_out_of_turn {error : String} (h : InOrder publisher c)
    (hstarted : c.publisherStarted = true) (hidle : c.isRunning = false)
    (hlast : c.calls.count .cancels ≤ 1) :
    (cancelsCompleted publisher (.error error)
      { c with calls := c.calls.erase .cancels }).CanViolate publisher := by
  have hcancels : .cancels ∉ c.calls.erase .cancels := by
    rw [← List.count_eq_zero, List.count_erase_self]
    exact Nat.sub_eq_zero_of_le hlast
  have hstart : .publisherStart ∉ c.calls.erase .cancels := fun hmem =>
    h.not_running hidle (List.mem_of_mem_erase hmem)
  have hendable : Endable publisher { c with calls := c.calls.erase .cancels } :=
    ⟨fun hmem => absurd hmem hstart, .inr (.inr ⟨hcancels, hstart⟩)⟩
  obtain ⟨actions, d, hobeys, hrun, hcalls, hended⟩ := exists_ending hendable
  refine ⟨actions, d, hobeys, hrun, hcalls, fun hlifecycle => ?_⟩
  have hlive := hended.publisherLive (h.publisherLive.trans hstarted)
  have hstopped := (hlifecycle.stopped (hended.isRunning.trans hidle)).2.2.2.2
  exact Bool.false_ne_true (hstopped.symm.trans hlive)

/-- **A step out of turn can end in a violation**, with every later step in turn. -/
theorem out_of_turn {a : Action} (h : InOrder publisher c) (hturn : ¬ c.InTurn a)
    (hstep : c.step publisher a = some d) : d.CanViolate publisher := by
  cases a with
  | start => exact absurd trivial hturn
  | stop =>
    cases hstep
    obtain ⟨hrunning, hmem⟩ := Classical.not_imp.mp hturn
    exact stop_out_of_turn h hrunning (Classical.not_not.mp hmem)
  | publisherStart outcome =>
    obtain ⟨p, rfl, hstep⟩ := Option.bind_eq_some_iff.mp hstep
    obtain ⟨r, hr, rfl⟩ := Option.map_eq_some_iff.mp hstep
    obtain ⟨hmem, rfl⟩ := resume_eq hr
    cases outcome with
    | ok _ => exact absurd trivial hturn
    | error error =>
      exact publisherStart_out_of_turn h hmem (eq_true_of_ne_false hturn)
  | prepareLocation outcome =>
    obtain ⟨r, hr, rfl⟩ := Option.map_eq_some_iff.mp hstep
    obtain ⟨_, rfl⟩ := resume_eq hr
    match outcome with
    | .ok .ready =>
      obtain ⟨hrunning, hholding⟩ := Classical.not_imp.mp hturn
      exact prepareLocation_out_of_turn h hrunning (Classical.not_not.mp hholding)
    | .ok .servicesDisabled | .ok .permissionDenied | .ok .permissionDeniedForever
    | .error _ => exact absurd trivial hturn
  | cancels outcome =>
    obtain ⟨r, hr, rfl⟩ := Option.map_eq_some_iff.mp hstep
    obtain ⟨_, rfl⟩ := resume_eq hr
    cases outcome with
    | ok _ => exact cancels_out_of_turn h (Classical.not_not.mp hturn)
    | error error =>
      obtain ⟨hstarted, hturn⟩ := Classical.not_imp.mp hturn
      obtain ⟨hidle, hlast⟩ := Classical.not_imp.mp hturn
      exact cancels_error_out_of_turn h hstarted hidle (Nat.le_of_not_lt hlast)
  | publisherStop outcome => exact absurd trivial hturn

/-- **The lifecycle, exactly.** In a run in turn a state with no call in progress has nothing live
when stopped and one subscription to each motion sensor when running; and the next step is in turn
just if no run in turn after it ends in a violation. -/
theorem lifecycle_in_turn (publisher : Option TelemetryPublisher) (actions : List Action)
    (c : TelemetryController)
    (hturn : (controller publisher).Obeys InTurn (controller publisher).init actions)
    (hrun : (controller publisher).run (controller publisher).init actions = some c) :
    (c.calls = [] → c.Lifecycle) ∧
      ∀ a d, c.step publisher a = some d →
        (c.InTurn a ↔ ∀ rest e, (controller publisher).Obeys InTurn d rest →
          (controller publisher).run d rest = some e → e.calls = [] → e.Lifecycle) := by
  have hc : c.InOrder publisher := run_inOrder inOrder_initial hturn hrun
  refine ⟨hc.lifecycle, fun a d hstep => ⟨fun ha rest e hrest he hcalls => ?_, fun hall => ?_⟩⟩
  · have hd : d.InOrder publisher := step_inOrder hc ha hstep
    exact (run_inOrder hd hrest he).lifecycle hcalls
  · by_contra ha
    obtain ⟨rest, e, hrest, he, hcalls, hviolated⟩ := out_of_turn hc ha hstep
    exact hviolated (hall rest e hrest he hcalls)

/-- A session that starts, captures and stops undisturbed. -/
def session : List Action :=
  [.start, .publisherStart (.ok ()), .prepareLocation (.ok .ready), .stop, .cancels (.ok ()),
    .publisherStop (.ok ⟨2, 0⟩)]

theorem lifecycle_in_turn_session :
    ∃ c, (controller (some ⟨"collector.test:50051"⟩)).run .initial session = some c ∧
      c.transportStatus = "Collector accepted 2 events; 0 sequence gaps" ∧ c.Lifecycle := by
  refine ⟨_, rfl, by decide, (lifecycle_in_turn (some ⟨"collector.test:50051"⟩) session _ ?_ rfl).1
    rfl⟩
  refine Machine.obeys_cons rfl (by decide) (Machine.obeys_cons rfl (by decide) ?_)
  refine Machine.obeys_cons rfl (by decide) (Machine.obeys_cons rfl (by decide) ?_)
  exact Machine.obeys_cons rfl (by decide) (Machine.obeys_cons rfl (by decide) trivial)

/-- `stop` pressed while the publisher connects: `start` subscribes in a stopped controller. -/
theorem stop_while_connecting :
    ∃ c, (controller (some ⟨"collector.test:50051"⟩)).run .initial
        [.start, .stop, .cancels (.ok ()), .publisherStart (.ok ()),
          .prepareLocation (.ok .ready)] = some c ∧
      c.calls = [] ∧ c.isRunning = false ∧ c.status = "Stopped" ∧
      c.accelerometerSubscription.live = [0] ∧ c.gyroscopeSubscription.live = [0] ∧
      c.refreshTimer.live = [0] ∧ c.publisherLive = true ∧ ¬ c.Lifecycle :=
  ⟨_, rfl, rfl, rfl, rfl, rfl, rfl, rfl, rfl,
    fun h => absurd (h.stopped rfl).1 (List.cons_ne_nil _ _)⟩

end TelemetryController

end TraceForge.Phone
