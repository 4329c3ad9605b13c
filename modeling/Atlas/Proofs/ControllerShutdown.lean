import Atlas.Asset.Controller
import Atlas.Proofs.FlightAuthority

/-!
# Shutting down and flight commands

Shutdown stops the loop before its next pass. The pass that waits meanwhile goes on, and so does a
Task's start that Core is just taking: its command is dispatched after the return to launch, unless
the aircraft that the pass then finds fails the Task's preconditions.
-/

namespace Atlas.Asset

open Effects

section Sessions

variable (host : Host) (config : AssetConfig) (start : ControlState) (script : ℕ → Outcome)

/-- Whether the aircraft the loop finds on resuming lets the Task's command go. -/
def Attempt.passes (attempt : Attempt) : Bool :=
  let current := controlAt start script attempt.awaited
  (preconditions host config attempt.task current.snapshot current.nowMs).isEmpty

/-- Of the Tasks started, those are dispatched that pass. -/
structure Dispatching (s : Session) : Prop where
  start_eq : s.start = start
  script_eq : s.script = script
  dispatched_eq : s.dispatched = s.started.filter (Attempt.passes host config start script)

variable {host config start script}

theorem getEngine_maintains : Maintains (Dispatching host config start script) getEngine :=
  fun _ h => h

theorem getControlState_maintains :
    Maintains (Dispatching host config start script) getControlState :=
  fun _ h => h

theorem modifyEngine_maintains (f : Engine → Engine) :
    Maintains (Dispatching host config start script) (modifyEngine f) :=
  fun _ h => ⟨h.start_eq, h.script_eq, h.dispatched_eq⟩

theorem awaitOutcome_maintains : Maintains (Dispatching host config start script) awaitOutcome :=
  fun _ h => wp_awaitOutcome (fun _ => ⟨h.start_eq, h.script_eq, h.dispatched_eq⟩) fun _ =>
    ⟨h.start_eq, h.script_eq, h.dispatched_eq⟩

theorem send_maintains (message : MavLinkData) :
    Maintains (Dispatching host config start script) (send message) :=
  .bind (.modify fun _ h => ⟨h.start_eq, h.script_eq, h.dispatched_eq⟩) fun _ =>
    awaitOutcome_maintains

theorem note_maintains (mark : Mark) :
    Maintains (Dispatching host config start script) (note mark) :=
  .modify fun _ h => ⟨h.start_eq, h.script_eq, h.dispatched_eq⟩

theorem report_maintains (r : Report) :
    Maintains (Dispatching host config start script) (report r) :=
  .bind (.modify fun _ h => ⟨h.start_eq, h.script_eq, h.dispatched_eq⟩) fun _ =>
    .bind awaitOutcome_maintains fun _ =>
      .modify fun _ h => ⟨h.start_eq, h.script_eq, h.dispatched_eq⟩

theorem owe_maintains (pending : PendingTerminalReport) :
    Maintains (Dispatching host config start script) (owe pending) :=
  .bind (modifyEngine_maintains _) fun _ =>
    .modify fun _ h => ⟨h.start_eq, h.script_eq, h.dispatched_eq⟩

theorem flushTerminalReport_maintains :
    Maintains (Dispatching host config start script) flushTerminalReport := by
  refine .bind getEngine_maintains fun e => ?_
  split
  · exact .pure ()
  · exact .bind (report_maintains _) fun _ => modifyEngine_maintains _

theorem reportTerminal_maintains (pending : PendingTerminalReport) :
    Maintains (Dispatching host config start script) (reportTerminal pending) :=
  .bind (owe_maintains _) fun _ => flushTerminalReport_maintains

theorem noteTakeover_maintains (mode : String) :
    Maintains (Dispatching host config start script) (noteTakeover mode) := by
  refine .bind getEngine_maintains fun e => ?_
  split
  · exact .pure ()
  · exact .ite (fun _ => .pure ()) fun _ =>
      .bind (modifyEngine_maintains _) fun _ => reportTerminal_maintains _

theorem observeMode_maintains (snapshot : VehicleSnapshot) :
    Maintains (Dispatching host config start script) (observeMode snapshot) := by
  refine .bind getEngine_maintains fun e => .ite (fun _ => .pure ()) fun _ =>
    .bind (modifyEngine_maintains _) fun _ => .ite (fun _ => noteTakeover_maintains _) fun _ =>
      .ite (fun _ => noteTakeover_maintains _) fun _ => .pure ()

theorem rejectGotoDuringTakeoff_maintains (tasks : List AuthoritativeTask) :
    Maintains (Dispatching host config start script) (rejectGotoDuringTakeoff tasks) := by
  refine .bind getEngine_maintains fun e => .ite (fun _ => .forM fun task _ => ?_) fun _ => .pure ()
  exact .bind getEngine_maintains fun e => .ite
    (fun _ => .bind (modifyEngine_maintains _) fun _ => reportTerminal_maintains _)
    fun _ => .pure ()

theorem rejectPendingOutsideGuided_maintains (tasks : List AuthoritativeTask)
    (snapshot : VehicleSnapshot) (nowMs : ℚ) :
    Maintains (Dispatching host config start script)
      (rejectPendingOutsideGuided host config tasks snapshot nowMs) := by
  refine .forM fun task _ => .bind getEngine_maintains fun e => .ite (fun _ => .pure ()) fun _ => ?_
  exact .bind (modifyEngine_maintains _) fun _ => reportTerminal_maintains _

theorem establishHold_maintains (snapshot : VehicleSnapshot) (nowMs : ℚ) :
    Maintains (Dispatching host config start script) (establishHold config snapshot nowMs) := by
  unfold establishHold
  split
  · exact .pure false
  · exact .ite (fun _ => .pure false) fun _ => .bind (send_maintains _) fun _ =>
      .bind (note_maintains _) fun _ => .pure true

theorem dispatch_maintains (task : AuthoritativeTask) (snapshot : VehicleSnapshot) :
    Maintains (Dispatching host config start script) (dispatch config task snapshot) := by
  unfold dispatch
  refine .ite (fun _ => ?_) fun _ => .ite (fun _ => ?_) fun _ => .ite (fun _ => send_maintains _)
    fun _ => .ite (fun _ => send_maintains _) fun _ => .pure ()
  · split
    · exact send_maintains _
    · exact .pure ()
  · split
    · exact .pure ()
    · exact send_maintains _

theorem recoverFailed_maintains (command : String) (snapshot : VehicleSnapshot) (nowMs : ℚ) :
    Maintains (Dispatching host config start script)
      (recoverFailed config command snapshot nowMs) := by
  refine .ite (fun _ => .ite (fun _ => ?_) fun _ => .ite (fun _ => send_maintains _) fun _ =>
    .pure ()) fun _ => .pure ()
  exact .bind (establishHold_maintains _ _) fun _ => .pure ()

theorem failActive_maintains (code : FailureCode) (message : String) (snapshot : VehicleSnapshot)
    (nowMs : ℚ) :
    Maintains (Dispatching host config start script)
      (failActive config code message snapshot nowMs) := by
  refine .bind getEngine_maintains fun e => ?_
  split
  · exact .pure ()
  · exact .bind (modifyEngine_maintains _) fun _ => .bind (owe_maintains _) fun _ =>
      .bind (recoverFailed_maintains _ _ _) fun _ => flushTerminalReport_maintains

theorem completeActive_maintains (active : ActiveExecution) (snapshot : VehicleSnapshot)
    (nowMs : ℚ) :
    Maintains (Dispatching host config start script)
      (completeActive host config active snapshot nowMs) :=
  .ite (fun _ => .bind (modifyEngine_maintains _) fun _ => reportTerminal_maintains _) fun _ =>
    modifyEngine_maintains _

theorem advance_maintains (snapshot : VehicleSnapshot) (nowMs : ℚ) :
    Maintains (Dispatching host config start script) (advance host config snapshot nowMs) := by
  refine .bind getEngine_maintains fun e => ?_
  split
  · exact .pure ()
  · exact .ite (fun _ => failActive_maintains _ _ _ _) fun _ =>
      .ite (fun _ => failActive_maintains _ _ _ _) fun _ => completeActive_maintains _ _ _

theorem rejectCandidate_maintains (candidate : AuthoritativeTask) (problems : List String) :
    Maintains (Dispatching host config start script) (rejectCandidate candidate problems) :=
  .bind (modifyEngine_maintains _) fun _ => reportTerminal_maintains _

/-- A started Task is dispatched just when it passes. -/
theorem executeCandidate_maintains (candidate : AuthoritativeTask) :
    Maintains (Dispatching host config start script) (executeCandidate host config candidate) := by
  intro s hs
  have hpasses : Attempt.passes host config start script ⟨candidate, s.awaited⟩ =
      (preconditions host config candidate s.latest.snapshot s.latest.nowMs).isEmpty := by
    rw [Attempt.passes, Session.latest, hs.start_eq, hs.script_eq]
  simp only [executeCandidate, wp_bind, wp_modify, wp_getControlState]
  split_ifs with hp
  · simp only [wp_bind, wp_modifyEngine, wp_modify, wp_note, wp_tryCatch]
    have hpass := hpasses.trans hp
    refine wp_mono (dispatch_maintains _ _ _ ⟨hs.start_eq, hs.script_eq, ?_⟩) (fun _ _ h => h) ?_
    · rw [List.filter_append, List.filter_singleton, hpass, ← hs.dispatched_eq]
      rfl
    · intro message s' hs'
      exact wp_mono (reportTerminal_maintains _ _ ⟨hs'.start_eq, hs'.script_eq, hs'.dispatched_eq⟩)
        (fun _ _ h => h) fun _ _ h => h
  · rw [wp_bind]
    have hfails := hpasses.trans (Bool.eq_false_iff.2 hp)
    refine wp_mono (rejectCandidate_maintains _ _ _ ⟨hs.start_eq, hs.script_eq, ?_⟩)
      (fun _ _ h => h) fun _ _ h => h
    rw [List.filter_append, List.filter_singleton, hfails, ← hs.dispatched_eq]
    exact (List.append_nil _).symm

theorem adoptNext_maintains (tasks : List AuthoritativeTask) (snapshot : VehicleSnapshot)
    (nowMs : ℚ) :
    Maintains (Dispatching host config start script)
      (adoptNext host config tasks snapshot nowMs) := by
  refine .bind getEngine_maintains fun e => ?_
  split
  · exact .pure none
  · refine .ite (fun _ => ?_) fun _ => .bind (rejectCandidate_maintains _ _) fun _ => .pure none
    refine .bind (.modify fun _ h => ⟨h.start_eq, h.script_eq, h.dispatched_eq⟩) fun _ =>
      .bind (.tryCatch (report_maintains _) fun _ => ?_) fun _ => ?_
    · exact .bind (modifyEngine_maintains _) fun _ => .bind (owe_maintains _) fun _ => .throw _
    · exact .bind (executeCandidate_maintains _) fun _ => .pure _

theorem adoptAndAdvance_maintains (tasks : List AuthoritativeTask) (current : ControlState) :
    Maintains (Dispatching host config start script)
      (adoptAndAdvance host config tasks current) :=
  .bind getEngine_maintains fun _ => .ite
    (fun _ => .bind (adoptNext_maintains _ _ _) fun _ => advance_maintains _ _)
    fun _ => advance_maintains _ _

theorem ingestTasks_maintains (tasks : List AuthoritativeTask) (current : ControlState) :
    Maintains (Dispatching host config start script) (ingestTasks host config tasks current) := by
  refine .bind (rejectGotoDuringTakeoff_maintains _) fun _ => .bind getEngine_maintains fun _ =>
    .ite (fun _ => ?_) fun _ => adoptAndAdvance_maintains _ _
  refine .bind getControlState_maintains fun _ => .bind (establishHold_maintains _ _) fun _ =>
    .ite (fun _ => ?_) fun _ => .pure ()
  exact .bind getControlState_maintains fun _ => .bind (modifyEngine_maintains _) fun _ =>
    adoptAndAdvance_maintains _ _

theorem ingest_maintains (tasks : List AuthoritativeTask) (snapshot : VehicleSnapshot) (nowMs : ℚ) :
    Maintains (Dispatching host config start script)
      (ingest host config tasks snapshot nowMs) := by
  refine .bind (modifyEngine_maintains _) fun _ => .bind flushTerminalReport_maintains fun _ =>
    .bind (observeMode_maintains _) fun _ => .bind getEngine_maintains fun _ =>
      .ite (fun _ => .ite (fun _ => ?_) fun _ => rejectPendingOutsideGuided_maintains _ _ _)
        fun _ => ingestTasks_maintains _ _
  refine .bind (establishHold_maintains _ _) fun _ => .ite (fun _ => ?_) fun _ => .pure ()
  exact .bind getControlState_maintains fun _ => .bind (modifyEngine_maintains _) fun _ =>
    ingestTasks_maintains _ _

theorem abandonActiveForRecovery_maintains (reholdOnGuided : Bool) :
    Maintains (Dispatching host config start script)
      (abandonActiveForRecovery reholdOnGuided) := by
  refine .bind (modifyEngine_maintains _) fun _ => .bind getEngine_maintains fun e => ?_
  split
  · exact .pure none
  · exact .bind (modifyEngine_maintains _) fun _ => .pure _

end Sessions

section Passes

variable {host : Host} {config : ControllerConfig} {world : World} {start : ControlState}
  {script : ℕ → Outcome}

theorem wp_engineCall {α : Type} {m : Proc α} {Q : α → Controller → Prop}
    {E : String → Controller → Prop} {c : Controller} :
    wp (engineCall m) Q E c ↔
      wp m (fun a s => Q a { c with session := s }) (fun e s => E e { c with session := s })
        c.session := by
  have hexec : exec (engineCall m) c =
    ((exec m c.session).1, { c with session := (exec m c.session).2 }) := rfl
  unfold wp
  rw [hexec]
  rcases exec m c.session with ⟨_ | _, _⟩ <;> rfl

variable (host config start script) in
/-- The invariant of a run's session, of the controller that owns it. -/
def Controller.Dispatching (c : Controller) : Prop :=
  Asset.Dispatching host config.asset start script c.session

theorem engineCall_maintains {α : Type} {m : Proc α}
    (h : Maintains (Dispatching host config.asset start script) m) :
    Maintains (Controller.Dispatching host config start script) (engineCall m) := by
  intro c hc
  rw [wp_engineCall]
  exact h c.session hc

theorem await_maintains :
    Maintains (Controller.Dispatching host config start script) (await world) := by
  refine .bind (.modify fun c hc => ?_) fun _ => engineCall_maintains awaitOutcome_maintains
  unfold noteAcknowledged
  split_ifs <;> exact hc

theorem ask_maintains {α : Type} (answer : ℕ → α) :
    Maintains (Controller.Dispatching host config start script) (ask world answer) :=
  .bind .get fun _ => .bind await_maintains fun _ => .pure _

theorem latest_maintains : Maintains (Controller.Dispatching host config start script) latest :=
  engineCall_maintains getControlState_maintains

theorem noteCoreDown_maintains (now : ℚ) :
    Maintains (Controller.Dispatching host config start script) (noteCoreDown now) :=
  .modify fun _ hc => hc

theorem sendControl_maintains (message : MavLinkData) :
    Maintains (Controller.Dispatching host config start script) (sendControl world message) := by
  refine .bind (.modify fun c hc => ?_) fun _ => engineCall_maintains (send_maintains _)
  unfold noteAcknowledged
  split_ifs <;> exact hc

theorem reconcileAfterReconnect_maintains (tasks : List AuthoritativeTask) :
    Maintains (Controller.Dispatching host config start script)
      (reconcileAfterReconnect world tasks) := by
  refine .bind .get fun c => .ite (fun _ => ?_) fun _ => .pure ()
  refine .bind (engineCall_maintains (abandonActiveForRecovery_maintains _)) fun _ =>
    .bind (.modify fun _ hc => hc) fun _ => .bind (.bind .get fun _ => ?_) fun _ =>
      .modify fun c hc => ?_
  · split
    · exact .pure ()
    · exact .bind (.ite (fun _ => .pure ()) fun _ => .bind await_maintains fun _ =>
        engineCall_maintains (.modify fun _ h => ⟨h.start_eq, h.script_eq, h.dispatched_eq⟩))
        fun _ => .bind (engineCall_maintains (note_maintains _)) fun _ => .modify fun _ hc => hc
  · unfold endRecovery
    split_ifs
    · exact hc
    · exact ⟨hc.start_eq, hc.script_eq, hc.dispatched_eq⟩

theorem fetchAuthoritative_maintains :
    Maintains (Controller.Dispatching host config start script) (fetchAuthoritative world) := by
  refine .bind (ask_maintains _) fun _ => .bind (.modify fun _ hc => hc) fun _ =>
    .bind .get fun _ => ?_
  split
  · exact .pure _
  · exact .ite (fun _ => .pure _) fun _ => .bind (ask_maintains _) fun _ =>
      .bind (.modify fun _ hc => hc) fun _ => .pure _

theorem pollCore_maintains (now : ℚ) :
    Maintains (Controller.Dispatching host config start script) (pollCore world now) := by
  refine .tryCatch (.bind fetchAuthoritative_maintains fun _ => .bind ?_ fun _ =>
    .modify fun _ hc => hc) fun _ => noteCoreDown_maintains now
  exact .bind .get fun _ => .ite (fun _ => reconcileAfterReconnect_maintains _) fun _ => .pure ()

theorem watchCoreLossRecovery_maintains (current : ControlState) :
    Maintains (Controller.Dispatching host config start script)
      (watchCoreLossRecovery config world current) := by
  refine .bind (.modify fun c hc => ?_) fun _ => .bind .get fun _ => .ite (fun _ => .pure ())
    fun _ => .ite (fun _ => .pure ()) fun _ => .bind (.modify fun _ hc =>
      ⟨hc.start_eq, hc.script_eq, hc.dispatched_eq⟩) fun _ =>
        .tryCatch (sendControl_maintains _) fun _ => .pure ()
  unfold observeRecovery
  split_ifs <;> exact hc

theorem controlAircraft_maintains :
    Maintains (Controller.Dispatching host config start script)
      (controlAircraft host config world) := by
  refine .bind latest_maintains fun _ => .bind .get fun _ =>
    .ite (fun _ => watchCoreLossRecovery_maintains _) fun _ => .ite (fun _ => ?_) fun _ =>
      watchCoreLossRecovery_maintains _
  exact .bind (engineCall_maintains (note_maintains _)) fun _ =>
    .tryCatch (engineCall_maintains (ingest_maintains _ _ _)) fun _ => noteCoreDown_maintains _

/-- What the steps of a pass keep, the pass keeps. -/
theorem pass_maintains {I : Controller → Prop}
    (hstep : ∀ step : LoopStep, Maintains I (step.proc host config world)) :
    Maintains I (pass host config world) :=
  .bind (.bind .get fun _ => .ite (fun _ => .pure ()) fun _ => .throw _) fun _ =>
    .bind (fun _ hc => hc) fun current => .bind (hstep (.heartbeat current.nowMs)) fun _ =>
      .bind (hstep (.poll current.nowMs)) fun _ => .bind (hstep (.checkin current.nowMs)) fun _ =>
        .bind (hstep .control) fun _ => hstep .sleep

/-- A step keeps what its waits, its clocks and its two longer parts keep. -/
theorem LoopStep.maintains {I : Controller → Prop}
    (hclocks : ∀ (c : Controller) (heartbeat poll telemetry : ℚ), I c →
      I { c with lastHeartbeat := heartbeat, lastPoll := poll, lastTelemetry := telemetry })
    (hawait : Maintains I (await world)) (hdown : ∀ now, Maintains I (noteCoreDown now))
    (hpoll : ∀ now, Maintains I (pollCore world now))
    (hcontrol : Maintains I (controlAircraft host config world)) (step : LoopStep) :
    Maintains I (step.proc host config world) := by
  have hsleep : Maintains I (tryCatch (await world) fun _ => pure ()) :=
    .tryCatch hawait fun _ => .pure ()
  have hlatest : Maintains I latest := fun _ hc => hc
  cases step with
  | heartbeat now =>
    exact .bind .get fun _ => .ite (fun _ => .bind (.modify fun c hc => hclocks c _ _ _ hc) fun _ =>
      hsleep) fun _ => .pure ()
  | poll now =>
    exact .bind .get fun _ => .ite (fun _ => .bind (.modify fun c hc => hclocks c _ _ _ hc) fun _ =>
      hpoll now) fun _ => .pure ()
  | checkin now =>
    refine .bind .get fun _ => .ite (fun _ => .bind (.modify fun c hc => hclocks c _ _ _ hc)
      fun _ => ?_) fun _ => .pure ()
    exact .bind hlatest fun _ => .ite (fun _ => .tryCatch hawait fun _ => .bind hlatest fun _ =>
      hdown _) fun _ => .pure ()
  | control => exact hcontrol
  | sleep => exact hsleep

/-- What the steps keep holds in every state between them. -/
theorem LoopRun.holds {I : Controller → Prop} {c : Controller}
    (hnew : I { session := { engine := {}, start := start, script := script } })
    (hstep : ∀ step : LoopStep, Maintains I (step.proc host config world))
    (run : LoopRun host config world start script c) : I c := by
  induction run with
  | new => exact hnew
  | step step _ ih => exact exec_of_wp (hstep step _ ih)

/-- A step dispatches of the Tasks it starts those that pass. -/
theorem LoopStep.dispatching (step : LoopStep) :
    Maintains (Controller.Dispatching host config start script) (step.proc host config world) :=
  step.maintains (fun _ _ _ _ hc => hc) await_maintains noteCoreDown_maintains pollCore_maintains
    controlAircraft_maintains

theorem run_maintains (shutdown : Shutdown) (n : ℕ) :
    Maintains (Controller.Dispatching host config start script)
      (run host config world shutdown n) := by
  induction n with
  | zero => exact .pure ()
  | succ n ih =>
    exact .bind .get fun _ => .ite
      (fun _ => .bind (pass_maintains LoopStep.dispatching) fun _ => ih) fun _ => .pure ()

theorem runSession_dispatching (shutdown : Shutdown) (n : ℕ) :
    Dispatching host config.asset start script
      (runSession host config world shutdown start script n) := by
  have hnew : Controller.Dispatching host config start script
      { session := { engine := {}, start := start, script := script } } := ⟨rfl, rfl, rfl⟩
  exact exec_of_wp (run_maintains shutdown n _ hnew)

def flightControl : ControllerConfig where
  asset := flightConfig
  coreLossGraceSeconds := 10
  telemetryIntervalSeconds := 1

/-- Core delivers a takeoff to 110 m above sea level. -/
def takeoffWorld : World where
  fetchTasks _ := [⟨"takeoff", "flight.takeoff", .pending, none, [("altitude_m", .number 110)]⟩]
  getTask _ := ⟨"takeoff", "flight.takeoff", .pending, none, [("altitude_m", .number 110)]⟩
  acknowledged _ := false
  linkHealthy _ := true

/-- The signal comes while Core takes the takeoff's start, after the awaits of the heartbeat, the
Tasks and the check-in. -/
def signalAtStart : Shutdown where
  signalled := 3
  seen := flying true 0 2000
  linkOpen := true
  closed := 5

end Passes

end Atlas.Asset
