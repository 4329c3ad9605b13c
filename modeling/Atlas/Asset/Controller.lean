import Atlas.Asset.TaskEngine

/-!
# The Asset controller

The controller runs one loop for its aircraft. A pass of the loop sends a heartbeat, asks Core for
the Tasks, checks in, and then lets the engine ingest the Tasks or watches over the recovery of a
lost Core. Its session is that of the whole run: the awaits of the loop and of the engine's methods
are counted together.

Shutting down is asked for while the loop waits. It stops the loop before its next pass, may hand
over a return to launch at once, and closes the link some time later; the pass that waits goes on.
-/

namespace Atlas.Asset

open Effects

structure ControllerConfig where
  asset : AssetConfig
  coreLossGraceSeconds : ℚ
  telemetryIntervalSeconds : ℚ

/-- What the awaits of a run bring besides the control state: Core's answers, whether the aircraft
acknowledged a return to launch meanwhile, and whether the link is healthy. -/
structure World where
  fetchTasks : ℕ → List AuthoritativeTask
  getTask : ℕ → AuthoritativeTask
  acknowledged : ℕ → Bool
  linkHealthy : ℕ → Bool

/-- A return to launch that a recovery sent: the aircraft, what the engine executed, since when Core
was gone, and the flags and number of the recovery. -/
structure RecoverySend where
  control : ControlState
  activeCommand : Option String
  coreDownSince : Option ℚ
  coreLossRecovery : Bool
  confirmed : Bool
  relinquished : Bool
  recovery : ℕ

/-- The fields of the `AssetController` object and the variables of its loop. `answered` are the
Tasks of Core's answers so far, `sends` the recoveries' returns to launch and `recovery` how many
recoveries have ended. -/
structure Controller where
  session : Session
  coreDownSince : Option ℚ := none
  coreLossRecovery : Bool := false
  coreLossRecoveryConfirmed : Bool := false
  coreLossRecoveryRelinquished : Bool := false
  lastCoreLossRecoveryAttemptMs : Option ℚ := none
  lastTasks : List AuthoritativeTask := []
  recoveryTaskToFail : Option String := none
  lastTelemetry : ℚ := 0
  lastHeartbeat : ℚ := 0
  lastPoll : ℚ := 0
  answered : List AuthoritativeTask := []
  sends : List RecoverySend := []
  recovery : ℕ := 0

abbrev Control (α : Type) := Eff Controller String α

/-- A call of the engine. -/
def engineCall {α : Type} (m : Proc α) : Control α :=
  ExceptT.mk fun c => ((exec m c.session).1, { c with session := (exec m c.session).2 })

def Engine.reconciliationTaskId (e : Engine) : Option String :=
  (e.pendingTerminalReport.map (·.taskId)).or (e.active.map (·.task.taskId))

def Engine.activeCommand (e : Engine) : Option String :=
  match e.active with
  | none => none
  | some active => if isFlightCommand active.task.command then some active.task.command else none

structure RecoveryArgs where
  downMs : ℚ
  graceMs : ℚ
  guided : Bool
  activeCommand : Option String
  recoveryRunning : Bool
  telemetryFresh : Bool

def shouldRequestCoreLossRecovery (args : RecoveryArgs) : Bool :=
  if args.recoveryRunning then false
  else if args.activeCommand = some "flight.land" ∨
      args.activeCommand = some "flight.return_to_launch" then false
  else if !args.guided || !args.telemetryFresh then false
  else args.graceMs ≤ args.downMs

def coreLossRtlRetryMs : ℚ := 1000

section Loop

variable (host : Host) (config : ControllerConfig) (world : World)

/-- The message that is handled while the loop waits: an acknowledged return to launch. -/
def noteAcknowledged (c : Controller) : Controller :=
  if c.coreLossRecovery && world.acknowledged c.session.awaited then
    { c with coreLossRecoveryConfirmed := true }
  else c

/-- Wait for a promise of the loop's own. -/
def await : Control Unit := do
  modify (noteAcknowledged world)
  engineCall awaitOutcome

/-- Wait for an answer of Core. -/
def ask {α : Type} (answer : ℕ → α) : Control α := do
  let c ← get
  await world
  return answer c.session.awaited

def latest : Control ControlState := engineCall getControlState

/-- Hand a command of the loop's own to the link. -/
def sendControl (message : MavLinkData) : Control Unit := do
  modify (noteAcknowledged world)
  engineCall (send message)

def noteCoreDown (now : ℚ) : Control Unit :=
  modify fun c => { c with coreDownSince := some (c.coreDownSince.getD now) }

def assertLinkHealthy : Control Unit := do
  if world.linkHealthy (← get).session.awaited then pure ()
  else throw "MAVLink link closed while the Asset host was running."

/-- A heartbeat that cannot be sent is only logged. -/
def sendGcsHeartbeat : Control Unit := tryCatch (await world) fun _ => pure ()

def recoveryFailure (taskId : String) : PendingTerminalReport :=
  .fail taskId .executionFailed
    "Core link lost; recovery RTL requested and the interrupted action was not resumed."

/-- The failure of the interrupted Task is reported, unless Core says that it has ended. -/
def failInterrupted (tasks : List AuthoritativeTask) (taskId : String) : Control Unit := do
  if (tasks.find? (·.taskId = taskId)).any (·.status.terminal) then pure ()
  else
    await world
    engineCall (modify fun s =>
      { s with accepted := s.accepted ++ [.terminal (recoveryFailure taskId)] })

def settleRecoveryTask (tasks : List AuthoritativeTask) : Control Unit := do
  match (← get).recoveryTaskToFail with
  | none => pure ()
  | some taskId =>
    failInterrupted world tasks taskId
    engineCall (note (.settled taskId))
    modify fun c => { c with recoveryTaskToFail := none }

/-- The recovery goes on until the aircraft confirms it or a pilot takes over. -/
def endRecovery (c : Controller) : Controller :=
  if !c.coreLossRecoveryConfirmed && !c.coreLossRecoveryRelinquished then c
  else
    { c with
      coreLossRecovery := false
      coreLossRecoveryConfirmed := false
      coreLossRecoveryRelinquished := false
      lastCoreLossRecoveryAttemptMs := none
      recovery := c.recovery + 1
      session := { c.session with
        marks := c.session.marks ++
          [.closed c.coreLossRecoveryConfirmed c.coreLossRecoveryRelinquished] } }

def reconcileAfterReconnect (tasks : List AuthoritativeTask) : Control Unit := do
  let c ← get
  if c.coreLossRecovery then
    let abandonedTaskId ← engineCall (abandonActiveForRecovery c.coreLossRecoveryRelinquished)
    modify fun c => { c with recoveryTaskToFail := c.recoveryTaskToFail.or abandonedTaskId }
    settleRecoveryTask world tasks
    modify endRecovery
  else pure ()

def reconcileAfterLoss (tasks : List AuthoritativeTask) : Control Unit := do
  let c ← get
  if c.coreDownSince.isSome || c.coreLossRecovery then reconcileAfterReconnect world tasks
  else pure ()

/-- The Tasks Core delivers, with the one the engine or the recovery still has to settle. -/
def fetchAuthoritative : Control (List AuthoritativeTask) := do
  let tasks ← ask world world.fetchTasks
  modify fun c => { c with answered := c.answered ++ tasks }
  let c ← get
  match c.session.engine.reconciliationTaskId.or c.recoveryTaskToFail with
  | none => return tasks
  | some taskId =>
    if tasks.any (·.taskId = taskId) then return tasks
    else
      let task ← ask world world.getTask
      modify fun c => { c with answered := c.answered ++ [task] }
      return tasks ++ [task]

def pollCore (now : ℚ) : Control Unit :=
  tryCatch
    (do
      let tasks ← fetchAuthoritative world
      reconcileAfterLoss world tasks
      modify fun c => { c with lastTasks := tasks, coreDownSince := none })
    fun _ => noteCoreDown now

/-- Check-ins pause while the aircraft's telemetry is stale. -/
def reportTelemetry : Control Unit := do
  let current ← latest
  if hasFreshControlTelemetry current.snapshot current.nowMs then
    tryCatch (await world) fun _ => do noteCoreDown (← latest).nowMs
  else pure ()

/-- What the aircraft's mode says about a recovery under way. -/
def observeRecovery (current : ControlState) (c : Controller) : Controller :=
  if c.coreLossRecovery = true ∧
      hasFreshControlTelemetry current.snapshot current.nowMs = true ∧
      current.snapshot.customMode ≠ none ∧ current.snapshot.guided = false ∧
      current.snapshot.mode.startsWith "UNKNOWN" = false then
    if current.snapshot.mode = "RTL" ∨ current.snapshot.mode = "LAND" then
      { c with coreLossRecoveryConfirmed := true }
    else { c with coreLossRecoveryRelinquished := true }
  else c

def recoveryArgs (current : ControlState) (c : Controller) : RecoveryArgs :=
  let graceMs := config.coreLossGraceSeconds * 1000
  { downMs :=
      if c.coreLossRecovery then graceMs
      else current.nowMs - c.coreDownSince.getD current.nowMs
    graceMs := graceMs
    guided := current.snapshot.guided
    activeCommand := c.session.engine.activeCommand
    recoveryRunning := c.coreLossRecoveryConfirmed || c.coreLossRecoveryRelinquished
    telemetryFresh := hasFreshControlTelemetry current.snapshot current.nowMs }

def requestRecovery (current : ControlState) (c : Controller) : Controller :=
  { c with
    lastCoreLossRecoveryAttemptMs := some current.nowMs
    coreLossRecovery := true
    sends := c.sends ++ [⟨current, c.session.engine.activeCommand, c.coreDownSince,
      c.coreLossRecovery, c.coreLossRecoveryConfirmed, c.coreLossRecoveryRelinquished, c.recovery⟩]
    session := { c.session with
      marks := c.session.marks ++ [.requested (c.session.engine.active.map (·.task.taskId))] } }

def watchCoreLossRecovery (current : ControlState) : Control Unit := do
  modify (observeRecovery current)
  let c ← get
  if shouldRequestCoreLossRecovery (recoveryArgs config current c) = false then pure ()
  else if c.lastCoreLossRecoveryAttemptMs.any fun last =>
      current.nowMs - last < coreLossRtlRetryMs then pure ()
  else
    modify (requestRecovery current)
    tryCatch
      (sendControl world
        (returnToLaunchCommand config.asset.vehicleSystemId config.asset.vehicleComponentId))
      fun _ => pure ()

/-- The end of a pass acts on the aircraft's state after Core's answers. -/
def controlAircraft : Control Unit := do
  let current ← latest
  let c ← get
  if c.coreLossRecovery then watchCoreLossRecovery config world current
  else if c.coreDownSince.isNone then
    engineCall (note .ingest)
    tryCatch
      (engineCall (ingest host config.asset c.lastTasks current.snapshot current.nowMs))
      fun _ => noteCoreDown current.nowMs
  else watchCoreLossRecovery config world current

def heartbeatWhenDue (now : ℚ) : Control Unit := do
  if 1000 ≤ now - (← get).lastHeartbeat then
    modify fun c => { c with lastHeartbeat := now }
    sendGcsHeartbeat world
  else pure ()

def pollWhenDue (now : ℚ) : Control Unit := do
  if 1000 ≤ now - (← get).lastPoll then
    modify fun c => { c with lastPoll := now }
    pollCore world now
  else pure ()

def checkinWhenDue (now : ℚ) : Control Unit := do
  if config.telemetryIntervalSeconds * 1000 ≤ now - (← get).lastTelemetry then
    modify fun c => { c with lastTelemetry := now }
    reportTelemetry world
  else pure ()

def sleep : Control Unit := tryCatch (await world) fun _ => pure ()

/-- A pass of the loop, with the sleep at its end. -/
def pass : Control Unit := do
  assertLinkHealthy world
  let now := (← latest).nowMs
  heartbeatWhenDue world now
  pollWhenDue world now
  checkinWhenDue config world now
  controlAircraft host config world
  sleep world

/-- What a pass does, each with the time the pass began. -/
inductive LoopStep
  | heartbeat (now : ℚ)
  | poll (now : ℚ)
  | checkin (now : ℚ)
  | control
  | sleep

def LoopStep.proc : LoopStep → Control Unit
  | .heartbeat now => heartbeatWhenDue world now
  | .poll now => pollWhenDue world now
  | .checkin now => checkinWhenDue config world now
  | .control => controlAircraft host config world
  | .sleep => Asset.sleep world

/-- The states of the controller between its steps, taken in any order, whether they return or
throw. -/
inductive LoopRun (start : ControlState) (script : ℕ → Outcome) : Controller → Prop
  | new : LoopRun start script { session := { engine := {}, start := start, script := script } }
  | step {c : Controller} (step : LoopStep) : LoopRun start script c →
      LoopRun start script (exec (step.proc host config world) c).2

end Loop

section ShuttingDown

/-- The loop waits for the `signalled`th of its awaits when shutdown is called, which then sees
`seen`; the link is closed while the loop waits for the `closed`th. -/
structure Shutdown where
  signalled : ℕ
  seen : ControlState
  linkOpen : Bool
  closed : ℕ

/-- Whether `performShutdown` hands over a return to launch. -/
def Shutdown.requestsReturn (shutdown : Shutdown) (e : Engine) : Bool :=
  let snapshot := shutdown.seen.snapshot
  let airborne := snapshot.armed ||
    decide (1 / 2 < |(snapshot.observation.map (·.relativeAltitudeM)).getD 0|)
  airborne && snapshot.guided && e.activeCommand ≠ some "flight.land" &&
    e.activeCommand ≠ some "flight.return_to_launch" &&
    hasFreshControlTelemetry snapshot shutdown.seen.nowMs && shutdown.linkOpen

variable (host : Host) (config : ControllerConfig) (world : World)

/-- At most `n` passes of the loop, the last of which is the one shutdown was called in. -/
def run (shutdown : Shutdown) : ℕ → Control Unit
  | 0 => pure ()
  | n + 1 => do
    if (← get).session.awaited ≤ shutdown.signalled then
      pass host config world
      run shutdown n
    else pure ()

/-- The session after at most `n` passes. -/
def runSession (shutdown : Shutdown) (start : ControlState) (script : ℕ → Outcome) (n : ℕ) :
    Session :=
  (exec (run host config world shutdown n)
    { session := { engine := {}, start := start, script := script } }).2.session

/-- Having resumed from `awaited` awaits, the loop acts after the return to launch that shutdown
handed over and before the link is closed. -/
def Shutdown.Overtaken (shutdown : Shutdown) (s : Session) (awaited : ℕ) : Prop :=
  (s.suspended[shutdown.signalled]?).any shutdown.requestsReturn = true ∧
    shutdown.signalled < awaited ∧ awaited ≤ shutdown.closed

instance (shutdown : Shutdown) (s : Session) (awaited : ℕ) :
    Decidable (shutdown.Overtaken s awaited) :=
  inferInstanceAs (Decidable (_ ∧ _))

/-- What keeps a Task's command from the aircraft. -/
def ControlState.problems (c : ControlState) (host : Host) (config : AssetConfig)
    (task : AuthoritativeTask) : List String :=
  preconditions host config task c.snapshot c.nowMs

/-- A takeoff or a go-to. -/
def AuthoritativeTask.Moves (task : AuthoritativeTask) : Prop :=
  task.command = "flight.takeoff" ∨ task.command = "flight.goto"

instance (task : AuthoritativeTask) : Decidable task.Moves :=
  inferInstanceAs (Decidable (_ ∨ _))

end ShuttingDown

end Atlas.Asset
