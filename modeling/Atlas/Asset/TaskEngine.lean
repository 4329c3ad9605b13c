import Atlas.Asset.Vehicle
import Atlas.Lib.Effects

/-!
# The Task engine

The engine executes flight Tasks against one vehicle. Its methods are asynchronous: they await the
reports they send to Core and the commands they hand to the sender, and while they wait the
aircraft flies on. A session is one call of a method: the control state it is called in, what each
await of it brings (the control state it resumes in, and whether the promise is rejected), and what
it has reported and handed over so far.
-/

namespace Atlas.Asset

open Effects

inductive TaskStatus
  | pending
  | acknowledged
  | inProgress
  | completed
  | failed
  | cancelled
  deriving DecidableEq, Repr

def TaskStatus.terminal : TaskStatus → Bool
  | .completed | .failed | .cancelled => true
  | .pending | .acknowledged | .inProgress => false

def TaskStatus.actionable : TaskStatus → Bool
  | .pending | .acknowledged => true
  | .inProgress | .completed | .failed | .cancelled => false

/-- A value of a Task's input: a finite number, or anything else. -/
inductive InputValue
  | number (value : ℚ)
  | other

structure AuthoritativeTask where
  taskId : String
  command : String
  status : TaskStatus
  cancellationCode : Option String
  input : List (String × InputValue)

inductive FailureCode
  | preconditionFailed
  | executionFailed
  deriving DecidableEq, Repr

def isFlightCommand (command : String) : Bool :=
  command = "flight.takeoff" || command = "flight.goto" || command = "flight.return_to_launch" ||
    command = "flight.land"

/-- `none` for a distance is `Number.POSITIVE_INFINITY`. -/
structure RecoveryProgress where
  highestAltitudeM : ℚ
  lowestAltitudeM : ℚ
  closestLaunchDistanceM : Option ℚ
  expectedModeIndex : ℤ

structure ActiveExecution where
  task : AuthoritativeTask
  startedAtMs : ℚ
  lastProgressAtMs : ℚ
  recoveryProgress : Option RecoveryProgress
  startRemainingM : Option ℚ
  bestRemainingM : Option ℚ
  settleSinceMs : Option ℚ
  expectedModes : List String

inductive PendingTerminalReport
  | complete (taskId : String)
  | fail (taskId : String) (code : FailureCode) (message : String)
  deriving DecidableEq

def PendingTerminalReport.taskId : PendingTerminalReport → String
  | .complete taskId => taskId
  | .fail taskId _ _ => taskId

/-- The fields of the `TaskEngine` object. -/
structure Engine where
  active : Option ActiveExecution := none
  finished : List String := []
  reholdOnGuided : Bool := false
  holdRequiredBeforeMovement : Bool := false
  pendingTerminalReport : Option PendingTerminalReport := none
  lastMode : Option String := none

/-- What an await brings: the control state the method resumes in, and how the promise settled. -/
structure Outcome where
  control : ControlState
  result : Except String Unit

/-- A message handed to the sender, with the latest control state at that moment. -/
structure HandOver where
  message : MavLinkData
  control : ControlState

inductive Report
  | start (taskId : String)
  | terminal (report : PendingTerminalReport)
  deriving DecidableEq

/-- What happens around a recovery, in the order it does: its return to launch is sent with a Task
executed or none, Core takes that Task's failure or tells that it is over, the recovery ends, the
engine is asked to ingest, a position is held, a Task is dispatched. -/
inductive Mark
  | requested (interrupted : Option String)
  | settled (taskId : String)
  | closed (confirmed relinquished : Bool)
  | ingest
  | hold
  | dispatch (task : AuthoritativeTask)

/-- A Task that is acted on after so many awaits. -/
structure Attempt where
  task : AuthoritativeTask
  awaited : ℕ

/-- `started` are the Tasks whose start Core accepted and `dispatched` those whose command was then
dispatched; `suspended` is the engine at each await and `starting` the one at each start reported;
`accepted` are the reports Core took and `owed` the ends that were to be reported. -/
structure Session where
  engine : Engine
  start : ControlState
  script : ℕ → Outcome
  awaited : ℕ := 0
  handed : List HandOver := []
  reports : List Report := []
  started : List Attempt := []
  dispatched : List Attempt := []
  suspended : List Engine := []
  starting : List Engine := []
  accepted : List Report := []
  owed : List PendingTerminalReport := []
  marks : List Mark := []

/-- The control state after `k` awaits of a call. -/
def controlAt (start : ControlState) (script : ℕ → Outcome) : ℕ → ControlState
  | 0 => start
  | k + 1 => (script k).control

def Session.latest (s : Session) : ControlState := controlAt s.start s.script s.awaited

abbrev Proc (α : Type) := Eff Session String α

def note (mark : Mark) : Proc Unit := modify fun s => { s with marks := s.marks ++ [mark] }

def getEngine : Proc Engine := do return (← get).engine

def modifyEngine (f : Engine → Engine) : Proc Unit := modify fun s => { s with engine := f s.engine }

def getControlState : Proc ControlState := do return (← get).latest

/-- Wait for a promise: time passes and the aircraft moves, then it resolves or is rejected. -/
def awaitOutcome : Proc Unit := do
  let s ← get
  modify fun s => { s with awaited := s.awaited + 1, suspended := s.suspended ++ [s.engine] }
  match (s.script s.awaited).result with
  | .ok () => pure ()
  | .error message => throw message

def send (message : MavLinkData) : Proc Unit := do
  modify fun s => { s with handed := s.handed ++ [⟨message, s.latest⟩] }
  awaitOutcome

def report (r : Report) : Proc Unit := do
  modify fun s => { s with reports := s.reports ++ [r] }
  awaitOutcome
  modify fun s => { s with accepted := s.accepted ++ [r] }

/-- An end is kept to be reported. -/
def owe (pending : PendingTerminalReport) : Proc Unit := do
  modifyEngine fun e => { e with pendingTerminalReport := some pending }
  modify fun s => { s with owed := s.owed ++ [pending] }

def numberInput (input : List (String × InputValue)) (key : String) : Option ℚ :=
  match input.lookup key with
  | some (.number value) => some value
  | _ => none

def expectedModesFor (command : String) : List String :=
  if command = "flight.return_to_launch" then ["GUIDED", "RTL", "LAND"]
  else if command = "flight.land" then ["GUIDED", "LAND"]
  else ["GUIDED"]

/-- `Array.indexOf`. -/
def indexOf (modes : List String) (mode : String) : ℤ :=
  if mode ∈ modes then (modes.idxOf mode : ℤ) else -1

def Engine.finish (taskId : String) (e : Engine) : Engine :=
  { e with finished := e.finished.insert taskId }

section Reports

def flushTerminalReport : Proc Unit := do
  match (← getEngine).pendingTerminalReport with
  | none => pure ()
  | some pending =>
    report (.terminal pending)
    modifyEngine fun e =>
      if e.pendingTerminalReport = some pending then { e with pendingTerminalReport := none } else e

def reportTerminal (pending : PendingTerminalReport) : Proc Unit := do
  owe pending
  flushTerminalReport

/-- Pilot took the aircraft out of Guided; fail the interrupted task. -/
def noteTakeover (mode : String) : Proc Unit := do
  match (← getEngine).active with
  | none => pure ()
  | some active =>
    if mode ∈ active.expectedModes then pure ()
    else
      modifyEngine fun e =>
        { e.finish active.task.taskId with active := none, reholdOnGuided := true }
      reportTerminal (.fail active.task.taskId .executionFailed
        ("Pilot takeover to " ++ mode ++ "; Atlas no longer has control."))

def observeMode (snapshot : VehicleSnapshot) : Proc Unit := do
  let e ← getEngine
  if snapshot.customMode = none ∨ e.lastMode = some snapshot.mode then pure ()
  else
    modifyEngine fun e => { e with lastMode := some snapshot.mode }
    if e.active.any fun active =>
        e.lastMode.any (· ∈ active.expectedModes) && snapshot.mode ∉ active.expectedModes then
      noteTakeover snapshot.mode
    else if e.lastMode = some "GUIDED" ∧ snapshot.mode ≠ "GUIDED" then noteTakeover snapshot.mode
    else pure ()

end Reports

section Tasks

variable (host : Host) (config : AssetConfig)

def reconcilePending (byId : String → Option AuthoritativeTask) (e : Engine) : Engine :=
  match e.pendingTerminalReport with
  | none => e
  | some pending =>
    if (byId pending.taskId).any (·.status.terminal) then { e with pendingTerminalReport := none }
    else e

/-- An in-progress Task is absent from the delivered list, so a missing one is not cancelled. -/
def reconcileActive (byId : String → Option AuthoritativeTask) (e : Engine) : Engine :=
  match e.active with
  | none => e
  | some active =>
    match byId active.task.taskId with
    | none => e
    | some authoritative =>
      if authoritative.status.terminal then
        { e.finish authoritative.taskId with
          active := none
          holdRequiredBeforeMovement :=
            e.holdRequiredBeforeMovement ||
              (authoritative.status = .cancelled &&
                authoritative.cancellationCode = some "requested" &&
                active.task.command = "flight.goto") }
      else { e with active := some { active with task := authoritative } }

/-- The last Task of an id wins, as in a `Map` built from the list. -/
def taskById (tasks : List AuthoritativeTask) (taskId : String) : Option AuthoritativeTask :=
  tasks.reverse.find? (·.taskId = taskId)

def reconcileAuthoritative (tasks : List AuthoritativeTask) (e : Engine) : Engine :=
  let e := reconcileActive (taskById tasks) (reconcilePending (taskById tasks) e)
  (tasks.filter (·.status.terminal)).foldl (fun e task => e.finish task.taskId) e

/-- The battery is checked for the commands that climb or travel. -/
def preconditions (task : AuthoritativeTask) (snapshot : VehicleSnapshot) (nowMs : ℚ) :
    List String :=
  (if snapshot.guided then []
    else ["Requires Guided mode; aircraft is in " ++ snapshot.mode ++
      ". Atlas never forces Guided."]) ++
  (if snapshot.identity.any fun identity =>
      identity.systemId = config.vehicleSystemId &&
        identity.componentId = config.vehicleComponentId then []
    else ["Connected vehicle does not match the configured vehicle identity."]) ++
  (if hasFreshControlTelemetry snapshot nowMs then []
    else ["Requires fresh telemetry; heartbeat or position observations are stale."]) ++
  (if task.command = "flight.takeoff" ∨ task.command = "flight.goto" then
      (checkBatteryReadiness host config snapshot).toList
    else []) ++
  (if task.command = "flight.return_to_launch" ∨ task.command = "flight.land" then
      if !snapshot.armed ∨ |(snapshot.observation.map (·.relativeAltitudeM)).getD 0| ≤ 3 / 10 then
        ["Recovery requires an airborne aircraft."]
      else []
    else []) ++
  (if task.command = "flight.takeoff" then
      (if snapshot.armed then []
        else ["Takeoff requires an already-armed aircraft; Atlas never arms."]) ++
      match numberInput task.input "altitude_m" with
      | none => ["Takeoff requires altitude_m in meters above mean sea level."]
      | some target =>
        match snapshot.launchElevationM with
        | none => ["Takeoff requires verified launch elevation to convert the MSL target."]
        | some launchElevationM =>
          if !snapshot.launchElevationVerified then
            ["Takeoff requires verified launch elevation to convert the MSL target."]
          else if target ≤ launchElevationM + 3 / 10 then
            ["Takeoff target must be above launch elevation."]
          else []
    else []) ++
  (if task.command = "flight.goto" then
      if (numberInput task.input "latitude").isNone ∨ (numberInput task.input "longitude").isNone ∨
          (numberInput task.input "altitude_m").isNone then
        ["Go-to requires latitude, longitude, and altitude_m in meters above mean sea level."]
      else []
    else [])

def joined (problems : List String) : String := " ".intercalate problems

/-- A new go-to must not interrupt the agreed takeoff behavior. -/
def rejectGotoDuringTakeoff (tasks : List AuthoritativeTask) : Proc Unit := do
  if (← getEngine).active.any (·.task.command = "flight.takeoff") then
    tasks.forM fun task => do
      if task.command = "flight.goto" ∧ task.status.actionable = true ∧
          task.taskId ∉ (← getEngine).finished then
        modifyEngine (Engine.finish task.taskId)
        reportTerminal (.fail task.taskId .preconditionFailed "Go-to during takeoff is rejected.")
      else pure ()
  else pure ()

def rejectPendingOutsideGuided (tasks : List AuthoritativeTask) (snapshot : VehicleSnapshot)
    (nowMs : ℚ) : Proc Unit :=
  tasks.forM fun task => do
    if !isFlightCommand task.command ∨ task.status.actionable = false ∨
        task.taskId ∈ (← getEngine).finished then pure ()
    else
      modifyEngine (Engine.finish task.taskId)
      reportTerminal (.fail task.taskId .preconditionFailed
        (joined (preconditions host config task snapshot nowMs)))

end Tasks

section Execution

variable (host : Host) (config : AssetConfig)

def dispatch (task : AuthoritativeTask) (snapshot : VehicleSnapshot) : Proc Unit :=
  let sysid := config.vehicleSystemId
  let compid := config.vehicleComponentId
  if task.command = "flight.takeoff" then
    match numberInput task.input "altitude_m", snapshot.launchElevationM with
    | some target, some launch => send (takeoffCommand sysid compid (target - launch))
    | _, _ => pure ()
  else if task.command = "flight.goto" then
    match snapshot.observation with
    | none => pure ()
    | some observation =>
      send (gotoPositionCommand sysid compid
        ((numberInput task.input "latitude").getD observation.latitudeDeg)
        ((numberInput task.input "longitude").getD observation.longitudeDeg)
        ((numberInput task.input "altitude_m").getD observation.altitudeMslM))
  else if task.command = "flight.return_to_launch" then send (returnToLaunchCommand sysid compid)
  else if task.command = "flight.land" then send (landCommand sysid compid)
  else pure ()

def remaining (task : AuthoritativeTask) (snapshot : VehicleSnapshot) : Option ℚ := do
  let observation ← snapshot.observation
  if task.command = "flight.takeoff" then
    let target ← numberInput task.input "altitude_m"
    return |target - observation.altitudeMslM|
  else if task.command = "flight.goto" then
    let latitude ← numberInput task.input "latitude"
    let longitude ← numberInput task.input "longitude"
    let altitude ← numberInput task.input "altitude_m"
    return max (host.haversineM observation.latitudeDeg observation.longitudeDeg latitude longitude)
      |altitude - observation.altitudeMslM|
  else none

def launchDistanceM (snapshot : VehicleSnapshot) : Option ℚ := do
  let observation ← snapshot.observation
  let latitude ← snapshot.launchLatitudeDeg
  let longitude ← snapshot.launchLongitudeDeg
  return host.haversineM observation.latitudeDeg observation.longitudeDeg latitude longitude

/-- Less than a distance that may be infinite. -/
def closerThan (d : ℚ) : Option ℚ → Bool
  | none => true
  | some bound => d < bound

/-- Only new best values count. RTL may climb first, then descend from that new peak. -/
def recoveryProgressed (active : ActiveExecution) (snapshot : VehicleSnapshot) :
    Bool × ActiveExecution :=
  match active.recoveryProgress, snapshot.observation with
  | some progress, some observation =>
    let modeIndex := indexOf active.expectedModes snapshot.mode
    let moded := decide (progress.expectedModeIndex < modeIndex)
    let progress := if moded then { progress with expectedModeIndex := modeIndex } else progress
    let returning := active.task.command = "flight.return_to_launch"
    let altitudeM := observation.altitudeMslM
    let (climbed, progress) :=
      if returning ∧ progress.highestAltitudeM + 1 / 2 ≤ altitudeM then
        (true, { progress with highestAltitudeM := altitudeM, lowestAltitudeM := altitudeM })
      else if altitudeM ≤ progress.lowestAltitudeM - 1 / 2 then
        (true, { progress with lowestAltitudeM := altitudeM })
      else (false, progress)
    let (approached, progress) :=
      match launchDistanceM host snapshot with
      | some distance =>
        if returning ∧ progress.closestLaunchDistanceM.all (fun closest => distance ≤ closest - 1 / 2)
        then (true, { progress with closestLaunchDistanceM := some distance })
        else (false, progress)
      | none => (false, progress)
    (moded || climbed || approached, { active with recoveryProgress := some progress })
  | _, _ => (false, active)

/-- Whether the execution is complete, and the execution with its settling time kept. -/
def isComplete (active : ActiveExecution) (snapshot : VehicleSnapshot) (nowMs : ℚ) :
    Bool × ActiveExecution :=
  match hasFreshControlTelemetry snapshot nowMs, snapshot.observation with
  | true, some observation =>
    if active.task.command = "flight.takeoff" then
      match numberInput active.task.input "altitude_m" with
      | none => (false, active)
      | some target =>
        if snapshot.guided = true ∧ snapshot.armed = true ∧
            3 / 10 < observation.relativeAltitudeM ∧
            |target - observation.altitudeMslM| ≤ config.altitudeToleranceM ∧
            observation.groundSpeedMS ≤ 1 / 2 then
          let settleSinceMs := active.settleSinceMs.getD nowMs
          (config.hoverSettleSeconds * 1000 ≤ nowMs - settleSinceMs,
            { active with settleSinceMs := some settleSinceMs })
        else (false, { active with settleSinceMs := none })
    else if active.task.command = "flight.goto" then
      match numberInput active.task.input "latitude", numberInput active.task.input "longitude",
        numberInput active.task.input "altitude_m" with
      | some latitude, some longitude, some altitude =>
        (host.haversineM observation.latitudeDeg observation.longitudeDeg latitude longitude ≤
            config.arrivalRadiusM &&
          |altitude - observation.altitudeMslM| ≤ config.altitudeToleranceM, active)
      | _, _, _ => (false, active)
    else if active.task.command = "flight.return_to_launch" ∨
        active.task.command = "flight.land" then
      if !snapshot.armed && |observation.relativeAltitudeM| ≤ 3 / 10 then
        if active.task.command = "flight.land" then (true, active)
        else ((launchDistanceM host snapshot).any (· ≤ config.arrivalRadiusM), active)
      else (false, active)
    else (false, active)
  | _, _ => (false, active)

def establishHold (snapshot : VehicleSnapshot) (nowMs : ℚ) : Proc Bool :=
  match snapshot.observation with
  | none => pure false
  | some observation =>
    if snapshot.guided = false ∨ hasFreshControlTelemetry snapshot nowMs = false then pure false
    else do
      send (holdPositionCommand config.vehicleSystemId config.vehicleComponentId
        observation.latitudeDeg observation.longitudeDeg observation.altitudeMslM)
      note .hold
      return true

/-- Action-specific recovery of a failed execution: a go-to holds, an airborne takeoff lands. -/
def recoverFailed (command : String) (snapshot : VehicleSnapshot) (nowMs : ℚ) : Proc Unit := do
  if (command = "flight.goto" ∨ command = "flight.takeoff") ∧ snapshot.guided = true ∧
      snapshot.armed = true ∧ hasFreshControlTelemetry snapshot nowMs = true then
    if command = "flight.goto" then
      let _ ← establishHold config snapshot nowMs
    else if snapshot.observation.any fun observation => 1 / 2 < |observation.relativeAltitudeM| then
      send (landCommand config.vehicleSystemId config.vehicleComponentId)
    else pure ()
  else pure ()

def failActive (code : FailureCode) (message : String) (snapshot : VehicleSnapshot) (nowMs : ℚ) :
    Proc Unit := do
  match (← getEngine).active with
  | none => pure ()
  | some active =>
    modifyEngine fun e => { e.finish active.task.taskId with active := none }
    owe (.fail active.task.taskId code message)
    recoverFailed config active.task.command snapshot nowMs
    flushTerminalReport

/-- Whether the execution came closer to its end, and the execution with that recorded. -/
def noteProgress (active : ActiveExecution) (snapshot : VehicleSnapshot) (nowMs : ℚ) :
    Bool × ActiveExecution :=
  if hasFreshControlTelemetry snapshot nowMs then
    match remaining host active.task snapshot with
    | some distance =>
      if closerThan distance active.bestRemainingM then
        (true, { active with bestRemainingM := some distance, lastProgressAtMs := nowMs })
      else
        let (progressed, active) := recoveryProgressed host active snapshot
        if progressed then
          (true, { active with bestRemainingM := some distance, lastProgressAtMs := nowMs })
        else (false, active)
    | none =>
      let (progressed, active) := recoveryProgressed host active snapshot
      if progressed then (true, { active with lastProgressAtMs := nowMs }) else (false, active)
  else (false, active)

def completeActive (active : ActiveExecution) (snapshot : VehicleSnapshot) (nowMs : ℚ) :
    Proc Unit := do
  let (complete, active) := isComplete host config active snapshot nowMs
  if complete then
    modifyEngine fun e => { e.finish active.task.taskId with active := none }
    reportTerminal (.complete active.task.taskId)
  else modifyEngine fun e => { e with active := some active }

def advance (snapshot : VehicleSnapshot) (nowMs : ℚ) : Proc Unit := do
  match (← getEngine).active with
  | none => pure ()
  | some active =>
    if config.taskTimeoutSeconds * 1000 < nowMs - active.startedAtMs then
      failActive config .executionFailed
        ("No completion within " ++ host.numberText config.taskTimeoutSeconds ++ "s.") snapshot nowMs
    else
      let (progressed, active) := noteProgress host active snapshot nowMs
      if progressed = false ∧ config.progressTimeoutSeconds * 1000 < nowMs - active.lastProgressAtMs
      then
        failActive config .executionFailed
          ("No progress for " ++ host.numberText config.progressTimeoutSeconds ++ "s.")
          snapshot nowMs
      else completeActive host config active snapshot nowMs

/-- The execution of a Task about to be dispatched. -/
def newExecution (candidate : AuthoritativeTask) (current : ControlState) : ActiveExecution :=
  let distance := remaining host candidate current.snapshot
  let expectedModes := expectedModesFor candidate.command
  { task := candidate
    startedAtMs := current.nowMs
    lastProgressAtMs := current.nowMs
    bestRemainingM := distance
    startRemainingM := distance
    settleSinceMs := none
    expectedModes := expectedModes
    recoveryProgress :=
      if candidate.command = "flight.return_to_launch" ∨ candidate.command = "flight.land" then
        current.snapshot.observation.map fun observation =>
          { highestAltitudeM := observation.altitudeMslM
            lowestAltitudeM := observation.altitudeMslM
            closestLaunchDistanceM := launchDistanceM host current.snapshot
            expectedModeIndex := indexOf expectedModes current.snapshot.mode }
      else none }

def rejectCandidate (candidate : AuthoritativeTask) (problems : List String) : Proc Unit := do
  modifyEngine (Engine.finish candidate.taskId)
  reportTerminal (.fail candidate.taskId .preconditionFailed (joined problems))

/-- The part of `adoptNext` after Core accepted the start. -/
def executeCandidate (candidate : AuthoritativeTask) : Proc ControlState := do
  modify fun s => { s with started := s.started ++ [⟨candidate, s.awaited⟩] }
  let current ← getControlState
  let problems := preconditions host config candidate current.snapshot current.nowMs
  if problems.isEmpty then
    modifyEngine fun e => { e with active := some (newExecution host candidate current) }
    modify fun s => { s with dispatched := s.dispatched ++ [⟨candidate, s.awaited⟩] }
    note (.dispatch candidate)
    tryCatch (dispatch config candidate current.snapshot) fun message => do
      modifyEngine fun e => { e.finish candidate.taskId with active := none }
      reportTerminal (.fail candidate.taskId .executionFailed
        ("Failed to send flight command: " ++ message))
    return current
  else
    rejectCandidate candidate problems
    return current

def adoptNext (tasks : List AuthoritativeTask) (snapshot : VehicleSnapshot) (nowMs : ℚ) :
    Proc (Option ControlState) := do
  let e ← getEngine
  match tasks.find? fun task =>
    isFlightCommand task.command && task.status.actionable && task.taskId ∉ e.finished with
  | none => return none
  | some candidate =>
    let problems := preconditions host config candidate snapshot nowMs
    if problems.isEmpty then
      modify fun s => { s with starting := s.starting ++ [s.engine] }
      tryCatch (report (.start candidate.taskId)) fun error => do
        modifyEngine (Engine.finish candidate.taskId)
        owe (.fail candidate.taskId .executionFailed
          "Task start could not be confirmed; no aircraft command was sent.")
        throw error
      return some (← executeCandidate host config candidate)
    else
      rejectCandidate candidate problems
      return none

end Execution

section Methods

variable (host : Host) (config : AssetConfig)

/-- The end of `ingest`: adopt a Task if none is active, and advance the active one. -/
def adoptAndAdvance (tasks : List AuthoritativeTask) (current : ControlState) : Proc Unit := do
  if (← getEngine).active.isNone then
    let adopted ← adoptNext host config tasks current.snapshot current.nowMs
    let current := adopted.getD current
    advance host config current.snapshot current.nowMs
  else advance host config current.snapshot current.nowMs

/-- The part of `ingest` after the hold on return to Guided. -/
def ingestTasks (tasks : List AuthoritativeTask) (current : ControlState) : Proc Unit := do
  rejectGotoDuringTakeoff tasks
  if (← getEngine).holdRequiredBeforeMovement then
    let current ← getControlState
    if ← establishHold config current.snapshot current.nowMs then
      let current ← getControlState
      modifyEngine fun e => { e with holdRequiredBeforeMovement := false }
      adoptAndAdvance host config tasks current
    else pure ()
  else adoptAndAdvance host config tasks current

/-- Reconcile with authoritative Core state, then advance the active task. -/
def ingest (tasks : List AuthoritativeTask) (snapshot : VehicleSnapshot) (nowMs : ℚ) :
    Proc Unit := do
  modifyEngine (reconcileAuthoritative tasks)
  flushTerminalReport
  observeMode snapshot
  if (← getEngine).reholdOnGuided then
    if snapshot.guided then
      if ← establishHold config snapshot nowMs then
        let current ← getControlState
        modifyEngine fun e => { e with reholdOnGuided := false }
        ingestTasks host config tasks current
      else pure ()
    else rejectPendingOutsideGuided host config tasks snapshot nowMs
  else ingestTasks host config tasks ⟨snapshot, nowMs⟩

/-- Returning to Guided holds the new position; old intent never resumes. -/
def noteGuidedReturn (snapshot : VehicleSnapshot) (nowMs : ℚ) : Proc Unit := do
  if (← getEngine).reholdOnGuided then
    if ← establishHold config snapshot nowMs then
      modifyEngine fun e => { e with reholdOnGuided := false }
    else pure ()
  else pure ()

/-- Drop the active task without vehicle action after Core-loss RTL was requested. -/
def abandonActiveForRecovery (reholdOnGuided : Bool) : Proc (Option String) := do
  modifyEngine fun e => { e with reholdOnGuided := e.reholdOnGuided || reholdOnGuided }
  match (← getEngine).active with
  | none => return none
  | some active =>
    modifyEngine fun e => { e.finish active.task.taskId with active := none }
    return some active.task.taskId

end Methods

section Runs

/-- The calls the engine takes. -/
inductive EngineMethod
  | ingest (tasks : List AuthoritativeTask)
  | noteTakeover (mode : String)
  | noteGuidedReturn
  | abandonActiveForRecovery (reholdOnGuided : Bool)

/-- A call, the control state it is made in and what its awaits bring. A method that takes a
snapshot and a time is given those of that state. -/
structure EngineCall where
  method : EngineMethod
  start : ControlState
  script : ℕ → Outcome

variable (host : Host) (config : AssetConfig)

def EngineCall.proc (call : EngineCall) : Proc Unit :=
  match call.method with
  | .ingest tasks => ingest host config tasks call.start.snapshot call.start.nowMs
  | .noteTakeover mode => noteTakeover mode
  | .noteGuidedReturn => noteGuidedReturn config call.start.snapshot call.start.nowMs
  | .abandonActiveForRecovery reholdOnGuided => do
    let _ ← abandonActiveForRecovery reholdOnGuided

/-- The session a call begins in. -/
def EngineCall.opening (call : EngineCall) (e : Engine) : Session :=
  { engine := e, start := call.start, script := call.script }

/-- The session a call leaves, whether it returns or throws. -/
def EngineCall.session (call : EngineCall) (e : Engine) : Session :=
  (exec (call.proc host config) (call.opening e)).2

/-- The engines a sequence of calls leads to from a new one, each call meeting `Guard` in the
engine it is made on, with every message handed over on the way. -/
inductive EngineRun (Guard : Engine → EngineCall → Prop) : Engine → List HandOver → Prop
  | new : EngineRun Guard {} []
  | call {e : Engine} {handed : List HandOver} (call : EngineCall) :
      EngineRun Guard e handed → Guard e call →
      EngineRun Guard (call.session host config e).engine
        (handed ++ (call.session host config e).handed)

end Runs

end Atlas.Asset
