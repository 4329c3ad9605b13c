import Atlas.Core.Resources

/-!
# Tasks

Creation and lifecycle of Tasks, as `TaskActions` runs them. A lifecycle call goes through
`withTaskTransition`, which lets it touch a Task only for the Asset's current ready runtime;
`persistTaskState` is the one place a lifecycle change is written.
-/

namespace Atlas.Core

def taskTerminal (status : TaskStatus) : Bool :=
  status = .completed || status = .failed || status = .cancelled

def TaskStatus.text : TaskStatus → String
  | .pending => "pending"
  | .acknowledged => "acknowledged"
  | .inProgress => "in_progress"
  | .completed => "completed"
  | .failed => "failed"
  | .cancelled => "cancelled"

def TaskFailureCode.text : TaskFailureCode → String
  | .assetRestarted => "asset_restarted"
  | .assetStopped => "asset_stopped"
  | .executionFailed => "execution_failed"
  | .immediateStartTimeout => "immediate_start_timeout"
  | .invalidOutput => "invalid_output"
  | .preconditionFailed => "precondition_failed"
  | .unsupportedCommand => "unsupported_command"

def findTask (db : DB) (taskID : String) : Option Task := db.tasks.find? (·.taskID = taskID)

/-- `SELECT … FROM tasks WHERE task_id = $1`. -/
def readTask (taskID : String) : CoreTx Task := do
  let db ← getDB
  match findTask db taskID with
  | none => throw (.notFound .task taskID)
  | some task => return task

/-- `ORDER BY created_at, task_id`. -/
def creationOrder (env : Env) (t t' : Task) : Bool :=
  t.createdAt < t'.createdAt || t.createdAt = t'.createdAt && env.collation t.taskID t'.taskID

def selectTasks (env : Env) (db : DB) (p : Task → Bool) : List Task :=
  (db.tasks.filter p).mergeSort (creationOrder env)

def manifestEntry (manifest : CommandManifest) (command : String) : Option CommandManifestEntry :=
  manifest.find? (·.command = command)

def resolveScheduling (command : CommandDefinition) (entry : CommandManifestEntry) :
    Except ActionError CommandScheduling :=
  match command.scheduling, entry.scheduling with
  | some s, entryScheduling =>
    if entryScheduling = some s then .ok s
    else .error (.validation "Command Manifest scheduling does not match the Command Catalog")
  | none, some s => .ok s
  | none, none =>
    .error (.validation "Command Manifest must choose queued or immediate scheduling")

def storedCommandDefinition (env : Env) (taskID commandName : String) : CoreTx CommandDefinition :=
  match env.command commandName with
  | none =>
    throw (.failure ("stored Task " ++ taskID ++ " references unknown Command " ++ commandName))
  | some command => return command

/-- The part of a reference after its last dot. -/
def commandDefinitionName (reference : String) : String :=
  String.ofList ((reference.toList.reverse.takeWhile (· ≠ '.')).reverse)

/-- Write the state a lifecycle change computed, under a version of its own; the columns fixed at
creation keep the row's values. -/
def persistTaskState (task : Task) : CoreTx Task := do
  let version ← nextChangeVersion
  let now ← clockTimestamp
  let row ← readTask task.taskID
  let updated : Task :=
    { row with
      status := task.status, progress := task.progress, output := task.output,
      completionAttempt := task.completionAttempt, failure := task.failure,
      cancellation := task.cancellation, acknowledgedAt := task.acknowledgedAt,
      startedAt := task.startedAt, finishedAt := task.finishedAt, updatedAt := now,
      version := version }
  modifyDB fun db =>
    { db with tasks := db.tasks.map fun t => if t.taskID = task.taskID then updated else t }
  recordResourceChange
    { event := .update, resourceType := .task, id := updated.taskID, version := updated.version,
      afterTask := some updated }
  return updated

/-! ## The state changes -/

def invalidTaskTransition (task : Task) (operation : String) : ActionError :=
  .validation ("cannot " ++ operation ++ " Task in " ++ task.status.text ++ " state")

/-- Whether a Task changes, and how. -/
abbrev TaskMutation :=
  Task → CommandDefinition → CommandManifestEntry → Time → Except ActionError (Bool × Task)

def immediateStartWindow : Time := 60000000

def immediateStartTimeoutFailure : TaskFailure :=
  ⟨.immediateStartTimeout, "The immediate Task did not start within 60 seconds."⟩

def failTask (failure : TaskFailure) : TaskMutation := fun task _ _ now =>
  if task.status = .failed then
    if task.failure = some failure then .ok (false, task)
    else .error (.validation "Task was already failed with a different reason")
  else if taskTerminal task.status then .error (invalidTaskTransition task "fail")
  else .ok (true, { task with status := .failed, failure := some failure, finishedAt := some now })

def acknowledgeTask : TaskMutation := fun task command manifest now =>
  match resolveScheduling command manifest with
  | .error e => .error e
  | .ok .immediate =>
    .error (.validation "Immediate Tasks are started without acknowledgement")
  | .ok .queued =>
    if task.status = .acknowledged then .ok (false, task)
    else if task.status ≠ .pending then .error (invalidTaskTransition task "acknowledge")
    else .ok (true, { task with status := .acknowledged, acknowledgedAt := some now })

def startTask : TaskMutation := fun task command manifest now =>
  if task.status = .failed && task.failure = some immediateStartTimeoutFailure then
    .ok (false, task)
  else if task.status = .inProgress then .ok (false, task)
  else
    match resolveScheduling command manifest with
    | .error e => .error e
    | .ok .immediate =>
      if task.status ≠ .pending then .error (invalidTaskTransition task "start")
      else if task.createdAt + immediateStartWindow ≤ now then
        failTask immediateStartTimeoutFailure task command default now
      else
        .ok (true, { task with status := .inProgress, acknowledgedAt := some now,
                               startedAt := some now })
    | .ok .queued =>
      if task.status ≠ .acknowledged then .error (invalidTaskTransition task "start")
      else .ok (true, { task with status := .inProgress, startedAt := some now })

def progressTask (progress : ℚ) : TaskMutation := fun task _ manifest _ =>
  if task.status ≠ .inProgress then .error (invalidTaskTransition task "report progress")
  else if !manifest.supportsProgress then
    .error (.validation "Command Manifest does not advertise progress")
  else if progress < 0 || 1 < progress then
    .error (.validation "progress must be between 0 and 1")
  else if task.progress.any (progress < ·) then .error (.validation "progress cannot decrease")
  else if task.progress = some progress then .ok (false, task)
  else .ok (true, { task with progress := some progress })

/-- `validateTaskOutput`, on an output that may be omitted. -/
def validateTaskOutput (env : Env) (command : CommandDefinition) (output : Option String) :
    Except ActionError Unit :=
  match output with
  | none =>
    if command.outputSchema = "" then .ok ⟨⟩
    else .error (.validation "Command requires Task output")
  | some value =>
    if command.outputSchema = "" then
      .error (.validation "Command does not define Task output")
    else
      match env.validateDefinition (commandDefinitionName command.outputSchema) value with
      | [] => .ok ⟨⟩
      | errors => .error (.validation "Invalid Command output" errors)

/-- `jsonEqual` on values either of which may be missing. -/
def optionalJSONEqual (env : Env) : Option String → Option String → Bool
  | none, none => true
  | some left, some right => env.jsonEqual left right
  | _, _ => false

def completeTask (env : Env) (output : Option String) : TaskMutation := fun task command _ now =>
  if task.status = .completed then
    if optionalJSONEqual env task.output output then .ok (false, task)
    else .error (.validation "Task was already completed with different output")
  else if task.status = .failed && (task.failure.map (·.code)) = some .invalidOutput then
    if task.completionAttempt.any (optionalJSONEqual env · output) then .ok (false, task)
    else .error (.validation "Task was already failed after a different output")
  else if task.status ≠ .inProgress then .error (invalidTaskTransition task "complete")
  else
    match validateTaskOutput env command output with
    | .error e =>
      failTask ⟨.invalidOutput, e.error⟩ { task with completionAttempt := some output } command
        default now
    | .ok _ =>
      .ok (true, { task with status := .completed, output := output, completionAttempt := none,
                             finishedAt := some now })

/-- Operator cancellation honors the manifest; supersession replaces the active Task always. -/
def cancelTask (cancellation : TaskCancellation) : TaskMutation := fun task _ manifest now =>
  if task.status = .cancelled then
    if task.cancellation = some cancellation then .ok (false, task)
    else .error (.validation "Task was already cancelled with a different reason")
  else if taskTerminal task.status then .error (invalidTaskTransition task "cancel")
  else if task.status = .inProgress && !manifest.supportsCancel
      && cancellation.code ≠ .superseded then
    .error (.validation "Command Manifest does not advertise in-progress cancellation")
  else
    .ok (true, { task with status := .cancelled, cancellation := some cancellation,
                           finishedAt := some now })

/-! ## Lifecycle calls -/

def findAssetRuntime (db : DB) (assetID : String) : Option AssetRuntime :=
  db.assetRuntimes.find? (·.assetID = assetID)

/-- The manifest of the Asset's runtime, which must be ready, the Task's and the caller's. No
caller is given for a cancellation. -/
def lockCurrentRuntimeManifest (assetID boundRuntimeID callerRuntimeID : String) :
    CoreTx CommandManifest := do
  let db ← getDB
  match findAssetRuntime db assetID with
  | none => throw (.validation "Asset has no registered runtime")
  | some current =>
    require (current.ready && current.runtimeID = boundRuntimeID)
      (.validation "Task belongs to a stale Asset runtime")
    require (callerRuntimeID = "" || trimSpace callerRuntimeID = current.runtimeID)
      (.validation "Atlas-Runtime-ID does not identify the current runtime")
    return current.manifest

/-- A check made on the locked Task before it changes. -/
abbrev TaskPrecondition :=
  Task → CommandDefinition → CommandManifestEntry → CommandManifest → CoreTx Unit

def noPrecondition : TaskPrecondition := fun _ _ _ _ => pure ⟨⟩

/-- The zero `time.Time`. -/
def zeroTime : Time := -62135596800000000

/-- The first branch answers the retry of a call whose Task is already terminal. -/
def withTaskTransition (env : Env) (id runtimeID : String)
    (allowTerminalRetryWithoutCurrentRuntime : Bool) (precondition : TaskPrecondition)
    (mutate : TaskMutation) : CoreTx Task := do
  validateTaskID id
  let taskID := trimSpace id
  let read ← readTask taskID
  if allowTerminalRetryWithoutCurrentRuntime && taskTerminal read.status then
    require (runtimeID = "" || trimSpace runtimeID = read.runtimeID)
      (.validation "Atlas-Runtime-ID does not identify the Task runtime")
    let (changed, task) ← check
      (mutate read ((env.command read.command).getD default) default zeroTime)
    require (!changed) (.failure "terminal retry unexpectedly changed Task state")
    return task
  else
    let manifest ← lockCurrentRuntimeManifest read.assetID read.runtimeID runtimeID
    let task ← readTask taskID
    let command ← storedCommandDefinition env task.taskID task.command
    match manifestEntry manifest task.command with
    | none => throw (.validation "current runtime no longer advertises the Task Command")
    | some entry =>
      precondition task command entry manifest
      let now ← clockTimestamp
      let (changed, task) ← check (mutate task command entry now)
      if changed then persistTaskState task else return task

/-- The Tasks of the same runtime that come before a Task, or run, when they use its scheduling. -/
def requireNoSchedulingBlocker (env : Env) (task : Task) (manifest : CommandManifest)
    (scheduling : CommandScheduling) (earlierStatuses : List TaskStatus)
    (includeAnyInProgress excludeExpired : Bool) (message : String) : CoreTx Unit := do
  let now ← clockTimestamp
  let db ← getDB
  let rows := selectTasks env db fun t =>
    t.assetID = task.assetID && t.runtimeID = task.runtimeID
      && ((includeAnyInProgress && t.status = .inProgress)
        || (creationOrder env t task && t.taskID ≠ task.taskID && t.status ∈ earlierStatuses))
      && (!excludeExpired || now - immediateStartWindow < t.createdAt)
  rows.forM fun row => do
    let blockingCommand ← storedCommandDefinition env row.taskID row.command
    match manifestEntry manifest row.command with
    | none => throw (.validation "current runtime no longer advertises a blocking Task Command")
    | some blockingEntry =>
      let blockingScheduling ← check (resolveScheduling blockingCommand blockingEntry)
      require (blockingScheduling ≠ scheduling) (.validation message)

def requireAcknowledgeOrder (env : Env) : TaskPrecondition := fun task command entry manifest => do
  let scheduling ← check (resolveScheduling command entry)
  if task.status ≠ .pending || scheduling ≠ .queued then pure ⟨⟩
  else
    requireNoSchedulingBlocker env task manifest .queued [.pending] false false
      "an earlier queued Task is still pending"

def requireStartOrder (env : Env) : TaskPrecondition := fun task command entry manifest => do
  let scheduling ← check (resolveScheduling command entry)
  if scheduling = .immediate then
    if task.status ≠ .pending then pure ⟨⟩
    else
      requireNoSchedulingBlocker env task manifest scheduling [.pending] false true
        "an earlier immediate Task has not started"
  else if task.status ≠ .acknowledged then pure ⟨⟩
  else
    requireNoSchedulingBlocker env task manifest scheduling [.pending, .acknowledged] true false
      "an earlier queued Task has not become terminal"

def requireRuntimeID (runtimeID : String) : CoreTx Unit :=
  require (trimSpace runtimeID ≠ "") (.validation "Atlas-Runtime-ID is required")

def validateAssetFailureCode (code : TaskFailureCode) : CoreTx Unit :=
  require (code = .unsupportedCommand || code = .preconditionFailed || code = .executionFailed)
    (.validation ("failure code \"" ++ code.text ++ "\" can only be applied by Core"))

def TaskActions.acknowledge (env : Env) (taskID runtimeID : String) : CoreTx Task := do
  requireRuntimeID runtimeID
  withTaskTransition env taskID runtimeID false (requireAcknowledgeOrder env) acknowledgeTask

def TaskActions.start (env : Env) (taskID runtimeID : String) : CoreTx Task := do
  requireRuntimeID runtimeID
  withTaskTransition env taskID runtimeID true (requireStartOrder env) startTask

def TaskActions.progress (env : Env) (taskID runtimeID : String) (progress : ℚ) : CoreTx Task := do
  requireRuntimeID runtimeID
  withTaskTransition env taskID runtimeID false noPrecondition (progressTask progress)

def TaskActions.complete (env : Env) (taskID runtimeID : String) (output : Option String) :
    CoreTx Task := do
  requireRuntimeID runtimeID
  withTaskTransition env taskID runtimeID true noPrecondition (completeTask env output)

def TaskActions.fail (env : Env) (taskID runtimeID : String) (failure : TaskFailure) :
    CoreTx Task := do
  requireRuntimeID runtimeID
  validateAssetFailureCode failure.code
  withTaskTransition env taskID runtimeID true noPrecondition (failTask failure)

def TaskActions.cancel (env : Env) (taskID : String) (cancellation : TaskCancellation) :
    CoreTx Task := do
  require (cancellation.code = .requested)
    (.validation "cancellation code \"superseded\" can only be applied by Core")
  withTaskTransition env taskID "" true noPrecondition (cancelTask cancellation)

/-! ## Creation -/

/-- The active flight Commands a new flight Command replaces. -/
def flightSupersessionTargets : String → Option (List String)
  | "flight.goto" => some ["flight.goto"]
  | "flight.return_to_launch" => some ["flight.takeoff", "flight.goto"]
  | "flight.land" => some ["flight.takeoff", "flight.goto"]
  | _ => none

def rejectGotoDuringTakeoff (assetID runtimeID command : String) : CoreTx Unit := do
  let db ← getDB
  require (command ≠ "flight.goto" || !db.tasks.any fun t =>
      t.assetID = assetID && t.runtimeID = runtimeID && t.command = "flight.takeoff"
        && t.status.nonterminal)
    (.validation "Go-to cannot interrupt an active takeoff")

def supersedeReplacedFlightTasks (env : Env) (assetID runtimeID command newTaskID : String) :
    CoreTx Unit :=
  match flightSupersessionTargets command with
  | none => pure ⟨⟩
  | some targets => do
    let db ← getDB
    let tasks := selectTasks env db fun t =>
      t.assetID = assetID && t.runtimeID = runtimeID && t.status.nonterminal
        && t.command ∈ targets
    if tasks.isEmpty then pure ⟨⟩
    else
      let now ← clockTimestamp
      tasks.forM fun task => do
        let cancellation : TaskCancellation :=
          ⟨.superseded, "Superseded by " ++ command ++ " task " ++ newTaskID ++ "."⟩
        let (_, task) ← check (cancelTask cancellation task default default now)
        let _ ← persistTaskState task

structure CreateTaskParams where
  assetID : String
  command : String
  input : String

/-- `taskID` is the fresh UUID. The new Task's version is reserved before the Tasks it replaces
are cancelled, under later versions. -/
def createTaskRow (env : Env) (params : CreateTaskParams) (idempotencyKey taskID runtimeID : String) :
    CoreTx Task := do
  let version ← nextChangeVersion
  rejectGotoDuringTakeoff params.assetID runtimeID params.command
  supersedeReplacedFlightTasks env params.assetID runtimeID params.command taskID
  let createdAt ← clockTimestamp
  let updatedAt ← clockTimestamp
  let task : Task :=
    { taskID := taskID, assetID := params.assetID, command := params.command,
      input := params.input, status := .pending, progress := none, output := none,
      completionAttempt := none, failure := none, cancellation := none,
      idempotencyKey := idempotencyKey, runtimeID := runtimeID, createdAt := createdAt,
      acknowledgedAt := none, startedAt := none, finishedAt := none, updatedAt := updatedAt,
      version := version }
  let db ← getDB
  require (!db.tasks.any fun t => t.taskID = taskID || t.idempotencyKey = idempotencyKey)
    (.failure "create Task")
  modifyDB fun db => { db with tasks := db.tasks ++ [task] }
  recordResourceChange
    { event := .create, resourceType := .task, id := task.taskID, version := task.version,
      afterTask := some task }
  return task

/-- The Task, and whether it was created now. -/
def TaskActions.create (env : Env) (given : CreateTaskParams) (key taskID : String) :
    CoreTx (Task × Bool) := do
  let params : CreateTaskParams :=
    { given with assetID := trimSpace given.assetID, command := trimSpace given.command }
  let idempotencyKey := trimSpace key
  require (idempotencyKey ≠ "") (.validation "Idempotency-Key is required")
  validateEntityID params.assetID
  let invalid := env.validateTaskCreateRequest params.assetID params.command params.input
  require invalid.isEmpty (.validation "Invalid Task creation" invalid)
  let db ← getDB
  match db.tasks.find? (·.idempotencyKey = idempotencyKey) with
  | some existing =>
    require (existing.assetID = params.assetID && existing.command = params.command
        && env.jsonEqual existing.input params.input)
      (.conflict "Idempotency-Key was already used for different tasking data")
    return (existing, false)
  | none =>
    let entity ← lockEntity params.assetID
    require (entity.type = "asset") (.validation "Tasks can target only asset Entities")
    match env.command params.command, findAssetRuntime db params.assetID with
    | none, _ => throw (.validation "unsupported Command")
    | some _, none => throw (.validation "Asset has no registered runtime")
    | some command, some runtime =>
      require runtime.ready (.validation "Asset runtime is not ready")
      match manifestEntry runtime.manifest params.command with
      | none => throw (.validation "Asset runtime does not advertise Command support")
      | some entry =>
        let _ ← check (resolveScheduling command entry)
        let errors := env.validateDefinition (commandDefinitionName command.inputSchema) params.input
        require errors.isEmpty (.validation "Invalid Command input" errors)
        let task ← createTaskRow env params idempotencyKey taskID runtime.runtimeID
        return (task, true)

end Atlas.Core
