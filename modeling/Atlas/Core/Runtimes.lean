import Atlas.Core.Tasks

/-!
# Asset runtimes

Registration, readiness and stopping of an Asset's runtime. Each function here is one transaction;
the calls that run several of them, draining Tasks batch after batch, are in `Atlas.Core.System`.
-/

namespace Atlas.Core

def immediateTimeoutBatchSize : ℕ := 100
def runtimeTaskBatchSize : ℕ := 100

def assetStoppedFailure : TaskFailure :=
  ⟨.assetStopped, "The Asset runtime stopped before the Task became terminal."⟩

def assetRestartedFailure : TaskFailure :=
  ⟨.assetRestarted, "The Asset runtime restarted before the Task became terminal."⟩

/-- Readiness shows in the Asset's detail, so it advances the Entity's version. -/
def recordRuntimeManifestEntityChange (before : Entity) : CoreTx Unit := do
  let version ← nextChangeVersion
  let now ← clockTimestamp
  let row ← lockEntity before.entityID
  let updated : Entity := { row with updatedAt := now, version := version }
  updateEntityRow updated
  recordEntity .update updated true

/-- A new generation, whose runtime takes the place of the Asset's row. -/
def DB.installRuntime (runtime : AssetRuntime) (db : DB) : DB :=
  { db with
    assetRuntimeGenerations :=
      db.assetRuntimeGenerations ++ [⟨runtime.assetID, runtime.runtimeID, false⟩]
    assetRuntimes :=
      if db.assetRuntimes.any (·.assetID = runtime.assetID) then
        db.assetRuntimes.map fun r => if r.assetID = runtime.assetID then runtime else r
      else db.assetRuntimes ++ [runtime]
    installed := db.installed ++ [(runtime.assetID, runtime.runtimeID)] }

/-- Whether the runtime is the Asset's current one, for its Tasks to be drained. -/
def installRuntimeRegistration (env : Env) (assetID runtimeID : String) : CoreTx Bool := do
  let entity ← lockEntity assetID
  require (entity.type = "asset") (.validation "only asset Entities can register a runtime")
  validateToolAsset env entity (env.pluginAsset assetID)
  let db ← getDB
  let previous := findAssetRuntime db assetID
  if (previous.map (·.runtimeID)) = some runtimeID then
    require (!previous.any (·.stopped)) (.validation "stopped runtime cannot register again")
    return true
  else
    -- `ON CONFLICT DO NOTHING` over the primary key and the unique `runtime_id`.
    require (!db.assetRuntimeGenerations.any (·.runtimeID = runtimeID))
      (.validation "runtime ID was already used")
    let now ← clockTimestamp
    let runtime : AssetRuntime :=
      { assetID := assetID, runtimeID := runtimeID, ready := false, stopped := false,
        manifest := [], registeredAt := now, readyAt := none }
    modifyDB (DB.installRuntime runtime)
    recordRuntimeManifestEntityChange entity
    return true

/-- The first transaction of `BeginRuntimeRegistration`, with the checks before it. -/
def beginRuntimeRegistration (env : Env) (assetID runtimeID : String) : CoreTx Bool := do
  validateEntityID assetID
  let invalid := env.validateRuntimeRegistrationRequest runtimeID
  require invalid.isEmpty (.validation "Invalid runtime registration" invalid)
  installRuntimeRegistration env assetID runtimeID

/-- Rows of `asset_runtimes` with this Asset and runtime. -/
def isRuntime (assetID runtimeID : String) (r : AssetRuntime) : Bool :=
  r.assetID = assetID && r.runtimeID = runtimeID

def DB.stopRuntime (assetID runtimeID : String) (db : DB) : DB :=
  { db with
    assetRuntimes := db.assetRuntimes.map fun r =>
      if isRuntime assetID runtimeID r then
        { r with ready := false, stopped := true, manifest := [], readyAt := none }
      else r
    assetRuntimeGenerations := db.assetRuntimeGenerations.map fun g =>
      if g.assetID = assetID && g.runtimeID = runtimeID then { g with stopped := true } else g }

/-- The first transaction of `StopRuntime`: whether it named the current runtime, for the Tasks to
be drained. -/
def stopRuntime (env : Env) (assetID runtimeID : String) : CoreTx Bool := do
  validateEntityID assetID
  let invalid := env.validateRuntimeStopRequest runtimeID
  require invalid.isEmpty (.validation "Invalid runtime stop" invalid)
  let db ← getDB
  match findEntity db assetID, findAssetRuntime db assetID with
  | some entity, some current =>
    if current.runtimeID ≠ runtimeID then return false
    else
      let stateChanged := !current.stopped || current.ready || !current.manifest.isEmpty
      modifyDB (DB.stopRuntime assetID runtimeID)
      if stateChanged then
        recordRuntimeManifestEntityChange entity
        return true
      else return true
  | _, _ => return false

def validateCommandManifestCatalog (env : Env) :
    List String → CommandManifest → Except ActionError Unit
  | _, [] => .ok ⟨⟩
  | seen, entry :: rest =>
    if entry.command ∈ seen then
      .error (.validation "Command Manifest contains a duplicate Command")
    else
      match env.command entry.command with
      | none =>
        .error (.validation "Command Manifest contains a Command outside the production catalog")
      | some command =>
        match resolveScheduling command entry with
        | .error e => .error e
        | .ok _ => validateCommandManifestCatalog env (entry.command :: seen) rest

def DB.readyRuntime (assetID runtimeID : String) (manifest : CommandManifest) (now : Time)
    (db : DB) : DB :=
  { db with
    assetRuntimes := db.assetRuntimes.map fun r =>
      if isRuntime assetID runtimeID r then
        { r with ready := true, manifest := manifest, readyAt := some now }
      else r }

def TaskActions.completeRuntimeRegistration (env : Env) (asset runtime : String)
    (manifest : CommandManifest) : CoreTx Unit := do
  let assetID := trimSpace asset
  let runtimeID := trimSpace runtime
  validateEntityID assetID
  let invalid := env.validateRuntimeReadyRequest runtimeID manifest
  require invalid.isEmpty (.validation "Invalid runtime ready request" invalid)
  let entity ← lockEntity assetID
  require (entity.type = "asset")
    (.validation "only asset Entities can complete runtime registration")
  let db ← getDB
  match findAssetRuntime db assetID with
  | none => throw (.validation "Asset runtime registration has not begun")
  | some current =>
    require (current.runtimeID = runtimeID) (.validation "stale runtime cannot become ready")
    require (!current.stopped) (.validation "stopped runtime cannot become ready")
    require (!db.tasks.any fun t =>
        t.assetID = assetID && t.runtimeID ≠ runtimeID && t.status.nonterminal)
      (.validation "Asset runtime cannot become ready until stale Tasks are drained")
    if current.ready then
      require (current.manifest = manifest)
        (.validation "ready runtime cannot replace its Command Manifest")
    else
      check (validateCommandManifestCatalog env [] manifest)
      let now ← clockTimestamp
      modifyDB (DB.readyRuntime assetID runtimeID manifest now)
      recordRuntimeManifestEntityChange entity

/-- A stale Task of a runtime that was stopped fails as stopped, others as the drain says. -/
def runtimeDrainFailure (task : Task) (fallback : TaskFailure) (stoppedRuntimeIDs : List String) :
    TaskFailure :=
  if task.runtimeID ∈ stoppedRuntimeIDs then assetStoppedFailure else fallback

/-- Fail each Task under a version of its own. -/
def failTasks (now : Time) (failure : Task → TaskFailure) (tasks : List Task) : CoreTx Unit :=
  tasks.forM fun task => do
    let (_, task) ← check (failTask (failure task) task default default now)
    let _ ← persistTaskState task

/-- The first nonterminal Tasks of the Asset that belong to other runtimes, if `stale`, else to
this one. -/
def runtimeTaskBatch (env : Env) (db : DB) (assetID runtimeID : String) (stale : Bool) :
    List Task :=
  (selectTasks env db fun t =>
    t.assetID = assetID && (if stale then t.runtimeID ≠ runtimeID else t.runtimeID = runtimeID)
      && t.status.nonterminal).take runtimeTaskBatchSize

/-- The stopped runtimes of the Asset among those of the Tasks. -/
def stoppedRuntimeIDs (db : DB) (assetID : String) (tasks : List Task) : List String :=
  (db.assetRuntimeGenerations.filter fun g =>
    g.assetID = assetID && g.stopped && g.runtimeID ∈ tasks.map (·.runtimeID)).map (·.runtimeID)

/-- Fail at most `runtimeTaskBatchSize` nonterminal Tasks of the Asset: those of other runtimes
than this one if `stale`, which is done only while this one is current, else its own. The result
is how many, and whether this runtime is current. -/
def failRuntimeTaskBatch (env : Env) (assetID runtimeID : String) (stale : Bool)
    (failure : TaskFailure) : CoreTx (ℕ × Bool) := do
  let db ← getDB
  match findEntity db assetID, findAssetRuntime db assetID with
  | some _, some current =>
    if stale && current.runtimeID ≠ runtimeID then return (0, false)
    else
      let tasks := runtimeTaskBatch env db assetID runtimeID stale
      let stopped := if stale then stoppedRuntimeIDs db assetID tasks else []
      let now ← clockTimestamp
      failTasks now (runtimeDrainFailure · failure stopped) tasks
      return (tasks.length, current.runtimeID = runtimeID)
  | _, _ => return (0, false)

/-- The pending Tasks whose Command is immediate, by the catalog or by their runtime's manifest,
and whose start window has passed. -/
def expiredImmediate (env : Env) (db : DB) (now : Time) (t : Task) : Bool :=
  t.status = .pending && t.createdAt ≤ now - immediateStartWindow
    && (match env.command t.command with
      | none => false
      | some command =>
        match command.scheduling with
        | some .immediate => true
        | some .queued => false
        | none =>
          (db.assetRuntimes.find? (isRuntime t.assetID t.runtimeID)).any fun r =>
            r.manifest.any fun entry =>
              entry.command = t.command && entry.scheduling = some .immediate)

def TaskActions.reconcileImmediateTimeouts (env : Env) : CoreTx ℕ := do
  let now ← clockTimestamp
  let db ← getDB
  let tasks := (selectTasks env db (expiredImmediate env db now)).take immediateTimeoutBatchSize
  failTasks now (fun _ => immediateStartTimeoutFailure) tasks
  return tasks.length

end Atlas.Core
