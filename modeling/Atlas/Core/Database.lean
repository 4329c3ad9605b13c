import Atlas.Lib.Transaction

/-!
# The Core database

The tables Core's actions read and write, and the two primitives of the change log: versions are
reserved from the change clock (`reserveChangeVersions`) and each is recorded with one event
(`recordResourceChange`). Every mutation takes the lock of the change-clock row first, so
transactions run one after another; a transaction that returns an error is rolled back.

Timestamps a statement takes from `clock_timestamp()` are whatever the session reads next:
nothing is assumed of them, not even that they grow.
-/

namespace Atlas.Core

open Transaction

/-- A `timestamptz`, in microseconds. -/
abbrev Time := ℤ

inductive ResourceType
  | entity
  | task
  | object
  deriving DecidableEq, Repr

inductive FeedEventName
  | create
  | update
  | delete
  deriving DecidableEq, Repr

inductive TaskStatus
  | pending
  | acknowledged
  | inProgress
  | completed
  | failed
  | cancelled
  deriving DecidableEq, Repr

inductive TaskFailureCode
  | assetRestarted
  | assetStopped
  | executionFailed
  | immediateStartTimeout
  | invalidOutput
  | preconditionFailed
  | unsupportedCommand
  deriving DecidableEq, Repr

structure TaskFailure where
  code : TaskFailureCode
  message : String
  deriving DecidableEq, Repr

inductive TaskCancellationCode
  | requested
  | superseded
  deriving DecidableEq, Repr

structure TaskCancellation where
  code : TaskCancellationCode
  message : String
  deriving DecidableEq, Repr

inductive CommandScheduling
  | queued
  | immediate
  deriving DecidableEq, Repr

/-- A Command of the catalog. No scheduling leaves the choice to the runtime's manifest. -/
structure CommandDefinition where
  command : String
  inputSchema : String
  outputSchema : String
  scheduling : Option CommandScheduling
  deriving DecidableEq, Repr, Inhabited

structure CommandManifestEntry where
  command : String
  description : String
  scheduling : Option CommandScheduling
  supportsCancel : Bool
  supportsProgress : Bool
  deriving DecidableEq, Repr, Inhabited

abbrev CommandManifest := List CommandManifestEntry

/-- JSON columns hold their text. -/
structure Entity where
  entityID : String
  type : String
  subtype : Option String
  aliasName : Option String
  json : String
  createdAt : Time
  updatedAt : Time
  version : ℕ
  instanceTokenHash : Option String
  deriving DecidableEq, Repr

/-- Failure and cancellation are stored as the JSON of their two fields; `completionAttempt` as
whether an output was provided, and which. -/
structure Task where
  taskID : String
  assetID : String
  command : String
  input : String
  status : TaskStatus
  progress : Option ℚ
  output : Option String
  completionAttempt : Option (Option String)
  failure : Option TaskFailure
  cancellation : Option TaskCancellation
  idempotencyKey : String
  runtimeID : String
  createdAt : Time
  acknowledgedAt : Option Time
  startedAt : Option Time
  finishedAt : Option Time
  updatedAt : Time
  version : ℕ
  deriving DecidableEq, Repr

structure MediaObject where
  objectID : String
  path : Option String
  contentType : Option String
  type : Option String
  json : String
  createdAt : Time
  updatedAt : Time
  version : ℕ
  instanceTokenHash : Option String
  deriving DecidableEq, Repr

structure AssetRuntime where
  assetID : String
  runtimeID : String
  ready : Bool
  stopped : Bool
  manifest : CommandManifest
  registeredAt : Time
  readyAt : Option Time
  deriving DecidableEq, Repr

structure RuntimeGeneration where
  assetID : String
  runtimeID : String
  stopped : Bool
  deriving DecidableEq, Repr

structure ChangeClock where
  version : ℕ
  minRetainedVersion : ℕ
  deriving DecidableEq, Repr

/-- The state of a resource as an event carries it. -/
inductive Resource
  | entity (e : Entity)
  | task (t : Task)
  | object (o : MediaObject)
  deriving DecidableEq, Repr

structure FeedEvent where
  event : FeedEventName
  resourceType : ResourceType
  id : String
  version : ℕ
  runtimeManifestChanged : Bool
  resource : Option Resource
  deriving DecidableEq, Repr

/-- A row of `atlas_change_events`. -/
structure ChangeRow where
  version : ℕ
  event : FeedEvent
  taskAssetID : Option String
  createdAt : Time
  deriving DecidableEq, Repr

structure ObjectDeletionFence where
  objectID : String
  version : ℕ
  deriving DecidableEq, Repr

structure StorageUploadIntent where
  bucket : String
  path : String
  objectID : String
  ownerID : String
  expiresAt : Time
  orphanedAt : Option Time
  deriving DecidableEq, Repr

structure StorageDeletion where
  bucket : String
  path : String
  objectID : Option String
  deriving DecidableEq, Repr

structure DB where
  entities : List Entity
  tasks : List Task
  objects : List MediaObject
  assetRuntimes : List AssetRuntime
  assetRuntimeGenerations : List RuntimeGeneration
  changeClock : ChangeClock
  changeEvents : List ChangeRow
  resourceInstanceTokens : List String
  objectDeletionFences : List ObjectDeletionFence
  storageUploadIntents : List StorageUploadIntent
  storageDeletionOutbox : List StorageDeletion
  /-- Not a table: every event recorded so far, in order, also those pruned since. -/
  recorded : List FeedEvent
  /-- Not a table: the runtimes installed so far, as Asset and runtime ID, in order. -/
  installed : List (String × String)
  deriving DecidableEq, Repr

/-- The database a migrated, empty installation starts from. -/
def DB.empty : DB :=
  { entities := [], tasks := [], objects := [], assetRuntimes := [], assetRuntimeGenerations := [],
    changeClock := ⟨0, 0⟩, changeEvents := [], resourceInstanceTokens := [],
    objectDeletionFences := [], storageUploadIntents := [], storageDeletionOutbox := [],
    recorded := [], installed := [] }

inductive ActionError
  | validation (message : String) (details : List String := [])
  | notFound (resourceType : ResourceType) (id : String)
  | conflict (message : String)
  | preconditionFailed (message : String)
  | storage (message : String)
  | failure (message : String)
  deriving DecidableEq, Repr

def ActionError.error : ActionError → String
  | .validation message _ => message
  | .notFound .entity id => "Entity '" ++ id ++ "' was not found"
  | .notFound .task id => "Task '" ++ id ++ "' was not found"
  | .notFound .object id => "Object '" ++ id ++ "' was not found"
  | .conflict message => message
  | .preconditionFailed message => message
  | .storage message => message
  | .failure message => message

/-- A database connection inside a transaction, with the times it will read. -/
structure Session where
  db : DB
  readings : ℕ → Time

abbrev CoreTx := Tx Session ActionError

/-- The database a transaction leaves behind. -/
def commit {α : Type} (m : CoreTx α) (readings : ℕ → Time) (db : DB) : DB :=
  (settle m ⟨db, readings⟩).db

/-- `SELECT clock_timestamp()`. -/
def clockTimestamp : CoreTx Time := do
  let s ← get
  modify fun s => { s with readings := fun n => s.readings (n + 1) }
  return s.readings 0

def modifyDB (f : DB → DB) : CoreTx Unit := modify fun s => { s with db := f s.db }

def getDB : CoreTx DB := do
  let s ← get
  return s.db

/-- Reject unless the condition holds. -/
def require (p : Bool) (e : ActionError) : CoreTx Unit := if p then pure ⟨⟩ else throw e

def reserveChangeVersions (count : ℕ) : CoreTx ℕ := do
  require (0 < count) (.failure "change version reservation count must be positive")
  modifyDB fun db =>
    { db with changeClock := { db.changeClock with version := db.changeClock.version + count } }
  let db ← getDB
  return db.changeClock.version

def nextChangeVersion : CoreTx ℕ := reserveChangeVersions 1

structure ResourceChange where
  event : FeedEventName
  resourceType : ResourceType
  id : String
  version : ℕ
  runtimeManifestChanged : Bool := false
  afterEntity : Option Entity := none
  afterTask : Option Task := none
  afterObject : Option MediaObject := none

/-- The event a change is recorded as, and the Asset a Task event is routed to. -/
def resourceChangeRecord (change : ResourceChange) :
    Except ActionError (FeedEvent × Option String) := do
  if change.runtimeManifestChanged
      && (change.resourceType ≠ .entity || change.event ≠ .update) then
    throw (.failure "change reason is only supported on entity update events")
  let event : FeedEvent :=
    { event := change.event, resourceType := change.resourceType, id := change.id,
      version := change.version, runtimeManifestChanged := change.runtimeManifestChanged,
      resource := none }
  match change.resourceType, change.event with
  | .entity, .delete => return (event, none)
  | .entity, _ =>
    match change.afterEntity with
    | none => throw (.failure "entity event missing after state")
    | some e => return ({ event with resource := some (.entity e) }, none)
  | .task, .delete => throw (.failure "task delete events are not supported")
  | .task, _ =>
    match change.afterTask with
    | none => throw (.failure "task event missing after state")
    | some t =>
      return ({ event with resource := some (.task t) },
        if t.assetID = "" then none else some t.assetID)
  | .object, .delete => return (event, none)
  | .object, _ =>
    match change.afterObject with
    | none => throw (.failure "object event missing after state")
    | some o => return ({ event with resource := some (.object o) }, none)

/-- Insert the event's row; a second row of one version violates the primary key. -/
def recordResourceChange (change : ResourceChange) : CoreTx Unit := do
  match resourceChangeRecord change with
  | .error e => throw e
  | .ok (event, taskAssetID) =>
    let now ← clockTimestamp
    let db ← getDB
    require (db.changeEvents.all (·.version ≠ change.version)) (.failure "record change event")
    modifyDB fun db =>
      { db with
        changeEvents := db.changeEvents ++ [⟨change.version, event, taskAssetID, now⟩]
        recorded := db.recorded ++ [event] }

/-! ## Retention -/

/-- `ORDER BY created_at, version`. -/
def retentionOrder (r r' : ChangeRow) : Bool :=
  r.createdAt < r'.createdAt || r.createdAt = r'.createdAt && r.version ≤ r'.version

/-- Delete at most `batchSize` of the oldest rows created before the cutoff, and raise the floor
to the greatest version among them. -/
def pruneChangeRecordBatch (cutoff : Time) (batchSize : ℕ) : CoreTx ℕ := do
  let db ← getDB
  let candidates :=
    ((db.changeEvents.filter (·.createdAt < cutoff)).mergeSort retentionOrder).take batchSize
  let versions := candidates.map (·.version)
  let deleted := db.changeEvents.filter fun r => versions.contains r.version
  let deletedThrough := (deleted.map (·.version)).max?.getD 0
  modifyDB fun db =>
    { db with
      changeEvents := db.changeEvents.filter fun r => !versions.contains r.version
      changeClock :=
        if db.changeClock.minRetainedVersion < deletedThrough then
          { db.changeClock with minRetainedVersion := deletedThrough }
        else db.changeClock }
  return deleted.length

end Atlas.Core
