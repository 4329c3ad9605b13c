import Atlas.Core.Runtimes

/-!
# Core as a system of interleaved calls

A `Request` is one transaction. `BeginRuntimeRegistration` and `StopRuntime` run a first
transaction and then drain Tasks in batches, each committed on its own, so a call of theirs is kept
as what it has still to do (`Call`), and any other transaction may commit in between. A
transaction, or the process that runs a call, may fail at any point.
-/

namespace Atlas.Core

open Transaction

inductive Request
  | createEntity (params : CreateEntityParams) (movement : Except ActionError Unit)
  | updateEntity (id : String) (params : UpdateEntityParams) (movement : Except ActionError Unit)
  | deleteEntity (id : String) (instanceToken : Option String)
  | createObject (params : CreateObjectParams)
  | updateObject (id : String) (params : UpdateObjectParams)
  | deleteObject (id : String) (instanceToken : Option String)
  | uploadPreflight (params : UploadParams)
  | uploadMetadata (params : UploadParams) (preflight : UploadState) (sizeBytes : ℕ)
  | createTask (params : CreateTaskParams) (key taskID : String)
  | acknowledge (taskID runtimeID : String)
  | start (taskID runtimeID : String)
  | progress (taskID runtimeID : String) (value : ℚ)
  | complete (taskID runtimeID : String) (output : Option String)
  | fail (taskID runtimeID : String) (failure : TaskFailure)
  | cancel (taskID : String) (cancellation : TaskCancellation)
  | completeRuntimeRegistration (asset runtime : String) (manifest : CommandManifest)
  | reconcileImmediateTimeouts
  | pruneChangeRecordBatch (cutoff : Time) (batchSize : ℕ)

/-- Run a transaction for its effect. -/
def discard {α : Type} (m : CoreTx α) : CoreTx Unit := do
  let _ ← m
  return ⟨⟩

def Request.run (env : Env) : Request → CoreTx Unit
  | .createEntity params movement => discard (EntityActions.create env params movement)
  | .updateEntity id params movement => discard (EntityActions.update env id params movement)
  | .deleteEntity id instanceToken => EntityActions.delete env id instanceToken
  | .createObject params => discard (ObjectActions.create env params)
  | .updateObject id params => discard (ObjectActions.update env id params)
  | .deleteObject id instanceToken => ObjectActions.delete env id instanceToken
  | .uploadPreflight params => discard (ObjectActions.uploadPreflight env params)
  | .uploadMetadata params preflight sizeBytes =>
    discard (ObjectActions.uploadMetadata env params preflight sizeBytes)
  | .createTask params key taskID => discard (TaskActions.create env params key taskID)
  | .acknowledge taskID runtimeID => discard (TaskActions.acknowledge env taskID runtimeID)
  | .start taskID runtimeID => discard (TaskActions.start env taskID runtimeID)
  | .progress taskID runtimeID value =>
    discard (TaskActions.progress env taskID runtimeID value)
  | .complete taskID runtimeID output =>
    discard (TaskActions.complete env taskID runtimeID output)
  | .fail taskID runtimeID failure => discard (TaskActions.fail env taskID runtimeID failure)
  | .cancel taskID cancellation => discard (TaskActions.cancel env taskID cancellation)
  | .completeRuntimeRegistration asset runtime manifest =>
    TaskActions.completeRuntimeRegistration env asset runtime manifest
  | .reconcileImmediateTimeouts => discard (TaskActions.reconcileImmediateTimeouts env)
  | .pruneChangeRecordBatch cutoff batchSize =>
    discard (Core.pruneChangeRecordBatch cutoff batchSize)

/-- The Task a lifecycle request names and the runtime it is made by, empty for none. -/
def Request.lifecycle : Request → Option (String × String)
  | .acknowledge taskID runtimeID => some (taskID, runtimeID)
  | .start taskID runtimeID => some (taskID, runtimeID)
  | .progress taskID runtimeID _ => some (taskID, runtimeID)
  | .complete taskID runtimeID _ => some (taskID, runtimeID)
  | .fail taskID runtimeID _ => some (taskID, runtimeID)
  | .cancel taskID _ => some (taskID, "")
  | _ => none

inductive CallKind
  | beginRuntimeRegistration
  | stopRuntime
  deriving DecidableEq, Repr

/-- What a call does next, or how it returned. -/
inductive Phase
  | first
  | drainStale
  | drainOwn
  | success
  | failure
  deriving DecidableEq, Repr

structure Call where
  kind : CallKind
  assetID : String
  runtimeID : String
  phase : Phase
  deriving DecidableEq, Repr

/-- The call's next transaction; its result is the phase after it. -/
def Call.transaction (env : Env) (c : Call) : CoreTx Phase :=
  match c.phase, c.kind with
  | .first, .beginRuntimeRegistration => do
    let current ← Core.beginRuntimeRegistration env c.assetID c.runtimeID
    return if current then .drainStale else .success
  | .first, .stopRuntime => do
    let current ← Core.stopRuntime env c.assetID c.runtimeID
    return if current then .drainStale else .success
  | .drainStale, kind => do
    let (count, stillCurrent) ←
      failRuntimeTaskBatch env c.assetID c.runtimeID true assetRestartedFailure
    return if !stillCurrent || count = 0 then
        match kind with
        | .beginRuntimeRegistration => .success
        | .stopRuntime => .drainOwn
      else .drainStale
  | .drainOwn, _ => do
    let (count, _) ← failRuntimeTaskBatch env c.assetID c.runtimeID false assetStoppedFailure
    return if count = 0 then .success else .drainOwn
  | phase, _ => return phase

/-- The calls made so far, each with what it has still to do, over the one database. -/
structure System where
  db : DB
  calls : List Call

def System.initial : System := ⟨DB.empty, []⟩

inductive Event
  | request (r : Request) (readings : ℕ → Time)
  | call (kind : CallKind) (asset runtime : String)
  | advance (i : ℕ) (readings : ℕ → Time)
  | crash (i : ℕ)
  | blobStore (intents : List StorageUploadIntent) (outbox : List StorageDeletion)

/-- Run the call's next transaction: it commits, or the call returns its error. -/
def advanceCall (env : Env) (db : DB) (c : Call) (readings : ℕ → Time) : DB × Phase :=
  match c.transaction env ⟨db, readings⟩ with
  | .ok (phase, s) => (s.db, phase)
  | .error _ => (db, .failure)

def System.step (env : Env) (s : System) : Event → System
  | .request r readings => { s with db := commit (r.run env) readings s.db }
  | .call kind asset runtime =>
    { s with calls := s.calls ++ [⟨kind, trimSpace asset, trimSpace runtime, .first⟩] }
  | .advance i readings =>
    match s.calls[i]? with
    | none => s
    | some c =>
      let (db, phase) := advanceCall env s.db c readings
      ⟨db, s.calls.set i { c with phase := phase }⟩
  | .crash i =>
    match s.calls[i]? with
    | none => s
    | some c =>
      if c.phase = .success then s
      else { s with calls := s.calls.set i { c with phase := .failure } }
  -- The heartbeats, retries and recoveries of the blob store: whatever they write is in its two
  -- tables.
  | .blobStore intents outbox =>
    { s with db := { s.db with storageUploadIntents := intents, storageDeletionOutbox := outbox } }

/-- The states Core reaches from an empty database. -/
def Reachable (env : Env) (s : System) : Prop := Runs (System.step env) System.initial s

end Atlas.Core
