import Atlas.Core.Environment

/-!
# Entities and objects

The transactions of `EntityActions` and `ObjectActions`. What a request is checked for before its
transaction begins is checked here at its head: a rejected request leaves the database as it is
either way. Storing an uploaded blob runs between two transactions, the preflight and the one that
records its metadata; the leases and retries of the blob store touch no other table.
-/

namespace Atlas.Core

/-! ## Entities -/

def findEntity (db : DB) (entityID : String) : Option Entity :=
  db.entities.find? (·.entityID = entityID)

/-- `SELECT … FROM entities WHERE entity_id = $1 FOR UPDATE`. -/
def lockEntity (entityID : String) : CoreTx Entity := do
  let db ← getDB
  match findEntity db entityID with
  | none => throw (.notFound .entity entityID)
  | some entity => return entity

/-- Another Entity has the alias: the unique index on aliases that are not null. -/
def aliasTaken (db : DB) (entityID : String) (aliasName : Option String) : Bool :=
  aliasName.isSome && db.entities.any fun e => e.entityID ≠ entityID && e.aliasName = aliasName

def recordEntity (event : FeedEventName) (entity : Entity) (runtimeManifestChanged : Bool) :
    CoreTx Unit :=
  recordResourceChange
    { event := event, resourceType := .entity, id := entity.entityID, version := entity.version,
      runtimeManifestChanged := runtimeManifestChanged, afterEntity := some entity }

def entityTokenReuse (db : DB) (entityID tokenHash : String) : ActionError :=
  if (findEntity db entityID).any (·.instanceTokenHash = some tokenHash) then
    .validation "resource instance token has already been used for this entity instance"
  else .validation "resource instance token has already been used"

def createEntityToken (env : Env) (entityID token : String) : CoreTx (Option String) := do
  if token = "" then return none
  else
    let hash ← resourceInstanceTokenHash env token
    let db ← getDB
    reserveResourceInstanceToken hash (entityTokenReuse db entityID hash)
    return some hash

def createEntityAlias (aliasName : Option String) : CoreTx (Option String) :=
  match aliasName with
  | none => return none
  | some a =>
    if trimSpace a = "" then return none
    else do
      let trimmed ← normalizeAlias a
      return some trimmed

/-- `captureMovement` writes the movement history only; `movement` is whether it fails. -/
def EntityActions.create (env : Env) (params : CreateEntityParams)
    (movement : Except ActionError Unit) : CoreTx Entity := do
  validateEntityID params.entityID
  let entityID := trimSpace params.entityID
  validateStringMaxLength "entity_type" params.entityType entityTypeMaxLength
  require (trimSpace params.entityType ≠ "") (.validation "type is required for entity creation")
  validateStringMaxLength "subtype" params.subtype entitySubtypeMaxLength
  let invalid := params.components.elim [] env.validateEntityComponents
  require invalid.isEmpty (.validation ("Component validation failed (" ++
    toString invalid.length ++ " errors)") invalid)
  let json ← check (env.createEntityJSON params)
  let aliasName ← createEntityAlias params.aliasName
  let version ← nextChangeVersion
  let instanceTokenHash ← createEntityToken env entityID params.instanceToken
  let db ← getDB
  require (findEntity db entityID).isNone
    (.conflict ("An entity with id '" ++ entityID ++ "' already exists"))
  require (!aliasTaken db entityID aliasName)
    (.conflict "Entity conflicts with an existing unique value")
  let createdAt ← clockTimestamp
  let updatedAt ← clockTimestamp
  let entity : Entity :=
    { entityID := entityID, type := trimSpace params.entityType,
      subtype := if trimSpace params.subtype = "" then none else some (trimSpace params.subtype),
      aliasName := aliasName, json := json, createdAt := createdAt, updatedAt := updatedAt,
      version := version, instanceTokenHash := instanceTokenHash }
  modifyDB fun db => { db with entities := db.entities ++ [entity] }
  check movement
  recordEntity .create entity false
  return entity

def UpdateEntityParams.isEmpty (p : UpdateEntityParams) : Bool :=
  p.entityType.isNone && p.subtype.isNone && p.aliasName.isNone
    && (p.components.getD []).isEmpty && p.extra.isEmpty

/-- Replace the row of the same ID. -/
def updateEntityRow (entity : Entity) : CoreTx Unit :=
  modifyDB fun db =>
    { db with entities := db.entities.map fun e => if e.entityID = entity.entityID then entity
                                                   else e }

def checkOwnershipChange (env : Env) (entity candidate : Entity) : CoreTx Unit := do
  require (candidate.type = entity.type)
    (.validation "entity_type cannot change after an Asset runtime has registered")
  match env.toolAssetPluginID entity, env.toolAssetPluginID candidate with
  | .ok before, .ok after =>
    require (!(before.isSome || after.isSome)
        || (candidate.subtype = entity.subtype && before = after))
      (.validation ("entity_type, subtype, and custom_plugin.plugin_id cannot change after an "
        ++ "Asset runtime has registered"))
  | _, _ =>
    throw (.validation "custom_plugin ownership cannot change after an Asset runtime has registered")

/-- Once a runtime has registered, neither the type nor the Plugin ownership may change. -/
def checkIdentityChange (env : Env) (entity candidate : Entity) : CoreTx Unit := do
  let db ← getDB
  if db.assetRuntimes.any (·.assetID = entity.entityID) then
    checkOwnershipChange env entity candidate
  else pure ⟨⟩

def updateEntityAlias (entity : Entity) (aliasName : Option String) : CoreTx (Option String) :=
  match aliasName with
  | none => return entity.aliasName
  | some a => do
    let s ← normalizeAlias a
    return if s = "" then none else some s

def EntityActions.update (env : Env) (id : String) (params : UpdateEntityParams)
    (movement : Except ActionError Unit) : CoreTx Entity := do
  validateEntityID id
  let entityID := trimSpace id
  validateStringMaxLength "entity_type" (params.entityType.getD "") entityTypeMaxLength
  require (params.entityType.all fun t => trimSpace t ≠ "")
    (.validation "entity_type cannot be empty")
  validateStringMaxLength "subtype" (params.subtype.getD "") entitySubtypeMaxLength
  let entity ← lockEntity entityID
  checkExpectedVersion "entity" params.expectedVersion entity.version
  if params.isEmpty then return entity
  else
    let newAlias ← updateEntityAlias entity params.aliasName
    let json ← check (env.patchEntityJSON entity.json params)
    let candidate : Entity :=
      { entity with
        type := params.entityType.elim entity.type trimSpace
        subtype := params.subtype.elim entity.subtype fun s =>
          if trimSpace s = "" then none else some (trimSpace s)
        json := json }
    checkIdentityChange env entity candidate
    let version ← nextChangeVersion
    let db ← getDB
    require (!aliasTaken db entityID newAlias)
      (.conflict "Entity conflicts with an existing unique value")
    let updatedAt ← clockTimestamp
    let out : Entity :=
      { candidate with aliasName := newAlias, updatedAt := updatedAt, version := version }
    updateEntityRow out
    check movement
    recordEntity .update out false
    return out

/-- `status IN ('pending', 'acknowledged', 'in_progress')`. -/
def TaskStatus.nonterminal : TaskStatus → Bool
  | .pending | .acknowledged | .inProgress => true
  | .completed | .failed | .cancelled => false

/-- The runtime row goes with its Entity (`ON DELETE CASCADE`), its generations stay. -/
def DB.deleteEntity (entityID : String) (db : DB) : DB :=
  { db with
    entities := db.entities.filter (·.entityID ≠ entityID)
    assetRuntimes := db.assetRuntimes.filter (·.assetID ≠ entityID) }

def EntityActions.delete (env : Env) (id : String) (instanceToken : Option String) :
    CoreTx Unit := do
  validateEntityID id
  let entityID := trimSpace id
  let entity ← lockEntity entityID
  checkResourceInstanceToken env instanceToken entity.instanceTokenHash "entity"
  validateToolAsset env entity (env.pluginAsset entityID)
  require (env.pluginAsset entityID).isNone
    (.validation "configured Plugin Tool Asset cannot be deleted until its Plugin is removed")
  let db ← getDB
  require (!db.tasks.any fun t => t.assetID = entityID && t.status.nonterminal)
    (.validation "Entity cannot be deleted while it has nonterminal Tasks")
  modifyDB (DB.deleteEntity entityID)
  let deleteVersion ← nextChangeVersion
  recordResourceChange
    { event := .delete, resourceType := .entity, id := entity.entityID, version := deleteVersion }

/-! ## Objects -/

def findObject (db : DB) (objectID : String) : Option MediaObject :=
  db.objects.find? (·.objectID = objectID)

def lockObject (objectID : String) : CoreTx MediaObject := do
  let db ← getDB
  match findObject db objectID with
  | none => throw (.notFound .object objectID)
  | some object => return object

def recordObject (event : FeedEventName) (object : MediaObject) : CoreTx Unit :=
  recordResourceChange
    { event := event, resourceType := .object, id := object.objectID, version := object.version,
      afterObject := some object }

def normalizeOptionalObjectString (value : Option String) : Option String :=
  (value.map trimSpace).filter (· ≠ "")

def createObjectToken (env : Env) (token : String) : CoreTx (Option String) := do
  if token = "" then return none
  else
    let hash ← resourceInstanceTokenHash env token
    reserveResourceInstanceToken hash (.validation "resource instance token has already been used")
    return some hash

def ObjectActions.create (env : Env) (params : CreateObjectParams) : CoreTx MediaObject := do
  validateObjectID params.objectID
  let objectID := trimSpace params.objectID
  validateStringMaxLength "type" (params.type.getD "") objectTypeMaxLength
  let json ← check (env.createObjectJSON params)
  let version ← nextChangeVersion
  let instanceTokenHash ← createObjectToken env params.instanceToken
  let db ← getDB
  require (findObject db objectID).isNone
    (.conflict ("An object with id '" ++ objectID ++ "' already exists"))
  let createdAt ← clockTimestamp
  let updatedAt ← clockTimestamp
  let object : MediaObject :=
    { objectID := objectID, path := none, contentType := none,
      type := normalizeOptionalObjectString params.type, json := json, createdAt := createdAt,
      updatedAt := updatedAt, version := version, instanceTokenHash := instanceTokenHash }
  modifyDB fun db => { db with objects := db.objects ++ [object] }
  recordObject .create object
  return object

def updateObjectRow (object : MediaObject) : CoreTx Unit :=
  modifyDB fun db =>
    { db with objects := db.objects.map fun o => if o.objectID = object.objectID then object
                                                 else o }

def UpdateObjectParams.isEmpty (p : UpdateObjectParams) : Bool :=
  p.type.isNone && p.usageHints.isNone && p.referencedBy.isNone && p.extra.isEmpty
    && p.removeExtraKeys.isEmpty

def ObjectActions.update (env : Env) (id : String) (params : UpdateObjectParams) :
    CoreTx MediaObject := do
  validateObjectID id
  let objectID := trimSpace id
  validateStringMaxLength "type" (params.type.getD "") objectTypeMaxLength
  let object ← lockObject objectID
  checkExpectedVersion "object" params.expectedVersion object.version
  if params.isEmpty then return object
  else
    let json ← check (env.patchObjectJSON object.json params)
    let version ← nextChangeVersion
    let updatedAt ← clockTimestamp
    let out : MediaObject :=
      { object with
        type := if params.type.isSome then normalizeOptionalObjectString params.type
                else object.type
        json := json, updatedAt := updatedAt, version := version }
    updateObjectRow out
    recordObject .update out
    return out

def persistedObjectBucket (env : Env) (object : MediaObject) : CoreTx String :=
  match normalizeOptionalObjectString (env.objectBucket object) with
  | none => throw (.storage "stored object is missing bucket metadata")
  | some bucket => return bucket

/-- A path queued again for deletion keeps one row. -/
def queueStorageDeletionTx (bucket path objectID : String) : CoreTx Unit :=
  if trimSpace bucket = "" || trimSpace path = "" then pure ⟨⟩
  else modifyDB fun db =>
    { db with
      storageDeletionOutbox :=
        db.storageDeletionOutbox.filter
            (fun d => d.bucket ≠ trimSpace bucket || d.path ≠ trimSpace path)
          ++ [⟨trimSpace bucket, trimSpace path,
              if trimSpace objectID = "" then none else some (trimSpace objectID)⟩] }

def recordObjectDeletionFenceTx (objectID : String) (version : ℕ) : CoreTx Unit :=
  modifyDB fun db =>
    { db with
      objectDeletionFences :=
        if db.objectDeletionFences.any (·.objectID = objectID) then
          db.objectDeletionFences.map fun f =>
            if f.objectID = objectID then { f with version := max f.version version } else f
        else db.objectDeletionFences ++ [⟨objectID, version⟩] }

/-- Where the object's blob lies, if it has one. -/
def deletedBlob (env : Env) (object : MediaObject) : CoreTx (Option (String × String)) :=
  match normalizeOptionalObjectString object.path with
  | none => return none
  | some path => do
    require env.storageBucket.isSome (.storage "storage not configured")
    let bucket ← persistedObjectBucket env object
    return some (bucket, path)

/-- `queueStorageDeletionTx`, when there is a blob. -/
def queueBlobDeletion (blob : Option (String × String)) (objectID : String) : CoreTx Unit :=
  match blob with
  | none => pure ⟨⟩
  | some (bucket, path) => queueStorageDeletionTx bucket path objectID

def ObjectActions.delete (env : Env) (id : String) (instanceToken : Option String) :
    CoreTx Unit := do
  validateObjectID id
  let objectID := trimSpace id
  let object ← lockObject objectID
  checkResourceInstanceToken env instanceToken object.instanceTokenHash "object"
  let queued ← deletedBlob env object
  modifyDB fun db => { db with objects := db.objects.filter (·.objectID ≠ objectID) }
  queueBlobDeletion queued objectID
  let deleteVersion ← nextChangeVersion
  recordObjectDeletionFenceTx object.objectID deleteVersion
  recordResourceChange
    { event := .delete, resourceType := .object, id := object.objectID, version := deleteVersion }

/-! ## Uploads -/

structure UploadState where
  resource : Option MediaObject
  maxDeletionVersion : ℕ

def currentObjectStateForUpload (objectID : String) : CoreTx UploadState := do
  let db ← getDB
  return { resource := findObject db objectID,
           maxDeletionVersion :=
             ((db.objectDeletionFences.find? (·.objectID = objectID)).map (·.version)).getD 0 }

def objectDeletedAfterUploadPreflight (preflight current : UploadState) : Bool :=
  preflight.maxDeletionVersion < current.maxDeletionVersion
    || (preflight.resource.isSome && current.resource.isNone)

structure UploadParams where
  objectID : String
  path : String
  ownerID : String
  contentType : String
  type : String
  usageHint : Option String

def storageUploadIntentLease : Time := 300000000

def ensureObjectStoragePathAvailable (path objectID : String) : CoreTx Unit := do
  let db ← getDB
  require (trimSpace path = ""
      || !(db.objects.any (fun o => o.path = some (trimSpace path)
              && o.objectID ≠ trimSpace objectID)
            || db.storageUploadIntents.any (·.path = trimSpace path)
            || db.storageDeletionOutbox.any (·.path = trimSpace path)))
    (.conflict "Object path conflicts with an existing object")

def createStorageUploadIntentTx (bucket path objectID ownerID : String) : CoreTx Unit := do
  ensureObjectStoragePathAvailable path objectID
  let now ← clockTimestamp
  let db ← getDB
  require (!db.storageUploadIntents.any fun i =>
      i.bucket = trimSpace bucket && i.path = trimSpace path)
    (.failure "failed to register storage upload intent")
  modifyDB fun db =>
    { db with
      storageUploadIntents := db.storageUploadIntents
        ++ [⟨trimSpace bucket, trimSpace path, trimSpace objectID, ownerID,
            now + storageUploadIntentLease, none⟩] }

/-- The checks of `Upload` and its first transaction. -/
def ObjectActions.uploadPreflight (env : Env) (params : UploadParams) : CoreTx UploadState := do
  validateObjectID params.objectID
  validateStringMaxLength "content_type" params.contentType objectContentMaxLength
  validateStringMaxLength "type" params.type objectTypeMaxLength
  match env.storageBucket with
  | none => throw (.storage "storage not configured")
  | some bucket =>
    validateStringMaxLength "path" params.path objectPathMaxLength
    ensureObjectStoragePathAvailable params.path (trimSpace params.objectID)
    let state ← currentObjectStateForUpload (trimSpace params.objectID)
    createStorageUploadIntentTx bucket params.path (trimSpace params.objectID) params.ownerID
    return state

def ownsIntent (bucket path ownerID : String) (i : StorageUploadIntent) : Bool :=
  i.bucket = trimSpace bucket && i.path = trimSpace path && i.ownerID = ownerID

def lockOwnedStorageUploadIntentTx (bucket path ownerID : String) : CoreTx Unit := do
  let now ← clockTimestamp
  let db ← getDB
  require (db.storageUploadIntents.any fun i =>
      ownsIntent bucket path ownerID i && i.orphanedAt.isNone && now < i.expiresAt)
    (.failure "storage upload intent ownership was lost or its lease expired")

def deleteStorageUploadIntentTx (bucket path ownerID : String) : CoreTx Unit := do
  let db ← getDB
  require (db.storageUploadIntents.any (ownsIntent bucket path ownerID))
    (.failure "storage upload intent ownership was lost")
  modifyDB fun db =>
    { db with
      storageUploadIntents :=
        db.storageUploadIntents.filter fun i => !ownsIntent bucket path ownerID i }

/-- The upserted row: an existing one keeps its creation time and instance token. -/
def upsertUploadedObjectMetadata (objectID path contentType : String) (type : Option String)
    (json : String) (version : ℕ) : CoreTx MediaObject := do
  let db ← getDB
  require (!db.objects.any fun o => o.path = some path && o.objectID ≠ objectID)
    (.conflict "Object path conflicts with an existing object")
  let createdAt ← clockTimestamp
  let updatedAt ← clockTimestamp
  match findObject db objectID with
  | none =>
    let out : MediaObject :=
      { objectID := objectID, path := some path, contentType := some contentType, type := type,
        json := json, createdAt := createdAt, updatedAt := updatedAt, version := version,
        instanceTokenHash := none }
    modifyDB fun db => { db with objects := db.objects ++ [out] }
    return out
  | some o =>
    let out : MediaObject :=
      { o with path := some path, contentType := some contentType, type := type, json := json,
               updatedAt := updatedAt, version := version }
    updateObjectRow out
    return out

/-- The blob an upload replaces, if it lies at another path. -/
def replacedBlob (env : Env) (state : UploadState) (path : String) :
    CoreTx (Option (String × String)) :=
  match state.resource with
  | none => return none
  | some o =>
    match normalizeOptionalObjectString o.path with
    | none => return none
    | some old =>
      if o.path = some path then return none
      else do
        let bucket ← persistedObjectBucket env o
        return some (bucket, old)

/-- The transaction of `Upload` that records the stored blob of `sizeBytes` bytes. -/
def ObjectActions.uploadMetadata (env : Env) (params : UploadParams) (preflight : UploadState)
    (sizeBytes : ℕ) : CoreTx MediaObject := do
  let objectID := trimSpace params.objectID
  let bucket := env.storageBucket.getD ""
  lockOwnedStorageUploadIntentTx bucket params.path params.ownerID
  let current ← currentObjectStateForUpload objectID
  require (!objectDeletedAfterUploadPreflight preflight current) (.notFound .object objectID)
  let type := if trimSpace params.type = "" then current.resource.bind (·.type)
    else some (trimSpace params.type)
  let json ← check (env.uploadObjectJSON (current.resource.map (·.json)) bucket sizeBytes
    ((params.usageHint.filter (· ≠ "")).map ([·])))
  let version ← nextChangeVersion
  let out ← upsertUploadedObjectMetadata objectID params.path params.contentType type json version
  let old ← replacedBlob env current params.path
  queueBlobDeletion old objectID
  deleteStorageUploadIntentTx bucket params.path params.ownerID
  recordObject (if current.resource.isSome then .update else .create) out
  return out

end Atlas.Core
