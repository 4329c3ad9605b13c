import Atlas.Lib.OrderedMap
import Atlas.Link.Messages

/-!
# The Shared Picture

What a node knows of the entities, Tasks and objects around it. Publications come from any number
of sources, late, twice and out of order; the picture keeps one record or one tombstone for each
resource, and tells its subscribers of each change of a record by an event with the next revision.
-/

namespace Atlas.Picture

open Atlas.Link (LinkNode LinkRole ResourceType ConfirmationState PublicationPath)

inductive PictureFreshness
  | fresh
  | stale
  | degraded
  deriving DecidableEq, Repr

inductive TaskStatus
  | pending
  | acknowledged
  | inProgress
  | completed
  | failed
  | cancelled
  deriving DecidableEq, Repr

/-- An Entity; of its components, which of those that decide how long it stays fresh it has. -/
structure EntityResource where
  entityID : String
  entityType : String
  telemetry : Bool
  health : Bool
  geometry : Bool
  version : ℕ
  content : String
  deriving DecidableEq, Repr

structure TaskResource where
  taskID : String
  assetID : String
  status : TaskStatus
  updatedAt : String
  content : String
  deriving DecidableEq, Repr

structure ObjectResource where
  objectID : String
  version : ℕ
  content : String
  deriving DecidableEq, Repr

inductive Resource
  | entity (entity : EntityResource)
  | task (task : TaskResource)
  | object (object : ObjectResource)
  deriving DecidableEq, Repr

def Resource.type : Resource → ResourceType
  | .entity _ => .entity
  | .task _ => .task
  | .object _ => .object

def Resource.id : Resource → String
  | .entity e => e.entityID
  | .task t => t.taskID
  | .object o => o.objectID

/-- What a publication says of its resource. Tasks are not deleted by a publication. -/
inductive Published
  | resource (resource : Resource)
  | deleted (resourceType : ResourceType) (resourceID : String) (atlasVersion : ℕ)
      (notTask : resourceType ≠ .task)

structure StatePublication where
  published : Published
  observationTime : String
  path : PublicationPath
  confirmation : ConfirmationState
  operationID : Option String
  runtimeID : Option String

structure PictureRecord where
  resourceType : ResourceType
  id : String
  state : Resource
  source : LinkNode
  sourceGeneration : ℕ
  serviceSession : String
  sourceSequence : ℕ
  sourceAssetID : Option String
  runtimeID : Option String
  operationID : Option String
  observationTime : String
  receivedAt : ℕ
  atlasVersion : Option ℕ
  freshness : PictureFreshness
  path : PublicationPath
  confirmation : ConfirmationState
  deriving DecidableEq, Repr

inductive PictureEventType
  | upsert
  | stale
  | remove
  deriving DecidableEq, Repr

structure PictureEvent where
  session : String
  revision : ℕ
  type : PictureEventType
  key : String
  record : Option PictureRecord
  deriving DecidableEq, Repr

structure PictureSnapshot where
  session : String
  revision : ℕ
  records : List PictureRecord
  deriving DecidableEq, Repr

inductive PictureRejection
  | staleSource
  | staleSequence
  | staleRecord
  | capacity
  deriving DecidableEq, Repr

inductive PictureApplyResult
  | applied
  | rejected (reason : PictureRejection)
  deriving DecidableEq, Repr

structure SourcePosition where
  generation : ℕ
  session : String
  deriving DecidableEq, Repr

structure PictureTombstone where
  atlasVersion : ℕ
  confirmation : ConfirmationState
  source : LinkNode
  sourceGeneration : ℕ
  serviceSession : String
  sourceSequence : ℕ
  deriving DecidableEq, Repr

structure RecordSourceSequence where
  sourceKey : String
  generation : ℕ
  session : String
  sequence : ℕ
  receivedAt : ℕ
  deriving DecidableEq, Repr

structure AssetConnectivity where
  connected : Bool
  receivedAt : Option ℕ
  deriving DecidableEq, Repr

def recordSourceSequenceReplayMs : ℕ := 10 * 60000
def recordSourceSequenceLimit : ℕ := 4096
def pictureEntryLimit : ℕ := 4096
def pictureRetainedBytesLimit : ℕ := 16 * 1024 * 1024
def pictureEventBytesLimit : ℕ := 8 * 1024 * 1024
def linkSourceIdentityLimit : ℕ := 4096

/-- Where and when a publication came from. An empty session makes `activateSource` throw before it
changes anything. -/
structure PictureApplyContext where
  source : LinkNode
  sourceGeneration : ℕ
  serviceSession : String
  sourceSequence : ℕ
  receivedAt : ℕ
  serviceSession_ne : serviceSession ≠ ""

/-- The options of a picture, how dates are read and texts compared, and how many bytes entries and
events take as JSON. -/
structure PictureEnv where
  session : String
  eventBufferLimit : ℕ
  session_ne : session ≠ ""
  eventBufferLimit_pos : 1 ≤ eventBufferLimit
  dateParse : String → Option ℤ
  localeCompare : String → String → Ordering
  recordBytes : PictureRecord → ℕ
  tombstoneBytes : PictureTombstone → ℕ
  eventBytes : PictureEvent → ℕ
  recordBytes_pos : ∀ record, 0 < recordBytes record
  tombstoneBytes_pos : ∀ tombstone, 0 < tombstoneBytes tombstone

/-- The fields of a `SharedPicture`. -/
structure SharedPicture where
  revision : ℕ
  records : OrderedMap String PictureRecord
  tombstones : OrderedMap String PictureTombstone
  sources : OrderedMap String SourcePosition
  assetConnectivity : OrderedMap String AssetConnectivity
  recordSourceSequences : OrderedMap String RecordSourceSequence
  entryBytes : OrderedMap String ℕ
  events : List PictureEvent
  eventBytes : List ℕ
  retainedEntryBytes : ℤ
  retainedEventBytes : ℤ

def SharedPicture.new : SharedPicture where
  revision := 0
  records := .empty
  tombstones := .empty
  sources := .empty
  assetConnectivity := .empty
  recordSourceSequences := .empty
  entryBytes := .empty
  events := []
  eventBytes := []
  retainedEntryBytes := 0
  retainedEventBytes := 0

def Published.resourceType : Published → ResourceType
  | .resource r => r.type
  | .deleted type _ _ _ => type

def resourceID (publication : StatePublication) : String :=
  match publication.published with
  | .resource resource => resource.id
  | .deleted _ resourceID _ _ => resourceID

def recordKey (resourceType : ResourceType) (id : String) : String := resourceType.text ++ ":" ++ id

def StatePublication.key (publication : StatePublication) : String :=
  recordKey publication.published.resourceType (resourceID publication)

def nodeKey (node : LinkNode) : String := node.role.text ++ ":" ++ node.id

section Comparisons

variable (env : PictureEnv)

/-- `Date.parse(a) > Date.parse(b)`; a text that is no date compares as false. -/
def laterThan (a b : String) : Bool :=
  match env.dateParse a, env.dateParse b with
  | some a, some b => b < a
  | _, _ => false

/-- `Date.parse(a) >= Date.parse(b)`. -/
def notBefore (a b : String) : Bool :=
  match env.dateParse a, env.dateParse b with
  | some a, some b => b ≤ a
  | _, _ => false

/-- `Date.parse(a) !== Date.parse(b)`; a text that is no date differs even from itself. -/
def differentDates (a b : String) : Bool :=
  match env.dateParse a, env.dateParse b with
  | some a, some b => a ≠ b
  | _, _ => true

def confirmationRank : ConfirmationState → ℕ
  | .coreConfirmed | .coreRejected => 2
  | .notRequired | .awaitingCore => 1

def resourceVersion (publication : StatePublication) : Option ℕ :=
  match publication.published with
  | .deleted _ _ atlasVersion _ => some atlasVersion
  | .resource (.task _) => none
  | .resource (.entity entity) => some entity.version
  | .resource (.object object) => some object.version

/-- Whether a record came from the same source in the same generation and session. -/
def sameSourceSession (record : PictureRecord) (context : PictureApplyContext) : Bool :=
  record.source = context.source && record.sourceGeneration = context.sourceGeneration &&
    record.serviceSession = context.serviceSession

def newerSourceGeneration (current : PictureRecord) (context : PictureApplyContext) : Bool :=
  current.source = context.source && current.sourceGeneration < context.sourceGeneration

def isNewer (publication : StatePublication) (current : PictureRecord)
    (context : PictureApplyContext) : Bool :=
  let nextRank := confirmationRank publication.confirmation
  let currentRank := confirmationRank current.confirmation
  match resourceVersion publication, current.atlasVersion with
  | some nextVersion, some currentVersion =>
    if nextVersion ≠ currentVersion then currentVersion < nextVersion
    else if currentRank < nextRank then true
    else if nextRank < currentRank then
      laterThan env publication.observationTime current.observationTime
    else if newerSourceGeneration current context then
      notBefore env publication.observationTime current.observationTime
    else if sameSourceSession current context then current.sourceSequence < context.sourceSequence
    else laterThan env publication.observationTime current.observationTime
  | _, _ =>
    match publication.published, current.state with
    | .resource (.task task), .task currentTask =>
      if currentRank < nextRank then true
      else if differentDates env task.updatedAt currentTask.updatedAt then
        laterThan env task.updatedAt currentTask.updatedAt
      else if newerSourceGeneration current context then true
      else if nextRank < currentRank then false
      else sameSourceSession current context && current.sourceSequence < context.sourceSequence
    | _, _ => true

def canReplaceTombstone (publication : StatePublication) (tombstone : PictureTombstone) : Bool :=
  match resourceVersion publication with
  | none => false
  | some version =>
    if version ≠ tombstone.atlasVersion then tombstone.atlasVersion < version
    else confirmationRank tombstone.confirmation < confirmationRank publication.confirmation

def sourceAssetID (publication : StatePublication) (source : LinkNode) : Option String :=
  match publication.published with
  | .deleted _ _ _ _ => none
  | .resource resource =>
    if source.role = .asset then some source.id
    else
      match resource with
      | .task task => some task.assetID
      | .entity entity => if entity.entityType = "asset" then some entity.entityID else none
      | .object _ => none

def isTerminalTask (task : TaskResource) : Bool :=
  task.status = .completed || task.status = .failed || task.status = .cancelled

structure FreshnessThresholds where
  staleAfterMs : Option ℕ := none
  removeAfterMs : Option ℕ := none

def freshnessThresholds (record : PictureRecord) : FreshnessThresholds :=
  match record.state with
  | .task task => if isTerminalTask task then { removeAfterMs := some (10 * 60000) } else {}
  | .entity entity =>
    if entity.entityType = "asset" ∨ entity.entityType = "track" then
      if entity.telemetry || entity.health then
        { staleAfterMs := some 30000, removeAfterMs := some 120000 }
      else if entity.geometry then { staleAfterMs := some 5000, removeAfterMs := some 30000 }
      else {}
    else {}
  | .object _ => {}

end Comparisons

namespace SharedPicture

section Entries

variable (env : PictureEnv)

def retainedRecordBytes (record : PictureRecord) : ℕ :=
  env.recordBytes { record with freshness := .degraded }

def canRetain (p : SharedPicture) (key : String) (bytes : ℕ) : Bool :=
  let currentBytes := (p.entryBytes.get key).getD 0
  if currentBytes = 0 ∧ pictureEntryLimit ≤ p.entryBytes.size then false
  else p.retainedEntryBytes - currentBytes + bytes ≤ pictureRetainedBytesLimit

def retainEntrySize (key : String) (bytes : ℕ) (p : SharedPicture) : SharedPicture :=
  { p with
    retainedEntryBytes := p.retainedEntryBytes - (p.entryBytes.get key).getD 0 + bytes
    entryBytes := p.entryBytes.set key bytes }

def retainRecord (key : String) (record : PictureRecord) (p : SharedPicture) : SharedPicture :=
  let p := p.retainEntrySize key (retainedRecordBytes env record)
  { p with tombstones := p.tombstones.delete key, records := p.records.set key record }

def retainTombstone (key : String) (tombstone : PictureTombstone) (p : SharedPicture) :
    SharedPicture :=
  let p := p.retainEntrySize key (env.tombstoneBytes tombstone)
  { p with records := p.records.delete key, tombstones := p.tombstones.set key tombstone }

def removeRecord (key : String) (p : SharedPicture) : SharedPicture :=
  { p with
    records := p.records.delete key
    retainedEntryBytes := p.retainedEntryBytes - (p.entryBytes.get key).getD 0
    entryBytes := p.entryBytes.delete key }

/-- Forget the oldest events, until the rest is within both limits. Without events there is nothing
left to forget. -/
def trimEvents (limit : ℕ) : List PictureEvent → List ℕ → ℤ → List PictureEvent × List ℕ × ℤ
  | [], sizes, retained => ([], sizes, retained)
  | e :: rest, sizes, retained =>
    if limit < rest.length + 1 ∨ (pictureEventBytesLimit : ℤ) < retained then
      trimEvents limit rest sizes.tail (retained - sizes.head?.getD 0)
    else (e :: rest, sizes, retained)

/-- Tell of a change: the event gets the next revision and enters the buffer; one that is too large
for the buffer empties it. -/
def emit (type : PictureEventType) (key : String) (record : Option PictureRecord)
    (p : SharedPicture) : SharedPicture :=
  let event : PictureEvent := ⟨env.session, p.revision + 1, type, key, record⟩
  let bytes := env.eventBytes event
  let p := { p with revision := p.revision + 1 }
  if pictureEventBytesLimit < bytes then
    { p with events := [], eventBytes := [], retainedEventBytes := 0 }
  else
    let trimmed := trimEvents env.eventBufferLimit (p.events ++ [event]) (p.eventBytes ++ [bytes])
      (p.retainedEventBytes + bytes)
    { p with events := trimmed.1, eventBytes := trimmed.2.1, retainedEventBytes := trimmed.2.2 }

end Entries

section Connectivity

variable (env : PictureEnv)

/-- A Task record whose freshness follows its Asset's connectivity. -/
def followsAsset (record : PictureRecord) (assetID : String) : Bool :=
  match record.state with
  | .task task => !isTerminalTask task && task.assetID = assetID
  | _ => false

/-- Bring one Task record's freshness in line with its Asset's connectivity. -/
def markRecord (assetID : String) (connected : Bool) (p : SharedPicture) (key : String) :
    SharedPicture :=
  let freshness : PictureFreshness := if connected then .fresh else .degraded
  match p.records.get key with
  | none => p
  | some record =>
    if followsAsset record assetID = true ∧ record.freshness ≠ freshness then
      let updated := { record with freshness := freshness }
      (p.retainRecord env key updated).emit env (if connected then .upsert else .stale) key
        (some updated)
    else p

def markSourceConnectivity (source : LinkNode) (connected : Bool) (p : SharedPicture) :
    SharedPicture :=
  if source.role ≠ .asset then p
  else
    let p :=
      { p with
        assetConnectivity :=
          p.assetConnectivity.modify source.id fun c => { c with connected := connected } }
    p.records.keys.foldl (markRecord env source.id connected) p

def degradeTasksForExpiredAsset (record : PictureRecord) (p : SharedPicture) : SharedPicture :=
  match record.state with
  | .entity entity =>
    if entity.entityType = "asset" then p.markSourceConnectivity env ⟨.asset, entity.entityID⟩ false
    else p
  | _ => p

/-- An Asset that becomes a source counts as disconnected until it publishes. -/
def introduceAsset (source : LinkNode) (p : SharedPicture) : SharedPicture :=
  if source.role = .asset ∧ p.assetConnectivity.has source.id = false then
    { p with assetConnectivity := p.assetConnectivity.set source.id ⟨false, none⟩ }
  else p

/-- A new generation of a source starts its sequences anew. -/
def supersedeSource (source : LinkNode) (generation : ℕ) (p : SharedPicture) : SharedPicture :=
  if (p.sources.get (nodeKey source)).any fun c => c.generation < generation then
    let p := p.markSourceConnectivity env source false
    { p with
      recordSourceSequences :=
        p.recordSourceSequences.filter fun e => e.2.sourceKey ≠ nodeKey source }
  else p

def activateSource (source : LinkNode) (generation : ℕ) (session : String) (p : SharedPicture) :
    SharedPicture × Bool :=
  let key := nodeKey source
  let current := p.sources.get key
  if current = none ∧ linkSourceIdentityLimit ≤ p.sources.size then (p, false)
  else if current.any fun c =>
      generation < c.generation || (generation = c.generation && session ≠ c.session) then
    (p, false)
  else if (source.role = .asset ∧ p.assetConnectivity.has source.id = false) ∧
      linkSourceIdentityLimit ≤ p.assetConnectivity.size then
    (p, false)
  else
    let p := p.introduceAsset source
    if current = some ⟨generation, session⟩ then (p, true)
    else
      let p := p.supersedeSource env source generation
      ({ p with sources := p.sources.set key ⟨generation, session⟩ }, true)

def acceptSource (context : PictureApplyContext) (p : SharedPicture) :
    SharedPicture × Option PictureRejection :=
  if p.sources.get (nodeKey context.source) = none ∧ linkSourceIdentityLimit ≤ p.sources.size then
    (p, some .capacity)
  else
    let (p, accepted) :=
      p.activateSource env context.source context.sourceGeneration context.serviceSession
    (p, if accepted then none else some .staleSource)

def isAssetRecord (record : PictureRecord) : Bool :=
  match record.state with
  | .entity e => record.resourceType = .entity && e.entityType = "asset"
  | _ => false

def connectivityAssetID (publication : StatePublication) (context : PictureApplyContext)
    (current : Option PictureRecord) (p : SharedPicture) : Option String :=
  match publication.published with
  | .deleted resourceType resourceID _ _ =>
    match current.filter isAssetRecord with
    | some record => some record.id
    | none =>
      if resourceType ≠ .entity then none
      else if p.assetConnectivity.has resourceID then some resourceID
      else none
  | .resource r =>
    if context.source.role = .asset then some context.source.id
    else
      match r with
      | .entity e => if e.entityType = "asset" then some e.entityID else none
      | _ => none

def canAdmitAsset (assetID : String) (p : SharedPicture) : Bool :=
  p.assetConnectivity.has assetID || p.assetConnectivity.size < linkSourceIdentityLimit

def taskFreshness (task : TaskResource) (current : Option PictureRecord) (p : SharedPicture) :
    PictureFreshness :=
  let assetKey := recordKey .entity task.assetID
  let kept := current.filter fun c => c.resourceType = .task && c.freshness ≠ .fresh
  if isTerminalTask task then .fresh
  else
    match kept with
    | some record => record.freshness
    | none =>
      if (p.records.get assetKey).any fun asset => asset.freshness ≠ .fresh then .degraded
      else if p.tombstones.has assetKey then .degraded
      else if (p.assetConnectivity.get task.assetID).any fun c => !c.connected then .degraded
      else .fresh

def pruneRecordSourceSequences (now : ℕ) (p : SharedPicture) : SharedPicture :=
  { p with
    recordSourceSequences :=
      p.recordSourceSequences.filter fun e => now < e.2.receivedAt + recordSourceSequenceReplayMs }

end Connectivity

section Applying

variable (env : PictureEnv)

/-- A publication that its source has overtaken by one to the same record or tombstone. -/
def staleSequence (current : Option PictureRecord) (tombstone : Option PictureTombstone)
    (context : PictureApplyContext) : Bool :=
  (current.any fun c =>
    sameSourceSession c context && context.sourceSequence ≤ c.sourceSequence) ||
  (tombstone.any fun t =>
    t.source = context.source && t.sourceGeneration = context.sourceGeneration &&
      t.serviceSession = context.serviceSession && context.sourceSequence ≤ t.sourceSequence)

def tombstoneFor (atlasVersion : ℕ) (publication : StatePublication)
    (context : PictureApplyContext) : PictureTombstone where
  atlasVersion := atlasVersion
  confirmation := publication.confirmation
  source := context.source
  sourceGeneration := context.sourceGeneration
  serviceSession := context.serviceSession
  sourceSequence := context.sourceSequence

def recordFor (resource : Resource) (publication : StatePublication)
    (context : PictureApplyContext) (freshness : PictureFreshness) : PictureRecord where
  resourceType := resource.type
  id := resource.id
  state := resource
  source := context.source
  sourceGeneration := context.sourceGeneration
  serviceSession := context.serviceSession
  sourceSequence := context.sourceSequence
  sourceAssetID := sourceAssetID publication context.source
  runtimeID := publication.runtimeID
  operationID := publication.operationID
  observationTime := publication.observationTime
  receivedAt := context.receivedAt
  atlasVersion := resourceVersion publication
  freshness := freshness
  path := publication.path
  confirmation := publication.confirmation

/-- The state to fall back to when an entry does not fit: the source's sequence is taken back. -/
def rejectCapacity (recordSourceKey : String) (before : Option RecordSourceSequence)
    (p : SharedPicture) : SharedPicture × PictureApplyResult :=
  ({ p with
      recordSourceSequences :=
        match before with
        | none => p.recordSourceSequences.delete recordSourceKey
        | some position => p.recordSourceSequences.set recordSourceKey position },
    .rejected .capacity)

/-- The Tasks of an Asset whose record goes. -/
def degradeCurrent (current : Option PictureRecord) (p : SharedPicture) : SharedPicture :=
  match current with
  | some record => p.degradeTasksForExpiredAsset env record
  | none => p

def markAsset (assetID : Option String) (connected : Bool) (p : SharedPicture) : SharedPicture :=
  match assetID with
  | some assetID => p.markSourceConnectivity env ⟨.asset, assetID⟩ connected
  | none => p

def connectAsset (assetID : Option String) (receivedAt : ℕ) (p : SharedPicture) : SharedPicture :=
  match assetID with
  | some assetID =>
    { p with assetConnectivity := p.assetConnectivity.set assetID ⟨true, some receivedAt⟩ }
  | none => p

def applyDeletion (publication : StatePublication) (context : PictureApplyContext)
    (atlasVersion : ℕ) (current : Option PictureRecord) (connectivityAssetID : Option String)
    (recordSourceKey : String) (before : Option RecordSourceSequence) (p : SharedPicture) :
    SharedPicture × PictureApplyResult :=
  let key := publication.key
  if (p.tombstones.get key).any fun t => !canReplaceTombstone publication t then
    (p, .rejected .staleRecord)
  else
    let tombstone := tombstoneFor atlasVersion publication context
    if !p.canRetain key (env.tombstoneBytes tombstone) then rejectCapacity recordSourceKey before p
    else
      let p := (p.degradeCurrent env current).retainTombstone env key tombstone
      let p := p.markAsset env connectivityAssetID false
      (if current.isSome then p.emit env .remove key none else p, .applied)

def resourceFreshness (resource : Resource) (current : Option PictureRecord) (p : SharedPicture) :
    PictureFreshness :=
  match resource with
  | .task t => p.taskFreshness t current
  | _ => .fresh

def applyResource (publication : StatePublication) (context : PictureApplyContext)
    (resource : Resource) (current : Option PictureRecord) (connectivityAssetID : Option String)
    (recordSourceKey : String) (before : Option RecordSourceSequence) (p : SharedPicture) :
    SharedPicture × PictureApplyResult :=
  let key := publication.key
  if (p.tombstones.get key).any fun t => !canReplaceTombstone publication t then
    (p, .rejected .staleRecord)
  else
    let record := recordFor resource publication context (p.resourceFreshness resource current)
    if !p.canRetain key (retainedRecordBytes env record) then
      rejectCapacity recordSourceKey before p
    else
      let p := (p.retainRecord env key record).connectAsset connectivityAssetID context.receivedAt
      ((p.emit env .upsert key (some record)).markAsset env connectivityAssetID true, .applied)

/-- The part of `apply` after the source is accepted. -/
def applyAccepted (publication : StatePublication) (context : PictureApplyContext)
    (current : Option PictureRecord) (connectivityAssetID : Option String) (p : SharedPicture) :
    SharedPicture × PictureApplyResult :=
  let key := publication.key
  let sourceKey := nodeKey context.source
  let recordSourceKey := key ++ "\x00" ++ sourceKey
  let before := p.recordSourceSequences.get recordSourceKey
  if before.any fun b =>
      b.generation = context.sourceGeneration && b.session = context.serviceSession &&
        context.sourceSequence ≤ b.sequence then
    (p, .rejected .staleSequence)
  else if before = none ∧ recordSourceSequenceLimit ≤ p.recordSourceSequences.size then
    (p, .rejected .capacity)
  else
    let p :=
      { p with
        recordSourceSequences :=
          p.recordSourceSequences.set recordSourceKey
            ⟨sourceKey, context.sourceGeneration, context.serviceSession, context.sourceSequence,
              context.receivedAt⟩ }
    if staleSequence current (p.tombstones.get key) context then (p, .rejected .staleSequence)
    else if current.any fun c => !isNewer env publication c context then
      (p, .rejected .staleRecord)
    else
      match publication.published with
      | .deleted _ _ atlasVersion _ =>
        p.applyDeletion env publication context atlasVersion current connectivityAssetID
          recordSourceKey before
      | .resource resource =>
        p.applyResource env publication context resource current connectivityAssetID
          recordSourceKey before

def apply (publication : StatePublication) (context : PictureApplyContext) (p : SharedPicture) :
    SharedPicture × PictureApplyResult :=
  let current := p.records.get publication.key
  let connectivityAssetID := p.connectivityAssetID publication context current
  if connectivityAssetID.any fun assetID => !p.canAdmitAsset assetID then (p, .rejected .capacity)
  else
    match p.acceptSource env context with
    | (p, some reason) => (p, .rejected reason)
    | (p, none) =>
      (p.pruneRecordSourceSequences context.receivedAt).applyAccepted env publication context
        current connectivityAssetID

end Applying

section Refreshing

variable (env : PictureEnv)

/-- An Asset not heard from for half a minute counts as disconnected. -/
def expireConnectivity (now : ℕ) (p : SharedPicture) (id : String) : SharedPicture :=
  match p.assetConnectivity.get id with
  | none => p
  | some c =>
    if c.connected = true ∧ c.receivedAt.any (· + 30000 ≤ now) = true then
      p.markSourceConnectivity env ⟨.asset, id⟩ false
    else p

def refreshRecord (now : ℕ) (p : SharedPicture) (key : String) : SharedPicture :=
  match p.records.get key with
  | none => p
  | some record =>
    let thresholds := freshnessThresholds record
    if thresholds.removeAfterMs.any (record.receivedAt + · ≤ now) then
      ((p.degradeTasksForExpiredAsset env record).removeRecord key).emit env .remove key none
    else if thresholds.staleAfterMs.any (record.receivedAt + · ≤ now) = true ∧
        record.freshness = .fresh then
      let stale := { record with freshness := .stale }
      ((p.degradeTasksForExpiredAsset env record).retainRecord env key stale).emit env .stale key
        (some stale)
    else p

def refresh (now : ℕ) (p : SharedPicture) : SharedPicture :=
  let p := p.pruneRecordSourceSequences now
  let p := p.assetConnectivity.keys.foldl (expireConnectivity env now) p
  p.records.keys.foldl (refreshRecord env now) p

end Refreshing

section Reading

variable (env : PictureEnv)

/-- The order of a snapshot's records: by type, then by ID. -/
def recordLE (left right : PictureRecord) : Bool :=
  ((env.localeCompare left.resourceType.text right.resourceType.text).then
    (env.localeCompare left.id right.id)).isLE

def snapshot (p : SharedPicture) : PictureSnapshot :=
  ⟨env.session, p.revision, p.records.values.mergeSort (recordLE env)⟩

/-- The events after a cursor; nothing where the source throws a `PictureCursorError`. -/
def eventsAfter (session : String) (revision : ℤ) (p : SharedPicture) :
    Option (List PictureEvent) :=
  let earliest := (p.events.head?.map (·.revision)).getD (p.revision + 1)
  if session ≠ env.session ∨ revision < 0 ∨ (p.revision : ℤ) < revision then none
  else if revision < (earliest : ℤ) - 1 then none
  else some (p.events.filter fun event => revision < event.revision)

end Reading

end SharedPicture

/-- What is done to a picture. -/
inductive PictureOp
  | apply (publication : StatePublication) (context : PictureApplyContext)
  | refresh (now : ℕ)
  | markSourceConnectivity (source : LinkNode) (connected : Bool)
  | activateSource (source : LinkNode) (generation : ℕ) (session : String) (session_ne : session ≠ "")

def PictureOp.run (env : PictureEnv) (p : SharedPicture) : PictureOp → SharedPicture
  | .apply publication context => (p.apply env publication context).1
  | .refresh now => p.refresh env now
  | .markSourceConnectivity source connected => p.markSourceConnectivity env source connected
  | .activateSource source generation session _ => (p.activateSource env source generation session).1

/-- The states a picture reaches. -/
inductive Reachable (env : PictureEnv) : SharedPicture → Prop
  | new : Reachable env .new
  | step {p : SharedPicture} (op : PictureOp) : Reachable env p → Reachable env (op.run env p)

theorem plainBootId_ne : "boot-1" ≠ "" := by decide

/-- A small picture's environment: dates are plain numbers, and every entry takes as many bytes. -/
def plainEnv : PictureEnv where
  session := "picture-1"
  eventBufferLimit := 1024
  session_ne := by decide
  eventBufferLimit_pos := by decide
  dateParse text := text.toInt?
  localeCompare := compare
  recordBytes _ := 400
  tombstoneBytes _ := 200
  eventBytes _ := 500
  recordBytes_pos _ := by decide
  tombstoneBytes_pos _ := by decide

end Atlas.Picture
