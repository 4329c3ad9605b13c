import Atlas.Sdk.Snapshot

/-!
# The cache of the SDK

A cache keeps an entry for each resource it has heard of: a state with its version, or that the
resource is deleted. States come from writes, the feed, reads of single resources and hydrations,
and a state is taken if its version is above the entry's. An Entity and an object carry their
version; a Task does not, so that its version is known only where it comes with the Task.
-/

namespace Atlas.Sdk

inductive ResourceType
  | entity
  | task
  | object
  deriving DecidableEq, Repr

abbrev ResourceKey := ResourceType × String

/-- A state of a resource. `stateVersion` is the version the server has given to the state. -/
structure Resource where
  type : ResourceType
  id : String
  createdAt : String
  stateVersion : ℕ
  deriving DecidableEq, Repr

structure ResourceMetadata where
  createdAt : String
  version : ℕ

namespace Resource

def key (r : Resource) : ResourceKey := (r.type, r.id)

/-- A Task has no metadata. -/
def metadata (r : Resource) : Option ResourceMetadata :=
  if r.type = .task then none else some ⟨r.createdAt, r.stateVersion⟩

end Resource

def embeddedResourceVersion (value : Resource) : ℕ := (value.metadata.map (·.version)).getD 0

/-- An instance keeps its creation time over its updates. -/
def sameResourceInstance (observed current : Option Resource) : Bool :=
  match observed, current with
  | some observed, some current => current.metadata.any fun m => observed.createdAt = m.createdAt
  | _, _ => false

/-- An entry. Two entries are the same object if they have the same `serial`. -/
structure CacheEntry where
  value : Option Resource
  version : ℕ
  deleted : Bool
  detail : Bool
  serial : ℕ
  deriving DecidableEq, Repr

structure ResourceReadOptions where
  detail : Bool := false
  version : Option ℕ := none
  replaceSameVersion : Bool := false

structure PointReadOperation where
  key : ResourceKey
  generation : ℕ
  hydrationEpoch : ℕ
  sequence : ℕ
  observedEntry : Option CacheEntry

inductive PointReadStatus
  | pending
  | succeeded
  | failed
  | notFound
  deriving DecidableEq, Repr

structure PointReadState where
  sequence : ℕ
  status : PointReadStatus

/-- A local delete; `active` while it is in the cache's set of them. -/
structure LocalDeleteOperation where
  key : ResourceKey
  observedEntry : Option CacheEntry
  learnedEntry : Option CacheEntry
  recreated : Bool
  reconcile : Bool
  remote : Bool
  active : Bool

inductive UpsertName
  | create
  | update
  deriving DecidableEq, Repr

structure ResourceUpsertEvent where
  event : UpsertName
  version : ℕ
  resource : Resource
  deriving DecidableEq, Repr

inductive FeedEvent
  | upsert (event : ResourceUpsertEvent)
  | delete (key : ResourceKey) (version : ℕ)
  deriving DecidableEq, Repr

namespace FeedEvent

def key : FeedEvent → ResourceKey
  | .upsert event => event.resource.key
  | .delete key _ => key

def version : FeedEvent → ℕ
  | .upsert event => event.version
  | .delete _ version => version

end FeedEvent

inductive AtlasWatchEvent
  | feed (event : FeedEvent)
  | localDelete (key : ResourceKey) (previousVersion : Option ℕ)
  deriving DecidableEq, Repr

structure ResourceChange where
  event : AtlasWatchEvent
  resource : Option Resource
  deriving DecidableEq, Repr

inductive DeleteOutcome
  | deleted
  | notFound
  deriving DecidableEq, Repr

structure ResourceCache where
  entries : OrderedMap ResourceKey CacheEntry
  pendingDeletes : OrderedMap ResourceKey Unit
  localDeleteKeys : OrderedMap ResourceKey Unit
  localDeleteInstances : OrderedMap ResourceKey String
  locallyNotifiedDeletes : OrderedMap ResourceKey Unit
  localDeleteOperations : List LocalDeleteOperation
  generations : OrderedMap ResourceKey ℕ
  pointReadStates : OrderedMap ResourceKey PointReadState
  deferredPointNotFound : OrderedMap ResourceKey PointReadOperation
  hydrationEpoch : ℕ
  snapshotRecords : SnapshotRecords ResourceType Resource
  nextSerial : ℕ

namespace ResourceCache

def new : ResourceCache :=
  ⟨.empty, .empty, .empty, .empty, .empty, [], .empty, .empty, .empty, 0, .new, 0⟩

/-- The state shown of a resource. -/
def value (key : ResourceKey) (c : ResourceCache) : Option Resource :=
  (c.entries.get key).bind fun entry => if entry.deleted then none else entry.value

/-- The cache after a reading of the snapshot, and the snapshot. -/
def snapshot (c : ResourceCache) : ResourceCache × (ResourceType → OrderedMap String Resource) :=
  ({ c with snapshotRecords := c.snapshotRecords.snapshot },
    c.snapshotRecords.snapshot.snapshotValue)

def versionFor (key : ResourceKey) (c : ResourceCache) : ℕ :=
  ((c.entries.get key).map (·.version)).getD 0

def generation (key : ResourceKey) (c : ResourceCache) : ℕ := (c.generations.get key).getD 0

def bumpGeneration (key : ResourceKey) (c : ResourceCache) : ResourceCache :=
  { c with generations := c.generations.set key (c.generation key + 1) }

/-- Change the local deletes of a resource that go on. -/
def forLocalDeletes (key : ResourceKey) (f : LocalDeleteOperation → LocalDeleteOperation)
    (c : ResourceCache) : ResourceCache :=
  { c with
    localDeleteOperations := c.localDeleteOperations.map fun operation =>
      if operation.active && operation.key = key then f operation else operation }

/-- A new entry with a state, and what comes with it. -/
def install (value : Resource) (version : ℕ) (detail : Bool) (c : ResourceCache) :
    ResourceCache :=
  { c with
    snapshotRecords := c.snapshotRecords.updateSnapshot value.key value
    pendingDeletes := c.pendingDeletes.delete value.key
    locallyNotifiedDeletes := c.locallyNotifiedDeletes.delete value.key
    entries := c.entries.set value.key
      ⟨some value, version, false, value.type = .object && detail, c.nextSerial⟩
    nextSerial := c.nextSerial + 1 }

/-- A state is not taken if the entry's version is above its own, nor at the same version unless it
adds an object's details or the reader wants it anyway. -/
def acceptVersion (value : Resource) (options : ResourceReadOptions) (c : ResourceCache) :
    ResourceCache × Bool :=
  let version := options.version.getD (embeddedResourceVersion value)
  match c.entries.get value.key with
  | some existing =>
    let isDetailUpgrade := value.type = .object && options.detail && existing.version = version &&
      !existing.deleted && !existing.detail
    if version < existing.version then (c, false)
    else if existing.version = version && !isDetailUpgrade && !options.replaceSameVersion then
      (c, false)
    else (c.install value version options.detail, true)
  | none => (c.install value version options.detail, true)

/-- A read's state is not taken after a delete has begun or ended, nor one of the instance that a
local delete under way is about. -/
def acceptResource (value : Resource) (options : ResourceReadOptions) (generation : Option ℕ)
    (c : ResourceCache) : ResourceCache × Bool :=
  match generation with
  | none => c.acceptVersion value options
  | some generation =>
    if c.generation value.key ≠ generation then (c, false)
    else if c.localDeleteOperations.any fun operation =>
        operation.active && operation.key = value.key && (operation.observedEntry = none ||
          sameResourceInstance (operation.observedEntry.bind (·.value)) (some value)) then
      (c.forLocalDeletes value.key fun operation =>
        if operation.observedEntry = none then { operation with reconcile := true }
        else operation, false)
    else c.acceptVersion value options

def beginPointRead (key : ResourceKey) (c : ResourceCache) : ResourceCache × PointReadOperation :=
  let sequence := ((c.pointReadStates.get key).map (·.sequence)).getD 0 + 1
  ({ c with pointReadStates := c.pointReadStates.set key ⟨sequence, .pending⟩ },
    ⟨key, c.generation key, c.hydrationEpoch, sequence, c.entries.get key⟩)

def settlePointRead (operation : PointReadOperation) (status : PointReadStatus)
    (c : ResourceCache) : ResourceCache :=
  match c.pointReadStates.get operation.key with
  | some latest =>
    if latest.sequence ≠ operation.sequence then c
    else
      { c with
        pointReadStates := c.pointReadStates.set operation.key ⟨latest.sequence, status⟩
        deferredPointNotFound := c.deferredPointNotFound.delete operation.key }
  | none => c

def applyPointRead (operation : PointReadOperation) (value : Resource)
    (options : ResourceReadOptions) (c : ResourceCache) : ResourceCache × Bool :=
  if operation.hydrationEpoch ≠ c.hydrationEpoch then (c, false)
  else
    (c.settlePointRead operation .succeeded).acceptResource value options
      (some operation.generation)

/-- The resource is deleted at a version; the local deletes under way are told if `notify`. -/
def markRemoteDelete (key : ResourceKey) (version : ℕ) (notify : Bool) (c : ResourceCache) :
    ResourceCache :=
  let c := (c.bumpGeneration key).forLocalDeletes key fun operation =>
    if notify then { operation with remote := true } else operation
  { c with
    entries := c.entries.set key ⟨none, version, true, false, c.nextSerial⟩
    nextSerial := c.nextSerial + 1
    snapshotRecords := c.snapshotRecords.removeFromSnapshot key }

def applyPointNotFoundNow (operation : PointReadOperation) (c : ResourceCache) :
    ResourceCache × Bool :=
  let currentEntry := c.entries.get operation.key
  if currentEntry.map (·.serial) ≠ operation.observedEntry.map (·.serial) ||
      currentEntry.any (·.deleted) then (c, false)
  else
    let c := (c.bumpGeneration operation.key).markRemoteDelete operation.key
      ((currentEntry.map (·.version)).getD 0) false
    ({ c with pendingDeletes := c.pendingDeletes.set operation.key () }, true)

/-- That a resource is not found waits for a later read that is under way. -/
def applyPointNotFound (operation : PointReadOperation) (c : ResourceCache) :
    ResourceCache × Bool :=
  if operation.hydrationEpoch ≠ c.hydrationEpoch then (c, false)
  else
    match c.pointReadStates.get operation.key with
    | some latest =>
      if operation.sequence < latest.sequence then
        let c := if latest.status = .pending then
          { c with
            deferredPointNotFound := c.deferredPointNotFound.set operation.key operation }
          else c
        if latest.status = .failed then c.applyPointNotFoundNow operation else (c, false)
      else (c.settlePointRead operation .notFound).applyPointNotFoundNow operation
    | none => (c.settlePointRead operation .notFound).applyPointNotFoundNow operation

/-- A read has failed; what was not found before goes ahead. -/
def completePointRead (operation : PointReadOperation) (c : ResourceCache) :
    ResourceCache × Bool :=
  if operation.hydrationEpoch ≠ c.hydrationEpoch then (c, false)
  else
    match c.pointReadStates.get operation.key with
    | some latest =>
      if latest.sequence ≠ operation.sequence || latest.status ≠ .pending then (c, false)
      else
        let c := { c with
          pointReadStates := c.pointReadStates.set operation.key ⟨latest.sequence, .failed⟩ }
        match c.deferredPointNotFound.get operation.key with
        | some deferred =>
          { c with
            deferredPointNotFound := c.deferredPointNotFound.delete operation.key
            }.applyPointNotFoundNow deferred
        | none => (c, false)
    | none => (c, false)

/-- An update with another creation time than that of the instance deleted here. -/
def isReplacementAfterLocalDelete (event : ResourceUpsertEvent) (c : ResourceCache) : Bool :=
  event.event = .update &&
    match c.localDeleteInstances.get event.resource.key, event.resource.metadata with
    | some deletedInstance, some m => m.createdAt ≠ deletedInstance
    | _, _ => false

def isSuppressedByLocalDelete (event : ResourceUpsertEvent) (c : ResourceCache) : Bool :=
  event.event = .update && c.localDeleteKeys.has event.resource.key &&
    !c.isReplacementAfterLocalDelete event

def isSuppressedByPendingDelete (event : ResourceUpsertEvent) (c : ResourceCache) : Bool :=
  event.event = .update && c.pendingDeletes.has event.resource.key

def clearLocalDeleteMarker (key : ResourceKey) (c : ResourceCache) : ResourceCache :=
  { c with
    localDeleteKeys := c.localDeleteKeys.delete key
    localDeleteInstances := c.localDeleteInstances.delete key }

/-- The local deletes under way learn of a new state or instance. -/
def noteLocalDeleteUpsert (key : ResourceKey) (event : UpsertName) (c : ResourceCache) :
    ResourceCache :=
  let currentEntry := c.entries.get key
  c.forLocalDeletes key fun operation =>
    if event = .create then { operation with recreated := true }
    else if operation.observedEntry = none ∧ currentEntry ≠ none then
      { operation with learnedEntry := currentEntry }
    else operation

def changeForUpsert (event : ResourceUpsertEvent) (c : ResourceCache) : Option ResourceChange :=
  (c.value event.resource.key).map fun resource =>
    ⟨.feed (.upsert { event with resource := resource }), some resource⟩

def applyWrite (event : ResourceUpsertEvent) (detail : Bool) (c : ResourceCache) :
    ResourceCache × Option ResourceChange :=
  if c.isSuppressedByLocalDelete event then (c, none)
  else
    match c.acceptResource event.resource { detail := detail, version := some event.version }
      none with
    | (c, false) => (c, none)
    | (c, true) =>
      let c := if event.event = .create || c.isReplacementAfterLocalDelete event then
        c.clearLocalDeleteMarker event.resource.key else c
      let c := if event.resource.type ≠ .task then
        c.noteLocalDeleteUpsert event.resource.key event.event else c
      (c, c.changeForUpsert event)

def applyFeedEvent (event : FeedEvent) (c : ResourceCache) :
    ResourceCache × Option ResourceChange :=
  if event.version ≤ c.versionFor event.key then (c, none)
  else
    match event with
    | .delete key version =>
      let c := { c with pendingDeletes := c.pendingDeletes.delete key }.markRemoteDelete key
        version true
      let notified := c.locallyNotifiedDeletes.has key
      ({ c with locallyNotifiedDeletes := c.locallyNotifiedDeletes.delete key },
        if notified then none else some ⟨.feed event, none⟩)
    | .upsert upsert =>
      if c.isSuppressedByPendingDelete upsert then (c, none)
      else
        match c.acceptResource upsert.resource { version := some upsert.version } none with
        | (c, accepted) =>
          if accepted && upsert.resource.type ≠ .task then
            let c := if upsert.event = .create || c.isReplacementAfterLocalDelete upsert then
              c.clearLocalDeleteMarker upsert.resource.key else c
            let c := c.noteLocalDeleteUpsert upsert.resource.key upsert.event
            (c, c.changeForUpsert upsert)
          else (c, c.changeForUpsert upsert)

/-- Every entry goes, with all that is known of deletes and reads, and the hydrated resources are
taken one by one. -/
def replaceHydratedResources (entities tasks objects : List Resource) (c : ResourceCache) :
    ResourceCache :=
  let c : ResourceCache :=
    { entries := .empty
      pendingDeletes := .empty
      localDeleteKeys := .empty
      localDeleteInstances := .empty
      locallyNotifiedDeletes := .empty
      localDeleteOperations := c.localDeleteOperations.map fun operation =>
        { operation with active := false }
      generations := .empty
      pointReadStates := .empty
      deferredPointNotFound := .empty
      hydrationEpoch := c.hydrationEpoch + 1
      snapshotRecords := c.snapshotRecords.clear
      nextSerial := c.nextSerial }
  let c := entities.foldl (fun c entity => (c.acceptResource entity {} none).1) c
  let c := tasks.foldl (fun c task => (c.acceptResource task {} none).1) c
  objects.foldl (fun c object => (c.acceptResource object { detail := true } none).1) c

def beginLocalDelete (key : ResourceKey) (c : ResourceCache) : ResourceCache × ℕ :=
  let c := c.bumpGeneration key
  ({ c with
      localDeleteOperations := c.localDeleteOperations ++
        [⟨key, c.entries.get key, none, false, false, false, true⟩] },
    c.localDeleteOperations.length)

def markLocalDelete (key : ResourceKey) (c : ResourceCache) : ResourceCache × ℕ :=
  let previousEntry := c.entries.get key
  let previousVersion := (previousEntry.map (·.version)).getD 0
  let previousInstance := (previousEntry.bind fun entry =>
    if entry.deleted then none else entry.value).map (·.createdAt)
  let c := { c with
    localDeleteInstances := match previousInstance with
      | some previousInstance => c.localDeleteInstances.set key previousInstance
      | none => c.localDeleteInstances.delete key }
  let c := c.markRemoteDelete key previousVersion true
  ({ c with
      pendingDeletes := c.pendingDeletes.set key ()
      localDeleteKeys := c.localDeleteKeys.set key () },
    previousVersion)

def removeLocalDelete (id : ℕ) (c : ResourceCache) : ResourceCache :=
  { c with
    localDeleteOperations := c.localDeleteOperations.modify id fun operation =>
      { operation with active := false } }

/-- The server has deleted the resource or has not found it. The entry stays if the server's feed
has said more by now, or if it is of another instance. -/
def finishLocalDelete (id : ℕ) (outcome : DeleteOutcome) (c : ResourceCache) :
    ResourceCache × Option ResourceChange :=
  match c.localDeleteOperations[id]? with
  | some operation =>
    if !operation.active then (c, none)
    else
      let currentEntry := c.entries.get operation.key
      let c := (c.removeLocalDelete id).bumpGeneration operation.key
      let observedDeleted := operation.observedEntry.any (·.deleted)
      let deletesCurrentEntry := observedDeleted && outcome = .deleted
      let current := currentEntry.bind (·.value)
      if observedDeleted && !deletesCurrentEntry then (c, none)
      else if operation.remote || operation.recreated || (!deletesCurrentEntry &&
          currentEntry.map (·.serial) ≠ operation.observedEntry.map (·.serial) &&
          !currentEntry.any (·.deleted) &&
          !sameResourceInstance (operation.observedEntry.bind (·.value)) current &&
          !sameResourceInstance (operation.learnedEntry.bind (·.value)) current) then (c, none)
      else
        let (c, previousVersion) := c.markLocalDelete operation.key
        let removedEntry :=
          if currentEntry.any (!·.deleted) then currentEntry else operation.observedEntry
        if !removedEntry.any (!·.deleted) && outcome ≠ .deleted then (c, none)
        else
          ({ c with
              locallyNotifiedDeletes := c.locallyNotifiedDeletes.set operation.key () },
            some ⟨.localDelete operation.key
              (if 0 < previousVersion then some previousVersion else none), none⟩)
  | none => (c, none)

def cancelLocalDelete (id : ℕ) (c : ResourceCache) : ResourceCache := c.removeLocalDelete id

def needsLocalDeleteReconcile (id : ℕ) (c : ResourceCache) : Bool :=
  c.localDeleteOperations[id]?.any (·.reconcile)

end ResourceCache

end Atlas.Sdk
