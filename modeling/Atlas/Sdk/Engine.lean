import Atlas.Sdk.Cache

/-!
# The SDK's synchronization

An engine reads single resources, writes, deletes and hydrates by requests, takes the events of a
feed in the order of their versions, and asks for the changes since a version where it has missed
some. Its handlers wait for the server, for a hydration and for a recovery, and anything may happen
meanwhile. Wherever the engine looks whether a handler is still wanted, the run says so: a handler
may be abandoned at any time.
-/

namespace Atlas.Sdk

inductive Handler
  | reading (operation : PointReadOperation) (fresh : Bool)
  | answered (operation : PointReadOperation) (fresh : Bool) (answer : Option Resource)
  | deleting (operation : ℕ)
  | hydrating (snapshotVersion : Option ℕ) (entities tasks objects : List Resource)
  | recovering (sinceVersion lastEventVersion : ℕ)
  | consuming (event : FeedEvent)
  | missing (event : FeedEvent)
  | done

/-- The fields of a `SyncEngine`, its handlers, how far the server's versions have come, and the
watermark of the last hydration installed. -/
structure SyncEngine where
  cache : ResourceCache
  feedCursor : ℕ
  handlers : List Handler
  serverVersion : ℕ
  watermark : ℕ

inductive SyncEvent
  | advance
  | read (key : ResourceKey) (fresh : Bool)
  | answer (id : ℕ) (answer : Option Resource)
  | deliver (id : ℕ)
  | failRead (id : ℕ)
  | write (event : ResourceUpsertEvent)
  | delete (key : ResourceKey)
  | finishDelete (id : ℕ) (outcome : DeleteOutcome)
  | failDelete (id : ℕ)
  | hydrate
  | page (id version : ℕ) (entities tasks objects : List Resource)
  | install (id : ℕ)
  | recover (sinceVersion : ℕ)
  | recovered (id : ℕ) (event : FeedEvent)
  | synchronized (id snapshotVersion : ℕ)
  | feed (event : FeedEvent)
  | consume (id : ℕ)
  | recoveredMissing (id : ℕ) (recovered : Bool)
  | abandon (id : ℕ)

namespace SyncEngine

def new : SyncEngine := ⟨.new, 0, [], 0, 0⟩

def start (handler : Handler) (s : SyncEngine) : SyncEngine :=
  { s with handlers := s.handlers ++ [handler] }

def resume (id : ℕ) (handler : Handler) (s : SyncEngine) : SyncEngine :=
  { s with handlers := s.handlers.set id handler }

/-- A Task's version comes with its response, an object is read with its details. -/
def readOptions (value : Resource) (fresh : Bool) : ResourceReadOptions :=
  match value.type with
  | .task => { version := some value.stateVersion, replaceSameVersion := fresh }
  | .object => { detail := true }
  | .entity => {}

def readPoint (key : ResourceKey) (fresh : Bool) (s : SyncEngine) : SyncEngine :=
  { s with cache := (s.cache.beginPointRead key).1 }.start
    (.reading (s.cache.beginPointRead key).2 fresh)

/-- A read fails; one of a Task is just over. -/
def failPointRead (operation : PointReadOperation) (s : SyncEngine) : SyncEngine :=
  if operation.key.1 = .task then s
  else { s with cache := (s.cache.completePointRead operation).1 }

def pointNotFound (operation : PointReadOperation) (s : SyncEngine) : SyncEngine :=
  if operation.key.1 = .task then s
  else
    match s.cache.applyPointNotFound operation with
    | (cache, true) => { s with cache := cache }
    | (cache, false) => { s with cache := cache }.failPointRead operation

def deliver (id : ℕ) (s : SyncEngine) : SyncEngine :=
  match s.handlers[id]? with
  | some (.answered operation fresh (some value)) =>
    if value.key ≠ operation.key then (s.failPointRead operation).resume id .done
    else
      { s with
        cache := (s.cache.applyPointRead operation value (readOptions value fresh)).1
        }.resume id .done
  | some (.answered operation _ none) => (s.pointNotFound operation).resume id .done
  | _ => s

def failRead (id : ℕ) (s : SyncEngine) : SyncEngine :=
  match s.handlers[id]? with
  | some (.reading operation _) => (s.failPointRead operation).resume id .done
  | _ => s

/-- A write's response, whenever it comes. -/
def write (event : ResourceUpsertEvent) (s : SyncEngine) : SyncEngine :=
  { s with cache := (s.cache.applyWrite event (event.resource.type = .object)).1 }

def deleteResource (key : ResourceKey) (s : SyncEngine) : SyncEngine :=
  { s with cache := (s.cache.beginLocalDelete key).1 }.start
    (.deleting (s.cache.beginLocalDelete key).2)

def reconcileLocalDelete (operation : ℕ) (s : SyncEngine) : SyncEngine :=
  match s.cache.localDeleteOperations[operation]? with
  | some localDelete => if localDelete.reconcile then s.readPoint localDelete.key false else s
  | none => s

def finishDelete (id : ℕ) (outcome : DeleteOutcome) (s : SyncEngine) : SyncEngine :=
  match s.handlers[id]? with
  | some (.deleting operation) =>
    ({ s with cache := (s.cache.finishLocalDelete operation outcome).1 }.resume id
      .done).reconcileLocalDelete operation
  | _ => s

def failDelete (id : ℕ) (s : SyncEngine) : SyncEngine :=
  match s.handlers[id]? with
  | some (.deleting operation) =>
    { s with cache := s.cache.cancelLocalDelete operation }.resume id .done
  | _ => s

/-- A page of the full dataset; all pages must be of one version. -/
def page (id version : ℕ) (entities tasks objects : List Resource) (s : SyncEngine) :
    SyncEngine :=
  match s.handlers[id]? with
  | some (.hydrating snapshotVersion entities' tasks' objects') =>
    if snapshotVersion.any fun v => v ≠ version then s.resume id .done
    else
      s.resume id (.hydrating (some version) (entities' ++ entities) (tasks' ++ tasks)
        (objects' ++ objects))
  | _ => s

def install (id : ℕ) (s : SyncEngine) : SyncEngine :=
  match s.handlers[id]? with
  | some (.hydrating (some snapshotVersion) entities tasks objects) =>
    { s with
      cache := s.cache.replaceHydratedResources entities tasks objects
      feedCursor := snapshotVersion
      watermark := snapshotVersion }.resume id .done
  | _ => s

def applyFeedEvent (event : FeedEvent) (s : SyncEngine) : SyncEngine :=
  { s with
    cache := (s.cache.applyFeedEvent event).1
    feedCursor := max s.feedCursor event.version }

/-- An event of a changed-since page; they come in the order of their versions. -/
def recovered (id : ℕ) (event : FeedEvent) (s : SyncEngine) : SyncEngine :=
  match s.handlers[id]? with
  | some (.recovering sinceVersion lastEventVersion) =>
    if event.version ≤ lastEventVersion then s.resume id .done
    else (s.applyFeedEvent event).resume id (.recovering sinceVersion event.version)
  | _ => s

def synchronized (id snapshotVersion : ℕ) (s : SyncEngine) : SyncEngine :=
  match s.handlers[id]? with
  | some (.recovering _ _) =>
    { s with feedCursor := max s.feedCursor snapshotVersion }.resume id .done
  | _ => s

/-- An event of the feed, once no hydration is under way. Where some are missing before it, it
waits for the changes since the cursor. -/
def consumeFeedEvent (id : ℕ) (s : SyncEngine) : SyncEngine :=
  match s.handlers[id]? with
  | some (.consuming event) =>
    if event.version ≤ s.feedCursor then s.resume id .done
    else if s.feedCursor + 1 < event.version then s.resume id (.missing event)
    else (s.applyFeedEvent event).resume id .done
  | _ => s

/-- The changes are there, or not; the event is applied without a second look at the cursor. -/
def recoveredMissing (id : ℕ) (recovered : Bool) (s : SyncEngine) : SyncEngine :=
  match s.handlers[id]? with
  | some (.missing event) =>
    if recovered then (s.applyFeedEvent event).resume id .done else s.resume id .done
  | _ => s

def answer (id : ℕ) (value : Option Resource) (s : SyncEngine) : SyncEngine :=
  match s.handlers[id]? with
  | some (.reading operation fresh) => s.resume id (.answered operation fresh value)
  | _ => s

def step (s : SyncEngine) : SyncEvent → SyncEngine
  | .advance => { s with serverVersion := s.serverVersion + 1 }
  | .read key fresh => s.readPoint key fresh
  | .answer id value => s.answer id value
  | .deliver id => s.deliver id
  | .failRead id => s.failRead id
  | .write event => s.write event
  | .delete key => s.deleteResource key
  | .finishDelete id outcome => s.finishDelete id outcome
  | .failDelete id => s.failDelete id
  | .hydrate => s.start (.hydrating none [] [] [])
  | .page id version entities tasks objects => s.page id version entities tasks objects
  | .install id => s.install id
  | .recover sinceVersion => s.start (.recovering sinceVersion sinceVersion)
  | .recovered id event => s.recovered id event
  | .synchronized id snapshotVersion => s.synchronized id snapshotVersion
  | .feed event => s.start (.consuming event)
  | .consume id => s.consumeFeedEvent id
  | .recoveredMissing id recovered => s.recoveredMissing id recovered
  | .abandon id => s.resume id .done

end SyncEngine

inductive ServerChange
  | upsert (value : Resource)
  | delete (key : ResourceKey)
  deriving DecidableEq, Repr

def ServerChange.key : ServerChange → ResourceKey
  | .upsert value => value.key
  | .delete key => key

/-- What the server has at each version of its one counter, now and later. -/
structure Server where
  change : ℕ → Option ServerChange
  stateVersion_eq : ∀ version value,
    change version = some (.upsert value) → value.stateVersion = version

namespace Server

variable (server : Server)

/-- A state that the server has, or has had. -/
def States (value : Resource) : Prop := server.change value.stateVersion = some (.upsert value)

/-- A resource has been replaced or deleted after a version, at another one or before. -/
def Replaced (key : ResourceKey) (version atVersion : ℕ) : Prop :=
  ∃ later change, version < later ∧ later ≤ atVersion ∧ server.change later = some change ∧
    change.key = key

/-- The state of its resource at a version. -/
def Current (value : Resource) (atVersion : ℕ) : Prop :=
  server.States value ∧ value.stateVersion ≤ atVersion ∧
    ¬ server.Replaced value.key value.stateVersion atVersion

def Sends : FeedEvent → Prop
  | .upsert event => server.States event.resource ∧ event.version = event.resource.stateVersion
  | .delete key version => server.change version = some (.delete key)

/-- What the server may answer or send: a read's answer is of the time of the answer, the pages of
a hydration are of their version or later, everything else is of any time by now. -/
def Possible (s : SyncEngine) : SyncEvent → Prop
  | .answer _ (some value) => server.Current value s.serverVersion
  | .write event => server.Sends (.upsert event) ∧ event.version ≤ s.serverVersion
  | .page _ version entities tasks objects => version ≤ s.serverVersion ∧
    ∀ value ∈ entities ++ tasks ++ objects, ∃ atVersion, version ≤ atVersion ∧
      atVersion ≤ s.serverVersion ∧ server.Current value atVersion
  | .recovered _ event => server.Sends event ∧ event.version ≤ s.serverVersion
  | .feed event => server.Sends event ∧ event.version ≤ s.serverVersion
  | _ => True

end Server

/-- From one state to another by possible events that meet a condition. -/
inductive SyncRun (server : Server) (meets : SyncEngine → SyncEvent → Prop) (s : SyncEngine) :
    SyncEngine → Prop
  | refl : SyncRun server meets s s
  | step {s' : SyncEngine} (event : SyncEvent) : SyncRun server meets s s' →
    server.Possible s' event → meets s' event → SyncRun server meets s (s'.step event)

end Atlas.Sdk
