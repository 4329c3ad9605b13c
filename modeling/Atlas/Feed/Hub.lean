import Atlas.Core.Database
import Atlas.Lib.OrderedMap

/-!
# The feed's hub

The hub hands the events of the durable log out to its clients, each of which has a buffer of its
own. The hub's lock is held while an event is published and while clients are closed; a client's
lock only while one event is put into its buffer, and while its subscriptions change. So what the
hub does to one client is one step, and other clients may do anything in between.
-/

namespace Atlas.Feed

open Atlas.Core (FeedEvent ResourceType)

inductive FeedFilter
  | all
  | id
  | type
  | tasksForAsset
  | unknown (filter : String)
  deriving DecidableEq, Repr

def FeedFilter.text : FeedFilter → String
  | .all => "all"
  | .id => "id"
  | .type => "type"
  | .tasksForAsset => "tasks_for_asset"
  | .unknown filter => filter

def resourceTypeText : ResourceType → String
  | .entity => "entity"
  | .task => "task"
  | .object => "object"

structure RoutedEvent where
  event : FeedEvent
  taskAssetID : String
  deriving DecidableEq, Repr

/-- `none` for a resource type is the empty one. -/
structure Subscription where
  filter : FeedFilter
  resourceType : Option ResourceType
  id : String
  assetID : String
  deriving DecidableEq, Repr

def Subscription.key (sub : Subscription) : String :=
  "\x00".intercalate [sub.filter.text, (sub.resourceType.map resourceTypeText).getD "", sub.id,
    sub.assetID]

def subscriptionMatches (sub : Subscription) (event : RoutedEvent) : Bool :=
  match sub.filter with
  | .all => true
  | .id => sub.resourceType = some event.event.resourceType && event.event.id = sub.id
  | .type => sub.resourceType = some event.event.resourceType
  | .tasksForAsset => event.event.resourceType = .task && event.taskAssetID = sub.assetID
  | .unknown _ => false

/-- An event on its way to a client: the subscriptions the client held then, and whether the event
was put into the buffer. -/
structure Offer where
  event : RoutedEvent
  held : List Subscription
  sent : Bool

def Offer.wanted (offer : Offer) : Bool := offer.held.any (subscriptionMatches · offer.event)

/-- A client. Beside its fields it has, as ghosts, what was read of its buffer, the events offered
to it, and how many events were published before it came. -/
structure Client where
  subs : OrderedMap String Subscription
  send : List RoutedEvent
  closed : Bool
  read : List RoutedEvent
  offered : List Offer
  since : ℕ

namespace Client

def subscribe (sub : Subscription) (c : Client) : Client :=
  if c.closed then c else { c with subs := c.subs.set sub.key sub }

def unsubscribe (sub : Subscription) (c : Client) : Client :=
  { c with subs := c.subs.delete sub.key }

/-- An event is received from the channel, also once it is closed. -/
def receive (c : Client) : Client :=
  match c.send with
  | event :: send => { c with send := send, read := c.read ++ [event] }
  | [] => c

def matchesLocked (event : RoutedEvent) (c : Client) : Bool :=
  c.subs.values.any (subscriptionMatches · event)

/-- The event is sent if it is wanted and the buffer has room for it. -/
def deliver (clientBuffer : ℕ) (event : RoutedEvent) (c : Client) : Client × Bool :=
  if c.closed then (c, false)
  else
    let offer := fun sent => c.offered ++ [⟨event, c.subs.values, sent⟩]
    if !c.matchesLocked event then ({ c with offered := offer false }, true)
    else if c.send.length < clientBuffer then
      ({ c with send := c.send ++ [event], offered := offer true }, true)
    else ({ c with offered := offer false }, false)

def close (c : Client) : Client := { c with closed := true }

end Client

/-- What the hub's lock is held for: to publish an event, with the clients left and those too slow
for it, or to close clients. -/
inductive HubWork
  | idle
  | publishing (event : RoutedEvent) (left slow : List ℕ)
  | closing (left : List ℕ)

/-- The hub with all clients there have been, and the events published while it was open. -/
structure Hub where
  clients : List ℕ
  clientBuffer : ℕ
  closed : Bool
  pool : List Client
  work : HubWork
  published : List RoutedEvent

inductive HubStep
  | newClient
  | removeClient (client : ℕ)
  | close
  | publish (event : RoutedEvent)
  | deliver (client : ℕ)
  | delivered
  | closeClient (client : ℕ)
  | unlock
  | subscribe (client : ℕ) (sub : Subscription)
  | unsubscribe (client : ℕ) (sub : Subscription)
  | receive (client : ℕ)

def defaultClientBuffer : ℕ := 256

namespace Hub

def new (clientBuffer : ℕ) : Hub :=
  ⟨[], if clientBuffer = 0 then defaultClientBuffer else clientBuffer, false, [], .idle, []⟩

def newClient (h : Hub) : Hub :=
  { h with
    pool := h.pool ++ [⟨.empty, [], h.closed, [], [], h.published.length⟩]
    clients := if h.closed then h.clients else h.clients ++ [h.pool.length] }

def closeClientLocked (client : ℕ) (h : Hub) : Hub :=
  { h with
    clients := h.clients.erase client
    pool := h.pool.modify client Client.close }

/-- The hub's clients are closed one after the other. -/
def close (h : Hub) : Hub :=
  if h.closed then h else { h with closed := true, work := .closing h.clients }

def publish (event : RoutedEvent) (h : Hub) : Hub :=
  if h.closed then h
  else { h with published := h.published ++ [event], work := .publishing event h.clients [] }

def deliver (client : ℕ) (event : RoutedEvent) (left slow : List ℕ) (h : Hub) : Hub :=
  match h.pool[client]? with
  | some c =>
    { h with
      pool := h.pool.set client (c.deliver h.clientBuffer event).1
      work := .publishing event (left.erase client)
        (if (c.deliver h.clientBuffer event).2 then slow else slow ++ [client]) }
  | none => h

/-- The hub's own methods wait for its lock, those of a client do not. -/
def step (h : Hub) : HubStep → Hub
  | .newClient =>
    match h.work with
    | .idle => h.newClient
    | _ => h
  | .removeClient client =>
    match h.work with
    | .idle => h.closeClientLocked client
    | _ => h
  | .close =>
    match h.work with
    | .idle => h.close
    | _ => h
  | .publish event =>
    match h.work with
    | .idle => h.publish event
    | _ => h
  | .deliver client =>
    match h.work with
    | .publishing event left slow => if client ∈ left then h.deliver client event left slow else h
    | _ => h
  | .delivered =>
    match h.work with
    | .publishing _ [] slow => { h with work := .closing slow }
    | _ => h
  | .closeClient client =>
    match h.work with
    | .closing left =>
      if client ∈ left then { h.closeClientLocked client with work := .closing (left.erase client) }
      else h
    | _ => h
  | .unlock =>
    match h.work with
    | .closing [] => { h with work := .idle }
    | _ => h
  | .subscribe client sub => { h with pool := h.pool.modify client (Client.subscribe sub) }
  | .unsubscribe client sub => { h with pool := h.pool.modify client (Client.unsubscribe sub) }
  | .receive client => { h with pool := h.pool.modify client Client.receive }

end Hub

/-- Any steps in any order, with the events published in the order of their versions. -/
inductive HubRun (clientBuffer : ℕ) : Hub → Prop
  | new : HubRun clientBuffer (.new clientBuffer)
  | step {h : Hub} (step : HubStep) : HubRun clientBuffer h →
    (∀ event, step = .publish event → ∀ earlier ∈ h.published,
      earlier.event.version < event.event.version) →
    HubRun clientBuffer (h.step step)

end Atlas.Feed
