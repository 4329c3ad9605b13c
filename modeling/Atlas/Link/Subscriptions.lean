import Atlas.Lib.OrderedMap
import Atlas.Link.Transport

/-!
# Subscription demand at the Gateway

Assets subscribe to feeds by leases they renew. The Gateway keeps the leases of each Asset, and the
selectors it regards as active; what a message or an expiry sweep changes of these it tells by
transitions. A fence for each Asset and selector keeps late and repeated messages out.
-/

namespace Atlas.Link

def subscriptionLeaseMs : ℕ := 90000
def feedTransitionFenceLimit : ℕ := 4096

/-- The key of a selector. Selectors are given by their canonical JSON, which is the key. -/
def selectorKey (selector : String) : String := selector

structure SubscriptionTransition where
  action : SubscriptionAction
  selector : String
  deriving DecidableEq, Repr

structure Lease where
  selector : String
  expiresAt : ℕ
  deriving DecidableEq, Repr

structure GatewaySubscriptionDemand where
  bySource : OrderedMap String (OrderedMap String Lease)
  activeSelectors : OrderedMap String String

namespace GatewaySubscriptionDemand

def new : GatewaySubscriptionDemand := ⟨.empty, .empty⟩

def isDemanded (key : String) (now : ℕ) (d : GatewaySubscriptionDemand) : Bool :=
  d.bySource.values.any fun source => now < ((source.get key).map (·.expiresAt)).getD 0

/-- Put a source's leases back; a source without any is dropped. -/
def setSource (sourceID : String) (source : OrderedMap String Lease)
    (d : GatewaySubscriptionDemand) : GatewaySubscriptionDemand :=
  { d with
    bySource :=
      if source.size = 0 then d.bySource.delete sourceID else d.bySource.set sourceID source }

def apply (sourceNodeID : String) (transition : SubscriptionTransition) (now : ℕ)
    (d : GatewaySubscriptionDemand) : GatewaySubscriptionDemand × Bool :=
  let key := selectorKey transition.selector
  let existed := d.activeSelectors.has key
  let source := (d.bySource.get sourceNodeID).getD .empty
  let source :=
    match transition.action with
    | .remove => source.delete key
    | _ => source.set key ⟨transition.selector, now + subscriptionLeaseMs⟩
  let d := d.setSource sourceNodeID source
  let demanded := d.isDemanded key now
  ({ d with
      activeSelectors :=
        if demanded then d.activeSelectors.set key transition.selector
        else d.activeSelectors.delete key },
    existed != demanded)

def aggregate (now : ℕ) (d : GatewaySubscriptionDemand) : OrderedMap String String :=
  d.bySource.values.foldl
    (fun result source =>
      source.entries.foldl
        (fun result e => if now < e.2.expiresAt then result.set e.1 e.2.selector else result)
        result)
    .empty

def expireSource (now : ℕ) (d : GatewaySubscriptionDemand) (sourceID : String) :
    GatewaySubscriptionDemand :=
  match d.bySource.get sourceID with
  | none => d
  | some source => d.setSource sourceID (source.filter fun e => now < e.2.expiresAt)

def expire (now : ℕ) (d : GatewaySubscriptionDemand) : GatewaySubscriptionDemand × List String :=
  let d := d.bySource.keys.foldl (expireSource now) d
  let after := d.aggregate now
  let expired := d.activeSelectors.entries.filter fun e => !after.has e.1
  ({ d with activeSelectors := expired.foldl (fun active e => active.delete e.1) d.activeSelectors },
    expired.map Prod.snd)

/-- The lease a source holds on a selector. -/
def lease (sourceNodeID selector : String) (d : GatewaySubscriptionDemand) : Option Lease :=
  (d.bySource.get sourceNodeID).bind fun source => source.get (selectorKey selector)

def has (sourceNodeID selector : String) (now : ℕ) (d : GatewaySubscriptionDemand) : Bool :=
  now < ((d.lease sourceNodeID selector).map (·.expiresAt)).getD 0

end GatewaySubscriptionDemand

structure GatewayFeedTransition where
  active : Bool
  selector : String
  deriving DecidableEq, Repr

inductive GatewayFeedDemandResult
  | transition (transition : GatewayFeedTransition)
  | rejected (reason : String)
  deriving DecidableEq, Repr

structure LatestTransition where
  sourceNodeID : String
  selector : String
  generation : ℕ
  session : String
  sequence : ℕ
  deriving DecidableEq, Repr

structure GatewayFeedDemand where
  demand : GatewaySubscriptionDemand
  latestTransitions : OrderedMap String LatestTransition

namespace GatewayFeedDemand

def new : GatewayFeedDemand := ⟨.new, .empty⟩

def transitionKey (sourceNodeID selector : String) : String :=
  sourceNodeID ++ ":" ++ selectorKey selector

/-- A message that the one accepted last from its Asset for its selector has overtaken. -/
def overtaken (event : MessageEvent) (previous : LatestTransition) : Bool :=
  event.sourceGeneration < previous.generation ||
    event.sourceGeneration = previous.generation &&
      (event.serviceSession ≠ previous.session || event.sourceSequence ≤ previous.sequence)

def latestOf (event : MessageEvent) (selector : String) : LatestTransition where
  sourceNodeID := event.source.id
  selector := selector
  generation := event.sourceGeneration
  session := event.serviceSession
  sequence := event.sourceSequence

/-- The part of `apply` for a subscription message of an Asset to this Gateway. -/
def applySubscription (event : MessageEvent) (action : SubscriptionAction) (selector : String)
    (now : ℕ) (d : GatewayFeedDemand) : GatewayFeedDemand × Option GatewayFeedDemandResult :=
  let key := transitionKey event.source.id selector
  let previous := d.latestTransitions.get key
  if previous.any (overtaken event) then (d, none)
  else if previous = none ∧ feedTransitionFenceLimit ≤ d.latestTransitions.size then
    (d, some (.rejected "subscription transition capacity is exhausted"))
  else
    let applied := d.demand.apply event.source.id ⟨action, selector⟩ now
    (⟨applied.1, d.latestTransitions.set key (latestOf event selector)⟩,
      if applied.2 then some (.transition ⟨action ≠ .remove, selector⟩) else none)

def apply (event : MessageEvent) (now : ℕ) (d : GatewayFeedDemand) :
    GatewayFeedDemand × Option GatewayFeedDemandResult :=
  if event.addressedToLocal = false ∨ event.source.role ≠ .asset then (d, none)
  else
    match event.message with
    | .subscription action selector => d.applySubscription event action selector now
    | _ => (d, none)

def expire (now : ℕ) (d : GatewayFeedDemand) : GatewayFeedDemand × List GatewayFeedTransition :=
  let expired := d.demand.expire now
  ({ d with demand := expired.1 }, expired.2.map fun selector => ⟨false, selector⟩)

def active (now : ℕ) (d : GatewayFeedDemand) : List String := (d.demand.aggregate now).values

def subscriberCount (now : ℕ) (d : GatewayFeedDemand) : ℕ :=
  ((d.latestTransitions.values.filter fun t => d.demand.has t.sourceNodeID t.selector now).map
    (·.sourceNodeID)).dedup.length

end GatewayFeedDemand

/-- What is asked of the demand. The IDs of Link nodes hold no colon. -/
inductive DemandOp
  | apply (event : MessageEvent) (now : ℕ) (valid : ':' ∉ event.source.id.toList)
  | expire (now : ℕ)

def DemandOp.now : DemandOp → ℕ
  | .apply _ now _ => now
  | .expire now => now

/-- The state after an operation, and the transitions it answers. -/
def DemandOp.run (d : GatewayFeedDemand) :
    DemandOp → GatewayFeedDemand × List GatewayFeedTransition
  | .apply event now _ =>
    let applied := d.apply event now
    (applied.1,
      match applied.2 with
      | some (.transition transition) => [transition]
      | _ => [])
  | .expire now => d.expire now

end Atlas.Link
