import Atlas.Link.Subscriptions

/-!
# The Link service

One process serves the clients of a node. It keeps what feeds they demand and tells the Gateway when
one is demanded first and when no longer, and it has radio profiles applied, for which the gate in
front of the radio holds back what would be sent. Calls that wait go on one continuation at a time,
in any order; how what they wait for ends, and which submissions fail, comes with the step.
-/

namespace Atlas.Link

/-- What the clients of this node demand: the selectors of each by their keys. -/
structure LocalSubscriptionDemand where
  byClient : OrderedMap String (OrderedMap String String)

namespace LocalSubscriptionDemand

def new : LocalSubscriptionDemand := ⟨.empty⟩

def hasKey (key : String) (d : LocalSubscriptionDemand) : Bool :=
  d.byClient.values.any fun subscriptions => subscriptions.has key

def hasClient (clientID : String) (d : LocalSubscriptionDemand) : Bool := d.byClient.has clientID

def add (clientID selector : String) (d : LocalSubscriptionDemand) :
    LocalSubscriptionDemand × Option SubscriptionTransition :=
  let key := selectorKey selector
  let existed := d.hasKey key
  let client := (d.byClient.get clientID).getD .empty
  (⟨d.byClient.set clientID (client.set key selector)⟩,
    if existed then none else some ⟨.add, selector⟩)

def remove (clientID selector : String) (d : LocalSubscriptionDemand) :
    LocalSubscriptionDemand × Option SubscriptionTransition :=
  let key := selectorKey selector
  match d.byClient.get clientID with
  | none => (d, none)
  | some client =>
    if client.has key = false then (d, none)
    else
      let client := client.delete key
      let d : LocalSubscriptionDemand :=
        ⟨if client.size = 0 then d.byClient.delete clientID else d.byClient.set clientID client⟩
      (d, if d.hasKey key then none else some ⟨.remove, selector⟩)

def disconnect (clientID : String) (d : LocalSubscriptionDemand) :
    LocalSubscriptionDemand × List SubscriptionTransition :=
  match d.byClient.get clientID with
  | none => (d, [])
  | some client =>
    let d : LocalSubscriptionDemand := ⟨d.byClient.delete clientID⟩
    (d, (client.entries.filter fun e => !d.hasKey e.1).map fun e => ⟨.remove, e.2⟩)

def aggregate (d : LocalSubscriptionDemand) : OrderedMap String String :=
  d.byClient.values.foldl
    (fun result subscriptions =>
      subscriptions.entries.foldl (fun result e => result.set e.1 e.2) result)
    .empty

def renewals (d : LocalSubscriptionDemand) : List SubscriptionTransition :=
  d.aggregate.values.map (⟨.renew, ·⟩)

def clear (d : LocalSubscriptionDemand) : LocalSubscriptionDemand × List SubscriptionTransition :=
  (new, d.aggregate.values.map (⟨.remove, ·⟩))

end LocalSubscriptionDemand

inductive GateError
  | aborted (reason : String)
  | suspended
  deriving DecidableEq, Repr

def GateError.text : GateError → String
  | .aborted reason => reason
  | .suspended => "radio transmission is suspended"

/-- The gate in front of a radio. A promise is its number; `onAir` counts the calls of the radio's
`send` that are pending, `settled` those that are over but whose caller has not gone on yet. -/
structure LinkRadioGate where
  paused : Bool
  abortedReason : Option String
  activeSends : ℕ
  drainPromise : Option ℕ
  resolveDrain : Option ℕ
  promises : ℕ
  resolved : List ℕ
  onAir : ℕ
  settled : ℕ

/-- What `suspend` does at once: it rejects, it has nothing to wait for, or it waits. -/
inductive Suspension
  | rejected (error : GateError)
  | passed
  | draining (promise : ℕ)

namespace LinkRadioGate

def new : LinkRadioGate := ⟨false, none, 0, none, none, 0, [], 0, 0⟩

/-- Call the function that resolves a promise, where there is one. -/
def resolve (promise : Option ℕ) (g : LinkRadioGate) : LinkRadioGate :=
  { g with resolved := promise.toList ++ g.resolved }

def send (g : LinkRadioGate) : LinkRadioGate × Option GateError :=
  match g.abortedReason with
  | some reason => (g, some (.aborted reason))
  | none =>
    if g.paused then (g, some .suspended)
    else ({ g with activeSends := g.activeSends + 1, onAir := g.onAir + 1 }, none)

/-- A call of the radio's `send` is over, either way. -/
def settle (g : LinkRadioGate) : LinkRadioGate :=
  { g with onAir := g.onAir - 1, settled := g.settled + 1 }

/-- The `finally` of `send`. -/
def finishSend (g : LinkRadioGate) : LinkRadioGate :=
  let g := { g with activeSends := g.activeSends - 1, settled := g.settled - 1 }
  if g.activeSends = 0 then g.resolve g.resolveDrain else g

def suspend (g : LinkRadioGate) : LinkRadioGate × Suspension :=
  match g.abortedReason with
  | some reason => (g, .rejected (.aborted reason))
  | none =>
    let g := { g with paused := true }
    if g.activeSends = 0 then (g, .passed)
    else
      match g.drainPromise with
      | some promise => (g, .draining promise)
      | none =>
        ({ g with
            drainPromise := some g.promises
            resolveDrain := some g.promises
            promises := g.promises + 1 },
          .draining g.promises)

/-- What `suspend` does when its wait is over. -/
def drained (g : LinkRadioGate) : LinkRadioGate :=
  { g with drainPromise := none, resolveDrain := none }

def resume (g : LinkRadioGate) : LinkRadioGate :=
  match g.abortedReason with
  | some _ => g
  | none => { g with paused := false }

def abort (reason : String) (g : LinkRadioGate) : LinkRadioGate :=
  match g.abortedReason with
  | some _ => g
  | none =>
    let g := { g with abortedReason := some reason, paused := true }
    if g.activeSends = 0 then g.resolve g.resolveDrain else g

end LinkRadioGate

inductive LinkLifecycle
  | configuring
  | discovering
  | active
  | stopped
  | error
  deriving DecidableEq, Repr

/-- The options of a service; of its parts, whether it has them. -/
structure LinkServiceOptions where
  mode : LinkRole
  nodeID : String
  profileManager : Bool
  radioGate : Bool
  onGatewaySubscriptionTransition : Bool
  gatewayNode : Option LinkNode

/-- What a call of `applyRadioProfileOnce` remembers while it waits. -/
structure ProfileRun where
  generation : ℕ
  previousLifecycle : LinkLifecycle
  hadTransport : Bool
  deriving DecidableEq, Repr

/-- What a call of `applyRadioProfile` waits for: the call before it, the transport's pause, the
sends on air, the end of `suspend`, the profile manager, its own turn to go on after each. -/
inductive ApplicationStage
  | queued
  | pausing (run : ProfileRun)
  | draining (run : ProfileRun) (promise : ℕ)
  | suspended (run : ProfileRun) (error : Option GateError)
  | applying (run : ProfileRun)
  | applied (run : ProfileRun) (error : Option String)
  | finished
  | released
  deriving DecidableEq, Repr

/-- A call of `applyRadioProfile`, with the promise it waits for and the one it releases. -/
structure Application where
  selectedProfile : String
  previous : ℕ
  release : ℕ
  stage : ApplicationStage
  deriving DecidableEq, Repr

/-- What happens at the radio. -/
inductive RadioEvent
  | sendStarted
  | sendSettled
  | applyStarted (application : ℕ)
  | applyResolved (application : ℕ)
  | applyRejected (application : ℕ)
  | profileApplied (application : ℕ)
  | linkError
  | stopped
  deriving DecidableEq, Repr

/-- The state of a service and of its gate. `history` and `submissions` tell, the latest first, what
happened at the radio and which transitions were submitted with success. -/
structure LinkService where
  subscriptions : LocalSubscriptionDemand
  pendingSubscriptionRemovals : OrderedMap String String
  clientLeaseTimers : OrderedMap String Unit
  transport : Bool
  gatewayNode : Option LinkNode
  lifecycle : LinkLifecycle
  statusDetail : Option String
  renewalTimer : Bool
  profileApplyTail : ℕ
  profileApplyActive : Bool
  profileApplyGeneration : ℕ
  transportSubscriptionsDispatched : Bool
  profile : String
  applications : List Application
  releasedPromises : List ℕ
  gate : LinkRadioGate
  history : List RadioEvent
  submissions : List SubscriptionTransition

structure SubscriptionUpdate where
  changed : Bool
  active : ℕ
  reason : Option String
  deriving DecidableEq, Repr

namespace LinkService

/-- A new service. The chain of applications begins with a promise that is resolved. -/
def new (options : LinkServiceOptions) (profile : String) : LinkService where
  subscriptions := .new
  pendingSubscriptionRemovals := .empty
  clientLeaseTimers := .empty
  transport := false
  gatewayNode := options.gatewayNode
  lifecycle := .configuring
  statusDetail := none
  renewalTimer := false
  profileApplyTail := 0
  profileApplyActive := false
  profileApplyGeneration := 0
  transportSubscriptionsDispatched := false
  profile := profile
  applications := []
  releasedPromises := [0]
  gate := .new
  history := []
  submissions := []

def setLifecycle (lifecycle : LinkLifecycle) (detail : Option String) (s : LinkService) :
    LinkService :=
  if s.lifecycle = .stopped then s
  else if s.lifecycle = .error ∧ lifecycle ≠ .error ∧ lifecycle ≠ .stopped ∧
      s.profileApplyActive = false then s
  else
    { s with
      lifecycle := lifecycle
      statusDetail := detail
      renewalTimer :=
        if lifecycle = .configuring ∨ lifecycle = .error ∨ lifecycle = .stopped then false
        else s.renewalTimer }

def setJoiningLifecycle (lifecycle : LinkLifecycle) (detail : Option String) (s : LinkService) :
    LinkService :=
  if s.lifecycle = .stopped ∨ s.lifecycle = .error ∨ s.profileApplyActive = true then s
  else s.setLifecycle lifecycle detail

section Subscribing

-- `failure` is the reason of each submission that fails.
variable (options : LinkServiceOptions) (failure : SubscriptionTransition → Option String)

def submit (transition : SubscriptionTransition) (s : LinkService) : LinkService × Option String :=
  match failure transition with
  | some reason => (s, some reason)
  | none => ({ s with submissions := transition :: s.submissions }, none)

/-- Tell the Gateway, or on the Gateway the feed bridge; the result is why that failed. -/
def dispatchSubscription (transition : SubscriptionTransition) (s : LinkService) :
    LinkService × Option String :=
  if options.mode = .gateway then
    if options.onGatewaySubscriptionTransition then s.submit failure transition else (s, none)
  else if s.lifecycle = .configuring ∨ s.lifecycle = .error ∨ s.profileApplyActive = true then
    (s, some "Link service is not transmitting")
  else if s.transport = false ∨ s.gatewayNode = none then (s, some "Gateway is unavailable")
  else s.submit failure transition

def cancelClientLease (clientID : String) (s : LinkService) : LinkService :=
  { s with clientLeaseTimers := s.clientLeaseTimers.delete clientID }

def renewClientLease (clientID : String) (s : LinkService) : LinkService :=
  let s := s.cancelClientLease clientID
  { s with clientLeaseTimers := s.clientLeaseTimers.set clientID () }

def canDispatch (s : LinkService) : Bool :=
  if options.mode = .gateway then options.onGatewaySubscriptionTransition
  else s.transport && s.gatewayNode.isSome

/-- A timer that is armed stays as it is. -/
def scheduleRenewalIfNeeded (s : LinkService) : LinkService :=
  if s.lifecycle = .stopped ∨
      options.mode = .asset ∧ (s.lifecycle = .configuring ∨ s.lifecycle = .error) then
    { s with renewalTimer := false }
  else if s.canDispatch options = false ∨
      s.subscriptions.aggregate.size = 0 ∧ s.pendingSubscriptionRemovals.size = 0 then
    { s with renewalTimer := false }
  else { s with renewalTimer := true }

/-- The end of an update that did not fail. -/
def finishUpdate (clientID : String) (action : SubscriptionAction) (selector : String)
    (s : LinkService) : LinkService :=
  let s :=
    { s with
      pendingSubscriptionRemovals := s.pendingSubscriptionRemovals.delete (selectorKey selector) }
  let s :=
    if action = .remove then
      if s.subscriptions.hasClient clientID then s else s.cancelClientLease clientID
    else s.renewClientLease clientID
  s.scheduleRenewalIfNeeded options

/-- The part of an update after the demand has changed: a change that cannot be told is undone. -/
def tellUpdate (clientID : String) (action : SubscriptionAction) (selector : String)
    (transition : Option SubscriptionTransition) (s : LinkService) :
    LinkService × SubscriptionUpdate :=
  match transition with
  | none =>
    let s := s.finishUpdate options clientID action selector
    (s, ⟨false, s.subscriptions.aggregate.size, none⟩)
  | some transition =>
    match s.dispatchSubscription options failure transition with
    | (s, some reason) =>
      let undone :=
        if transition.action = .add then s.subscriptions.remove clientID selector
        else s.subscriptions.add clientID selector
      let s := { s with subscriptions := undone.1 }
      (s, ⟨false, s.subscriptions.aggregate.size, some reason⟩)
    | (s, none) =>
      let s := s.finishUpdate options clientID action selector
      (s, ⟨true, s.subscriptions.aggregate.size, none⟩)

/-- Nothing is returned where the source throws. -/
def updateLocalSubscription (clientID : String) (action : SubscriptionAction) (selector : String)
    (s : LinkService) : LinkService × Option SubscriptionUpdate :=
  if clientID = "" then (s, none)
  else if options.mode = .asset ∧ (s.transport = false ∨ s.gatewayNode = none) then
    (s, some ⟨false, s.subscriptions.aggregate.size, some "Gateway is unavailable"⟩)
  else if options.mode = .gateway ∧ options.onGatewaySubscriptionTransition = false then
    (s, some ⟨false, s.subscriptions.aggregate.size, some "Gateway feed bridge is unavailable"⟩)
  else
    let change :=
      if action = .remove then s.subscriptions.remove clientID selector
      else s.subscriptions.add clientID selector
    let told := { s with subscriptions := change.1 }.tellUpdate options failure clientID action
      selector change.2
    (told.1, some told.2)

/-- A removal that fails is kept, to be tried again. -/
def dispatchRemoval (s : LinkService) (transition : SubscriptionTransition) : LinkService :=
  match s.dispatchSubscription options failure transition with
  | (s, none) => s
  | (s, some _) =>
    { s with
      pendingSubscriptionRemovals :=
        s.pendingSubscriptionRemovals.set (selectorKey transition.selector) transition.selector }

def disconnectClient (clientID : String) (s : LinkService) : LinkService :=
  let s := s.cancelClientLease clientID
  let change := s.subscriptions.disconnect clientID
  let s := { s with subscriptions := change.1 }
  (change.2.foldl (dispatchRemoval options failure) s).scheduleRenewalIfNeeded options

/-- The callback of a client's lease timer. -/
def expireClientLease (clientID : String) (s : LinkService) : LinkService :=
  if s.clientLeaseTimers.has clientID then
    let s := { s with clientLeaseTimers := s.clientLeaseTimers.delete clientID }
    s.disconnectClient options failure clientID
  else s

def retryRemoval (s : LinkService) (e : String × String) : LinkService :=
  match s.dispatchSubscription options failure ⟨.remove, e.2⟩ with
  | (s, none) =>
    { s with pendingSubscriptionRemovals := s.pendingSubscriptionRemovals.delete e.1 }
  | (s, some _) => s

def dispatchAll (transitions : List SubscriptionTransition) (s : LinkService) : LinkService :=
  transitions.foldl (fun s transition => (s.dispatchSubscription options failure transition).1) s

/-- The callback of the renewal timer. -/
def fireRenewal (s : LinkService) : LinkService :=
  if s.renewalTimer then
    let s := { s with renewalTimer := false }
    let s := s.pendingSubscriptionRemovals.entries.foldl (retryRemoval options failure) s
    let s := s.dispatchAll options failure s.subscriptions.renewals
    s.scheduleRenewalIfNeeded options
  else s

def activateTransport (s : LinkService) : LinkService :=
  if s.transport = false ∨ s.lifecycle = .stopped ∨ s.lifecycle = .error ∨
      s.profileApplyActive = true then s
  else
    let s := s.setLifecycle .active none
    let s := s.dispatchAll options failure (s.subscriptions.aggregate.values.map (⟨.add, ·⟩))
    let s := { s with transportSubscriptionsDispatched := true }
    s.scheduleRenewalIfNeeded options

/-- A second transport and one of another node make the source throw. -/
def attachTransport (node : LinkNode) (gatewayNode : Option LinkNode) (s : LinkService) :
    LinkService :=
  if s.transport = true ∨ node ≠ ⟨options.mode, options.nodeID⟩ then s
  else
    let s := { s with transport := true, gatewayNode := gatewayNode.or s.gatewayNode }
    if s.profileApplyActive = false ∧ s.lifecycle ≠ .error ∧ s.lifecycle ≠ .stopped then
      s.activateTransport options failure
    else s

end Subscribing

section Radio

variable (options : LinkServiceOptions) (failure : SubscriptionTransition → Option String)

def abortGate (reason : String) (s : LinkService) : LinkService :=
  if options.radioGate then { s with gate := s.gate.abort reason } else s

def note (event : RadioEvent) (s : LinkService) : LinkService :=
  { s with history := event :: s.history }

/-- The transport tells of a link error while the service listens to it. -/
def handleLinkError (reason : String) (s : LinkService) : LinkService :=
  if s.transport = false ∨ s.lifecycle = .stopped then s
  else
    let s :=
      { s with
        profileApplyGeneration := s.profileApplyGeneration + 1
        profileApplyActive := false }
    ((s.abortGate options reason).setLifecycle .error (some reason)).note .linkError

def stop (s : LinkService) : LinkService :=
  if s.lifecycle = .stopped then s
  else
    let s :=
      { s with
        profileApplyGeneration := s.profileApplyGeneration + 1
        profileApplyActive := false
        renewalTimer := false
        clientLeaseTimers := .empty }
    let cleared := s.subscriptions.clear
    let s := { s with subscriptions := cleared.1 }
    let s := if options.mode = .gateway then s.dispatchAll options failure cleared.2 else s
    ((s.abortGate options "Link service stopped").setLifecycle .stopped none).note .stopped

def applyRadioProfile (s : LinkService) : LinkService :=
  if options.profileManager then
    { s with
      applications := s.applications ++
        [⟨s.profile, s.profileApplyTail, s.applications.length + 1, .queued⟩]
      profileApplyTail := s.applications.length + 1 }
  else s

def setStage (i : ℕ) (stage : ApplicationStage) (s : LinkService) : LinkService :=
  { s with applications := s.applications.modify i fun a => { a with stage := stage } }

/-- The start of `applyRadioProfileOnce`, up to where it waits for the transport's pause. -/
def beginApply (i : ℕ) (s : LinkService) : LinkService :=
  if s.lifecycle = .stopped then s.setStage i .finished
  else if options.radioGate = false then
    (s.setLifecycle .error (some "radio transmission gate is unavailable")).setStage i .finished
  else
    let run : ProfileRun := ⟨s.profileApplyGeneration + 1, s.lifecycle, s.transport⟩
    let s :=
      { s with
        profileApplyGeneration := s.profileApplyGeneration + 1
        profileApplyActive := true }
    (s.setLifecycle .configuring (some "applying and verifying the radio profile")).setStage i
      (.pausing run)

/-- The `catch` of `applyRadioProfileOnce`. -/
def failApply (i : ℕ) (run : ProfileRun) (error : String) (s : LinkService) : LinkService :=
  let s := { s with profileApplyActive := false }
  let s :=
    if run.generation = s.profileApplyGeneration then s.setLifecycle .error (some error) else s
  s.setStage i .finished

def suspendGate (i : ℕ) (run : ProfileRun) (s : LinkService) : LinkService :=
  match s.gate.suspend with
  | (gate, .rejected error) => { s with gate := gate }.setStage i (.suspended run (some error))
  | (gate, .passed) => { s with gate := gate }.setStage i (.suspended run none)
  | (gate, .draining promise) => { s with gate := gate }.setStage i (.draining run promise)

def interrupted : String := "Link service stopped during radio profile apply"

def resumedLifecycle (run : ProfileRun) : LinkLifecycle :=
  if run.hadTransport then .active
  else if run.previousLifecycle = .discovering then .discovering
  else if run.previousLifecycle = .error then .discovering
  else run.previousLifecycle

def succeedApply (i : ℕ) (run : ProfileRun) (s : LinkService) : LinkService :=
  let s := { s with profileApplyActive := false, gate := s.gate.resume }
  let s := s.setLifecycle (resumedLifecycle run) none
  let s :=
    if s.transport = true ∧ s.transportSubscriptionsDispatched = false then
      s.activateTransport options failure
    else s
  ((s.scheduleRenewalIfNeeded options).setStage i .finished).note (.profileApplied i)

/-- An application goes on, where what it waits for is over. The pause and the profile manager are
over when the step says so, and have failed with the step's error. -/
def proceed (i : ℕ) (error : Option String) (s : LinkService) : LinkService :=
  match s.applications[i]? with
  | none => s
  | some application =>
    match application.stage with
    | .queued =>
      if application.previous ∈ s.releasedPromises then s.beginApply options i else s
    | .pausing run =>
      match error with
      | some error => s.failApply i run error
      | none => s.suspendGate i run
    | .draining run promise =>
      if promise ∈ s.gate.resolved then
        { s with gate := s.gate.drained }.setStage i (.suspended run none)
      else s
    | .suspended run (some error) => s.failApply i run error.text
    | .suspended run none =>
      if run.generation ≠ s.profileApplyGeneration then s.failApply i run interrupted
      else (s.setStage i (.applying run)).note (.applyStarted i)
    | .applying run =>
      (s.setStage i (.applied run error)).note
        (if error.isSome then .applyRejected i else .applyResolved i)
    | .applied run (some error) => s.failApply i run error
    | .applied run none =>
      if run.generation ≠ s.profileApplyGeneration then s.failApply i run interrupted
      else s.succeedApply options failure i run
    | .finished =>
      { s with releasedPromises := application.release :: s.releasedPromises }.setStage i .released
    | .released => s

/-- A call of the gate's `send`, up to where it waits for the radio. -/
def send (s : LinkService) : LinkService :=
  match s.gate.send with
  | (_, some _) => s
  | (gate, none) => { s with gate := gate }.note .sendStarted

def settleSend (s : LinkService) : LinkService :=
  if s.gate.onAir = 0 then s else { s with gate := s.gate.settle }.note .sendSettled

def finishSend (s : LinkService) : LinkService :=
  if s.gate.settled = 0 then s else { s with gate := s.gate.finishSend }

end Radio

end LinkService

/-- What is done to a service, or goes on in it. -/
inductive LinkServiceStep
  | updateLocalSubscription (clientID : String) (action : SubscriptionAction) (selector : String)
      (failure : SubscriptionTransition → Option String)
  | disconnectClient (clientID : String) (failure : SubscriptionTransition → Option String)
  | expireClientLease (clientID : String) (failure : SubscriptionTransition → Option String)
  | fireRenewal (failure : SubscriptionTransition → Option String)
  | attachTransport (node : LinkNode) (gatewayNode : Option LinkNode)
      (failure : SubscriptionTransition → Option String)
  | setJoiningLifecycle (active : Bool) (detail : Option String)
  | radioDisconnected (reason : String)
  | linkError (reason : String)
  | stop (failure : SubscriptionTransition → Option String)
  | replaceProfile (profile : String)
  | applyRadioProfile
  | proceed (application : ℕ) (error : Option String)
      (failure : SubscriptionTransition → Option String)
  | send
  | settleSend
  | finishSend

def LinkServiceStep.run (options : LinkServiceOptions) (s : LinkService) :
    LinkServiceStep → LinkService
  | .updateLocalSubscription clientID action selector failure =>
    (s.updateLocalSubscription options failure clientID action selector).1
  | .disconnectClient clientID failure => s.disconnectClient options failure clientID
  | .expireClientLease clientID failure => s.expireClientLease options failure clientID
  | .fireRenewal failure => s.fireRenewal options failure
  | .attachTransport node gatewayNode failure => s.attachTransport options failure node gatewayNode
  | .setJoiningLifecycle active detail =>
    s.setJoiningLifecycle (if active then .active else .discovering) detail
  | .radioDisconnected reason => s.setLifecycle .error (some reason)
  | .linkError reason => s.handleLinkError options reason
  | .stop failure => s.stop options failure
  | .replaceProfile profile =>
    if options.profileManager then { s with profile := profile } else s
  | .applyRadioProfile => s.applyRadioProfile options
  | .proceed application error failure => s.proceed options failure application error
  | .send => s.send
  | .settleSend => s.settleSend
  | .finishSend => s.finishSend

/-- The states a service reaches. -/
inductive ServiceReachable (options : LinkServiceOptions) : LinkService → Prop
  | new (profile : String) : ServiceReachable options (.new options profile)
  | step {s : LinkService} (step : LinkServiceStep) :
    ServiceReachable options s → ServiceReachable options (step.run options s)

end Atlas.Link
