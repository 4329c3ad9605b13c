import Atlas.Lib.Interleaving
import Atlas.SourceGateway.Breaker
import Atlas.SourceGateway.Cache
import Atlas.SourceGateway.Rate

/-!
# The execution of a request

A call of `execute` is a program, and the calls of all connectors run beside each other over the
breakers and the response cache. What comes from outside may be anything: the clocks, why and when a
context ends, whether there is a place in the semaphore and a slot of the rate, and what upstream
answers. A call reads the time of the gateway (`now`) and the time that deadlines are compared with
(`timeNow`). Times are nanoseconds.
-/

namespace Atlas.SourceGateway

open Config Interleaving

section Operations

/-- The context of the caller, and the one of the request with the connector's deadline. -/
inductive Ctx
  | parent
  | request

/-- The operations of a call, with the type each answers in. Those of the rate and the start of an
attempt name the attempt. -/
inductive GatewayOp : Type → Type
  | now : GatewayOp ℕ
  | timeNow : GatewayOp ℕ
  | err (ctx : Ctx) : GatewayOp (Option ErrorName)
  | cause (ctx : Ctx) : GatewayOp (Option ErrorName)
  | cacheGet (key : GoString) (now : ℕ) : GatewayOp (Option ConnectorResponse)
  | cachePut (key : GoString) (response : ConnectorResponse) (expires : ℕ) : GatewayOp Unit
  | circuitOpenWithClock : GatewayOp Bool
  | acquire : GatewayOp Bool
  | release : GatewayOp Unit
  | waitForRate (attempt : ℕ) : GatewayOp (Option RateReservation)
  | releaseRate (attempt : ℕ) (reservation : RateReservation) : GatewayOp Unit
  | tryBeginAttempt (attempt : ℕ) : GatewayOp (Except Connector.AttemptRefusal ℕ × ℕ)
  | attempt (prepared : PreparedRequest) : GatewayOp (UpstreamAnswer × BreakerOrder)
  | finishBreakerFailure (observedAt begun : ℕ) (order : BreakerOrder) : GatewayOp Unit
  | finishBreakerReachable (observedAt begun : ℕ) (order : BreakerOrder) : GatewayOp Unit
  | discardBreakerAttempt (begun : ℕ) : GatewayOp Unit

/-- The breakers' fields of the connectors, and the cache. -/
structure GatewayState where
  connectors : GoString → Connector
  cache : ResponseCache

def GatewayState.new (maxEntries maxBytes : ℕ) : GatewayState :=
  ⟨fun _ => .new, .new maxEntries maxBytes⟩

def GatewayState.put (s : GatewayState) (id : GoString) (c : Connector) : GatewayState :=
  { s with connectors := Function.update s.connectors id c }

/-- What an operation of a call can do. The clock is read inside of some, and an attempt that begins
or not tells when its context has been looked at last. -/
inductive Performs (settings : CircuitBreakerSettings) (id : GoString) (s : GatewayState) :
    {β : Type} → GatewayOp β → β → GatewayState → Prop
  | now (time : ℕ) : Performs settings id s .now time s
  | timeNow (time : ℕ) : Performs settings id s .timeNow time s
  | err (ctx : Ctx) (err : Option ErrorName) : Performs settings id s (.err ctx) err s
  | cause (ctx : Ctx) (err : Option ErrorName) : Performs settings id s (.cause ctx) err s
  | cacheGet (key : GoString) (now : ℕ) :
      Performs settings id s (.cacheGet key now) (s.cache.get key now).2
        { s with cache := (s.cache.get key now).1 }
  | cachePut (key : GoString) (response : ConnectorResponse) (expires : ℕ) (cache : ResponseCache)
      (hput : s.cache.put key response expires = some cache) :
      Performs settings id s (.cachePut key response expires) () { s with cache }
  | circuitOpenWithClock (now : ℕ) :
      Performs settings id s .circuitOpenWithClock
        ((s.connectors id).circuitOpenWithClock settings now).2
        (s.put id ((s.connectors id).circuitOpenWithClock settings now).1)
  | acquire (acquired : Bool) : Performs settings id s .acquire acquired s
  | release : Performs settings id s .release () s
  | waitForRate (attempt : ℕ) (reservation : Option RateReservation) :
      Performs settings id s (.waitForRate attempt) reservation s
  | releaseRate (attempt : ℕ) (reservation : RateReservation) :
      Performs settings id s (.releaseRate attempt reservation) () s
  | tryBeginAttempt (attempt : ℕ) (expiredBefore expiredAfter : Bool) (now checkedAt : ℕ) :
      Performs settings id s (.tryBeginAttempt attempt)
        (((s.connectors id).tryBeginAttempt settings expiredBefore expiredAfter now).2, checkedAt)
        (s.put id ((s.connectors id).tryBeginAttempt settings expiredBefore expiredAfter now).1)
  | attempt (prepared : PreparedRequest) (answer : UpstreamAnswer) (order : BreakerOrder) :
      Performs settings id s (.attempt prepared) (answer, order) s
  | finishBreakerFailure (observedAt begun : ℕ) (order : BreakerOrder) :
      Performs settings id s (.finishBreakerFailure observedAt begun order) ()
        (s.put id ((s.connectors id).finishBreakerFailure settings observedAt begun order))
  | finishBreakerReachable (observedAt begun : ℕ) (order : BreakerOrder) :
      Performs settings id s (.finishBreakerReachable observedAt begun order) ()
        (s.put id ((s.connectors id).finishBreakerReachable settings observedAt begun order))
  | discardBreakerAttempt (begun : ℕ) :
      Performs settings id s (.discardBreakerAttempt begun) ()
        (s.put id ((s.connectors id).discardBreakerAttempt settings begun))

end Operations

section Contexts

/-- `contextError` of a context with its deadline. -/
def contextError (ctx : Ctx) (deadline : Option ℕ) (now : ℕ) :
    Prog GatewayOp (Option ErrorName) := do
  match ← Prog.ask (.err ctx) with
  | some err => return some err
  | none => return if deadline.any (· ≤ now) then some .deadlineExceeded else none

def contextExpired (ctx : Ctx) (deadline : Option ℕ) : Prog GatewayOp Bool := do
  let now ← Prog.ask .timeNow
  return (← contextError ctx deadline now).isSome

def requestCanceled (parentDeadline : Option ℕ) : Prog GatewayOp GatewayError := do
  let now ← Prog.ask .timeNow
  return ⟨.requestCanceled, (← contextError .parent parentDeadline now).toList⟩

/-- The deadline of the caller, if there is one, and that of the connector. -/
structure Deadlines where
  parent : Option ℕ
  connector : ℕ

/-- The deadline of the request's context is the earlier one. -/
def Deadlines.request (deadlines : Deadlines) : Option ℕ :=
  some (deadlines.parent.elim deadlines.connector (min deadlines.connector))

def admissionFailureAt (deadlines : Deadlines) (now : ℕ) : Prog GatewayOp GatewayError := do
  match ← contextError .parent deadlines.parent now with
  | some err => return ⟨.requestCanceled, [err]⟩
  | none => return ⟨.admissionTimeout, (← contextError .request deadlines.request now).toList⟩

def admissionFailure (deadlines : Deadlines) : Prog GatewayOp GatewayError := do
  admissionFailureAt deadlines (← Prog.ask .timeNow)

def connectorDeadlineWon (deadlines : Deadlines) (completedAt : ℕ) : Prog GatewayOp Bool := do
  if completedAt < deadlines.connector then return false
  else if deadlines.parent.any (· ≤ deadlines.connector) then return false
  else
    if (← Prog.ask (.cause .request)) = some .connectorDeadline then return true
    else
      let parentErr ← Prog.ask (.err .parent)
      if parentErr = none ∨ parentErr = some .deadlineExceeded then return true
      else return (← Prog.ask (.cause .request)) = some .connectorDeadline

end Contexts

section Attempts

/-- A failed attempt that is to be retried, until it is settled. -/
abbrev PendingFailure : Type := Option (ℕ × BreakerOrder)

def recordPendingFailure : PendingFailure → Prog GatewayOp Unit
  | none => return
  | some (begun, order) => do
    let observedAt ← Prog.ask .now
    Prog.ask (.finishBreakerFailure observedAt begun order)

def discardPendingFailure : PendingFailure → Prog GatewayOp Unit
  | none => return
  | some (begun, _) => Prog.ask (.discardBreakerAttempt begun)

inductive CacheResult
  | bypass
  | hit
  | miss
  | stored
  deriving DecidableEq, Repr

/-- What a call returns. -/
structure Execution where
  result : Except GatewayError ConnectorResponse
  attempts : ℕ
  cacheResult : CacheResult

def retryStatus (statuses : List ℤ) (status : ℕ) : Bool := statuses.any (· = status)

def retryFailure (failures : List GoString) (failure : FailureCode) : Bool :=
  failures.any (· = failure.text)

def cacheableStatus (status : ℕ) : Bool := status < 500 && status ≠ 429

/-- What is pending is discarded, and the attempt is finished as a failure. -/
def finishFailure (pending : PendingFailure) (begun : ℕ) (order : BreakerOrder) :
    Prog GatewayOp Unit := do
  discardPendingFailure pending
  let observedAt ← Prog.ask .now
  Prog.ask (.finishBreakerFailure observedAt begun order)

/-- What is pending is discarded, and upstream was reachable. -/
def finishReachable (pending : PendingFailure) (begun : ℕ) (order : BreakerOrder) :
    Prog GatewayOp Unit := do
  discardPendingFailure pending
  let observedAt ← Prog.ask .now
  Prog.ask (.finishBreakerReachable observedAt begun order)

/-- How the attempt is settled of a call that is over: the connector's deadline is a failure
whatever came, and an error that is the caller's own says nothing of upstream. -/
def settleInterrupted (deadlines : Deadlines) (pending : PendingFailure) (begun : ℕ)
    (order : BreakerOrder) (outcome : Except GatewayError ConnectorResponse)
    (parentError parentCause : Option ErrorName) (connectorTimedOut : Bool) :
    Prog GatewayOp Unit :=
  if connectorTimedOut then
    finishFailure pending begun { order with completedAt := deadlines.connector }
  else
    match outcome with
    | .ok _ => finishReachable pending begun order
    | .error failure =>
      if parentError.any (· ∈ failure.err) || parentCause.any (· ∈ failure.err) then do
        recordPendingFailure pending
        Prog.ask (.discardBreakerAttempt begun)
      else finishFailure pending begun order

variable {lib : WireLibrary} {deployment : Deployment}
variable (c : GatewayConnector lib deployment) (key : GoString) (prepared : PreparedRequest)
  (rule : RouteRule) (deadlines : Deadlines)

/-- A response that is not retried, and what becomes of it in the cache. -/
def respond (attempt : ℕ) (response : ConnectorResponse) (retryable : Bool) :
    Prog GatewayOp Execution := do
  if 0 < rule.cacheTTLMS && !retryable && cacheableStatus response.status then
    let now ← Prog.ask .now
    Prog.ask (.cachePut key response (now + 1000000 * rule.cacheTTLMS.toNat))
    return ⟨.ok response, attempt, .stored⟩
  else return ⟨.ok response, attempt, if 0 < rule.cacheTTLMS then .miss else .bypass⟩

/-- What a call fails with whose own context is over, or the connector's deadline has passed. -/
def interruptedFailure (parentContextError : Option ErrorName) (now : ℕ) :
    Prog GatewayOp GatewayError :=
  match parentContextError with
  | some err => return ⟨.requestCanceled, [err]⟩
  | none => do
    return ⟨.upstreamTimeout, (← contextError .request deadlines.request now).toList⟩

/-- What follows an attempt when so many are left after it: the end of the call, or another round
with what is pending. -/
def afterAttempt (left attempt : ℕ) (pending : PendingFailure) (begun : ℕ) (order : BreakerOrder)
    (outcome : Except GatewayError ConnectorResponse) :
    Prog GatewayOp (Execution ⊕ PendingFailure) := do
  let attemptCheckedAt ← Prog.ask .timeNow
  let parentContextError ← contextError .parent deadlines.parent attemptCheckedAt
  let connectorTimedOut ← connectorDeadlineWon deadlines order.completedAt
  if parentContextError.isSome || connectorTimedOut then
    let failure ← interruptedFailure deadlines parentContextError attemptCheckedAt
    let parentCause ← Prog.ask (.cause .parent)
    settleInterrupted deadlines pending begun order outcome parentContextError parentCause
      connectorTimedOut
    return .inl ⟨.error failure, attempt, .miss⟩
  else
    match outcome with
    | .ok response =>
      finishReachable pending begun order
      let retryable := retryStatus rule.retry.statuses response.status
      if 0 < left && retryable then return .inr none
      else return .inl (← respond key rule attempt response retryable)
    | .error failure =>
      if 0 < left && retryFailure rule.retry.failures failure.code then
        discardPendingFailure pending
        return .inr (some (begun, order))
      else
        finishFailure pending begun order
        return .inl ⟨.error failure, attempt, .miss⟩

/-- A round in which no attempt begins ends the call. -/
def finishBeforeAttempt (attempt : ℕ) (pending : PendingFailure) (reservation : RateReservation)
    (failure : Prog GatewayOp GatewayError) : Prog GatewayOp (Execution ⊕ PendingFailure) := do
  recordPendingFailure pending
  Prog.ask (.releaseRate attempt reservation)
  return .inl ⟨.error (← failure), attempt - 1, .miss⟩

def attemptRefused (refusal : Connector.AttemptRefusal) (checkedAt : ℕ) :
    Prog GatewayOp GatewayError :=
  match refusal with
  | .contextExpired => admissionFailureAt deadlines checkedAt
  | .circuitOpen => return ⟨.circuitOpen, []⟩

/-- A round of the loop. -/
def attemptRound (left attempt : ℕ) (pending : PendingFailure) :
    Prog GatewayOp (Execution ⊕ PendingFailure) := do
  match ← Prog.ask (.waitForRate attempt) with
  | none =>
    recordPendingFailure pending
    return .inl ⟨.error (← admissionFailure deadlines), attempt - 1, .miss⟩
  | some reservation => do
    if ← contextExpired .request deadlines.request then
      finishBeforeAttempt attempt pending reservation (admissionFailure deadlines)
    else
      match ← Prog.ask (.tryBeginAttempt attempt) with
      | (.error refusal, checkedAt) => do
        let startFailure ← attemptRefused deadlines refusal checkedAt
        finishBeforeAttempt attempt pending reservation (pure startFailure)
      | (.ok begun, _) => do
        let (answer, attemptOrder) ← Prog.ask (.attempt prepared)
        afterAttempt key rule deadlines left attempt pending begun attemptOrder
          (c.attempt rule answer)

/-- The loop with so many rounds left; none is the panic after it. -/
def attemptRounds : ℕ → ℕ → PendingFailure → Prog GatewayOp (Option Execution)
  | 0, _, _ => return none
  | left + 1, attempt, pending => do
    match ← attemptRound c key prepared rule deadlines left attempt pending with
    | .inl execution => return some execution
    | .inr pending => attemptRounds left (attempt + 1) pending

/-- What is done with a place in the semaphore. -/
def admitted : Prog GatewayOp (Option Execution) := do
  if ← contextExpired .request deadlines.request then
    return some ⟨.error (← admissionFailure deadlines), 0, .miss⟩
  else if ← Prog.ask .circuitOpenWithClock then
    if ← contextExpired .request deadlines.request then
      return some ⟨.error (← admissionFailure deadlines), 0, .miss⟩
    else return some ⟨.error ⟨.circuitOpen, []⟩, 0, .miss⟩
  else attemptRounds c key prepared rule deadlines (rule.retry.maxRetries + 1).toNat 1 none

/-- What is done with the deadline of the connector. -/
def executeUpstream : Prog GatewayOp (Option Execution) := do
  if ← contextExpired .request deadlines.request then
    return some ⟨.error (← admissionFailure deadlines), 0, .miss⟩
  else if ← Prog.ask .acquire then
    let execution ← admitted c key prepared rule deadlines
    Prog.ask .release
    return execution
  else return some ⟨.error (← admissionFailure deadlines), 0, .miss⟩

/-- What is done without a response in the cache. -/
def executeMissed (parentDeadline : Option ℕ) : Prog GatewayOp (Option Execution) := do
  if ← Prog.ask .circuitOpenWithClock then
    if ← contextExpired .parent parentDeadline then
      return some ⟨.error (← requestCanceled parentDeadline), 0, .miss⟩
    else return some ⟨.error ⟨.circuitOpen, []⟩, 0, .miss⟩
  else
    let started ← Prog.ask .timeNow
    let connectorDeadline := (started + durationOfMilliseconds c.config.limits.timeoutMS).toNat
    executeUpstream c key prepared rule ⟨parentDeadline, connectorDeadline⟩

/-- The lookup in the cache, under a rule with a lifetime. -/
def lookup : Prog GatewayOp (Option ConnectorResponse) := do
  if 0 < rule.cacheTTLMS then
    let now ← Prog.ask .now
    Prog.ask (.cacheGet key now)
  else return none

/-- `execute` of a caller with its deadline; the key is the digest of a prepared request. -/
def execute (sha256 : Bytes → Bytes) (parentDeadline : Option ℕ) (input : ConnectorRequest) :
    Prog GatewayOp (Option Execution) := do
  if ← contextExpired .parent parentDeadline then
    return some ⟨.error (← requestCanceled parentDeadline), 0, .bypass⟩
  else
    match c.prepare input with
    | .error message => return some ⟨.error (rejected message), 0, .bypass⟩
    | .ok (prepared, rule) => do
      let key := requestCacheKey sha256 c.config.id prepared
      match ← lookup key rule with
      | some cached =>
        if ← contextExpired .parent parentDeadline then
          return some ⟨.error (← requestCanceled parentDeadline), 0, .hit⟩
        else return some ⟨.ok cached, 0, .hit⟩
      | none => executeMissed c key prepared rule parentDeadline

end Attempts

section Calls

variable {lib : WireLibrary} {deployment : Deployment}

/-- A call, with the settings of its connector's breaker. -/
structure GatewayCall (lib : WireLibrary) (deployment : Deployment) where
  connector : GatewayConnector lib deployment
  settings : CircuitBreakerSettings
  failures_eq : (settings.failures : ℤ) = connector.config.circuitBreaker.failures
  openMS_eq : (settings.openMS : ℤ) = connector.config.circuitBreaker.openMS
  deadline : Option ℕ
  input : ConnectorRequest

inductive BreakerResult
  | failure
  | reachable
  | discarded
  deriving DecidableEq, Repr

/-- What a call has done so far, the last first: the reservations by their attempts, the attempts
that have begun, how they were settled, what upstream answered, and what was found in the cache. -/
structure Ledger where
  granted : List (ℕ × RateReservation)
  released : List (ℕ × RateReservation)
  begun : List (ℕ × ℕ)
  settled : List (ℕ × BreakerResult)
  received : List (PreparedRequest × UpstreamAnswer)
  found : List (GoString × ConnectorResponse)

namespace Ledger

def new : Ledger := ⟨[], [], [], [], [], []⟩

def settle (l : Ledger) (begun : ℕ) (result : BreakerResult) : Ledger :=
  { l with settled := (begun, result) :: l.settled }

def after {β : Type} (l : Ledger) (op : GatewayOp β) (answer : β) : Ledger :=
  match op, answer with
  | .cacheGet key _, some response => { l with found := (key, response) :: l.found }
  | .waitForRate attempt, some reservation =>
    { l with granted := (attempt, reservation) :: l.granted }
  | .releaseRate attempt reservation, _ =>
    { l with released := (attempt, reservation) :: l.released }
  | .tryBeginAttempt attempt, (.ok begun, _) => { l with begun := (attempt, begun) :: l.begun }
  | .attempt prepared, (answer, _) => { l with received := (prepared, answer) :: l.received }
  | .finishBreakerFailure _ begun _, _ => l.settle begun .failure
  | .finishBreakerReachable _ begun _, _ => l.settle begun .reachable
  | .discardBreakerAttempt begun, _ => l.settle begun .discarded
  | _, _ => l

end Ledger

abbrev GatewayPool (ι : Type) : Type 1 :=
  Pool GatewayOp ι Ledger GatewayState (Option Execution)

variable {ι : Type} [DecidableEq ι]

/-- A new gateway with all calls it will get. -/
def GatewayPool.new (sha256 : Bytes → Bytes) (maxEntries maxBytes : ℕ)
    (calls : ι → GatewayCall lib deployment) : GatewayPool ι where
  state := .new maxEntries maxBytes
  known _ := .new
  program i := execute (calls i).connector sha256 (calls i).deadline (calls i).input

/-- The calls beside each other, in any order of their operations. -/
def GatewayReached (sha256 : Bytes → Bytes) (maxEntries maxBytes : ℕ)
    (calls : ι → GatewayCall lib deployment) (pool : GatewayPool ι) : Prop :=
  Pool.Reached
    (fun i op s b s' => Performs (calls i).settings (calls i).connector.config.id s op b s')
    Ledger.after (GatewayPool.new sha256 maxEntries maxBytes calls) pool

end Calls

end Atlas.SourceGateway
