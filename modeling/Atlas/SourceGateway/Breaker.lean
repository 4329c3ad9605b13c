import Mathlib

/-!
# The circuit breaker of a source connector

Failures are kept in the order in which their attempts were completed, which need not be the order
in which they are recorded. Each full group of them opens the breaker for a while from the latest
observation in the group. Once that is over, the group is credited, so that it does not open the
breaker again; as long as attempts are unresolved, one of them may still be put in between, so
failures and credits are kept until there are none. Times are nanoseconds since the zero time.
-/

namespace Atlas.SourceGateway

def breakerHistoryLimit : ℕ := 4096

/-- Settings that are accepted. -/
structure CircuitBreakerSettings where
  failures : ℕ
  openMS : ℕ
  failures_pos : 1 ≤ failures
  failures_le : failures ≤ 100
  openMS_pos : 1 ≤ openMS
  openMS_le : openMS ≤ 3600000

def CircuitBreakerSettings.openDuration (settings : CircuitBreakerSettings) : ℕ :=
  1000000 * settings.openMS

structure BreakerOrder where
  completedAt : ℕ
  serial : ℕ
  deriving DecidableEq, Repr

def BreakerOrder.after (order other : BreakerOrder) : Bool :=
  other.completedAt < order.completedAt ||
    (order.completedAt = other.completedAt && other.serial < order.serial)

/-- A recorded failure, with the attempt it is of as a ghost. -/
structure BreakerFailure where
  order : BreakerOrder
  observedAt : ℕ
  attempt : ℕ
  deriving DecidableEq, Repr

structure BreakerCredit where
  groups : ℕ
  through : BreakerOrder
  expiredAt : ℕ
  deriving DecidableEq, Repr

/-- The breaker's fields of a connector, with the attempts that are finished and the completions of
the reachable responses as ghosts. -/
structure Connector where
  openUntil : ℕ
  breakerSerial : ℕ
  breakerAttempts : Finset ℕ
  breakerFailures : List BreakerFailure
  breakerCredits : List BreakerCredit
  lastReachable : BreakerOrder
  finished : List ℕ
  reached : List BreakerOrder

namespace Connector

variable (settings : CircuitBreakerSettings)

def new : Connector := ⟨0, 0, ∅, [], [], ⟨0, 0⟩, [], []⟩

/-- A failure is not after another one. -/
def NotAfter (left right : BreakerFailure) : Prop := left.order.after right.order = false

instance : DecidableRel NotAfter := fun left right =>
  inferInstanceAs (Decidable (left.order.after right.order = false))

def sortBreakerFailuresLocked (c : Connector) : Connector :=
  { c with breakerFailures := c.breakerFailures.insertionSort NotAfter }

def latestObservation (group : List BreakerFailure) : ℕ :=
  (group.map (·.observedAt)).foldl max 0

/-- How far a credit gets with the groups from a failure on: it stops at one with a failure after
those it is for, or one that was still keeping the breaker open when it was given. -/
def creditGroups (failures : List BreakerFailure) (credit : BreakerCredit) : ℕ → ℕ → ℕ
  | 0, credited => credited
  | groups + 1, credited =>
    if credited + settings.failures ≤ failures.length then
      let group := (failures.drop credited).take settings.failures
      if (group.any fun failure => failure.order.after credit.through) ||
          credit.expiredAt < latestObservation group + settings.openDuration then credited
      else creditGroups failures credit groups (credited + settings.failures)
    else credited

def creditedFailureCountLocked (c : Connector) : ℕ :=
  c.breakerCredits.foldl
    (fun credited credit =>
      creditGroups settings c.breakerFailures credit credit.groups credited) 0

def breakerHistoryCostLocked (c : Connector) : ℕ :=
  c.breakerFailures.length + c.breakerCredits.length + 2 * c.breakerAttempts.card

/-- The latest time up to which one of so many groups keeps the breaker open. -/
def openUntilGroups : ℕ → List BreakerFailure → ℕ → ℕ
  | 0, _, openUntil => openUntil
  | groups + 1, failures, openUntil =>
    let candidate := latestObservation (failures.take settings.failures) + settings.openDuration
    openUntilGroups groups (failures.drop settings.failures)
      (if openUntil < candidate then candidate else openUntil)

def recomputeBreakerLocked (c : Connector) : Connector :=
  let c := c.sortBreakerFailuresLocked
  let start := c.creditedFailureCountLocked settings
  { c with
    openUntil := openUntilGroups settings ((c.breakerFailures.length - start) / settings.failures)
      (c.breakerFailures.drop start) 0 }

/-- Without unresolved attempts, credits are used up together with the failures they are for. -/
def settleExpiredBreakerGroupsLocked (c : Connector) : Connector :=
  if c.breakerAttempts ≠ ∅ ∨ c.breakerCredits = [] then c
  else
    let c := c.sortBreakerFailuresLocked
    { c with
      breakerFailures := c.breakerFailures.drop (c.creditedFailureCountLocked settings)
      breakerCredits := [] }

def expireBreakerLocked (now : ℕ) (c : Connector) : Connector :=
  if c.openUntil = 0 ∨ now < c.openUntil then c
  else
    let c := { c with openUntil := 0 }.sortBreakerFailuresLocked
    let credited := c.creditedFailureCountLocked settings
    let groups := (c.breakerFailures.length - credited) / settings.failures
    let c : Connector :=
      match c.breakerFailures[credited + groups * settings.failures - 1]? with
      | some last =>
        if 0 < groups then
          { c with breakerCredits := c.breakerCredits ++ [⟨groups, last.order, now⟩] }
        else c
      | none => c
    if c.breakerAttempts ≠ ∅ then c
    else (c.settleExpiredBreakerGroupsLocked settings).recomputeBreakerLocked settings

def circuitOpenWithClock (now : ℕ) (c : Connector) : Connector × Bool :=
  let c := c.expireBreakerLocked settings now
  (c, now < c.openUntil)

/-- Why an attempt is refused. -/
inductive AttemptRefusal
  | contextExpired
  | circuitOpen
  deriving DecidableEq, Repr

/-- An attempt may begin; the request may have expired before or after the clock is read. -/
def tryBeginAttempt (expiredBefore expiredAfter : Bool) (now : ℕ) (c : Connector) :
    Connector × Except AttemptRefusal ℕ :=
  if expiredBefore then (c, .error .contextExpired)
  else
    let c := c.expireBreakerLocked settings now
    if expiredAfter then (c, .error .contextExpired)
    else if now < c.openUntil ∨ breakerHistoryLimit < c.breakerHistoryCostLocked + 2 then
      (c, .error .circuitOpen)
    else
      ({ c with
          breakerSerial := c.breakerSerial + 1
          breakerAttempts := insert (c.breakerSerial + 1) c.breakerAttempts },
        .ok (c.breakerSerial + 1))

/-- The attempt is resolved. -/
def take (attempt : ℕ) (c : Connector) : Connector :=
  { c with
    breakerAttempts := c.breakerAttempts.erase attempt
    finished := attempt :: c.finished }

def finishBreakerFailure (observedAt : ℕ) (attempt : ℕ) (order : BreakerOrder)
    (c : Connector) : Connector :=
  if attempt ∉ c.breakerAttempts then c
  else
    let c := c.take attempt
    let c := if order.after c.lastReachable then
      { c with breakerFailures := c.breakerFailures ++ [⟨order, observedAt, attempt⟩] } else c
    ((c.settleExpiredBreakerGroupsLocked settings).recomputeBreakerLocked
      settings).expireBreakerLocked settings observedAt

def finishBreakerReachable (observedAt : ℕ) (attempt : ℕ) (order : BreakerOrder)
    (c : Connector) : Connector :=
  if attempt ∉ c.breakerAttempts then c
  else
    let c := { c.take attempt with reached := order :: c.reached }
    let c := if order.after c.lastReachable then
      { c with
        lastReachable := order
        breakerFailures := c.breakerFailures.filter fun failure => failure.order.after order }
      else c
    ((c.settleExpiredBreakerGroupsLocked settings).recomputeBreakerLocked
      settings).expireBreakerLocked settings observedAt

def discardBreakerAttempt (attempt : ℕ) (c : Connector) : Connector :=
  if attempt ∉ c.breakerAttempts then c
  else
    ((c.take attempt).settleExpiredBreakerGroupsLocked settings).recomputeBreakerLocked settings

end Connector

inductive BreakerStep
  | tryBeginAttempt (expiredBefore expiredAfter : Bool) (now : ℕ)
  | finishBreakerFailure (observedAt : ℕ) (attempt : ℕ) (order : BreakerOrder)
  | finishBreakerReachable (observedAt : ℕ) (attempt : ℕ) (order : BreakerOrder)
  | discardBreakerAttempt (attempt : ℕ)
  | circuitOpenWithClock (now : ℕ)

def Connector.step (settings : CircuitBreakerSettings) (c : Connector) : BreakerStep → Connector
  | .tryBeginAttempt expiredBefore expiredAfter now =>
    (c.tryBeginAttempt settings expiredBefore expiredAfter now).1
  | .finishBreakerFailure observedAt attempt order =>
    c.finishBreakerFailure settings observedAt attempt order
  | .finishBreakerReachable observedAt attempt order =>
    c.finishBreakerReachable settings observedAt attempt order
  | .discardBreakerAttempt attempt => c.discardBreakerAttempt settings attempt
  | .circuitOpenWithClock now => (c.circuitOpenWithClock settings now).1

/-- Any steps in any order. -/
inductive BreakerReachable (settings : CircuitBreakerSettings) : Connector → Prop
  | new : BreakerReachable settings .new
  | step {c : Connector} (step : BreakerStep) : BreakerReachable settings c →
      BreakerReachable settings (c.step settings step)

end Atlas.SourceGateway
