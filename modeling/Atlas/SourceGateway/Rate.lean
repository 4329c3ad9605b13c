import Mathlib

/-!
# The request rate of a source connector

A reservation holds a slot of the length of the interval, from the time it is granted for to the
time of the next request. A caller that comes too early sleeps until the slot it has seen, and gets
it if nobody has moved the next request since; a release of the newest slot moves it back and wakes
up all who sleep. A connector without a rate gives out the empty reservation and never comes here.
Times are nanoseconds since the zero time.
-/

namespace Atlas.SourceGateway

structure RateReservation where
  grantedAt : ℕ
  next : ℕ
  deriving DecidableEq, Repr

/-- The longest duration. -/
def maxDuration : ℕ := 2 ^ 63 - 1

/-- The duration between two times, as far as there is one. -/
def durationSince (time start : ℕ) : ℕ := min (time - start) maxDuration

/-- Where a call stands between two locked sections. The channel it sleeps on is given by its
number, and the time of the grant is a ghost. -/
inductive RateCaller
  | entering
  | unlocked (waitUntil current rateChanged : ℕ)
  | waiting (waitUntil fires rateChanged : ℕ)
  | refused
  | granted (reservation : RateReservation) (time : ℕ)
  | released (reservation : RateReservation) (time : ℕ)
  deriving DecidableEq, Repr

/-- The rate's fields of a connector with all calls of it. Of the channels, those with a smaller
number than the current one are closed. -/
structure RateWorld where
  clock : ℕ
  nextRequest : ℕ
  rateChanged : ℕ
  callers : ℕ → RateCaller

namespace RateWorld

def new (clock : ℕ) : RateWorld := ⟨clock, 0, 0, fun _ => .entering⟩

def put (world : RateWorld) (caller : ℕ) (state : RateCaller) : RateWorld :=
  { world with callers := Function.update world.callers caller state }

def grant (interval : ℕ) (world : RateWorld) (caller waitUntil : ℕ) : RateWorld :=
  { world.put caller (.granted ⟨waitUntil, waitUntil + interval⟩ world.clock) with
    nextRequest := waitUntil + interval }

/-- The first locked section; the request may have expired. -/
def enter (interval : ℕ) (world : RateWorld) (caller : ℕ) (expired : Bool) : RateWorld :=
  if expired then world.put caller .refused
  else
    let current := world.clock
    let waitUntil := if world.nextRequest < current then current else world.nextRequest
    if ¬ current < waitUntil then world.grant interval caller waitUntil
    else world.put caller (.unlocked waitUntil current world.rateChanged)

def newTimer (world : RateWorld) (caller waitUntil current rateChanged : ℕ) : RateWorld :=
  world.put caller (.waiting waitUntil (world.clock + durationSince waitUntil current) rateChanged)

/-- The locked section of a caller whose timer has fired. -/
def timerFired (interval : ℕ) (world : RateWorld) (caller waitUntil : ℕ) (expired : Bool) :
    RateWorld :=
  if world.nextRequest = waitUntil then
    if expired then world.put caller .refused else world.grant interval caller waitUntil
  else world.put caller .entering

def releaseRate (world : RateWorld) (reservation : RateReservation) : RateWorld :=
  if reservation.next = 0 then world
  else if world.nextRequest = reservation.next then
    { world with
      nextRequest := reservation.grantedAt
      rateChanged := world.rateChanged + 1 }
  else world

end RateWorld

inductive RateAction
  | tick (elapsed : ℕ)
  | enter (caller : ℕ) (expired : Bool)
  | newTimer (caller : ℕ)
  | timerFired (caller : ℕ) (expired : Bool)
  | rateChanged (caller : ℕ)
  | cancelled (caller : ℕ)
  | releaseRate (caller : ℕ)

/-- What an action leads to, if it can be taken: a timer fires no sooner than it is set for, only
the closing of its channel wakes a caller up, and a reservation is released by the caller that has
it, once. -/
def RateWorld.step (interval : ℕ) (world : RateWorld) : RateAction → Option RateWorld
  | .tick elapsed => some { world with clock := world.clock + elapsed }
  | .enter caller expired =>
    match world.callers caller with
    | .entering => some (world.enter interval caller expired)
    | _ => none
  | .newTimer caller =>
    match world.callers caller with
    | .unlocked waitUntil current rateChanged =>
      some (world.newTimer caller waitUntil current rateChanged)
    | _ => none
  | .timerFired caller expired =>
    match world.callers caller with
    | .waiting waitUntil fires _ =>
      if fires ≤ world.clock then some (world.timerFired interval caller waitUntil expired)
      else none
    | _ => none
  | .rateChanged caller =>
    match world.callers caller with
    | .waiting _ _ rateChanged =>
      if rateChanged < world.rateChanged then some (world.put caller .entering) else none
    | _ => none
  | .cancelled caller =>
    match world.callers caller with
    | .waiting _ _ _ => some (world.put caller .refused)
    | _ => none
  | .releaseRate caller =>
    match world.callers caller with
    | .granted reservation time =>
      some ((world.releaseRate reservation).put caller (.released reservation time))
    | _ => none

/-- Any calls in any order. -/
inductive RateReachable (interval : ℕ) : RateWorld → Prop
  | new (clock : ℕ) : RateReachable interval (.new clock)
  | step {world next : RateWorld} (action : RateAction) : RateReachable interval world →
      world.step interval action = some next → RateReachable interval next

end Atlas.SourceGateway
