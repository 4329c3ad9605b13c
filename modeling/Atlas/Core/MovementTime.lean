import Atlas.Core.Environment
import Atlas.Lib.Rfc3339

/-!
# The times of movement reports

A report's time is sent as a timestamp of the Protocol. Core reads it as an instant, in nanoseconds
from the first day of the year 1 on, which is the zero time of Go. A leap second is read as the
second after it.
-/

namespace Atlas.Core

open Rfc3339

/-- The Protocol's definition of an RFC 3339 timestamp. -/
def isRFC3339Timestamp (value : String) : Bool :=
  match read value.toList with
  | some s => decide s.Valid
  | none => false

/-- `time.Parse` of the layout `time.RFC3339Nano`: there is no leap second, and digits below the
nanosecond are dropped. -/
def timeParse (text : Text) : Option ℤ :=
  match read text with
  | some s => if s.Valid ∧ s.second ≤ 59 then some (s.seconds * 10 ^ 9 + s.nanoseconds) else none
  | none => none

def parseMovementTimestamp (value : String) : Except ActionError ℤ :=
  if ¬isRFC3339Timestamp value then .error (.validation "invalid RFC3339 timestamp" [])
  else
    let normalized := value.toList.map Char.toUpper
    let leap := (normalized.drop 17).take 2 = ['6', '0']
    let normalized :=
      if leap then normalized.take 17 ++ ['5', '9'] ++ normalized.drop 19 else normalized
    match timeParse normalized with
    | some parsed => .ok (if leap then parsed + 10 ^ 9 else parsed)
    | none => .error (.failure "parse timestamp")

/-- `Format` of the layout `time.RFC3339Nano`, in UTC. -/
def movementTime (t : ℤ) : String := String.ofList (format t)

end Atlas.Core
