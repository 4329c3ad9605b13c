import Atlas.Core.MovementReads
import Atlas.Sdk.MovementTime

/-!
# Checking a trail

A client accepts a trail if it is one of the Protocol and an answer to its query: of the same
interval and record, no longer than was asked for, in order, and with gaps of more than a minute
where it names them. What is checked of a value's shape its type has already.
-/

namespace Atlas.Sdk

open Atlas.Core (MovementSample MovementTrailResponse isRFC3339Timestamp)

structure MovementTrailQuery where
  entityCreatedAt : String
  fromTime : String
  toTime : String
  maxPoints : Option ℤ
  deriving DecidableEq, Repr

/-! ## The Protocol -/

def isUnicodeWhitespace (c : Char) : Bool :=
  0x0009 ≤ c.toNat ∧ c.toNat ≤ 0x000D ∨ c.toNat = 0x0020 ∨ c.toNat = 0x0085 ∨ c.toNat = 0x00A0
    ∨ c.toNat = 0x1680 ∨ 0x2000 ≤ c.toNat ∧ c.toNat ≤ 0x200A ∨ c.toNat = 0x2028
    ∨ c.toNat = 0x2029 ∨ c.toNat = 0x202F ∨ c.toNat = 0x205F ∨ c.toNat = 0x3000 ∨ c.toNat = 0xFEFF

def isNonEmptyString (value : String) : Bool := value.toList.any fun c => !isUnicodeWhitespace c

def isMovementSample (s : MovementSample) : Bool :=
  (s.latitude.all fun v => -90 ≤ v ∧ v ≤ 90) ∧ (s.longitude.all fun v => -180 ≤ v ∧ v ≤ 180)
    ∧ s.observedAt.all isRFC3339Timestamp ∧ isRFC3339Timestamp s.receivedAt
    ∧ isNonEmptyString s.sampleID ∧ s.sampleID.length ≤ 128 ∧ (s.speedMS.all fun v => 0 ≤ v)
    ∧ isRFC3339Timestamp s.time
    ∧ (s.latitude.isSome ∧ s.longitude.isSome
      ∨ s.latitude.isNone ∧ s.longitude.isNone ∧ s.speedMS.isSome
      ∨ s.altitudeM.isSome ∧ s.latitude.isNone ∧ s.longitude.isNone)

/-- `Number.MAX_SAFE_INTEGER`. -/
def maxSafeInteger : ℕ := 2 ^ 53 - 1

def isMovementTrail (value : MovementTrailResponse) : Bool :=
  isRFC3339Timestamp value.entityCreatedAt ∧ isRFC3339Timestamp value.fromTime
    ∧ (value.points.all fun p => isMovementSample p.1) ∧ value.positionCount ≤ maxSafeInteger
    ∧ isRFC3339Timestamp value.retainedFrom ∧ isRFC3339Timestamp value.toTime

/-! ## The answer -/

def sameMovementInstant (left right : String) : Bool :=
  compareMovementInstants left right 0 = some 0

def coherentMovementSample (s : MovementSample) : Bool :=
  s.timeIsArrival = s.observedAt.isNone
    ∧ sameMovementInstant s.time (s.observedAt.getD s.receivedAt)

def movementWindowResponseValidator (query : MovementTrailQuery) (value : MovementTrailResponse) :
    Bool :=
  isMovementTrail value ∧ sameMovementInstant value.entityCreatedAt query.entityCreatedAt
    ∧ sameMovementInstant value.fromTime query.fromTime
    ∧ sameMovementInstant value.toTime query.toTime

/-- A point, after the one before it. -/
def validTrailPoint (query : MovementTrailQuery) (value : MovementTrailResponse)
    (before : Option (MovementSample × Bool)) (p : MovementSample × Bool) : Bool :=
  coherentMovementSample p.1 ∧ p.1.latitude.isSome ∧ p.1.longitude.isSome
    ∧ (compareMovementInstants p.1.time value.retainedFrom 0).any (0 ≤ ·)
    ∧ (compareMovementInstants p.1.time query.fromTime 0).any (0 ≤ ·)
    ∧ (compareMovementInstants p.1.time query.toTime 0).any (· ≤ 0)
    ∧ (before.all fun b => (compareMovementInstants b.1.time p.1.time 0).any (· ≤ 0))
    ∧ (p.2 = true →
      before.any fun b => (compareMovementInstants p.1.time b.1.time 60000).any (0 < ·))

def movementTrailResponseValidator (query : MovementTrailQuery) (value : MovementTrailResponse) :
    Bool :=
  movementWindowResponseValidator query value
    ∧ value.positionCount ≤ maxSafeInteger
    ∧ value.points.length ≤ value.positionCount
    ∧ (value.positionCount = 0 ↔ value.points.length = 0)
    ∧ (value.points.length : ℤ) ≤ query.maxPoints.getD 1000
    ∧ value.simplified = decide (value.points.length < value.positionCount)
    ∧ ((none :: value.points.map some).zip value.points).all fun p =>
      validTrailPoint query value p.1 p.2

end Atlas.Sdk
