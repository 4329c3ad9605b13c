import Atlas.Asset.Vehicle

/-!
# The vehicle tracker

What the Asset host makes of the heartbeats, positions, status reports and parameters it receives.
The launch elevation is verified from three samples taken while the aircraft is landed and disarmed.
-/

namespace Atlas.Asset

/-- The constants of the MAVLink library the host reads. -/
structure MavlinkEnums where
  copterModeNames : ℕ → Option String
  guidedMode : ℕ
  safetyArmed : ℕ

namespace MavlinkEnums

variable (enums : MavlinkEnums)

def copterModeName (customMode : ℕ) : String :=
  (enums.copterModeNames customMode).getD ("UNKNOWN_" ++ toString customMode)

def isGuidedMode (customMode : ℕ) : Bool := customMode == enums.guidedMode

def isArmedBaseMode (baseMode : ℕ) : Bool := baseMode &&& enums.safetyArmed != 0

end MavlinkEnums

structure HeartbeatObservation where
  systemId : ℕ
  componentId : ℕ
  baseMode : ℕ
  customMode : ℕ
  receivedAtMs : ℚ

/-- A position as the tracker is given it, with the battery percentage some sources add. -/
structure PositionObservation extends VehicleObservation where
  batteryRemainingPercent : Option ℚ

def emptySnapshot : VehicleSnapshot where
  identity := none
  armed := false
  mode := "UNKNOWN"
  customMode := none
  guided := false
  observation := none
  lastHeartbeatMs := none
  batteryRemainingPercent := none
  launchElevationM := none
  launchLatitudeDeg := none
  launchLongitudeDeg := none
  launchElevationVerified := false

/-- The failsafe flag of the snapshot stands beside it: no flight command reads it. -/
structure VehicleTracker where
  snapshot : VehicleSnapshot
  gcsFailsafeEnabled : Option Bool
  launchSamples : List ℚ

def launchSamplesRequired : ℕ := 3
def launchStabilityM : ℚ := 1 / 2

/-- `values.slice(-count)`. -/
def sliceLast (values : List ℚ) (count : ℕ) : List ℚ := values.drop (values.length - count)

/-- `Math.min(...values)`, for values that exist. -/
def mathMin (values : List ℚ) : ℚ := values.foldl min (values.headD 0)
def mathMax (values : List ℚ) : ℚ := values.foldl max (values.headD 0)

def mean (values : List ℚ) : ℚ := values.foldl (· + ·) 0 / values.length

namespace VehicleTracker

def new : VehicleTracker where
  snapshot := emptySnapshot
  gcsFailsafeEnabled := none
  launchSamples := []

def observeHeartbeat (enums : MavlinkEnums) (heartbeat : HeartbeatObservation)
    (t : VehicleTracker) : VehicleTracker where
  snapshot :=
    { t.snapshot with
      identity := some ⟨heartbeat.systemId, heartbeat.componentId⟩
      armed := enums.isArmedBaseMode heartbeat.baseMode
      mode := enums.copterModeName heartbeat.customMode
      customMode := some heartbeat.customMode
      guided := enums.isGuidedMode heartbeat.customMode
      lastHeartbeatMs := some heartbeat.receivedAtMs }
  gcsFailsafeEnabled := t.gcsFailsafeEnabled
  launchSamples :=
    if !hasFreshHeartbeat t.snapshot heartbeat.receivedAtMs ||
        enums.isArmedBaseMode heartbeat.baseMode then []
    else t.launchSamples

def maybeVerifyLaunchElevation (observation : VehicleObservation) (t : VehicleTracker) :
    VehicleTracker :=
  if t.snapshot.launchElevationVerified then t
  else if t.snapshot.armed || !hasFreshHeartbeat t.snapshot observation.observedAtMs then
    { t with launchSamples := [] }
  -- Only trust samples that look landed: near-zero relative altitude.
  else if |observation.relativeAltitudeM| > 1 / 2 then { t with launchSamples := [] }
  else
    let launchSamples := t.launchSamples ++ [observation.altitudeMslM]
    if launchSamples.length < launchSamplesRequired then { t with launchSamples }
    else
      let recent := sliceLast launchSamples launchSamplesRequired
      if mathMax recent - mathMin recent ≤ launchStabilityM then
        { t with
          launchSamples
          snapshot :=
            { t.snapshot with
              launchElevationM := some (mean recent)
              launchLatitudeDeg := some observation.latitudeDeg
              launchLongitudeDeg := some observation.longitudeDeg
              launchElevationVerified := true } }
      else { t with launchSamples }

def observePosition (observation : PositionObservation) (t : VehicleTracker) : VehicleTracker :=
  maybeVerifyLaunchElevation observation.toVehicleObservation
    { t with
      launchSamples :=
        if !hasFreshControlTelemetry t.snapshot observation.observedAtMs then []
        else t.launchSamples
      snapshot :=
        { t.snapshot with
          observation := some observation.toVehicleObservation
          batteryRemainingPercent :=
            observation.batteryRemainingPercent <|> t.snapshot.batteryRemainingPercent } }

def observeSysStatus (batteryRemainingPercent : Option ℚ) (t : VehicleTracker) : VehicleTracker :=
  { t with
    snapshot :=
      { t.snapshot with
        batteryRemainingPercent :=
          batteryRemainingPercent.filter fun percent => 0 ≤ percent && percent ≤ 100 } }

def observeGcsFailsafe (enabled : Bool) (t : VehicleTracker) : VehicleTracker :=
  { t with gcsFailsafeEnabled := some enabled }

end VehicleTracker

inductive VehicleEvent
  | heartbeat (heartbeat : HeartbeatObservation)
  | position (observation : PositionObservation)
  | sysStatus (batteryRemainingPercent : Option ℚ)
  | gcsFailsafe (enabled : Bool)

def VehicleTracker.observe (enums : MavlinkEnums) (t : VehicleTracker) :
    VehicleEvent → VehicleTracker
  | .heartbeat heartbeat => t.observeHeartbeat enums heartbeat
  | .position observation => t.observePosition observation
  | .sysStatus batteryRemainingPercent => t.observeSysStatus batteryRemainingPercent
  | .gcsFailsafe enabled => t.observeGcsFailsafe enabled

/-- A tracker after the events it was given, the newest first. -/
def track (enums : MavlinkEnums) : List VehicleEvent → VehicleTracker
  | [] => .new
  | event :: events => (track enums events).observe enums event

end Atlas.Asset
