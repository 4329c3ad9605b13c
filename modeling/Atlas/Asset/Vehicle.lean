import Mathlib

/-!
# The vehicle

What the Asset host knows of its aircraft, the configuration it flies it with and the messages it
can send. Numbers are rationals, times are milliseconds.
-/

namespace Atlas.Asset

structure VehicleIdentity where
  systemId : ℕ
  componentId : ℕ

structure VehicleObservation where
  latitudeDeg : ℚ
  longitudeDeg : ℚ
  altitudeMslM : ℚ
  relativeAltitudeM : ℚ
  groundSpeedMS : ℚ
  observedAtMs : ℚ

structure VehicleSnapshot where
  identity : Option VehicleIdentity
  armed : Bool
  mode : String
  customMode : Option ℕ
  guided : Bool
  observation : Option VehicleObservation
  lastHeartbeatMs : Option ℚ
  batteryRemainingPercent : Option ℚ
  launchElevationM : Option ℚ
  launchLatitudeDeg : Option ℚ
  launchLongitudeDeg : Option ℚ
  launchElevationVerified : Bool

structure ControlState where
  snapshot : VehicleSnapshot
  nowMs : ℚ

/-- The fields of the configuration a flight is executed with, in the bounds `parseAssetConfig`
holds them to. -/
structure AssetConfig where
  vehicleSystemId : ℕ
  vehicleComponentId : ℕ
  arrivalRadiusM : ℚ
  altitudeToleranceM : ℚ
  hoverSettleSeconds : ℚ
  progressTimeoutSeconds : ℚ
  taskTimeoutSeconds : ℚ
  minBatteryPercent : ℚ
  progressTimeout_ge : 5 ≤ progressTimeoutSeconds
  taskTimeout_ge : 30 ≤ taskTimeoutSeconds

/-- The floating-point geometry and number formatting of the host. -/
structure Host where
  haversineM : ℚ → ℚ → ℚ → ℚ → ℚ
  numberText : ℚ → String

def heartbeatFreshnessMs : ℚ := 3000
def positionFreshnessMs : ℚ := 10000

def hasFreshHeartbeat (snapshot : VehicleSnapshot) (nowMs : ℚ) : Bool :=
  match snapshot.lastHeartbeatMs with
  | none => false
  | some lastHeartbeatMs =>
    0 ≤ nowMs - lastHeartbeatMs && nowMs - lastHeartbeatMs ≤ heartbeatFreshnessMs

/-- Both control streams must be known and recent enough for flight commands. -/
def hasFreshControlTelemetry (snapshot : VehicleSnapshot) (nowMs : ℚ) : Bool :=
  match snapshot.observation with
  | none => false
  | some observation =>
    hasFreshHeartbeat snapshot nowMs && 0 ≤ nowMs - observation.observedAtMs &&
      nowMs - observation.observedAtMs ≤ positionFreshnessMs

/-- The message of the failure `checkBatteryReadiness` reports, if any. -/
def checkBatteryReadiness (host : Host) (config : AssetConfig) (snapshot : VehicleSnapshot) :
    Option String :=
  match snapshot.batteryRemainingPercent with
  | none => some "Battery state is unknown. Wait for a battery reading before flight tasking."
  | some percent =>
    if percent < config.minBatteryPercent then
      some ("Battery " ++ host.numberText percent ++ "% is below the " ++
        host.numberText config.minBatteryPercent ++ "% minimum.")
    else none

inductive MavCmd
  | navTakeoff
  | navReturnToLaunch
  | navLand
  deriving DecidableEq, Repr

/-- The MAVLink messages the host flies with; the fields it leaves at zero are not kept. -/
inductive MavLinkData
  | commandLong (targetSystem targetComponent : ℕ) (command : MavCmd) (param7 : ℚ)
  | setPositionTargetGlobalInt (targetSystem targetComponent typeMask : ℕ) (latInt lonInt : ℤ)
      (alt : ℚ)
  deriving DecidableEq

def positionOnlyTypeMask : ℕ := 0x0df8

/-- `Math.round`: halves go up. -/
def mathRound (x : ℚ) : ℤ := ⌊x + 1 / 2⌋

def takeoffCommand (targetSystem targetComponent : ℕ) (heightAboveLaunchM : ℚ) : MavLinkData :=
  .commandLong targetSystem targetComponent .navTakeoff heightAboveLaunchM

def returnToLaunchCommand (targetSystem targetComponent : ℕ) : MavLinkData :=
  .commandLong targetSystem targetComponent .navReturnToLaunch 0

def landCommand (targetSystem targetComponent : ℕ) : MavLinkData :=
  .commandLong targetSystem targetComponent .navLand 0

def positionTarget (targetSystem targetComponent : ℕ) (latitudeDeg longitudeDeg altitudeMslM : ℚ) :
    MavLinkData :=
  .setPositionTargetGlobalInt targetSystem targetComponent positionOnlyTypeMask
    (mathRound (latitudeDeg * 10 ^ 7)) (mathRound (longitudeDeg * 10 ^ 7)) altitudeMslM

def gotoPositionCommand := positionTarget
def holdPositionCommand := positionTarget

/-- Guided, with fresh heartbeat and position: what a flight command is sent under. -/
def ControlState.Authority (c : ControlState) : Prop :=
  c.snapshot.guided = true ∧ hasFreshControlTelemetry c.snapshot c.nowMs = true

instance (c : ControlState) : Decidable c.Authority :=
  inferInstanceAs (Decidable (_ ∧ _))

end Atlas.Asset
