import Atlas.Asset.Tracker

/-!
# Where a launch elevation comes from

The samples a tracker holds are a chain in its history: landed positions, the newest first, with
nothing between two of them that would have emptied the window. Every event keeps that, a third
sample close enough to the two before it verifies the launch, and nothing changes it afterwards.
-/

namespace Atlas.Asset

variable (enums : MavlinkEnums)

/-- The last heartbeat of a history, whose newest event stands first. -/
def latestHeartbeat : List VehicleEvent → Option HeartbeatObservation
  | [] => none
  | .heartbeat heartbeat :: _ => some heartbeat
  | _ :: events => latestHeartbeat events

/-- The last heartbeat of the history is at most the freshness bound old at the time. -/
def HeardWithin (events : List VehicleEvent) (nowMs : ℚ) (heartbeat : HeartbeatObservation) :
    Prop :=
  latestHeartbeat events = some heartbeat ∧
    0 ≤ nowMs - heartbeat.receivedAtMs ∧ nowMs - heartbeat.receivedAtMs ≤ heartbeatFreshnessMs

/-- A position received on the ground, while the last heartbeat is disarmed and fresh. -/
structure Landed (earlier : List VehicleEvent) (o : PositionObservation) : Prop where
  low : |o.relativeAltitudeM| ≤ 1 / 2
  heard : ∃ heartbeat, HeardWithin earlier o.observedAtMs heartbeat ∧
    enums.isArmedBaseMode heartbeat.baseMode = false

/-- After `earlier` came no position and only disarmed heartbeats, none of them late. -/
def Calm (earlier : List VehicleEvent) : List VehicleEvent → Prop
  | [] => True
  | .heartbeat heartbeat :: later =>
    enums.isArmedBaseMode heartbeat.baseMode = false ∧
      (∃ previous, HeardWithin (later ++ earlier) heartbeat.receivedAtMs previous) ∧
        Calm earlier later
  | .position _ :: _ => False
  | _ :: later => Calm earlier later

/-- The samples of a history, the newest first. -/
inductive Chain : List PositionObservation → List VehicleEvent → Prop
  | nil (events) : Chain [] events
  | cons {o samples later earlier} (landed : Landed enums earlier o)
      (calm : Calm enums (.position o :: earlier) later) (chain : Chain samples earlier) :
      Chain (o :: samples) (later ++ .position o :: earlier)

/-- Three positions one after the other that the launch was verified from. -/
structure Verified (events : List VehicleEvent) (s : VehicleSnapshot)
    (first second third : PositionObservation) : Prop where
  window : ∃ earlier mid mid' later,
    events = later ++ .position third ::
      (mid' ++ .position second :: (mid ++ .position first :: earlier)) ∧
    Landed enums earlier first ∧
    Calm enums (.position first :: earlier) mid ∧
    Landed enums (mid ++ .position first :: earlier) second ∧
    Calm enums (.position second :: (mid ++ .position first :: earlier)) mid' ∧
    Landed enums (mid' ++ .position second :: (mid ++ .position first :: earlier)) third
  close : ∀ o ∈ [first, second, third], ∀ o' ∈ [first, second, third],
    |o.altitudeMslM - o'.altitudeMslM| ≤ 1 / 2
  elevation : s.launchElevationM =
    some ((first.altitudeMslM + second.altitudeMslM + third.altitudeMslM) / 3)
  latitude : s.launchLatitudeDeg = some third.latitudeDeg
  longitude : s.launchLongitudeDeg = some third.longitudeDeg

/-- What is known of the launch. -/
def VehicleSnapshot.launch (s : VehicleSnapshot) : Bool × Option ℚ × Option ℚ × Option ℚ :=
  (s.launchElevationVerified, s.launchElevationM, s.launchLatitudeDeg, s.launchLongitudeDeg)

/-- What a tracker holds is what its history says. -/
structure Tracks (events : List VehicleEvent) (t : VehicleTracker) : Prop where
  heard : t.snapshot.lastHeartbeatMs =
    (latestHeartbeat events).map HeartbeatObservation.receivedAtMs
  armed : t.snapshot.armed =
    ((latestHeartbeat events).map fun h => enums.isArmedBaseMode h.baseMode).getD false
  samples : t.snapshot.launchElevationVerified = false →
    ∃ samples, Chain enums samples events ∧
      t.launchSamples = (samples.map fun o => o.altitudeMslM).reverse
  verified : t.snapshot.launchElevationVerified = true →
    ∃ first second third, Verified enums events t.snapshot first second third

variable {enums} {events : List VehicleEvent} {t : VehicleTracker} {s : VehicleSnapshot}

section Freshness

theorem fresh_iff {nowMs : ℚ}
    (h : s.lastHeartbeatMs = (latestHeartbeat events).map HeartbeatObservation.receivedAtMs) :
    hasFreshHeartbeat s nowMs = true ↔ ∃ heartbeat, HeardWithin events nowMs heartbeat := by
  unfold hasFreshHeartbeat HeardWithin
  rw [h]
  rcases latestHeartbeat events with _ | heartbeat
  · simp
  · simp

theorem Tracks.landed (ht : Tracks enums events t) {o : PositionObservation}
    (ha : t.snapshot.armed = false) (hf : hasFreshHeartbeat t.snapshot o.observedAtMs = true)
    (hl : |o.relativeAltitudeM| ≤ 1 / 2) : Landed enums events o := by
  obtain ⟨heartbeat, hh⟩ := (fresh_iff ht.heard).1 hf
  refine ⟨hl, heartbeat, hh, ?_⟩
  have harm := ht.armed
  rw [hh.1, ha] at harm
  exact harm.symm

end Freshness

section Chains

/-- An event that empties no window lets every chain stand. -/
theorem Chain.later {samples : List PositionObservation} {event : VehicleEvent}
    (h : Chain enums samples events)
    (he : ∀ earlier later, events = later ++ earlier → Calm enums earlier later →
      Calm enums earlier (event :: later)) : Chain enums samples (event :: events) := by
  cases h with
  | nil => exact .nil _
  | @cons o samples later earlier landed calm chain =>
    show Chain enums _ ((event :: later) ++ .position o :: earlier)
    exact .cons landed (he _ _ rfl calm) chain

theorem Chain.push {samples : List PositionObservation} {o : PositionObservation}
    (h : Chain enums samples events) (ho : Landed enums events o) :
    Chain enums (o :: samples) (.position o :: events) := by
  show Chain enums _ ([] ++ .position o :: events)
  exact .cons ho trivial h

/-- A chain of three at the end of a history is what `Verified` asks of it. -/
theorem Chain.window {first second third : PositionObservation}
    {samples : List PositionObservation}
    (h : Chain enums (third :: second :: first :: samples) events) :
    ∃ earlier mid mid' later,
      events = later ++ .position third ::
        (mid' ++ .position second :: (mid ++ .position first :: earlier)) ∧
      Landed enums earlier first ∧
      Calm enums (.position first :: earlier) mid ∧
      Landed enums (mid ++ .position first :: earlier) second ∧
      Calm enums (.position second :: (mid ++ .position first :: earlier)) mid' ∧
      Landed enums (mid' ++ .position second :: (mid ++ .position first :: earlier)) third := by
  cases h with
  | @cons _ _ later _ landed calm chain =>
    cases chain with
    | @cons _ _ mid' _ landed' calm' chain' =>
      cases chain' with
      | @cons _ _ mid earlier landed'' calm'' chain'' =>
        exact ⟨earlier, mid, mid', later, rfl, landed'', calm'', landed', calm', landed⟩

theorem sliceLast_append (values : List ℚ) (a b c : ℚ) :
    sliceLast (values ++ [a, b, c]) launchSamplesRequired = [a, b, c] := by
  simp [sliceLast, launchSamplesRequired]

theorem mean_three (a b c : ℚ) : mean [a, b, c] = (a + b + c) / 3 := by
  simp [mean]

theorem close_of_range {a b c d : ℚ} (h : mathMax [a, b, c] - mathMin [a, b, c] ≤ d) :
    ∀ x ∈ [a, b, c], ∀ y ∈ [a, b, c], |x - y| ≤ d := by
  have hmax : ∀ x ∈ [a, b, c], x ≤ mathMax [a, b, c] := by simp [mathMax]
  have hmin : ∀ x ∈ [a, b, c], mathMin [a, b, c] ≤ x := by simp [mathMin]
  intro x hx y hy
  rw [abs_sub_le_iff]
  constructor
  · linarith [hmax x hx, hmin y hy]
  · linarith [hmax y hy, hmin x hx]

end Chains

section Steps

/-- What was verified stays verified by the same positions. -/
theorem Verified.later {first second third : PositionObservation} {s' : VehicleSnapshot}
    {event : VehicleEvent} (h : Verified enums events s first second third)
    (hs : s'.launch = s.launch) : Verified enums (event :: events) s' first second third := by
  obtain ⟨⟨earlier, mid, mid', later, rfl, hw⟩, close, elevation, latitude, longitude⟩ := h
  simp only [VehicleSnapshot.launch, Prod.mk.injEq] at hs
  exact ⟨⟨earlier, mid, mid', event :: later, rfl, hw⟩, close, hs.2.1.trans elevation,
    hs.2.2.1.trans latitude, hs.2.2.2.trans longitude⟩

theorem tracks_heartbeat {heartbeat : HeartbeatObservation} (ht : Tracks enums events t) :
    Tracks enums (.heartbeat heartbeat :: events) (t.observeHeartbeat enums heartbeat) := by
  refine ⟨rfl, rfl, fun hv => ?_, fun hv => ?_⟩
  · obtain ⟨samples, hc, hs⟩ := ht.samples hv
    by_cases hreset : !hasFreshHeartbeat t.snapshot heartbeat.receivedAtMs ||
        enums.isArmedBaseMode heartbeat.baseMode
    · exact ⟨[], .nil _, by simp [VehicleTracker.observeHeartbeat, hreset]⟩
    · refine ⟨samples, hc.later fun earlier later hev hcalm => ?_, ?_⟩
      · simp only [Bool.or_eq_true, Bool.not_eq_true', not_or, Bool.not_eq_false,
          Bool.not_eq_true] at hreset
        exact ⟨hreset.2, hev ▸ (fresh_iff ht.heard).1 hreset.1, hcalm⟩
      · simp only [VehicleTracker.observeHeartbeat, hreset]
        exact hs
  · obtain ⟨first, second, third, h⟩ := ht.verified hv
    exact ⟨first, second, third, h.later rfl⟩

/-- An event that is neither a heartbeat nor a position changes nothing here. -/
theorem tracks_other {event : VehicleEvent} {t' : VehicleTracker} (ht : Tracks enums events t)
    (hh : latestHeartbeat (event :: events) = latestHeartbeat events)
    (hc : ∀ earlier later, Calm enums earlier later → Calm enums earlier (event :: later))
    (hl : t'.snapshot.lastHeartbeatMs = t.snapshot.lastHeartbeatMs)
    (ha : t'.snapshot.armed = t.snapshot.armed) (hs : t'.snapshot.launch = t.snapshot.launch)
    (hsamples : t'.launchSamples = t.launchSamples) : Tracks enums (event :: events) t' := by
  have hv := congrArg Prod.fst hs
  refine ⟨by rw [hl, hh, ht.heard], by rw [ha, hh, ht.armed], fun h => ?_, fun h => ?_⟩
  · obtain ⟨samples, hchain, heq⟩ := ht.samples (hv.symm.trans h)
    exact ⟨samples, hchain.later fun earlier later _ => hc earlier later, hsamples.trans heq⟩
  · obtain ⟨first, second, third, hver⟩ := ht.verified (hv.symm.trans h)
    exact ⟨first, second, third, hver.later hs⟩

/-- A position after the freshness gate: it empties the window, or it is the next sample, and three
close samples verify the launch. -/
theorem tracks_verify {o : PositionObservation} (ht : Tracks enums events t) :
    Tracks enums (.position o :: events) (t.maybeVerifyLaunchElevation o.toVehicleObservation) := by
  unfold VehicleTracker.maybeVerifyLaunchElevation
  dsimp only
  by_cases hv : t.snapshot.launchElevationVerified
  · rw [if_pos hv]
    refine ⟨ht.heard, ht.armed, fun h => absurd hv (by simp [h]), fun _ => ?_⟩
    obtain ⟨first, second, third, h⟩ := ht.verified hv
    exact ⟨first, second, third, h.later rfl⟩
  rw [if_neg hv]
  obtain ⟨samples, hc, hs⟩ := ht.samples (by simpa using hv)
  have hunverified (launchSamples : List ℚ) (samples : List PositionObservation)
      (hc : Chain enums samples (.position o :: events))
      (hs : launchSamples = (samples.map fun o => o.altitudeMslM).reverse) :
      Tracks enums (.position o :: events) { t with launchSamples } :=
    ⟨ht.heard, ht.armed, fun _ => ⟨samples, hc, hs⟩, fun h => absurd h hv⟩
  by_cases hstale : t.snapshot.armed || !hasFreshHeartbeat t.snapshot o.observedAtMs
  · rw [if_pos hstale]
    exact hunverified [] [] (.nil _) rfl
  rw [if_neg hstale]
  split_ifs with hhigh hfew hclose
  · exact hunverified [] [] (.nil _) rfl
  all_goals
    simp only [Bool.or_eq_true, Bool.not_eq_true', not_or, Bool.not_eq_false,
      Bool.not_eq_true] at hstale
    have hpush := hc.push (ht.landed hstale.1 hstale.2 (not_lt.1 hhigh))
    have hsamples : t.launchSamples ++ [o.altitudeMslM] =
        ((o :: samples).map fun o => o.altitudeMslM).reverse := by simp [hs]
  · exact hunverified _ _ hpush hsamples
  · refine ⟨ht.heard, ht.armed, fun h => by simp at h, fun _ => ?_⟩
    rcases samples with _ | ⟨second, _ | ⟨first, samples⟩⟩
    · simp [hs, launchSamplesRequired] at hfew
    · simp [hs, launchSamplesRequired] at hfew
    have hrecent : sliceLast (t.launchSamples ++ [o.altitudeMslM]) launchSamplesRequired =
        [first.altitudeMslM, second.altitudeMslM, o.altitudeMslM] := by
      rw [hs, ← sliceLast_append (samples.map fun o => o.altitudeMslM).reverse]
      simp
    rw [hrecent] at hclose ⊢
    refine ⟨first, second, o, hpush.window, fun x hx y hy => ?_, ?_, rfl, rfl⟩
    · exact close_of_range hclose _ (List.mem_map_of_mem (f := fun o => o.altitudeMslM) hx) _
        (List.mem_map_of_mem (f := fun o => o.altitudeMslM) hy)
    · exact congrArg some (mean_three _ _ _)
  · exact hunverified _ _ hpush hsamples

theorem tracks_position {o : PositionObservation} (ht : Tracks enums events t) :
    Tracks enums (.position o :: events) (t.observePosition o) := by
  refine tracks_verify ⟨ht.heard, ht.armed, fun hv => ?_, fun hv => ?_⟩
  · obtain ⟨samples, hc, hs⟩ := ht.samples hv
    by_cases hstale : !hasFreshControlTelemetry t.snapshot o.observedAtMs
    · exact ⟨[], .nil _, by simp [hstale]⟩
    · exact ⟨samples, hc, by simpa [hstale] using hs⟩
  · obtain ⟨first, second, third, ⟨window, close, elevation, latitude, longitude⟩⟩ := ht.verified hv
    exact ⟨first, second, third, window, close, elevation, latitude, longitude⟩

theorem tracks_observe (event : VehicleEvent) (ht : Tracks enums events t) :
    Tracks enums (event :: events) (t.observe enums event) := by
  cases event with
  | heartbeat heartbeat => exact tracks_heartbeat ht
  | position o => exact tracks_position ht
  | sysStatus percent => exact tracks_other ht rfl (fun _ _ h => h) rfl rfl rfl rfl
  | gcsFailsafe enabled => exact tracks_other ht rfl (fun _ _ h => h) rfl rfl rfl rfl

theorem tracks_track : ∀ events : List VehicleEvent, Tracks enums events (track enums events)
  | [] => ⟨rfl, rfl, fun _ => ⟨[], .nil _, rfl⟩,
      fun h => by simp [track, VehicleTracker.new, emptySnapshot] at h⟩
  | event :: events => tracks_observe event (tracks_track events)

/-- A verified launch is never touched again. -/
theorem observe_launch (event : VehicleEvent)
    (hv : t.snapshot.launchElevationVerified = true) :
    (t.observe enums event).snapshot.launch = t.snapshot.launch := by
  cases event with
  | position o =>
    simp [VehicleTracker.observe, VehicleTracker.observePosition,
      VehicleTracker.maybeVerifyLaunchElevation, hv, VehicleSnapshot.launch]
  | heartbeat heartbeat => rfl
  | sysStatus percent => rfl
  | gcsFailsafe enabled => rfl

theorem track_launch (hv : (track enums events).snapshot.launchElevationVerified = true) :
    ∀ more : List VehicleEvent,
      (track enums (more ++ events)).snapshot.launch = (track enums events).snapshot.launch
  | [] => rfl
  | event :: more => by
    have ih := track_launch hv more
    have hv' := (congrArg Prod.fst ih).trans hv
    exact (observe_launch event hv').trans ih

end Steps

/-- The constants of a library whose only flight mode is the guided one. -/
def guidedOnly : MavlinkEnums where
  copterModeNames mode := if mode = 4 then some "GUIDED" else none
  guidedMode := 4
  safetyArmed := 128

def disarmedAt (receivedAtMs : ℚ) : VehicleEvent := .heartbeat ⟨1, 1, 81, 4, receivedAtMs⟩

def standingAt (altitudeMslM observedAtMs : ℚ) : VehicleEvent :=
  .position ⟨⟨42, -71, altitudeMslM, 0, 0, observedAtMs⟩, none⟩

/-- A heartbeat and four positions, of which the first is too far off to be used. -/
def standing : List VehicleEvent :=
  [standingAt 101 1400, standingAt 100.75 1300, standingAt 100.5 1200, standingAt 99 1100,
    disarmedAt 1000]

end Atlas.Asset
