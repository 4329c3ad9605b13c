import Atlas.Proofs.FlightTasks

/-!
# How long noise can put off a stalled recovery

Every reset of the stall timer takes something of a potential that depends on the progress alone: a
mode is expected but once, a new peak is half a meter above the last one, and between two peaks each
new trough is half a meter below the last one, as is each new distance. A peak gives back all
troughs, so a peak left weighs as much as all of them and one more.
-/

namespace Atlas.Asset

open Effects

section Potential

/-- How many halves of a meter there are in a length. -/
def halves (length : ℚ) : ℕ := ⌊2 * length⌋₊

theorem halves_mono {x y : ℚ} (h : x ≤ y) : halves x ≤ halves y := by
  refine Nat.floor_le_floor ?_
  linarith

theorem halves_lt {x y : ℚ} (hx : 0 ≤ x) (h : x + 1 / 2 ≤ y) : halves x + 1 ≤ halves y := by
  unfold halves
  rw [← Nat.floor_add_one (by linarith)]
  refine Nat.floor_le_floor ?_
  linarith

theorem halves_eq_zero {x : ℚ} (h : x < 1 / 2) : halves x = 0 := by
  unfold halves
  rw [Nat.floor_eq_zero]
  linarith

/-- Altitudes from a base up to a height above it, and distances from a nearest one on. -/
structure Bounds where
  base : ℚ
  height : ℚ
  nearest : ℚ
  length : ℚ

variable (bounds : Bounds) (modes : List String)

/-- How many modes are still to come. -/
def modesLeft (progress : RecoveryProgress) : ℕ :=
  (modes.length - 1 - progress.expectedModeIndex).toNat

def troughsLeft (progress : RecoveryProgress) : ℕ := halves (progress.lowestAltitudeM - bounds.base)

def peaksLeft (progress : RecoveryProgress) : ℕ :=
  halves (bounds.base + bounds.height - progress.highestAltitudeM)

/-- How often a launch may still come closer, which from outside of the bounds it does once more. -/
def approachesLeft (progress : RecoveryProgress) : ℕ :=
  progress.closestLaunchDistanceM.elim (halves bounds.length + 1) fun closest =>
    min (halves (closest - bounds.nearest)) (halves bounds.length + 1)

/-- What counts for a return only. -/
def returnLeft (returning : Prop) [Decidable returning] (progress : RecoveryProgress) : ℕ :=
  if returning then
    peaksLeft bounds progress * (halves bounds.height + 1) + approachesLeft bounds progress
  else 0

def potential (returning : Prop) [Decidable returning] (progress : RecoveryProgress) : ℕ :=
  modesLeft modes progress + troughsLeft bounds progress + returnLeft bounds returning progress

/-- A step takes at least one of the potential if it progresses, and nothing changes if not. -/
structure Falls (returning : Prop) [Decidable returning] (progress : RecoveryProgress)
    (step : Bool × RecoveryProgress) : Prop where
  fall : step.1 = true →
    potential bounds modes returning step.2 + 1 ≤ potential bounds modes returning progress
  kept : step.1 = false → step.2 = progress

variable {bounds modes} {returning : Prop} [Decidable returning] {progress : RecoveryProgress}

/-- The three parts of `recoveryProgressed`. -/
def progressMode (modeIndex : ℤ) (progress : RecoveryProgress) : Bool × RecoveryProgress :=
  let moded := decide (progress.expectedModeIndex < modeIndex)
  (moded, if moded then { progress with expectedModeIndex := modeIndex } else progress)

def progressAltitude (returning : Prop) [Decidable returning] (altitudeM : ℚ)
    (progress : RecoveryProgress) : Bool × RecoveryProgress :=
  if returning ∧ progress.highestAltitudeM + 1 / 2 ≤ altitudeM then
    (true, { progress with highestAltitudeM := altitudeM, lowestAltitudeM := altitudeM })
  else if altitudeM ≤ progress.lowestAltitudeM - 1 / 2 then
    (true, { progress with lowestAltitudeM := altitudeM })
  else (false, progress)

def progressDistance (returning : Prop) [Decidable returning] (distance : Option ℚ)
    (progress : RecoveryProgress) : Bool × RecoveryProgress :=
  match distance with
  | some distance =>
    if returning ∧
        progress.closestLaunchDistanceM.all (fun closest => distance ≤ closest - 1 / 2) then
      (true, { progress with closestLaunchDistanceM := some distance })
    else (false, progress)
  | none => (false, progress)

theorem Falls.rest : Falls bounds modes returning progress (false, progress) :=
  ⟨nofun, fun _ => rfl⟩

theorem falls_mode {modeIndex : ℤ} (h : modeIndex < modes.length) :
    Falls bounds modes returning progress (progressMode modeIndex progress) := by
  unfold progressMode
  by_cases hmode : progress.expectedModeIndex < modeIndex
  · simp only [hmode, decide_true, if_true]
    refine ⟨fun _ => ?_, nofun⟩
    have hleft : modesLeft modes { progress with expectedModeIndex := modeIndex } + 1 ≤
        modesLeft modes progress := by
      unfold modesLeft
      dsimp only
      omega
    show modesLeft modes { progress with expectedModeIndex := modeIndex } +
      troughsLeft bounds progress + returnLeft bounds returning progress + 1 ≤
      modesLeft modes progress + troughsLeft bounds progress + returnLeft bounds returning progress
    omega
  · simp only [hmode, decide_false, Bool.false_eq_true, if_false]
    exact Falls.rest

theorem falls_altitude {altitudeM : ℚ} (hlow : bounds.base ≤ altitudeM)
    (hhigh : altitudeM ≤ bounds.base + bounds.height) :
    Falls bounds modes returning progress (progressAltitude returning altitudeM progress) := by
  unfold progressAltitude
  split_ifs with hpeak htrough
  · refine ⟨fun _ => ?_, nofun⟩
    obtain ⟨hreturning, hpeak⟩ := hpeak
    have hpeaks :
        halves (bounds.base + bounds.height - altitudeM) + 1 ≤ peaksLeft bounds progress :=
      halves_lt (by linarith) (by linarith)
    -- the peak gives back all troughs, which weigh one less than it
    have htroughs : halves (altitudeM - bounds.base) ≤ halves bounds.height :=
      halves_mono (by linarith)
    have hweight := Nat.mul_le_mul_right (halves bounds.height + 1) hpeaks
    rw [Nat.add_mul, Nat.one_mul] at hweight
    show modesLeft modes progress + halves (altitudeM - bounds.base) + (if returning then
        halves (bounds.base + bounds.height - altitudeM) * (halves bounds.height + 1) +
          approachesLeft bounds progress else 0) + 1 ≤
      modesLeft modes progress + troughsLeft bounds progress + (if returning then _ else 0)
    rw [if_pos hreturning, if_pos hreturning]
    omega
  · refine ⟨fun _ => ?_, nofun⟩
    have htroughs : halves (altitudeM - bounds.base) + 1 ≤ troughsLeft bounds progress :=
      halves_lt (by linarith) (by linarith)
    show modesLeft modes progress + halves (altitudeM - bounds.base) +
      returnLeft bounds returning progress + 1 ≤ modesLeft modes progress +
      troughsLeft bounds progress + returnLeft bounds returning progress
    omega
  · exact Falls.rest

theorem falls_distance {distance : Option ℚ} (hlow : ∀ x ∈ distance, bounds.nearest ≤ x)
    (hhigh : ∀ x ∈ distance, x ≤ bounds.nearest + bounds.length) :
    Falls bounds modes returning progress (progressDistance returning distance progress) := by
  unfold progressDistance
  split
  · rename_i distance
    split_ifs with hcloser
    · refine ⟨fun _ => ?_, nofun⟩
      obtain ⟨hreturning, hcloser⟩ := hcloser
      have hnear := hlow distance rfl
      have hfar := hhigh distance rfl
      have hlength : halves (distance - bounds.nearest) ≤ halves bounds.length :=
        halves_mono (by linarith)
      have happroaches :
          min (halves (distance - bounds.nearest)) (halves bounds.length + 1) + 1 ≤
            approachesLeft bounds progress := by
        unfold approachesLeft
        rcases hclosest : progress.closestLaunchDistanceM with _ | closest
        · dsimp only [Option.elim]
          omega
        · rw [hclosest, Option.all_some, decide_eq_true_eq] at hcloser
          have hfall : halves (distance - bounds.nearest) + 1 ≤ halves (closest - bounds.nearest) :=
            halves_lt (by linarith) (by linarith)
          dsimp only [Option.elim]
          omega
      show modesLeft modes progress + troughsLeft bounds progress + (if returning then
          peaksLeft bounds progress * (halves bounds.height + 1) +
            min (halves (distance - bounds.nearest)) (halves bounds.length + 1) else 0) + 1 ≤
        modesLeft modes progress + troughsLeft bounds progress + (if returning then _ else 0)
      rw [if_pos hreturning, if_pos hreturning]
      omega
    · exact Falls.rest
  · exact Falls.rest

theorem Falls.le {step : Bool × RecoveryProgress} (h : Falls bounds modes returning progress step) :
    potential bounds modes returning step.2 ≤ potential bounds modes returning progress := by
  rcases hstep : step.1 with _ | _
  · rw [h.kept hstep]
  · exact Nat.le_of_succ_le (h.fall hstep)

theorem Falls.and {step step' : Bool × RecoveryProgress}
    (h : Falls bounds modes returning progress step)
    (h' : Falls bounds modes returning step.2 step') :
    Falls bounds modes returning progress (step.1 || step'.1, step'.2) := by
  refine ⟨fun hor => ?_, fun hnot => ?_⟩
  · rcases Bool.or_eq_true_iff.1 hor with hstep | hstep
    · exact (Nat.succ_le_succ h'.le).trans (h.fall hstep)
    · exact (h'.fall hstep).trans h.le
  · rw [Bool.or_eq_false_iff] at hnot
    exact (h'.kept hnot.2).trans (h.kept hnot.1)

end Potential

section Advance

variable {host : Host} {config : AssetConfig} {bounds : Bounds}

/-- The altitude and the distance to the launch are within the bounds. -/
structure Bounds.Hold (host : Host) (bounds : Bounds) (snapshot : VehicleSnapshot) : Prop where
  altitude : ∀ o ∈ snapshot.observation,
    bounds.base ≤ o.altitudeMslM ∧ o.altitudeMslM ≤ bounds.base + bounds.height
  distance : ∀ x ∈ launchDistanceM host snapshot,
    bounds.nearest ≤ x ∧ x ≤ bounds.nearest + bounds.length

theorem indexOf_lt {modes : List String} (mode : String) (h : modes ≠ []) :
    indexOf modes mode < modes.length := by
  unfold indexOf
  split_ifs with hmem
  · exact_mod_cast List.idxOf_lt_length_of_mem hmem
  · have := List.length_pos_of_ne_nil h
    omega

theorem recoveryProgressed_some (host : Host) {active : ActiveExecution}
    {snapshot : VehicleSnapshot} {progress : RecoveryProgress} {observation : VehicleObservation}
    (hprogress : active.recoveryProgress = some progress)
    (hobservation : snapshot.observation = some observation) :
    ∃ moded climbed approached : Bool × RecoveryProgress,
      progressMode (indexOf active.expectedModes snapshot.mode) progress = moded ∧
      progressAltitude (active.task.command = "flight.return_to_launch") observation.altitudeMslM
        moded.2 = climbed ∧
      progressDistance (active.task.command = "flight.return_to_launch")
        (launchDistanceM host snapshot) climbed.2 = approached ∧
      recoveryProgressed host active snapshot = (moded.1 || climbed.1 || approached.1,
        { active with recoveryProgress := some approached.2 }) := by
  refine ⟨_, _, _, rfl, rfl, rfl, ?_⟩
  unfold recoveryProgressed progressMode progressAltitude progressDistance
  rewrite [hprogress, hobservation]
  rfl

/-- What is left of the potential of an execution. -/
def ActiveExecution.left (bounds : Bounds) (active : ActiveExecution) : ℕ :=
  active.recoveryProgress.elim 0
    (potential bounds active.expectedModes (active.task.command = "flight.return_to_launch"))

/-- A return or a landing, with the modes it is to go through. -/
structure ActiveExecution.Recovers (active : ActiveExecution) : Prop where
  command : active.task.command = "flight.return_to_launch" ∨ active.task.command = "flight.land"
  modes : active.expectedModes = expectedModesFor active.task.command

theorem ActiveExecution.Recovers.remaining {active : ActiveExecution} (h : active.Recovers)
    (snapshot : VehicleSnapshot) : remaining host active.task snapshot = none := by
  unfold Asset.remaining
  rcases snapshot.observation with _ | observation
  · rfl
  · rcases h.command with hcommand | hcommand
    · rw [hcommand]
      rfl
    · rw [hcommand]
      rfl

theorem ActiveExecution.Recovers.modes_ne_nil {active : ActiveExecution} (h : active.Recovers) :
    active.expectedModes ≠ [] := by
  rw [h.modes]
  unfold expectedModesFor
  split_ifs <;> exact List.cons_ne_nil _ _

/-- What an advance call leaves of an execution that goes on. -/
structure Continues (bounds : Bounds) (active active' : ActiveExecution) (progressed : Bool) :
    Prop where
  task_eq : active'.task = active.task
  modes_eq : active'.expectedModes = active.expectedModes
  left_le : active'.left bounds + (if progressed then 1 else 0) ≤ active.left bounds

theorem Continues.same {active active' active'' : ActiveExecution} {progressed : Bool}
    (h : Continues bounds active active' progressed) (htask : active''.task = active'.task)
    (hmodes : active''.expectedModes = active'.expectedModes)
    (hprogress : active''.recoveryProgress = active'.recoveryProgress) :
    Continues bounds active active'' progressed := by
  refine ⟨htask.trans h.task_eq, hmodes.trans h.modes_eq, ?_⟩
  have hleft : active''.left bounds = active'.left bounds := by
    unfold ActiveExecution.left
    rw [hprogress, hmodes, htask]
  rw [hleft]
  exact h.left_le

theorem continues_self (active : ActiveExecution) : Continues bounds active active false :=
  ⟨rfl, rfl, le_rfl⟩

theorem recoveryProgressed_continues {active : ActiveExecution} {snapshot : VehicleSnapshot}
    (hmodes : active.expectedModes ≠ []) (hhold : bounds.Hold host snapshot) :
    Continues bounds active (recoveryProgressed host active snapshot).2
      (recoveryProgressed host active snapshot).1 := by
  rcases hprogress : active.recoveryProgress with _ | progress
  · have hsame : recoveryProgressed host active snapshot = (false, active) := by
      unfold recoveryProgressed
      rw [hprogress]
    rw [hsame]
    exact continues_self active
  · rcases hobservation : snapshot.observation with _ | observation
    · have hsame : recoveryProgressed host active snapshot = (false, active) := by
        unfold recoveryProgressed
        rw [hprogress, hobservation]
      rw [hsame]
      exact continues_self active
    · obtain ⟨moded, climbed, approached, hmoded, hclimbed, happroached, heq⟩ :=
        recoveryProgressed_some host hprogress hobservation
      have haltitude := hhold.altitude observation hobservation
      have hfalls : Falls bounds active.expectedModes
          (active.task.command = "flight.return_to_launch") progress
          (moded.1 || climbed.1 || approached.1, approached.2) := by
        have hmode : Falls bounds active.expectedModes
            (active.task.command = "flight.return_to_launch") progress moded :=
          hmoded ▸ falls_mode (indexOf_lt _ hmodes)
        have hclimb : Falls bounds active.expectedModes
            (active.task.command = "flight.return_to_launch") moded.2 climbed :=
          hclimbed ▸ falls_altitude haltitude.1 haltitude.2
        have happroach : Falls bounds active.expectedModes
            (active.task.command = "flight.return_to_launch") climbed.2 approached :=
          happroached ▸ falls_distance (fun x hx => (hhold.distance x hx).1)
            fun x hx => (hhold.distance x hx).2
        exact (hmode.and hclimb).and happroach
      rw [heq]
      refine ⟨rfl, rfl, ?_⟩
      unfold ActiveExecution.left
      rw [hprogress]
      show potential _ _ _ approached.2 + _ ≤ potential _ _ _ progress
      split_ifs with hprogressed
      · exact hfalls.fall hprogressed
      · exact hfalls.le

theorem noteProgress_continues {active : ActiveExecution} {snapshot : VehicleSnapshot} {nowMs : ℚ}
    (h : active.Recovers)
    (hhold : hasFreshControlTelemetry snapshot nowMs = true → bounds.Hold host snapshot) :
    Continues bounds active (noteProgress host active snapshot nowMs).2
      (noteProgress host active snapshot nowMs).1 := by
  unfold noteProgress
  rw [h.remaining]
  split_ifs with hfresh
  · have hcontinues := recoveryProgressed_continues h.modes_ne_nil (hhold hfresh)
    dsimp only
    split_ifs with hprogressed
    · rw [hprogressed] at hcontinues
      exact hcontinues.same rfl rfl rfl
    · rw [Bool.not_eq_true] at hprogressed
      rw [hprogressed] at hcontinues
      exact hcontinues
  · exact continues_self active

theorem isComplete_keeps (active : ActiveExecution) (snapshot : VehicleSnapshot) (nowMs : ℚ) :
    (isComplete host config active snapshot nowMs).2.expectedModes = active.expectedModes ∧
    (isComplete host config active snapshot nowMs).2.recoveryProgress =
      active.recoveryProgress := by
  unfold isComplete
  split
  · split_ifs
    · split
      · exact ⟨rfl, rfl⟩
      · split_ifs <;> exact ⟨rfl, rfl⟩
    · split <;> exact ⟨rfl, rfl⟩
    all_goals exact ⟨rfl, rfl⟩
  · exact ⟨rfl, rfl⟩

/-- The execution that an advance call leaves if it goes on. -/
def nextExecution (host : Host) (config : AssetConfig) (active : ActiveExecution)
    (snapshot : VehicleSnapshot) (nowMs : ℚ) : ActiveExecution :=
  (isComplete host config (noteProgress host active snapshot nowMs).2 snapshot nowMs).2

theorem nextExecution_continues (config : AssetConfig) {active : ActiveExecution}
    {snapshot : VehicleSnapshot} {nowMs : ℚ}
    (h : active.Recovers)
    (hhold : hasFreshControlTelemetry snapshot nowMs = true → bounds.Hold host snapshot) :
    Continues bounds active (nextExecution host config active snapshot nowMs)
      (noteProgress host active snapshot nowMs).1 := by
  obtain ⟨hmodes, hprogress⟩ :=
    isComplete_keeps (noteProgress host active snapshot nowMs).2 snapshot nowMs
  exact (noteProgress_continues h hhold).same (isComplete_task host config _ _ _) hmodes hprogress

def Session.Inactive (s : Session) : Prop := s.engine.active = none

theorem awaitOutcome_inactive : Maintains Session.Inactive awaitOutcome :=
  fun _ hs => wp_awaitOutcome (fun _ => hs) fun _ => hs

theorem send_inactive (message : MavLinkData) : Maintains Session.Inactive (send message) :=
  .bind (.modify fun _ hs => hs) fun _ => awaitOutcome_inactive

theorem report_inactive (r : Report) : Maintains Session.Inactive (report r) :=
  .bind (.modify fun _ hs => hs) fun _ => .bind awaitOutcome_inactive fun _ =>
    .modify fun _ hs => hs

theorem flushTerminalReport_inactive : Maintains Session.Inactive flushTerminalReport := by
  refine .bind (fun _ hs => hs) fun e => ?_
  split
  · exact .pure ()
  · refine .bind (report_inactive _) fun _ s hs => ?_
    rw [wp_modifyEngine]
    show (if _ then _ else _ : Engine).active = none
    split_ifs
    · exact hs
    · exact hs

theorem recoverFailed_inactive (command : String) (snapshot : VehicleSnapshot) (nowMs : ℚ) :
    Maintains Session.Inactive (recoverFailed config command snapshot nowMs) := by
  have hhold : Maintains Session.Inactive (establishHold config snapshot nowMs) := by
    unfold establishHold
    split
    · exact .pure _
    · exact .ite (fun _ => .pure _) fun _ => .bind (send_inactive _) fun _ =>
        .bind (fun _ hs => hs) fun _ => .pure _
  exact .ite (fun _ => .ite (fun _ => .bind hhold fun _ => .pure _) fun _ =>
    .ite (fun _ => send_inactive _) fun _ => .pure ()) fun _ => .pure ()

/-- A failure leaves no execution. -/
theorem failActive_inactive {s : Session} (code : FailureCode) (message : String)
    (snapshot : VehicleSnapshot) (nowMs : ℚ) :
    wp (failActive config code message snapshot nowMs) (fun _ => Session.Inactive)
      (fun _ => Session.Inactive) s := by
  simp only [failActive, wp_bind, wp_getEngine]
  rcases hactive : s.engine.active with _ | active
  · exact hactive
  · simp only [wp_bind, wp_modifyEngine, wp_owe]
    refine wp_mono (recoverFailed_inactive _ _ _ _ rfl) (fun _ s' hs' => ?_) fun _ _ h => h
    exact flushTerminalReport_inactive s' hs'

/-- No execution, or this one. -/
def Session.Leaves (next : ActiveExecution) (s : Session) : Prop :=
  ∀ active ∈ s.engine.active, active = next

theorem Session.Inactive.leaves {next : ActiveExecution} {s : Session} (h : s.Inactive) :
    s.Leaves next := by
  intro active hmem
  rw [h] at hmem
  cases hmem

theorem advance_leaves {s : Session} {active : ActiveExecution} {snapshot : VehicleSnapshot}
    {nowMs : ℚ} (hactive : s.engine.active = some active) :
    (exec (advance host config snapshot nowMs) s).2.Leaves
      (nextExecution host config active snapshot nowMs) := by
  refine exec_of_wp ?_
  simp only [advance, wp_bind, wp_getEngine, hactive]
  split_ifs with htime
  · exact wp_mono (failActive_inactive _ _ _ _) (fun _ _ h => h.leaves) fun _ _ h => h.leaves
  · exact wp_mono (failActive_inactive _ _ _ _) (fun _ _ h => h.leaves) fun _ _ h => h.leaves
  · simp only [completeActive]
    split_ifs
    · rw [wp_bind, wp_modifyEngine]
      have hreport : Maintains Session.Inactive (reportTerminal
          (.complete (isComplete host config (noteProgress host active snapshot nowMs).2 snapshot
            nowMs).2.task.taskId)) :=
        .bind (.bind (fun _ hs => hs) fun _ => .modify fun _ hs => hs) fun _ =>
          flushTerminalReport_inactive
      exact wp_mono (hreport _ rfl) (fun _ _ h => h.leaves) fun _ _ h => h.leaves
    · rw [wp_modifyEngine]
      rintro active' ⟨⟩
      rfl

end Advance

section Runs

variable (host : Host) (config : AssetConfig)

/-- The advance call resets the stall timer: time is not up, and there is progress. -/
def resetsStall (active : ActiveExecution) (snapshot : VehicleSnapshot) (nowMs : ℚ) : Bool :=
  !(config.taskTimeoutSeconds * 1000 < nowMs - active.startedAtMs)
    && (noteProgress host active snapshot nowMs).1

/-- What is left of an execution after some advance calls with observations within the bounds, and
how many of them have reset the stall timer. In between, the engine takes over what Core knows of
the Task. -/
inductive AdvanceRun (bounds : Bounds) (start : ActiveExecution) :
    Option ActiveExecution → ℕ → Prop
  | start : AdvanceRun bounds start (some start) 0
  | reconcile {active : ActiveExecution} {resets : ℕ} (task : AuthoritativeTask) :
      AdvanceRun bounds start (some active) resets → task.command = active.task.command →
      AdvanceRun bounds start (some { active with task }) resets
  | advance {active : ActiveExecution} {resets : ℕ} (snapshot : VehicleSnapshot) (nowMs : ℚ)
      (s : Session) : AdvanceRun bounds start (some active) resets →
      s.engine.active = some active →
      (hasFreshControlTelemetry snapshot nowMs = true → bounds.Hold host snapshot) →
      AdvanceRun bounds start (exec (advance host config snapshot nowMs) s).2.engine.active
        (resets + if resetsStall host config active snapshot nowMs then 1 else 0)

variable {host config} {bounds : Bounds} {start : ActiveExecution}

/-- The resets are paid for by the potential. -/
theorem AdvanceRun.resets_le {last : Option ActiveExecution} {resets : ℕ}
    (h : AdvanceRun host config bounds start last resets) (hstart : start.Recovers) :
    resets ≤ start.left bounds ∧ ∀ active ∈ last, active.Recovers ∧
      resets + active.left bounds ≤ start.left bounds := by
  induction h with
  | start =>
    refine ⟨Nat.zero_le _, ?_⟩
    rintro active ⟨⟩
    exact ⟨hstart, (Nat.zero_add _).le⟩
  | reconcile task _ hcommand ih =>
    obtain ⟨hrecovers, hleft⟩ := ih.2 _ rfl
    refine ⟨ih.1, ?_⟩
    rintro active ⟨⟩
    refine ⟨⟨hcommand ▸ hrecovers.command, hcommand ▸ hrecovers.modes⟩, ?_⟩
    unfold ActiveExecution.left at hleft ⊢
    dsimp only
    rwa [hcommand]
  | advance snapshot nowMs s _ hactive hhold ih =>
    rename_i active resets _
    obtain ⟨hrecovers, hleft⟩ := ih.2 _ rfl
    have hcontinues := nextExecution_continues config hrecovers hhold
    have hresets : (if resetsStall host config active snapshot nowMs then 1 else 0) ≤
        if (noteProgress host active snapshot nowMs).1 then 1 else 0 := by
      unfold resetsStall
      split_ifs <;> simp_all
    have hle := hcontinues.left_le
    refine ⟨by omega, fun active' hmem => ?_⟩
    obtain rfl := advance_leaves hactive active' hmem
    refine ⟨⟨?_, ?_⟩, by omega⟩
    · rw [hcontinues.task_eq]
      exact hrecovers.command
    · rw [hcontinues.task_eq, hcontinues.modes_eq]
      exact hrecovers.modes

/-- How often the stall timer may be reset: three modes, the peaks and, after each and before the
first, the troughs, and the distances. -/
def resetBound (height length : ℚ) : ℕ :=
  3 + halves height * (halves height + 1) + halves height + (halves length + 1)

theorem le_indexOf (modes : List String) (mode : String) : -1 ≤ indexOf modes mode := by
  unfold indexOf
  split_ifs
  · omega
  · exact le_rfl

/-- The potential at adoption, at an altitude that is the highest and the lowest so far. -/
theorem potential_start {modes : List String} {mode : String} {returning : Prop}
    [Decidable returning] {altitudeM : ℚ} {closest : Option ℚ} (hlow : bounds.base ≤ altitudeM)
    (hhigh : altitudeM ≤ bounds.base + bounds.height) :
    potential bounds modes returning ⟨altitudeM, altitudeM, closest, indexOf modes mode⟩ ≤
      modes.length + halves bounds.height +
        if returning then
          halves bounds.height * (halves bounds.height + 1) + (halves bounds.length + 1)
        else 0 := by
  have hindex := le_indexOf modes mode
  have hmodes : (modes.length - 1 - indexOf modes mode).toNat ≤ modes.length := by
    omega
  have htroughs : halves (altitudeM - bounds.base) ≤ halves bounds.height :=
    halves_mono (by linarith)
  refine Nat.add_le_add (Nat.add_le_add hmodes htroughs) ?_
  unfold returnLeft
  split_ifs
  · have hpeaks : halves (bounds.base + bounds.height - altitudeM) ≤ halves bounds.height :=
      halves_mono (by linarith)
    refine Nat.add_le_add (Nat.mul_le_mul_right _ hpeaks) ?_
    unfold approachesLeft
    rcases closest with _ | closest
    · exact le_rfl
    · exact min_le_right _ _
  · exact le_rfl

theorem left_newExecution {candidate : AuthoritativeTask} {current : ControlState}
    (hstart : ∀ o ∈ current.snapshot.observation,
      bounds.base ≤ o.altitudeMslM ∧ o.altitudeMslM ≤ bounds.base + bounds.height) :
    (newExecution host candidate current).left bounds ≤
      (expectedModesFor candidate.command).length + halves bounds.height +
        if candidate.command = "flight.return_to_launch" then
          halves bounds.height * (halves bounds.height + 1) + (halves bounds.length + 1)
        else 0 := by
  unfold ActiveExecution.left newExecution
  dsimp only
  by_cases hrecovery : candidate.command = "flight.return_to_launch" ∨
    candidate.command = "flight.land"
  · rw [if_pos hrecovery]
    rcases hobservation : current.snapshot.observation with _ | o
    · exact Nat.zero_le _
    · obtain ⟨hlow, hhigh⟩ := hstart o hobservation
      exact potential_start hlow hhigh
  · rw [if_neg hrecovery]
    exact Nat.zero_le _

theorem newExecution_recovers {candidate : AuthoritativeTask} (current : ControlState)
    (hcommand : candidate.command = "flight.return_to_launch" ∨ candidate.command = "flight.land") :
    (newExecution host candidate current).Recovers :=
  ⟨hcommand, rfl⟩

/-- Observations within bounds reset the stall timer of a return or a landing only so often, however
many there are, and those of a landing that stay within less than half a meter only for its
modes. -/
theorem stall_resets_bounded {candidate : AuthoritativeTask} {current : ControlState}
    {last : Option ActiveExecution} {resets : ℕ}
    (hcommand : candidate.command = "flight.return_to_launch" ∨ candidate.command = "flight.land")
    (hstart : ∀ o ∈ current.snapshot.observation,
      bounds.base ≤ o.altitudeMslM ∧ o.altitudeMslM ≤ bounds.base + bounds.height)
    (h : AdvanceRun host config bounds (newExecution host candidate current) last resets) :
    resets ≤ resetBound bounds.height bounds.length ∧
      (candidate.command = "flight.land" → bounds.height < 1 / 2 →
        resets ≤ (expectedModesFor candidate.command).length) := by
  have hresets := (h.resets_le (newExecution_recovers current hcommand)).1.trans
    (left_newExecution hstart)
  have hlength : (expectedModesFor candidate.command).length ≤ 3 := by
    unfold expectedModesFor
    split_ifs <;> decide
  refine ⟨?_, fun hland hheight => ?_⟩
  · unfold resetBound
    split_ifs at hresets <;> omega
  · rw [if_neg (by rw [hland]; decide), halves_eq_zero hheight] at hresets
    exact hresets

def landing : AuthoritativeTask := ⟨"land", "flight.land", .inProgress, none, []⟩

/-- Altitudes from 109 m to 110 m, above the launch. -/
def descent : Bounds := ⟨109, 1, 0, 0⟩

theorem stall_resets_bounded_descent :
    resetsStall flightHost flightConfig (newExecution flightHost landing (flying true 10 0))
      (flying true 9 1000).snapshot 1000 = true ∧ 1 ≤ resetBound 1 0 := by
  have hreset : resetsStall flightHost flightConfig
      (newExecution flightHost landing (flying true 10 0)) (flying true 9 1000).snapshot 1000 =
        true := by
    decide +kernel
  have hrun : AdvanceRun flightHost flightConfig descent
      (newExecution flightHost landing (flying true 10 0)) _ _ :=
    .advance (flying true 9 1000).snapshot 1000
      ⟨{ active := some (newExecution flightHost landing (flying true 10 0)) }, flying true 9 1000,
        fun _ => ⟨flying true 9 1000, .ok ()⟩, 0, [], [], [], [], [], [], [], [], []⟩
      .start rfl fun _ => by
        refine ⟨?_, ?_⟩
        · rintro o ⟨⟩
          decide +kernel
        · rintro x ⟨⟩
          decide +kernel
  rw [hreset, if_pos rfl] at hrun
  have hbounded := stall_resets_bounded (.inr rfl) ?_ hrun
  · exact ⟨hreset, hbounded.1⟩
  · rintro o ⟨⟩
    decide +kernel

end Runs

end Atlas.Asset
