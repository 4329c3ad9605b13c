import Atlas.Asset.TaskEngine

/-!
# Flight commands and authority

A command may be sent only while the latest observed snapshot is Guided with fresh heartbeat and
position. Each sending site checks this of a snapshot it holds, and the checks are sound where that
snapshot is the latest one. Two sites hold an older one: the hold on return to Guided and the
recovery of a failed execution act on the snapshot `ingest` was called with, after the reports that
`ingest` awaits first. `IngestKeepsAuthority` asks that authority outlasts those reports.
-/

namespace Atlas.Asset

open Effects

variable {host : Host} {config : AssetConfig}

section Condition

/-- Whether `observeMode` takes the active execution for taken over. -/
def takesOver (e : Engine) (snapshot : VehicleSnapshot) : Bool :=
  snapshot.customMode ≠ none && e.lastMode ≠ some snapshot.mode &&
    e.active.any fun active =>
      snapshot.mode ∉ active.expectedModes &&
        (e.lastMode.any (· ∈ active.expectedModes) ||
          (e.lastMode = some "GUIDED" && snapshot.mode ≠ "GUIDED"))

/-- The reports an engine owes Core when `ingest` begins. -/
def owedReports (e : Engine) : ℕ := if e.pendingTerminalReport.isSome then 1 else 0

/-- The go-tos a list of Tasks has rejected during a takeoff. -/
def countRejected : List String → List AuthoritativeTask → ℕ
  | _, [] => 0
  | finished, task :: tasks =>
    if task.command = "flight.goto" ∧ task.status.actionable = true ∧ task.taskId ∉ finished then
      countRejected (finished.insert task.taskId) tasks + 1
    else countRejected finished tasks

def gotoRejections (e : Engine) (tasks : List AuthoritativeTask) : ℕ :=
  if e.active.any (·.task.command = "flight.takeoff") then countRejected e.finished tasks else 0

variable (host config)

/-- Whether `advance` fails the execution. -/
def overdue (active : ActiveExecution) (c : ControlState) : Prop :=
  config.taskTimeoutSeconds * 1000 < c.nowMs - active.startedAtMs ∨
    (noteProgress host active c.snapshot c.nowMs).1 = false ∧
      config.progressTimeoutSeconds * 1000 <
        c.nowMs - (noteProgress host active c.snapshot c.nowMs).2.lastProgressAtMs

/-- Whether `advance` fails the execution with a hold or a landing. -/
def correctiveDue (active : ActiveExecution) (c : ControlState) : Prop :=
  overdue host config active c ∧ c.Authority ∧ c.snapshot.armed = true ∧
    (active.task.command = "flight.goto" ∨
      active.task.command = "flight.takeoff" ∧
        ∃ o, c.snapshot.observation = some o ∧ 1 / 2 < |o.relativeAltitudeM|)

/-- If the first `k` awaits succeed, the control state after them has authority. -/
def outlasts (start : ControlState) (script : ℕ → Outcome) (k : ℕ) : Prop :=
  (∀ j < k, (script j).result = .ok ()) → (controlAt start script k).Authority

/-- Authority outlasts the reports that `ingest` awaits before it holds on return to Guided, and
those it awaits before it recovers from a failed execution, where it does either. -/
structure IngestKeepsAuthority (e : Engine) (tasks : List AuthoritativeTask) (start : ControlState)
    (script : ℕ → Outcome) : Prop where
  rehold : e.reholdOnGuided = true → start.Authority → outlasts start script (owedReports e)
  takeover : takesOver e start.snapshot = true → start.Authority →
    outlasts start script (owedReports e + 1)
  corrective : ∀ active, e.active = some active → takesOver e start.snapshot = false →
    correctiveDue host config active start →
    outlasts start script (owedReports e + gotoRejections e tasks)

/-- The condition on a call, on the engine it finds once Core's Tasks are reconciled. -/
def EngineCall.KeepsAuthority (e : Engine) (call : EngineCall) : Prop :=
  match call.method with
  | .ingest tasks =>
    IngestKeepsAuthority host config (reconcileAuthoritative tasks e) tasks call.start call.script
  | _ => True

end Condition

section Sessions

/-- An engine that owes a hold executes nothing. -/
def Engine.Coherent (e : Engine) : Prop :=
  (e.reholdOnGuided = true → e.active = none) ∧
    (e.holdRequiredBeforeMovement = true → e.active = none)

/-- Every message was handed over with authority, and the engine is coherent. -/
def Session.Good (s : Session) : Prop :=
  (∀ h ∈ s.handed, h.control.Authority) ∧ s.engine.Coherent

/-- From `s` to `s'` there were `n` reports, all of them taken, and no command. -/
structure Reported (n : ℕ) (s s' : Session) : Prop where
  start : s'.start = s.start
  script : s'.script = s.script
  handed : s'.handed = s.handed
  awaited : s'.awaited = s.awaited + n
  ok : ∀ j < n, (s.script (s.awaited + j)).result = .ok ()

theorem Reported.refl (s : Session) : Reported 0 s s :=
  ⟨rfl, rfl, rfl, rfl, by simp⟩

theorem Reported.trans {m n : ℕ} {s t u : Session} (h : Reported m s t) (k : Reported n t u) :
    Reported (m + n) s u where
  start := k.start.trans h.start
  script := k.script.trans h.script
  handed := k.handed.trans h.handed
  awaited := by rw [k.awaited, h.awaited, Nat.add_assoc]
  ok := by
    intro j hj
    by_cases hjm : j < m
    · exact h.ok j hjm
    · have := k.ok (j - m) (by omega)
      rwa [h.script, h.awaited, show s.awaited + m + (j - m) = s.awaited + j by omega] at this

/-- Changing the engine reports nothing. -/
theorem Reported.engine {n : ℕ} {s s' : Session} (h : Reported n s s') (e : Engine) :
    Reported n s { s' with engine := e } :=
  ⟨h.start, h.script, h.handed, h.awaited, h.ok⟩

theorem Reported.good {n : ℕ} {s s' : Session} (h : Reported n s s') (hs : s.Good)
    (he : s'.engine.Coherent) : s'.Good :=
  ⟨by rw [h.handed]; exact hs.1, he⟩

/-- What outlasts the reports of a call holds in the latest state after them. -/
theorem Reported.authority {n : ℕ} {s s' : Session} (h : Reported n s s') (h0 : s.awaited = 0)
    (ho : outlasts s.start s.script n) : s'.latest.Authority := by
  have hok : ∀ j < n, (s.script j).result = .ok () := by
    intro j hj
    simpa [h0] using h.ok j hj
  simpa [Session.latest, h.start, h.script, h.awaited, h0] using ho hok

variable {Q : Unit → Session → Prop} {E : String → Session → Prop} {s : Session}

@[simp]
theorem wp_getEngine {Q : Engine → Session → Prop} : wp getEngine Q E s ↔ Q s.engine s := Iff.rfl

@[simp]
theorem wp_modifyEngine {f : Engine → Engine} :
    wp (modifyEngine f) Q E s ↔ Q () { s with engine := f s.engine } := Iff.rfl

@[simp]
theorem wp_note {mark : Mark} :
    wp (note mark) Q E s ↔ Q () { s with marks := s.marks ++ [mark] } := Iff.rfl

@[simp]
theorem wp_owe {pending : PendingTerminalReport} :
    wp (owe pending) Q E s ↔ Q () { s with
      engine := { s.engine with pendingTerminalReport := some pending }
      owed := s.owed ++ [pending] } := Iff.rfl

@[simp]
theorem wp_getControlState {Q : ControlState → Session → Prop} :
    wp getControlState Q E s ↔ Q s.latest s := Iff.rfl

theorem wp_awaitOutcome
    (ok : (s.script s.awaited).result = .ok () →
      Q () { s with awaited := s.awaited + 1, suspended := s.suspended ++ [s.engine] })
    (err : ∀ e, E e { s with awaited := s.awaited + 1, suspended := s.suspended ++ [s.engine] }) :
    wp awaitOutcome Q E s := by
  simp only [awaitOutcome, wp_bind, wp_get, wp_modify]
  split
  · rename_i h
    exact ok h
  · exact err _

/-- A command handed over with authority keeps the session good, sent or not. -/
theorem wp_send {message : MavLinkData} (hs : s.Good) (ha : s.latest.Authority) :
    wp (send message) (fun _ s' => s'.Good ∧ s'.engine = s.engine)
      (fun _ s' => s'.Good ∧ s'.engine = s.engine) s := by
  have hh : ∀ h ∈ s.handed ++ [⟨message, s.latest⟩], h.control.Authority := by
    intro h hm
    rcases List.mem_append.1 hm with hm | hm
    · exact hs.1 h hm
    · rw [List.mem_singleton.1 hm]
      exact ha
  simp only [send, wp_bind, wp_modify]
  exact wp_awaitOutcome (fun _ => ⟨⟨hh, hs.2⟩, rfl⟩) fun _ => ⟨⟨hh, hs.2⟩, rfl⟩

/-- A report that Core takes is awaited and hands nothing over; one it does not take neither. -/
theorem wp_report {r : Report} (hs : s.Good) :
    wp (report r) (fun _ s' => Reported 1 s s' ∧ s'.engine = s.engine)
      (fun _ s' => s'.Good ∧ s'.engine = s.engine) s := by
  simp only [report, wp_bind, wp_modify]
  refine wp_awaitOutcome (fun hok => ⟨⟨rfl, rfl, rfl, rfl, ?_⟩, rfl⟩) fun _ => ⟨hs, rfl⟩
  intro j hj
  obtain rfl : j = 0 := by omega
  exact hok

end Sessions

section Reporting

variable {s : Session}

theorem Engine.Coherent.idle {e : Engine} (h : e.active = none) : e.Coherent :=
  ⟨fun _ => h, fun _ => h⟩

theorem flushTerminalReport_wp (hs : s.Good) :
    wp flushTerminalReport
      (fun _ s' => Reported (owedReports s.engine) s s' ∧
        s'.engine = { s.engine with pendingTerminalReport := none })
      (fun _ => Session.Good) s := by
  simp only [flushTerminalReport, wp_bind, wp_getEngine]
  split
  · rename_i hp
    simp only [owedReports, hp, Option.isSome_none, Bool.false_eq_true, if_false, wp_pure]
    refine ⟨.refl s, ?_⟩
    rw [← hp]
  · rename_i pending hp
    simp only [owedReports, hp, Option.isSome_some, if_true, wp_bind]
    refine wp_mono (wp_report hs) ?_ fun _ _ h => h.1
    intro _ s' h
    rw [wp_modifyEngine, h.2, if_pos hp]
    exact ⟨h.1.engine _, rfl⟩

theorem reportTerminal_wp {pending : PendingTerminalReport} (hs : s.Good) :
    wp (reportTerminal pending)
      (fun _ s' => Reported 1 s s' ∧ s'.engine = { s.engine with pendingTerminalReport := none })
      (fun _ => Session.Good) s := by
  simp only [reportTerminal, wp_bind, wp_owe]
  refine wp_mono (flushTerminalReport_wp hs) ?_ fun _ _ h => h
  intro _ s' h
  exact ⟨⟨h.1.start, h.1.script, h.1.handed, h.1.awaited, h.1.ok⟩, h.2⟩

/-- What the engine makes of a takeover: one report, and a hold owed. -/
structure Relinquished (s s' : Session) : Prop where
  reported : Reported 1 s s'
  idle : s'.engine.active = none
  rehold : s'.engine.reholdOnGuided = true

theorem noteTakeover_wp {mode : String} (hs : s.Good) :
    wp (noteTakeover mode)
      (fun _ s' => s'.Good ∧
        ((∃ active, s.engine.active = some active ∧ mode ∉ active.expectedModes) ∧
            Relinquished s s' ∨
          (∀ active, s.engine.active = some active → mode ∈ active.expectedModes) ∧ s' = s))
      (fun _ => Session.Good) s := by
  simp only [noteTakeover, wp_bind, wp_getEngine]
  split
  · rename_i ha
    exact ⟨hs, .inr ⟨by simp [ha], rfl⟩⟩
  · rename_i active ha
    by_cases hm : mode ∈ active.expectedModes
    · rw [if_pos hm]
      exact ⟨hs, .inr ⟨by simp [ha, hm], rfl⟩⟩
    · simp only [hm, if_false, wp_bind, wp_modifyEngine]
      refine wp_mono (reportTerminal_wp ⟨hs.1, .idle rfl⟩) ?_ fun _ _ h => h
      intro _ s' h
      have hr : Reported 1 s s' := ⟨h.1.start, h.1.script, h.1.handed, h.1.awaited, h.1.ok⟩
      have hi : s'.engine.active = none := by rw [h.2]
      exact ⟨hr.good hs (.idle hi), .inl ⟨⟨active, ha, hm⟩, hr, hi, by rw [h.2]⟩⟩

/-- A takeover costs a report and the active execution; any other mode is only remembered. -/
def ModeObserved (snapshot : VehicleSnapshot) (s s' : Session) : Prop :=
  s'.Good ∧
    (takesOver s.engine snapshot = true ∧ Relinquished s s' ∨
      takesOver s.engine snapshot = false ∧ Reported 0 s s' ∧
        ∃ mode, s'.engine = { s.engine with lastMode := mode })

theorem observeMode_wp {snapshot : VehicleSnapshot} (hs : s.Good) :
    wp (observeMode snapshot) (fun _ => ModeObserved snapshot s) (fun _ => Session.Good) s := by
  simp only [observeMode, wp_bind, wp_getEngine]
  split
  · rename_i h
    have ht : takesOver s.engine snapshot = false := by
      rcases h with h | h <;> simp [takesOver, h]
    exact ⟨hs, .inr ⟨ht, .refl s, s.engine.lastMode, rfl⟩⟩
  · rename_i h
    push Not at h
    simp only [wp_bind, wp_modifyEngine]
    set t : Session := { s with engine := { s.engine with lastMode := some snapshot.mode } } with ht
    have hst : Reported 0 s t := (Reported.refl s).engine _
    -- Both tests of the source end in `noteTakeover`, which looks at the mode once more.
    have htaken (hlast : ∀ active, s.engine.active = some active →
          s.engine.lastMode.any (· ∈ active.expectedModes) = true ∨
            s.engine.lastMode = some "GUIDED" ∧ snapshot.mode ≠ "GUIDED") :
        wp (noteTakeover snapshot.mode) (fun _ => ModeObserved snapshot s)
          (fun _ => Session.Good) t := by
      refine wp_mono (noteTakeover_wp (s := t) hs) ?_ fun _ _ h => h
      rintro _ s' ⟨hg, ⟨⟨active, ha, hm⟩, hr⟩ | ⟨hm, rfl⟩⟩
      · refine ⟨hg, .inl ⟨?_, by simpa using hst.trans hr.reported, hr.idle, hr.rehold⟩⟩
        have ha' : s.engine.active = some active := ha
        rcases hlast active ha' with hl | hl
        · simp [takesOver, ha', h.1, h.2, hm, hl]
        · simp [takesOver, ha', h.1, hm, hl.1, hl.2, Ne.symm hl.2]
      · refine ⟨hg, .inr ⟨?_, hst, _, rfl⟩⟩
        rcases ha : s.engine.active with _ | active
        · simp [takesOver, ha]
        · simp [takesOver, ha, hm active ha]
    split_ifs with h1 h2
    · refine htaken fun active ha => .inl ?_
      simp only [ha, Option.any_some, Bool.and_eq_true] at h1
      exact h1.1
    · exact htaken fun _ _ => .inr h2
    · refine ⟨hs, .inr ⟨?_, hst, _, rfl⟩⟩
      rcases ha : s.engine.active with _ | active
      · simp [takesOver, ha]
      · simp only [ha, Option.any_some] at h1
        simp only [takesOver, ha, Option.any_some]
        grind

end Reporting

section Rejections

variable {s : Session}

theorem Engine.Coherent.finish {e : Engine} (h : e.Coherent) (taskId : String) :
    (e.finish taskId).Coherent := h

/-- A Task is turned down with one report, and nothing else of the engine moves. -/
theorem reject_wp {taskId message : String} (hs : s.Good) :
    wp (do
        modifyEngine (Engine.finish taskId)
        reportTerminal (.fail taskId .preconditionFailed message))
      (fun _ s' => Reported 1 s s' ∧
        s'.engine = { s.engine.finish taskId with pendingTerminalReport := none })
      (fun _ => Session.Good) s := by
  simp only [wp_bind, wp_modifyEngine]
  refine wp_mono (reportTerminal_wp ⟨hs.1, hs.2.finish taskId⟩) ?_ fun _ _ h => h
  intro _ s' h
  exact ⟨⟨h.1.start, h.1.script, h.1.handed, h.1.awaited, h.1.ok⟩, h.2⟩

theorem rejectGotoDuringTakeoff_wp {tasks : List AuthoritativeTask} (hs : s.Good) :
    wp (rejectGotoDuringTakeoff tasks)
      (fun _ s' => Reported (gotoRejections s.engine tasks) s s' ∧
        s'.engine.active = s.engine.active ∧
        s'.engine.reholdOnGuided = s.engine.reholdOnGuided ∧
        s'.engine.holdRequiredBeforeMovement = s.engine.holdRequiredBeforeMovement)
      (fun _ => Session.Good) s := by
  simp only [rejectGotoDuringTakeoff, wp_bind, wp_getEngine]
  by_cases ht : s.engine.active.any (·.task.command = "flight.takeoff") = true
  · simp only [gotoRejections, ht, if_true]
    -- The reports so far and those the rest of the list will bring make up the whole count.
    let I : List AuthoritativeTask → Session → Prop := fun rest s' =>
      ∃ n, Reported n s s' ∧
        n + countRejected s'.engine.finished rest = countRejected s.engine.finished tasks ∧
        s'.engine.active = s.engine.active ∧
        s'.engine.reholdOnGuided = s.engine.reholdOnGuided ∧
        s'.engine.holdRequiredBeforeMovement = s.engine.holdRequiredBeforeMovement
    refine wp_mono (wp_forM (I := I) ?_ tasks s ⟨0, .refl s, by simp, rfl, rfl, rfl⟩) ?_
      fun _ _ h => h
    · rintro task rest s' ⟨n, hr, hn, ha, hg, hh⟩
      have hs' : s'.Good := hr.good hs (by
        rw [Engine.Coherent, ha, hg, hh]
        exact hs.2)
      simp only [countRejected] at hn
      simp only [wp_bind, wp_getEngine]
      split_ifs with hc
      · rw [if_pos hc] at hn
        refine wp_mono (reject_wp hs') ?_ fun _ _ h => h
        rintro _ s'' ⟨hr', he⟩
        refine ⟨n + 1, hr.trans hr', ?_, by rw [he]; exact ha, by rw [he]; exact hg,
          by rw [he]; exact hh⟩
        have hf : s''.engine.finished = s'.engine.finished.insert task.taskId := by rw [he]; rfl
        rw [hf]
        omega
      · rw [if_neg hc] at hn
        exact ⟨n, hr, hn, ha, hg, hh⟩
    · rintro _ s' ⟨n, hr, hn, ha, hg, hh⟩
      simp only [countRejected, Nat.add_zero] at hn
      rw [← hn]
      exact ⟨hr, ha, hg, hh⟩
  · simp only [gotoRejections, ht]
    exact ⟨.refl s, rfl, rfl, rfl⟩

theorem rejectPendingOutsideGuided_wp {tasks : List AuthoritativeTask} {snapshot : VehicleSnapshot}
    {nowMs : ℚ} (hs : s.Good) :
    wp (rejectPendingOutsideGuided host config tasks snapshot nowMs) (fun _ => Session.Good)
      (fun _ => Session.Good) s := by
  refine wp_forM (I := fun _ => Session.Good) ?_ tasks s hs
  intro task rest s' hs'
  simp only [wp_bind, wp_getEngine]
  split_ifs with hc
  · exact hs'
  · refine wp_mono (reject_wp hs') ?_ fun _ _ h => h
    rintro _ s'' ⟨hr, he⟩
    exact hr.good hs' (by rw [he]; exact hs'.2)

end Rejections

section Commands

variable {s : Session}

theorem reconcileAuthoritative_coherent (tasks : List AuthoritativeTask) {e : Engine}
    (h : e.Coherent) : (reconcileAuthoritative tasks e).Coherent := by
  have hp : (reconcilePending (taskById tasks) e).Coherent := by
    unfold reconcilePending
    split
    · exact h
    · split_ifs
      · exact h
      · exact h
  have ha : (reconcileActive (taskById tasks) (reconcilePending (taskById tasks) e)).Coherent := by
    generalize reconcilePending (taskById tasks) e = e' at hp
    unfold reconcileActive
    split
    · exact hp
    · rename_i active hact
      split
      · exact hp
      · split_ifs
        · exact .idle rfl
        · refine ⟨fun hr => ?_, fun hh => ?_⟩
          · exact absurd (hp.1 hr) (by simp [hact])
          · exact absurd (hp.2 hh) (by simp [hact])
  unfold reconcileAuthoritative
  refine List.foldlRecOn _ _ ha ?_
  intro e' he' task _
  exact he'.finish task.taskId

/-- The hold is sent under the snapshot's authority, so what is asked of the latest state is that
the snapshot's authority is still its own. -/
theorem establishHold_wp {snapshot : VehicleSnapshot} {nowMs : ℚ} (hs : s.Good)
    (ha : ControlState.Authority ⟨snapshot, nowMs⟩ → s.latest.Authority) :
    wp (establishHold config snapshot nowMs) (fun _ s' => s'.Good ∧ s'.engine = s.engine)
      (fun _ s' => s'.Good ∧ s'.engine = s.engine) s := by
  unfold establishHold
  split
  · exact ⟨hs, rfl⟩
  · split_ifs with hc
    · exact ⟨hs, rfl⟩
    · simp only [not_or, Bool.not_eq_false] at hc
      simp only [wp_bind]
      exact wp_mono (wp_send hs (ha hc)) (fun _ _ h => h) fun _ _ h => h

theorem dispatch_wp {task : AuthoritativeTask} {snapshot : VehicleSnapshot} (hs : s.Good)
    (ha : s.latest.Authority) :
    wp (dispatch config task snapshot) (fun _ s' => s'.Good ∧ s'.engine = s.engine)
      (fun _ s' => s'.Good ∧ s'.engine = s.engine) s := by
  unfold dispatch
  simp only
  split_ifs
  · split
    · exact wp_send hs ha
    · exact ⟨hs, rfl⟩
  · split
    · exact ⟨hs, rfl⟩
    · exact wp_send hs ha
  · exact wp_send hs ha
  · exact wp_send hs ha
  · exact ⟨hs, rfl⟩

/-- A Task with no problem is one the aircraft may be commanded for. -/
theorem authority_of_preconditions {task : AuthoritativeTask} {snapshot : VehicleSnapshot} {nowMs : ℚ}
    (h : (preconditions host config task snapshot nowMs).isEmpty = true) :
    ControlState.Authority ⟨snapshot, nowMs⟩ := by
  simp only [preconditions, List.isEmpty_iff, List.append_eq_nil_iff] at h
  obtain ⟨⟨⟨⟨⟨⟨hg, -⟩, hf⟩, -⟩, -⟩, -⟩, -⟩ := h
  constructor
  · by_contra hn
    simp [hn] at hg
  · by_contra hn
    simp [hn] at hf

theorem recoverFailed_wp {command : String} {snapshot : VehicleSnapshot} {nowMs : ℚ} (hs : s.Good)
    (ha : ControlState.Authority ⟨snapshot, nowMs⟩ → snapshot.armed = true →
      (command = "flight.goto" ∨ command = "flight.takeoff" ∧
        ∃ o, snapshot.observation = some o ∧ 1 / 2 < |o.relativeAltitudeM|) → s.latest.Authority) :
    wp (recoverFailed config command snapshot nowMs) (fun _ s' => s'.Good ∧ s'.engine = s.engine)
      (fun _ s' => s'.Good ∧ s'.engine = s.engine) s := by
  unfold recoverFailed
  split_ifs with hc hgoto hup
  · obtain ⟨-, hguided, harmed, hfresh⟩ := hc
    simp only [wp_bind]
    refine wp_mono (establishHold_wp hs fun h => ha h harmed (.inl hgoto)) ?_ fun _ _ h => h
    intro _ s' h
    exact h
  · obtain ⟨hcommand, hguided, harmed, hfresh⟩ := hc
    refine wp_send hs (ha ⟨hguided, hfresh⟩ harmed (.inr ⟨hcommand.resolve_left hgoto, ?_⟩))
    rcases ho : snapshot.observation with _ | o
    · simp [ho] at hup
    · exact ⟨o, rfl, by simpa [ho] using hup⟩
  · exact ⟨hs, rfl⟩
  · exact ⟨hs, rfl⟩

theorem failActive_wp {code : FailureCode} {message : String} {c : ControlState}
    (hs : s.Good) (hc : ∀ active, s.engine.active = some active → c.Authority →
      c.snapshot.armed = true →
      (active.task.command = "flight.goto" ∨ active.task.command = "flight.takeoff" ∧
        ∃ o, c.snapshot.observation = some o ∧ 1 / 2 < |o.relativeAltitudeM|) →
      s.latest.Authority) :
    wp (failActive config code message c.snapshot c.nowMs) (fun _ => Session.Good)
      (fun _ => Session.Good) s := by
  simp only [failActive, wp_bind, wp_getEngine]
  split
  · exact hs
  · rename_i active ha
    simp only [wp_bind, wp_modifyEngine, wp_owe]
    refine wp_mono (recoverFailed_wp ⟨hs.1, .idle rfl⟩ (hc active ha)) ?_ fun _ _ h => h.1
    rintro _ s' ⟨hs', he⟩
    refine wp_mono (flushTerminalReport_wp hs') ?_ fun _ _ h => h
    rintro _ s'' ⟨hr, he'⟩
    exact hr.good hs' (.idle (by rw [he', he]))

theorem completeActive_wp {active : ActiveExecution} {snapshot : VehicleSnapshot} {nowMs : ℚ}
    (hs : s.Good) (hrehold : s.engine.reholdOnGuided = false)
    (hhold : s.engine.holdRequiredBeforeMovement = false) :
    wp (completeActive host config active snapshot nowMs) (fun _ => Session.Good)
      (fun _ => Session.Good) s := by
  simp only [completeActive]
  split_ifs
  · simp only [wp_bind, wp_modifyEngine]
    refine wp_mono (reportTerminal_wp ⟨hs.1, .idle rfl⟩) ?_ fun _ _ h => h
    rintro _ s' ⟨hr, he⟩
    exact hr.good ⟨hs.1, .idle rfl⟩ (.idle (by rw [he]))
  · simp only [wp_modifyEngine]
    refine ⟨hs.1, fun h => ?_, fun h => ?_⟩
    · simp [hrehold] at h
    · simp [hhold] at h

theorem advance_wp {c : ControlState} (hs : s.Good) (hrehold : s.engine.reholdOnGuided = false)
    (hhold : s.engine.holdRequiredBeforeMovement = false)
    (hc : ∀ active, s.engine.active = some active → correctiveDue host config active c →
      s.latest.Authority) :
    wp (advance host config c.snapshot c.nowMs) (fun _ => Session.Good) (fun _ => Session.Good) s := by
  simp only [advance, wp_bind, wp_getEngine]
  split
  · exact hs
  · rename_i active ha
    have hfail (hdue : overdue host config active c) (message : String) :
        wp (failActive config .executionFailed message c.snapshot c.nowMs) (fun _ => Session.Good)
          (fun _ => Session.Good) s := by
      refine failActive_wp hs ?_
      intro active' ha' hauth harmed hcommand
      obtain rfl : active' = active := by simpa [ha] using ha'.symm
      exact hc active' ha ⟨hdue, hauth, harmed, hcommand⟩
    split_ifs with hlate hstalled
    · exact hfail (.inl hlate) _
    · exact hfail (.inr hstalled) _
    · exact completeActive_wp hs hrehold hhold

/-- An execution's progress time moves only when it progresses. -/
theorem noteProgress_lastProgressAtMs {active : ActiveExecution} {snapshot : VehicleSnapshot}
    {nowMs : ℚ} (h : (noteProgress host active snapshot nowMs).1 = false) :
    (noteProgress host active snapshot nowMs).2.lastProgressAtMs = active.lastProgressAtMs := by
  have hrec : (recoveryProgressed host active snapshot).2.lastProgressAtMs =
      active.lastProgressAtMs := by
    unfold recoveryProgressed
    split <;> rfl
  unfold noteProgress at h ⊢
  split_ifs at h ⊢
  · split at h
    · split_ifs at h ⊢ with hcloser
      rcases hp : recoveryProgressed host active snapshot with ⟨progressed, active'⟩
      rw [hp] at h hrec
      cases progressed
      · exact hrec
      · simp at h
    · rcases hp : recoveryProgressed host active snapshot with ⟨progressed, active'⟩
      rw [hp] at h hrec
      cases progressed
      · exact hrec
      · simp at h
  · rfl

/-- An execution that has just begun is not overdue. -/
theorem not_overdue_newExecution (candidate : AuthoritativeTask) (c : ControlState) :
    ¬ overdue host config (newExecution host candidate c) c := by
  have hstart : (newExecution host candidate c).startedAtMs = c.nowMs := rfl
  have hlast : (newExecution host candidate c).lastProgressAtMs = c.nowMs := rfl
  have h1 := config.taskTimeout_ge
  have h2 := config.progressTimeout_ge
  rintro (h | ⟨hp, h⟩)
  · rw [hstart] at h
    linarith
  · rw [noteProgress_lastProgressAtMs hp, hlast] at h
    linarith

end Commands

section Ingest

variable {s : Session}

/-- What adopting a Task leaves: nothing active, or the execution begun in the control state that
`adoptNext` returns. -/
def Adopted (host : Host) (r : Option ControlState) (s' : Session) : Prop :=
  s'.Good ∧ s'.engine.reholdOnGuided = false ∧ s'.engine.holdRequiredBeforeMovement = false ∧
    ∀ active, s'.engine.active = some active →
      ∃ candidate c, r = some c ∧ active = newExecution host candidate c

theorem rejectCandidate_wp {candidate : AuthoritativeTask} {problems : List String} (hs : s.Good) :
    wp (rejectCandidate candidate problems)
      (fun _ s' => s'.Good ∧ s'.engine.active = s.engine.active ∧
        s'.engine.reholdOnGuided = s.engine.reholdOnGuided ∧
        s'.engine.holdRequiredBeforeMovement = s.engine.holdRequiredBeforeMovement)
      (fun _ => Session.Good) s := by
  refine wp_mono (reject_wp hs) ?_ fun _ _ h => h
  rintro _ s' ⟨hr, he⟩
  exact ⟨hr.good hs (by rw [he]; exact hs.2), by rw [he]; rfl, by rw [he]; rfl, by rw [he]; rfl⟩

theorem executeCandidate_wp {candidate : AuthoritativeTask} (hs : s.Good)
    (hidle : s.engine.active = none) (hrehold : s.engine.reholdOnGuided = false)
    (hhold : s.engine.holdRequiredBeforeMovement = false) :
    wp (executeCandidate host config candidate) (fun c => Adopted host (some c))
      (fun _ => Session.Good) s := by
  simp only [executeCandidate, wp_bind, wp_modify, wp_getControlState]
  split_ifs with hp
  · have hauth : s.latest.Authority := authority_of_preconditions hp
    simp only [wp_bind, wp_modifyEngine, wp_modify, wp_note, wp_tryCatch]
    have hactive : Session.Good
        { s with engine := { s.engine with active := some (newExecution host candidate s.latest) } } :=
      ⟨hs.1, fun h => by simp [hrehold] at h, fun h => by simp [hhold] at h⟩
    refine wp_mono (dispatch_wp hactive hauth) ?_ ?_
    · rintro _ s' ⟨hs', he⟩
      refine ⟨hs', by rw [he]; exact hrehold, by rw [he]; exact hhold, ?_⟩
      intro active ha
      rw [he] at ha
      exact ⟨candidate, s.latest, rfl, (Option.some.inj ha).symm⟩
    · rintro message s' ⟨hs', he⟩
      refine wp_mono (reportTerminal_wp ⟨hs'.1, .idle rfl⟩) ?_ fun _ _ h => h
      rintro _ s'' ⟨hr, he'⟩
      have hi : s''.engine.active = none := by rw [he']
      refine ⟨hr.good ⟨hs'.1, .idle rfl⟩ (.idle hi), ?_, ?_, by simp [hi]⟩
      · rw [he']
        show s'.engine.reholdOnGuided = false
        rw [he]
        exact hrehold
      · rw [he']
        show s'.engine.holdRequiredBeforeMovement = false
        rw [he]
        exact hhold
  · simp only [wp_bind]
    refine wp_mono (rejectCandidate_wp hs) ?_ fun _ _ h => h
    rintro _ s' ⟨hs', ha, hr, hh⟩
    exact ⟨hs', hr.trans hrehold, hh.trans hhold, by simp [ha, hidle]⟩

theorem adoptNext_wp {tasks : List AuthoritativeTask} {c : ControlState} (hs : s.Good)
    (hidle : s.engine.active = none) (hrehold : s.engine.reholdOnGuided = false)
    (hhold : s.engine.holdRequiredBeforeMovement = false) :
    wp (adoptNext host config tasks c.snapshot c.nowMs) (Adopted host) (fun _ => Session.Good) s := by
  simp only [adoptNext, wp_bind, wp_getEngine]
  split
  · exact ⟨hs, hrehold, hhold, by simp [hidle]⟩
  · rename_i candidate _
    split_ifs with hp
    · simp only [wp_bind, wp_modify, wp_tryCatch]
      refine wp_mono (wp_report hs) ?_ fun _ s' h => ?_
      · rintro _ s' ⟨hr, he⟩
        rw [wp_bind]
        refine executeCandidate_wp (hr.good hs (by rw [he]; exact hs.2)) ?_ ?_ ?_
        · rw [he]
          exact hidle
        · rw [he]
          exact hrehold
        · rw [he]
          exact hhold
      · exact h.1
    · simp only [wp_bind]
      refine wp_mono (rejectCandidate_wp hs) ?_ fun _ _ h => h
      rintro _ s' ⟨hs', ha, hr, hh⟩
      exact ⟨hs', hr.trans hrehold, hh.trans hhold, by simp [ha, hidle]⟩

theorem adoptAndAdvance_wp {tasks : List AuthoritativeTask} {c : ControlState} (hs : s.Good)
    (hrehold : s.engine.reholdOnGuided = false)
    (hhold : s.engine.holdRequiredBeforeMovement = false)
    (hc : ∀ active, s.engine.active = some active → correctiveDue host config active c →
      s.latest.Authority) :
    wp (adoptAndAdvance host config tasks c) (fun _ => Session.Good) (fun _ => Session.Good) s := by
  simp only [adoptAndAdvance, wp_bind, wp_getEngine]
  split_ifs with hidle
  · simp only [wp_bind]
    refine wp_mono (adoptNext_wp hs (by simpa using hidle) hrehold hhold) ?_ fun _ _ h => h
    rintro r s' ⟨hs', hr, hh, hnew⟩
    refine advance_wp hs' hr hh ?_
    intro active ha hdue
    obtain ⟨candidate, c', rfl, rfl⟩ := hnew active ha
    exact absurd hdue.1 (not_overdue_newExecution candidate c')
  · exact advance_wp hs hrehold hhold hc

theorem ingestTasks_wp {tasks : List AuthoritativeTask} {c : ControlState} (hs : s.Good)
    (hrehold : s.engine.reholdOnGuided = false)
    (hc : ∀ active s', s.engine.active = some active → correctiveDue host config active c →
      Reported (gotoRejections s.engine tasks) s s' → s'.latest.Authority) :
    wp (ingestTasks host config tasks c) (fun _ => Session.Good) (fun _ => Session.Good) s := by
  rw [ingestTasks, wp_bind]
  refine wp_mono (rejectGotoDuringTakeoff_wp hs) ?_ fun _ _ h => h
  rintro _ s' ⟨hr, ha, hre, hho⟩
  rw [wp_bind, wp_getEngine]
  have hs' : s'.Good := hr.good hs (by
    rw [Engine.Coherent, ha, hre, hho]
    exact hs.2)
  split_ifs with hhold
  · simp only [wp_bind, wp_getControlState]
    -- The cancelled go-to holds in the latest state, and the engine is idle ever after.
    refine wp_mono (establishHold_wp hs' fun h => h) ?_ fun _ _ h => h.1
    rintro sent s'' ⟨hs'', he⟩
    have hi : s''.engine.active = none := by
      rw [he]
      exact hs'.2.2 hhold
    split_ifs
    · simp only [wp_bind, wp_getControlState, wp_modifyEngine]
      refine adoptAndAdvance_wp ⟨hs''.1, .idle hi⟩ ?_ rfl ?_
      · show s''.engine.reholdOnGuided = false
        rw [he, hre]
        exact hrehold
      · intro active ha'
        exact absurd (hi.symm.trans ha') (by simp)
    · exact hs''
  · refine adoptAndAdvance_wp hs' (hre.trans hrehold) (by simpa using hhold) ?_
    intro active ha' hdue
    exact hc active s' (ha ▸ ha') hdue hr

theorem ingest_wp {tasks : List AuthoritativeTask} (hs : s.Good) (h0 : s.awaited = 0)
    (hc : IngestKeepsAuthority host config (reconcileAuthoritative tasks s.engine) tasks s.start
      s.script) :
    wp (ingest host config tasks s.start.snapshot s.start.nowMs) (fun _ => Session.Good)
      (fun _ => Session.Good) s := by
  simp only [ingest, wp_bind, wp_modifyEngine]
  set e := reconcileAuthoritative tasks s.engine with he
  set s₀ : Session := { s with engine := e } with hs₀
  have hgood : s₀.Good := ⟨hs.1, reconcileAuthoritative_coherent tasks hs.2⟩
  refine wp_mono (flushTerminalReport_wp hgood) ?_ fun _ _ h => h
  rintro _ s₁ ⟨hr₁, he₁⟩
  rw [wp_bind]
  have hgood₁ : s₁.Good := hr₁.good hgood (by rw [he₁]; exact hgood.2)
  refine wp_mono (observeMode_wp hgood₁) ?_ fun _ _ h => h
  rintro _ s₂ ⟨hgood₂, hmode⟩
  rw [wp_bind, wp_getEngine]
  have htake : takesOver s₁.engine s.start.snapshot = takesOver e s.start.snapshot := by
    rw [he₁]
    rfl
  rw [htake] at hmode
  -- Whichever way the hold came to be owed, authority outlasts the reports before it.
  have hlatest (hre : s₂.engine.reholdOnGuided = true) (hauth : s.start.Authority) :
      s₂.latest.Authority := by
    rcases hmode with ⟨ht, hrel⟩ | ⟨-, hr₂, m, he₂⟩
    · exact (hr₁.trans hrel.reported).authority h0 (hc.takeover ht hauth)
    · rw [he₂, he₁] at hre
      simpa using (hr₁.trans hr₂).authority h0 (hc.rehold hre hauth)
  split_ifs with hre hguided
  · simp only [wp_bind]
    refine wp_mono (establishHold_wp hgood₂ (hlatest hre)) ?_ fun _ _ h => h.1
    rintro sent s₃ ⟨hgood₃, he₃⟩
    have hi : s₃.engine.active = none := by
      rw [he₃]
      exact hgood₂.2.1 hre
    split_ifs
    · simp only [wp_bind, wp_getControlState, wp_modifyEngine]
      refine ingestTasks_wp ⟨hgood₃.1, .idle hi⟩ rfl ?_
      intro active s' ha
      exact absurd (hi.symm.trans ha) (by simp)
    · exact hgood₃
  · exact rejectPendingOutsideGuided_wp hgood₂
  · refine ingestTasks_wp hgood₂ (by simpa using hre) ?_
    intro active s' ha hdue hr
    rcases hmode with ⟨-, hrel⟩ | ⟨ht, hr₂, m, he₂⟩
    · exact absurd hrel.rehold hre
    · have ha' : e.active = some active := by
        rw [he₂, he₁] at ha
        exact ha
      have hcount : gotoRejections s₂.engine tasks = gotoRejections e tasks := by
        rw [he₂, he₁]
        rfl
      rw [hcount] at hr
      have hall := (hr₁.trans hr₂).trans hr
      rw [Nat.add_zero] at hall
      exact hall.authority h0 (hc.corrective active ha' ht hdue)

end Ingest

section Runs

theorem noteGuidedReturn_wp {s : Session} (hs : s.Good) (h0 : s.awaited = 0) :
    wp (noteGuidedReturn config s.start.snapshot s.start.nowMs) (fun _ => Session.Good)
      (fun _ => Session.Good) s := by
  have hlatest : s.start.Authority → s.latest.Authority := by
    intro h
    simpa [Session.latest, h0, controlAt] using h
  simp only [noteGuidedReturn, wp_bind, wp_getEngine]
  split_ifs with hre
  · simp only [wp_bind]
    refine wp_mono (establishHold_wp hs hlatest) ?_ fun _ _ h => h.1
    rintro sent s' ⟨hs', he⟩
    split_ifs
    · rw [wp_modifyEngine, he]
      exact ⟨hs'.1, .idle (hs.2.1 hre)⟩
    · exact hs'
  · exact hs

theorem abandonActiveForRecovery_wp {s : Session} {reholdOnGuided : Bool} (hs : s.Good) :
    wp (abandonActiveForRecovery reholdOnGuided) (fun _ => Session.Good) (fun _ => Session.Good)
      s := by
  simp only [abandonActiveForRecovery, wp_bind, wp_modifyEngine, wp_getEngine]
  split
  · rename_i ha
    exact ⟨hs.1, .idle ha⟩
  · exact ⟨hs.1, .idle rfl⟩

/-- A call on a coherent engine that keeps authority hands over only with authority. -/
theorem EngineCall.session_good {e : Engine} (he : e.Coherent) (call : EngineCall)
    (hc : call.KeepsAuthority host config e) : (call.session host config e).Good := by
  have hgood : (call.opening e).Good := ⟨by simp [EngineCall.opening], he⟩
  have hwp : wp (call.proc host config) (fun _ => Session.Good) (fun _ => Session.Good)
      (call.opening e) := by
    rcases call with ⟨method, start, script⟩
    cases method with
    | ingest tasks => exact ingest_wp (s := (EngineCall.opening ⟨_, start, script⟩ e)) hgood rfl hc
    | noteTakeover mode => exact wp_mono (noteTakeover_wp hgood) (fun _ _ h => h.1) fun _ _ h => h
    | noteGuidedReturn =>
      exact noteGuidedReturn_wp (s := EngineCall.opening ⟨_, start, script⟩ e) hgood rfl
    | abandonActiveForRecovery reholdOnGuided =>
      unfold EngineCall.proc
      rw [wp_bind]
      exact abandonActiveForRecovery_wp hgood
  exact exec_of_wp hwp

theorem EngineRun.good {e : Engine} {handed : List HandOver}
    (run : EngineRun host config (fun e call => call.KeepsAuthority host config e) e handed) :
    e.Coherent ∧ ∀ h ∈ handed, h.control.Authority := by
  induction run with
  | new => exact ⟨.idle rfl, by simp⟩
  | call call _ guard ih =>
    obtain ⟨he, hh⟩ := ih
    have hgood := call.session_good he guard
    refine ⟨hgood.2, fun h hm => ?_⟩
    rcases List.mem_append.1 hm with hm | hm
    · exact hh h hm
    · exact hgood.1 h hm

/-- In a run whose `ingest` calls keep authority over the reports they await before acting on the
snapshot they were given, every command is handed over while the latest observed snapshot is Guided
with fresh heartbeat and position. -/
theorem commands_sent_with_authority {e : Engine} {handed : List HandOver}
    (run : EngineRun host config (fun e call => call.KeepsAuthority host config e) e handed) :
    ∀ h ∈ handed, h.control.Authority :=
  run.good.2

/-- Authority that no await takes away outlasts any number of reports. -/
theorem IngestKeepsAuthority.of_steady {e : Engine} {tasks : List AuthoritativeTask}
    {start : ControlState} {script : ℕ → Outcome} (hs : start.Authority)
    (h : ∀ j, (script j).control.Authority) :
    IngestKeepsAuthority host config e tasks start script := by
  have hall (k : ℕ) : outlasts start script k := by
    intro _
    cases k with
    | zero => exact hs
    | succ k => exact h k
  exact ⟨fun _ _ => hall _, fun _ _ => hall _, fun _ _ _ _ => hall _⟩

def flightHost : Host where
  haversineM lat1 lon1 lat2 lon2 := 111195 * (|lat2 - lat1| + |lon2 - lon1|)
  numberText := toString

def flightConfig : AssetConfig where
  vehicleSystemId := 1
  vehicleComponentId := 1
  arrivalRadiusM := 3 / 2
  altitudeToleranceM := 1
  hoverSettleSeconds := 3
  progressTimeoutSeconds := 30
  taskTimeoutSeconds := 300
  minBatteryPercent := 20
  progressTimeout_ge := by norm_num
  taskTimeout_ge := by norm_num

/-- An armed aircraft seen at this very time, at a height above its launch. -/
def flying (guided : Bool) (relativeAltitudeM nowMs : ℚ) : ControlState where
  snapshot :=
    { identity := some ⟨1, 1⟩
      armed := true
      mode := if guided then "GUIDED" else "LOITER"
      customMode := some (if guided then 4 else 5)
      guided := guided
      observation := some ⟨47, 8, 100 + relativeAltitudeM, relativeAltitudeM, 0, nowMs⟩
      lastHeartbeatMs := some nowMs
      batteryRemainingPercent := some 80
      launchElevationM := some 100
      launchLatitudeDeg := some 47
      launchLongitudeDeg := some 8
      launchElevationVerified := true }
  nowMs := nowMs

/-- A takeoff to 110 m above sea level, begun on the ground. -/
def takeoffCall : EngineCall where
  method := .ingest
    [⟨"takeoff", "flight.takeoff", .pending, none, [("altitude_m", .number 110)]⟩]
  start := flying true 0 0
  script _ := ⟨flying true 0 0, .ok ()⟩

/-- A go-to that arrives when the takeoff has run out of time at 5 m; while Core takes its
rejection, the aircraft stays in Guided or leaves it. -/
def timeoutCall (staysGuided : Bool) : EngineCall where
  method := .ingest [⟨"goto", "flight.goto", .pending, none, []⟩]
  start := flying true 5 301000
  script _ := ⟨flying staysGuided 5 301000, .ok ()⟩

theorem commands_sent_with_authority_timeout :
    (∀ h ∈ (takeoffCall.session flightHost flightConfig {}).handed ++
      ((timeoutCall true).session flightHost flightConfig
        (takeoffCall.session flightHost flightConfig {}).engine).handed, h.control.Authority) ∧
    ((timeoutCall true).session flightHost flightConfig
      (takeoffCall.session flightHost flightConfig {}).engine).handed.map (·.message) =
        [landCommand 1 1] := by
  refine ⟨commands_sent_with_authority
    (.call (timeoutCall true) (.call takeoffCall .new ?_) ?_), by decide +kernel⟩
  · have steady : (flying true 0 0).Authority := by decide +kernel
    exact .of_steady steady fun _ => steady
  · have steady : (flying true 5 301000).Authority := by decide +kernel
    exact .of_steady steady fun _ => steady

/-- The landing of the timed-out takeoff is sent after the aircraft was seen to leave Guided. -/
theorem command_sent_without_authority :
    ¬ ∀ (host : Host) (config : AssetConfig) (e : Engine) (handed : List HandOver),
      EngineRun host config (fun _ _ => True) e handed → ∀ h ∈ handed, h.control.Authority := by
  intro hall
  have run : EngineRun flightHost flightConfig (fun _ _ => True) _ _ :=
    .call (timeoutCall false) (.call takeoffCall .new trivial) trivial
  have hlost : ∃ h ∈ ([] ++ (takeoffCall.session flightHost flightConfig {}).handed) ++
      ((timeoutCall false).session flightHost flightConfig
        (takeoffCall.session flightHost flightConfig {}).engine).handed, ¬ h.control.Authority := by
    decide +kernel
  obtain ⟨h, hm, hn⟩ := hlost
  exact hn (hall _ _ _ _ run h hm)

end Runs

end Atlas.Asset
