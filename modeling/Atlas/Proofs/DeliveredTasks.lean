import Atlas.Proofs.CoreLossRecovery

/-!
# Only delivered Tasks are held

Whatever Task the engine executes or has an end to report of, and whatever Task a recovery still has
to fail, Core has answered with it before.
-/

namespace Atlas.Asset

open Effects

section Engines

variable {host : Host} {config : AssetConfig}

/-- The Tasks the engine holds are among those given. -/
structure Engine.Within (given : String → Prop) (e : Engine) : Prop where
  pending : ∀ r, e.pendingTerminalReport = some r → given r.taskId
  active : ∀ active, e.active = some active → given active.task.taskId

variable {given : String → Prop} {s : Session} {e : Engine}

def Session.Within (given : String → Prop) (s : Session) : Prop := s.engine.Within given

theorem Engine.Within.mono {given' : String → Prop} (h : e.Within given)
    (himp : ∀ taskId, given taskId → given' taskId) : e.Within given' :=
  ⟨fun r hr => himp _ (h.pending r hr), fun active ha => himp _ (h.active active ha)⟩

/-- The engine drops the Task it executes. -/
theorem Engine.Within.drop (h : e.Within given) {e' : Engine} (ha : e'.active = none)
    (hp : e'.pendingTerminalReport = e.pendingTerminalReport) : e'.Within given := by
  refine ⟨fun r hr => h.pending r (hp ▸ hr), fun active hactive => ?_⟩
  rw [ha] at hactive
  cases hactive

theorem modifyEngine_within {f : Engine → Engine}
    (h : ∀ e : Engine, e.Within given → (f e).Within given) :
    Maintains (Session.Within given) (modifyEngine f) := fun s hs => h s.engine hs

theorem finish_within (taskId : String) :
    Maintains (Session.Within given) (modifyEngine (Engine.finish taskId)) :=
  modifyEngine_within fun _ h => ⟨h.pending, h.active⟩

theorem owe_within {pending : PendingTerminalReport} (h : given pending.taskId) :
    Maintains (Session.Within given) (owe pending) := fun _ hs =>
  ⟨fun _ hr => Option.some.inj hr ▸ h, hs.active⟩

theorem getEngine_within : Maintains (Session.Within given) getEngine := fun _ h => h

theorem awaitOutcome_within : Maintains (Session.Within given) awaitOutcome := fun _ hs =>
  wp_awaitOutcome (fun _ => hs) fun _ => hs

theorem send_within (message : MavLinkData) : Maintains (Session.Within given) (send message) :=
  .bind (.modify fun _ hs => hs) fun _ => awaitOutcome_within

theorem report_within (r : Report) : Maintains (Session.Within given) (report r) :=
  .bind (.modify fun _ hs => hs) fun _ => .bind awaitOutcome_within fun _ => .modify fun _ hs => hs

theorem flushTerminalReport_within : Maintains (Session.Within given) flushTerminalReport := by
  refine .bind getEngine_within fun e => ?_
  split
  · exact .pure ()
  · refine .bind (report_within _) fun _ => modifyEngine_within fun e h => ?_
    split_ifs
    · exact ⟨fun _ hr => (by cases hr), h.active⟩
    · exact h

theorem reportTerminal_within {pending : PendingTerminalReport} (h : given pending.taskId) :
    Maintains (Session.Within given) (reportTerminal pending) :=
  .bind (owe_within h) fun _ => flushTerminalReport_within

theorem reject_within {taskId : String} (h : given taskId) (code : FailureCode)
    (message : String) :
    Maintains (Session.Within given) (do
      modifyEngine (Engine.finish taskId)
      reportTerminal (.fail taskId code message)) :=
  .bind (finish_within taskId) fun _ => reportTerminal_within h

theorem noteTakeover_within (mode : String) :
    Maintains (Session.Within given) (noteTakeover mode) := by
  intro s hs
  simp only [noteTakeover, wp_bind, wp_getEngine]
  split
  · exact hs
  · rename_i active ha
    split_ifs
    · exact hs
    · rw [wp_bind, wp_modifyEngine]
      exact reportTerminal_within (hs.active active ha) _ (hs.drop rfl rfl)

theorem observeMode_within (snapshot : VehicleSnapshot) :
    Maintains (Session.Within given) (observeMode snapshot) :=
  .bind getEngine_within fun _ => .ite (fun _ => .pure ()) fun _ =>
    .bind (modifyEngine_within fun _ h => ⟨h.pending, h.active⟩) fun _ =>
      .ite (fun _ => noteTakeover_within _) fun _ => .ite (fun _ => noteTakeover_within _)
        fun _ => .pure ()

variable {tasks : List AuthoritativeTask}

theorem rejectGotoDuringTakeoff_within (htasks : ∀ task ∈ tasks, given task.taskId) :
    Maintains (Session.Within given) (rejectGotoDuringTakeoff tasks) :=
  .bind getEngine_within fun _ => .ite (fun _ => .forM fun task hmem =>
    .bind getEngine_within fun _ => .ite (fun _ => reject_within (htasks task hmem) _ _)
      fun _ => .pure ()) fun _ => .pure ()

theorem rejectPendingOutsideGuided_within (htasks : ∀ task ∈ tasks, given task.taskId)
    (snapshot : VehicleSnapshot) (nowMs : ℚ) :
    Maintains (Session.Within given)
      (rejectPendingOutsideGuided host config tasks snapshot nowMs) :=
  .forM fun task hmem => .bind getEngine_within fun _ => .ite (fun _ => .pure ()) fun _ =>
    reject_within (htasks task hmem) _ _

theorem establishHold_within (snapshot : VehicleSnapshot) (nowMs : ℚ) :
    Maintains (Session.Within given) (establishHold config snapshot nowMs) := by
  unfold establishHold
  split
  · exact .pure _
  · exact .ite (fun _ => .pure _) fun _ => .bind (send_within _) fun _ =>
      .bind (.modify fun _ hs => hs) fun _ => .pure _

theorem recoverFailed_within (command : String) (snapshot : VehicleSnapshot) (nowMs : ℚ) :
    Maintains (Session.Within given) (recoverFailed config command snapshot nowMs) :=
  .ite (fun _ => .ite (fun _ => .bind (establishHold_within _ _) fun _ => .pure ()) fun _ =>
    .ite (fun _ => send_within _) fun _ => .pure ()) fun _ => .pure ()

theorem failActive_within (code : FailureCode) (message : String) (snapshot : VehicleSnapshot)
    (nowMs : ℚ) :
    Maintains (Session.Within given) (failActive config code message snapshot nowMs) := by
  intro s hs
  simp only [failActive, wp_bind, wp_getEngine]
  split
  · exact hs
  · rename_i active ha
    simp only [wp_bind, wp_modifyEngine]
    refine wp_mono (owe_within (hs.active active ha) _ (hs.drop rfl rfl)) ?_ fun _ _ h => h
    intro _ s₁ hs₁
    rw [wp_bind]
    exact wp_mono (recoverFailed_within _ _ _ s₁ hs₁)
      (fun _ s₂ hs₂ => flushTerminalReport_within s₂ hs₂) fun _ _ h => h

theorem advance_within (snapshot : VehicleSnapshot) (nowMs : ℚ) :
    Maintains (Session.Within given) (advance host config snapshot nowMs) := by
  intro s hs
  simp only [advance, wp_bind, wp_getEngine]
  split
  · exact hs
  · rename_i active ha
    have hgiven := hs.active active ha
    split_ifs
    · exact failActive_within _ _ _ _ s hs
    · exact failActive_within _ _ _ _ s hs
    · have htask : (isComplete host config (noteProgress host active snapshot nowMs).2 snapshot
          nowMs).2.task = active.task := (isComplete_task _ _ _ _ _).trans (noteProgress_task _ _ _)
      simp only [completeActive]
      split_ifs
      · rw [wp_bind, wp_modifyEngine]
        refine reportTerminal_within ?_ _ (hs.drop rfl rfl)
        rw [PendingTerminalReport.taskId, htask]
        exact hgiven
      · rw [wp_modifyEngine]
        refine ⟨hs.pending, fun active' ha' => ?_⟩
        rw [← Option.some.inj ha', htask]
        exact hgiven

theorem dispatch_within (task : AuthoritativeTask) (snapshot : VehicleSnapshot) :
    Maintains (Session.Within given) (dispatch config task snapshot) := by
  unfold dispatch
  refine .ite (fun _ => ?_) fun _ => .ite (fun _ => ?_) fun _ => .ite (fun _ => send_within _)
    fun _ => .ite (fun _ => send_within _) fun _ => .pure ()
  · split
    · exact send_within _
    · exact .pure ()
  · split
    · exact .pure ()
    · exact send_within _

theorem executeCandidate_within {candidate : AuthoritativeTask} (h : given candidate.taskId) :
    Maintains (Session.Within given) (executeCandidate host config candidate) := by
  refine .bind (.modify fun _ hs => hs) fun _ => .bind (fun _ hs => hs) fun current =>
    .ite (fun _ => ?_) fun _ => .bind (reject_within h _ _) fun _ => .pure _
  refine .bind (modifyEngine_within fun e he => ⟨he.pending, fun active ha => ?_⟩) fun _ =>
    .bind (.modify fun _ hs => hs) fun _ => .bind (.modify fun _ hs => hs) fun _ =>
      .bind (.tryCatch (dispatch_within _ _) fun _ => ?_) fun _ => .pure _
  · rw [← Option.some.inj ha]
    exact h
  · exact .bind (modifyEngine_within fun _ he => he.drop rfl rfl) fun _ => reportTerminal_within h

theorem adoptNext_within (htasks : ∀ task ∈ tasks, given task.taskId)
    (snapshot : VehicleSnapshot) (nowMs : ℚ) :
    Maintains (Session.Within given) (adoptNext host config tasks snapshot nowMs) := by
  refine .bind getEngine_within fun e => ?_
  split
  · exact .pure _
  · rename_i candidate hfound
    have hgiven := htasks candidate (List.mem_of_find?_eq_some hfound)
    refine .ite (fun _ => ?_) fun _ => .bind (reject_within hgiven _ _) fun _ => .pure _
    refine .bind (.modify fun _ hs => hs) fun _ => .bind (.tryCatch (report_within _) fun _ => ?_)
      fun _ => .bind (executeCandidate_within hgiven) fun _ => .pure _
    exact .bind (finish_within _) fun _ => .bind (owe_within hgiven) fun _ => .throw _

theorem adoptAndAdvance_within (htasks : ∀ task ∈ tasks, given task.taskId)
    (current : ControlState) :
    Maintains (Session.Within given) (adoptAndAdvance host config tasks current) :=
  .bind getEngine_within fun _ => .ite (fun _ => .bind (adoptNext_within htasks _ _) fun _ =>
    advance_within _ _) fun _ => advance_within _ _

theorem ingestTasks_within (htasks : ∀ task ∈ tasks, given task.taskId) (current : ControlState) :
    Maintains (Session.Within given) (ingestTasks host config tasks current) :=
  .bind (rejectGotoDuringTakeoff_within htasks) fun _ => .bind getEngine_within fun _ =>
    .ite (fun _ => .bind (fun _ hs => hs) fun _ => .bind (establishHold_within _ _) fun _ =>
      .ite (fun _ => .bind (fun _ hs => hs) fun _ =>
        .bind (modifyEngine_within fun _ h => ⟨h.pending, h.active⟩) fun _ =>
          adoptAndAdvance_within htasks _) fun _ => .pure ())
      fun _ => adoptAndAdvance_within htasks _

theorem reconcileAuthoritative_within (htasks : ∀ task ∈ tasks, given task.taskId)
    (h : e.Within given) : (reconcileAuthoritative tasks e).Within given := by
  have hpending : (reconcilePending (taskById tasks) e).Within given := by
    unfold reconcilePending
    split
    · exact h
    · split_ifs
      · exact ⟨fun _ hr => (by cases hr), h.active⟩
      · exact h
  have hactive : ∀ e : Engine, e.Within given →
      (reconcileActive (taskById tasks) e).Within given := by
    intro e he
    unfold reconcileActive
    split
    · exact he
    · split
      · exact he
      · rename_i authoritative hfound
        split_ifs
        · exact he.drop rfl rfl
        · refine ⟨he.pending, fun active' ha' => ?_⟩
          rw [← Option.some.inj ha']
          exact htasks _ (taskById_some hfound).1
  refine List.foldlRecOn _ _ (hactive _ hpending) ?_
  intro e' he' _ _
  exact ⟨he'.pending, he'.active⟩

theorem ingest_within (htasks : ∀ task ∈ tasks, given task.taskId) (snapshot : VehicleSnapshot)
    (nowMs : ℚ) : Maintains (Session.Within given) (ingest host config tasks snapshot nowMs) :=
  .bind (modifyEngine_within fun _ h => reconcileAuthoritative_within htasks h) fun _ =>
    .bind flushTerminalReport_within fun _ => .bind (observeMode_within snapshot) fun _ =>
      .bind getEngine_within fun _ => .ite
        (fun _ => .ite
          (fun _ => .bind (establishHold_within _ _) fun _ => .ite
            (fun _ => .bind (fun _ hs => hs) fun _ =>
              .bind (modifyEngine_within fun _ h => ⟨h.pending, h.active⟩) fun _ =>
                ingestTasks_within htasks _)
            fun _ => .pure ())
          fun _ => rejectPendingOutsideGuided_within htasks _ _)
        fun _ => ingestTasks_within htasks _

end Engines

section Controllers

/-- Core has answered with the Task. -/
def Controller.Has (c : Controller) (taskId : String) : Prop :=
  ∃ task ∈ c.answered, task.taskId = taskId

structure Controller.Within (c : Controller) : Prop where
  engine : c.session.Within c.Has
  failing : ∀ taskId, c.recoveryTaskToFail = some taskId → c.Has taskId

variable {host : Host} {config : ControllerConfig} {world : World} {c c' : Controller}

theorem Controller.Stays.within (h : c.Stays c') (hc : c.Within) : c'.Within := by
  have hhas : c'.Has = c.Has := by
    funext taskId
    rw [Controller.Has, h.answered]
    rfl
  refine ⟨?_, ?_⟩
  · rw [Session.Within, h.session.engine, hhas]
    exact hc.engine
  · rw [h.recoveryTaskToFail, hhas]
    exact hc.failing

theorem await_within : Maintains Controller.Within (await world) := fun _ hc =>
  wp_mono await_stays (fun _ _ h => h.within hc) fun _ _ h => h.within hc

theorem ask_within {α : Type} (answer : ℕ → α) : Maintains Controller.Within (ask world answer) :=
  .bind .get fun _ => .bind await_within fun _ => .pure _

theorem noteCoreDown_within (now : ℚ) : Maintains Controller.Within (noteCoreDown now) :=
  .modify fun _ hc => ⟨hc.engine, hc.failing⟩

theorem sendControl_within (message : MavLinkData) :
    Maintains Controller.Within (sendControl world message) := by
  intro c hc
  rw [sendControl, wp_bind, wp_modify]
  exact wp_mono (engineCall_stays (noteAcknowledged_stays c) fun _ => send_kept message)
    (fun _ _ h => h.within hc) fun _ _ h => h.within hc

theorem Controller.Within.answer (hc : c.Within) (tasks : List AuthoritativeTask) :
    Controller.Within { c with answered := c.answered ++ tasks } := by
  have hhas : ∀ taskId, c.Has taskId →
      Controller.Has { c with answered := c.answered ++ tasks } taskId := by
    rintro taskId ⟨task, hmem, hid⟩
    exact ⟨task, List.mem_append_left _ hmem, hid⟩
  exact ⟨hc.engine.mono hhas, fun taskId hid => hhas taskId (hc.failing taskId hid)⟩

theorem fetchAuthoritative_within : Maintains Controller.Within (fetchAuthoritative world) := by
  refine .bind (ask_within _) fun _ => .bind (.modify fun _ hc => hc.answer _) fun _ =>
    .bind .get fun _ => ?_
  split
  · exact .pure _
  · exact .ite (fun _ => .pure _) fun _ => .bind (ask_within _) fun _ =>
      .bind (.modify fun _ hc => hc.answer _) fun _ => .pure _

/-- The Task a recovery gives up was held by the engine. -/
theorem Controller.Within.giveUp (hc : c.Within) {abandoned : Option String} {s' : Session}
    (h : Abandoned c.session abandoned s') :
    Controller.Within
      { c with session := s', recoveryTaskToFail := c.recoveryTaskToFail.or abandoned } := by
  refine ⟨hc.engine.drop h.idle h.pending, fun taskId hid => ?_⟩
  rcases Option.or_eq_some_iff.1 hid with hfailing | ⟨-, habandoned⟩
  · exact hc.failing taskId hfailing
  · rw [h.abandoned_eq] at habandoned
    obtain ⟨active, ha, rfl⟩ := Option.map_eq_some_iff.1 habandoned
    exact hc.engine.active active ha

theorem settleRecoveryTask_within (tasks : List AuthoritativeTask) :
    Maintains Controller.Within (settleRecoveryTask world tasks) := by
  refine .bind .get fun _ => ?_
  split
  · exact .pure ()
  · refine .bind (.ite (fun _ => .pure ()) fun _ => .bind await_within fun _ => fun _ hc => ?_)
      fun _ => .bind (fun _ hc => ?_) fun _ => .modify fun _ hc => ⟨hc.engine, fun _ h => ?_⟩
    · exact ⟨hc.engine, hc.failing⟩
    · exact ⟨hc.engine, hc.failing⟩
    · cases h

theorem reconcileAfterLoss_within (tasks : List AuthoritativeTask) :
    Maintains Controller.Within (reconcileAfterLoss world tasks) := by
  refine .bind .get fun _ => .ite (fun _ => ?_) fun _ => .pure ()
  intro c hc
  simp only [reconcileAfterReconnect, wp_bind, wp_get]
  split_ifs
  · simp only [wp_bind]
    rw [wp_engineCall]
    refine wp_mono abandonActiveForRecovery_abandoned ?_ fun _ _ h => h.elim
    intro abandoned s' habandoned
    rw [wp_bind, wp_modify, wp_bind]
    refine wp_mono (settleRecoveryTask_within tasks _ (hc.giveUp habandoned)) ?_ fun _ _ h => h
    intro _ c₁ hc₁
    rw [wp_modify]
    unfold endRecovery
    split_ifs
    · exact hc₁
    · exact ⟨hc₁.engine, hc₁.failing⟩
  · exact hc

theorem pollCore_within (now : ℚ) : Maintains Controller.Within (pollCore world now) :=
  .tryCatch (.bind fetchAuthoritative_within fun _ => .bind (reconcileAfterLoss_within _) fun _ =>
    .modify fun _ hc => ⟨hc.engine, hc.failing⟩) fun _ => noteCoreDown_within now

theorem watchCoreLossRecovery_within (current : ControlState) :
    Maintains Controller.Within (watchCoreLossRecovery config world current) := by
  refine .bind (.modify fun c hc => ?_) fun _ => .bind .get fun _ => .ite (fun _ => .pure ())
    fun _ => .ite (fun _ => .pure ()) fun _ => .bind (.modify fun c hc => ?_) fun _ =>
      .tryCatch (sendControl_within _) fun _ => .pure ()
  · unfold observeRecovery
    split_ifs <;> exact ⟨hc.engine, hc.failing⟩
  · exact ⟨hc.engine, hc.failing⟩

theorem wp_latest {Q : ControlState → Controller → Prop} {E : String → Controller → Prop} :
    wp latest Q E c ↔ Q c.session.latest c := Iff.rfl

theorem controlAircraft_within (htasks : ∀ task ∈ c.lastTasks, task ∈ c.answered)
    (hc : c.Within) :
    wp (controlAircraft host config world) (fun _ => Controller.Within) (fun _ => Controller.Within)
      c := by
  rw [controlAircraft, wp_bind, wp_latest, wp_bind, wp_get]
  split_ifs
  · exact watchCoreLossRecovery_within _ c hc
  · rw [wp_bind, wp_engineCall, wp_note, wp_tryCatch, wp_engineCall]
    refine wp_mono (ingest_within (fun task hmem => ?_) _ _ _ hc.engine)
      (fun _ s hs => ⟨hs, hc.failing⟩) fun _ s hs => noteCoreDown_within _ _ ⟨hs, hc.failing⟩
    exact ⟨task, htasks task hmem, rfl⟩
  · exact watchCoreLossRecovery_within _ c hc

theorem LoopStep.within (step : LoopStep) :
    Maintains (fun c : Controller => c.Accounted ∧ c.Within) (step.proc host config world) := by
  refine step.maintains (fun c _ _ _ hc => ?_) (fun c hc => ?_) (fun now c hc => ?_)
    (fun now c hc => ?_) fun c hc => ?_
  · exact ⟨⟨hc.1.account, hc.1.tasks, hc.1.failing⟩, hc.2.engine, hc.2.failing⟩
  · exact wp_and (await_accounted c hc.1) (await_within c hc.2)
  · exact wp_and (noteCoreDown_accounted now c hc.1) (noteCoreDown_within now c hc.2)
  · exact wp_and (pollCore_accounted now c hc.1) (pollCore_within now c hc.2)
  · exact wp_and (controlAircraft_accounted c hc.1) (controlAircraft_within hc.1.tasks hc.2)

variable {start : ControlState} {script : ℕ → Outcome}

/-- Core has answered with every Task that the engine or a recovery holds. -/
theorem LoopRun.within (run : LoopRun host config world start script c) : c.Within :=
  (run.holds (I := fun c => c.Accounted ∧ c.Within)
    ⟨⟨⟨by simp [startsOf], by simp, by simp⟩, by simp, by simp⟩, ⟨by simp, by simp⟩, by simp⟩
    LoopStep.within).2

end Controllers

end Atlas.Asset
