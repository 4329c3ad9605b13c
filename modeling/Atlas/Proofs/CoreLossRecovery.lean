import Atlas.Proofs.FlightOutcomes

/-!
# The recovery of a lost Core

The marks of a run tell the order in which recoveries are asked for, settled and ended, and in which
the engine ingests, holds and dispatches. Between a return to launch and the end of its recovery the
engine is not asked to ingest, and after a recovery that a pilot ended it holds before it
dispatches.
-/

namespace Atlas.Asset

open Effects

section Marks

/-- `P` holds of each mark and those after it. -/
def Since (marks : List Mark) (P : Mark → List Mark → Prop) : Prop :=
  ∀ l₁ x l₂, marks = l₁ ++ x :: l₂ → P x l₂

theorem Since.append {marks : List Mark} {mark : Mark} {P P' : Mark → List Mark → Prop}
    (h : Since marks P) (hkeep : ∀ x l₂, P x l₂ → P' x (l₂ ++ [mark])) (hnew : P' mark []) :
    Since (marks ++ [mark]) P' := by
  intro l₁ x l₂ heq
  rcases List.eq_nil_or_concat l₂ with rfl | ⟨l, y, rfl⟩
  · obtain ⟨-, hlast⟩ := List.append_inj' heq rfl
    cases hlast
    exact hnew
  · rw [List.concat_eq_append] at heq ⊢
    rw [← List.cons_append, ← List.append_assoc] at heq
    obtain ⟨hinit, hlast⟩ := List.append_inj' heq rfl
    cases hlast
    exact hkeep x l (h l₁ x l hinit)

theorem Since.mono {marks : List Mark} {P P' : Mark → List Mark → Prop} (h : Since marks P)
    (himp : ∀ x l₂, x ∈ marks → P x l₂ → P' x l₂) : Since marks P' := fun l₁ x l₂ heq =>
  himp x l₂ (heq ▸ List.mem_append_right _ List.mem_cons_self) (h l₁ x l₂ heq)

/-- A recovery ended, confirmed or given up to a pilot. -/
def Closed (marks : List Mark) : Prop :=
  ∃ confirmed relinquished, (confirmed || relinquished) = true ∧
    .closed confirmed relinquished ∈ marks

theorem Closed.append {marks : List Mark} (h : Closed marks) (mark : Mark) :
    Closed (marks ++ [mark]) := by
  obtain ⟨confirmed, relinquished, hended, hmem⟩ := h
  exact ⟨confirmed, relinquished, hended, List.mem_append_left _ hmem⟩

/-- Every recovery asked for has ended, and the Task it interrupted is settled. -/
def Recovered (marks : List Mark) : Prop :=
  Since marks fun x l₂ => ∀ interrupted, x = .requested interrupted →
    Closed l₂ ∧ ∀ taskId, interrupted = some taskId → .settled taskId ∈ l₂

/-- There was a hold after every recovery that a pilot ended. -/
def Held (marks : List Mark) : Prop :=
  Since marks fun x l₂ => ∀ confirmed, x = .closed confirmed true → .hold ∈ l₂

/-- What has to have happened before a mark. -/
def Allowed (marks : List Mark) : Mark → Prop
  | .ingest => Recovered marks
  | .dispatch _ => Held marks
  | _ => True

/-- Each mark was allowed after those before it. -/
def Guarded (marks : List Mark) : Prop :=
  ∀ l₁ x l₂, marks = l₁ ++ x :: l₂ → Allowed l₁ x

variable {marks : List Mark} {mark : Mark}

theorem Guarded.append (h : Guarded marks) (hmark : Allowed marks mark) :
    Guarded (marks ++ [mark]) := by
  intro l₁ x l₂ heq
  rcases List.eq_nil_or_concat l₂ with rfl | ⟨l, y, rfl⟩
  · obtain ⟨hinit, hlast⟩ := List.append_inj' heq rfl
    cases hlast
    exact hinit ▸ hmark
  · rw [List.concat_eq_append, ← List.cons_append, ← List.append_assoc] at heq
    obtain ⟨hinit, -⟩ := List.append_inj' heq rfl
    exact h l₁ x l hinit

theorem Recovered.append (h : Recovered marks)
    (hmark : ∀ interrupted, mark ≠ .requested interrupted) : Recovered (marks ++ [mark]) := by
  refine Since.append h (fun x l₂ hx interrupted heq => ?_) fun interrupted heq =>
    absurd heq (hmark interrupted)
  obtain ⟨hclosed, hsettled⟩ := hx interrupted heq
  exact ⟨hclosed.append mark, fun taskId hid => List.mem_append_left _ (hsettled taskId hid)⟩

theorem Held.append (h : Held marks) (hmark : ∀ confirmed, mark ≠ .closed confirmed true) :
    Held (marks ++ [mark]) :=
  Since.append h (fun _ _ hx confirmed heq => List.mem_append_left _ (hx confirmed heq))
    fun confirmed heq => absurd heq (hmark confirmed)

theorem held_hold (marks : List Mark) : Held (marks ++ [.hold]) :=
  Since.append (P := fun _ _ => True) (fun _ _ _ _ => trivial)
    (fun _ _ _ _ _ => List.mem_append_right _ (List.mem_singleton_self _)) fun _ heq => by
      cases heq

end Marks

section Engines

variable {host : Host} {config : AssetConfig}

/-- While it ingests, the engine dispatches only when no hold is owed, and does not take up a Task
that is gone. -/
structure Steady (gone : String → Prop) (s : Session) : Prop where
  guarded : Guarded s.marks
  recovered : Recovered s.marks
  held : s.engine.reholdOnGuided = false → Held s.marks
  asked : ∀ taskId, .requested (some taskId) ∈ s.marks → gone taskId
  ended : ∀ taskId, gone taskId → taskId ∈ s.engine.finished ∧
    ∀ active, s.engine.active = some active → active.task.taskId ≠ taskId

/-- The engine forgets no finished Task, takes up none and does not lose a hold it owes. -/
structure Engine.Milder (e e' : Engine) : Prop where
  rehold : e'.reholdOnGuided = false → e.reholdOnGuided = false
  finished : ∀ taskId ∈ e.finished, taskId ∈ e'.finished
  active : ∀ active, e'.active = some active →
    ∃ active', e.active = some active' ∧ active'.task.taskId = active.task.taskId

variable {gone : String → Prop} {s : Session}

theorem Engine.Milder.refl (e : Engine) : e.Milder e :=
  ⟨fun h => h, fun _ h => h, fun active h => ⟨active, h, rfl⟩⟩

theorem Engine.Milder.trans {e e' e'' : Engine} (h : e.Milder e') (h' : e'.Milder e'') :
    e.Milder e'' := by
  refine ⟨fun hre => h.rehold (h'.rehold hre), fun id hid => h'.finished id (h.finished id hid),
    fun active ha => ?_⟩
  obtain ⟨active', ha', hid'⟩ := h'.active active ha
  obtain ⟨active'', ha'', hid''⟩ := h.active active' ha'
  exact ⟨active'', ha'', hid''.trans hid'⟩

theorem Engine.Milder.ended {e e' : Engine} (h : e.Milder e') {taskId : String}
    (hended : taskId ∈ e.finished ∧
      ∀ active, e.active = some active → active.task.taskId ≠ taskId) :
    taskId ∈ e'.finished ∧ ∀ active, e'.active = some active → active.task.taskId ≠ taskId := by
  refine ⟨h.finished taskId hended.1, fun active ha hid => ?_⟩
  obtain ⟨active', ha', hsame⟩ := h.active active ha
  exact hended.2 active' ha' (hsame.trans hid)

theorem Steady.engine (h : Steady gone s) {s' : Session} (hmarks : s'.marks = s.marks)
    (hmilder : s.engine.Milder s'.engine) : Steady gone s' := by
  refine ⟨hmarks ▸ h.guarded, hmarks ▸ h.recovered, fun hre => ?_, hmarks ▸ h.asked,
    fun id hid => ?_⟩
  · rw [hmarks]
    exact h.held (hmilder.rehold hre)
  · exact hmilder.ended (h.ended id hid)

/-- Only a request asks for a recovery. -/
theorem Steady.asked_append (h : Steady gone s) {mark : Mark}
    (hmark : ∀ interrupted, mark ≠ .requested interrupted) :
    ∀ taskId, .requested (some taskId) ∈ s.marks ++ [mark] → gone taskId := by
  intro taskId hmem
  rcases List.mem_append.1 hmem with hold | hnew
  · exact h.asked taskId hold
  · exact absurd (List.mem_singleton.1 hnew).symm (hmark _)

theorem milder_finish (taskId : String) (e : Engine) : e.Milder (e.finish taskId) :=
  ⟨fun h => h, fun _ h => List.mem_insert_of_mem h, fun active h => ⟨active, h, rfl⟩⟩

theorem modifyEngine_steady {f : Engine → Engine} (h : ∀ e : Engine, e.Milder (f e)) :
    Maintains (Steady gone) (modifyEngine f) := fun s hs => hs.engine rfl (h s.engine)

theorem owe_steady (pending : PendingTerminalReport) : Maintains (Steady gone) (owe pending) :=
  fun _ hs => hs.engine rfl ⟨fun h => h, fun _ h => h, fun active h => ⟨active, h, rfl⟩⟩

theorem awaitOutcome_steady : Maintains (Steady gone) awaitOutcome := fun _ hs =>
  wp_awaitOutcome (fun _ => hs.engine rfl (.refl _)) fun _ => hs.engine rfl (.refl _)

theorem send_steady (message : MavLinkData) : Maintains (Steady gone) (send message) :=
  .bind (.modify fun _ hs => hs.engine rfl (.refl _)) fun _ => awaitOutcome_steady

theorem report_steady (r : Report) : Maintains (Steady gone) (report r) :=
  .bind (.modify fun _ hs => hs.engine rfl (.refl _)) fun _ => .bind awaitOutcome_steady fun _ =>
    .modify fun _ hs => hs.engine rfl (.refl _)

theorem getEngine_steady : Maintains (Steady gone) getEngine := fun _ h => h

theorem flushTerminalReport_steady : Maintains (Steady gone) flushTerminalReport := by
  refine .bind getEngine_steady fun e => ?_
  split
  · exact .pure ()
  · refine .bind (report_steady _) fun _ => modifyEngine_steady fun e => ?_
    split_ifs
    · exact ⟨fun h => h, fun _ h => h, fun active h => ⟨active, h, rfl⟩⟩
    · exact .refl e

theorem reportTerminal_steady (pending : PendingTerminalReport) :
    Maintains (Steady gone) (reportTerminal pending) :=
  .bind (owe_steady pending) fun _ => flushTerminalReport_steady

theorem noteTakeover_steady (mode : String) : Maintains (Steady gone) (noteTakeover mode) := by
  refine .bind getEngine_steady fun e => ?_
  split
  · exact .pure ()
  · refine .ite (fun _ => .pure ()) fun _ => .bind (modifyEngine_steady fun e => ?_) fun _ =>
      reportTerminal_steady _
    refine ⟨fun h => ?_, fun _ h => List.mem_insert_of_mem h, fun _ h => ?_⟩
    · cases h
    · cases h

theorem observeMode_steady (snapshot : VehicleSnapshot) :
    Maintains (Steady gone) (observeMode snapshot) := by
  refine .bind getEngine_steady fun e => .ite (fun _ => .pure ()) fun _ =>
    .bind (modifyEngine_steady fun e => ?_) fun _ => .ite (fun _ => noteTakeover_steady _) fun _ =>
      .ite (fun _ => noteTakeover_steady _) fun _ => .pure ()
  exact ⟨fun h => h, fun _ h => h, fun active h => ⟨active, h, rfl⟩⟩

theorem reject_steady (taskId message : String) :
    Maintains (Steady gone) (do
      modifyEngine (Engine.finish taskId)
      reportTerminal (.fail taskId .preconditionFailed message)) :=
  .bind (modifyEngine_steady (milder_finish taskId)) fun _ => reportTerminal_steady _

theorem rejectGotoDuringTakeoff_steady (tasks : List AuthoritativeTask) :
    Maintains (Steady gone) (rejectGotoDuringTakeoff tasks) :=
  .bind getEngine_steady fun _ => .ite (fun _ => .forM fun _ _ => .bind getEngine_steady fun _ =>
    .ite (fun _ => reject_steady _ _) fun _ => .pure ()) fun _ => .pure ()

theorem rejectPendingOutsideGuided_steady (tasks : List AuthoritativeTask)
    (snapshot : VehicleSnapshot) (nowMs : ℚ) :
    Maintains (Steady gone) (rejectPendingOutsideGuided host config tasks snapshot nowMs) :=
  .forM fun _ _ => .bind getEngine_steady fun _ => .ite (fun _ => .pure ()) fun _ =>
    reject_steady _ _

/-- A hold that was sent is marked, and nothing else changes. -/
theorem establishHold_steady {snapshot : VehicleSnapshot} {nowMs : ℚ} (hs : Steady gone s) :
    wp (establishHold config snapshot nowMs)
      (fun sent s' => Steady gone s' ∧ s'.engine = s.engine ∧ (sent = true → Held s'.marks))
      (fun _ => Steady gone) s := by
  have hkept : ∀ message, wp (send message)
      (fun _ s' => Steady gone s' ∧ s'.engine = s.engine) (fun _ => Steady gone) s := by
    intro message
    simp only [send, wp_bind, wp_modify]
    exact wp_awaitOutcome (fun _ => ⟨hs.engine rfl (.refl _), rfl⟩) fun _ => hs.engine rfl (.refl _)
  unfold establishHold
  split
  · exact ⟨hs, rfl, fun h => by cases h⟩
  · split_ifs
    · exact ⟨hs, rfl, fun h => by cases h⟩
    · rw [wp_bind]
      refine wp_mono (hkept _) ?_ fun _ _ h => h
      rintro _ s' ⟨hs', he⟩
      have hheld := held_hold s'.marks
      have hmark : ∀ interrupted, Mark.hold ≠ .requested interrupted := fun _ h => by cases h
      exact ⟨⟨hs'.guarded.append trivial, hs'.recovered.append hmark, fun _ => hheld,
        hs'.asked_append hmark, hs'.ended⟩, he, fun _ => hheld⟩

theorem recoverFailed_steady (command : String) (snapshot : VehicleSnapshot) (nowMs : ℚ) :
    Maintains (Steady gone) (recoverFailed config command snapshot nowMs) := by
  refine .ite (fun _ => .ite (fun _ => ?_) fun _ => .ite (fun _ => send_steady _) fun _ =>
    .pure ()) fun _ => .pure ()
  intro s hs
  rw [wp_bind]
  exact wp_mono (establishHold_steady hs) (fun _ _ h => h.1) fun _ _ h => h

theorem failActive_steady (code : FailureCode) (message : String) (snapshot : VehicleSnapshot)
    (nowMs : ℚ) : Maintains (Steady gone) (failActive config code message snapshot nowMs) := by
  refine .bind getEngine_steady fun e => ?_
  split
  · exact .pure ()
  · refine .bind (modifyEngine_steady fun e => ?_) fun _ => .bind (owe_steady _) fun _ =>
      .bind (recoverFailed_steady _ _ _) fun _ => flushTerminalReport_steady
    exact ⟨fun h => h, fun _ h => List.mem_insert_of_mem h, fun _ h => by cases h⟩

theorem advance_steady (snapshot : VehicleSnapshot) (nowMs : ℚ) :
    Maintains (Steady gone) (advance host config snapshot nowMs) := by
  intro s hs
  simp only [advance, wp_bind, wp_getEngine]
  split
  · exact hs
  · rename_i active ha
    split_ifs
    · exact failActive_steady _ _ _ _ s hs
    · exact failActive_steady _ _ _ _ s hs
    · have htask : (isComplete host config (noteProgress host active snapshot nowMs).2 snapshot
          nowMs).2.task = active.task := (isComplete_task _ _ _ _ _).trans (noteProgress_task _ _ _)
      simp only [completeActive]
      split_ifs
      · rw [wp_bind, wp_modifyEngine]
        refine reportTerminal_steady _ _ (hs.engine rfl ?_)
        exact ⟨fun h => h, fun _ h => List.mem_insert_of_mem h, fun _ h => by cases h⟩
      · rw [wp_modifyEngine]
        refine hs.engine rfl ⟨fun h => h, fun _ h => h, fun active' h => ?_⟩
        cases h
        exact ⟨active, ha, by rw [htask]⟩

theorem dispatch_steady (task : AuthoritativeTask) (snapshot : VehicleSnapshot) :
    Maintains (Steady gone) (dispatch config task snapshot) := by
  unfold dispatch
  refine .ite (fun _ => ?_) fun _ => .ite (fun _ => ?_) fun _ => .ite (fun _ => send_steady _)
    fun _ => .ite (fun _ => send_steady _) fun _ => .pure ()
  · split
    · exact send_steady _
    · exact .pure ()
  · split
    · exact .pure ()
    · exact send_steady _

theorem executeCandidate_steady {candidate : AuthoritativeTask} (hs : Steady gone s)
    (hguided : s.engine.reholdOnGuided = false) (hfresh : candidate.taskId ∉ s.engine.finished) :
    wp (executeCandidate host config candidate) (fun _ => Steady gone) (fun _ => Steady gone)
      s := by
  simp only [executeCandidate, wp_bind, wp_modify, wp_getControlState]
  split_ifs
  · simp only [wp_bind, wp_modifyEngine, wp_modify, wp_note, wp_tryCatch]
    have hmark : ∀ interrupted, Mark.dispatch candidate ≠ .requested interrupted :=
      fun _ h => by cases h
    refine wp_mono (dispatch_steady _ _ _ ⟨hs.guarded.append (hs.held hguided),
      hs.recovered.append hmark, fun _ => (hs.held hguided).append fun _ h => ?_,
      hs.asked_append hmark, fun id hid => ⟨(hs.ended id hid).1, fun active ha heq => ?_⟩⟩)
      (fun _ _ h => h) ?_
    · cases h
    · cases ha
      exact hfresh (heq ▸ (hs.ended id hid).1)
    · intro message s' hs'
      refine reportTerminal_steady _ _ (hs'.engine rfl ?_)
      exact ⟨fun h => h, fun _ h => List.mem_insert_of_mem h, fun _ h => by cases h⟩
  · rw [wp_bind]
    exact wp_mono (reject_steady _ _ _ (hs.engine rfl (.refl _))) (fun _ _ h => h) fun _ _ h => h

theorem adoptNext_steady {tasks : List AuthoritativeTask} {snapshot : VehicleSnapshot} {nowMs : ℚ}
    (hs : Steady gone s) (hguided : s.engine.reholdOnGuided = false) :
    wp (adoptNext host config tasks snapshot nowMs) (fun _ => Steady gone) (fun _ => Steady gone)
      s := by
  simp only [adoptNext, wp_bind, wp_getEngine]
  split
  · exact hs
  · rename_i candidate hfound
    have hfresh : candidate.taskId ∉ s.engine.finished := by
      have := List.find?_some hfound
      simp only [Bool.and_eq_true, decide_eq_true_eq] at this
      exact this.2
    split_ifs
    · simp only [wp_bind, wp_modify, wp_tryCatch]
      refine wp_report_passed ?_ fun message => ?_
      · rw [wp_bind]
        exact executeCandidate_steady (hs.engine rfl (.refl _)) hguided hfresh
      · simp only [wp_bind, wp_modifyEngine, wp_owe, wp_throw]
        exact hs.engine rfl
          ⟨fun h => h, fun _ h => List.mem_insert_of_mem h, fun active h => ⟨active, h, rfl⟩⟩
    · rw [wp_bind]
      exact wp_mono (reject_steady _ _ _ hs) (fun _ _ h => h) fun _ _ h => h

theorem adoptAndAdvance_steady {tasks : List AuthoritativeTask} {c : ControlState}
    (hs : Steady gone s) (hguided : s.engine.reholdOnGuided = false) :
    wp (adoptAndAdvance host config tasks c) (fun _ => Steady gone) (fun _ => Steady gone) s := by
  simp only [adoptAndAdvance, wp_bind, wp_getEngine]
  split_ifs
  · rw [wp_bind]
    refine wp_mono (adoptNext_steady hs hguided) ?_ fun _ _ h => h
    intro _ s' hs'
    exact advance_steady _ _ s' hs'
  · exact advance_steady _ _ s hs

/-- Turning go-tos down does not bring about a hold. -/
theorem rejectGotoDuringTakeoff_guided (tasks : List AuthoritativeTask) :
    Maintains (fun s : Session => s.engine.reholdOnGuided = false)
      (rejectGotoDuringTakeoff tasks) := by
  have hflush : Maintains (fun s : Session => s.engine.reholdOnGuided = false)
      flushTerminalReport := by
    refine .bind (fun _ h => h) fun e => ?_
    split
    · exact .pure ()
    · refine .bind (fun s hs => wp_report_passed hs fun _ => hs) fun _ s hs => ?_
      rw [wp_modifyEngine]
      dsimp only
      split_ifs
      · exact hs
      · exact hs
  exact .bind (fun _ h => h) fun _ => .ite (fun _ => .forM fun _ _ => .bind (fun _ h => h) fun _ =>
    .ite (fun _ => .bind (fun _ h => h) fun _ => .bind (fun _ h => h) fun _ => hflush)
      fun _ => .pure ()) fun _ => .pure ()

theorem ingestTasks_steady {tasks : List AuthoritativeTask} {c : ControlState}
    (hs : Steady gone s) (hguided : s.engine.reholdOnGuided = false) :
    wp (ingestTasks host config tasks c) (fun _ => Steady gone) (fun _ => Steady gone) s := by
  rw [ingestTasks, wp_bind]
  refine wp_mono (wp_and (rejectGotoDuringTakeoff_steady tasks s hs)
    (rejectGotoDuringTakeoff_guided tasks s hguided)) ?_ fun _ _ h => h.1
  rintro _ s' ⟨hs', hguided'⟩
  rw [wp_bind, wp_getEngine]
  split_ifs
  · simp only [wp_bind, wp_getControlState]
    refine wp_mono (establishHold_steady hs') ?_ fun _ _ h => h
    rintro sent s'' ⟨hs'', he, -⟩
    have hguided'' : s''.engine.reholdOnGuided = false := by
      rw [he]
      exact hguided'
    split_ifs
    · simp only [wp_bind, wp_getControlState, wp_modifyEngine]
      refine adoptAndAdvance_steady (hs''.engine rfl ?_) hguided''
      exact ⟨fun h => h, fun _ h => h, fun active h => ⟨active, h, rfl⟩⟩
    · exact hs''
  · exact adoptAndAdvance_steady hs' hguided'

theorem milder_reconcileAuthoritative (tasks : List AuthoritativeTask) (e : Engine) :
    e.Milder (reconcileAuthoritative tasks e) := by
  have hpending : e.Milder (reconcilePending (taskById tasks) e) := by
    unfold reconcilePending
    split
    · exact .refl e
    · split_ifs
      · exact ⟨fun h => h, fun _ h => h, fun active h => ⟨active, h, rfl⟩⟩
      · exact .refl e
  have hactive : ∀ e : Engine, e.Milder (reconcileActive (taskById tasks) e) := by
    intro e
    unfold reconcileActive
    split
    · exact .refl e
    · rename_i active ha
      split
      · exact .refl e
      · rename_i authoritative hfound
        split_ifs
        · exact ⟨fun h => h, fun _ h => List.mem_insert_of_mem h, fun _ h => by cases h⟩
        · refine ⟨fun h => h, fun _ h => h, fun active' h => ?_⟩
          cases h
          exact ⟨active, ha, (taskById_some hfound).2.symm⟩
  refine (hpending.trans (hactive _)).trans ?_
  refine List.foldlRecOn _ _ (.refl _) ?_
  intro e' he' task _
  exact he'.trans (milder_finish task.taskId e')

theorem ingest_steady {tasks : List AuthoritativeTask} {snapshot : VehicleSnapshot} {nowMs : ℚ}
    (hs : Steady gone s) :
    wp (ingest host config tasks snapshot nowMs) (fun _ => Steady gone) (fun _ => Steady gone)
      s := by
  simp only [ingest, wp_bind, wp_modifyEngine]
  refine wp_mono (flushTerminalReport_steady _
    (hs.engine rfl (milder_reconcileAuthoritative tasks s.engine))) ?_ fun _ _ h => h
  intro _ s₁ hs₁
  rw [wp_bind]
  refine wp_mono (observeMode_steady snapshot s₁ hs₁) ?_ fun _ _ h => h
  intro _ s₂ hs₂
  rw [wp_bind, wp_getEngine]
  split_ifs with hre
  · simp only [wp_bind]
    refine wp_mono (establishHold_steady hs₂) ?_ fun _ _ h => h
    rintro sent s₃ ⟨hs₃, -, hheld⟩
    split_ifs with hsent
    · simp only [wp_bind, wp_getControlState, wp_modifyEngine]
      exact ingestTasks_steady ⟨hs₃.guarded, hs₃.recovered, fun _ => hheld hsent, hs₃.asked,
        hs₃.ended⟩ rfl
    · exact hs₃
  · exact rejectPendingOutsideGuided_steady _ _ _ s₂ hs₂
  · exact ingestTasks_steady hs₂ (by simpa using hre)

end Engines

section Controllers

variable (config : ControllerConfig)

/-- When a recovery may send a return to launch: Atlas has the aircraft and it is not on its way
already, and Core is gone for long or a recovery is under way that nothing has ended. -/
structure RecoverySend.Due (send : RecoverySend) : Prop where
  authority : send.control.Authority
  returning : send.activeCommand ≠ some "flight.return_to_launch"
  landing : send.activeCommand ≠ some "flight.land"
  lost : (send.coreLossRecovery = true ∧ send.confirmed = false ∧ send.relinquished = false) ∨
    ∃ since, send.coreDownSince = some since ∧
      config.coreLossGraceSeconds * 1000 ≤ send.control.nowMs - since

/-- Of one recovery, the later return to launch is sent a second after the earlier at least. -/
def RecoverySend.Spaced (send later : RecoverySend) : Prop :=
  send.recovery = later.recovery → send.control.nowMs + 1000 ≤ later.control.nowMs

def Engine.Gone (e : Engine) (taskId : String) : Prop :=
  taskId ∈ e.finished ∧ ∀ active, e.active = some active → active.task.taskId ≠ taskId

def Engine.Executes (e : Engine) (taskId : String) : Prop :=
  ∃ active, e.active = some active ∧ active.task.taskId = taskId

/-- What the flags of a recovery stand for. -/
structure Controller.Recovering (c : Controller) : Prop where
  guarded : Guarded c.session.marks
  held : c.session.engine.reholdOnGuided = false → Held c.session.marks
  asked : Since c.session.marks fun x l₂ => ∀ interrupted, x = .requested interrupted →
    (Closed l₂ ∨ c.coreLossRecovery = true) ∧
      ∀ taskId, interrupted = some taskId → .settled taskId ∈ l₂ ∨
        c.coreLossRecovery = true ∧
          (c.recoveryTaskToFail = some taskId ∨ c.session.engine.Executes taskId)
  gone : Since c.session.marks fun x l₂ => ∀ taskId, x = .requested (some taskId) →
    c.session.engine.Gone taskId ∨
      ¬Closed l₂ ∧ c.coreLossRecovery = true ∧ c.session.engine.Executes taskId
  failing : c.recoveryTaskToFail ≠ none →
    c.coreLossRecovery = true ∧ c.session.engine.active = none
  due : ∀ send ∈ c.sends, send.Due config
  spaced : c.sends.Pairwise RecoverySend.Spaced
  numbered : ∀ send ∈ c.sends, send.recovery ≤ c.recovery ∧ (send.recovery = c.recovery →
    c.coreLossRecovery = true ∧
      ∃ last, c.lastCoreLossRecoveryAttemptMs = some last ∧ send.control.nowMs ≤ last)

variable {config} {host : Host} {world : World} {c c' : Controller}

/-- What a recovery is about stays. -/
structure Controller.SameRecovery (c c' : Controller) : Prop where
  marks : c'.session.marks = c.session.marks
  engine : c'.session.engine = c.session.engine
  coreLossRecovery : c'.coreLossRecovery = c.coreLossRecovery
  recoveryTaskToFail : c'.recoveryTaskToFail = c.recoveryTaskToFail
  sends : c'.sends = c.sends
  recovery : c'.recovery = c.recovery
  last : c'.lastCoreLossRecoveryAttemptMs = c.lastCoreLossRecoveryAttemptMs

theorem Controller.SameRecovery.recovering (h : c.SameRecovery c') (hc : c.Recovering config) :
    c'.Recovering config where
  guarded := by
    rw [h.marks]
    exact hc.guarded
  held := by
    rw [h.marks, h.engine]
    exact hc.held
  asked := by
    rw [h.marks, h.coreLossRecovery, h.recoveryTaskToFail, h.engine]
    exact hc.asked
  gone := by
    rw [h.marks, h.coreLossRecovery, h.engine]
    exact hc.gone
  failing := by
    rw [h.recoveryTaskToFail, h.coreLossRecovery, h.engine]
    exact hc.failing
  due := by
    rw [h.sends]
    exact hc.due
  spaced := by
    rw [h.sends]
    exact hc.spaced
  numbered := by
    rw [h.sends, h.recovery, h.coreLossRecovery, h.last]
    exact hc.numbered

theorem Controller.Recovering.same (hc : c.Recovering config) (h : c.SameRecovery c') :
    c'.Recovering config := h.recovering hc

theorem noteAcknowledged_same (c : Controller) : c.SameRecovery (noteAcknowledged world c) := by
  unfold noteAcknowledged
  split_ifs
  · exact ⟨rfl, rfl, rfl, rfl, rfl, rfl, rfl⟩
  · exact ⟨rfl, rfl, rfl, rfl, rfl, rfl, rfl⟩

/-- The loop waits: only an acknowledgement is noted. -/
structure Controller.Waits (c c' : Controller) : Prop where
  same : c.SameRecovery c'
  relinquished : c'.coreLossRecoveryRelinquished = c.coreLossRecoveryRelinquished
  answered : c'.answered = c.answered

theorem await_waits : wp (await world) (fun _ => c.Waits) (fun _ => c.Waits) c := by
  have hnoted : c.Waits (noteAcknowledged world c) := by
    refine ⟨noteAcknowledged_same c, ?_, ?_⟩
    · unfold noteAcknowledged
      split_ifs <;> rfl
    · unfold noteAcknowledged
      split_ifs <;> rfl
  rw [await, wp_bind, wp_modify, wp_engineCall]
  obtain ⟨⟨hmarks, hengine, hopen, htask, hsends, hnumber, hlast⟩, hrel, hanswered⟩ := hnoted
  exact wp_awaitOutcome
    (fun _ => ⟨⟨hmarks, hengine, hopen, htask, hsends, hnumber, hlast⟩, hrel, hanswered⟩)
    fun _ => ⟨⟨hmarks, hengine, hopen, htask, hsends, hnumber, hlast⟩, hrel, hanswered⟩

theorem await_recovering : Maintains (Controller.Recovering config) (await world) := fun _ hc =>
  wp_mono await_waits (fun _ _ h => h.same.recovering hc) fun _ _ h => h.same.recovering hc

theorem ask_recovering {α : Type} (answer : ℕ → α) :
    Maintains (Controller.Recovering config) (ask world answer) :=
  .bind .get fun _ => .bind await_recovering fun _ => .pure _

theorem latest_recovering : Maintains (Controller.Recovering config) latest := fun _ hc => hc

theorem noteCoreDown_recovering (now : ℚ) :
    Maintains (Controller.Recovering config) (noteCoreDown now) :=
  .modify fun _ hc => hc.same ⟨rfl, rfl, rfl, rfl, rfl, rfl, rfl⟩

theorem sendControl_recovering (message : MavLinkData) :
    Maintains (Controller.Recovering config) (sendControl world message) := by
  intro c hc
  rw [sendControl, wp_bind, wp_modify, wp_engineCall, send, wp_bind, wp_modify]
  have hnoted : (noteAcknowledged world c).Recovering config := hc.same (noteAcknowledged_same c)
  exact wp_awaitOutcome
    (fun _ => hnoted.same ⟨rfl, rfl, rfl, rfl, rfl, rfl, rfl⟩)
    fun _ => hnoted.same ⟨rfl, rfl, rfl, rfl, rfl, rfl, rfl⟩

theorem fetchAuthoritative_recovering :
    Maintains (Controller.Recovering config) (fetchAuthoritative world) := by
  have hanswer (tasks : List AuthoritativeTask) : Maintains (Controller.Recovering config)
      (modify fun c => { c with answered := c.answered ++ tasks } : Control Unit) :=
    .modify fun _ hc => hc.same ⟨rfl, rfl, rfl, rfl, rfl, rfl, rfl⟩
  refine .bind (ask_recovering _) fun _ => .bind (hanswer _) fun _ => .bind .get fun _ => ?_
  split
  · exact .pure _
  · exact .ite (fun _ => .pure _) fun _ => .bind (ask_recovering _) fun _ =>
      .bind (hanswer _) fun _ => .pure _

/-- What abandoning leaves of the engine. -/
structure GivenUp (reholdOnGuided : Bool) (s : Session) (abandoned : Option String) (s' : Session) :
    Prop where
  idle : s'.engine.active = none
  abandoned_eq : abandoned = s.engine.active.map (·.task.taskId)
  marks : s'.marks = s.marks
  rehold : s'.engine.reholdOnGuided = (s.engine.reholdOnGuided || reholdOnGuided)
  finished : ∀ taskId, taskId ∈ s.engine.finished ∨ s.engine.Executes taskId →
    taskId ∈ s'.engine.finished

theorem abandonActiveForRecovery_givenUp {reholdOnGuided : Bool} {s : Session} :
    wp (abandonActiveForRecovery reholdOnGuided) (GivenUp reholdOnGuided s) (fun _ _ => False)
      s := by
  simp only [abandonActiveForRecovery, wp_bind, wp_modifyEngine, wp_getEngine]
  split
  · rename_i ha
    have ha' : s.engine.active = none := ha
    refine ⟨ha, by rw [ha']; rfl, rfl, rfl, fun id hid => ?_⟩
    rcases hid with hid | ⟨active, hactive, -⟩
    · exact hid
    · rw [ha'] at hactive
      cases hactive
  · rename_i active ha
    have ha' : s.engine.active = some active := ha
    refine ⟨rfl, by rw [ha']; rfl, rfl, rfl, fun id hid => ?_⟩
    rcases hid with hid | ⟨active', hactive, hsame⟩
    · exact List.mem_insert_of_mem hid
    · rw [ha'] at hactive
      cases hactive
      exact hsame ▸ List.mem_insert_self

/-- A recovery whose Task is given up: once Core settles it, the recovery may end. -/
structure Controller.Abandoning (config : ControllerConfig) (c : Controller) : Prop where
  recovering : c.Recovering config
  coreLossRecovery : c.coreLossRecovery = true
  idle : c.session.engine.active = none
  rehold : c.coreLossRecoveryRelinquished = true → c.session.engine.reholdOnGuided = true

theorem Controller.Recovering.giveUp (hc : c.Recovering config) (hopen : c.coreLossRecovery = true)
    {abandoned : Option String} {s' : Session}
    (h : GivenUp c.coreLossRecoveryRelinquished c.session abandoned s') :
    Controller.Abandoning config
      { c with session := s', recoveryTaskToFail := c.recoveryTaskToFail.or abandoned } := by
  have hgone : ∀ id, id ∈ c.session.engine.finished ∨ c.session.engine.Executes id →
      s'.engine.Gone id := by
    refine fun id hid => ⟨h.finished id hid, fun active ha => ?_⟩
    rw [h.idle] at ha
    cases ha
  refine ⟨⟨?_, fun hre => ?_, ?_, ?_, fun _ => ⟨hopen, h.idle⟩, hc.due, hc.spaced, hc.numbered⟩,
    hopen, h.idle, fun hrel => ?_⟩
  · show Guarded s'.marks
    rw [h.marks]
    exact hc.guarded
  · show Held s'.marks
    rw [h.marks]
    refine hc.held ?_
    rw [show s'.engine.reholdOnGuided = _ from h.rehold, Bool.or_eq_false_iff] at hre
    exact hre.1
  · show Since s'.marks _
    rw [h.marks]
    refine hc.asked.mono fun x l₂ _ hx interrupted heq => ⟨.inr hopen, fun id hid => ?_⟩
    rcases (hx interrupted heq).2 id hid with hsettled | ⟨-, hfail | ⟨active, ha, hsame⟩⟩
    · exact .inl hsettled
    · refine .inr ⟨hopen, .inl ?_⟩
      show c.recoveryTaskToFail.or abandoned = some id
      rw [hfail]
      rfl
    · refine .inr ⟨hopen, .inl ?_⟩
      show c.recoveryTaskToFail.or abandoned = some id
      have hnone : c.recoveryTaskToFail = none := by
        by_contra hsome
        rw [(hc.failing hsome).2] at ha
        cases ha
      rw [hnone, h.abandoned_eq, ha, ← hsame]
      rfl
  · show Since s'.marks _
    rw [h.marks]
    refine hc.gone.mono fun x l₂ _ hx id heq => .inl ?_
    rcases hx id heq with hgone' | ⟨-, -, hexecutes⟩
    · exact hgone id (.inl hgone'.1)
    · exact hgone id (.inr hexecutes)
  · show s'.engine.reholdOnGuided = true
    have hrel' : c.coreLossRecoveryRelinquished = true := hrel
    rw [h.rehold, hrel', Bool.or_true]

/-- Core has settled the Task: there is nothing left to fail. -/
theorem Controller.Abandoning.settle (hc : c.Abandoning config) {taskId : String}
    (htask : c.recoveryTaskToFail = some taskId) :
    Controller.Abandoning config { c with
      session := { c.session with marks := c.session.marks ++ [.settled taskId] }
      recoveryTaskToFail := none } := by
  have hr := hc.recovering
  refine ⟨⟨hr.guarded.append trivial, fun hre => (hr.held hre).append fun _ h => ?_,
    hr.asked.append (fun x l₂ hx interrupted heq => ⟨.inr hc.coreLossRecovery, fun id hid => ?_⟩)
      fun _ h => ?_, hr.gone.append (fun x l₂ hx id heq => .inl ?_) fun _ h => ?_,
    fun h => absurd rfl h, hr.due, hr.spaced, hr.numbered⟩, hc.coreLossRecovery, hc.idle, hc.rehold⟩
  · cases h
  · rcases (hx interrupted heq).2 id hid with hsettled | ⟨-, hfail | ⟨active, ha, -⟩⟩
    · exact .inl (List.mem_append_left _ hsettled)
    · cases htask.symm.trans hfail
      exact .inl (List.mem_append_right _ (List.mem_singleton_self _))
    · rw [hc.idle] at ha
      cases ha
  · cases h
  · rcases hx id heq with hgone | ⟨-, -, active, ha, -⟩
    · exact hgone
    · rw [hc.idle] at ha
      cases ha
  · cases h

theorem settleRecoveryTask_abandoning {tasks : List AuthoritativeTask} (hc : c.Abandoning config) :
    wp (settleRecoveryTask world tasks)
      (fun _ c' => c'.Abandoning config ∧ c'.recoveryTaskToFail = none)
      (fun _ => Controller.Recovering config) c := by
  simp only [settleRecoveryTask, wp_bind, wp_get]
  split
  · rename_i hnone
    exact ⟨hc, hnone⟩
  · rename_i taskId hsome
    simp only [failInterrupted, wp_bind]
    split_ifs
    · rw [wp_pure, wp_bind, wp_engineCall, wp_note, wp_modify]
      exact ⟨hc.settle hsome, rfl⟩
    · rw [wp_bind]
      refine wp_mono await_waits ?_ fun _ _ h => h.same.recovering hc.recovering
      intro _ c₁ hwaits
      rw [wp_engineCall, wp_modify, wp_bind, wp_engineCall, wp_note, wp_modify]
      have hc₁ : Controller.Abandoning config { c₁ with session := { c₁.session with
          accepted := c₁.session.accepted ++ [.terminal (recoveryFailure taskId)] } } := by
        have hsame := hwaits.same
        refine ⟨(hsame.recovering hc.recovering).same ⟨rfl, rfl, rfl, rfl, rfl, rfl, rfl⟩,
          hsame.coreLossRecovery.trans hc.coreLossRecovery, ?_,
          fun hrel => ?_⟩
        · show c₁.session.engine.active = none
          rw [hsame.engine]
          exact hc.idle
        · show c₁.session.engine.reholdOnGuided = true
          rw [hsame.engine]
          exact hc.rehold (hwaits.relinquished ▸ hrel)
      exact ⟨hc₁.settle (hwaits.same.recoveryTaskToFail.trans hsome), rfl⟩

theorem endRecovery_recovering (hc : c.Abandoning config) (hnone : c.recoveryTaskToFail = none) :
    (endRecovery c).Recovering config := by
  have hr := hc.recovering
  unfold endRecovery
  split_ifs with hended
  · exact hr
  · have hclosed : ∀ l : List Mark, Closed
        (l ++ [.closed c.coreLossRecoveryConfirmed c.coreLossRecoveryRelinquished]) := by
      refine fun l => ⟨_, _, ?_, List.mem_append_right _ (List.mem_singleton_self _)⟩
      cases hconf : c.coreLossRecoveryConfirmed
      · cases hrel : c.coreLossRecoveryRelinquished
        · simp [hconf, hrel] at hended
        · rfl
      · rfl
    refine ⟨hr.guarded.append trivial, fun hre => (hr.held hre).append fun _ h => ?_,
      hr.asked.append (fun x l₂ hx interrupted heq => ⟨.inl (hclosed l₂), fun id hid => ?_⟩)
        fun _ h => ?_, hr.gone.append (fun x l₂ hx id heq => .inl ?_) fun _ h => ?_,
      fun h => absurd hnone h, hr.due, hr.spaced, fun send hmem => ⟨?_, fun heq => ?_⟩⟩
    · have hrehold := hc.rehold (Mark.closed.inj h).2
      rw [show c.session.engine.reholdOnGuided = false from hre] at hrehold
      cases hrehold
    · rcases (hx interrupted heq).2 id hid with hsettled | ⟨-, hfail | ⟨active, ha, -⟩⟩
      · exact .inl (List.mem_append_left _ hsettled)
      · rw [hnone] at hfail
        cases hfail
      · rw [hc.idle] at ha
        cases ha
    · cases h
    · rcases hx id heq with hgone | ⟨-, -, active, ha, -⟩
      · exact hgone
      · rw [hc.idle] at ha
        cases ha
    · cases h
    · exact (hr.numbered send hmem).1.trans (Nat.le_succ _)
    · have hle := (hr.numbered send hmem).1
      have heq' : send.recovery = c.recovery + 1 := heq
      omega

theorem reconcileAfterLoss_recovering (tasks : List AuthoritativeTask) :
    Maintains (Controller.Recovering config) (reconcileAfterLoss world tasks) := by
  refine .bind .get fun _ => .ite (fun _ => ?_) fun _ => .pure ()
  intro c hc
  simp only [reconcileAfterReconnect, wp_bind, wp_get]
  split_ifs with hopen
  · simp only [wp_bind]
    rw [wp_engineCall]
    refine wp_mono abandonActiveForRecovery_givenUp ?_ fun _ _ h => h.elim
    intro abandoned s' hgiven
    rw [wp_bind, wp_modify, wp_bind]
    refine wp_mono (settleRecoveryTask_abandoning (hc.giveUp hopen hgiven)) ?_ fun _ _ h => h
    rintro _ c₁ ⟨hc₁, hnone⟩
    exact endRecovery_recovering hc₁ hnone
  · exact hc

theorem pollCore_recovering (now : ℚ) :
    Maintains (Controller.Recovering config) (pollCore world now) :=
  .tryCatch (.bind fetchAuthoritative_recovering fun _ =>
    .bind (reconcileAfterLoss_recovering _) fun _ => .modify fun _ hc =>
      hc.same ⟨rfl, rfl, rfl, rfl, rfl, rfl, rfl⟩)
    fun _ => noteCoreDown_recovering now

theorem observeRecovery_same (current : ControlState) (c : Controller) :
    c.SameRecovery (observeRecovery current c) := by
  unfold observeRecovery
  split_ifs <;> exact ⟨rfl, rfl, rfl, rfl, rfl, rfl, rfl⟩

/-- The watch sends what is due. -/
theorem due_of_should {current : ControlState}
    (hlost : c.coreLossRecovery = true ∨ c.coreDownSince ≠ none)
    (h : shouldRequestCoreLossRecovery (recoveryArgs config current c) = true) (recovery : ℕ) :
    RecoverySend.Due config ⟨current, c.session.engine.activeCommand, c.coreDownSince,
      c.coreLossRecovery, c.coreLossRecoveryConfirmed, c.coreLossRecoveryRelinquished,
      recovery⟩ := by
  unfold shouldRequestCoreLossRecovery at h
  split_ifs at h with hrunning hcommand hcontrol
  simp only [recoveryArgs, not_or, Bool.or_eq_true, Bool.not_eq_true', Bool.not_eq_true,
    Bool.not_eq_false] at hrunning hcommand hcontrol h
  refine ⟨hcontrol, hcommand.2, hcommand.1, ?_⟩
  by_cases hopen : c.coreLossRecovery = true
  · exact .inl ⟨hopen, hrunning⟩
  · rcases hsince : c.coreDownSince with _ | since
    · exact absurd hsince (hlost.resolve_left hopen)
    · have hgrace := of_decide_eq_true h
      rw [if_neg hopen, hsince] at hgrace
      exact .inr ⟨since, rfl, hgrace⟩

theorem requestRecovery_recovering (hc : c.Recovering config) {current : ControlState}
    (hdue : RecoverySend.Due config ⟨current, c.session.engine.activeCommand, c.coreDownSince,
      c.coreLossRecovery, c.coreLossRecoveryConfirmed, c.coreLossRecoveryRelinquished, c.recovery⟩)
    (hlater : ∀ last, c.lastCoreLossRecoveryAttemptMs = some last →
      last + 1000 ≤ current.nowMs) :
    (requestRecovery current c).Recovering config := by
  have hearlier : ∀ send ∈ c.sends, send.recovery = c.recovery →
      send.control.nowMs + 1000 ≤ current.nowMs := by
    intro send hmem heq
    obtain ⟨-, last, hlast, hle⟩ := (hc.numbered send hmem).2 heq
    have := hlater last hlast
    linarith
  refine ⟨hc.guarded.append trivial, fun hre => (hc.held hre).append fun _ h => ?_,
    hc.asked.append (fun x l₂ hx interrupted heq => ⟨.inr rfl, fun id hid => ?_⟩)
      fun interrupted heq => ⟨.inr rfl, fun id hid => ?_⟩,
    hc.gone.append (fun x l₂ hx id heq => ?_) fun id heq => .inr ⟨?_, rfl, ?_⟩,
    fun h => ⟨rfl, (hc.failing h).2⟩, fun send hmem => ?_, ?_, fun send hmem => ?_⟩
  · cases h
  · rcases (hx interrupted heq).2 id hid with hsettled | ⟨-, hother⟩
    · exact .inl (List.mem_append_left _ hsettled)
    · exact .inr ⟨rfl, hother⟩
  · cases heq
    obtain ⟨active, ha, hsame⟩ := Option.map_eq_some_iff.1 hid
    exact .inr ⟨rfl, .inr ⟨active, ha, hsame⟩⟩
  · rcases hx id heq with hgone | ⟨hopen, -, hexecutes⟩
    · exact .inl hgone
    · refine .inr ⟨?_, rfl, hexecutes⟩
      rintro ⟨confirmed, relinquished, hended, hmem⟩
      rcases List.mem_append.1 hmem with hold | hnew
      · exact hopen ⟨confirmed, relinquished, hended, hold⟩
      · cases List.mem_singleton.1 hnew
  · rintro ⟨_, _, -, hmem⟩
    cases hmem
  · obtain ⟨active, ha, hsame⟩ := Option.map_eq_some_iff.1 (Mark.requested.inj heq)
    exact ⟨active, ha, hsame⟩
  · rcases List.mem_append.1 hmem with hold | hnew
    · exact hc.due send hold
    · rw [List.mem_singleton.1 hnew]
      exact hdue
  · refine List.pairwise_append.2 ⟨hc.spaced, List.pairwise_singleton _ _, fun a ha b hb heq => ?_⟩
    cases List.mem_singleton.1 hb
    exact hearlier a ha heq
  · rcases List.mem_append.1 hmem with hold | hnew
    · refine ⟨(hc.numbered send hold).1, fun heq => ⟨rfl, current.nowMs, rfl, ?_⟩⟩
      have := hearlier send hold heq
      linarith
    · cases List.mem_singleton.1 hnew
      exact ⟨le_rfl, fun _ => ⟨rfl, current.nowMs, rfl, le_rfl⟩⟩

theorem watchCoreLossRecovery_recovering {current : ControlState} (hc : c.Recovering config)
    (hlost : c.coreLossRecovery = true ∨ c.coreDownSince ≠ none) :
    wp (watchCoreLossRecovery config world current) (fun _ => Controller.Recovering config)
      (fun _ => Controller.Recovering config) c := by
  rw [watchCoreLossRecovery, wp_bind, wp_modify, wp_bind, wp_get]
  have hsame := observeRecovery_same current c
  have hdown : (observeRecovery current c).coreDownSince = c.coreDownSince := by
    unfold observeRecovery
    split_ifs <;> rfl
  rw [← hsame.coreLossRecovery, ← hdown] at hlost
  have hc₁ := hsame.recovering hc
  generalize observeRecovery current c = c₁ at hc₁ hlost
  split_ifs with hshould hsoon
  · exact hc₁
  · exact hc₁
  · rw [wp_bind, wp_modify, wp_tryCatch]
    refine wp_mono (sendControl_recovering _ _ (requestRecovery_recovering hc₁
      (due_of_should hlost (by simpa using hshould) _) fun last hlast => ?_)) (fun _ _ h => h)
      fun _ _ h => h
    by_contra hearly
    rw [hlast] at hsoon
    refine hsoon (decide_eq_true ?_)
    show current.nowMs - last < 1000
    linarith

theorem controlAircraft_recovering :
    Maintains (Controller.Recovering config) (controlAircraft host config world) := by
  refine .bind latest_recovering fun current => ?_
  intro c hc
  rw [wp_bind, wp_get]
  split_ifs with hopen hdown
  · exact watchCoreLossRecovery_recovering hc (.inl hopen)
  · rw [wp_bind, wp_engineCall, wp_note, wp_tryCatch, wp_engineCall]
    have hclosed : c.coreLossRecovery = false := Bool.eq_false_iff.2 hopen
    have hrecovered : Recovered c.session.marks := by
      refine hc.asked.mono fun x l₂ _ hx interrupted heq => ⟨?_, fun id hid => ?_⟩
      · exact (hx interrupted heq).1.resolve_right hopen
      · exact ((hx interrupted heq).2 id hid).resolve_right fun h => hopen h.1
    have hmark : ∀ interrupted, Mark.ingest ≠ .requested interrupted := fun _ h => by cases h
    let gone : String → Prop := fun id => .requested (some id) ∈ c.session.marks
    have hsteady : Steady gone { c.session with marks := c.session.marks ++ [.ingest] } := by
      refine ⟨hc.guarded.append hrecovered, hrecovered.append hmark,
        fun hre => (hc.held hre).append fun _ h => ?_, fun id hmem => ?_, fun id hmem => ?_⟩
      · cases h
      · rcases List.mem_append.1 hmem with hold | hnew
        · exact hold
        · cases List.mem_singleton.1 hnew
      · obtain ⟨l₁, l₂, hsplit⟩ := List.append_of_mem hmem
        exact (hc.gone l₁ _ l₂ hsplit id rfl).resolve_right fun h => hopen h.2.1
    have hingested : ∀ s, Steady gone s → Controller.Recovering config { c with session := s } := by
      refine fun s hs => ⟨hs.guarded, hs.held, hs.recovered.mono fun x l₂ _ hx interrupted heq =>
        ⟨.inl (hx interrupted heq).1, fun id hid => .inl ((hx interrupted heq).2 id hid)⟩,
        fun l₁ x l₂ hsplit id heq => .inl (hs.ended id (hs.asked id ?_)), fun h => ?_, hc.due,
        hc.spaced, hc.numbered⟩
      · rw [hsplit, heq]
        exact List.mem_append_right _ List.mem_cons_self
      · exact absurd (hc.failing h).1 hopen
    exact wp_mono (ingest_steady hsteady) (fun _ s hs => hingested s hs) fun _ s hs =>
      noteCoreDown_recovering _ _ (hingested s hs)
  · refine watchCoreLossRecovery_recovering hc (.inr fun hnone => hdown ?_)
    rw [hnone]
    rfl

theorem LoopStep.recovering (step : LoopStep) :
    Maintains (Controller.Recovering config) (step.proc host config world) :=
  step.maintains (fun _ _ _ _ hc => hc.same ⟨rfl, rfl, rfl, rfl, rfl, rfl, rfl⟩) await_recovering
    noteCoreDown_recovering pollCore_recovering controlAircraft_recovering

variable {start : ControlState} {script : ℕ → Outcome}

theorem LoopRun.recovering (run : LoopRun host config world start script c) :
    c.Recovering config := by
  refine run.holds ⟨fun _ _ _ h => ?_, fun _ _ _ _ h => ?_, fun _ _ _ h => ?_, fun _ _ _ h => ?_,
    by simp, by simp, .nil, by simp⟩ LoopStep.recovering
  all_goals simp at h

/-- Core is gone from 2 s on; at 20 s the recovery of the flying aircraft begins. -/
def lostRun : Controller :=
  let script : ℕ → Outcome := fun k =>
    ⟨flying true 5 20000, if k = 0 then .error "Core is gone." else .ok ()⟩
  let c : Controller :=
    { session := { engine := {}, start := flying true 5 2000, script := script } }
  let c := (exec ((LoopStep.poll 2000).proc flightHost flightControl takeoffWorld) c).2
  (exec (LoopStep.control.proc flightHost flightControl takeoffWorld) c).2

end Controllers

end Atlas.Asset
