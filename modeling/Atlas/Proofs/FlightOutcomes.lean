import Atlas.Proofs.FlightTasks
import Atlas.Proofs.ControllerShutdown

/-!
# No flight outcome is lost

What becomes of a started Task is kept in two places, the report the engine owes and the Task the
controller has to fail, each of which holds one. An end is put in its place only when the place is
empty, and leaves it only when Core took it or tells that the Task is over.
-/

namespace Atlas.Asset

open Effects

variable {host : Host} {config : AssetConfig}

section Accounts

variable (known failing : String → Prop)

/-- Core took this end, or it is owed. -/
def Session.Holds (s : Session) (r : PendingTerminalReport) : Prop :=
  .terminal r ∈ s.accepted ∨ s.engine.pendingTerminalReport = some r

/-- A started Task is executed, known to be over, left for the controller to fail, or its end is
held. -/
def Session.Attends (s : Session) (taskId : String) : Prop :=
  (∃ active, s.engine.active = some active ∧ active.task.taskId = taskId) ∨ known taskId ∨
    failing taskId ∨ ∃ r, r.taskId = taskId ∧ s.Holds r

structure Accounted (s : Session) : Prop where
  starts : ∀ taskId ∈ startsOf s.reports, s.Attends known failing taskId
  owed : ∀ r ∈ s.owed, s.Holds r ∨ known r.taskId
  starting : ∀ e ∈ s.starting, e.pendingTerminalReport = none

/-- Nothing is owed besides. -/
def Clear (s : Session) : Prop :=
  Accounted known failing s ∧ s.engine.pendingTerminalReport = none

variable {known failing} {s s' : Session}

/-- The account goes on when what is executed and owed is attended to, and what is new is. -/
theorem Accounted.step (h : Accounted known failing s)
    (hstarts : ∀ taskId ∈ startsOf s'.reports,
      taskId ∈ startsOf s.reports ∨ s'.Attends known failing taskId)
    (hactive : ∀ active, s.engine.active = some active →
      s'.Attends known failing active.task.taskId)
    (haccepted : ∀ r ∈ s.accepted, r ∈ s'.accepted)
    (hpending : ∀ r, s.engine.pendingTerminalReport = some r → s'.Holds r ∨ known r.taskId)
    (howed : ∀ r ∈ s'.owed, r ∈ s.owed ∨ s'.Holds r)
    (hstarting : ∀ e ∈ s'.starting, e ∈ s.starting ∨ e.pendingTerminalReport = none) :
    Accounted known failing s' where
  starts := by
    intro taskId hmem
    rcases hstarts taskId hmem with hold | hnew
    · rcases h.starts taskId hold with ⟨active, ha, rfl⟩ | hknown | hfailing | ⟨r, rfl, hr | hr⟩
      · exact hactive active ha
      · exact .inr (.inl hknown)
      · exact .inr (.inr (.inl hfailing))
      · exact .inr (.inr (.inr ⟨r, rfl, .inl (haccepted _ hr)⟩))
      · rcases hpending r hr with hholds | hknown
        · exact .inr (.inr (.inr ⟨r, rfl, hholds⟩))
        · exact .inr (.inl hknown)
    · exact hnew
  owed := by
    intro r hmem
    rcases howed r hmem with hold | hnew
    · rcases h.owed r hold with (hr | hr) | hknown
      · exact .inl (.inl (haccepted _ hr))
      · exact hpending r hr
      · exact .inr hknown
    · exact .inl hnew
  starting := by
    intro e hmem
    rcases hstarting e hmem with hold | hnone
    · exact h.starting e hold
    · exact hnone

/-- What the engine executes and owes is kept, and nothing is reported. -/
theorem Accounted.congr (h : Accounted known failing s)
    (hreports : startsOf s'.reports = startsOf s.reports)
    (hactive : ∀ active, s.engine.active = some active →
      s'.Attends known failing active.task.taskId)
    (haccepted : s'.accepted = s.accepted) (howed : s'.owed = s.owed)
    (hstarting : s'.starting = s.starting)
    (hpending : s'.engine.pendingTerminalReport = s.engine.pendingTerminalReport) :
    Accounted known failing s' := by
  refine h.step (fun id hid => .inl (hreports ▸ hid)) hactive (fun r hr => haccepted ▸ hr)
    (fun r hr => .inl (.inr (hpending.trans hr))) (fun r hr => .inl (howed ▸ hr))
    fun e he => .inl (hstarting ▸ he)

theorem Session.Attends.active {active : ActiveExecution} (ha : s.engine.active = some active) :
    s.Attends known failing active.task.taskId := .inl ⟨active, ha, rfl⟩

theorem Session.Kept.accounted (h : s.Kept s') (hs : Accounted known failing s) :
    Accounted known failing s' := by
  refine hs.congr (by rw [h.reports]) (fun active ha => ?_) h.accepted h.owed h.starting
    (by rw [h.engine])
  exact .active (h.engine ▸ ha)

theorem Session.Kept.clear (h : s.Kept s') (hs : Clear known failing s) :
    Clear known failing s' :=
  ⟨h.accounted hs.1, by rw [h.engine]; exact hs.2⟩

/-- With nothing owed, a Task's end may be. The Task may have been executed until now, or have just
been started. -/
theorem Clear.owe (h : Clear known failing s) {r : PendingTerminalReport}
    (hreports : ∀ taskId ∈ startsOf s'.reports, taskId ∈ startsOf s.reports ∨ taskId = r.taskId)
    (hactive : ∀ active, s.engine.active = some active →
      active.task.taskId = r.taskId ∨ s'.engine.active = some active)
    (haccepted : ∀ r ∈ s.accepted, r ∈ s'.accepted) (howed : s'.owed = s.owed ++ [r])
    (hstarting : ∀ e ∈ s'.starting, e ∈ s.starting ∨ e.pendingTerminalReport = none)
    (hpending : s'.engine.pendingTerminalReport = some r) :
    Accounted known failing s' := by
  have hown : s'.Attends known failing r.taskId := .inr (.inr (.inr ⟨r, rfl, .inr hpending⟩))
  refine h.1.step (fun id hid => ?_) (fun active ha => ?_) haccepted (fun r' hr' => ?_)
    (fun r' hr' => ?_) hstarting
  · rcases hreports id hid with hold | rfl
    · exact .inl hold
    · exact .inr hown
  · rcases hactive active ha with hid | hsame
    · rw [hid]
      exact hown
    · exact .active hsame
  · rw [h.2] at hr'
    cases hr'
  · rw [howed] at hr'
    rcases List.mem_append.1 hr' with hold | hnew
    · exact .inl hold
    · cases List.mem_singleton.1 hnew
      exact .inr (.inr hpending)

end Accounts

section Reports

variable {known failing : String → Prop} {s : Session}

theorem flushTerminalReport_clear (hs : Accounted known failing s) :
    wp flushTerminalReport
      (fun _ s' => Clear known failing s' ∧
        s'.engine = { s.engine with pendingTerminalReport := none })
      (fun _ => Accounted known failing) s := by
  simp only [flushTerminalReport, wp_bind, wp_getEngine]
  split
  · rename_i hp
    refine ⟨⟨hs, hp⟩, ?_⟩
    rw [← hp]
  · rename_i pending hp
    have hstarts := startsOf_terminal s.reports pending
    simp only [wp_bind]
    refine wp_report_passed ?_ fun _ => ?_
    · rw [wp_modifyEngine, if_pos hp]
      refine ⟨⟨hs.step (fun id hid => .inl (hstarts ▸ hid)) (fun active ha => .active ha)
        (fun r hr => List.mem_append_left _ hr) (fun r hr => ?_) (fun r hr => .inl hr)
        fun e he => .inl he, rfl⟩, rfl⟩
      cases hp.symm.trans hr
      exact .inl (.inl (List.mem_append_right _ (List.mem_singleton_self _)))
    · exact hs.congr hstarts (fun active ha => .active ha) rfl rfl rfl rfl

theorem reportTerminal_clear {pending : PendingTerminalReport}
    (hs : Accounted known failing
      { s with
        engine := { s.engine with pendingTerminalReport := some pending }
        owed := s.owed ++ [pending] }) :
    wp (reportTerminal pending)
      (fun _ s' => Clear known failing s' ∧
        s'.engine = { s.engine with pendingTerminalReport := none })
      (fun _ => Accounted known failing) s := by
  simp only [reportTerminal, wp_bind, wp_owe]
  exact wp_mono (flushTerminalReport_clear hs) (fun _ _ h => h) fun _ _ h => h

theorem noteTakeover_clear {mode : String} (hs : Clear known failing s) :
    wp (noteTakeover mode) (fun _ => Clear known failing) (fun _ => Accounted known failing) s := by
  simp only [noteTakeover, wp_bind, wp_getEngine]
  split
  · exact hs
  · rename_i active ha
    by_cases hm : mode ∈ active.expectedModes
    · rw [if_pos hm]
      exact hs
    · simp only [hm, if_false, wp_bind, wp_modifyEngine]
      refine wp_mono (reportTerminal_clear ?_) (fun _ _ h => h.1) fun _ _ h => h
      refine hs.owe (fun id hid => .inl hid) (fun a ha' => .inl ?_) (fun r hr => hr) rfl
        (fun e he => .inl he) rfl
      cases ha.symm.trans ha'
      rfl

theorem observeMode_clear {snapshot : VehicleSnapshot} (hs : Clear known failing s) :
    wp (observeMode snapshot) (fun _ => Clear known failing) (fun _ => Accounted known failing)
      s := by
  simp only [observeMode, wp_bind, wp_getEngine]
  split
  · exact hs
  · simp only [wp_bind, wp_modifyEngine]
    have ht : Clear known failing
        { s with engine := { s.engine with lastMode := some snapshot.mode } } :=
      ⟨hs.1.congr rfl (fun active ha => .active ha) rfl rfl rfl rfl, hs.2⟩
    split_ifs
    · exact noteTakeover_clear ht
    · exact noteTakeover_clear ht
    · exact ht

theorem reject_clear {taskId message : String} (hs : Clear known failing s) :
    wp (do
        modifyEngine (Engine.finish taskId)
        reportTerminal (.fail taskId .preconditionFailed message))
      (fun _ s' => Clear known failing s' ∧ s'.engine.active = s.engine.active)
      (fun _ => Accounted known failing) s := by
  simp only [wp_bind, wp_modifyEngine]
  refine wp_mono (reportTerminal_clear ?_) ?_ fun _ _ h => h
  · exact hs.owe (fun id hid => .inl hid) (fun a ha => .inr ha) (fun r hr => hr) rfl
      (fun e he => .inl he) rfl
  · rintro _ s' ⟨hs', he⟩
    exact ⟨hs', by rw [he]; rfl⟩

theorem rejectGotoDuringTakeoff_clear {tasks : List AuthoritativeTask}
    (hs : Clear known failing s) :
    wp (rejectGotoDuringTakeoff tasks) (fun _ => Clear known failing)
      (fun _ => Accounted known failing) s := by
  simp only [rejectGotoDuringTakeoff, wp_bind, wp_getEngine]
  split_ifs
  · refine wp_forM (I := fun _ => Clear known failing) ?_ tasks s hs
    intro task rest s' hs'
    simp only [wp_bind, wp_getEngine]
    split_ifs
    · exact wp_mono (reject_clear hs') (fun _ _ h => h.1) fun _ _ h => h
    · exact hs'
  · exact hs

theorem rejectPendingOutsideGuided_clear {tasks : List AuthoritativeTask}
    {snapshot : VehicleSnapshot} {nowMs : ℚ} (hs : Clear known failing s) :
    wp (rejectPendingOutsideGuided host config tasks snapshot nowMs)
      (fun _ => Clear known failing) (fun _ => Accounted known failing) s := by
  refine wp_forM (I := fun _ => Clear known failing) ?_ tasks s hs
  intro task rest s' hs'
  simp only [wp_bind, wp_getEngine]
  split_ifs
  · exact hs'
  · exact wp_mono (reject_clear hs') (fun _ _ h => h.1) fun _ _ h => h

end Reports

section Execution

variable {known failing : String → Prop} {s : Session}

theorem failActive_clear {code : FailureCode} {message : String} {c : ControlState}
    (hs : Clear known failing s) :
    wp (failActive config code message c.snapshot c.nowMs) (fun _ => Clear known failing)
      (fun _ => Accounted known failing) s := by
  simp only [failActive, wp_bind, wp_getEngine]
  split
  · exact hs
  · rename_i active ha
    simp only [wp_bind, wp_modifyEngine, wp_owe]
    set t : Session := { s with
      engine := { s.engine.finish active.task.taskId with
        active := none
        pendingTerminalReport := some (.fail active.task.taskId code message) }
      owed := s.owed ++ [.fail active.task.taskId code message] }
    have ht : Accounted known failing t := by
      refine hs.owe (r := .fail active.task.taskId code message) (fun id hid => .inl hid)
        (fun a ha' => .inl ?_) (fun r hr => hr) rfl (fun e he => .inl he) rfl
      cases ha.symm.trans ha'
      rfl
    refine wp_mono recoverFailed_kept ?_ fun _ _ h => h.accounted ht
    intro _ s' hkept
    exact wp_mono (flushTerminalReport_clear (hkept.accounted ht)) (fun _ _ h => h.1)
      fun _ _ h => h

theorem completeActive_clear {active active' : ActiveExecution} {c : ControlState}
    (hs : Clear known failing s) (ha : s.engine.active = some active)
    (hsame : active'.task = active.task) :
    wp (completeActive host config active' c.snapshot c.nowMs) (fun _ => Clear known failing)
      (fun _ => Accounted known failing) s := by
  have htask := isComplete_task host config active' c.snapshot c.nowMs
  simp only [completeActive]
  split_ifs
  · simp only [wp_bind, wp_modifyEngine]
    refine wp_mono (reportTerminal_clear ?_) (fun _ _ h => h.1) fun _ _ h => h
    refine hs.owe (fun id hid => .inl hid) (fun a ha' => .inl ?_) (fun r hr => hr) rfl
      (fun e he => .inl he) rfl
    cases ha.symm.trans ha'
    rw [PendingTerminalReport.taskId, htask, hsame]
  · rw [wp_modifyEngine]
    refine ⟨hs.1.congr rfl (fun a ha' => .inl ⟨_, rfl, ?_⟩) rfl rfl rfl rfl, hs.2⟩
    cases ha.symm.trans ha'
    rw [htask, hsame]

theorem advance_clear {c : ControlState} (hs : Clear known failing s) :
    wp (advance host config c.snapshot c.nowMs) (fun _ => Clear known failing)
      (fun _ => Accounted known failing) s := by
  simp only [advance, wp_bind, wp_getEngine]
  split
  · exact hs
  · rename_i active ha
    split_ifs
    · exact failActive_clear hs
    · exact failActive_clear hs
    · exact completeActive_clear hs ha (noteProgress_task _ _ _)

/-- From `s`, where nothing was executed or owed, a Task's start was reported. -/
structure JustStarted (taskId : String) (s s₁ : Session) : Prop where
  engine : s₁.engine = s.engine
  reports : s₁.reports = s.reports ++ [.start taskId]
  accepted : ∀ r ∈ s.accepted, r ∈ s₁.accepted
  owed : s₁.owed = s.owed
  starting : ∀ e ∈ s₁.starting, e ∈ s.starting ∨ e.pendingTerminalReport = none

theorem JustStarted.starts {taskId : String} {s₁ : Session} (h : JustStarted taskId s s₁) :
    ∀ other ∈ startsOf s₁.reports, other ∈ startsOf s.reports ∨ other = taskId := by
  intro other hmem
  rw [h.reports] at hmem
  exact mem_starts hmem

theorem executeCandidate_clear {candidate : AuthoritativeTask} {s₁ : Session}
    (hs : Clear known failing s) (hidle : s.engine.active = none)
    (hstart : JustStarted candidate.taskId s s₁) :
    wp (executeCandidate host config candidate) (fun _ => Clear known failing)
      (fun _ => Accounted known failing) s₁ := by
  simp only [executeCandidate, wp_bind, wp_modify, wp_getControlState]
  split_ifs with hp
  · simp only [wp_bind, wp_modifyEngine, wp_modify, wp_note, wp_tryCatch]
    set t : Session := { s₁ with
      engine := { s₁.engine with active := some (newExecution host candidate s₁.latest) }
      started := s₁.started ++ [⟨candidate, s₁.awaited⟩]
      dispatched := s₁.dispatched ++ [⟨candidate, s₁.awaited⟩]
      marks := s₁.marks ++ [.dispatch candidate] }
    have hpending : t.engine.pendingTerminalReport = none := by
      show s₁.engine.pendingTerminalReport = none
      rw [hstart.engine]
      exact hs.2
    have ht : Clear known failing t := by
      refine ⟨hs.1.step (fun id hid => ?_) (fun a ha => ?_) hstart.accepted (fun r hr => ?_)
        (fun r hr => .inl (hstart.owed ▸ hr)) hstart.starting, hpending⟩
      · rcases hstart.starts id hid with hold | rfl
        · exact .inl hold
        · exact .inr (.inl ⟨_, rfl, rfl⟩)
      · rw [hidle] at ha
        cases ha
      · rw [hs.2] at hr
        cases hr
    refine wp_mono dispatch_kept (fun _ _ h => h.clear ht) ?_
    intro message s' hkept
    refine wp_mono (reportTerminal_clear ?_) (fun _ _ h => h.1) fun _ _ h => h
    have ha : s'.engine.active = some (newExecution host candidate s₁.latest) :=
      congrArg Engine.active hkept.engine
    refine (hkept.clear ht).owe (fun id hid => .inl hid) (fun a ha' => .inl ?_) (fun r hr => hr) rfl
      (fun e he => .inl he) rfl
    cases ha.symm.trans ha'
    rfl
  · simp only [rejectCandidate, wp_bind, wp_modifyEngine]
    refine wp_mono (reportTerminal_clear ?_) (fun _ _ h => h.1) fun _ _ h => h
    refine hs.owe (r := .fail candidate.taskId .preconditionFailed (joined _)) hstart.starts
      (fun a ha => ?_) hstart.accepted ?_ hstart.starting rfl
    · rw [hidle] at ha
      cases ha
    · show s₁.owed ++ _ = _
      rw [hstart.owed]

theorem adoptNext_clear {tasks : List AuthoritativeTask} {c : ControlState}
    (hs : Clear known failing s) (hidle : s.engine.active = none) :
    wp (adoptNext host config tasks c.snapshot c.nowMs) (fun _ => Clear known failing)
      (fun _ => Accounted known failing) s := by
  simp only [adoptNext, wp_bind, wp_getEngine]
  split
  · exact hs
  · rename_i candidate _
    have hstarting : ∀ e ∈ s.starting ++ [s.engine],
        e ∈ s.starting ∨ e.pendingTerminalReport = none := by
      intro e he
      rcases List.mem_append.1 he with hold | hnew
      · exact .inl hold
      · rw [List.mem_singleton.1 hnew]
        exact .inr hs.2
    split_ifs
    · simp only [wp_bind, wp_modify, wp_tryCatch]
      refine wp_report_passed ?_ fun message => ?_
      · rw [wp_bind]
        exact executeCandidate_clear hs hidle
          ⟨rfl, rfl, fun r hr => List.mem_append_left _ hr, rfl, hstarting⟩
      · simp only [wp_bind, wp_modifyEngine, wp_owe, wp_throw]
        refine hs.owe (r := .fail candidate.taskId .executionFailed _)
          (fun id hid => mem_starts hid) (fun a ha => ?_) (fun r hr => hr) rfl hstarting rfl
        rw [hidle] at ha
        cases ha
    · rw [wp_bind, rejectCandidate]
      exact wp_mono (reject_clear hs) (fun _ _ h => h.1) fun _ _ h => h

theorem adoptAndAdvance_clear {tasks : List AuthoritativeTask} {c : ControlState}
    (hs : Clear known failing s) :
    wp (adoptAndAdvance host config tasks c) (fun _ => Clear known failing)
      (fun _ => Accounted known failing) s := by
  simp only [adoptAndAdvance, wp_bind, wp_getEngine]
  split_ifs with hidle
  · simp only [wp_bind]
    refine wp_mono (adoptNext_clear hs (by simpa using hidle)) ?_ fun _ _ h => h
    intro _ s' hs'
    exact advance_clear hs'
  · exact advance_clear hs

theorem ingestTasks_clear {tasks : List AuthoritativeTask} {c : ControlState}
    (hs : Clear known failing s) :
    wp (ingestTasks host config tasks c) (fun _ => Clear known failing)
      (fun _ => Accounted known failing) s := by
  rw [ingestTasks, wp_bind]
  refine wp_mono (rejectGotoDuringTakeoff_clear hs) ?_ fun _ _ h => h
  intro _ s' hs'
  rw [wp_bind, wp_getEngine]
  split_ifs
  · simp only [wp_bind, wp_getControlState]
    refine wp_mono establishHold_kept ?_ fun _ _ h => h.accounted hs'.1
    intro sent s'' hkept
    have hs'' := hkept.clear hs'
    split_ifs
    · simp only [wp_bind, wp_getControlState, wp_modifyEngine]
      exact adoptAndAdvance_clear
        ⟨hs''.1.congr rfl (fun a ha => .active ha) rfl rfl rfl rfl, hs''.2⟩
    · exact hs''
  · exact adoptAndAdvance_clear hs'

/-- Looked up among Core's Tasks, a Task is executed on or known to be over, and so with an end
owed. -/
theorem reconcileAuthoritative_account {tasks : List AuthoritativeTask} (known : String → Prop)
    (e : Engine)
    (hknown : ∀ task ∈ tasks, task.status.terminal = true → known task.taskId) :
    (∀ active, e.active = some active →
      (∃ active', (reconcileAuthoritative tasks e).active = some active' ∧
        active'.task.taskId = active.task.taskId) ∨ known active.task.taskId) ∧
    ∀ r, e.pendingTerminalReport = some r →
      (reconcileAuthoritative tasks e).pendingTerminalReport = some r ∨ known r.taskId := by
  have hfold : ∀ (ended : List AuthoritativeTask) (e : Engine),
      (ended.foldl (fun e task => e.finish task.taskId) e).active = e.active ∧
        (ended.foldl (fun e task => e.finish task.taskId) e).pendingTerminalReport =
          e.pendingTerminalReport := by
    intro ended
    induction ended with
    | nil => exact fun e => ⟨rfl, rfl⟩
    | cons task ended ih => exact fun e => ih (e.finish task.taskId)
  have hpending : (reconcilePending (taskById tasks) e).active = e.active ∧
      ∀ r, e.pendingTerminalReport = some r →
        (reconcilePending (taskById tasks) e).pendingTerminalReport = some r ∨ known r.taskId := by
    unfold reconcilePending
    split
    · exact ⟨rfl, fun r hr => .inl hr⟩
    · rename_i pending hp
      split_ifs with hover
      · refine ⟨rfl, fun r hr => .inr ?_⟩
        cases hp.symm.trans hr
        obtain ⟨task, hfound, hterminal⟩ := (Option.any_eq_true _ _).1 hover
        obtain ⟨hmem, hid⟩ := taskById_some hfound
        rw [← hid]
        exact hknown task hmem hterminal
      · exact ⟨rfl, fun r hr => .inl hr⟩
  unfold reconcileAuthoritative
  generalize reconcilePending (taskById tasks) e = e₁ at *
  simp only [(hfold _ _).1, (hfold _ _).2]
  unfold reconcileActive
  split
  · rename_i ha
    refine ⟨fun active hactive => ?_, hpending.2⟩
    rw [← hpending.1, ha] at hactive
    cases hactive
  · rename_i active ha
    have hsame : ∀ active', e.active = some active' → active' = active := by
      intro active' ha'
      rw [← hpending.1, ha] at ha'
      exact (Option.some.inj ha').symm
    split
    · refine ⟨fun active' ha' => .inl ⟨active, ha, ?_⟩, hpending.2⟩
      rw [hsame active' ha']
    · rename_i authoritative hfound
      obtain ⟨hmem, hid⟩ := taskById_some hfound
      split_ifs with hterminal
      · refine ⟨fun active' ha' => .inr ?_, hpending.2⟩
        rw [hsame active' ha', ← hid]
        exact hknown authoritative hmem hterminal
      · refine ⟨fun active' ha' => .inl ⟨_, rfl, ?_⟩, hpending.2⟩
        rw [hsame active' ha']
        exact hid

theorem ingest_accounted {tasks : List AuthoritativeTask} {c : ControlState}
    (hknown : ∀ task ∈ tasks, task.status.terminal = true → known task.taskId)
    (hs : Accounted known failing s) :
    wp (ingest host config tasks c.snapshot c.nowMs) (fun _ => Accounted known failing)
      (fun _ => Accounted known failing) s := by
  simp only [ingest, wp_bind, wp_modifyEngine]
  obtain ⟨hactive, hpending⟩ := reconcileAuthoritative_account known s.engine hknown
  have hs₀ : Accounted known failing
      { s with engine := reconcileAuthoritative tasks s.engine } := by
    refine hs.step (fun id hid => .inl hid) (fun active ha => ?_) (fun r hr => hr) (fun r hr => ?_)
      (fun r hr => .inl hr) fun e he => .inl he
    · rcases hactive active ha with hgoes | hover
      · exact .inl hgoes
      · exact .inr (.inl hover)
    · rcases hpending r hr with hstill | hover
      · exact .inl (.inr hstill)
      · exact .inr hover
  refine wp_mono (flushTerminalReport_clear hs₀) ?_ fun _ _ h => h
  rintro _ s₁ ⟨hs₁, -⟩
  rw [wp_bind]
  refine wp_mono (observeMode_clear hs₁) ?_ fun _ _ h => h
  intro _ s₂ hs₂
  rw [wp_bind, wp_getEngine]
  split_ifs
  · simp only [wp_bind]
    refine wp_mono establishHold_kept ?_ fun _ _ h => h.accounted hs₂.1
    intro sent s₃ hkept
    have hs₃ := hkept.clear hs₂
    split_ifs
    · simp only [wp_bind, wp_getControlState, wp_modifyEngine]
      exact wp_mono (ingestTasks_clear
        ⟨hs₃.1.congr rfl (fun a ha => .active ha) rfl rfl rfl rfl, hs₃.2⟩)
        (fun _ _ h => h.1) fun _ _ h => h
    · exact hs₃.1
  · exact wp_mono (rejectPendingOutsideGuided_clear hs₂) (fun _ _ h => h.1) fun _ _ h => h
  · exact wp_mono (ingestTasks_clear hs₂) (fun _ _ h => h.1) fun _ _ h => h

end Execution

section Controllers

/-- Core has answered that the Task is over. -/
def Controller.Known (c : Controller) (taskId : String) : Prop :=
  ∃ task ∈ c.answered, task.taskId = taskId ∧ task.status.terminal = true

def Controller.Failing (c : Controller) (taskId : String) : Prop :=
  c.recoveryTaskToFail = some taskId

/-- The controller has a Task to fail only during a recovery, while the engine executes nothing. -/
structure Controller.Accounted (c : Controller) : Prop where
  account : Asset.Accounted c.Known c.Failing c.session
  tasks : ∀ task ∈ c.lastTasks, task ∈ c.answered
  failing : c.recoveryTaskToFail ≠ none →
    c.coreLossRecovery = true ∧ c.session.engine.active = none

/-- The controller waits, and keeps what its account is about. -/
structure Controller.Stays (c c' : Controller) : Prop where
  session : c.session.Kept c'.session
  coreLossRecovery : c'.coreLossRecovery = c.coreLossRecovery
  lastTasks : c'.lastTasks = c.lastTasks
  recoveryTaskToFail : c'.recoveryTaskToFail = c.recoveryTaskToFail
  answered : c'.answered = c.answered

variable {world : World} {c c' : Controller}

/-- More is known, and what the controller had to fail is attended to otherwise. -/
theorem Accounted.mono {known known' failing failing' : String → Prop} {s : Session}
    (h : Accounted known failing s) (hknown : ∀ taskId, known taskId → known' taskId)
    (hfailing : ∀ taskId, failing taskId → s.Attends known' failing' taskId) :
    Accounted known' failing' s where
  starts := by
    intro taskId hmem
    rcases h.starts taskId hmem with hactive | hover | hfail | hheld
    · exact .inl hactive
    · exact .inr (.inl (hknown taskId hover))
    · exact hfailing taskId hfail
    · exact .inr (.inr (.inr hheld))
  owed := fun r hr => (h.owed r hr).imp_right (hknown r.taskId)
  starting := h.starting

theorem Controller.Stays.accounted (h : c.Stays c') (hc : c.Accounted) : c'.Accounted where
  account := by
    refine Accounted.mono (h.session.accounted hc.account) (fun id hid => ?_) fun id hid => ?_
    · rw [Controller.Known, h.answered]
      exact hid
    · rw [Controller.Failing, ← h.recoveryTaskToFail] at hid
      exact .inr (.inr (.inl hid))
  tasks := by
    rw [h.lastTasks, h.answered]
    exact hc.tasks
  failing := by
    rw [h.recoveryTaskToFail, h.coreLossRecovery, h.session.engine]
    exact hc.failing

theorem noteAcknowledged_stays (c : Controller) : c.Stays (noteAcknowledged world c) := by
  unfold noteAcknowledged
  split_ifs
  · exact ⟨.refl _, rfl, rfl, rfl, rfl⟩
  · exact ⟨.refl _, rfl, rfl, rfl, rfl⟩

/-- A call of the engine that only waits or sends. -/
theorem engineCall_stays {α : Type} {m : Proc α} {c₁ : Controller} (h : c.Stays c₁)
    (hm : ∀ s, wp m (fun _ => s.Kept) (fun _ => s.Kept) s) :
    wp (engineCall m) (fun _ => c.Stays) (fun _ => c.Stays) c₁ := by
  have hstays : ∀ s, c₁.session.Kept s → c.Stays { c₁ with session := s } := fun s hs =>
    ⟨⟨hs.engine.trans h.session.engine, hs.reports.trans h.session.reports,
      hs.dispatched.trans h.session.dispatched, hs.starting.trans h.session.starting,
      hs.accepted.trans h.session.accepted, hs.owed.trans h.session.owed⟩,
      h.coreLossRecovery, h.lastTasks, h.recoveryTaskToFail, h.answered⟩
  rw [wp_engineCall]
  exact wp_mono (hm _) (fun _ s hs => hstays s hs) fun _ s hs => hstays s hs

theorem awaitOutcome_kept {s : Session} :
    wp awaitOutcome (fun _ => s.Kept) (fun _ => s.Kept) s :=
  wp_awaitOutcome (fun _ => ⟨rfl, rfl, rfl, rfl, rfl, rfl⟩) fun _ =>
    ⟨rfl, rfl, rfl, rfl, rfl, rfl⟩

theorem await_stays : wp (await world) (fun _ => c.Stays) (fun _ => c.Stays) c := by
  rw [await, wp_bind, wp_modify]
  exact engineCall_stays (noteAcknowledged_stays c) fun _ => awaitOutcome_kept

theorem await_accounted : Maintains Controller.Accounted (await world) := fun _ hc =>
  wp_mono await_stays (fun _ _ h => h.accounted hc) fun _ _ h => h.accounted hc

theorem latest_accounted : Maintains Controller.Accounted latest := fun _ hc => hc

theorem sendControl_accounted (message : MavLinkData) :
    Maintains Controller.Accounted (sendControl world message) := by
  intro c hc
  rw [sendControl, wp_bind, wp_modify]
  exact wp_mono (engineCall_stays (noteAcknowledged_stays c) fun _ => send_kept message)
    (fun _ _ h => h.accounted hc) fun _ _ h => h.accounted hc

theorem noteCoreDown_accounted (now : ℚ) : Maintains Controller.Accounted (noteCoreDown now) :=
  .modify fun _ hc => ⟨hc.account, hc.tasks, hc.failing⟩

/-- Core's answer adds to what is known. -/
theorem Controller.Accounted.answer (hc : c.Accounted) (tasks : List AuthoritativeTask) :
    Controller.Accounted { c with answered := c.answered ++ tasks } where
  account := hc.account.mono
    (fun _ ⟨task, hmem, hover⟩ => ⟨task, List.mem_append_left _ hmem, hover⟩)
    fun _ hid => .inr (.inr (.inl hid))
  tasks := fun task hmem => List.mem_append_left _ (hc.tasks task hmem)
  failing := hc.failing

theorem fetchAuthoritative_accounted (hc : c.Accounted) :
    wp (fetchAuthoritative world)
      (fun tasks c' => c'.Accounted ∧ ∀ task ∈ tasks, task ∈ c'.answered)
      (fun _ => Controller.Accounted) c := by
  have hask {α : Type} (answer : ℕ → α) {c : Controller} (hc : c.Accounted) :
      wp (ask world answer) (fun _ c' => c'.Accounted ∧ c'.answered = c.answered)
        (fun _ => Controller.Accounted) c := by
    simp only [ask, wp_bind, wp_get]
    exact wp_mono await_stays (fun _ _ h => ⟨h.accounted hc, h.answered⟩)
      fun _ _ h => h.accounted hc
  rw [fetchAuthoritative, wp_bind]
  refine wp_mono (hask _ hc) ?_ fun _ _ h => h
  rintro tasks c₁ ⟨hc₁, -⟩
  simp only [wp_bind, wp_modify, wp_get]
  have hc₂ := hc₁.answer tasks
  split
  · exact ⟨hc₂, fun task hmem => List.mem_append_right _ hmem⟩
  · split_ifs
    · exact ⟨hc₂, fun task hmem => List.mem_append_right _ hmem⟩
    · simp only [wp_bind]
      refine wp_mono (hask _ hc₂) ?_ fun _ _ h => h
      rintro task c₃ ⟨hc₃, hanswered⟩
      rw [wp_bind, wp_modify, wp_pure]
      refine ⟨hc₃.answer [task], fun other hmem => ?_⟩
      rcases List.mem_append.1 hmem with hmem | hmem
      · refine List.mem_append_left _ ?_
        rw [hanswered]
        exact List.mem_append_right _ hmem
      · exact List.mem_append_right _ hmem

/-- What abandoning leaves: nothing executed, and the Task that was. -/
structure Abandoned (s : Session) (abandoned : Option String) (s' : Session) : Prop where
  idle : s'.engine.active = none
  abandoned_eq : abandoned = s.engine.active.map (·.task.taskId)
  reports : s'.reports = s.reports
  accepted : s'.accepted = s.accepted
  owed : s'.owed = s.owed
  starting : s'.starting = s.starting
  pending : s'.engine.pendingTerminalReport = s.engine.pendingTerminalReport

theorem abandonActiveForRecovery_abandoned {s : Session} {reholdOnGuided : Bool} :
    wp (abandonActiveForRecovery reholdOnGuided) (Abandoned s) (fun _ _ => False) s := by
  simp only [abandonActiveForRecovery, wp_bind, wp_modifyEngine, wp_getEngine]
  split
  · rename_i ha
    have ha' : s.engine.active = none := ha
    exact ⟨ha, by rw [ha']; rfl, rfl, rfl, rfl, rfl, rfl⟩
  · rename_i active ha
    have ha' : s.engine.active = some active := ha
    exact ⟨rfl, by rw [ha']; rfl, rfl, rfl, rfl, rfl, rfl⟩

/-- The abandoned Task is the one to fail: there was no other. -/
theorem Controller.Accounted.abandon (hc : c.Accounted) (hrecovery : c.coreLossRecovery = true)
    {abandoned : Option String} {s' : Session} (h : Abandoned c.session abandoned s') :
    Controller.Accounted
      { c with session := s', recoveryTaskToFail := c.recoveryTaskToFail.or abandoned } := by
  have hfailing : ∀ id, c.Failing id → c.recoveryTaskToFail.or abandoned = some id := by
    intro id hid
    rw [Controller.Failing] at hid
    rw [hid]
    rfl
  have hold : Asset.Accounted c.Known (fun id => c.recoveryTaskToFail.or abandoned = some id)
      c.session :=
    hc.account.mono (fun _ hid => hid) fun id hid => .inr (.inr (.inl (hfailing id hid)))
  refine ⟨hold.congr (by rw [h.reports]) (fun active ha => ?_) h.accepted h.owed h.starting
    h.pending, hc.tasks, fun _ => ⟨hrecovery, h.idle⟩⟩
  have hnone : c.recoveryTaskToFail = none := by
    by_contra hsome
    rw [(hc.failing hsome).2] at ha
    cases ha
  refine .inr (.inr (.inl ?_))
  rw [hnone, h.abandoned_eq, ha]
  rfl

theorem settleRecoveryTask_accounted {tasks : List AuthoritativeTask} (hc : c.Accounted)
    (htasks : ∀ task ∈ tasks, task ∈ c.answered) :
    wp (settleRecoveryTask world tasks)
      (fun _ c' => c'.Accounted ∧ c'.recoveryTaskToFail = none ∧ ∀ task ∈ tasks, task ∈ c'.answered)
      (fun _ => Controller.Accounted) c := by
  simp only [settleRecoveryTask, wp_bind, wp_get]
  split
  · rename_i hnone
    exact ⟨hc, hnone, htasks⟩
  · rename_i taskId hsome
    simp only [failInterrupted, wp_bind]
    split_ifs with hover
    · -- Core says that the Task is over.
      rw [wp_pure, wp_bind, wp_engineCall, wp_note, wp_modify]
      refine ⟨⟨Asset.Accounted.mono (Session.Kept.accounted (s := c.session)
        ⟨rfl, rfl, rfl, rfl, rfl, rfl⟩ hc.account) (fun _ hid => hid)
        fun id hid => .inr (.inl ?_), hc.tasks,
        fun h => absurd rfl h⟩, rfl, htasks⟩
      obtain ⟨task, hfound, hterminal⟩ := (Option.any_eq_true _ _).1 hover
      have hid' : taskId = id := Option.some.inj (hsome.symm.trans hid)
      exact ⟨task, htasks task (List.mem_of_find?_eq_some hfound),
        by simpa [hid'] using List.find?_some hfound, hterminal⟩
    · rw [wp_bind]
      refine wp_mono await_stays ?_ fun _ _ h => h.accounted hc
      intro _ c₁ hstays
      have hc₁ := hstays.accounted hc
      rw [wp_engineCall, wp_modify, wp_bind, wp_engineCall, wp_note, wp_modify]
      have hsome₁ : c₁.recoveryTaskToFail = some taskId := hstays.recoveryTaskToFail.trans hsome
      refine ⟨⟨?_, hc₁.tasks, fun h => absurd rfl h⟩, rfl, fun task hmem => ?_⟩
      · have haccepted : Asset.Accounted c₁.Known c₁.Failing { c₁.session with
            accepted := c₁.session.accepted ++ [.terminal (recoveryFailure taskId)]
            marks := c₁.session.marks ++ [.settled taskId] } :=
          hc₁.account.step (fun id hid => .inl hid) (fun active ha => .active ha)
          (fun r hr => List.mem_append_left _ hr) (fun r hr => .inl (.inr hr))
          (fun r hr => .inl hr) fun e he => .inl he
        refine haccepted.mono (fun _ hid => hid) fun id hid => .inr (.inr (.inr ?_))
        refine ⟨_, ?_, .inl (List.mem_append_right _ (List.mem_singleton_self _))⟩
        exact Option.some.inj (hsome₁.symm.trans hid)
      · show task ∈ c₁.answered
        rw [hstays.answered]
        exact htasks task hmem

theorem endRecovery_accounted (hc : c.Accounted) (hnone : c.recoveryTaskToFail = none) :
    (endRecovery c).Accounted := by
  unfold endRecovery
  split_ifs
  · exact hc
  · exact ⟨Session.Kept.accounted (s := c.session) ⟨rfl, rfl, rfl, rfl, rfl, rfl⟩ hc.account,
      hc.tasks, fun h => absurd hnone h⟩

theorem reconcileAfterLoss_accounted {tasks : List AuthoritativeTask} (hc : c.Accounted)
    (htasks : ∀ task ∈ tasks, task ∈ c.answered) :
    wp (reconcileAfterLoss world tasks)
      (fun _ c' => c'.Accounted ∧ ∀ task ∈ tasks, task ∈ c'.answered)
      (fun _ => Controller.Accounted) c := by
  simp only [reconcileAfterLoss, wp_bind, wp_get]
  split_ifs
  · simp only [reconcileAfterReconnect, wp_bind, wp_get]
    split_ifs with hrecovery
    · simp only [wp_bind]
      rw [wp_engineCall]
      refine wp_mono abandonActiveForRecovery_abandoned ?_ fun _ _ h => h.elim
      intro abandoned s' habandoned
      rw [wp_bind, wp_modify, wp_bind]
      refine wp_mono (settleRecoveryTask_accounted (hc.abandon hrecovery habandoned) htasks) ?_
        fun _ _ h => h
      rintro _ c₁ ⟨hc₁, hnone, hanswered⟩
      rw [wp_modify]
      refine ⟨endRecovery_accounted hc₁ hnone, fun task hmem => ?_⟩
      unfold endRecovery
      split_ifs <;> exact hanswered task hmem
    · exact ⟨hc, htasks⟩
  · exact ⟨hc, htasks⟩

theorem pollCore_accounted (now : ℚ) : Maintains Controller.Accounted (pollCore world now) := by
  intro c hc
  simp only [pollCore, wp_tryCatch, wp_bind]
  refine wp_mono (fetchAuthoritative_accounted hc) ?_ fun _ c' h => noteCoreDown_accounted now c' h
  rintro tasks c₁ ⟨hc₁, htasks⟩
  rw [wp_bind]
  refine wp_mono (reconcileAfterLoss_accounted hc₁ htasks) ?_
    fun _ c' h => noteCoreDown_accounted now c' h
  rintro _ c₂ ⟨hc₂, htasks₂⟩
  exact ⟨hc₂.account, htasks₂, hc₂.failing⟩

variable {config : ControllerConfig}

theorem watchCoreLossRecovery_accounted (current : ControlState) :
    Maintains Controller.Accounted (watchCoreLossRecovery config world current) := by
  refine .bind (.modify fun c hc => ?_) fun _ => .bind .get fun _ => .ite (fun _ => .pure ())
    fun _ => .ite (fun _ => .pure ()) fun _ => .bind (.modify fun c hc => ?_) fun _ =>
      .tryCatch (sendControl_accounted _) fun _ => .pure ()
  · unfold observeRecovery
    split_ifs
    · exact ⟨hc.account, hc.tasks, hc.failing⟩
    · exact ⟨hc.account, hc.tasks, hc.failing⟩
    · exact hc
  · exact ⟨Session.Kept.accounted (s := c.session) ⟨rfl, rfl, rfl, rfl, rfl, rfl⟩ hc.account,
      hc.tasks, fun h => ⟨rfl, (hc.failing h).2⟩⟩

/-- The engine ingests only while there is no recovery, so the controller has no Task to fail. -/
theorem controlAircraft_accounted :
    Maintains Controller.Accounted (controlAircraft host config world) := by
  refine .bind latest_accounted fun current => ?_
  intro c hc
  rw [wp_bind, wp_get]
  split_ifs with hrecovery
  · exact watchCoreLossRecovery_accounted current c hc
  · rw [wp_bind, wp_engineCall, wp_note, wp_tryCatch, wp_engineCall]
    have hnone : c.recoveryTaskToFail = none := by
      by_contra hsome
      exact hrecovery (hc.failing hsome).1
    have hingested : ∀ s, Accounted c.Known c.Failing s →
        Controller.Accounted { c with session := s } := fun s hs =>
      ⟨hs, hc.tasks, fun h => absurd hnone h⟩
    have hnoted : Asset.Accounted c.Known c.Failing
        { c.session with marks := c.session.marks ++ [.ingest] } :=
      Session.Kept.accounted (s := c.session) ⟨rfl, rfl, rfl, rfl, rfl, rfl⟩ hc.account
    refine wp_mono (ingest_accounted (fun task hmem hover => ?_) hnoted)
      (fun _ s hs => hingested s hs) fun _ s hs => noteCoreDown_accounted _ _ (hingested s hs)
    exact ⟨task, hc.tasks task hmem, rfl, hover⟩
  · exact watchCoreLossRecovery_accounted current c hc

theorem LoopStep.accounted (step : LoopStep) :
    Maintains Controller.Accounted (step.proc host config world) :=
  step.maintains (fun _ _ _ _ hc => ⟨hc.account, hc.tasks, hc.failing⟩) await_accounted
    noteCoreDown_accounted pollCore_accounted controlAircraft_accounted

variable {start : ControlState} {script : ℕ → Outcome}

theorem LoopRun.accounted (run : LoopRun host config world start script c) : c.Accounted :=
  run.holds ⟨⟨by simp [startsOf], by simp, by simp⟩, by simp, by simp⟩ LoopStep.accounted

/-- The passes of the loop go through states between its steps. -/
theorem pass_reachable :
    Maintains (LoopRun host config world start script) (pass host config world) :=
  pass_maintains fun step _ hc => wp_of_exec (.step step hc)

/-- A started Task is executed, known from Core to be over, left for the controller to fail, or has
an end that Core took or is owed. An end once owed is taken or its Task over, as long as it is not
owed still; and no Task is started while one is owed. -/
theorem no_outcome_lost (run : LoopRun host config world start script c) :
    (∀ taskId ∈ startsOf c.session.reports,
      (∃ active, c.session.engine.active = some active ∧ active.task.taskId = taskId) ∨
        c.Known taskId ∨ c.recoveryTaskToFail = some taskId ∨
        ∃ r, r.taskId = taskId ∧ (.terminal r ∈ c.session.accepted ∨
          c.session.engine.pendingTerminalReport = some r)) ∧
    (∀ r ∈ c.session.owed, .terminal r ∈ c.session.accepted ∨ c.Known r.taskId ∨
      c.session.engine.pendingTerminalReport = some r) ∧
    ∀ e ∈ c.session.starting, e.pendingTerminalReport = none := by
  have hc := run.accounted
  refine ⟨hc.account.starts, fun r hr => ?_, hc.account.starting⟩
  rcases hc.account.owed r hr with (htaken | howed) | hknown
  · exact .inl htaken
  · exact .inr (.inr howed)
  · exact .inr (.inl hknown)

/-- Core delivers a takeoff and does not take its start. -/
def refusedRun : Controller :=
  let script : ℕ → Outcome := fun k =>
    ⟨flying true 0 2000, if k = 1 then .error "Core is gone." else .ok ()⟩
  let c : Controller :=
    { session := { engine := {}, start := flying true 0 2000, script := script } }
  let c := (exec ((LoopStep.poll 2000).proc flightHost flightControl takeoffWorld) c).2
  (exec (LoopStep.control.proc flightHost flightControl takeoffWorld) c).2

theorem no_outcome_lost_refused :
    startsOf refusedRun.session.reports = ["takeoff"] ∧
      (refusedRun.session.engine.pendingTerminalReport.map (·.taskId)) = some "takeoff" ∧
      ∀ e ∈ refusedRun.session.starting, e.pendingTerminalReport = none := by
  have run : LoopRun flightHost flightControl takeoffWorld (flying true 0 2000) _ refusedRun :=
    .step .control (.step (.poll 2000) .new)
  exact ⟨by decide +kernel, by decide +kernel, (no_outcome_lost run).2.2⟩

end Controllers

end Atlas.Asset
