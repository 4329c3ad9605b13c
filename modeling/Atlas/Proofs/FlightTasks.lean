import Atlas.Proofs.FlightAuthority

/-!
# Each flight Task once

A Task is started only while nothing is active and it has not been finished, and it leaves the
active slot only to be finished. So it is started once, and decided once: every report of its end
is the same, as often as it is repeated.
-/

namespace Atlas.Asset

open Effects

variable {host : Host} {config : AssetConfig}

section Histories

/-- The Tasks whose start was reported. -/
def startsOf (reports : List Report) : List String :=
  reports.filterMap fun
    | .start taskId => some taskId
    | .terminal _ => none

/-- Finished, or being executed. -/
def Engine.Engaged (e : Engine) (taskId : String) : Prop :=
  taskId ∈ e.finished ∨ ∃ active, e.active = some active ∧ active.task.taskId = taskId

/-- A report that was passed on, or is about to be. -/
def Decided (reports : List Report) (e : Engine) (r : PendingTerminalReport) : Prop :=
  Report.terminal r ∈ reports ∨ e.pendingTerminalReport = some r

/-- What the reports and dispatches so far have to do with the engine. `once` stands for what is
known of the Tasks delivered: each occurs once in its list. -/
structure Settled (once : Prop) (finished : List String) (reports : List Report)
    (dispatched : List String) (e : Engine) : Prop where
  grown : ∀ taskId ∈ finished, taskId ∈ e.finished
  starts : (startsOf reports).Nodup
  started : ∀ taskId ∈ startsOf reports, e.Engaged taskId
  dispatches : dispatched.Nodup
  dispatched : ∀ taskId ∈ dispatched, e.Engaged taskId
  decided : ∀ r, Decided reports e r → r.taskId ∈ e.finished
  unique : once → ∀ r r', Decided reports e r → Decided reports e r' → r.taskId = r'.taskId → r = r'
  apart : once → ∀ active, e.active = some active → active.task.taskId ∉ e.finished
  idle : e.reholdOnGuided = true → e.active = none

variable {once : Prop} {finished : List String} {reports : List Report} {dispatched : List String}
  {e e' : Engine}

theorem startsOf_append (reports reports' : List Report) :
    startsOf (reports ++ reports') = startsOf reports ++ startsOf reports' :=
  List.filterMap_append

theorem startsOf_terminal (reports : List Report) (r : PendingTerminalReport) :
    startsOf (reports ++ [.terminal r]) = startsOf reports := by
  rw [startsOf_append]
  exact List.append_nil _

/-- Only the start of a Task not started before is a new start. -/
theorem nodup_starts (h : (startsOf reports).Nodup) {taskId : String}
    (hnew : taskId ∉ startsOf reports) : (startsOf (reports ++ [.start taskId])).Nodup := by
  rw [startsOf_append]
  refine List.nodup_append.2 ⟨h, List.nodup_singleton _, fun a ha b hb hab => hnew ?_⟩
  rw [← List.mem_singleton.1 hb, ← hab]
  exact ha

theorem mem_starts {taskId other : String} (h : other ∈ startsOf (reports ++ [.start taskId])) :
    other ∈ startsOf reports ∨ other = taskId := by
  rw [startsOf_append] at h
  rcases List.mem_append.1 h with h | h
  · exact .inl h
  · exact .inr (List.mem_singleton.1 h)

theorem mem_terminals {taskId : String} {r : PendingTerminalReport}
    (h : Report.terminal r ∈ reports ++ [.start taskId]) : Report.terminal r ∈ reports := by
  rcases List.mem_append.1 h with h | h
  · exact h
  · cases List.mem_singleton.1 h

/-- A history is about an engine only through what it executes, finished and owes. -/
theorem Settled.congr (h : Settled once finished reports dispatched e)
    (hactive : e'.active = e.active) (hfinished : e'.finished = e.finished)
    (hpending : e'.pendingTerminalReport = e.pendingTerminalReport)
    (hrehold : e'.reholdOnGuided = true → e.reholdOnGuided = true ∨ e.active = none) :
    Settled once finished reports dispatched e' := by
  have hengaged : ∀ taskId, e.Engaged taskId → e'.Engaged taskId := by
    intro taskId htask
    rw [Engine.Engaged, hactive, hfinished]
    exact htask
  have hdecided : ∀ r, Decided reports e' r → Decided reports e r := by
    intro r hr
    rw [Decided, hpending] at hr
    exact hr
  refine ⟨hfinished ▸ h.grown, h.starts, fun id hid => hengaged id (h.started id hid), h.dispatches,
    fun id hid => hengaged id (h.dispatched id hid), fun r hr => ?_, fun ho r₁ r₂ h₁ h₂ =>
      h.unique ho r₁ r₂ (hdecided r₁ h₁) (hdecided r₂ h₂), fun ho active ha => ?_, fun hre => ?_⟩
  · rw [hfinished]
    exact h.decided r (hdecided r hr)
  · rw [hfinished]
    exact h.apart ho active (hactive ▸ ha)
  · rw [hactive]
    rcases hrehold hre with hold | hnone
    · exact h.idle hold
    · exact hnone

/-- A pending report is passed on, taken or not. -/
theorem Settled.flush (h : Settled once finished reports dispatched e) {r : PendingTerminalReport}
    (hpending : e.pendingTerminalReport = some r) :
    Settled once finished (reports ++ [.terminal r]) dispatched e := by
  have hdecided : ∀ r', Decided (reports ++ [.terminal r]) e r' → Decided reports e r' := by
    rintro r' (hmem | hr')
    · rcases List.mem_append.1 hmem with hmem | hmem
      · exact .inl hmem
      · cases List.mem_singleton.1 hmem
        exact .inr hpending
    · exact .inr hr'
  have hstarts := startsOf_terminal reports r
  exact ⟨h.grown, hstarts ▸ h.starts, hstarts ▸ h.started, h.dispatches, h.dispatched,
    fun r' hr' => h.decided r' (hdecided r' hr'), fun ho r₁ r₂ h₁ h₂ =>
      h.unique ho r₁ r₂ (hdecided r₁ h₁) (hdecided r₂ h₂), h.apart, h.idle⟩

/-- Only the pending report goes. -/
theorem Settled.clear (h : Settled once finished reports dispatched e) :
    Settled once finished reports dispatched { e with pendingTerminalReport := none } := by
  have hdecided : ∀ r, Decided reports { e with pendingTerminalReport := none } r →
      Decided reports e r := by
    rintro r (hmem | hr)
    · exact .inl hmem
    · cases hr
  exact ⟨h.grown, h.starts, h.started, h.dispatches, h.dispatched,
    fun r hr => h.decided r (hdecided r hr),
    fun ho r₁ r₂ h₁ h₂ => h.unique ho r₁ r₂ (hdecided r₁ h₁) (hdecided r₂ h₂), h.apart, h.idle⟩

/-- An execution is replaced by one of the same Task. -/
theorem Settled.replace (h : Settled once finished reports dispatched e)
    {active active' : ActiveExecution} (hactive : e.active = some active)
    (hsame : active'.task.taskId = active.task.taskId) :
    Settled once finished reports dispatched { e with active := some active' } := by
  have hengaged : ∀ taskId, e.Engaged taskId →
      ({ e with active := some active' } : Engine).Engaged taskId := by
    rintro taskId (hmem | ⟨a, ha, hid⟩)
    · exact .inl hmem
    · cases hactive.symm.trans ha
      exact .inr ⟨active', rfl, hsame.trans hid⟩
  refine ⟨h.grown, h.starts, fun id hid => hengaged id (h.started id hid), h.dispatches,
    fun id hid => hengaged id (h.dispatched id hid), h.decided, h.unique, fun ho a ha => ?_,
    fun hre => ?_⟩
  · cases ha
    rw [hsame]
    exact h.apart ho active hactive
  · exact absurd ((h.idle hre).symm.trans hactive) (by simp)

/-- A Task is decided: it is finished, with a report of its own or none, and no longer active if it
was. It may have been started just now. -/
theorem Settled.decide (h : Settled once finished reports dispatched e) (taskId : String)
    {reports' : List Report}
    (hreports : reports' = reports ∨
      reports' = reports ++ [.start taskId] ∧ taskId ∉ startsOf reports)
    (hfinished : e'.finished = e.finished.insert taskId)
    (hpending : ∀ r, e'.pendingTerminalReport = some r → e.pendingTerminalReport = some r ∨
      r.taskId = taskId ∧ (once → taskId ∉ e.finished))
    (hactive : e'.active = none ∧ (∀ active, e.active = some active →
        active.task.taskId = taskId) ∨
      e'.active = e.active ∧ (once → ∀ active, e.active = some active →
        active.task.taskId ≠ taskId) ∧ e'.reholdOnGuided = e.reholdOnGuided) :
    Settled once finished reports' dispatched e' := by
  have hmem : ∀ other, other ∈ e'.finished ↔ other = taskId ∨ other ∈ e.finished := by
    intro other
    rw [hfinished, List.mem_insert_iff]
  have hengaged : ∀ other, e.Engaged other → e'.Engaged other := by
    rintro other (hother | ⟨active, ha, hother⟩)
    · exact .inl ((hmem other).2 (.inr hother))
    · rcases hactive with ⟨-, hown⟩ | ⟨hsame, -⟩
      · exact .inl ((hmem other).2 (.inl (hother.symm.trans (hown active ha))))
      · exact .inr ⟨active, hsame.trans ha, hother⟩
  have hdecided : ∀ r, Decided reports' e' r → Decided reports e r ∨
      e'.pendingTerminalReport = some r ∧ r.taskId = taskId ∧ (once → taskId ∉ e.finished) := by
    rintro r (hr | hr)
    · rcases hreports with rfl | ⟨rfl, -⟩
      · exact .inl (.inl hr)
      · exact .inl (.inl (mem_terminals hr))
    · rcases hpending r hr with hold | hown
      · exact .inl (.inr hold)
      · exact .inr ⟨hr, hown⟩
  refine ⟨fun other hother => (hmem other).2 (.inr (h.grown other hother)), ?_, ?_, h.dispatches,
    fun other hother => hengaged other (h.dispatched other hother), fun r hr => ?_,
    fun ho r₁ r₂ h₁ h₂ heq => ?_, fun ho active ha => ?_, fun hrehold => ?_⟩
  · rcases hreports with rfl | ⟨rfl, hnew⟩
    · exact h.starts
    · exact nodup_starts h.starts hnew
  · intro other hother
    rcases hreports with rfl | ⟨rfl, -⟩
    · exact hengaged other (h.started other hother)
    · rcases mem_starts hother with hother | rfl
      · exact hengaged other (h.started other hother)
      · exact .inl ((hmem other).2 (.inl rfl))
  · rcases hdecided r hr with hold | ⟨-, hown, -⟩
    · exact (hmem _).2 (.inr (h.decided r hold))
    · exact (hmem _).2 (.inl hown)
  · rcases hdecided r₁ h₁ with hold₁ | ⟨hp₁, hown₁, hfresh⟩
    · rcases hdecided r₂ h₂ with hold₂ | ⟨-, hown₂, hfresh⟩
      · exact h.unique ho r₁ r₂ hold₁ hold₂ heq
      · have hmem₁ := h.decided r₁ hold₁
        rw [heq, hown₂] at hmem₁
        exact absurd hmem₁ (hfresh ho)
    · rcases hdecided r₂ h₂ with hold₂ | ⟨hp₂, -, -⟩
      · have hmem₂ := h.decided r₂ hold₂
        rw [← heq, hown₁] at hmem₂
        exact absurd hmem₂ (hfresh ho)
      · exact Option.some.inj (hp₁.symm.trans hp₂)
  · rcases hactive with ⟨hnone, -⟩ | ⟨hsame, hother, -⟩
    · rw [hnone] at ha
      cases ha
    · rw [hsame] at ha
      rw [hmem, not_or]
      exact ⟨hother ho active ha, h.apart ho active ha⟩
  · rcases hactive with ⟨hnone, -⟩ | ⟨hsame, -, hkept⟩
    · exact hnone
    · rw [hsame]
      exact h.idle (hkept ▸ hrehold)

/-- Nothing is engaged that is neither finished nor active. -/
theorem Settled.not_started (h : Settled once finished reports dispatched e) {taskId : String}
    (hfresh : taskId ∉ e.finished) (hidle : e.active = none) :
    taskId ∉ startsOf reports ∧ taskId ∉ dispatched := by
  have hnot : ¬e.Engaged taskId := by
    rintro (hmem | ⟨other, ha, -⟩)
    · exact hfresh hmem
    · rw [hidle] at ha
      cases ha
  exact ⟨fun hs => hnot (h.started _ hs), fun hd => hnot (h.dispatched _ hd)⟩

/-- A Task that has just been started is executed and its command dispatched. -/
theorem Settled.activate (h : Settled once finished reports dispatched e) (active : ActiveExecution)
    (hfresh : active.task.taskId ∉ e.finished) (hidle : e.active = none)
    (hrehold : e.reholdOnGuided = false) :
    Settled once finished (reports ++ [.start active.task.taskId])
      (dispatched ++ [active.task.taskId]) { e with active := some active } := by
  obtain ⟨hstart, hdispatch⟩ := h.not_started hfresh hidle
  have hengaged : ∀ other, e.Engaged other ∨ other = active.task.taskId →
      ({ e with active := some active } : Engine).Engaged other := by
    rintro other ((hother | ⟨active', ha, -⟩) | hother)
    · exact .inl hother
    · rw [hidle] at ha
      cases ha
    · exact .inr ⟨active, rfl, hother.symm⟩
  have hdecided : ∀ r, Decided (reports ++ [.start active.task.taskId])
      { e with active := some active } r → Decided reports e r := by
    rintro r (hmem | hr)
    · exact .inl (mem_terminals hmem)
    · exact .inr hr
  refine ⟨h.grown, nodup_starts h.starts hstart, fun other hother => ?_, ?_, fun other hother => ?_,
    fun r hr => h.decided r (hdecided r hr),
    fun ho r₁ r₂ h₁ h₂ => h.unique ho r₁ r₂ (hdecided r₁ h₁) (hdecided r₂ h₂),
    fun _ active' ha => ?_, fun hre => ?_⟩
  · rcases mem_starts hother with hother | hother
    · exact hengaged other (.inl (h.started other hother))
    · exact hengaged other (.inr hother)
  · refine List.nodup_append.2 ⟨h.dispatches, List.nodup_singleton _, fun a ha b hb hab =>
      hdispatch ?_⟩
    rw [← List.mem_singleton.1 hb, ← hab]
    exact ha
  · rcases List.mem_append.1 hother with hother | hother
    · exact hengaged other (.inl (h.dispatched other hother))
    · exact hengaged other (.inr (List.mem_singleton.1 hother))
  · cases ha
    exact hfresh
  · exact absurd hre (by rw [hrehold]; exact Bool.false_ne_true)

end Histories

section Sessions

variable (once : Prop) (finished : List String) (reports : List Report) (dispatched : List String)

/-- The history up to a session and what the session added to it. -/
def Session.Settled (s : Session) : Prop :=
  Asset.Settled once finished (reports ++ s.reports)
    (dispatched ++ s.dispatched.map (·.task.taskId)) s.engine

variable {once finished reports dispatched} {s : Session}
  {Q : Unit → Session → Prop} {E : String → Session → Prop}

/-- A report is passed on, whether it is taken or not. -/
theorem wp_report_passed {r : Report}
    (ok : Q () { s with
      reports := s.reports ++ [r]
      awaited := s.awaited + 1
      suspended := s.suspended ++ [s.engine]
      accepted := s.accepted ++ [r] })
    (err : ∀ message, E message { s with
      reports := s.reports ++ [r]
      awaited := s.awaited + 1
      suspended := s.suspended ++ [s.engine] }) :
    wp (report r) Q E s := by
  simp only [report, wp_bind, wp_modify]
  exact wp_awaitOutcome (fun _ => ok) err

/-- Handing a message over, the engine reports nothing and stays as it is. -/
structure Session.Kept (s s' : Session) : Prop where
  engine : s'.engine = s.engine
  reports : s'.reports = s.reports
  dispatched : s'.dispatched = s.dispatched
  starting : s'.starting = s.starting
  accepted : s'.accepted = s.accepted
  owed : s'.owed = s.owed

theorem Session.Kept.refl (s : Session) : s.Kept s := ⟨rfl, rfl, rfl, rfl, rfl, rfl⟩

theorem Session.Kept.settled {s' : Session} (h : s.Kept s')
    (hs : s.Settled once finished reports dispatched) :
    s'.Settled once finished reports dispatched := by
  rw [Session.Settled, h.engine, h.reports, h.dispatched]
  exact hs

theorem send_kept (message : MavLinkData) :
    wp (send message) (fun _ => s.Kept) (fun _ => s.Kept) s := by
  simp only [send, wp_bind, wp_modify]
  exact wp_awaitOutcome (fun _ => ⟨rfl, rfl, rfl, rfl, rfl, rfl⟩) fun _ =>
    ⟨rfl, rfl, rfl, rfl, rfl, rfl⟩

theorem establishHold_kept {snapshot : VehicleSnapshot} {nowMs : ℚ} :
    wp (establishHold config snapshot nowMs) (fun _ => s.Kept) (fun _ => s.Kept) s := by
  unfold establishHold
  split
  · exact .refl s
  · split_ifs
    · exact .refl s
    · rw [wp_bind]
      refine wp_mono (send_kept _) ?_ fun _ _ h => h
      intro _ s' h
      exact ⟨h.engine, h.reports, h.dispatched, h.starting, h.accepted, h.owed⟩

theorem dispatch_kept {task : AuthoritativeTask} {snapshot : VehicleSnapshot} :
    wp (dispatch config task snapshot) (fun _ => s.Kept) (fun _ => s.Kept) s := by
  unfold dispatch
  simp only
  split_ifs
  · split
    · exact send_kept _
    · exact .refl s
  · split
    · exact .refl s
    · exact send_kept _
  · exact send_kept _
  · exact send_kept _
  · exact .refl s

theorem recoverFailed_kept {command : String} {snapshot : VehicleSnapshot} {nowMs : ℚ} :
    wp (recoverFailed config command snapshot nowMs) (fun _ => s.Kept) (fun _ => s.Kept) s := by
  unfold recoverFailed
  split_ifs
  · simp only [wp_bind]
    exact wp_mono establishHold_kept (fun _ _ h => h) fun _ _ h => h
  · exact send_kept _
  · exact .refl s
  · exact .refl s

theorem flushTerminalReport_settled (hs : s.Settled once finished reports dispatched) :
    wp flushTerminalReport
      (fun _ s' => s'.Settled once finished reports dispatched ∧
        s'.engine = { s.engine with pendingTerminalReport := none })
      (fun _ s' => s'.Settled once finished reports dispatched) s := by
  simp only [flushTerminalReport, wp_bind, wp_getEngine]
  split
  · rename_i hp
    refine ⟨hs, ?_⟩
    rw [← hp]
  · rename_i pending hp
    have hpassed := Asset.Settled.flush hs hp
    rw [List.append_assoc] at hpassed
    simp only [wp_bind]
    refine wp_report_passed ?_ fun _ => hpassed
    rw [wp_modifyEngine, if_pos hp]
    exact ⟨hpassed.clear, rfl⟩

/-- The end of a Task is reported of an engine that was settled for it. -/
theorem reportTerminal_settled {pending : PendingTerminalReport}
    (hs : Session.Settled once finished reports dispatched
      { s with engine := { s.engine with pendingTerminalReport := some pending } }) :
    wp (reportTerminal pending)
      (fun _ s' => s'.Settled once finished reports dispatched ∧
        s'.engine = { s.engine with pendingTerminalReport := none })
      (fun _ s' => s'.Settled once finished reports dispatched) s := by
  simp only [reportTerminal, wp_bind, wp_owe]
  exact wp_mono (flushTerminalReport_settled hs) (fun _ _ h => h) fun _ _ h => h

theorem noteTakeover_settled {mode : String} (hs : s.Settled once finished reports dispatched) :
    wp (noteTakeover mode)
      (fun _ s' => s'.Settled once finished reports dispatched ∧
        (s'.engine.active = none ∨ s' = s))
      (fun _ s' => s'.Settled once finished reports dispatched) s := by
  simp only [noteTakeover, wp_bind, wp_getEngine]
  split
  · exact ⟨hs, .inr rfl⟩
  · rename_i active ha
    by_cases hm : mode ∈ active.expectedModes
    · rw [if_pos hm]
      exact ⟨hs, .inr rfl⟩
    · simp only [hm, if_false, wp_bind, wp_modifyEngine]
      refine wp_mono (reportTerminal_settled ?_) ?_ fun _ _ h => h
      · refine Asset.Settled.decide hs active.task.taskId (.inl rfl) rfl ?_
          (.inl ⟨rfl, fun a ha' => ?_⟩)
        · intro r hr
          cases hr
          exact .inr ⟨rfl, fun ho => hs.apart ho active ha⟩
        · cases ha.symm.trans ha'
          rfl
      · rintro _ s' ⟨hs', he⟩
        exact ⟨hs', .inl (by rw [he])⟩

theorem observeMode_settled {snapshot : VehicleSnapshot}
    (hs : s.Settled once finished reports dispatched) :
    wp (observeMode snapshot)
      (fun _ s' => s'.Settled once finished reports dispatched ∧
        (s'.engine.active = none ∨ s'.engine.active = s.engine.active))
      (fun _ s' => s'.Settled once finished reports dispatched) s := by
  simp only [observeMode, wp_bind, wp_getEngine]
  split
  · exact ⟨hs, .inr rfl⟩
  · simp only [wp_bind, wp_modifyEngine]
    set t : Session := { s with engine := { s.engine with lastMode := some snapshot.mode } }
    have ht : t.Settled once finished reports dispatched :=
      Asset.Settled.congr hs rfl rfl rfl fun hre => .inl hre
    have htaken : wp (noteTakeover snapshot.mode)
        (fun _ s' => s'.Settled once finished reports dispatched ∧
          (s'.engine.active = none ∨ s'.engine.active = s.engine.active))
        (fun _ s' => s'.Settled once finished reports dispatched) t := by
      refine wp_mono (noteTakeover_settled ht) ?_ fun _ _ h => h
      rintro _ s' ⟨hs', hnone | rfl⟩
      · exact ⟨hs', .inl hnone⟩
      · exact ⟨hs', .inr rfl⟩
    split_ifs
    · exact htaken
    · exact htaken
    · exact ⟨ht, .inr rfl⟩

/-- A Task that is not active is turned down. -/
theorem reject_settled {taskId message : String} (hs : s.Settled once finished reports dispatched)
    (hfresh : taskId ∉ s.engine.finished)
    (hother : once → ∀ active, s.engine.active = some active → active.task.taskId ≠ taskId) :
    wp (do
        modifyEngine (Engine.finish taskId)
        reportTerminal (.fail taskId .preconditionFailed message))
      (fun _ s' => s'.Settled once finished reports dispatched ∧
        s'.engine.active = s.engine.active ∧
        s'.engine.reholdOnGuided = s.engine.reholdOnGuided)
      (fun _ s' => s'.Settled once finished reports dispatched) s := by
  simp only [wp_bind, wp_modifyEngine]
  refine wp_mono (reportTerminal_settled ?_) ?_ fun _ _ h => h
  · refine Asset.Settled.decide hs taskId (.inl rfl) rfl ?_ (.inr ⟨rfl, hother, rfl⟩)
    intro r hr
    cases hr
    exact .inr ⟨rfl, fun _ => hfresh⟩
  · rintro _ s' ⟨hs', he⟩
    exact ⟨hs', by rw [he]; rfl, by rw [he]; rfl⟩

/-- Each Task of the list that the engine executes is the one it executes. -/
def Engine.Current (tasks : List AuthoritativeTask) (e : Engine) : Prop :=
  ∀ active, e.active = some active → ∀ task ∈ tasks, task.taskId = active.task.taskId →
    task = active.task

theorem rejectGotoDuringTakeoff_settled {tasks : List AuthoritativeTask}
    (hs : s.Settled once finished reports dispatched)
    (hcurrent : once → s.engine.Current tasks) :
    wp (rejectGotoDuringTakeoff tasks)
      (fun _ s' => s'.Settled once finished reports dispatched ∧
        s'.engine.active = s.engine.active ∧
        s'.engine.reholdOnGuided = s.engine.reholdOnGuided)
      (fun _ s' => s'.Settled once finished reports dispatched) s := by
  simp only [rejectGotoDuringTakeoff, wp_bind, wp_getEngine]
  split_ifs with htakeoff
  · let I : List AuthoritativeTask → Session → Prop := fun rest s' =>
      (∀ task ∈ rest, task ∈ tasks) ∧ s'.Settled once finished reports dispatched ∧
        s'.engine.active = s.engine.active ∧ s'.engine.reholdOnGuided = s.engine.reholdOnGuided
    refine wp_mono (wp_forM (I := I) ?_ tasks s ⟨fun _ h => h, hs, rfl, rfl⟩)
      (fun _ s' h => h.2) fun _ _ h => h
    rintro task rest s' ⟨hrest, hs', ha, hre⟩
    simp only [wp_bind, wp_getEngine]
    have hrest' : ∀ other ∈ rest, other ∈ tasks := fun other hmem =>
      hrest other (List.mem_cons_of_mem _ hmem)
    split_ifs with hgoto
    · refine wp_mono (reject_settled hs' hgoto.2.2 fun ho active hactive hid => ?_) ?_
        fun _ _ h => h
      · -- The Task executed is a takeoff, and the one turned down is not.
        have hactive' := ha ▸ hactive
        have hsame := hcurrent ho active hactive' task (hrest task List.mem_cons_self) hid.symm
        rw [hactive'] at htakeoff
        simp [← hsame, hgoto.1] at htakeoff
      · rintro _ s'' ⟨hs'', ha', hre'⟩
        exact ⟨hrest', hs'', ha'.trans ha, hre'.trans hre⟩
    · exact ⟨hrest', hs', ha, hre⟩
  · exact ⟨hs, rfl, rfl⟩

theorem rejectPendingOutsideGuided_settled {tasks : List AuthoritativeTask}
    {snapshot : VehicleSnapshot} {nowMs : ℚ} (hs : s.Settled once finished reports dispatched)
    (hidle : s.engine.active = none) :
    wp (rejectPendingOutsideGuided host config tasks snapshot nowMs)
      (fun _ s' => s'.Settled once finished reports dispatched)
      (fun _ s' => s'.Settled once finished reports dispatched) s := by
  let I : List AuthoritativeTask → Session → Prop := fun _ s' =>
    s'.Settled once finished reports dispatched ∧ s'.engine.active = none
  refine wp_mono (wp_forM (I := I) ?_ tasks s ⟨hs, hidle⟩) (fun _ s' h => h.1) fun _ _ h => h
  rintro task rest s' ⟨hs', ha⟩
  simp only [wp_bind, wp_getEngine]
  split_ifs with hskip
  · exact ⟨hs', ha⟩
  · push Not at hskip
    refine wp_mono (reject_settled hs' hskip.2.2 fun _ active hactive => ?_) ?_ fun _ _ h => h
    · rw [ha] at hactive
      cases hactive
    · rintro _ s'' ⟨hs'', ha', -⟩
      exact ⟨hs'', ha'.trans ha⟩

end Sessions

section Reconciliation

variable {once : Prop} {finished : List String} {reports : List Report} {dispatched : List String}
  {e : Engine} {tasks : List AuthoritativeTask}

theorem taskById_some {taskId : String} {task : AuthoritativeTask}
    (h : taskById tasks taskId = some task) : task ∈ tasks ∧ task.taskId = taskId :=
  ⟨List.mem_reverse.1 (List.mem_of_find?_eq_some h), by simpa using List.find?_some h⟩

/-- Of two Tasks of a list in which each occurs once, no two have one ID. -/
theorem eq_of_taskId (hnodup : (tasks.map (·.taskId)).Nodup) {task task' : AuthoritativeTask}
    (h : task ∈ tasks) (h' : task' ∈ tasks) (hid : task.taskId = task'.taskId) : task = task' :=
  List.inj_on_of_nodup_map hnodup h h' hid

theorem taskById_mem (hnodup : (tasks.map (·.taskId)).Nodup) {task : AuthoritativeTask}
    (h : task ∈ tasks) : taskById tasks task.taskId = some task := by
  rcases hfind : taskById tasks task.taskId with _ | task'
  · have := List.find?_eq_none.1 hfind task (List.mem_reverse.2 h)
    simp at this
  · obtain ⟨hmem, hid⟩ := taskById_some hfind
    rw [eq_of_taskId hnodup hmem h hid]

theorem reconcilePending_settled (tasks : List AuthoritativeTask)
    (h : Settled once finished reports dispatched e) :
    Settled once finished reports dispatched (reconcilePending (taskById tasks) e) := by
  unfold reconcilePending
  split
  · exact h
  · split_ifs
    · exact h.clear
    · exact h

/-- Once Core is heard, the Task executed is the one delivered, and not an ended one. -/
theorem reconcileActive_settled (hnodup : once → (tasks.map (·.taskId)).Nodup)
    (h : Settled once finished reports dispatched e) :
    Settled once finished reports dispatched (reconcileActive (taskById tasks) e) ∧
      (once → (reconcileActive (taskById tasks) e).Current tasks) ∧
      (once → ∀ active, (reconcileActive (taskById tasks) e).active = some active →
        ∀ task ∈ tasks, task.status.terminal = true → active.task.taskId ≠ task.taskId) := by
  unfold reconcileActive
  split
  · rename_i ha
    refine ⟨h, fun _ active hactive => ?_, fun _ active hactive => ?_⟩
    · rw [ha] at hactive
      cases hactive
    · rw [ha] at hactive
      cases hactive
  · rename_i active ha
    split
    · rename_i habsent
      have hnone : once → ∀ task ∈ tasks, task.taskId ≠ active.task.taskId := by
        intro ho task hmem hid
        have := taskById_mem (hnodup ho) hmem
        rw [hid, habsent] at this
        cases this
      refine ⟨h, fun ho active' ha' task hmem hid => ?_, fun ho active' ha' task hmem _ hid => ?_⟩
      · cases ha.symm.trans ha'
        exact absurd hid (hnone ho task hmem)
      · cases ha.symm.trans ha'
        exact absurd hid.symm (hnone ho task hmem)
    · rename_i authoritative hfound
      obtain ⟨hmem, hid⟩ := taskById_some hfound
      split_ifs with hterminal
      · refine ⟨h.decide authoritative.taskId (.inl rfl) rfl (fun r hr => .inl hr)
          (.inl ⟨rfl, fun a ha' => ?_⟩), fun _ a ha' => ?_, fun _ a ha' => ?_⟩
        · cases ha.symm.trans ha'
          exact hid.symm
        · cases ha'
        · cases ha'
      · refine ⟨h.replace ha hid, fun ho a ha' task hmem' hid' => ?_,
          fun ho a ha' task hmem' hterminal' hid' => ?_⟩
        · cases ha'
          exact eq_of_taskId (hnodup ho) hmem' hmem hid'
        · cases ha'
          have := eq_of_taskId (hnodup ho) hmem' hmem hid'.symm
          rw [this] at hterminal'
          exact hterminal hterminal'

theorem reconcileAuthoritative_settled (hnodup : once → (tasks.map (·.taskId)).Nodup)
    (h : Settled once finished reports dispatched e) :
    Settled once finished reports dispatched (reconcileAuthoritative tasks e) ∧
      (once → (reconcileAuthoritative tasks e).Current tasks) := by
  obtain ⟨hsettled, hcurrent, hended⟩ :=
    reconcileActive_settled hnodup (reconcilePending_settled tasks h)
  unfold reconcileAuthoritative
  generalize reconcileActive (taskById tasks) (reconcilePending (taskById tasks) e) = e₁ at *
  -- The ended Tasks are finished one by one; none of them is executed.
  have hfold : ∀ ended : List AuthoritativeTask,
      (∀ task ∈ ended, task ∈ tasks ∧ task.status.terminal = true) → ∀ e₂ : Engine,
      Settled once finished reports dispatched e₂ → e₂.active = e₁.active →
      Settled once finished reports dispatched
          (ended.foldl (fun e task => e.finish task.taskId) e₂) ∧
        (ended.foldl (fun e task => e.finish task.taskId) e₂).active = e₁.active := by
    intro ended
    induction ended with
    | nil => exact fun _ e₂ h₂ ha => ⟨h₂, ha⟩
    | cons task ended ih =>
      intro hall e₂ h₂ ha
      obtain ⟨hmem, hterminal⟩ := hall task List.mem_cons_self
      refine ih (fun task' hmem' => hall task' (List.mem_cons_of_mem _ hmem')) _ ?_ ha
      refine h₂.decide task.taskId (.inl rfl) rfl (fun r hr => .inl hr)
        (.inr ⟨rfl, fun ho active hactive => ?_, rfl⟩)
      exact hended ho active (ha ▸ hactive) task hmem hterminal
  obtain ⟨hall, hactive⟩ := hfold (tasks.filter (·.status.terminal))
    (fun task hmem => ⟨(List.mem_filter.1 hmem).1, (List.mem_filter.1 hmem).2⟩) e₁ hsettled rfl
  refine ⟨hall, fun ho active ha => ?_⟩
  rw [hactive] at ha
  exact hcurrent ho active ha

end Reconciliation

section Execution

variable {once : Prop} {finished : List String} {reports : List Report} {dispatched : List String}
  {s : Session}

theorem failActive_settled {code : FailureCode} {message : String} {c : ControlState}
    (hs : s.Settled once finished reports dispatched) :
    wp (failActive config code message c.snapshot c.nowMs)
      (fun _ s' => s'.Settled once finished reports dispatched)
      (fun _ s' => s'.Settled once finished reports dispatched) s := by
  simp only [failActive, wp_bind, wp_getEngine]
  split
  · exact hs
  · rename_i active ha
    simp only [wp_bind, wp_modifyEngine, wp_owe]
    set t : Session := { s with
      engine := { s.engine.finish active.task.taskId with
        active := none
        pendingTerminalReport := some (.fail active.task.taskId code message) }
      owed := s.owed ++ [.fail active.task.taskId code message] }
    have ht : t.Settled once finished reports dispatched := by
      refine Asset.Settled.decide hs active.task.taskId (.inl rfl) rfl ?_
        (.inl ⟨rfl, fun a ha' => ?_⟩)
      · intro r hr
        cases hr
        exact .inr ⟨rfl, fun ho => hs.apart ho active ha⟩
      · cases ha.symm.trans ha'
        rfl
    refine wp_mono recoverFailed_kept ?_ fun _ _ h => h.settled ht
    intro _ s' hkept
    exact wp_mono (flushTerminalReport_settled (hkept.settled ht)) (fun _ _ h => h.1) fun _ _ h => h

theorem isComplete_task (host : Host) (config : AssetConfig) (active : ActiveExecution)
    (snapshot : VehicleSnapshot) (nowMs : ℚ) :
    (isComplete host config active snapshot nowMs).2.task = active.task := by
  unfold isComplete
  split
  · split_ifs
    · split
      · rfl
      · split_ifs <;> rfl
    · split <;> rfl
    · rfl
    · rfl
    · rfl
    · rfl
  · rfl

theorem recoveryProgressed_task (host : Host) (active : ActiveExecution)
    (snapshot : VehicleSnapshot) :
    (recoveryProgressed host active snapshot).2.task = active.task := by
  unfold recoveryProgressed
  split <;> rfl

theorem noteProgress_task (active : ActiveExecution) (snapshot : VehicleSnapshot) (nowMs : ℚ) :
    (noteProgress host active snapshot nowMs).2.task = active.task := by
  have hrecovery := recoveryProgressed_task host active snapshot
  unfold noteProgress
  split_ifs
  · split
    · split_ifs
      · rfl
      · dsimp only
        split_ifs <;> exact hrecovery
    · dsimp only
      split_ifs <;> exact hrecovery
  · rfl

theorem completeActive_settled {active active' : ActiveExecution} {c : ControlState}
    (hs : s.Settled once finished reports dispatched) (ha : s.engine.active = some active)
    (hsame : active'.task = active.task) :
    wp (completeActive host config active' c.snapshot c.nowMs)
      (fun _ s' => s'.Settled once finished reports dispatched)
      (fun _ s' => s'.Settled once finished reports dispatched) s := by
  have htask := isComplete_task host config active' c.snapshot c.nowMs
  simp only [completeActive]
  split_ifs
  · simp only [wp_bind, wp_modifyEngine]
    refine wp_mono (reportTerminal_settled ?_) (fun _ _ h => h.1) fun _ _ h => h
    refine Asset.Settled.decide hs active.task.taskId (.inl rfl) ?_ ?_
      (.inl ⟨rfl, fun a ha' => ?_⟩)
    · rw [htask, hsame]
      rfl
    · intro r hr
      cases hr
      refine .inr ⟨?_, fun ho => hs.apart ho active ha⟩
      rw [PendingTerminalReport.taskId, htask, hsame]
    · cases ha.symm.trans ha'
      rfl
  · rw [wp_modifyEngine]
    exact Asset.Settled.replace hs ha (by rw [htask, hsame])

theorem advance_settled {c : ControlState} (hs : s.Settled once finished reports dispatched) :
    wp (advance host config c.snapshot c.nowMs)
      (fun _ s' => s'.Settled once finished reports dispatched)
      (fun _ s' => s'.Settled once finished reports dispatched) s := by
  simp only [advance, wp_bind, wp_getEngine]
  split
  · exact hs
  · rename_i active ha
    split_ifs
    · exact failActive_settled hs
    · exact failActive_settled hs
    · exact completeActive_settled hs ha (noteProgress_task _ _ _)

/-- A Task that may be started: not finished, while nothing is active and no hold is owed. -/
structure Startable (s : Session) (taskId : String) : Prop where
  fresh : taskId ∉ s.engine.finished
  idle : s.engine.active = none
  guided : s.engine.reholdOnGuided = false

/-- Its start reported, a Task is dispatched or turned down. -/
theorem executeCandidate_settled {candidate : AuthoritativeTask}
    (hs : s.Settled once finished reports dispatched) (hstart : Startable s candidate.taskId)
    {s₁ : Session} (hengine : s₁.engine = s.engine)
    (hreports : s₁.reports = s.reports ++ [.start candidate.taskId])
    (hdispatched : s₁.dispatched = s.dispatched) :
    wp (executeCandidate host config candidate)
      (fun _ s' => s'.Settled once finished reports dispatched)
      (fun _ s' => s'.Settled once finished reports dispatched) s₁ := by
  have hreports' : reports ++ s₁.reports = reports ++ s.reports ++ [.start candidate.taskId] := by
    rw [hreports, List.append_assoc]
  simp only [executeCandidate, wp_bind, wp_modify, wp_getControlState]
  split_ifs with hp
  · simp only [wp_bind, wp_modifyEngine, wp_modify, wp_note, wp_tryCatch]
    set t : Session := { s₁ with
      engine := { s₁.engine with active := some (newExecution host candidate s₁.latest) }
      started := s₁.started ++ [⟨candidate, s₁.awaited⟩]
      dispatched := s₁.dispatched ++ [⟨candidate, s₁.awaited⟩]
      marks := s₁.marks ++ [.dispatch candidate] } with ht
    have hexecuted : t.Settled once finished reports dispatched := by
      have := Asset.Settled.activate hs (newExecution host candidate s₁.latest)
        hstart.fresh hstart.idle hstart.guided
      rw [List.append_assoc] at this
      rw [Session.Settled, ht]
      simp only [hreports, hdispatched, hengine, List.map_append]
      rw [List.append_assoc] at this
      exact this
    refine wp_mono dispatch_kept (fun _ _ h => h.settled hexecuted) ?_
    intro message s' hkept
    refine wp_mono (reportTerminal_settled ?_) (fun _ _ h => h.1) fun _ _ h => h
    have hs' := hkept.settled hexecuted
    have ha : s'.engine.active = some (newExecution host candidate s₁.latest) :=
      congrArg Engine.active hkept.engine
    refine Asset.Settled.decide hs' candidate.taskId (.inl rfl) rfl ?_
      (.inl ⟨rfl, fun a ha' => ?_⟩)
    · intro r hr
      cases hr
      exact .inr ⟨rfl, fun ho => hs'.apart ho _ ha⟩
    · cases ha.symm.trans ha'
      rfl
  · simp only [rejectCandidate, wp_bind, wp_modifyEngine]
    refine wp_mono (reportTerminal_settled ?_) (fun _ _ h => h.1) fun _ _ h => h
    rw [Session.Settled]
    simp only [hdispatched]
    refine Asset.Settled.decide hs candidate.taskId
      (.inr ⟨hreports', (Settled.not_started hs hstart.fresh hstart.idle).1⟩) ?_ ?_
      (.inl ⟨?_, fun a ha => ?_⟩)
    · show s₁.engine.finished.insert candidate.taskId = _
      rw [hengine]
    · intro r hr
      cases hr
      exact .inr ⟨rfl, fun _ => hstart.fresh⟩
    · show s₁.engine.active = none
      rw [hengine]
      exact hstart.idle
    · rw [hstart.idle] at ha
      cases ha

theorem adoptNext_settled {tasks : List AuthoritativeTask} {c : ControlState}
    (hs : s.Settled once finished reports dispatched) (hidle : s.engine.active = none)
    (hguided : s.engine.reholdOnGuided = false) :
    wp (adoptNext host config tasks c.snapshot c.nowMs)
      (fun _ s' => s'.Settled once finished reports dispatched)
      (fun _ s' => s'.Settled once finished reports dispatched) s := by
  simp only [adoptNext, wp_bind, wp_getEngine]
  split
  · exact hs
  · rename_i candidate hfound
    have hfresh : candidate.taskId ∉ s.engine.finished := by
      have := List.find?_some hfound
      simp only [Bool.and_eq_true, decide_eq_true_eq] at this
      exact this.2
    have hstart : Startable s candidate.taskId := ⟨hfresh, hidle, hguided⟩
    split_ifs
    · simp only [wp_bind, wp_modify, wp_tryCatch]
      refine wp_report_passed ?_ fun message => ?_
      · rw [wp_bind]
        exact executeCandidate_settled hs hstart rfl rfl rfl
      · simp only [wp_bind, wp_modifyEngine, wp_owe, wp_throw]
        refine Asset.Settled.decide hs candidate.taskId
          (.inr ⟨(List.append_assoc _ _ _).symm, (Settled.not_started hs hfresh hidle).1⟩) rfl ?_
          (.inl ⟨hidle, fun a ha => ?_⟩)
        · intro r hr
          cases hr
          exact .inr ⟨rfl, fun _ => hfresh⟩
        · rw [hidle] at ha
          cases ha
    · rw [wp_bind, rejectCandidate]
      refine wp_mono (reject_settled hs hfresh fun _ a ha => ?_) (fun _ _ h => h.1) fun _ _ h => h
      rw [hidle] at ha
      cases ha

theorem adoptAndAdvance_settled {tasks : List AuthoritativeTask} {c : ControlState}
    (hs : s.Settled once finished reports dispatched)
    (hguided : s.engine.reholdOnGuided = false) :
    wp (adoptAndAdvance host config tasks c)
      (fun _ s' => s'.Settled once finished reports dispatched)
      (fun _ s' => s'.Settled once finished reports dispatched) s := by
  simp only [adoptAndAdvance, wp_bind, wp_getEngine]
  split_ifs with hidle
  · simp only [wp_bind]
    refine wp_mono (adoptNext_settled hs (by simpa using hidle) hguided) ?_ fun _ _ h => h
    intro _ s' hs'
    exact advance_settled hs'
  · exact advance_settled hs

theorem ingestTasks_settled {tasks : List AuthoritativeTask} {c : ControlState}
    (hs : s.Settled once finished reports dispatched) (hcurrent : once → s.engine.Current tasks)
    (hguided : s.engine.reholdOnGuided = false) :
    wp (ingestTasks host config tasks c)
      (fun _ s' => s'.Settled once finished reports dispatched)
      (fun _ s' => s'.Settled once finished reports dispatched) s := by
  rw [ingestTasks, wp_bind]
  refine wp_mono (rejectGotoDuringTakeoff_settled hs hcurrent) ?_ fun _ _ h => h
  rintro _ s' ⟨hs', -, hre⟩
  rw [wp_bind, wp_getEngine]
  split_ifs
  · simp only [wp_bind, wp_getControlState]
    refine wp_mono establishHold_kept ?_ fun _ _ h => h.settled hs'
    intro sent s'' hkept
    split_ifs
    · simp only [wp_bind, wp_getControlState, wp_modifyEngine]
      refine adoptAndAdvance_settled ?_ ?_
      · exact Asset.Settled.congr (hkept.settled hs') rfl rfl rfl fun h => .inl h
      · show s''.engine.reholdOnGuided = false
        rw [hkept.engine, hre, hguided]
    · exact hkept.settled hs'
  · exact adoptAndAdvance_settled hs' (hre.trans hguided)

theorem ingest_settled {tasks : List AuthoritativeTask} {c : ControlState}
    (hnodup : once → (tasks.map (·.taskId)).Nodup)
    (hs : s.Settled once finished reports dispatched) :
    wp (ingest host config tasks c.snapshot c.nowMs)
      (fun _ s' => s'.Settled once finished reports dispatched)
      (fun _ s' => s'.Settled once finished reports dispatched) s := by
  simp only [ingest, wp_bind, wp_modifyEngine]
  obtain ⟨hs₀, hcurrent⟩ := reconcileAuthoritative_settled hnodup hs
  refine wp_mono (flushTerminalReport_settled (s := { s with
    engine := reconcileAuthoritative tasks s.engine }) hs₀) ?_ fun _ _ h => h
  rintro _ s₁ ⟨hs₁, he₁⟩
  rw [wp_bind]
  refine wp_mono (observeMode_settled hs₁) ?_ fun _ _ h => h
  rintro _ s₂ ⟨hs₂, hactive⟩
  have hcurrent₂ : once → s₂.engine.Current tasks := by
    intro ho active ha
    rcases hactive with hnone | hsame
    · rw [hnone] at ha
      cases ha
    · refine hcurrent ho active ?_
      rw [hsame, he₁] at ha
      exact ha
  rw [wp_bind, wp_getEngine]
  split_ifs with hre hguided
  · simp only [wp_bind]
    refine wp_mono establishHold_kept ?_ fun _ _ h => h.settled hs₂
    intro sent s₃ hkept
    have hidle : s₃.engine.active = none := by
      rw [hkept.engine]
      exact hs₂.idle hre
    split_ifs
    · simp only [wp_bind, wp_getControlState, wp_modifyEngine]
      refine ingestTasks_settled ?_ (fun _ active ha => ?_) rfl
      · exact Asset.Settled.congr (hkept.settled hs₂) rfl rfl rfl fun _ => .inr hidle
      · rw [show s₃.engine.active = some active from ha] at hidle
        cases hidle
    · exact hkept.settled hs₂
  · exact rejectPendingOutsideGuided_settled hs₂ (hs₂.idle hre)
  · exact ingestTasks_settled hs₂ hcurrent₂ (by simpa using hre)

theorem noteGuidedReturn_settled {c : ControlState}
    (hs : s.Settled once finished reports dispatched) :
    wp (noteGuidedReturn config c.snapshot c.nowMs)
      (fun _ s' => s'.Settled once finished reports dispatched)
      (fun _ s' => s'.Settled once finished reports dispatched) s := by
  simp only [noteGuidedReturn, wp_bind, wp_getEngine]
  split_ifs with hre
  · simp only [wp_bind]
    refine wp_mono establishHold_kept ?_ fun _ _ h => h.settled hs
    intro sent s' hkept
    split_ifs
    · rw [wp_modifyEngine]
      exact Asset.Settled.congr (hkept.settled hs) rfl rfl rfl fun h => absurd h Bool.false_ne_true
    · exact hkept.settled hs
  · exact hs

theorem abandonActiveForRecovery_settled {reholdOnGuided : Bool}
    (hs : s.Settled once finished reports dispatched) :
    wp (abandonActiveForRecovery reholdOnGuided)
      (fun _ s' => s'.Settled once finished reports dispatched)
      (fun _ s' => s'.Settled once finished reports dispatched) s := by
  simp only [abandonActiveForRecovery, wp_bind, wp_modifyEngine, wp_getEngine]
  split
  · rename_i ha
    exact Asset.Settled.congr hs rfl rfl rfl fun _ => .inr ha
  · rename_i active ha
    have ha' : s.engine.active = some active := ha
    refine Asset.Settled.decide hs active.task.taskId (.inl rfl) rfl
      (fun r hr => .inl hr) (.inl ⟨rfl, fun a h => ?_⟩)
    cases ha'.symm.trans h
    rfl

end Execution

section Runs

/-- What a sequence of calls has come to: the engine, the reports passed on, the Tasks dispatched
and the lists of Tasks delivered. -/
structure FlightHistory where
  engine : Engine := {}
  reports : List Report := []
  dispatched : List String := []
  delivered : List (List AuthoritativeTask) := []

def EngineCall.delivered (call : EngineCall) : List (List AuthoritativeTask) :=
  match call.method with
  | .ingest tasks => [tasks]
  | _ => []

variable (host config)

def FlightHistory.call (h : FlightHistory) (call : EngineCall) : FlightHistory :=
  let s := call.session host config h.engine
  { engine := s.engine
    reports := h.reports ++ s.reports
    dispatched := h.dispatched ++ s.dispatched.map (·.task.taskId)
    delivered := h.delivered ++ call.delivered }

def FlightHistory.run (h : FlightHistory) (calls : List EngineCall) : FlightHistory :=
  calls.foldl (FlightHistory.call host config) h

variable {host config}

/-- No two Tasks of a delivered list have one ID. -/
def FlightHistory.Distinct (h : FlightHistory) : Prop :=
  ∀ tasks ∈ h.delivered, (tasks.map (·.taskId)).Nodup

def FlightHistory.Settled (finished : List String) (h : FlightHistory) : Prop :=
  Asset.Settled h.Distinct finished h.reports h.dispatched h.engine

/-- What was distinct in a longer history was distinct in a shorter one. -/
theorem Settled.antitone {once once' : Prop} {finished : List String} {reports : List Report}
    {dispatched : List String} {e : Engine} (hs : Settled once finished reports dispatched e)
    (himp : once' → once) : Settled once' finished reports dispatched e :=
  ⟨hs.grown, hs.starts, hs.started, hs.dispatches, hs.dispatched, hs.decided,
    fun ho => hs.unique (himp ho), fun ho => hs.apart (himp ho), hs.idle⟩

theorem FlightHistory.call_settled {finished : List String} {h : FlightHistory}
    (hs : h.Settled finished) (call : EngineCall) :
    (h.call host config call).Settled finished := by
  have hopen : (call.opening h.engine).Settled (h.call host config call).Distinct finished h.reports
      h.dispatched := by
    rw [Session.Settled]
    simp only [EngineCall.opening, List.append_nil, List.map_nil]
    exact Settled.antitone hs fun hd tasks hmem => hd tasks (List.mem_append_left _ hmem)
  have hwp : wp (call.proc host config)
      (fun _ s' => s'.Settled (h.call host config call).Distinct finished h.reports h.dispatched)
      (fun _ s' => s'.Settled (h.call host config call).Distinct finished h.reports h.dispatched)
      (call.opening h.engine) := by
    unfold EngineCall.proc
    split
    · rename_i tasks hmethod
      refine ingest_settled (c := call.start) (fun hd => hd tasks ?_) hopen
      refine List.mem_append_right _ ?_
      rw [EngineCall.delivered, hmethod]
      exact List.mem_singleton_self _
    · exact wp_mono (noteTakeover_settled hopen) (fun _ _ h => h.1) fun _ _ h => h
    · exact noteGuidedReturn_settled (c := call.start) hopen
    · rw [wp_bind]
      exact abandonActiveForRecovery_settled hopen
  exact exec_of_wp hwp

theorem FlightHistory.run_settled {finished : List String} (calls : List EngineCall)
    {h : FlightHistory} (hs : h.Settled finished) : (h.run host config calls).Settled finished := by
  induction calls generalizing h with
  | nil => exact hs
  | cons call calls ih => exact ih (h.call_settled hs call)

theorem FlightHistory.new_settled : ({} : FlightHistory).Settled [] where
  grown := by simp
  starts := List.nodup_nil
  started := by simp [startsOf]
  dispatches := List.nodup_nil
  dispatched := by simp
  decided := by simp [Decided]
  unique := by simp [Decided]
  apart := by simp
  idle := by simp

/-- No Task is started or dispatched twice, and one dispatched is finished when it is not active.
What was finished earlier still is. -/
structure StartedOnce (earlier h : FlightHistory) : Prop where
  starts : (startsOf h.reports).Nodup
  dispatches : h.dispatched.Nodup
  idle : h.engine.active = none → ∀ taskId ∈ h.dispatched, taskId ∈ h.engine.finished
  grown : ∀ taskId ∈ earlier.engine.finished, taskId ∈ h.engine.finished

/-- No Task has two different ends, and none that was finished earlier is active. -/
structure EndedOnce (earlier h : FlightHistory) : Prop where
  ends : ∀ r r', .terminal r ∈ h.reports → .terminal r' ∈ h.reports → r.taskId = r'.taskId → r = r'
  inactive : ∀ taskId ∈ earlier.engine.finished, ∀ active, h.engine.active = some active →
    active.task.taskId ≠ taskId

/-- Each Task is started once at most, dispatched once at most, and has one end at most. -/
theorem flight_task_once (host : Host) (config : AssetConfig) (before after : List EngineCall) :
    let earlier := ({} : FlightHistory).run host config before
    let h := earlier.run host config after
    StartedOnce earlier h ∧ (h.Distinct → EndedOnce earlier h) := by
  intro earlier h
  have hearlier : earlier.Settled [] := FlightHistory.run_settled before FlightHistory.new_settled
  have hs : h.Settled earlier.engine.finished := FlightHistory.run_settled after
    { hearlier with grown := fun _ hmem => hmem }
  refine ⟨⟨hs.starts, hs.dispatches, fun hidle taskId hmem => ?_, hs.grown⟩, fun hd => ⟨?_, ?_⟩⟩
  · rcases hs.dispatched taskId hmem with hfinished | ⟨active, ha, -⟩
    · exact hfinished
    · rw [hidle] at ha
      cases ha
  · exact fun r r' hr hr' => hs.unique hd r r' (.inl hr) (.inl hr')
  · intro taskId hmem active ha hid
    exact hs.apart hd active ha (hid ▸ hs.grown taskId hmem)

/-- Core tells of the takeoff twice: as a go-to that waits, and as the takeoff that goes on. -/
def doubledCall : EngineCall where
  method := .ingest [⟨"takeoff", "flight.goto", .pending, none, []⟩,
    ⟨"takeoff", "flight.takeoff", .inProgress, none, [("altitude_m", .number 110)]⟩]
  start := flying true 5 1000
  script _ := ⟨flying true 5 1000, .ok ()⟩

/-- The takeoff runs out of time. -/
def lateCall : EngineCall where
  method := .ingest []
  start := flying true 5 301000
  script _ := ⟨flying true 5 301000, .ok ()⟩

/-- A Task told of twice in one list is finished and still executed, and comes to a second end. -/
theorem finished_task_active :
    ¬ (∀ (host : Host) (config : AssetConfig) (before after : List EngineCall),
      let earlier := ({} : FlightHistory).run host config before
      ∀ taskId ∈ earlier.engine.finished, ∀ active,
        (earlier.run host config after).engine.active = some active →
          active.task.taskId ≠ taskId) ∧
    ¬ ∀ (host : Host) (config : AssetConfig) (calls : List EngineCall),
      let h := ({} : FlightHistory).run host config calls
      ∀ r r', .terminal r ∈ h.reports → .terminal r' ∈ h.reports → r.taskId = r'.taskId →
        r = r' := by
  refine ⟨fun hall => ?_, fun hall => ?_⟩
  · have hactive : (({} : FlightHistory).run flightHost flightConfig
        [takeoffCall, doubledCall]).engine.active.any (·.task.taskId = "takeoff") = true := by
      decide +kernel
    obtain ⟨active, ha, hid⟩ := (Option.any_eq_true _ _).1 hactive
    exact hall flightHost flightConfig [takeoffCall, doubledCall] [] "takeoff" (by decide +kernel)
      active ha (of_decide_eq_true hid)
  · have := hall flightHost flightConfig [takeoffCall, doubledCall, lateCall]
      (.fail "takeoff" .preconditionFailed "Go-to during takeoff is rejected.")
      (.fail "takeoff" .executionFailed "No completion within 300s.")
      (by decide +kernel) (by decide +kernel) rfl
    cases this

end Runs

end Atlas.Asset
