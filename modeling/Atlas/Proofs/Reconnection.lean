import Atlas.Core.Tasks
import Atlas.Proofs.DeliveredTasks

/-!
# Reconciling after a reconnect

A poll refreshes one Task by its ID: that of a pending report, else the one executed, else the one a
recovery has to fail. The recovery looks for its own Task in what was fetched, so that a pending
report for another Task hides from it that its Task has ended; Core then refuses the failure it
reports, in this poll and in every later one, since nothing else takes the pending report away.
-/

namespace Atlas.Asset

open Effects

section Answers

def assetStatus : Core.TaskStatus → TaskStatus
  | .pending => .pending
  | .acknowledged => .acknowledged
  | .inProgress => .inProgress
  | .completed => .completed
  | .failed => .failed
  | .cancelled => .cancelled

/-- The answer has the status of Core's Task. -/
def Shows (db : Core.DB) (task : AuthoritativeTask) : Prop :=
  ∃ t, Core.findTask db task.taskId = some t ∧ task.status = assetStatus t.status

/-- What `recoveryFailure` is to Core. -/
def recoveryTaskFailure : Core.TaskFailure :=
  ⟨.executionFailed,
    "Core link lost; recovery RTL requested and the interrupted action was not resumed."⟩

/-- Core takes the failure of an interrupted Task: the Task has not ended, or with this failure. -/
def takesFailure (db : Core.DB) (taskId : String) : Bool :=
  (Core.findTask db taskId).any fun t =>
    (Core.failTask recoveryTaskFailure t default default Core.zeroTime).isOk

/-- The Task whose state the controller asks for. -/
def Controller.asked (c : Controller) : Option String :=
  c.session.engine.reconciliationTaskId.or c.recoveryTaskToFail

/-- The Task that a recovery interrupted and has to fail. -/
def Controller.interrupted (c : Controller) : Option String :=
  c.recoveryTaskToFail.or (c.session.engine.active.map (·.task.taskId))

variable (world : World) (c : Controller)

/-- The Task a poll asks for by its ID: the one it has not been delivered. -/
def Controller.refreshed : Option String :=
  c.asked.filter fun taskId => !(world.fetchTasks c.session.awaited).any (·.taskId = taskId)

/-- The Tasks a poll reconciles with. -/
def Controller.fetched : List AuthoritativeTask :=
  world.fetchTasks c.session.awaited ++
    if (c.refreshed world).isSome then [world.getTask (c.session.awaited + 1)] else []

/-- After how many awaits a poll has its Tasks. -/
def Controller.fetchedAt : ℕ :=
  c.session.awaited + 1 + if (c.refreshed world).isSome then 1 else 0

/-- The Task whose failure a poll reports: the one interrupted, unless an answer says it is over. -/
def Controller.reported : Option String :=
  c.interrupted.filter fun taskId =>
    !((c.fetched world).find? (·.taskId = taskId)).any (·.status.terminal)

/-- Core answers the calls of the next poll by its rules: it delivers Tasks that have not ended,
reads return the Tasks as they stand, and a failure is taken or refused. -/
structure CoreAnswers (db : Core.DB) : Prop where
  fetches : (c.session.script c.session.awaited).result = .ok ()
  delivers : ∀ task ∈ world.fetchTasks c.session.awaited,
    Shows db task ∧ task.status.terminal = false
  reads : ∀ taskId, c.refreshed world = some taskId → (Core.findTask db taskId).isSome = true →
    (c.session.script (c.session.awaited + 1)).result = .ok () ∧
      (world.getTask (c.session.awaited + 1)).taskId = taskId ∧
      Shows db (world.getTask (c.session.awaited + 1))
  reports : ∀ taskId, c.reported world = some taskId →
    ((c.session.script (c.fetchedAt world)).result = .ok () ↔ takesFailure db taskId = true)

/-- Core would take the failure of the interrupted Task, or no end of another Task is owed. -/
def Controller.Reconcilable (db : Core.DB) : Prop :=
  ∀ taskId, c.interrupted = some taskId → takesFailure db taskId = true ∨
    ∀ pending, c.session.engine.pendingTerminalReport = some pending → pending.taskId = taskId

/-- The recovery is closed and Core no longer taken to be gone: the next pass ingests. -/
def Controller.Reconciled : Prop := c.coreLossRecovery = false ∧ c.coreDownSince = none

end Answers

section Polls

variable {world : World} {db : Core.DB} {c c' : Controller}

/-- The controller after so many awaits of a poll. -/
structure Controller.Polls (c : Controller) (awaited : ℕ) (c' : Controller) : Prop where
  engine : c'.session.engine = c.session.engine
  script : c'.session.script = c.session.script
  awaited : c'.session.awaited = awaited
  coreLossRecovery : c'.coreLossRecovery = c.coreLossRecovery
  recoveryTaskToFail : c'.recoveryTaskToFail = c.recoveryTaskToFail
  ended : (c.coreLossRecoveryConfirmed || c.coreLossRecoveryRelinquished) = true →
    (c'.coreLossRecoveryConfirmed || c'.coreLossRecoveryRelinquished) = true

theorem noteAcknowledged_polls (world : World) (c : Controller) :
    c.Polls c.session.awaited (noteAcknowledged world c) := by
  unfold noteAcknowledged
  split_ifs
  · exact ⟨rfl, rfl, rfl, rfl, rfl, fun _ => rfl⟩
  · exact ⟨rfl, rfl, rfl, rfl, rfl, fun h => h⟩

/-- A wait ends as its script says. -/
theorem await_polls : wp (await world)
    (fun _ c' => (c.session.script c.session.awaited).result = .ok () ∧
      c.Polls (c.session.awaited + 1) c')
    (fun _ c' => (c.session.script c.session.awaited).result ≠ .ok () ∧
      c.Polls (c.session.awaited + 1) c') c := by
  have hnoted := noteAcknowledged_polls world c
  have hpolls (suspended : List Engine) : c.Polls (c.session.awaited + 1)
      { noteAcknowledged world c with
        session := { (noteAcknowledged world c).session with
          awaited := (noteAcknowledged world c).session.awaited + 1
          suspended := suspended } } :=
    ⟨hnoted.engine, hnoted.script, congrArg (· + 1) hnoted.awaited, hnoted.coreLossRecovery,
      hnoted.recoveryTaskToFail, hnoted.ended⟩
  have hresult : ((noteAcknowledged world c).session.script
      (noteAcknowledged world c).session.awaited).result =
      (c.session.script c.session.awaited).result := by
    rw [hnoted.script, hnoted.awaited]
  rw [await, wp_bind, wp_modify, wp_engineCall]
  simp only [awaitOutcome, wp_bind, wp_get, wp_modify]
  rw [← hresult]
  split
  · rename_i hok
    exact ⟨hok, hpolls _⟩
  · rename_i message herror
    exact ⟨by simp [herror], hpolls _⟩

theorem Controller.Polls.trans {c'' : Controller} {n n' : ℕ} (h : c.Polls n c')
    (h' : c'.Polls n' c'') : c.Polls n' c'' :=
  ⟨h'.engine.trans h.engine, h'.script.trans h.script, h'.awaited,
    h'.coreLossRecovery.trans h.coreLossRecovery,
    h'.recoveryTaskToFail.trans h.recoveryTaskToFail, fun hended => h'.ended (h.ended hended)⟩

/-- An answer of Core, where it comes. -/
theorem ask_polls {α : Type} (answer : ℕ → α)
    (hok : (c.session.script c.session.awaited).result = .ok ()) :
    wp (ask world answer)
      (fun a c' => a = answer c.session.awaited ∧ c.Polls (c.session.awaited + 1) c')
      (fun _ _ => False) c := by
  simp only [ask, wp_bind, wp_get]
  exact wp_mono await_polls (fun _ _ h => ⟨rfl, h.2⟩) fun _ _ h => h.1 hok

theorem fetchAuthoritative_polls (h : CoreAnswers world c db)
    (hknown : ∀ taskId, c.asked = some taskId → (Core.findTask db taskId).isSome = true) :
    wp (fetchAuthoritative world)
      (fun tasks c' => tasks = c.fetched world ∧ c.Polls (c.fetchedAt world) c')
      (fun _ _ => False) c := by
  rw [fetchAuthoritative, wp_bind]
  refine wp_mono (ask_polls _ h.fetches) ?_ fun _ _ h => h
  rintro tasks c₁ ⟨rfl, hpolls⟩
  simp only [wp_bind, wp_modify, wp_get]
  have hasked : c₁.session.engine.reconciliationTaskId.or c₁.recoveryTaskToFail = c.asked := by
    rw [hpolls.engine, hpolls.recoveryTaskToFail]
    rfl
  have hpolls₁ : c.Polls (c.session.awaited + 1)
      { c₁ with answered := c₁.answered ++ world.fetchTasks c.session.awaited } :=
    ⟨hpolls.engine, hpolls.script, hpolls.awaited, hpolls.coreLossRecovery,
      hpolls.recoveryTaskToFail, hpolls.ended⟩
  rw [hasked]
  split
  · rename_i hnone
    have hrefreshed : c.refreshed world = none := by
      rw [Controller.refreshed, hnone]
      rfl
    rw [wp_pure]
    simp only [Controller.fetched, Controller.fetchedAt, hrefreshed]
    exact ⟨by simp, hpolls₁⟩
  · rename_i taskId hsome
    split_ifs with hdelivered
    · have hrefreshed : c.refreshed world = none := by
        rw [Controller.refreshed, hsome, Option.filter_some, hdelivered]
        rfl
      rw [wp_pure]
      simp only [Controller.fetched, Controller.fetchedAt, hrefreshed]
      exact ⟨by simp, hpolls₁⟩
    · have hrefreshed : c.refreshed world = some taskId := by
        rw [Controller.refreshed, hsome, Option.filter_some, Bool.eq_false_iff.2 hdelivered]
        rfl
      obtain ⟨hok, hid, hshows⟩ := h.reads taskId hrefreshed (hknown taskId hsome)
      rw [wp_bind]
      refine wp_mono (ask_polls _ ?_) ?_ fun _ _ h => h
      · rw [hpolls₁.script, hpolls₁.awaited]
        exact hok
      · rintro task c₂ ⟨rfl, hpolls₂⟩
        rw [wp_bind, wp_modify, wp_pure]
        rw [hpolls₁.awaited] at hpolls₂ ⊢
        have hpolls₃ := hpolls₁.trans hpolls₂
        simp only [Controller.fetched, Controller.fetchedAt, hrefreshed]
        exact ⟨by simp, hpolls₃.engine, hpolls₃.script, hpolls₃.awaited, hpolls₃.coreLossRecovery,
          hpolls₃.recoveryTaskToFail, hpolls₃.ended⟩

/-- Giving up the active Task waits for nothing. -/
theorem abandonActiveForRecovery_waits {s : Session} {reholdOnGuided : Bool} :
    wp (abandonActiveForRecovery reholdOnGuided)
      (fun abandoned s' => abandoned = s.engine.active.map (·.task.taskId) ∧
        s'.script = s.script ∧ s'.awaited = s.awaited) (fun _ _ => False) s := by
  simp only [abandonActiveForRecovery, wp_bind, wp_modifyEngine, wp_getEngine]
  split
  · rename_i ha
    have ha' : s.engine.active = none := ha
    exact ⟨by rw [ha']; rfl, rfl, rfl⟩
  · rename_i active ha
    have ha' : s.engine.active = some active := ha
    exact ⟨by rw [ha']; rfl, rfl, rfl⟩

/-- Whether Core still has to be told that a Task failed, by the Tasks that were fetched. -/
def Unsettled (tasks : List AuthoritativeTask) (taskId : String) : Prop :=
  (tasks.find? (·.taskId = taskId)).any (·.status.terminal) = false

/-- The recovery ends if Core takes the failure it is told. -/
theorem settle_closes (tasks : List AuthoritativeTask) (hopen : c.coreLossRecovery = true)
    (hended : (c.coreLossRecoveryConfirmed || c.coreLossRecoveryRelinquished) = true) :
    wp (do
        settleRecoveryTask world tasks
        modify endRecovery)
      (fun _ c' => c'.coreLossRecovery = false ∧
        ∀ taskId, c.recoveryTaskToFail = some taskId → Unsettled tasks taskId →
          (c.session.script c.session.awaited).result = .ok ())
      (fun _ c' => c'.coreLossRecovery = true ∧
        ∃ taskId, c.recoveryTaskToFail = some taskId ∧ Unsettled tasks taskId ∧
          (c.session.script c.session.awaited).result ≠ .ok ()) c := by
  have hends (c' : Controller)
      (h : (c'.coreLossRecoveryConfirmed || c'.coreLossRecoveryRelinquished) = true) :
      (endRecovery c').coreLossRecovery = false := by
    unfold endRecovery
    rw [← Bool.not_or, h]
    rfl
  simp only [settleRecoveryTask, wp_bind, wp_get]
  split
  · rename_i hnone
    exact ⟨hends c hended, fun taskId h => by rw [hnone] at h; cases h⟩
  · rename_i taskId hsome
    simp only [failInterrupted, wp_bind]
    split_ifs with hover
    · rw [wp_pure, wp_bind, wp_engineCall, wp_note, wp_modify, wp_modify]
      refine ⟨hends _ hended, fun taskId' h hunsettled => ?_⟩
      rw [hsome, Option.some.injEq] at h
      rw [Unsettled, ← h, hover] at hunsettled
      cases hunsettled
    · rw [wp_bind]
      refine wp_mono await_polls ?_ ?_
      · rintro _ c₁ ⟨hok, hpolls⟩
        rw [wp_engineCall, wp_modify, wp_bind, wp_engineCall, wp_note, wp_modify, wp_modify]
        exact ⟨hends _ (hpolls.ended hended), fun _ _ _ => hok⟩
      · rintro _ c₁ ⟨herror, hpolls⟩
        exact ⟨hpolls.coreLossRecovery.trans hopen, taskId, hsome, Bool.eq_false_iff.2 hover,
          herror⟩

/-- A poll that has its Tasks ends the recovery, unless Core refuses the failure. -/
theorem reconcileAfterLoss_settles (tasks : List AuthoritativeTask)
    (hopen : c.coreLossRecovery = true)
    (hended : (c.coreLossRecoveryConfirmed || c.coreLossRecoveryRelinquished) = true) :
    wp (reconcileAfterLoss world tasks)
      (fun _ c' => c'.coreLossRecovery = false ∧
        ∀ taskId, c.interrupted = some taskId → Unsettled tasks taskId →
          (c.session.script c.session.awaited).result = .ok ())
      (fun _ c' => c'.coreLossRecovery = true ∧
        ∃ taskId, c.interrupted = some taskId ∧ Unsettled tasks taskId ∧
          (c.session.script c.session.awaited).result ≠ .ok ()) c := by
  simp only [reconcileAfterLoss, reconcileAfterReconnect, wp_bind, wp_get]
  rw [if_pos (by simp [hopen]), wp_bind, wp_get, if_pos hopen]
  rw [wp_bind, wp_engineCall]
  refine wp_mono abandonActiveForRecovery_waits ?_ fun _ _ h => h.elim
  rintro abandoned s' ⟨rfl, hscript, hawaited⟩
  rw [wp_bind, wp_modify]
  rw [← hscript, ← hawaited]
  exact settle_closes tasks hopen hended

theorem pollCore_settles (h : CoreAnswers world c db)
    (hknown : ∀ taskId, c.asked = some taskId → (Core.findTask db taskId).isSome = true)
    (hopen : c.coreLossRecovery = true)
    (hended : (c.coreLossRecoveryConfirmed || c.coreLossRecoveryRelinquished) = true) (now : ℚ) :
    (exec (pollCore world now) c).2.Reconciled ↔
      ∀ taskId, c.reported world = some taskId → takesFailure db taskId = true := by
  have hreports : ∀ taskId, c.reported world = some taskId ↔
      c.interrupted = some taskId ∧ Unsettled (c.fetched world) taskId := by
    intro taskId
    rw [Controller.reported, Option.filter_eq_some_iff, Bool.not_eq_true']
    rfl
  let taken := ∀ taskId, c.interrupted = some taskId → Unsettled (c.fetched world) taskId →
    (c.session.script (c.fetchedAt world)).result = .ok ()
  let outcome := fun c' : Controller => c'.Reconciled ∧ taken ∨ c'.coreLossRecovery = true ∧ ¬taken
  have hpoll : wp (pollCore world now) (fun _ => outcome) (fun _ => outcome) c := by
    simp only [pollCore, wp_tryCatch, wp_bind]
    refine wp_mono (fetchAuthoritative_polls h hknown) ?_ fun _ _ h => h.elim
    rintro tasks c₁ ⟨rfl, hpolls⟩
    have hinterrupted : c₁.interrupted = c.interrupted := by
      rw [Controller.interrupted, hpolls.recoveryTaskToFail, hpolls.engine]
      rfl
    rw [wp_bind]
    refine wp_mono (reconcileAfterLoss_settles (c.fetched world)
      (hpolls.coreLossRecovery.trans hopen) (hpolls.ended hended)) ?_ ?_
    all_goals rw [hinterrupted, hpolls.script, hpolls.awaited]
    · rintro _ c₂ ⟨hclosed, htaken⟩
      exact .inl ⟨⟨hclosed, rfl⟩, htaken⟩
    · rintro _ c₂ ⟨hstill, taskId, hid, hunsettled, herror⟩
      exact .inr ⟨hstill, fun htaken => herror (htaken taskId hid hunsettled)⟩
  have htaken : taken ↔ ∀ taskId, c.reported world = some taskId →
      takesFailure db taskId = true := by
    constructor
    · intro h' taskId hreported
      obtain ⟨hid, hunsettled⟩ := (hreports taskId).1 hreported
      exact (h.reports taskId hreported).1 (h' taskId hid hunsettled)
    · intro h' taskId hid hunsettled
      have hreported := (hreports taskId).2 ⟨hid, hunsettled⟩
      exact (h.reports taskId hreported).2 (h' taskId hreported)
  rw [← htaken]
  rcases exec_of_wp hpoll with ⟨hreconciled, hyes⟩ | ⟨hstill, hno⟩
  · exact iff_of_true hreconciled hyes
  · refine iff_of_false (fun hreconciled => ?_) hno
    rw [hreconciled.1] at hstill
    cases hstill

end Polls

section Fetched

variable {world : World} {db : Core.DB} {c : Controller} {taskId : String}

theorem takesFailure_of_shows {task : AuthoritativeTask} (h : Shows db task)
    (hlive : task.status.terminal = false) : takesFailure db task.taskId = true := by
  obtain ⟨t, hfound, hstatus⟩ := h
  rw [hstatus] at hlive
  rw [takesFailure, hfound, Option.any_some, Core.failTask]
  cases hs : t.status <;> rw [hs] at hlive
  all_goals first | exact absurd hlive (by decide) | rfl

theorem fetched_shows (h : CoreAnswers world c db)
    (hknown : ∀ taskId, c.asked = some taskId → (Core.findTask db taskId).isSome = true) :
    ∀ task ∈ c.fetched world, Shows db task ∧
      (task.status.terminal = true → c.asked = some task.taskId) := by
  intro task hmem
  rcases List.mem_append.1 hmem with hdelivered | hread
  · obtain ⟨hshows, hlive⟩ := h.delivers task hdelivered
    exact ⟨hshows, fun hterminal => by rw [hlive] at hterminal; cases hterminal⟩
  · rcases hrefreshed : c.refreshed world with _ | taskId
    · rw [hrefreshed] at hread
      cases hread
    · have hasked := (Option.filter_eq_some_iff.1 hrefreshed).1
      obtain ⟨-, hid, hshows⟩ := h.reads taskId hrefreshed (hknown taskId hasked)
      rw [hrefreshed] at hread
      rw [List.mem_singleton.1 hread]
      exact ⟨hshows, fun _ => hid.symm ▸ hasked⟩

/-- The Task that is asked for is among those fetched. -/
theorem mem_fetched (h : CoreAnswers world c db) (hasked : c.asked = some taskId)
    (hknown : (Core.findTask db taskId).isSome = true) :
    ∃ task ∈ c.fetched world, task.taskId = taskId := by
  by_cases hdelivered : (world.fetchTasks c.session.awaited).any (·.taskId = taskId)
  · obtain ⟨task, hmem, hid⟩ := List.any_eq_true.1 hdelivered
    exact ⟨task, List.mem_append_left _ hmem, of_decide_eq_true hid⟩
  · have hrefreshed : c.refreshed world = some taskId := by
      rw [Controller.refreshed, hasked, Option.filter_some, Bool.eq_false_iff.2 hdelivered]
      rfl
    refine ⟨_, ?_, (h.reads taskId hrefreshed hknown).2.1⟩
    rw [Controller.fetched, hrefreshed]
    exact List.mem_append_right _ (List.mem_singleton_self _)

/-- A recovery has a Task to fail only while the engine executes none. -/
theorem asked_of_interrupted
    (hidle : c.recoveryTaskToFail ≠ none → c.session.engine.active = none)
    (hinterrupted : c.interrupted = some taskId)
    (hpending : ∀ pending, c.session.engine.pendingTerminalReport = some pending →
      pending.taskId = taskId) : c.asked = some taskId := by
  rw [Controller.asked, Engine.reconciliationTaskId]
  rcases hp : c.session.engine.pendingTerminalReport with _ | pending
  · rcases hf : c.recoveryTaskToFail with _ | failing
    · rw [Controller.interrupted, hf] at hinterrupted
      simpa using hinterrupted
    · rw [Controller.interrupted, hf] at hinterrupted
      rw [hidle (by simp [hf])]
      simpa using hinterrupted
  · simpa using hpending pending hp

end Fetched

variable {host : Host} {config : ControllerConfig} {world : World} {start : ControlState}
  {script : ℕ → Outcome} {c : Controller} {db : Core.DB}

/-- Once a recovery is confirmed or given up to a pilot, a poll that Core answers by its rules
closes it, if and only if Core would still take the failure of the interrupted Task or no end of
another Task is owed. -/
theorem reconnection_closes (run : LoopRun host config world start script c)
    (hopen : c.coreLossRecovery = true)
    (hended : (c.coreLossRecoveryConfirmed || c.coreLossRecoveryRelinquished) = true)
    (hkept : ∀ task ∈ c.answered, (Core.findTask db task.taskId).isSome = true)
    (hanswers : CoreAnswers world c db) (now : ℚ) :
    (exec (pollCore world now) c).2.Reconciled ↔ c.Reconcilable db := by
  have hwithin := run.within
  have hhas : ∀ taskId, c.Has taskId → (Core.findTask db taskId).isSome = true := by
    rintro taskId ⟨task, hmem, rfl⟩
    exact hkept task hmem
  have hknown : ∀ taskId, c.asked = some taskId → (Core.findTask db taskId).isSome = true := by
    intro taskId hasked
    refine hhas taskId ?_
    rcases Option.or_eq_some_iff.1 hasked with hengine | ⟨-, hfailing⟩
    · rcases Option.or_eq_some_iff.1 hengine with hpending | ⟨-, hactive⟩
      · obtain ⟨pending, hp, rfl⟩ := Option.map_eq_some_iff.1 hpending
        exact hwithin.engine.pending pending hp
      · obtain ⟨active, ha, rfl⟩ := Option.map_eq_some_iff.1 hactive
        exact hwithin.engine.active active ha
    · exact hwithin.failing taskId hfailing
  rw [pollCore_settles hanswers hknown hopen hended]
  constructor
  · intro htakes taskId hinterrupted
    by_cases hreported : c.reported world = some taskId
    · exact .inl (htakes taskId hreported)
    · -- An answer says that the Task is over; it was asked for.
      refine .inr fun pending hpending => ?_
      rw [Controller.reported, hinterrupted, Option.filter_some, ite_eq_left_iff] at hreported
      simp only [Bool.not_eq_true', Bool.not_eq_false, reduceCtorEq, imp_false, not_not]
        at hreported
      obtain ⟨task, hfound, hterminal⟩ := (Option.any_eq_true _ _).1 hreported
      have hid : task.taskId = taskId := by simpa using List.find?_some hfound
      have hasked := (fetched_shows hanswers hknown task
        (List.mem_of_find?_eq_some hfound)).2 hterminal
      rw [Controller.asked, Engine.reconciliationTaskId, hpending, hid] at hasked
      simpa using hasked
  · intro hcan taskId hreported
    obtain ⟨hinterrupted, hunsettled⟩ := Option.filter_eq_some_iff.1 hreported
    rcases hcan taskId hinterrupted with htakes | hpending
    · exact htakes
    · have hasked := asked_of_interrupted (fun h => (run.accounted.failing h).2) hinterrupted
        hpending
      obtain ⟨task, hmem, hid⟩ := mem_fetched hanswers hasked (hknown taskId hasked)
      rcases hfound : (c.fetched world).find? (·.taskId = taskId) with _ | found
      · exact absurd hid (by simpa using List.find?_eq_none.1 hfound task hmem)
      · rw [hfound] at hunsettled
        have hid' : found.taskId = taskId := by simpa using List.find?_some hfound
        rw [← hid']
        refine takesFailure_of_shows
          (fetched_shows hanswers hknown found (List.mem_of_find?_eq_some hfound)).1 ?_
        simpa using hunsettled

section Stuck

/-- Core delivers a takeoff and, while it is flown, a go-to, which is cancelled later. -/
def takeoffGotoWorld : World where
  fetchTasks k :=
    if k = 0 then [⟨"takeoff", "flight.takeoff", .pending, none, [("altitude_m", .number 110)]⟩]
    else if k = 3 then [⟨"goto", "flight.goto", .pending, none, []⟩]
    else []
  getTask k :=
    if k = 4 then ⟨"takeoff", "flight.takeoff", .inProgress, none, [("altitude_m", .number 110)]⟩
    else ⟨"goto", "flight.goto", .cancelled, some "superseded", []⟩
  acknowledged k := k = 6
  linkHealthy _ := true

/-- Core is gone when the go-to is rejected; back again, it takes the takeoff's failure or not. -/
def takeoffGotoScript (takes : Bool) (k : ℕ) : Outcome where
  control := if k < 5 then flying true 0 2000 else flying true 5 15000
  result :=
    if k = 5 then .error "Core is gone."
    else if k = 9 && !takes then .error "cannot fail Task in cancelled state"
    else .ok ()

/-- The takeoff is flown and the go-to rejected; Core is gone, and the aircraft acknowledges its
return to launch. -/
def lostTakeoff (takes : Bool) : Controller :=
  let perform (step : LoopStep) (c : Controller) : Controller :=
    (exec (step.proc flightHost flightControl takeoffGotoWorld) c).2
  perform .control (perform .control (perform (.poll 3500) (perform .control (perform (.poll 2000)
    { session :=
        { engine := {}, start := flying true 0 2000, script := takeoffGotoScript takes } }))))

theorem lostTakeoff_run (takes : Bool) :
    LoopRun flightHost flightControl takeoffGotoWorld (flying true 0 2000)
      (takeoffGotoScript takes) (lostTakeoff takes) :=
  .step .control (.step .control (.step (.poll 3500) (.step .control (.step (.poll 2000) .new))))

def flightTask (taskID command : String) (status : Core.TaskStatus) : Core.Task where
  taskID := taskID
  assetID := "quad"
  command := command
  input := "{}"
  status := status
  progress := none
  output := none
  completionAttempt := none
  failure := none
  cancellation := if status = .cancelled then some ⟨.superseded, ""⟩ else none
  idempotencyKey := taskID
  runtimeID := "runtime"
  createdAt := 0
  acknowledgedAt := none
  startedAt := none
  finishedAt := none
  updatedAt := 0
  version := 1

/-- Core after the Asset was gone for a while: the takeoff is in progress, or was superseded. -/
def coreAfterLoss (takes : Bool) : Core.DB :=
  { Core.DB.empty with
    tasks := [flightTask "takeoff" "flight.takeoff" (if takes then .inProgress else .cancelled),
      flightTask "goto" "flight.goto" .cancelled] }

theorem lostTakeoff_awaited (takes : Bool) : (lostTakeoff takes).session.awaited = 7 := by
  cases takes <;> decide +kernel

theorem lostTakeoff_answers (takes : Bool) :
    CoreAnswers takeoffGotoWorld (lostTakeoff takes) (coreAfterLoss takes) where
  fetches := by cases takes <;> decide +kernel
  delivers := by
    intro task hmem
    rw [lostTakeoff_awaited] at hmem
    cases hmem
  reads := by
    have hrefreshed : (lostTakeoff takes).refreshed takeoffGotoWorld = some "goto" := by
      cases takes <;> decide +kernel
    intro taskId h _
    rw [hrefreshed, Option.some.injEq] at h
    subst h
    rw [lostTakeoff_awaited]
    refine ⟨by cases takes <;> decide +kernel, rfl, flightTask "goto" "flight.goto" .cancelled, ?_,
      rfl⟩
    cases takes <;> decide +kernel
  reports := by
    have hreported : (lostTakeoff takes).reported takeoffGotoWorld = some "takeoff" := by
      cases takes <;> decide +kernel
    intro taskId h
    rw [hreported, Option.some.injEq] at h
    subst h
    cases takes <;> decide +kernel

/-- The takeoff was superseded while the rejection of the go-to is owed: its failure is refused. -/
theorem superseded_not_reconciled :
    ¬ ∀ (host : Host) (config : ControllerConfig) (world : World) (start : ControlState)
      (script : ℕ → Outcome) (c : Controller) (db : Core.DB),
      LoopRun host config world start script c → c.coreLossRecovery = true →
      (c.coreLossRecoveryConfirmed || c.coreLossRecoveryRelinquished) = true →
      (∀ task ∈ c.answered, (Core.findTask db task.taskId).isSome = true) →
      CoreAnswers world c db → ∀ now, (exec (pollCore world now) c).2.Reconciled := by
  intro hall
  have hclosed := (hall flightHost flightControl takeoffGotoWorld (flying true 0 2000)
    (takeoffGotoScript false) (lostTakeoff false) (coreAfterLoss false) (lostTakeoff_run false)
    (by decide +kernel) (by decide +kernel) (by decide +kernel) (lostTakeoff_answers false)
    90000).1
  revert hclosed
  decide +kernel

/-- A takeoff still in progress is failed and its recovery closed. -/
theorem reconnection_closes_takeoff :
    (exec (pollCore takeoffGotoWorld 90000) (lostTakeoff true)).2.Reconciled := by
  refine (reconnection_closes (lostTakeoff_run true) (by decide +kernel) (by decide +kernel)
    (by decide +kernel) (lostTakeoff_answers true) 90000).2 fun taskId h => .inl ?_
  have hinterrupted : (lostTakeoff true).interrupted = some "takeoff" := by decide +kernel
  rw [hinterrupted, Option.some.injEq] at h
  subst h
  decide +kernel

end Stuck

end Atlas.Asset
