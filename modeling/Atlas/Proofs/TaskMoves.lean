import Atlas.Proofs.RuntimeFence

/-!
# What Core does to its Tasks

A lifecycle change moves one Task (`TaskMove`) and stamps it with a time and a version. Each
transaction is inverted here once, into what it does to the whole table (`LedgerStep`): one Task of
a ready runtime moves, several Tasks are ended, a Task is created in the place of those it
supersedes, or the runtimes change and no Task does.
-/

namespace Atlas.Core

open Transaction Fence

/-- The scheduling of a Command under a runtime's manifest, if it has one. -/
def schedulingOf (env : Env) (manifest : CommandManifest) (command : String) :
    Option CommandScheduling :=
  match env.command command, manifestEntry manifest command with
  | some c, some e => (resolveScheduling c e).toOption
  | _, _ => none

theorem schedulingOf_eq {env : Env} {manifest : CommandManifest} {command : String}
    {c : CommandDefinition} {e : CommandManifestEntry} (hc : env.command command = some c)
    (he : manifestEntry manifest command = some e) :
    schedulingOf env manifest command = (resolveScheduling c e).toOption := by
  unfold schedulingOf
  rw [hc, he]

/-- The Task fails or is cancelled before it completes. -/
inductive TaskEnd (t : Task) : Task → Prop
  | fail (failure : TaskFailure) (now : Time) (h : t.status.nonterminal = true) :
    TaskEnd t { t with status := .failed, failure := some failure, finishedAt := some now }
  | cancel (cancellation : TaskCancellation) (now : Time) (h : t.status.nonterminal = true) :
    TaskEnd t { t with status := .cancelled, cancellation := some cancellation,
                       finishedAt := some now }

/-- What a lifecycle call may make of a Task whose Command has scheduling `s`. -/
inductive TaskMove (s : Option CommandScheduling) (t : Task) : Task → Prop
  | acknowledge (now : Time) (h : t.status = .pending) (hs : s = some .queued) :
    TaskMove s t { t with status := .acknowledged, acknowledgedAt := some now }
  | start (now : Time) (h : t.status = .acknowledged) (hs : s = some .queued) :
    TaskMove s t { t with status := .inProgress, startedAt := some now }
  | startImmediate (now : Time) (h : t.status = .pending) (hs : s = some .immediate) :
    TaskMove s t { t with status := .inProgress, acknowledgedAt := some now,
                          startedAt := some now }
  | progress (p : ℚ) (h : t.status = .inProgress) (h0 : 0 ≤ p) (h1 : p ≤ 1)
      (hle : ∀ q, t.progress = some q → q ≤ p) : TaskMove s t { t with progress := some p }
  | complete (output : Option String) (now : Time) (h : t.status = .inProgress) :
    TaskMove s t { t with status := .completed, output := output, completionAttempt := none,
                          finishedAt := some now }
  | reject (output : Option String) (message : String) (now : Time) (h : t.status = .inProgress) :
    TaskMove s t { t with status := .failed, failure := some ⟨.invalidOutput, message⟩,
                          completionAttempt := some output, finishedAt := some now }
  | ends {t' : Task} (h : TaskEnd t t') : TaskMove s t t'

/-- The Task as it is persisted. -/
def Task.stamp (t : Task) (updatedAt : Time) (version : ℕ) : Task :=
  { t with updatedAt := updatedAt, version := version }

/-- A row under the state a lifecycle change computed for it. -/
def Task.under (row task : Task) (updatedAt : Time) (version : ℕ) : Task :=
  { row with
    status := task.status, progress := task.progress, output := task.output,
    completionAttempt := task.completionAttempt, failure := task.failure,
    cancellation := task.cancellation, acknowledgedAt := task.acknowledgedAt,
    startedAt := task.startedAt, finishedAt := task.finishedAt, updatedAt := updatedAt,
    version := version }

/-- What is fixed when a Task is created. -/
structure Same (t t' : Task) : Prop where
  taskID : t'.taskID = t.taskID
  assetID : t'.assetID = t.assetID
  command : t'.command = t.command
  input : t'.input = t.input
  idempotencyKey : t'.idempotencyKey = t.idempotencyKey
  runtimeID : t'.runtimeID = t.runtimeID
  createdAt : t'.createdAt = t.createdAt

section Moves

variable {s : Option CommandScheduling} {t t' t'' : Task}

@[refl] theorem Same.refl (t : Task) : Same t t := ⟨rfl, rfl, rfl, rfl, rfl, rfl, rfl⟩

@[trans] theorem Same.trans (h : Same t t') (h' : Same t' t'') : Same t t'' :=
  ⟨h'.taskID.trans h.taskID, h'.assetID.trans h.assetID, h'.command.trans h.command,
    h'.input.trans h.input, h'.idempotencyKey.trans h.idempotencyKey,
    h'.runtimeID.trans h.runtimeID, h'.createdAt.trans h.createdAt⟩

theorem Same.stamp (h : Same t t') (updatedAt : Time) (version : ℕ) :
    Same t (t'.stamp updatedAt version) :=
  ⟨h.taskID, h.assetID, h.command, h.input, h.idempotencyKey, h.runtimeID, h.createdAt⟩

theorem TaskEnd.same (h : TaskEnd t t') : Same t t' := by
  cases h <;> exact ⟨rfl, rfl, rfl, rfl, rfl, rfl, rfl⟩

theorem TaskMove.same (h : TaskMove s t t') : Same t t' := by
  cases h with
  | ends h => exact h.same
  | _ => exact ⟨rfl, rfl, rfl, rfl, rfl, rfl, rfl⟩

/-- A move changes only what persisting it writes. -/
theorem TaskMove.under (h : TaskMove s t t') (updatedAt : Time) (version : ℕ) :
    t.under t' updatedAt version = t'.stamp updatedAt version := by
  cases h with
  | ends h => cases h <;> rfl
  | _ => rfl

theorem TaskEnd.nonterminal (h : TaskEnd t t') :
    t.status.nonterminal = true ∧ t'.status.nonterminal = false := by
  cases h with
  | fail failure now h => exact ⟨h, rfl⟩
  | cancel cancellation now h => exact ⟨h, rfl⟩

/-- Only what is not terminal moves. -/
theorem TaskMove.nonterminal (h : TaskMove s t t') : t.status.nonterminal = true := by
  cases h with
  | ends h => exact h.nonterminal.1
  | _ => simp [*, TaskStatus.nonterminal]

/-- Which scheduling the steps up to being in progress belong to. -/
theorem TaskMove.scheduling (h : TaskMove s t t') :
    (t.status = .pending → t'.status = .acknowledged → s = some .queued)
    ∧ (t.status = .acknowledged → t'.status = .inProgress → s = some .queued)
    ∧ (t.status = .pending → t'.status = .inProgress → s = some .immediate) := by
  cases h with
  | ends h => cases h <;> simp
  | _ => simp_all

theorem nonterminal_iff {status : TaskStatus} :
    status.nonterminal = true ↔ taskTerminal status = false := by
  cases status <;> simp [TaskStatus.nonterminal, taskTerminal]

end Moves

/-! ## The state changes -/

/-- A state change answers with the Task as it is, or moves it; a new status is one of these. -/
def Moving (statuses : List TaskStatus) (mutate : TaskMutation) : Prop :=
  ∀ t c e now r, mutate t c e now = .ok r →
    r.1 = false ∧ r.2 = t
    ∨ r.1 = true ∧ TaskMove (resolveScheduling c e).toOption t r.2
      ∧ (r.2.status = t.status ∨ r.2.status ∈ statuses)

section Mutations

variable {t : Task} {c : CommandDefinition} {e : CommandManifestEntry} {now : Time}
  {r : Bool × Task}

theorem failTask_cases {failure : TaskFailure} (h : failTask failure t c e now = .ok r) :
    r.1 = false ∧ r.2 = t ∧ t.status.nonterminal = false
    ∨ r.1 = true ∧ t.status.nonterminal = true
      ∧ r.2 = { t with status := .failed, failure := some failure, finishedAt := some now } := by
  unfold failTask at h
  split_ifs at h with hfailed hsame hterminal
  · cases h
    exact .inl ⟨rfl, rfl, by rw [hfailed]; rfl⟩
  · cases h
    exact .inr ⟨rfl, nonterminal_iff.2 (by simpa using hterminal), rfl⟩

theorem cancelTask_cases {cancellation : TaskCancellation}
    (h : cancelTask cancellation t c e now = .ok r) :
    r.1 = false ∧ r.2 = t ∧ t.status.nonterminal = false
    ∨ r.1 = true ∧ t.status.nonterminal = true
      ∧ r.2 = { t with status := .cancelled, cancellation := some cancellation,
                       finishedAt := some now } := by
  unfold cancelTask at h
  split_ifs at h with hcancelled hsame hterminal hmanifest
  · cases h
    exact .inl ⟨rfl, rfl, by rw [hcancelled]; rfl⟩
  · cases h
    exact .inr ⟨rfl, nonterminal_iff.2 (by simpa using hterminal), rfl⟩

end Mutations

theorem failTask_moving (failure : TaskFailure) : Moving [.failed] (failTask failure) := by
  intro t c e now r h
  rcases failTask_cases h with ⟨hr, ht, -⟩ | ⟨hr, hn, ht⟩
  · exact .inl ⟨hr, ht⟩
  · exact .inr ⟨hr, ht ▸ .ends (.fail failure now hn), .inr (by simp [ht])⟩

theorem cancelTask_moving (cancellation : TaskCancellation) :
    Moving [.cancelled] (cancelTask cancellation) := by
  intro t c e now r h
  rcases cancelTask_cases h with ⟨hr, ht, -⟩ | ⟨hr, hn, ht⟩
  · exact .inl ⟨hr, ht⟩
  · exact .inr ⟨hr, ht ▸ .ends (.cancel cancellation now hn), .inr (by simp [ht])⟩

theorem acknowledgeTask_moving : Moving [.acknowledged] acknowledgeTask := by
  intro t c e now r h
  unfold acknowledgeTask at h
  split at h
  · cases h
  · cases h
  · rename_i hs
    split_ifs at h with hacked hpending
    · cases h
      exact .inl ⟨rfl, rfl⟩
    · cases h
      exact .inr ⟨rfl, .acknowledge now (not_not.1 hpending) (by rw [hs]; rfl), .inr (by simp)⟩

theorem startTask_moving : Moving [.inProgress, .failed] startTask := by
  intro t c e now r h
  unfold startTask at h
  split at h
  · cases h
    exact .inl ⟨rfl, rfl⟩
  split at h
  · cases h
    exact .inl ⟨rfl, rfl⟩
  split at h
  · cases h
  · rename_i hs
    split_ifs at h with hpending hexpired
    -- The start window has passed: the Task fails in the call that would start it.
    · rcases failTask_cases h with ⟨-, -, hterminal⟩ | ⟨hr, hn, ht⟩
      · rw [not_not.1 hpending] at hterminal
        exact absurd hterminal (by decide)
      · exact .inr ⟨hr, ht ▸ .ends (.fail _ now hn), .inr (by simp [ht])⟩
    · cases h
      exact .inr ⟨rfl, .startImmediate now (not_not.1 hpending) (by rw [hs]; rfl), .inr (by simp)⟩
  · rename_i hs
    split_ifs at h with hacked
    cases h
    exact .inr ⟨rfl, .start now (not_not.1 hacked) (by rw [hs]; rfl), .inr (by simp)⟩

theorem progressTask_moving (value : ℚ) : Moving [] (progressTask value) := by
  intro t c e now r h
  unfold progressTask at h
  split_ifs at h with hrunning hsupports hrange hdecreases hsame
  · cases h
    exact .inl ⟨rfl, rfl⟩
  · cases h
    simp only [Bool.or_eq_true, decide_eq_true_eq, not_or, not_lt] at hrange
    refine .inr ⟨rfl, .progress value (not_not.1 hrunning) hrange.1 hrange.2 fun q hq => ?_,
      .inl rfl⟩
    rw [hq] at hdecreases
    simpa using hdecreases

theorem completeTask_moving (env : Env) (output : Option String) :
    Moving [.completed, .failed] (completeTask env output) := by
  intro t c e now r h
  unfold completeTask at h
  split_ifs at h with hdone hequal hrejected hattempt hrunning
  · cases h
    exact .inl ⟨rfl, rfl⟩
  · cases h
    exact .inl ⟨rfl, rfl⟩
  have hrunning := not_not.1 hrunning
  split at h
  · rename_i error _
    rcases failTask_cases h with ⟨-, -, hterminal⟩ | ⟨hr, -, ht⟩
    · rw [show t.status = .inProgress from hrunning] at hterminal
      exact absurd hterminal (by decide)
    · exact .inr ⟨hr, ht ▸ .reject output error.error now hrunning, .inr (by simp [ht])⟩
  · cases h
    exact .inr ⟨rfl, .complete output now hrunning, .inr (by simp)⟩

/-! ## One Task -/

/-- The table with this row in the place of the Task's. -/
def Fence.put (task : Task) (f : Fence) : Fence :=
  { f with tasks := f.tasks.map fun t => if t.taskID = task.taskID then task else t }

theorem Fence.put_taskID (task : Task) (f : Fence) :
    (f.put task).tasks.map (·.taskID) = f.tasks.map (·.taskID) := by
  unfold Fence.put
  refine map_key_eq (fun t => ?_) _
  split
  · exact Eq.symm ‹_›
  · rfl

/-- Persisting what a move made of a stored Task stamps it, and nothing else. -/
theorem persistTaskState_moved {f : Fence} (hu : (f.tasks.map (·.taskID)).Nodup)
    {s : Option CommandScheduling} {t t' : Task} (ht : t ∈ f.tasks) (hm : TaskMove s t t') :
    FSpec (· = f) (persistTaskState t') fun _ f' => ∃ updatedAt version,
      f' = f.put (t'.stamp updatedAt version) := by
  unfold persistTaskState
  refine .pass fun v => .pass fun now => .bind readTask_fence fun row => ?_
  refine .bind (ψ := fun _ f' => ∃ updatedAt version, f' = f.put (t'.stamp updatedAt version))
    (.of_modifyDB ?_) fun _ => .pass fun _ => .of_pure fun _ h => h
  rintro db ⟨rfl, hid, hmem⟩
  obtain rfl : row = t := List.inj_on_of_nodup_map hu hmem ht (hid.trans hm.same.taskID)
  have hrow := hm.under now v
  unfold Task.under at hrow
  simp only [hrow]
  exact ⟨now, v, rfl⟩

theorem readTask_ok {id : String} {s s' : Session} {t : Task} :
    readTask id s = .ok (t, s') ↔ findTask s.db id = some t ∧ s' = s := by
  unfold readTask
  rw [bind_ok]
  constructor
  · rintro ⟨db, u, hdb, hr⟩
    obtain ⟨rfl, rfl⟩ := getDB_ok.1 hdb
    rcases ht : findTask u.db id with _ | task <;> rw [ht] at hr
    · exact absurd hr throw_ok
    · obtain ⟨rfl, rfl⟩ := pure_ok.1 hr
      exact ⟨rfl, rfl⟩
  · rintro ⟨ht, rfl⟩
    refine ⟨_, _, getDB_ok.2 ⟨rfl, rfl⟩, ?_⟩
    rw [ht]
    exact pure_ok.2 ⟨rfl, rfl⟩

theorem clockTimestamp_ok {s s' : Session} {now : Time} (h : clockTimestamp s = .ok (now, s')) :
    now = s.readings 0 ∧ s'.db = s.db := by
  unfold clockTimestamp at h
  obtain ⟨a, s₁, h₁, h⟩ := bind_ok.1 h
  obtain ⟨_, s₂, h₂, h⟩ := bind_ok.1 h
  obtain ⟨rfl, rfl⟩ := get_ok.1 h₁
  obtain ⟨rfl, rfl⟩ := pure_ok.1 h
  obtain rfl := modify_ok.1 h₂
  exact ⟨rfl, rfl⟩

theorem check_ok {α : Type} {x : Except ActionError α} {s s' : Session} {a : α} :
    check x s = .ok (a, s') ↔ x = .ok a ∧ s' = s := by
  cases x with
  | error e => exact ⟨fun h => absurd h throw_ok, fun h => nomatch h.1⟩
  | ok b =>
    rw [show check (.ok b) = (pure b : CoreTx α) from rfl, pure_ok, Except.ok.injEq]
    exact ⟨fun h => ⟨h.1.symm, h.2⟩, fun h => ⟨h.1.symm, h.2⟩⟩

theorem validateResourceID_ok {id resourceType : String} {s s' : Session} {u : Unit}
    (h : validateResourceID id resourceType s = .ok (u, s')) : s' = s := by
  unfold validateResourceID validateStringMaxLength at h
  obtain ⟨_, s₁, h₁, h⟩ := bind_ok.1 h
  obtain ⟨_, s₂, h₂, h⟩ := bind_ok.1 h
  rw [(require_ok.1 h).2, (require_ok.1 h₂).2, (require_ok.1 h₁).2]

/-- A check of an ID depends on nothing but the ID. -/
theorem validateResourceID_any {id resourceType : String} {s s' : Session} {u : Unit}
    (h : validateResourceID id resourceType s = .ok (u, s')) (t : Session) :
    validateResourceID id resourceType t = .ok ((), t) := by
  unfold validateResourceID validateStringMaxLength at h ⊢
  obtain ⟨_, s₁, h₁, h⟩ := bind_ok.1 h
  obtain ⟨_, s₂, h₂, h⟩ := bind_ok.1 h
  exact bind_ok.2 ⟨(), t, require_ok.2 ⟨(require_ok.1 h₁).1, rfl⟩, bind_ok.2 ⟨(), t,
    require_ok.2 ⟨(require_ok.1 h₂).1, rfl⟩, require_ok.2 ⟨(require_ok.1 h).1, rfl⟩⟩⟩

theorem lockEntity_ok {id : String} {s s' : Session} {e : Entity}
    (h : lockEntity id s = .ok (e, s')) : s' = s := by
  unfold lockEntity at h
  rw [bind_ok] at h
  obtain ⟨db, s₁, h₁, h⟩ := h
  obtain ⟨rfl, rfl⟩ := getDB_ok.1 h₁
  rcases he : findEntity s₁.db id with _ | e' <;> rw [he] at h
  · exact absurd h throw_ok
  · exact (pure_ok.1 h).2

theorem storedCommandDefinition_ok {env : Env} {id name : String} {s s' : Session}
    {c : CommandDefinition} (h : storedCommandDefinition env id name s = .ok (c, s')) :
    env.command name = some c ∧ s' = s := by
  unfold storedCommandDefinition at h
  rcases hc : env.command name with _ | c' <;> rw [hc] at h
  · exact absurd h throw_ok
  · obtain ⟨rfl, rfl⟩ := pure_ok.1 h
    exact ⟨rfl, rfl⟩

theorem lockCurrentRuntimeManifest_ok {assetID bound caller : String} {s s' : Session}
    {manifest : CommandManifest}
    (h : lockCurrentRuntimeManifest assetID bound caller s = .ok (manifest, s')) :
    s' = s ∧ ∃ row ∈ s.db.assetRuntimes, row.assetID = assetID ∧ row.runtimeID = bound
      ∧ row.ready = true ∧ row.manifest = manifest := by
  unfold lockCurrentRuntimeManifest at h
  rw [bind_ok] at h
  obtain ⟨db, s₁, hdb, h⟩ := h
  obtain ⟨rfl, rfl⟩ := getDB_ok.1 hdb
  rcases hrow : findAssetRuntime s₁.db assetID with _ | row <;> rw [hrow] at h
  · exact absurd h throw_ok
  · rw [bind_ok] at h
    obtain ⟨_, s₂, h₂, h⟩ := h
    obtain ⟨hready, rfl⟩ := require_ok.1 h₂
    rw [bind_ok] at h
    obtain ⟨_, s₃, h₃, h⟩ := h
    obtain ⟨-, rfl⟩ := require_ok.1 h₃
    obtain ⟨rfl, rfl⟩ := pure_ok.1 h
    obtain ⟨hmem, hasset⟩ := findAssetRuntime_mem hrow
    simp only [Bool.and_eq_true, decide_eq_true_eq] at hready
    exact ⟨rfl, row, hmem, hasset, hready.2, hready.1, rfl⟩

/-- The runtime is the Task's, and ready. -/
structure Serves (f : Fence) (row : AssetRuntime) (t : Task) : Prop where
  mem : row ∈ f.runtimes
  ready : row.ready = true
  asset : row.assetID = t.assetID
  runtime : row.runtimeID = t.runtimeID

/-- A lifecycle call that moved a Task: what it found, and what its precondition passed on. -/
structure Moved (env : Env) (id : String) (pre : TaskPrecondition) (statuses : List TaskStatus)
    (s : Session) (row : AssetRuntime) (t t' : Task) : Prop where
  task : t ∈ s.db.tasks
  named : t.taskID = trimSpace id
  serves : Serves s.db.fence row t
  checked : ∃ c e s₁, env.command t.command = some c
    ∧ manifestEntry row.manifest t.command = some e ∧ pre t c e row.manifest s = .ok ((), s₁)
  move : TaskMove (schedulingOf env row.manifest t.command) t t'
  status : t'.status = t.status ∨ t'.status ∈ statuses

theorem withTaskTransition_ok {env : Env} {id caller : String} {allow : Bool}
    {pre : TaskPrecondition} [∀ t c e m, ReadOnly (pre t c e m)] {mutate : TaskMutation}
    {statuses : List TaskStatus} (hmutate : Moving statuses mutate) {s s' : Session} {a : Task}
    (hu : (s.db.tasks.map (·.taskID)).Nodup)
    (h : withTaskTransition env id caller allow pre mutate s = .ok (a, s')) :
    s'.db.fence = s.db.fence
    ∨ ∃ row t t' updatedAt version, Moved env id pre statuses s row t t'
      ∧ s'.db.fence = s.db.fence.put (t'.stamp updatedAt version) := by
  unfold withTaskTransition at h
  rw [bind_ok] at h
  obtain ⟨_, s₁, h₁, h⟩ := h
  obtain rfl := validateResourceID_ok h₁
  rw [bind_ok] at h
  obtain ⟨read, s₂, h₂, h⟩ := h
  obtain ⟨hread, rfl⟩ := readTask_ok.1 h₂
  split at h
  · rw [bind_ok] at h
    obtain ⟨_, s₃, h₃, h⟩ := h
    obtain ⟨-, rfl⟩ := require_ok.1 h₃
    rw [bind_ok] at h
    obtain ⟨r, s₄, h₄, h⟩ := h
    obtain ⟨-, rfl⟩ := check_ok.1 h₄
    rw [bind_ok] at h
    obtain ⟨_, s₅, h₅, h⟩ := h
    obtain ⟨-, rfl⟩ := require_ok.1 h₅
    obtain ⟨-, rfl⟩ := pure_ok.1 h
    exact .inl rfl
  · rw [bind_ok] at h
    obtain ⟨manifest, s₃, h₃, h⟩ := h
    obtain ⟨rfl, row, hrow, hasset, hruntime, hready, rfl⟩ := lockCurrentRuntimeManifest_ok h₃
    rw [bind_ok] at h
    obtain ⟨task, s₄, h₄, h⟩ := h
    obtain ⟨htask, rfl⟩ := readTask_ok.1 h₄
    obtain rfl := Option.some.inj (hread.symm.trans htask)
    rw [bind_ok] at h
    obtain ⟨c, s₅, h₅, h⟩ := h
    obtain ⟨hc, rfl⟩ := storedCommandDefinition_ok h₅
    rcases hentry : manifestEntry row.manifest read.command with _ | entry <;> rw [hentry] at h
    · exact absurd h throw_ok
    rw [bind_ok] at h
    obtain ⟨_, s₆, hpre, h⟩ := h
    have hdb : s₆.db = s₅.db := Preserves.eq hpre
    rw [bind_ok] at h
    obtain ⟨now, s₇, h₇, h⟩ := h
    have hnow : s₇.db = s₆.db := Preserves.eq h₇
    have hdb := hnow.trans hdb
    rw [bind_ok] at h
    obtain ⟨r, s₈, h₈, h⟩ := h
    obtain ⟨hr, rfl⟩ := check_ok.1 h₈
    rcases hmutate _ _ _ _ _ hr with ⟨hfalse, -⟩ | ⟨htrue, hmove, hstatus⟩
    · simp only [hfalse, if_false, Bool.false_eq_true] at h
      obtain ⟨-, rfl⟩ := pure_ok.1 h
      exact .inl (congrArg DB.fence hdb)
    · simp only [htrue, if_true] at h
      have hmem := findTask_mem hread
      rw [← hdb] at hu
      obtain ⟨updatedAt, version, hput⟩ :=
        persistTaskState_moved hu (hdb ▸ hmem) hmove _ a s' rfl h
      rw [hdb] at hput
      rw [← schedulingOf_eq hc hentry] at hmove
      exact .inr ⟨row, read, r.2, updatedAt, version, ⟨hmem, findTask_id hread,
        ⟨hrow, hready, hasset, hruntime⟩, ⟨c, entry, s₆, hc, hentry, hpre⟩, hmove, hstatus⟩,
        hput⟩

/-! ## Several Tasks -/

/-- The Task ended, and was persisted. -/
def Ended (t t' : Task) : Prop :=
  ∃ task updatedAt version, TaskEnd t task ∧ t' = task.stamp updatedAt version

theorem Ended.same {t t' : Task} (h : Ended t t') : Same t t' := by
  obtain ⟨task, updatedAt, version, hend, rfl⟩ := h
  exact hend.same.stamp updatedAt version

theorem Ended.nonterminal {t t' : Task} (h : Ended t t') :
    t.status.nonterminal = true ∧ t'.status.nonterminal = false := by
  obtain ⟨task, updatedAt, version, hend, rfl⟩ := h
  exact hend.nonterminal

/-- End each of the Tasks and persist it. -/
def endTasks (mutate : Task → Except ActionError (Bool × Task)) (tasks : List Task) : CoreTx Unit :=
  tasks.forM fun task => do
    let (_, task) ← check (mutate task)
    let _ ← persistTaskState task

theorem endTasks_cons (mutate : Task → Except ActionError (Bool × Task)) (x : Task)
    (rest : List Task) :
    endTasks mutate (x :: rest) = (do
      let (_, task) ← check (mutate x)
      let _ ← persistTaskState task
      endTasks mutate rest) := by
  simp only [endTasks, List.forM_eq_forM, List.forM_cons, bind_assoc, pure_bind]

/-- Exactly these Tasks end. -/
def EndsOf (p : Task → Prop) (f : Fence) (u : Task → Task) : Prop :=
  ∀ t ∈ f.tasks, (p t → Ended t (u t)) ∧ (¬ p t → u t = t)

theorem EndsOf.same {p : Task → Prop} {f : Fence} {u : Task → Task} (h : EndsOf p f u) {t : Task}
    (ht : t ∈ f.tasks) : Same t (u t) := by
  by_cases hp : p t
  · exact ((h t ht).1 hp).same
  · rw [(h t ht).2 hp]

/-- The batch touches each of its Tasks once: what it ended it does not read again. -/
theorem endTasks_ends (mutate : Task → Except ActionError (Bool × Task)) {tasks : List Task}
    (hmutate : ∀ t ∈ tasks, ∀ r, mutate t = .ok r → TaskEnd t r.2) (hnodup : tasks.Nodup)
    {f : Fence} (hu : (f.tasks.map (·.taskID)).Nodup) (hmem : ∀ t ∈ tasks, t ∈ f.tasks) :
    FSpec (· = f) (endTasks mutate tasks) fun _ f' => ∃ u, EndsOf (· ∈ tasks) f u
      ∧ f' = { f with tasks := f.tasks.map u } := by
  induction tasks generalizing f with
  | nil =>
    refine .of_pure ?_
    rintro _ rfl
    exact ⟨id, fun t _ => ⟨fun h => absurd h List.not_mem_nil, fun _ => rfl⟩, by simp⟩
  | cons x rest ih =>
    obtain ⟨hx, hrest⟩ := List.nodup_cons.1 hnodup
    have hxf := hmem x List.mem_cons_self
    intro s a s' hs hr
    rw [endTasks_cons, bind_ok] at hr
    obtain ⟨r, s₂, h₂, hr⟩ := hr
    obtain ⟨hr₂, rfl⟩ := check_ok.1 h₂
    rw [bind_ok] at hr
    obtain ⟨_, s₁, h₁, hr⟩ := hr
    have hend := hmutate x List.mem_cons_self r hr₂
    obtain ⟨updatedAt, version, hput⟩ :=
      persistTaskState_moved hu hxf (.ends (s := none) hend) _ _ _ hs h₁
    have hxid : (r.2.stamp updatedAt version).taskID = x.taskID := hend.same.taskID
    -- After the first Task the rest are still as they were selected.
    have hother : ∀ t ∈ f.tasks, t ≠ x → t.taskID ≠ (r.2.stamp updatedAt version).taskID := by
      intro t ht hne hid
      exact hne (List.inj_on_of_nodup_map hu ht hxf (hid.trans hxid))
    have hstays : ∀ t ∈ f.tasks, t ≠ x → t ∈ s₁.db.fence.tasks := by
      intro t ht hne
      rw [hput]
      exact List.mem_map.2 ⟨t, ht, if_neg (hother t ht hne)⟩
    have hrestf : ∀ t ∈ rest, t ∈ s₁.db.fence.tasks := fun t ht =>
      hstays t (hmem t (List.mem_cons_of_mem _ ht)) fun h => hx (h ▸ ht)
    have hu₁ : (s₁.db.fence.tasks.map (·.taskID)).Nodup := by
      rw [hput, Fence.put_taskID]
      exact hu
    obtain ⟨u, hends, hf'⟩ := ih (fun t ht => hmutate t (List.mem_cons_of_mem _ ht)) hrest hu₁ hrestf
      s₁ a s' rfl hr
    refine ⟨fun t => u (if t.taskID = (r.2.stamp updatedAt version).taskID
      then r.2.stamp updatedAt version else t), fun t ht => ?_, ?_⟩
    · by_cases htx : t = x
      · subst htx
        have hin : r.2.stamp updatedAt version ∈ s₁.db.fence.tasks := by
          rw [hput]
          exact List.mem_map.2 ⟨t, hxf, if_pos hxid.symm⟩
        have hout : r.2.stamp updatedAt version ∉ rest := by
          intro h
          have heq := List.inj_on_of_nodup_map hu (hmem _ (List.mem_cons_of_mem _ h)) hxf hxid
          exact hx (heq ▸ h)
        refine ⟨fun _ => ?_, fun h => absurd List.mem_cons_self h⟩
        simp only [if_pos hxid.symm, (hends _ hin).2 hout]
        exact ⟨r.2, updatedAt, version, hend, rfl⟩
      · simp only [if_neg (hother t ht htx), List.mem_cons, htx, false_or]
        exact hends t (hstays t ht htx)
    · rw [hf', hput]
      simp only [Fence.put, List.map_map]
      rfl

/-- Selected Tasks are stored ones, each once. -/
theorem selectTasks_nodup {env : Env} {db : DB} (hu : (db.tasks.map (·.taskID)).Nodup)
    (p : Task → Bool) : (selectTasks env db p).Nodup := by
  unfold selectTasks
  exact (List.mergeSort_perm _ _).nodup_iff.2 ((List.Nodup.of_map _ hu).filter _)

theorem failTasks_ends {f : Fence} (hu : (f.tasks.map (·.taskID)).Nodup) {now : Time}
    {failure : Task → TaskFailure} {tasks : List Task} (hnodup : tasks.Nodup)
    (hmem : ∀ t ∈ tasks, t ∈ f.tasks ∧ t.status.nonterminal = true) :
    FSpec (· = f) (failTasks now failure tasks) fun _ f' => ∃ u, EndsOf (· ∈ tasks) f u
      ∧ f' = { f with tasks := f.tasks.map u } := by
  refine endTasks_ends (fun task => failTask (failure task) task default default now) ?_
    hnodup hu fun t ht => (hmem t ht).1
  intro t ht r hr
  rcases failTask_cases hr with ⟨-, -, hterminal⟩ | ⟨-, hn, ht'⟩
  · rw [(hmem t ht).2] at hterminal
    exact absurd hterminal (by decide)
  · exact ht' ▸ .fail _ now hn

/-! ## Creation -/

/-- The new Task takes the place of this one. -/
def Supersedes (task t : Task) : Prop :=
  t.assetID = task.assetID ∧ t.runtimeID = task.runtimeID ∧ t.status.nonterminal = true
    ∧ ∃ targets, flightSupersessionTargets task.command = some targets ∧ t.command ∈ targets

/-- A Task as it is created. -/
structure Blank (t : Task) : Prop where
  status : t.status = .pending
  progress : t.progress = none
  output : t.output = none
  completionAttempt : t.completionAttempt = none
  failure : t.failure = none
  cancellation : t.cancellation = none
  acknowledgedAt : t.acknowledgedAt = none
  startedAt : t.startedAt = none
  finishedAt : t.finishedAt = none

/-- No takeoff of the Task's runtime is under way. -/
def NoTakeoff (f : Fence) (task : Task) : Prop :=
  ∀ t ∈ f.tasks, t.assetID = task.assetID → t.runtimeID = task.runtimeID →
    t.command = "flight.takeoff" → t.status.nonterminal = false

/-- A Task is created under an ID and a key of its own, and what it supersedes ends. -/
structure Creation (f : Fence) (u : Task → Task) (task : Task) : Prop where
  blank : Blank task
  new_id : ∀ t ∈ f.tasks, t.taskID ≠ task.taskID
  new_key : ∀ t ∈ f.tasks, t.idempotencyKey ≠ task.idempotencyKey
  no_takeoff : task.command = "flight.goto" → NoTakeoff f task
  ends : EndsOf (Supersedes task) f u

theorem supersedeReplacedFlightTasks_ends {f : Fence} (hu : (f.tasks.map (·.taskID)).Nodup)
    {env : Env} (task : Task) :
    FSpec (· = f) (supersedeReplacedFlightTasks env task.assetID task.runtimeID task.command
        task.taskID) fun _ f' => ∃ u, EndsOf (Supersedes task) f u
      ∧ f' = { f with tasks := f.tasks.map u } := by
  have hnone : (∀ t ∈ f.tasks, ¬ Supersedes task t) → ∀ g, g = f → ∃ u,
      EndsOf (Supersedes task) f u ∧ g = { f with tasks := f.tasks.map u } := by
    rintro h _ rfl
    exact ⟨id, fun t ht => ⟨fun hs => absurd hs (h t ht), fun _ => rfl⟩, by simp⟩
  unfold supersedeReplacedFlightTasks
  rcases htargets : flightSupersessionTargets task.command with _ | targets
  · exact .of_pure (hnone fun t _ ⟨_, _, _, targets, hs, _⟩ => by simp [htargets] at hs)
  refine .get fun db h => ?_
  have hsel : ∀ t, t ∈ selectTasks env db (fun t => t.assetID = task.assetID
      && t.runtimeID = task.runtimeID && t.status.nonterminal && t.command ∈ targets)
      ↔ t ∈ f.tasks ∧ Supersedes task t := by
    intro t
    rw [mem_selectTasks, ← h]
    simp [Supersedes, DB.fence, htargets, and_assoc]
  have hdb : (db.tasks.map (·.taskID)).Nodup := by
    rw [← h] at hu
    exact hu
  refine .of_ite (fun hempty => ?_) fun _ => .pass fun now => ?_
  · rw [h]
    refine .of_pure (hnone fun t ht hs => ?_)
    have hin := (hsel t).2 ⟨ht, hs⟩
    rw [List.isEmpty_iff.1 hempty] at hin
    exact List.not_mem_nil hin
  · rw [h]
    refine (endTasks_ends (fun t => cancelTask
      ⟨.superseded, "Superseded by " ++ task.command ++ " task " ++ task.taskID ++ "."⟩ t default
        default now) ?_ (selectTasks_nodup hdb _) hu fun t ht => ((hsel t).1 ht).1).mono
      (fun _ h => h) ?_
    · intro t ht r hr
      rcases cancelTask_cases hr with ⟨-, -, hterminal⟩ | ⟨-, hn, ht'⟩
      · rw [((hsel t).1 ht).2.2.2.1] at hterminal
        exact absurd hterminal (by decide)
      · exact ht' ▸ .cancel _ now hn
    · rintro _ f' ⟨u, hends, hf'⟩
      refine ⟨u, fun t ht => ⟨fun hs => (hends t ht).1 ((hsel t).2 ⟨ht, hs⟩), fun hs => ?_⟩, hf'⟩
      exact (hends t ht).2 fun hin => hs ((hsel t).1 hin).2

theorem rejectGotoDuringTakeoff_none {f : Fence} (task : Task) :
    FSpec (· = f) (rejectGotoDuringTakeoff task.assetID task.runtimeID task.command) fun _ f' =>
      f' = f ∧ (task.command = "flight.goto" → NoTakeoff f task) := by
  unfold rejectGotoDuringTakeoff
  refine .get fun db h => ?_
  intro s a s' hs hr
  obtain ⟨hok, rfl⟩ := require_ok.1 hr
  refine ⟨hs.trans h, fun hgoto t ht hasset hruntime hcommand => ?_⟩
  rw [← h] at ht
  simp only [Bool.or_eq_true, decide_eq_true_eq, Bool.not_eq_true', List.any_eq_false,
    Bool.and_eq_true, not_and, Bool.not_eq_true, and_imp] at hok
  exact (hok.resolve_left fun hne => hne hgoto) t ht hasset hruntime hcommand

theorem createTaskRow_creates {f : Fence} (hu : (f.tasks.map (·.taskID)).Nodup) {env : Env}
    {params : CreateTaskParams} {key taskID runtimeID : String} :
    FSpec (· = f) (createTaskRow env params key taskID runtimeID) fun task f' =>
      task.assetID = params.assetID ∧ task.command = params.command ∧ task.input = params.input
      ∧ task.idempotencyKey = key ∧ task.taskID = taskID ∧ task.runtimeID = runtimeID
      ∧ ∃ u, Creation f u task ∧ f' = { f with tasks := f.tasks.map u ++ [task] } := by
  unfold createTaskRow
  refine .pass fun v => ?_
  -- Who the new Task supersedes depends on its Asset, runtime and Command alone.
  let blank : Task :=
    { taskID := taskID, assetID := params.assetID, command := params.command,
      input := params.input, status := .pending, progress := none, output := none,
      completionAttempt := none, failure := none, cancellation := none,
      idempotencyKey := key, runtimeID := runtimeID, createdAt := 0,
      acknowledgedAt := none, startedAt := none, finishedAt := none, updatedAt := 0,
      version := v }
  refine .bind (rejectGotoDuringTakeoff_none blank) fun _ => ?_
  refine .of_holds (fun _ h => h.2) fun htakeoff => ?_
  refine .bind ((supersedeReplacedFlightTasks_ends hu blank).mono (fun _ h => h.1)
    fun _ _ h => h) fun _ => ?_
  refine .pass fun created => .pass fun updated => .get fun db' h' => .of_require fun hnew => ?_
  obtain ⟨u, hends, hf'⟩ := h'
  have hnew : ∀ t ∈ f.tasks, t.taskID ≠ taskID ∧ t.idempotencyKey ≠ key := by
    intro t ht
    simp only [Bool.not_eq_true', List.any_eq_false, Bool.or_eq_true, decide_eq_true_eq,
      not_or] at hnew
    have hin : u t ∈ db'.fence.tasks := by
      rw [hf']
      exact List.mem_map_of_mem ht
    have hne := hnew (u t) hin
    rwa [(hends.same ht).taskID, (hends.same ht).idempotencyKey] at hne
  have hcreation : Creation f u { blank with createdAt := created, updatedAt := updated } :=
    ⟨⟨rfl, rfl, rfl, rfl, rfl, rfl, rfl, rfl, rfl⟩, fun t ht => (hnew t ht).1,
      fun t ht => (hnew t ht).2, htakeoff, hends⟩
  refine .bind (ψ := fun _ f' => f' = { f with tasks := f.tasks.map u ++
    [{ blank with createdAt := created, updatedAt := updated }] }) (.of_modifyDB ?_) fun _ =>
    .pass fun _ => .of_pure fun _ h => ⟨rfl, rfl, rfl, rfl, rfl, rfl, u, hcreation, h⟩
  intro db'' hdb
  have hdb := hdb.trans hf'
  simp only [DB.fence, Fence.mk.injEq] at hdb ⊢
  exact ⟨by rw [hdb.1], hdb.2⟩

/-- A Task whose data passed the checks of a Create. -/
structure Requested (env : Env) (t : Task) : Prop where
  key : ∃ key, t.idempotencyKey = trimSpace key ∧ trimSpace key ≠ ""
  entity : ∀ s, validateEntityID t.assetID s = .ok ((), s)
  request : env.validateTaskCreateRequest t.assetID t.command t.input = []

/-- A Create that commits returns the Task of its key and leaves everything as it was, or creates
one for the Asset's ready runtime. -/
theorem create_ok {env : Env} {given : CreateTaskParams} {key taskID : String} {s s' : Session}
    {task : Task} {created : Bool} (hu : (s.db.tasks.map (·.taskID)).Nodup)
    (h : TaskActions.create env given key taskID s = .ok ((task, created), s')) :
    task.assetID = trimSpace given.assetID ∧ task.command = trimSpace given.command
    ∧ task.idempotencyKey = trimSpace key
    ∧ (created = false ∧ s' = s ∧ task ∈ s.db.tasks
        ∧ env.jsonEqual task.input given.input = true
      ∨ created = true ∧ task.input = given.input
        ∧ ∃ row u, Serves s.db.fence row task
          ∧ schedulingOf env row.manifest task.command ≠ none
          ∧ Requested env task ∧ Creation s.db.fence u task
          ∧ s'.db.fence = { s.db.fence with tasks := s.db.tasks.map u ++ [task] }) := by
  unfold TaskActions.create at h
  rw [bind_ok] at h
  obtain ⟨_, s₁, h₁, h⟩ := h
  obtain ⟨hkeyne, rfl⟩ := require_ok.1 h₁
  rw [bind_ok] at h
  obtain ⟨_, s₂, h₂, h⟩ := h
  obtain rfl := validateResourceID_ok h₂
  rw [bind_ok] at h
  obtain ⟨_, s₃, h₃, h⟩ := h
  obtain ⟨hrequest, rfl⟩ := require_ok.1 h₃
  rw [bind_ok] at h
  obtain ⟨db, s₄, h₄, h⟩ := h
  obtain ⟨rfl, rfl⟩ := getDB_ok.1 h₄
  rcases hfind : s₄.db.tasks.find? (·.idempotencyKey = trimSpace key) with _ | existing
  · rw [hfind, bind_ok] at h
    obtain ⟨entity, s₅, h₅, h⟩ := h
    obtain rfl := lockEntity_ok h₅
    rw [bind_ok] at h
    obtain ⟨_, s₆, h₆, h⟩ := h
    obtain ⟨-, rfl⟩ := require_ok.1 h₆
    rcases hc : env.command (trimSpace given.command) with _ | c <;> rw [hc] at h
    · exact absurd h throw_ok
    rcases hrow : findAssetRuntime s₆.db (trimSpace given.assetID) with _ | row <;> rw [hrow] at h
    · exact absurd h throw_ok
    rw [bind_ok] at h
    obtain ⟨_, s₇, h₇, h⟩ := h
    obtain ⟨hready, rfl⟩ := require_ok.1 h₇
    rcases hentry : manifestEntry row.manifest (trimSpace given.command) with _ | entry <;>
      rw [hentry] at h
    · exact absurd h throw_ok
    rw [bind_ok] at h
    obtain ⟨scheduling, s₈, h₈, h⟩ := h
    obtain ⟨hscheduling, rfl⟩ := check_ok.1 h₈
    rw [bind_ok] at h
    obtain ⟨_, s₉, h₉, h⟩ := h
    obtain ⟨-, rfl⟩ := require_ok.1 h₉
    rw [bind_ok] at h
    obtain ⟨new, s₁₀, h₁₀, h⟩ := h
    obtain ⟨hnew, rfl⟩ := pure_ok.1 h
    obtain ⟨rfl, rfl⟩ := Prod.mk.inj hnew
    obtain ⟨hasset, hcommand, hinput, hkey, -, hruntime, u, hcreation, hf'⟩ :=
      createTaskRow_creates hu _ _ _ rfl h₁₀
    obtain ⟨hmem, hra⟩ := findAssetRuntime_mem hrow
    refine ⟨hasset, hcommand, hkey, .inr ⟨rfl, hinput, row, u, ⟨hmem, hready,
      hra.trans hasset.symm, hruntime.symm⟩, ?_, ⟨⟨key, hkey, by simpa using hkeyne⟩, ?_, ?_⟩,
      hcreation, hf'⟩⟩
    · rw [hcommand, schedulingOf_eq hc hentry, hscheduling]
      exact Option.some_ne_none _
    · rw [hasset]
      exact validateResourceID_any h₂
    · rw [hasset, hcommand, hinput]
      exact List.isEmpty_iff.1 hrequest
  · rw [hfind, bind_ok] at h
    obtain ⟨_, s₅, h₅, h⟩ := h
    obtain ⟨heq, rfl⟩ := require_ok.1 h₅
    obtain ⟨hnew, rfl⟩ := pure_ok.1 h
    obtain ⟨rfl, rfl⟩ := Prod.mk.inj hnew
    simp only [Bool.and_eq_true, decide_eq_true_eq] at heq
    have hkey := List.find?_some hfind
    exact ⟨heq.1.1, heq.1.2, by simpa using hkey, .inl ⟨rfl, rfl, List.mem_of_find?_eq_some hfind,
      heq.2⟩⟩

/-! ## The order of a runtime's Tasks -/

/-- An earlier Task of the same runtime. -/
def Earlier (env : Env) (x t : Task) : Prop :=
  x.assetID = t.assetID ∧ x.runtimeID = t.runtimeID ∧ x.taskID ≠ t.taskID
    ∧ creationOrder env x t = true

/-- What a move finds of the other Tasks of its runtime. The clock reads `now` first. -/
structure InOrder (env : Env) (now : Time) (f : Fence) (manifest : CommandManifest)
    (t t' : Task) : Prop where
  acknowledged : t.status = .pending → t'.status = .acknowledged → ∀ x ∈ f.tasks, Earlier env x t →
    x.status = .pending → schedulingOf env manifest x.command = some .immediate
  started : t.status = .acknowledged → t'.status = .inProgress → ∀ x ∈ f.tasks,
    x.assetID = t.assetID → x.runtimeID = t.runtimeID →
    (x.status = .inProgress ∨ Earlier env x t ∧ (x.status = .pending ∨ x.status = .acknowledged)) →
    schedulingOf env manifest x.command = some .immediate
  startedImmediate : t.status = .pending → t'.status = .inProgress → ∀ x ∈ f.tasks,
    Earlier env x t → x.status = .pending → now - immediateStartWindow < x.createdAt →
    schedulingOf env manifest x.command = some .queued

/-- The Tasks a check looks at. -/
def blockers (env : Env) (now : Time) (task : Task) (earlierStatuses : List TaskStatus)
    (includeAnyInProgress excludeExpired : Bool) (t : Task) : Bool :=
  t.assetID = task.assetID && t.runtimeID = task.runtimeID
    && ((includeAnyInProgress && t.status = .inProgress)
      || (creationOrder env t task && t.taskID ≠ task.taskID && t.status ∈ earlierStatuses))
    && (!excludeExpired || now - immediateStartWindow < t.createdAt)

theorem requireNoSchedulingBlocker_ok {env : Env} {task : Task} {manifest : CommandManifest}
    {scheduling : CommandScheduling} {statuses : List TaskStatus} {any expired : Bool}
    {message : String} {s s' : Session} {u : Unit}
    (h : requireNoSchedulingBlocker env task manifest scheduling statuses any expired message s
      = .ok (u, s')) :
    ∀ x ∈ s.db.tasks, blockers env (s.readings 0) task statuses any expired x = true →
      ∃ other, schedulingOf env manifest x.command = some other ∧ other ≠ scheduling := by
  intro x hx hb
  unfold requireNoSchedulingBlocker at h
  rw [bind_ok] at h
  obtain ⟨now, s₁, h₁, h⟩ := h
  obtain ⟨hnow, hdb⟩ := clockTimestamp_ok h₁
  rw [bind_ok] at h
  obtain ⟨db, s₂, h₂, h⟩ := h
  obtain ⟨rfl, rfl⟩ := getDB_ok.1 h₂
  have hbody := (Preserves.forM_ok (fun row => ?_) h).2 x
    (mem_selectTasks.2 ⟨hdb ▸ hx, by rw [hnow]; exact hb⟩)
  · rw [bind_ok] at hbody
    obtain ⟨c, s₃, h₃, hbody⟩ := hbody
    obtain ⟨hc, rfl⟩ := storedCommandDefinition_ok h₃
    rcases hentry : manifestEntry manifest x.command with _ | entry <;> rw [hentry] at hbody
    · exact absurd hbody throw_ok
    rw [bind_ok] at hbody
    obtain ⟨other, s₄, h₄, hbody⟩ := hbody
    obtain ⟨hother, rfl⟩ := check_ok.1 h₄
    refine ⟨other, ?_, by simpa using (require_ok.1 hbody).1⟩
    rw [schedulingOf_eq hc hentry, hother]
    rfl
  · refine ⟨fun {a b c} hr => ?_⟩
    rw [bind_ok] at hr
    obtain ⟨c, s₃, h₃, hr⟩ := hr
    obtain ⟨-, rfl⟩ := storedCommandDefinition_ok h₃
    rcases hentry : manifestEntry manifest row.command with _ | entry <;> rw [hentry] at hr
    · exact absurd hr throw_ok
    rw [bind_ok] at hr
    obtain ⟨other, s₄, h₄, hr⟩ := hr
    obtain ⟨-, rfl⟩ := check_ok.1 h₄
    exact (require_ok.1 hr).2

/-- A change to another status than acknowledged or in progress needs no order. -/
theorem InOrder.of_status {env : Env} {now : Time} {f : Fence} {manifest : CommandManifest}
    {t t' : Task} {statuses : List TaskStatus} (h : t'.status = t.status ∨ t'.status ∈ statuses)
    (hack : .acknowledged ∉ statuses) (hrun : .inProgress ∉ statuses) :
    InOrder env now f manifest t t' := by
  refine ⟨fun hp ha => ?_, fun hp ha => ?_, fun hp ha => ?_⟩
  all_goals
    rw [hp, ha] at h
    rcases h with h | h
    · exact absurd h (by decide)
    · exact absurd h ‹_›

theorem eq_immediate {s : CommandScheduling} (h : s ≠ .queued) : s = .immediate := by
  cases s
  · exact absurd rfl h
  · rfl

theorem eq_queued {s : CommandScheduling} (h : s ≠ .immediate) : s = .queued := by
  cases s
  · rfl
  · exact absurd rfl h

theorem mem_blockers {env : Env} {now : Time} {task x : Task} {statuses : List TaskStatus}
    {any expired : Bool} (ha : x.assetID = task.assetID) (hr : x.runtimeID = task.runtimeID)
    (hx : any = true ∧ x.status = .inProgress
      ∨ creationOrder env x task = true ∧ x.taskID ≠ task.taskID ∧ x.status ∈ statuses)
    (he : expired = true → now - immediateStartWindow < x.createdAt) :
    blockers env now task statuses any expired x = true := by
  unfold blockers
  cases expired <;> simp_all [and_assoc]

theorem acknowledge_inOrder {env : Env} {id : String} {s : Session} {row : AssetRuntime}
    {t t' : Task} (h : Moved env id (requireAcknowledgeOrder env) [.acknowledged] s row t t') :
    InOrder env (s.readings 0) s.db.fence row.manifest t t' := by
  have hnot : t.status = t'.status ∨ t'.status = .acknowledged := by
    rcases h.status with h | h
    · exact .inl h.symm
    · exact .inr (List.mem_singleton.1 h)
  refine ⟨fun hp ha x hx hearlier hxp => ?_, fun hp ha => ?_, fun hp ha => ?_⟩
  · obtain ⟨c, e, s₁, hc, he, hpre⟩ := h.checked
    have hqueued := h.move.scheduling.1 hp ha
    unfold requireAcknowledgeOrder at hpre
    rw [bind_ok] at hpre
    obtain ⟨scheduling, s₂, h₂, hpre⟩ := hpre
    obtain ⟨hscheduling, rfl⟩ := check_ok.1 h₂
    rw [schedulingOf_eq hc he, hscheduling] at hqueued
    obtain rfl : scheduling = .queued := Option.some.inj hqueued
    rw [if_neg (by simp [hp])] at hpre
    obtain ⟨ha, hr, hid, hord⟩ := hearlier
    obtain ⟨other, hother, hne⟩ := requireNoSchedulingBlocker_ok hpre x hx
      (mem_blockers ha hr (.inr ⟨hord, hid, by simp [hxp]⟩) (by simp))
    rw [hother, eq_immediate hne]
  all_goals
    rw [hp, ha] at hnot
    exact absurd hnot (by decide)

theorem start_inOrder {env : Env} {id : String} {s : Session} {row : AssetRuntime}
    {t t' : Task} (h : Moved env id (requireStartOrder env) [.inProgress, .failed] s row t t') :
    InOrder env (s.readings 0) s.db.fence row.manifest t t' := by
  obtain ⟨c, e, s₁, hc, he, hpre⟩ := h.checked
  have hmove := h.move
  have hsched := schedulingOf_eq hc he
  unfold requireStartOrder at hpre
  rw [bind_ok] at hpre
  obtain ⟨scheduling, s₂, h₂, hpre⟩ := hpre
  obtain ⟨hscheduling, rfl⟩ := check_ok.1 h₂
  rw [hscheduling] at hsched
  rw [hsched] at hmove
  refine ⟨fun hp ha => ?_, fun hp ha x hx hasset hruntime hcase => ?_,
    fun hp ha x hx hearlier hxp hexp => ?_⟩
  · have hnot := h.status
    rw [hp, ha] at hnot
    exact absurd hnot (by decide)
  · obtain rfl : scheduling = .queued := Option.some.inj (hmove.scheduling.2.1 hp ha)
    rw [if_neg (by decide), if_neg (by simp [hp])] at hpre
    obtain ⟨other, hother, hne⟩ := requireNoSchedulingBlocker_ok hpre x hx
      (mem_blockers hasset hruntime (hcase.imp (⟨rfl, ·⟩)
        fun h => ⟨h.1.2.2.2, h.1.2.2.1, by simpa using h.2⟩) (by simp))
    rw [hother, eq_immediate hne]
  · obtain rfl : scheduling = .immediate := Option.some.inj (hmove.scheduling.2.2 hp ha)
    rw [if_pos rfl, if_neg (by simp [hp])] at hpre
    obtain ⟨ha, hr, hid, hord⟩ := hearlier
    obtain ⟨other, hother, hne⟩ := requireNoSchedulingBlocker_ok hpre x hx
      (mem_blockers ha hr (.inr ⟨hord, hid, by simp [hxp]⟩) fun _ => hexp)
    rw [hother, eq_queued hne]

/-! ## One transaction -/

/-- What one transaction whose clock reads `now` first does to the fence. -/
inductive LedgerStep (env : Env) (now : Time) (f : Fence) : Fence → Prop
  | same : LedgerStep env now f f
  | entity (id : String) : LedgerStep env now f { f with entityIDs := f.entityIDs ++ [id] }
  | moved (row : AssetRuntime) (t t' : Task) (updatedAt : Time) (version : ℕ)
      (hs : Serves f row t) (ht : t ∈ f.tasks)
      (hm : TaskMove (schedulingOf env row.manifest t.command) t t')
      (ho : InOrder env now f row.manifest t t') :
    LedgerStep env now f (f.put (t'.stamp updatedAt version))
  | ended (p : Task → Prop) (u : Task → Task) (h : EndsOf p f u) :
    LedgerStep env now f { f with tasks := f.tasks.map u }
  | created (row : AssetRuntime) (u : Task → Task) (task : Task) (hs : Serves f row task)
      (hsched : schedulingOf env row.manifest task.command ≠ none) (hreq : Requested env task)
      (h : Creation f u task) :
    LedgerStep env now f { f with tasks := f.tasks.map u ++ [task] }
  | install (runtime : AssetRuntime) (h : Installable runtime f) :
    LedgerStep env now f (f.install runtime)
  | stop (a r : String) (h : f.Current a r) : LedgerStep env now f (f.stop a r)
  | makeReady (a r : String) (manifest : CommandManifest) (readyAt : Time)
      (h : Readies env f a r manifest) : LedgerStep env now f (f.makeReady a r manifest readyAt)
  | dropAsset (a : String) (h : ∀ r, ¬ f.Work a r) : LedgerStep env now f (f.dropAsset a)

section System

variable (env : Env)

theorem discard_ok {α : Type} {m : CoreTx α} {s s' : Session} {u : Unit}
    (h : discard m s = .ok (u, s')) : ∃ a, m s = .ok (a, s') := by
  unfold discard at h
  obtain ⟨a, s₁, h₁, h⟩ := bind_ok.1 h
  obtain ⟨-, rfl⟩ := pure_ok.1 h
  exact ⟨a, h₁⟩

variable {s s' : Session} {u : Unit}

theorem require_bind_ok {α : Type} {p : Bool} {e : ActionError} {f : Unit → CoreTx α} {a : α}
    (h : (require p e >>= f) s = .ok (a, s')) : f () s = .ok (a, s') := by
  rw [bind_ok] at h
  obtain ⟨_, s₁, h₁, h⟩ := h
  rwa [(require_ok.1 h₁).2] at h

theorem keeps_ledger {α : Type} {m : CoreTx α} [hm : KeepsFence m] {a : α}
    (h : m s = .ok (a, s')) : LedgerStep env (s.readings 0) s.db.fence s'.db.fence := by
  have hf : s'.db.fence = s.db.fence := hm.eq h
  rw [hf]
  exact .same

theorem transition_ledger {id caller : String} {allow : Bool} {pre : TaskPrecondition}
    [∀ t c e m, ReadOnly (pre t c e m)] {mutate : TaskMutation} {statuses : List TaskStatus}
    (hmutate : Moving statuses mutate) {a : Task} (hI : s.db.fence.Inv)
    (horder : ∀ row t t', Moved env id pre statuses s row t t' →
      InOrder env (s.readings 0) s.db.fence row.manifest t t')
    (h : withTaskTransition env id caller allow pre mutate s = .ok (a, s')) :
    LedgerStep env (s.readings 0) s.db.fence s'.db.fence := by
  rcases withTaskTransition_ok hmutate hI.task_unique h with hf | ⟨row, t, t', at', v, hm, hf⟩
  · rw [hf]
    exact .same
  · rw [hf]
    exact .moved row t t' at' v hm.serves hm.task hm.move (horder row t t' hm)

/-- A batch that ends some of its selection. -/
theorem batch_ledger {f : Fence} (hI : f.Inv) {now first : Time} {failure : Task → TaskFailure}
    {tasks : List Task} (hnodup : tasks.Nodup)
    (hmem : ∀ t ∈ tasks, t ∈ f.tasks ∧ t.status.nonterminal = true) :
    FSpec (· = f) (failTasks now failure tasks) fun _ f' => LedgerStep env first f f' := by
  refine (failTasks_ends hI.task_unique hnodup hmem).mono (fun _ h => h) ?_
  rintro _ _ ⟨u, hends, rfl⟩
  exact .ended _ u hends

theorem reconcileImmediateTimeouts_ledger {f : Fence} (hI : f.Inv) {first : Time} :
    FSpec (· = f) (TaskActions.reconcileImmediateTimeouts env) fun _ f' =>
      LedgerStep env first f f' := by
  unfold TaskActions.reconcileImmediateTimeouts
  refine .pass fun now => .get fun db h => ?_
  subst h
  refine .bind (batch_ledger env hI ?_ fun t ht => ?_) fun _ => .of_pure fun _ h => h
  · exact (selectTasks_nodup hI.task_unique _).sublist (List.take_sublist _ _)
  · obtain ⟨hmem, hp⟩ := mem_selectTasks.1 (List.mem_of_mem_take ht)
    simp only [expiredImmediate, Bool.and_eq_true, decide_eq_true_eq] at hp
    exact ⟨hmem, by rw [hp.1.1]; rfl⟩

theorem failRuntimeTaskBatch_ledger {f : Fence} (hI : f.Inv) {first : Time} {a r : String}
    {stale : Bool} {failure : TaskFailure} :
    FSpec (· = f) (failRuntimeTaskBatch env a r stale failure) fun _ f' =>
      LedgerStep env first f f' := by
  have hsame : ∀ g, g = f → LedgerStep env first f g := by
    rintro _ rfl
    exact .same
  unfold failRuntimeTaskBatch
  refine .get fun db h => ?_
  subst h
  split
  · refine .of_ite (fun _ => .of_pure hsame) fun _ => .pass fun now => ?_
    refine .bind (batch_ledger env hI ?_ fun t ht => ?_) fun _ => .of_pure fun _ h => h
    · exact (selectTasks_nodup hI.task_unique _).sublist (List.take_sublist _ _)
    · obtain ⟨hmem, hp⟩ := mem_selectTasks.1 (List.mem_of_mem_take ht)
      simp only [Bool.and_eq_true] at hp
      exact ⟨hmem, hp.2⟩
  · exact .of_pure hsame

theorem request_ledger {q : Request} (hI : s.db.fence.Inv) (h : q.run env s = .ok (u, s')) :
    LedgerStep env (s.readings 0) s.db.fence s'.db.fence := by
  cases q with
  | createEntity params movement =>
    obtain ⟨a, h⟩ := discard_ok h
    obtain ⟨id, hf⟩ := createEntity_adds _ _ _ rfl h
    rw [hf]
    exact .entity id
  | updateEntity id params movement => exact keeps_ledger env (discard_ok h).choose_spec
  | deleteEntity id token =>
    obtain ⟨hf, hidle⟩ := deleteEntity_drops _ _ _ rfl h
    rw [hf]
    exact .dropAsset _ hidle
  | createObject params => exact keeps_ledger env (discard_ok h).choose_spec
  | updateObject id params => exact keeps_ledger env (discard_ok h).choose_spec
  | deleteObject id token =>
    exact keeps_ledger env (m := ObjectActions.delete env id token) h
  | uploadPreflight params => exact keeps_ledger env (discard_ok h).choose_spec
  | uploadMetadata params preflight n => exact keeps_ledger env (discard_ok h).choose_spec
  | createTask params key taskID =>
    obtain ⟨⟨task, created⟩, h⟩ := discard_ok h
    obtain ⟨-, -, -, ⟨-, rfl, -⟩ | ⟨-, -, row, u, hs, hsched, hreq, hc, hf⟩⟩ :=
      create_ok hI.task_unique h
    · exact .same
    · rw [hf]
      exact .created row u task hs hsched hreq hc
  | acknowledge taskID runtimeID =>
    obtain ⟨a, h⟩ := discard_ok h
    unfold TaskActions.acknowledge requireRuntimeID at h
    exact transition_ledger env acknowledgeTask_moving hI (fun _ _ _ => acknowledge_inOrder) (require_bind_ok h)
  | start taskID runtimeID =>
    obtain ⟨a, h⟩ := discard_ok h
    unfold TaskActions.start requireRuntimeID at h
    exact transition_ledger env startTask_moving hI (fun _ _ _ => start_inOrder) (require_bind_ok h)
  | progress taskID runtimeID value =>
    obtain ⟨a, h⟩ := discard_ok h
    unfold TaskActions.progress requireRuntimeID at h
    exact transition_ledger env (progressTask_moving value) hI
      (fun _ _ _ hm => .of_status hm.status (by decide) (by decide)) (require_bind_ok h)
  | complete taskID runtimeID output =>
    obtain ⟨a, h⟩ := discard_ok h
    unfold TaskActions.complete requireRuntimeID at h
    exact transition_ledger env (completeTask_moving env output) hI
      (fun _ _ _ hm => .of_status hm.status (by decide) (by decide)) (require_bind_ok h)
  | fail taskID runtimeID failure =>
    obtain ⟨a, h⟩ := discard_ok h
    unfold TaskActions.fail requireRuntimeID validateAssetFailureCode at h
    exact transition_ledger env (failTask_moving failure) hI
      (fun _ _ _ hm => .of_status hm.status (by decide) (by decide)) (require_bind_ok (require_bind_ok h))
  | cancel taskID cancellation =>
    obtain ⟨a, h⟩ := discard_ok h
    unfold TaskActions.cancel at h
    exact transition_ledger env (cancelTask_moving cancellation) hI
      (fun _ _ _ hm => .of_status hm.status (by decide) (by decide)) (require_bind_ok h)
  | completeRuntimeRegistration asset runtime manifest =>
    rcases completeRuntimeRegistration_readies hI _ _ _ rfl h with hf | ⟨now, hr, hf⟩
    · rw [hf]
      exact .same
    · rw [hf]
      exact .makeReady _ _ _ now hr
  | reconcileImmediateTimeouts =>
    obtain ⟨a, h⟩ := discard_ok h
    exact reconcileImmediateTimeouts_ledger env hI _ _ _ rfl h
  | pruneChangeRecordBatch cutoff n => exact keeps_ledger env (discard_ok h).choose_spec

theorem call_ledger {c : Call} {phase : Phase} (hI : s.db.fence.Inv)
    (h : c.transaction env s = .ok (phase, s')) :
    LedgerStep env (s.readings 0) s.db.fence s'.db.fence := by
  obtain ⟨kind, a, r, p⟩ := c
  cases p with
  | first =>
    cases kind with
    | beginRuntimeRegistration =>
      obtain ⟨b, s₁, h₁, h⟩ := bind_ok.1 h
      obtain ⟨-, rfl⟩ := pure_ok.1 h
      obtain ⟨-, ⟨hf, -⟩ | ⟨runtime, hr, -, -, hf⟩⟩ :=
        beginRuntimeRegistration_installs hI _ _ _ rfl h₁
      · rw [hf]
        exact .same
      · rw [hf]
        exact .install runtime hr
    | stopRuntime =>
      obtain ⟨b, s₁, h₁, h⟩ := bind_ok.1 h
      obtain ⟨-, rfl⟩ := pure_ok.1 h
      rcases stopRuntime_fence hI _ _ _ rfl h₁ with ⟨-, hc, hf⟩ | ⟨-, -, hf⟩
      · rw [hf]
        exact .stop a r hc
      · rw [hf]
        exact .same
  | drainStale =>
    obtain ⟨b, s₁, h₁, h⟩ := bind_ok.1 h
    obtain ⟨-, rfl⟩ := pure_ok.1 h
    exact failRuntimeTaskBatch_ledger env hI _ _ _ rfl h₁
  | drainOwn =>
    obtain ⟨b, s₁, h₁, h⟩ := bind_ok.1 h
    obtain ⟨-, rfl⟩ := pure_ok.1 h
    exact failRuntimeTaskBatch_ledger env hI _ _ _ rfl h₁
  | success =>
    obtain ⟨-, rfl⟩ := pure_ok.1 h
    exact .same
  | failure =>
    obtain ⟨-, rfl⟩ := pure_ok.1 h
    exact .same

/-- The first clock reading of an event that runs a transaction. -/
def Event.now : Event → Time
  | .request _ readings => readings 0
  | .advance _ readings => readings 0
  | _ => 0

/-- Every step of Core is a step of the ledger. -/
theorem step_ledger {s : System} (h : SystemInv s) (e : Event) :
    LedgerStep env e.now s.db.fence (s.step env e).db.fence := by
  cases e with
  | request q readings =>
    simp only [System.step, commit, settle]
    rcases hm : q.run env ⟨s.db, readings⟩ with e | ⟨a, s'⟩
    · exact .same
    · exact request_ledger env (s := ⟨s.db, readings⟩) h.fence hm
  | call kind asset runtime => exact .same
  | advance i readings =>
    rcases hi : s.calls[i]? with _ | c
    · simp only [System.step, hi]
      exact .same
    · simp only [System.step, hi, advanceCall]
      rcases hm : c.transaction env ⟨s.db, readings⟩ with e | ⟨phase, s'⟩
      · exact .same
      · exact call_ledger env (s := ⟨s.db, readings⟩) h.fence hm
  | crash i =>
    simp only [System.step]
    repeat' split
    all_goals exact .same
  | blobStore intents outbox => exact .same

end System

end Atlas.Core
