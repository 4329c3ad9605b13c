import Atlas.Proofs.TaskMoves

/-!
# Retries of Task transitions

A lifecycle call that succeeds leaves its Task in a state in which the same call has nothing to do
(`Repeats`). If the Task is terminal, the answer needs neither the manifest nor the time, and the
retry is answered without a current runtime; otherwise the runtime that the call was made for has to
be there still, and the order in which Tasks start no longer concerns this one (`Passes`).

What the database gives back of a Task may be other JSON documents of the same values (`Shows`).
-/

namespace Atlas.Core

open Transaction

/-- A lifecycle call, with its arguments. -/
inductive LifecycleCall
  | acknowledge (taskID runtimeID : String)
  | start (taskID runtimeID : String)
  | progress (taskID runtimeID : String) (value : ℚ)
  | complete (taskID runtimeID : String) (output : Option String)
  | fail (taskID runtimeID : String) (failure : TaskFailure)
  | cancel (taskID : String) (cancellation : TaskCancellation)

def LifecycleCall.run (env : Env) : LifecycleCall → CoreTx Task
  | .acknowledge taskID runtimeID => TaskActions.acknowledge env taskID runtimeID
  | .start taskID runtimeID => TaskActions.start env taskID runtimeID
  | .progress taskID runtimeID value => TaskActions.progress env taskID runtimeID value
  | .complete taskID runtimeID output => TaskActions.complete env taskID runtimeID output
  | .fail taskID runtimeID failure => TaskActions.fail env taskID runtimeID failure
  | .cancel taskID cancellation => TaskActions.cancel env taskID cancellation

/-- JSON documents of the same value, or none. -/
abbrev SameJSON (env : Env) (r t : Option String) : Prop := optionalJSONEqual env r t = true

/-- The row `r` shows the state that `t` was left in. -/
structure Shows (env : Env) (t r : Task) : Prop where
  taskID : r.taskID = t.taskID
  assetID : r.assetID = t.assetID
  runtimeID : r.runtimeID = t.runtimeID
  command : r.command = t.command
  status : r.status = t.status
  progress : r.progress = t.progress
  output : SameJSON env r.output t.output
  attempt : Option.Rel (SameJSON env) r.completionAttempt t.completionAttempt
  failure : r.failure = t.failure
  cancellation : r.cancellation = t.cancellation

/-- Whatever the mutation answers, it has nothing to do where that shows. -/
def Repeats (env : Env) (mutate : TaskMutation) : Prop :=
  ∀ ⦃t c e now a⦄, mutate t c e now = .ok a → ∀ ⦃r⦄, Shows env a.2 r →
    (r.status.nonterminal = false → ∀ c' e' now', mutate r c' e' now' = .ok (false, r)) ∧
      ∀ now', mutate r c e now' = .ok (false, r)

/-- Where the mutation's answer shows, the precondition passes again. -/
def Passes (env : Env) (pre : TaskPrecondition) (mutate : TaskMutation) : Prop :=
  ∀ ⦃t c e m s s' now a⦄, pre t c e m s = .ok ((), s') → mutate t c e now = .ok a →
    ∀ ⦃r⦄, Shows env a.2 r → ∀ s₂, pre r c e m s₂ = .ok ((), s₂)

section Mutations

variable {env : Env}

theorem acknowledgeTask_answer {t : Task} {c : CommandDefinition} {e : CommandManifestEntry}
    {now : Time} {a : Bool × Task} (h : acknowledgeTask t c e now = .ok a) :
    resolveScheduling c e = .ok .queued ∧ a.2.status = .acknowledged := by
  unfold acknowledgeTask at h
  split at h
  · cases h
  · cases h
  · rename_i hs
    refine ⟨hs, ?_⟩
    split_ifs at h with hacked hpending
    · cases h
      exact hacked
    · cases h
      rfl

theorem acknowledgeTask_repeats : Repeats env acknowledgeTask := by
  intro t c e now a h r hr
  obtain ⟨hs, hacked⟩ := acknowledgeTask_answer h
  rw [← hr.status] at hacked
  refine ⟨fun hterminal => ?_, fun now' => ?_⟩
  · rw [hacked] at hterminal
    cases hterminal
  · unfold acknowledgeTask
    rw [hs]
    exact if_pos hacked

theorem failTask_repeats (failure : TaskFailure) : Repeats env (failTask failure) := by
  intro t c e now a h r hr
  have hfailed : r.status = .failed ∧ r.failure = some failure := by
    rw [hr.status, hr.failure]
    exact (failTask_ok h).2
  have hsame : ∀ c' e' now', failTask failure r c' e' now' = .ok (false, r) := by
    intro c' e' now'
    unfold failTask
    rw [if_pos hfailed.1, if_pos hfailed.2]
  exact ⟨fun _ => hsame, hsame c e⟩

theorem cancelTask_repeats (cancellation : TaskCancellation) :
    Repeats env (cancelTask cancellation) := by
  intro t c e now a h r hr
  have hcancelled : r.status = .cancelled ∧ r.cancellation = some cancellation := by
    rw [hr.status, hr.cancellation]
    unfold cancelTask at h
    split_ifs at h with hcancelled hsame
    · cases h
      exact ⟨hcancelled, hsame⟩
    · cases h
      exact ⟨rfl, rfl⟩
  have hsame : ∀ c' e' now', cancelTask cancellation r c' e' now' = .ok (false, r) := by
    intro c' e' now'
    unfold cancelTask
    rw [if_pos hcancelled.1, if_pos hcancelled.2]
  exact ⟨fun _ => hsame, hsame c e⟩

theorem progressed {value : ℚ} {t r : Task} {c : CommandDefinition} {e : CommandManifestEntry}
    (hr : Shows env t r) (hrunning : t.status = .inProgress)
    (hsupports : ¬ (!e.supportsProgress) = true)
    (hrange : ¬ (decide (value < 0) || decide (1 < value)) = true)
    (hvalue : t.progress = some value) :
    (r.status.nonterminal = false →
        ∀ c' e' now', progressTask value r c' e' now' = .ok (false, r)) ∧
      ∀ now', progressTask value r c e now' = .ok (false, r) := by
  have hstatus : r.status = .inProgress := hr.status.trans hrunning
  refine ⟨fun hterminal => ?_, fun now' => ?_⟩
  · rw [hstatus] at hterminal
    cases hterminal
  · unfold progressTask
    rw [if_neg (not_not.2 hstatus), if_neg hsupports, if_neg hrange, hr.progress, hvalue,
      if_neg (by simp), if_pos rfl]

theorem progressTask_repeats (value : ℚ) : Repeats env (progressTask value) := by
  intro t c e now a h r hr
  unfold progressTask at h
  split_ifs at h with hrunning hsupports hrange hdecreases hsame
  all_goals obtain rfl := Except.ok.inj h
  · exact progressed hr (not_not.1 hrunning) hsupports hrange hsame
  · exact progressed hr (not_not.1 hrunning) hsupports hrange rfl

/-- A Start that found the window gone fails the Task, and is answered by that. -/
theorem startTask_answer {t : Task} {c : CommandDefinition} {e : CommandManifestEntry}
    {now : Time} {a : Bool × Task} (h : startTask t c e now = .ok a) :
    (a.2.status = .failed ∧ a.2.failure = some immediateStartTimeoutFailure) ∨
      a.2.status = .inProgress := by
  unfold startTask at h
  split at h
  · rename_i htimeout
    cases h
    rw [Bool.and_eq_true, decide_eq_true_eq, decide_eq_true_eq] at htimeout
    exact .inl htimeout
  split at h
  · rename_i hrunning
    cases h
    exact .inr hrunning
  split at h
  · cases h
  · split_ifs at h with hpending hexpired
    · exact .inl (failTask_ok h).2
    · cases h
      exact .inr rfl
  · split_ifs at h with hacked
    cases h
    exact .inr rfl

theorem startTask_repeats : Repeats env startTask := by
  intro t c e now a h r hr
  have hanswer := startTask_answer h
  rw [← hr.status, ← hr.failure] at hanswer
  have hsame : ∀ c' e' now', startTask r c' e' now' = .ok (false, r) := by
    intro c' e' now'
    unfold startTask
    rcases hanswer with ⟨hfailed, hfailure⟩ | hrunning
    · rw [if_pos (by simp [hfailed, hfailure])]
    · rw [if_neg (by simp [hrunning]), if_pos hrunning]
  exact ⟨fun _ => hsame, hsame c e⟩

theorem SameJSON.trans (htrans : ∀ a b c, env.jsonEqual a b = true → env.jsonEqual b c = true →
    env.jsonEqual a c = true) : ∀ {a b c : Option String}, SameJSON env a b → SameJSON env b c →
    SameJSON env a c
  | none, none, none, _, _ => rfl
  | some a, some b, some c, h, h' => htrans a b c h h'

/-- An output that is left out and one that is null are different attempts, each of them repeated
by itself. -/
theorem completeTask_repeats (htrans : ∀ a b c, env.jsonEqual a b = true →
    env.jsonEqual b c = true → env.jsonEqual a c = true)
    (hrefl : ∀ a, env.jsonEqual a a = true) (output : Option String) :
    Repeats env (completeTask env output) := by
  have hself : SameJSON env output output := by
    cases output
    · rfl
    · exact hrefl _
  intro t c e now a h r hr
  have hanswer : (r.status = .completed ∧ SameJSON env r.output output) ∨
      (r.status = .failed ∧ (r.failure.map (·.code)) = some .invalidOutput ∧
        ∃ attempt, r.completionAttempt = some attempt ∧ SameJSON env attempt output) := by
    have hattempt : ∀ {attempt}, a.2.completionAttempt = some attempt →
        SameJSON env attempt output →
        ∃ attempt, r.completionAttempt = some attempt ∧ SameJSON env attempt output := by
      intro attempt hsome hequal
      have hrel := hr.attempt
      rw [hsome] at hrel
      rcases hra : r.completionAttempt with _ | shown
      · rw [hra] at hrel
        cases hrel
      · rw [hra] at hrel
        cases hrel with
        | some hshown => exact ⟨shown, rfl, hshown.trans htrans hequal⟩
    have houtput := hr.output
    rw [hr.status, hr.failure]
    unfold completeTask at h
    split_ifs at h with hdone hequal hrejected hmatch hrunning
    · cases h
      exact .inl ⟨hdone, houtput.trans htrans hequal⟩
    · cases h
      rw [Bool.and_eq_true, decide_eq_true_eq, decide_eq_true_eq] at hrejected
      rcases hsome : t.completionAttempt with _ | attempt
      · simp [hsome] at hmatch
      · rw [hsome] at hmatch
        exact .inr ⟨hrejected.1, hrejected.2, hattempt hsome hmatch⟩
    · split at h
      · rcases failTask_cases h with ⟨-, -, hterminal⟩ | ⟨-, -, ha⟩
        · rw [show t.status = .inProgress from not_not.1 hrunning] at hterminal
          cases hterminal
        · refine .inr ⟨by rw [ha], by rw [ha]; rfl, hattempt (by rw [ha]) hself⟩
      · cases h
        exact .inl ⟨rfl, houtput.trans htrans hself⟩
  have hsame : ∀ c' e' now', completeTask env output r c' e' now' = .ok (false, r) := by
    intro c' e' now'
    unfold completeTask
    rcases hanswer with ⟨hdone, hequal⟩ | ⟨hfailed, hcode, attempt, hsome, hequal⟩
    · rw [if_pos hdone, if_pos hequal]
    · rw [if_neg (by simp [hfailed]), if_pos (by simp [hfailed, hcode]),
        if_pos (by rw [hsome]; exact hequal)]
  exact ⟨fun _ => hsame, hsame c e⟩

end Mutations

section Preconditions

variable {env : Env}

theorem noPrecondition_passes (mutate : TaskMutation) : Passes env noPrecondition mutate :=
  fun _ _ _ _ _ _ _ _ _ _ _ _ _ => rfl

theorem check_scheduling {α : Type} {c : CommandDefinition} {e : CommandManifestEntry}
    {f : CommandScheduling → CoreTx α} {s s' : Session} {a : α}
    (h : (check (resolveScheduling c e) >>= f) s = .ok (a, s')) :
    ∃ scheduling, resolveScheduling c e = .ok scheduling := by
  obtain ⟨scheduling, _, hcheck, -⟩ := bind_ok.1 h
  exact ⟨scheduling, (check_ok.1 hcheck).1⟩

theorem requireAcknowledgeOrder_passes :
    Passes env (requireAcknowledgeOrder env) acknowledgeTask := by
  intro t c e m s s' now a hpre h r hr s₂
  obtain ⟨scheduling, hs⟩ := check_scheduling hpre
  have hacked := hr.status.trans (acknowledgeTask_answer h).2
  refine bind_ok.2 ⟨scheduling, s₂, check_ok.2 ⟨hs, rfl⟩, ?_⟩
  rw [if_pos (by simp [hacked])]
  rfl

theorem requireStartOrder_passes : Passes env (requireStartOrder env) startTask := by
  intro t c e m s s' now a hpre h r hr s₂
  obtain ⟨scheduling, hs⟩ := check_scheduling hpre
  have hstatus : r.status ≠ .pending ∧ r.status ≠ .acknowledged := by
    rw [hr.status]
    rcases startTask_answer h with ⟨hfailed, -⟩ | hrunning
    · simp [hfailed]
    · simp [hrunning]
  refine bind_ok.2 ⟨scheduling, s₂, check_ok.2 ⟨hs, rfl⟩, ?_⟩
  split_ifs with himmediate hpending hacked
  · rfl
  · exact absurd (not_not.1 hpending) hstatus.1
  · rfl
  · exact absurd (not_not.1 hacked) hstatus.2

end Preconditions

section Calls

variable {env : Env}

/-- What a retry rests on. -/
structure Retriable (env : Env) (allow : Bool) (pre : TaskPrecondition) (mutate : TaskMutation) :
    Prop where
  readOnly : ∀ t c e m, ReadOnly (pre t c e m)
  repeats : Repeats env mutate
  passes : Passes env pre mutate
  same : ∀ {t c e now a}, mutate t c e now = .ok a →
    a.1 = false ∧ a.2 = t ∨ a.1 = true ∧ t.status.nonterminal = true ∧ Same t a.2
  ends : allow = false → ∀ {t c e now a}, mutate t c e now = .ok a →
    a.2.status.nonterminal = true

theorem Moving.same {statuses : List TaskStatus} {mutate : TaskMutation}
    (h : Moving statuses mutate) {t : Task} {c : CommandDefinition} {e : CommandManifestEntry}
    {now : Time} {a : Bool × Task} (ha : mutate t c e now = .ok a) :
    a.1 = false ∧ a.2 = t ∨ a.1 = true ∧ t.status.nonterminal = true ∧ Same t a.2 :=
  (h _ _ _ _ _ ha).imp_right fun hmove => ⟨hmove.1, hmove.2.1.nonterminal, hmove.2.1.same⟩

theorem lockCurrentRuntimeManifest_iff {assetID bound caller : String} {s s' : Session}
    {manifest : CommandManifest} :
    lockCurrentRuntimeManifest assetID bound caller s = .ok (manifest, s') ↔
      ∃ row, findAssetRuntime s.db assetID = some row ∧ row.ready = true ∧ row.runtimeID = bound ∧
        (caller = "" ∨ trimSpace caller = row.runtimeID) ∧ row.manifest = manifest ∧ s' = s := by
  unfold lockCurrentRuntimeManifest
  constructor
  · intro h
    obtain ⟨db, s₁, hdb, h⟩ := bind_ok.1 h
    obtain ⟨hdb, hs₁⟩ := getDB_ok.1 hdb
    rw [hdb] at h
    rcases hrow : findAssetRuntime s.db assetID with _ | row
    · rw [hrow] at h
      exact absurd h throw_ok
    · rw [hrow] at h
      obtain ⟨_, s₂, h₂, h⟩ := bind_ok.1 h
      obtain ⟨hready, hs₂⟩ := require_ok.1 h₂
      obtain ⟨_, s₃, h₃, h⟩ := bind_ok.1 h
      obtain ⟨hcaller, hs₃⟩ := require_ok.1 h₃
      obtain ⟨hmanifest, hs'⟩ := pure_ok.1 h
      simp only [Bool.and_eq_true, decide_eq_true_eq] at hready
      simp only [Bool.or_eq_true, decide_eq_true_eq] at hcaller
      exact ⟨row, rfl, hready.1, hready.2, hcaller, hmanifest.symm, by rw [hs', hs₃, hs₂, hs₁]⟩
  · rintro ⟨row, hrow, hready, hbound, hcaller, rfl, rfl⟩
    refine bind_ok.2 ⟨_, _, getDB_ok.2 ⟨rfl, rfl⟩, ?_⟩
    rw [hrow]
    refine bind_ok.2 ⟨(), s', require_ok.2 ⟨by simp [hready, hbound], rfl⟩, ?_⟩
    exact bind_ok.2 ⟨(), s', require_ok.2 ⟨by simpa using hcaller, rfl⟩, pure_ok.2 ⟨rfl, rfl⟩⟩

theorem find?_replace {tasks : List Task} {id : String} {t a : Task}
    (h : tasks.find? (fun t => t.taskID = id) = some t) (ha : a.taskID = id) :
    (tasks.map fun t => if t.taskID = id then a else t).find? (fun t => t.taskID = id) =
      some a := by
  induction tasks with
  | nil => cases h
  | cons x tasks ih =>
    rw [List.map_cons, List.find?_cons]
    by_cases hx : x.taskID = id
    · simp [hx, ha]
    · rw [List.find?_cons] at h
      simp only [hx, decide_false, if_false] at h ⊢
      exact ih h

theorem keeps_fence {α : Type} {m : CoreTx α} [hm : KeepsFence m] {s s' : Session} {a : α}
    (h : m s = .ok (a, s')) : s'.db.fence = s.db.fence := hm.eq h

/-- The row is persisted under the state, and is what the database has from then on. -/
theorem persistTaskState_ok {t a : Task} {s s' : Session}
    (h : persistTaskState t s = .ok (a, s')) :
    ∃ row updatedAt version, findTask s.db t.taskID = some row ∧
      a = row.under t updatedAt version ∧ findTask s'.db t.taskID = some a := by
  unfold persistTaskState at h
  obtain ⟨version, s₁, h₁, h⟩ := bind_ok.1 h
  obtain ⟨now, s₂, h₂, h⟩ := bind_ok.1 h
  obtain ⟨row, s₃, h₃, h⟩ := bind_ok.1 h
  obtain ⟨hrow, hs₃⟩ := readTask_ok.1 h₃
  obtain ⟨_, s₄, h₄, h⟩ := bind_ok.1 h
  obtain ⟨_, s₅, h₅, h⟩ := bind_ok.1 h
  obtain ⟨ha, hs'⟩ := pure_ok.1 h
  have hfence₁ := keeps_fence h₁
  have hfence₅ := keeps_fence h₅
  have htasks₁ : s₁.db.tasks = s.db.tasks := congrArg Fence.tasks hfence₁
  have htasks₂ : s₂.db.tasks = s₁.db.tasks := congrArg DB.tasks (clockTimestamp_ok h₂).2
  have htasks₅ : s₅.db.tasks = s₄.db.tasks := congrArg Fence.tasks hfence₅
  have hid := findTask_id hrow
  refine ⟨row, now, version, ?_, ha, ?_⟩
  · rw [← hrow, findTask, findTask, htasks₂, htasks₁]
  · have htasks₄ : s₄.db.tasks = s₃.db.tasks.map fun r => if r.taskID = t.taskID then a else r := by
      rw [modify_ok.1 h₄, ha]
    rw [findTask] at hrow ⊢
    rw [hs', htasks₅, htasks₄, hs₃, find?_replace hrow]
    rw [ha]
    exact hid

/-- How a lifecycle call succeeds: as a retry on a terminal Task, or through the current runtime. -/
theorem withTaskTransition_cases {id caller : String} {allow : Bool} {pre : TaskPrecondition}
    [∀ t c e m, ReadOnly (pre t c e m)] {mutate : TaskMutation} {s s' : Session} {a : Task}
    (h : withTaskTransition env id caller allow pre mutate s = .ok (a, s')) :
    (∀ s₂, validateTaskID id s₂ = .ok ((), s₂)) ∧ ∃ t, findTask s.db (trimSpace id) = some t ∧
      ((allow && taskTerminal t.status) = true ∧ (caller = "" ∨ trimSpace caller = t.runtimeID) ∧
          mutate t ((env.command t.command).getD default) default zeroTime = .ok (false, a) ∧
          s' = s ∨
        (allow && taskTerminal t.status) = false ∧ ∃ row c e sp now r,
          findAssetRuntime s.db t.assetID = some row ∧ row.ready = true ∧
          row.runtimeID = t.runtimeID ∧ (caller = "" ∨ trimSpace caller = row.runtimeID) ∧
          env.command t.command = some c ∧ manifestEntry row.manifest t.command = some e ∧
          pre t c e row.manifest s = .ok ((), sp) ∧ mutate t c e now = .ok r ∧
          (r.1 = false ∧ a = r.2 ∧ s'.db = s.db ∨
            r.1 = true ∧ ∃ s₁, s₁.db = s.db ∧ persistTaskState r.2 s₁ = .ok (a, s'))) := by
  unfold withTaskTransition at h
  obtain ⟨_, s₁, h₁, h⟩ := bind_ok.1 h
  rw [validateResourceID_ok h₁] at h
  refine ⟨validateResourceID_any h₁, ?_⟩
  obtain ⟨t, s₂, h₂, h⟩ := bind_ok.1 h
  obtain ⟨ht, hs₂⟩ := readTask_ok.1 h₂
  refine ⟨t, ht, ?_⟩
  rw [hs₂] at h
  split at h
  · rename_i hterminal
    obtain ⟨_, s₃, h₃, h⟩ := bind_ok.1 h
    obtain ⟨hcaller, hs₃⟩ := require_ok.1 h₃
    obtain ⟨r, s₄, h₄, h⟩ := bind_ok.1 h
    obtain ⟨hmutate, hs₄⟩ := check_ok.1 h₄
    obtain ⟨_, s₅, h₅, h⟩ := bind_ok.1 h
    obtain ⟨hsame, hs₅⟩ := require_ok.1 h₅
    obtain ⟨ha, hs'⟩ := pure_ok.1 h
    simp only [Bool.or_eq_true, decide_eq_true_eq] at hcaller
    refine .inl ⟨hterminal, hcaller, ?_, by rw [hs', hs₅, hs₄, hs₃]⟩
    rw [Bool.not_eq_true'] at hsame
    rw [hmutate, ha, ← hsame]
  · rename_i hterminal
    obtain ⟨manifest, s₃, h₃, h⟩ := bind_ok.1 h
    obtain ⟨row, hrow, hready, hruntime, hcaller, hmanifest, hs₃⟩ :=
      lockCurrentRuntimeManifest_iff.1 h₃
    obtain ⟨task, s₄, h₄, h⟩ := bind_ok.1 h
    obtain ⟨htask, hs₄⟩ := readTask_ok.1 h₄
    rw [hs₃] at htask
    obtain rfl := Option.some.inj (ht.symm.trans htask)
    obtain ⟨c, s₅, h₅, h⟩ := bind_ok.1 h
    obtain ⟨hc, hs₅⟩ := storedCommandDefinition_ok h₅
    rcases hentry : manifestEntry manifest t.command with _ | e
    · rw [hentry] at h
      exact absurd h throw_ok
    · rw [hentry] at h
      obtain ⟨_, sp, hpre, h⟩ := bind_ok.1 h
      have hsp : sp.db = s₅.db := Preserves.eq hpre
      obtain ⟨now, s₆, h₆, h⟩ := bind_ok.1 h
      have hs₆ : s₆.db = sp.db := (clockTimestamp_ok h₆).2
      obtain ⟨r, s₇, h₇, h⟩ := bind_ok.1 h
      obtain ⟨hmutate, hs₇⟩ := check_ok.1 h₇
      have hdb : s₇.db = s.db := by rw [hs₇, hs₆, hsp, hs₅, hs₄, hs₃]
      rw [hs₅, hs₄, hs₃, ← hmanifest] at hpre
      rw [← hmanifest] at hentry
      refine .inr ⟨by simpa using hterminal, row, c, e, sp, now, r, hrow, hready, hruntime, hcaller,
        hc, hentry, hpre, hmutate, ?_⟩
      rcases hr : r.1 with _ | _
      · simp only [hr, if_false, Bool.false_eq_true] at h
        obtain ⟨ha, hs'⟩ := pure_ok.1 h
        exact .inl ⟨rfl, ha, by rw [hs', hdb]⟩
      · simp only [hr, if_true] at h
        exact .inr ⟨rfl, s₇, hdb, h⟩

theorem nonterminal_eq_false_iff {status : TaskStatus} :
    status.nonterminal = false ↔ taskTerminal status = true := by
  cases status <;> simp [TaskStatus.nonterminal, taskTerminal]

/-- What a call left, and the database gives back. -/
structure StoredAs (env : Env) (t r : Task) : Prop where
  input : env.jsonEqual r.input t.input = true
  output : SameJSON env r.output t.output
  attempt : Option.Rel (SameJSON env) r.completionAttempt t.completionAttempt
  same : r = { t with
    input := r.input, output := r.output, completionAttempt := r.completionAttempt }

theorem StoredAs.shows {t r : Task} (h : StoredAs env t r) : Shows env t r := by
  constructor
  · rw [h.same]
  · rw [h.same]
  · rw [h.same]
  · rw [h.same]
  · rw [h.same]
  · rw [h.same]
  · exact h.output
  · exact h.attempt
  · rw [h.same]
  · rw [h.same]

/-- Persisting adds a time and a version to the state, which no answer depends on. -/
theorem Shows.of_under {row t r : Task} {updatedAt : Time} {version : ℕ}
    (h : Shows env (row.under t updatedAt version) r) (hsame : Same row t) : Shows env t r :=
  ⟨h.taskID.trans hsame.taskID.symm, h.assetID.trans hsame.assetID.symm,
    h.runtimeID.trans hsame.runtimeID.symm, h.command.trans hsame.command.symm, h.status,
    h.progress, h.output, h.attempt, h.failure, h.cancellation⟩

/-- The end of a retry on a terminal Task. -/
theorem retry_terminal {id caller : String} {pre : TaskPrecondition} {mutate : TaskMutation}
    {s : Session} {r : Task} (hid : ∀ s, validateTaskID id s = .ok ((), s))
    (hr : findTask s.db (trimSpace id) = some r) (hterminal : taskTerminal r.status = true)
    (hcaller : caller = "" ∨ trimSpace caller = r.runtimeID)
    (hmutate : ∀ c e now, mutate r c e now = .ok (false, r)) :
    withTaskTransition env id caller true pre mutate s = .ok (r, s) := by
  refine bind_ok.2 ⟨(), s, hid s, bind_ok.2 ⟨r, s, readTask_ok.2 ⟨hr, rfl⟩, ?_⟩⟩
  rw [hterminal]
  refine bind_ok.2 ⟨(), s, require_ok.2 ⟨by simpa using hcaller, rfl⟩, ?_⟩
  refine bind_ok.2 ⟨(false, r), s, check_ok.2 ⟨hmutate _ _ _, rfl⟩, ?_⟩
  exact bind_ok.2 ⟨(), s, require_ok.2 ⟨rfl, rfl⟩, pure_ok.2 ⟨rfl, rfl⟩⟩

theorem clockTimestamp_reads (s : Session) :
    clockTimestamp s = .ok (s.readings 0, { s with readings := fun n => s.readings (n + 1) }) := rfl

/-- The end of a retry through the current runtime. -/
theorem retry_current {id caller : String} {allow : Bool} {pre : TaskPrecondition}
    {mutate : TaskMutation} {s : Session} {r : Task} {row : AssetRuntime} {c : CommandDefinition}
    {e : CommandManifestEntry} (hid : ∀ s, validateTaskID id s = .ok ((), s))
    (hr : findTask s.db (trimSpace id) = some r)
    (hterminal : (allow && taskTerminal r.status) = false)
    (hrow : findAssetRuntime s.db r.assetID = some row) (hready : row.ready = true)
    (hruntime : row.runtimeID = r.runtimeID)
    (hcaller : caller = "" ∨ trimSpace caller = row.runtimeID)
    (hc : env.command r.command = some c) (he : manifestEntry row.manifest r.command = some e)
    (hpre : pre r c e row.manifest s = .ok ((), s))
    (hmutate : ∀ now, mutate r c e now = .ok (false, r)) :
    ∃ s', withTaskTransition env id caller allow pre mutate s = .ok (r, s') ∧ s'.db = s.db := by
  refine ⟨{ s with readings := fun n => s.readings (n + 1) }, ?_, rfl⟩
  refine bind_ok.2 ⟨(), s, hid s, bind_ok.2 ⟨r, s, readTask_ok.2 ⟨hr, rfl⟩, ?_⟩⟩
  dsimp only
  rw [hterminal]
  refine bind_ok.2 ⟨row.manifest, s, lockCurrentRuntimeManifest_iff.2
    ⟨row, hrow, hready, hruntime, hcaller, rfl, rfl⟩, ?_⟩
  refine bind_ok.2 ⟨r, s, readTask_ok.2 ⟨hr, rfl⟩, ?_⟩
  refine bind_ok.2 ⟨c, s, by rw [storedCommandDefinition, hc]; rfl, ?_⟩
  rw [he]
  refine bind_ok.2 ⟨(), s, hpre, bind_ok.2 ⟨_, _, clockTimestamp_reads s, ?_⟩⟩
  exact bind_ok.2 ⟨(false, r), _, check_ok.2 ⟨hmutate _, rfl⟩, rfl⟩

/-- A call that succeeded is answered again from the state it left, and changes nothing. -/
theorem withTaskTransition_retry {id caller : String} {allow : Bool} {pre : TaskPrecondition}
    {mutate : TaskMutation}
    (hretry : Retriable env allow pre mutate) {s s' : Session} {a : Task}
    (h : withTaskTransition env id caller allow pre mutate s = .ok (a, s')) :
    findTask s'.db a.taskID = some a ∧ ∀ (s₂ : Session) (r : Task),
      findTask s₂.db a.taskID = some r → StoredAs env a r →
      (a.status.nonterminal = true →
        findAssetRuntime s₂.db a.assetID = findAssetRuntime s.db a.assetID) →
      ∃ s₃, withTaskTransition env id caller allow pre mutate s₂ = .ok (r, s₃) ∧ s₃.db = s₂.db := by
  have := hretry.readOnly
  obtain ⟨hid, t, ht, ⟨hterminal, hcaller, hmutate, hs'⟩ | ⟨hterminal, row, c, e, sp, now, answer,
    hrow, hready, hruntime, hcaller, hc, he, hpre, hmutate, hanswer⟩⟩ := withTaskTransition_cases h
  · rw [Bool.and_eq_true] at hterminal
    obtain ⟨rfl, hterminal⟩ := hterminal
    obtain ⟨-, rfl⟩ | ⟨hchanged, -⟩ := hretry.same hmutate
    · refine ⟨by rw [hs', findTask_id ht, ht], fun s₂ r hr hstored _ => ⟨s₂, ?_, rfl⟩⟩
      have hshows := hstored.shows
      rw [findTask_id ht] at hr
      rw [← hshows.status] at hterminal
      refine retry_terminal hid hr hterminal (hshows.runtimeID ▸ hcaller) ?_
      exact (hretry.repeats hmutate hshows).1 (nonterminal_eq_false_iff.2 hterminal)
    · cases hchanged
  · -- What the call answered, and what a row of it shows of the Task before.
    have hleft : findTask s'.db (trimSpace id) = some a ∧ a.taskID = trimSpace id ∧
        (∀ r, StoredAs env a r → Shows env answer.2 r) ∧ Same t answer.2 := by
      rcases hanswer with ⟨hsame, ha, hs'⟩ | ⟨hchanged, s₁, hs₁, hpersist⟩
      · obtain ⟨-, ht'⟩ | ⟨hchanged, -⟩ := hretry.same hmutate
        · rw [ha, hs', ht']
          exact ⟨ht, findTask_id ht, fun r hr => hr.shows, .refl t⟩
        · rw [hsame] at hchanged
          cases hchanged
      · obtain ⟨hsame, -⟩ | ⟨-, -, hsame⟩ := hretry.same hmutate
        · rw [hsame] at hchanged
          cases hchanged
        · obtain ⟨stored, updatedAt, version, hstored, ha, hfound⟩ := persistTaskState_ok hpersist
          rw [hs₁, hsame.taskID, findTask_id ht, ht] at hstored
          rw [hsame.taskID, findTask_id ht] at hfound
          obtain rfl := Option.some.inj hstored
          refine ⟨hfound, findTask_id hfound, fun r hr => ?_, hsame⟩
          exact (ha ▸ hr.shows).of_under hsame
    obtain ⟨hfound, hnamed, hshown, hsame⟩ := hleft
    rw [hnamed]
    refine ⟨hfound, fun s₂ r hr hstored hcurrent => ?_⟩
    have hshows := hshown r hstored
    have hstatus := hstored.shows.status
    have hasset : r.assetID = t.assetID := hshows.assetID.trans hsame.assetID
    have hruntimeID : r.runtimeID = t.runtimeID := hshows.runtimeID.trans hsame.runtimeID
    have hcommand : r.command = t.command := hshows.command.trans hsame.command
    obtain ⟨hanytime, hagain⟩ := hretry.repeats hmutate hshows
    rcases hretries : allow && taskTerminal r.status with _ | _
    · have hnonterminal : r.status.nonterminal = true := by
        rcases hallow : allow with _ | _
        · rw [hshows.status]
          exact hretry.ends hallow hmutate
        · rw [hallow, Bool.true_and] at hretries
          exact nonterminal_iff.2 hretries
      have hrow₂ := hcurrent (hstatus ▸ hnonterminal)
      rw [← hstored.shows.assetID, hasset, hrow, ← hasset] at hrow₂
      exact retry_current hid hr hretries hrow₂ hready (hruntime.trans hruntimeID.symm) hcaller
        (hcommand ▸ hc) (hcommand ▸ he) (hretry.passes hpre hmutate hshows s₂) hagain
    · rw [Bool.and_eq_true] at hretries
      obtain ⟨rfl, hended⟩ := hretries
      rw [hruntime, ← hruntimeID] at hcaller
      exact ⟨s₂, retry_terminal hid hr hended hcaller
        (hanytime (nonterminal_eq_false_iff.2 hended)), rfl⟩

/-- On a terminal Task no call changes anything. -/
theorem withTaskTransition_terminal {id caller : String} {allow : Bool} {pre : TaskPrecondition}
    {mutate : TaskMutation}
    (hretry : Retriable env allow pre mutate) {s s' : Session} {a r : Task}
    (hr : findTask s.db (trimSpace id) = some r) (hterminal : r.status.nonterminal = false)
    (h : withTaskTransition env id caller allow pre mutate s = .ok (a, s')) :
    a = r ∧ s'.db = s.db := by
  have := hretry.readOnly
  obtain ⟨-, t, ht, ⟨-, -, hmutate, hs'⟩ | ⟨-, row, c, e, sp, now, answer, -, -, -, -, -, -, -,
    hmutate, hanswer⟩⟩ := withTaskTransition_cases h
  all_goals obtain rfl := Option.some.inj (hr.symm.trans ht)
  · obtain ⟨-, ha⟩ | ⟨hchanged, -⟩ := hretry.same hmutate
    · exact ⟨ha, by rw [hs']⟩
    · cases hchanged
  · obtain ⟨hsame, ha⟩ | ⟨-, hnonterminal, -⟩ := hretry.same hmutate
    · rcases hanswer with ⟨-, ha', hs'⟩ | ⟨hchanged, -⟩
      · exact ⟨ha'.trans ha, hs'⟩
      · rw [hsame] at hchanged
        cases hchanged
    · rw [hterminal] at hnonterminal
      cases hnonterminal

theorem require_bind_iff {α : Type} {p : Bool} {e : ActionError} {m : CoreTx α} {a : α}
    {s s' : Session} :
    (require p e >>= fun _ => m) s = .ok (a, s') ↔ p = true ∧ m s = .ok (a, s') := by
  constructor
  · intro h
    obtain ⟨_, s₁, h₁, h⟩ := bind_ok.1 h
    obtain ⟨hp, hs₁⟩ := require_ok.1 h₁
    rw [hs₁] at h
    exact ⟨hp, h⟩
  · rintro ⟨hp, h⟩
    exact bind_ok.2 ⟨(), s, require_ok.2 ⟨hp, rfl⟩, h⟩

/-- The Task a call names. -/
def LifecycleCall.taskID : LifecycleCall → String
  | .acknowledge taskID _ => taskID
  | .start taskID _ => taskID
  | .progress taskID _ _ => taskID
  | .complete taskID _ _ => taskID
  | .fail taskID _ _ => taskID
  | .cancel taskID _ => taskID

/-- Each call checks its arguments, and is a transition that can be retried. -/
theorem LifecycleCall.run_iff (hrefl : ∀ a, env.jsonEqual a a = true)
    (htrans : ∀ a b c, env.jsonEqual a b = true → env.jsonEqual b c = true →
      env.jsonEqual a c = true) (op : LifecycleCall) :
    ∃ caller allow pre mutate, Retriable env allow pre mutate ∧ ∃ p : Prop, ∀ s a s',
      op.run env s = .ok (a, s') ↔
        p ∧ withTaskTransition env op.taskID caller allow pre mutate s = .ok (a, s') := by
  cases op with
  | acknowledge taskID runtimeID =>
    refine ⟨runtimeID, false, requireAcknowledgeOrder env, acknowledgeTask, ?_, _,
      fun s a s' => require_bind_iff⟩
    refine ⟨inferInstance, acknowledgeTask_repeats, requireAcknowledgeOrder_passes,
      acknowledgeTask_moving.same, fun _ _ _ _ _ _ h => ?_⟩
    rw [(acknowledgeTask_answer h).2]
    rfl
  | start taskID runtimeID =>
    refine ⟨runtimeID, true, requireStartOrder env, startTask, ?_, _,
      fun s a s' => require_bind_iff⟩
    exact ⟨inferInstance, startTask_repeats, requireStartOrder_passes, startTask_moving.same,
      fun h => by cases h⟩
  | progress taskID runtimeID value =>
    refine ⟨runtimeID, false, noPrecondition, progressTask value, ?_, _,
      fun s a s' => require_bind_iff⟩
    refine ⟨inferInstance, progressTask_repeats value, noPrecondition_passes _,
      (progressTask_moving value).same, fun _ _ _ _ _ _ h => ?_⟩
    unfold progressTask at h
    split_ifs at h with hrunning
    all_goals
      obtain rfl := Except.ok.inj h
      show TaskStatus.nonterminal _ = true
      rw [not_not.1 hrunning]
      rfl
  | complete taskID runtimeID output =>
    refine ⟨runtimeID, true, noPrecondition, completeTask env output, ?_, _,
      fun s a s' => require_bind_iff⟩
    exact ⟨inferInstance, completeTask_repeats htrans hrefl output, noPrecondition_passes _,
      (completeTask_moving env output).same, fun h => by cases h⟩
  | fail taskID runtimeID failure =>
    refine ⟨runtimeID, true, noPrecondition, failTask failure, ?_, _, fun s a s' =>
      require_bind_iff.trans ((and_congr_right fun _ => require_bind_iff).trans and_assoc.symm)⟩
    exact ⟨inferInstance, failTask_repeats failure, noPrecondition_passes _,
      (failTask_moving failure).same, fun h => by cases h⟩
  | cancel taskID cancellation =>
    refine ⟨"", true, noPrecondition, cancelTask cancellation, ?_, _,
      fun s a s' => require_bind_iff⟩
    exact ⟨inferInstance, cancelTask_repeats cancellation, noPrecondition_passes _,
      (cancelTask_moving cancellation).same, fun h => by cases h⟩

/-- A call that succeeded is answered again by the Task it left and changes nothing, after its
runtime was replaced also if it ended the Task; and no call changes a Task that ended. -/
theorem exact_retries (hrefl : ∀ a, env.jsonEqual a a = true)
    (htrans : ∀ a b c, env.jsonEqual a b = true → env.jsonEqual b c = true →
      env.jsonEqual a c = true) (op : LifecycleCall) :
    (∀ s t s', op.run env s = .ok (t, s') → findTask s'.db t.taskID = some t ∧
      ∀ (later : Session) (r : Task), findTask later.db t.taskID = some r → StoredAs env t r →
        (t.status.nonterminal = true →
          findAssetRuntime later.db t.assetID = findAssetRuntime s.db t.assetID) →
        ∃ s₃, op.run env later = .ok (r, s₃) ∧ s₃.db = later.db) ∧
    ∀ s r, findTask s.db (trimSpace op.taskID) = some r → r.status.nonterminal = false →
      ∀ t s', op.run env s = .ok (t, s') → t = r ∧ s'.db = s.db := by
  obtain ⟨caller, allow, pre, mutate, hretry, p, hrun⟩ := op.run_iff hrefl htrans
  refine ⟨fun s t s' h => ?_, fun s r hr hterminal t s' h => ?_⟩
  · obtain ⟨hp, h⟩ := (hrun s t s').1 h
    obtain ⟨hfound, hagain⟩ := withTaskTransition_retry hretry h
    refine ⟨hfound, fun later r hr hstored hcurrent => ?_⟩
    obtain ⟨s₃, h₃, hdb⟩ := hagain later r hr hstored hcurrent
    exact ⟨s₃, (hrun later r s₃).2 ⟨hp, h₃⟩, hdb⟩
  · exact withTaskTransition_terminal hretry hr hterminal ((hrun s t s').1 h).2

/-- A Start a minute too late fails the Task, and is answered by the failed Task from then on. -/
theorem exact_retries_timeout :
    ∃ t s' s₃, (LifecycleCall.start "task-1" "r").run plainEnv
        ⟨readyAsset.db, fun _ => immediateStartWindow⟩ = .ok (t, s') ∧
      t.status = .failed ∧
      (LifecycleCall.start "task-1" "r").run plainEnv ⟨s'.db, fun _ => 0⟩ = .ok (t, s₃) ∧
      s₃.db = s'.db := by
  have hfails : (match (LifecycleCall.start "task-1" "r").run plainEnv
      ⟨readyAsset.db, fun _ => immediateStartWindow⟩ with
    | .ok (t, _) => decide (t.status = .failed)
    | .error _ => false) = true := by decide +kernel
  rcases hrun : (LifecycleCall.start "task-1" "r").run plainEnv
      ⟨readyAsset.db, fun _ => immediateStartWindow⟩ with e | ⟨t, s'⟩
  · rw [hrun] at hfails
    cases hfails
  · rw [hrun] at hfails
    have hstatus : t.status = .failed := of_decide_eq_true hfails
    have hrefl : ∀ a, plainEnv.jsonEqual a a = true := fun a => decide_eq_true rfl
    obtain ⟨hfound, hagain⟩ := (exact_retries hrefl (fun a b c h h' =>
      decide_eq_true ((of_decide_eq_true h).trans (of_decide_eq_true h'))) _).1 _ _ _ hrun
    have hsame : ∀ a : Option String, SameJSON plainEnv a a := fun a => by
      cases a
      · rfl
      · exact hrefl _
    obtain ⟨s₃, h₃, hdb⟩ := hagain ⟨s'.db, fun _ => 0⟩ t hfound
      ⟨hrefl _, hsame _, by
        cases t.completionAttempt
        · exact .none
        · exact .some (hsame _), rfl⟩
      fun hnonterminal => by
        rw [hstatus] at hnonterminal
        cases hnonterminal
    exact ⟨t, s', s₃, rfl, hstatus, h₃, hdb⟩

end Calls

end Atlas.Core
