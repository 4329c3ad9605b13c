import Atlas.Proofs.TaskMoves

/-!
# The lifecycle of a Task

What every Task a run of Core reaches looks like (`Task.Consistent`), how it may differ after one
step (`Follows`) and after any number of them (`Grown`).
-/

namespace Atlas.Core

open Transaction Fence

/-- The fields of a Task agree with its status. -/
structure Task.Consistent (t : Task) : Prop where
  pending : t.status = .pending → t.acknowledgedAt = none ∧ t.startedAt = none
  acknowledged : t.status = .acknowledged → t.acknowledgedAt ≠ none ∧ t.startedAt = none
  started : t.status = .inProgress ∨ t.status = .completed →
    t.acknowledgedAt ≠ none ∧ t.startedAt ≠ none
  acknowledged_first : t.startedAt ≠ none → t.acknowledgedAt ≠ none
  finished : t.finishedAt ≠ none ↔ t.status.nonterminal = false
  output : t.output ≠ none → t.status = .completed
  failure : t.failure ≠ none ↔ t.status = .failed
  cancellation : t.cancellation ≠ none ↔ t.status = .cancelled
  attempt : t.completionAttempt ≠ none →
    t.status = .failed ∧ ∃ message, t.failure = some ⟨.invalidOutput, message⟩
  progress : ∀ p, t.progress = some p → 0 ≤ p ∧ p ≤ 1 ∧ t.startedAt ≠ none

/-- The steps of a status; the last one is for immediate Commands alone. -/
def TaskStatus.Next (immediate : Prop) (status status' : TaskStatus) : Prop :=
  status = .pending ∧ status' = .acknowledged
  ∨ status = .acknowledged ∧ status' = .inProgress
  ∨ status = .inProgress ∧ status' = .completed
  ∨ status.nonterminal = true ∧ (status' = .failed ∨ status' = .cancelled)
  ∨ immediate ∧ status = .pending ∧ status' = .inProgress

/-- A Task before and after one step. -/
structure Follows (immediate : Prop) (t t' : Task) : Prop where
  same : Same t t'
  status : t'.status = t.status ∨ t.status.Next immediate t'.status
  terminal : t.status.nonterminal = false → t' = t
  acknowledgedAt :
    if t.status = .pending ∧ (t'.status = .acknowledged ∨ t'.status = .inProgress) then
      t'.acknowledgedAt ≠ none
    else t'.acknowledgedAt = t.acknowledgedAt
  startedAt :
    if t.status ≠ .inProgress ∧ t'.status = .inProgress then t'.startedAt ≠ none
    else t'.startedAt = t.startedAt
  together : t.status = .pending → t'.status = .inProgress → t'.acknowledgedAt = t'.startedAt
  finishedAt :
    if t.status.nonterminal = true ∧ t'.status.nonterminal = false then t'.finishedAt ≠ none
    else t'.finishedAt = t.finishedAt
  progress : t'.progress = t.progress
    ∨ t.status = .inProgress ∧ t'.status = .inProgress
      ∧ ∃ p, t'.progress = some p ∧ ∀ q, t.progress = some q → q ≤ p

section Task

variable {s : Option CommandScheduling} {t t' t'' : Task}

theorem Blank.consistent (h : Blank t) : t.Consistent := by
  constructor <;> simp [h.status, h.progress, h.output, h.completionAttempt, h.failure,
    h.cancellation, h.acknowledgedAt, h.startedAt, h.finishedAt, TaskStatus.nonterminal]

/-- A Task that may still move has none of the fields its end sets. -/
theorem Task.Consistent.open (h : t.Consistent) (hn : t.status.nonterminal = true) :
    t.finishedAt = none ∧ t.output = none ∧ t.failure = none ∧ t.cancellation = none
      ∧ t.completionAttempt = none := by
  have hfinished := h.finished
  have houtput := h.output
  have hfailure := h.failure
  have hcancellation := h.cancellation
  have hattempt := h.attempt
  cases hs : t.status <;> rw [hs] at hn <;> simp_all [TaskStatus.nonterminal]

theorem Task.Consistent.stamp (h : t.Consistent) (updatedAt : Time) (version : ℕ) :
    (t.stamp updatedAt version).Consistent :=
  ⟨h.pending, h.acknowledged, h.started, h.acknowledged_first, h.finished, h.output, h.failure,
    h.cancellation, h.attempt, h.progress⟩

theorem TaskEnd.consistent (h : TaskEnd t t') (hc : t.Consistent) : t'.Consistent := by
  obtain ⟨hfinished, houtput, hfailure, hcancellation, hattempt⟩ := hc.open h.nonterminal.1
  have hfirst := hc.acknowledged_first
  have hprogress := hc.progress
  cases h <;> constructor <;> simp_all [TaskStatus.nonterminal]

theorem TaskMove.consistent (h : TaskMove s t t') (hc : t.Consistent) : t'.Consistent := by
  obtain ⟨hfinished, houtput, hfailure, hcancellation, hattempt⟩ := hc.open h.nonterminal
  have hpending := hc.pending
  have hacknowledged := hc.acknowledged
  have hstarted := hc.started
  have hfirst := hc.acknowledged_first
  have hprogress := hc.progress
  cases h with
  | ends h => exact h.consistent hc
  | _ => constructor <;> simp_all [TaskStatus.nonterminal]

theorem Follows.refl (immediate : Prop) (t : Task) : Follows immediate t t := by
  refine ⟨.refl t, .inl rfl, fun _ => rfl, ?_, ?_, fun hp hr => ?_, ?_, .inl rfl⟩
  · rw [if_neg]
    rintro ⟨hp, h⟩
    rw [hp] at h
    exact absurd h (by decide)
  · rw [if_neg]
    exact fun h => h.1 h.2
  · rw [hp] at hr
    exact absurd hr (by decide)
  · rw [if_neg]
    rintro ⟨hn, h⟩
    rw [hn] at h
    exact absurd h (by decide)

theorem Follows.stamp {immediate : Prop} (h : Follows immediate t t')
    (hn : t.status.nonterminal = true) (updatedAt : Time) (version : ℕ) :
    Follows immediate t (t'.stamp updatedAt version) :=
  ⟨h.same.stamp updatedAt version, h.status, fun hf => absurd (hn.symm.trans hf) (by decide),
    h.acknowledgedAt, h.startedAt, h.together, h.finishedAt, h.progress⟩

theorem TaskEnd.follows (h : TaskEnd t t') (immediate : Prop) : Follows immediate t t' := by
  have hn := h.nonterminal.1
  have hsame := h.same
  cases h <;> exact
    ⟨hsame, .inr (.inr (.inr (.inr (.inl ⟨hn, by simp⟩)))), fun hf => by simp [hn] at hf, by simp,
      by simp, by simp, by rw [if_pos ⟨hn, rfl⟩]; exact Option.some_ne_none _, .inl rfl⟩

theorem TaskMove.follows (h : TaskMove s t t') : Follows (s = some .immediate) t t' := by
  have hn := h.nonterminal
  have hsame := h.same
  cases h with
  | ends h => exact h.follows _
  | progress p h h0 h1 hle =>
    refine ⟨hsame, .inl rfl, fun hf => by simp [hn] at hf, by simp [h], by simp [h], by simp [h],
      by simp [h, TaskStatus.nonterminal], .inr ⟨h, h, p, rfl, hle⟩⟩
  | _ =>
    refine ⟨hsame, .inr ?_, fun hf => by simp [hn] at hf, ?_, ?_, ?_, ?_, .inl rfl⟩ <;>
      simp_all [TaskStatus.Next, TaskStatus.nonterminal]

theorem Ended.follows (h : Ended t t') (immediate : Prop) : Follows immediate t t' := by
  obtain ⟨task, updatedAt, version, hend, rfl⟩ := h
  exact (hend.follows immediate).stamp hend.nonterminal.1 updatedAt version

theorem Ended.consistent (h : Ended t t') (hc : t.Consistent) : t'.Consistent := by
  obtain ⟨task, updatedAt, version, hend, rfl⟩ := h
  exact (hend.consistent hc).stamp updatedAt version

end Task

/-! ## The table -/

/-- The Task's Command is immediate for the ready runtime of its Asset. -/
def Immediate (env : Env) (f : Fence) (t : Task) : Prop :=
  ∃ row, Serves f row t ∧ schedulingOf env row.manifest t.command = some .immediate

/-- A step changes each Task in its place, and adds new ones. -/
structure Carries (env : Env) (f f' : Fence) (u : Task → Task) (new : List Task) : Prop where
  tasks : f'.tasks = f.tasks.map u ++ new
  follows : ∀ t ∈ f.tasks, Follows (Immediate env f t) t (u t)
  consistent : ∀ t ∈ f.tasks, t.Consistent → (u t).Consistent
  blank : ∀ t ∈ new, Blank t

theorem Carries.same {env : Env} {f f' : Fence} (h : f'.tasks = f.tasks) :
    Carries env f f' id [] :=
  ⟨by simp [h], fun t _ => .refl _ t, fun _ _ hc => hc, fun _ ht => absurd ht List.not_mem_nil⟩

theorem EndsOf.follows {p : Task → Prop} {f : Fence} {u : Task → Task} (h : EndsOf p f u) {t : Task}
    (ht : t ∈ f.tasks) (immediate : Prop) :
    Follows immediate t (u t) ∧ (t.Consistent → (u t).Consistent) := by
  by_cases hp : p t
  · have hend := (h t ht).1 hp
    exact ⟨hend.follows immediate, hend.consistent⟩
  · rw [(h t ht).2 hp]
    exact ⟨.refl _ t, id⟩

theorem LedgerStep.carries {env : Env} {now : Time} {f f' : Fence} (hI : f.Inv)
    (h : LedgerStep env now f f') : ∃ u new, Carries env f f' u new := by
  cases h with
  | moved row t t' updatedAt version hs ht hm ho =>
    have hid : (t'.stamp updatedAt version).taskID = t.taskID := hm.same.taskID
    refine ⟨_, [], (List.append_nil _).symm, fun x hx => ?_, fun x hx hc => ?_,
      fun _ h => absurd h List.not_mem_nil⟩
    · split
      · rename_i hx'
        obtain rfl := hI.task_eq hx ht (hx'.trans hid)
        have hf := hm.follows.stamp hm.nonterminal updatedAt version
        exact { hf with
          status := hf.status.imp_right fun h => h.imp_right <| .imp_right <| .imp_right <|
            .imp_right fun h => ⟨⟨row, hs, h.1⟩, h.2⟩ }
      · exact .refl _ x
    · split
      · rename_i hx'
        obtain rfl := hI.task_eq hx ht (hx'.trans hid)
        exact (hm.consistent hc).stamp updatedAt version
      · exact hc
  | ended p u h =>
    exact ⟨u, [], (List.append_nil _).symm, fun t ht => (h.follows ht _).1,
      fun t ht => (h.follows ht True).2, fun _ h => absurd h List.not_mem_nil⟩
  | created row u task hs hsched hreq h =>
    refine ⟨u, [task], rfl, fun t ht => (h.ends.follows ht _).1,
      fun t ht => (h.ends.follows ht True).2, fun t ht => ?_⟩
    rw [List.mem_singleton.1 ht]
    exact h.blank
  | _ => exact ⟨id, [], .same rfl⟩

/-! ## Runs -/

/-- How far a status is. -/
def TaskStatus.rank : TaskStatus → ℕ
  | .pending => 0
  | .acknowledged => 1
  | .inProgress => 2
  | .completed | .failed | .cancelled => 3

/-- A Task and the same Task later. -/
structure Grown (t t' : Task) : Prop where
  same : Same t t'
  terminal : t.status.nonterminal = false → t' = t
  rank : t.status.rank ≤ t'.status.rank
  acknowledgedAt : t.acknowledgedAt ≠ none → t'.acknowledgedAt = t.acknowledgedAt
  startedAt : t.startedAt ≠ none → t'.startedAt = t.startedAt
  finishedAt : t.finishedAt ≠ none → t'.finishedAt = t.finishedAt
  progress : ∀ q, t.progress = some q → ∃ p, t'.progress = some p ∧ q ≤ p

theorem Grown.trans {t t' t'' : Task} (h : Grown t t') (h' : Grown t' t'') : Grown t t'' := by
  refine ⟨h.same.trans h'.same, fun hn => ?_, h.rank.trans h'.rank, fun hs => ?_, fun hs => ?_,
    fun hs => ?_, fun q hq => ?_⟩
  · obtain rfl := h.terminal hn
    exact h'.terminal hn
  · rw [h'.acknowledgedAt (by rwa [h.acknowledgedAt hs]), h.acknowledgedAt hs]
  · rw [h'.startedAt (by rwa [h.startedAt hs]), h.startedAt hs]
  · rw [h'.finishedAt (by rwa [h.finishedAt hs]), h.finishedAt hs]
  · obtain ⟨p, hp, hqp⟩ := h.progress q hq
    obtain ⟨r, hr, hpr⟩ := h'.progress p hp
    exact ⟨r, hr, hqp.trans hpr⟩

theorem TaskStatus.Next.rank {immediate : Prop} {status status' : TaskStatus}
    (h : status.Next immediate status') : status.rank < status'.rank := by
  rcases h with ⟨rfl, rfl⟩ | ⟨rfl, rfl⟩ | ⟨rfl, rfl⟩ | ⟨hn, rfl | rfl⟩ | ⟨-, rfl, rfl⟩
  all_goals first
    | decide
    | (revert hn; cases status <;> decide)

/-- What a step sets was not set before, so nothing is rewritten. -/
theorem Follows.grown {immediate : Prop} {t t' : Task} (h : Follows immediate t t')
    (hc : t.Consistent) : Grown t t' := by
  refine ⟨h.same, h.terminal, ?_, fun hs => ?_, fun hs => ?_, fun hs => ?_, fun q hq => ?_⟩
  · rcases h.status with hst | hst
    · rw [hst]
    · exact hst.rank.le
  · have hack := h.acknowledgedAt
    rw [if_neg fun hp => hs (hc.pending hp.1).1] at hack
    exact hack
  · have hstart := h.startedAt
    rw [if_neg] at hstart
    · exact hstart
    · rintro ⟨hne, hrun⟩
      rcases h.status with hst | hst
      · exact hne (hst ▸ hrun)
      · rcases hst with ⟨hp, -⟩ | ⟨ha, -⟩ | ⟨hr, -⟩ | ⟨-, hf | hf⟩ | ⟨-, hp, -⟩
        · exact hs (hc.pending hp).2
        · exact hs (hc.acknowledged ha).2
        · exact hne hr
        · rw [hf] at hrun
          exact absurd hrun (by decide)
        · rw [hf] at hrun
          exact absurd hrun (by decide)
        · exact hs (hc.pending hp).2
  · have hfinish := h.finishedAt
    rw [if_neg] at hfinish
    · exact hfinish
    · rintro ⟨hn, -⟩
      exact absurd (hn.symm.trans (hc.finished.1 hs)) (by decide)
  · rcases h.progress with hp | ⟨-, -, p, hp, hle⟩
    · exact ⟨q, hp.trans hq, le_rfl⟩
    · exact ⟨p, hp, hle q hq⟩

theorem Grown.refl (t : Task) : Grown t t :=
  ⟨.refl t, fun _ => rfl, le_rfl, fun _ => rfl, fun _ => rfl, fun _ => rfl,
    fun q hq => ⟨q, hq, le_rfl⟩⟩

variable (env : Env)

theorem step_consistent {s : System} (h : SystemInv s) (hc : ∀ t ∈ s.db.tasks, t.Consistent)
    (e : Event) : ∀ t ∈ (s.step env e).db.tasks, t.Consistent := by
  obtain ⟨u, new, hcarries⟩ := (step_ledger env h e).carries h.fence
  intro t ht
  have ht : t ∈ (s.step env e).db.fence.tasks := ht
  rw [hcarries.tasks] at ht
  rcases List.mem_append.1 ht with ht | ht
  · obtain ⟨x, hx, rfl⟩ := List.mem_map.1 ht
    exact hcarries.consistent x hx (hc x hx)
  · exact (hcarries.blank t ht).consistent

theorem run_consistent {s u : System} (hs : SystemInv s) (hc : ∀ t ∈ s.db.tasks, t.Consistent)
    (h : Runs (System.step env) s u) : SystemInv u ∧ ∀ t ∈ u.db.tasks, t.Consistent :=
  h.invariant _ (I := fun u => SystemInv u ∧ ∀ t ∈ u.db.tasks, t.Consistent)
    (fun v e hv => ⟨step_systemInv env v e hv.1, step_consistent env hv.1 hv.2 e⟩) ⟨hs, hc⟩

theorem run_grown {s u : System} (hs : SystemInv s) (hc : ∀ t ∈ s.db.tasks, t.Consistent)
    (h : Runs (System.step env) s u) {t : Task} (ht : t ∈ s.db.tasks) :
    ∃ t' ∈ u.db.tasks, Grown t t' := by
  refine (h.invariant _ (I := fun u => (SystemInv u ∧ ∀ t ∈ u.db.tasks, t.Consistent)
    ∧ ∃ t' ∈ u.db.tasks, Grown t t') ?_ ⟨⟨hs, hc⟩, t, ht, .refl t⟩).2
  rintro v e ⟨⟨hv, hcv⟩, x, hx, hgrown⟩
  refine ⟨⟨step_systemInv env v e hv, step_consistent env hv hcv e⟩, ?_⟩
  obtain ⟨f, new, hcarries⟩ := (step_ledger env hv e).carries hv.fence
  refine ⟨f x, ?_, hgrown.trans ((hcarries.follows x hx).grown (hcv x hx))⟩
  have hin : f x ∈ (v.step env e).db.fence.tasks := by
    rw [hcarries.tasks]
    exact List.mem_append_left _ (List.mem_map_of_mem hx)
  exact hin

/-- In every state Core reaches each Task's fields agree with its status; a step leaves each Task in
place, changed only as `Follows` says, and adds blank ones; and over any run a Task only grows: once
terminal it stays as it is. -/
theorem task_lifecycle {s : System} (hs : Reachable env s) :
    (∀ t ∈ s.db.tasks, t.Consistent)
    ∧ (∀ e, ∃ u new, (s.step env e).db.tasks = s.db.tasks.map u ++ new
        ∧ (∀ t ∈ s.db.tasks, Follows (Immediate env s.db.fence t) t (u t)) ∧ ∀ t ∈ new, Blank t)
    ∧ ∀ v, Runs (System.step env) s v → ∀ t ∈ s.db.tasks, ∃ t' ∈ v.db.tasks, Grown t t' := by
  have hI := reachable_systemInv env hs
  have hc := (run_consistent env initial_systemInv (fun _ ht => absurd ht List.not_mem_nil) hs).2
  refine ⟨hc, fun e => ?_, fun v hv t ht => run_grown env hI hc hv ht⟩
  obtain ⟨u, new, h⟩ := (step_ledger env hI e).carries hI.fence
  exact ⟨u, new, h.tasks, h.follows, h.blank⟩

/-- The Task of a stopping runtime, failed by the drain. -/
theorem task_lifecycle_stoppingAsset :
    Reachable plainEnv stoppingAsset
    ∧ ∃ t ∈ stoppingAsset.db.tasks,
      ∃ t' ∈ (stoppingAsset.step plainEnv (.advance 1 fun _ => 0)).db.tasks,
      t.status = .pending ∧ Grown t t' := by
  refine ⟨stoppingAsset_reachable, ?_⟩
  obtain ⟨t, ht, hst⟩ : ∃ t ∈ stoppingAsset.db.tasks, t.status = .pending := by
    decide +kernel
  obtain ⟨t', ht', hgrown⟩ := (task_lifecycle plainEnv stoppingAsset_reachable).2.2 _
    (.tail (.advance 1 fun _ => 0) (.refl _)) t ht
  exact ⟨t, ht, t', ht', hst, hgrown⟩

end Atlas.Core
