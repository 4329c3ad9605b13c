import Atlas.Proofs.TaskMoves

/-!
# The order of scheduled Tasks

A runtime's manifest is fixed once it is ready, so the scheduling of its Tasks can be spoken of in
every later state (`Pinned`). Of its queued Tasks at most one is in progress, and a Task is
acknowledged or started only in its turn.
-/

namespace Atlas.Core

open Transaction Fence

/-- The Task is bound to this runtime. -/
def BoundTo (a r : String) (t : Task) : Prop := t.assetID = a ∧ t.runtimeID = r

/-- The runtime was ready with this manifest, and may have stopped or been replaced since. -/
structure Pinned (env : Env) (f : Fence) (a r : String) (manifest : CommandManifest) : Prop where
  installed : f.Installed a r
  fixed : ∀ row ∈ f.runtimes, row.assetID = a → row.runtimeID = r →
    row.stopped = true ∨ row.ready = true ∧ row.manifest = manifest
  advertised : ∀ t ∈ f.tasks, BoundTo a r t → schedulingOf env manifest t.command ≠ none
  single : ∀ t ∈ f.tasks, ∀ t' ∈ f.tasks, BoundTo a r t → BoundTo a r t' →
    t.status = .inProgress → t'.status = .inProgress →
    schedulingOf env manifest t.command = some .queued →
    schedulingOf env manifest t'.command = some .queued → t = t'

/-- Tasks belong to known runtimes, and none to one that was never ready. -/
structure Scheduled (env : Env) (f : Fence) : Prop where
  known : ∀ t ∈ f.tasks, f.Installed t.assetID t.runtimeID
  unborn : ∀ row ∈ f.runtimes, row.ready = false → row.stopped = false →
    ∀ t ∈ f.tasks, ¬ BoundTo row.assetID row.runtimeID t
  pinned : ∀ row ∈ f.runtimes, row.ready = true →
    Pinned env f row.assetID row.runtimeID row.manifest

section Steps

variable {env : Env} {now : Time} {f f' : Fence} {a r : String} {manifest : CommandManifest}

/-- The row in the place of a Task, or another Task as it was. -/
theorem mem_put {task x : Task} (h : x ∈ (f.put task).tasks) :
    x = task ∨ x ∈ f.tasks ∧ x.taskID ≠ task.taskID := by
  obtain ⟨y, hy, rfl⟩ := List.mem_map.1 h
  split
  · exact .inl rfl
  · exact .inr ⟨hy, ‹_›⟩

/-- A runtime that serves a Task of a pinned runtime has the pinned manifest. -/
theorem Pinned.manifest_eq (h : Pinned env f a r manifest) (hI : f.Inv) {row : AssetRuntime}
    {t : Task} (hs : Serves f row t) (hb : BoundTo a r t) : row.manifest = manifest := by
  rcases h.fixed row hs.mem (hs.asset.trans hb.1) (hs.runtime.trans hb.2) with hst | hm
  · exact absurd ((hI.stopped_idle row hs.mem hst).symm.trans hs.ready) Bool.false_ne_true
  · exact hm.2

/-- A step that leaves Tasks in place, ending some, puts none in progress. -/
theorem EndsOf.inProgress {p : Task → Prop} {u : Task → Task} (h : EndsOf p f u) {t : Task}
    (ht : t ∈ f.tasks) (hrun : (u t).status = .inProgress) : u t = t := by
  by_cases hp : p t
  · have hend := ((h t ht).1 hp).nonterminal.2
    rw [hrun] at hend
    exact absurd hend (by decide)
  · exact (h t ht).2 hp

theorem Pinned.ended (h : Pinned env f a r manifest) {p : Task → Prop} {u : Task → Task}
    (he : EndsOf p f u) : Pinned env { f with tasks := f.tasks.map u } a r manifest := by
  refine ⟨h.installed, h.fixed, fun t ht hb => ?_, fun t ht t' ht' hb hb' hrun hrun' hq hq' => ?_⟩
  · obtain ⟨x, hx, rfl⟩ := List.mem_map.1 ht
    have hsame := he.same hx
    rw [hsame.command]
    exact h.advertised x hx ⟨hsame.assetID.symm.trans hb.1, hsame.runtimeID.symm.trans hb.2⟩
  · obtain ⟨x, hx, rfl⟩ := List.mem_map.1 ht
    obtain ⟨x', hx', rfl⟩ := List.mem_map.1 ht'
    have hkept := he.inProgress hx hrun
    have hkept' := he.inProgress hx' hrun'
    rw [hkept] at hb hrun hq ⊢
    rw [hkept'] at hb' hrun' hq' ⊢
    exact h.single x hx x' hx' hb hb' hrun hrun' hq hq'

theorem Pinned.created (h : Pinned env f a r manifest) {task : Task} (hb : Blank task)
    (hs : BoundTo a r task → schedulingOf env manifest task.command ≠ none) :
    Pinned env { f with tasks := f.tasks ++ [task] } a r manifest := by
  refine ⟨h.installed, h.fixed, fun t ht hbound => ?_,
    fun t ht t' ht' hb₁ hb₂ hrun hrun' hq hq' => ?_⟩
  · rcases List.mem_append.1 ht with ht | ht
    · exact h.advertised t ht hbound
    · obtain rfl := List.mem_singleton.1 ht
      exact hs hbound
  · have hold : ∀ x ∈ f.tasks ++ [task], x.status = .inProgress → x ∈ f.tasks := by
      intro x hx hrun
      rcases List.mem_append.1 hx with hx | hx
      · exact hx
      · rw [List.mem_singleton.1 hx, hb.status] at hrun
        exact absurd hrun (by decide)
    exact h.single t (hold t ht hrun) t' (hold t' ht' hrun') hb₁ hb₂ hrun hrun' hq hq'

/-- A queued Task that a move leaves in progress is then the only one. -/
theorem InOrder.alone {t t' : Task} (hm : TaskMove (schedulingOf env manifest t.command) t t')
    (ho : InOrder env now f manifest t t') (hrun : t'.status = .inProgress)
    (hq : schedulingOf env manifest t.command = some .queued) {x : Task} (hx : x ∈ f.tasks)
    (hb : BoundTo t.assetID t.runtimeID x) (hrunx : x.status = .inProgress)
    (hqx : schedulingOf env manifest x.command = some .queued) : t.status = .inProgress := by
  have hn := hm.nonterminal
  cases hst : t.status with
  | inProgress => rfl
  | pending =>
    have himm := hm.scheduling.2.2 hst hrun
    rw [hq] at himm
    exact absurd himm (by decide)
  | acknowledged =>
    have himm := ho.started hst hrun x hx hb.1 hb.2 (.inl hrunx)
    rw [hqx] at himm
    exact absurd himm (by decide)
  | _ =>
    rw [hst] at hn
    exact absurd hn (by decide)

theorem Pinned.moved (h : Pinned env f a r manifest) (hI : f.Inv) {row : AssetRuntime}
    {t t' : Task} {updatedAt : Time} {version : ℕ} (hs : Serves f row t) (ht : t ∈ f.tasks)
    (hm : TaskMove (schedulingOf env row.manifest t.command) t t')
    (ho : InOrder env now f row.manifest t t') :
    Pinned env (f.put (t'.stamp updatedAt version)) a r manifest := by
  have hsame : Same t (t'.stamp updatedAt version) := hm.same.stamp updatedAt version
  have hback : ∀ x ∈ (f.put (t'.stamp updatedAt version)).tasks, ∃ y ∈ f.tasks, Same y x := by
    intro x hx
    rcases mem_put hx with rfl | ⟨hx, -⟩
    · exact ⟨t, ht, hsame⟩
    · exact ⟨x, hx, .refl x⟩
  -- If the moved Task is one of two, the other one was in progress before, so it moved alone.
  have hmoved : ∀ x ∈ f.tasks, x.taskID ≠ (t'.stamp updatedAt version).taskID →
      BoundTo a r (t'.stamp updatedAt version) → BoundTo a r x →
      (t'.stamp updatedAt version).status = .inProgress → x.status = .inProgress →
      schedulingOf env manifest (t'.stamp updatedAt version).command = some .queued →
      schedulingOf env manifest x.command = some .queued → False := by
    intro x hx hne hb hbx hrun hrunx hq hqx
    rw [hsame.command] at hq
    have hbt : BoundTo a r t := ⟨hsame.assetID.symm.trans hb.1, hsame.runtimeID.symm.trans hb.2⟩
    obtain rfl := h.manifest_eq hI hs hbt
    have hrunt := InOrder.alone hm ho hrun hq hx ⟨hbx.1.trans hbt.1.symm, hbx.2.trans hbt.2.symm⟩
      hrunx hqx
    have heq := h.single x hx t ht hbx hbt hrunx hrunt hqx hq
    exact hne (heq ▸ hsame.taskID.symm)
  refine ⟨h.installed, h.fixed, fun x hx hb => ?_, fun x hx y hy hb hb' hrun hrun' hq hq' => ?_⟩
  · obtain ⟨y, hy, hsame⟩ := hback x hx
    rw [hsame.command]
    exact h.advertised y hy ⟨hsame.assetID.symm.trans hb.1, hsame.runtimeID.symm.trans hb.2⟩
  · rcases mem_put hx with rfl | ⟨hx, hxne⟩ <;> rcases mem_put hy with rfl | ⟨hy, hyne⟩
    · rfl
    · exact (hmoved y hy hyne hb hb' hrun hrun' hq hq').elim
    · exact (hmoved x hx hxne hb' hb hrun' hrun hq' hq).elim
    · exact h.single x hx y hy hb hb' hrun hrun' hq hq'

/-- A change of the runtime rows alone. -/
theorem Pinned.rows (h : Pinned env f a r manifest) (ht : f'.tasks = f.tasks)
    (hi : f'.Installed a r)
    (hrows : ∀ row ∈ f'.runtimes, row.assetID = a → row.runtimeID = r →
      row.stopped = true ∨ row.ready = true ∧ row.manifest = manifest) :
    Pinned env f' a r manifest :=
  ⟨hi, hrows, ht ▸ h.advertised, ht ▸ h.single⟩

theorem LedgerStep.pinned (hI : f.Inv) (hs : LedgerStep env now f f')
    (h : Pinned env f a r manifest) : Pinned env f' a r manifest := by
  cases hs with
  | same => exact h
  | entity id => exact h.rows rfl h.installed h.fixed
  | moved row t t' updatedAt version hs ht hm ho => exact h.moved hI hs ht hm ho
  | ended p u he => exact h.ended he
  | created row u task hserves hsched hreq hc =>
    refine (h.ended hc.ends).created hc.blank fun hb => ?_
    rw [← h.manifest_eq hI hserves hb]
    exact hsched
  | install runtime hr =>
    refine h.rows rfl ?_ fun row hrow ha hrr => ?_
    · exact FenceStep.installed (.install runtime hr.new hr.not_ready hr.not_stopped hr.entity)
        h.installed
    · rcases mem_install.1 hrow with rfl | ⟨hrow, -⟩
      · obtain ⟨g, hg, -, hgr⟩ := h.installed
        exact absurd (hgr.trans hrr.symm) (hr.new g hg)
      · exact h.fixed row hrow ha hrr
  | stop a' r' hcur =>
    refine h.rows rfl (FenceStep.installed (.stop a' r' hcur) h.installed) fun row hrow ha hrr => ?_
    obtain ⟨x, hx, rfl⟩ := List.mem_map.1 hrow
    split
    · exact .inl rfl
    · rename_i hne
      rw [if_neg hne] at ha hrr
      exact h.fixed x hx ha hrr
  | makeReady a' r' manifest' readyAt hr =>
    refine h.rows rfl h.installed fun row hrow ha hrr => ?_
    obtain ⟨x, hx, rfl⟩ := List.mem_map.1 hrow
    split
    · rename_i heq
      rw [if_pos heq] at ha hrr
      -- A runtime that was ready has stopped or is still ready: it is not made ready again.
      obtain ⟨hstopped, hready⟩ := hr.row x hx heq
      rcases h.fixed x hx ha hrr with hst | hm
      · exact absurd (hst.symm.trans hstopped) (by decide)
      · exact absurd (hm.1.symm.trans hready) (by decide)
    · rename_i hne
      rw [if_neg hne] at ha hrr
      exact h.fixed x hx ha hrr
  | dropAsset a' hidle =>
    exact h.rows rfl h.installed fun row hrow => h.fixed row (List.mem_filter.1 hrow).1

/-- Every Task after a step was there before, on the same runtime, or was created for a ready one. -/
theorem LedgerStep.origin (hs : LedgerStep env now f f') {t : Task} (ht : t ∈ f'.tasks) :
    (∃ x ∈ f.tasks, Same x t) ∨ ∃ row, Serves f row t := by
  have hmap : ∀ {p : Task → Prop} {u : Task → Task}, EndsOf p f u → ∀ {x : Task}, x ∈ f.tasks.map u →
      ∃ y ∈ f.tasks, Same y x := by
    intro p u he x hx
    obtain ⟨y, hy, rfl⟩ := List.mem_map.1 hx
    exact ⟨y, hy, he.same hy⟩
  cases hs with
  | moved row t₀ t' updatedAt version hs ht₀ hm ho =>
    rcases mem_put ht with rfl | ⟨ht, -⟩
    · exact .inl ⟨t₀, ht₀, hm.same.stamp updatedAt version⟩
    · exact .inl ⟨t, ht, .refl t⟩
  | ended p u he => exact .inl (hmap he ht)
  | created row u task hserves hsched hreq hc =>
    rcases List.mem_append.1 ht with ht | ht
    · exact .inl (hmap hc.ends ht)
    · obtain rfl := List.mem_singleton.1 ht
      exact .inr ⟨row, hserves⟩
  | _ => exact .inl ⟨t, ht, .refl t⟩

/-- A step changes Tasks under fixed runtimes, or is one of the fence's on the runtimes. -/
theorem LedgerStep.runtimes (hs : LedgerStep env now f f') :
    (f'.runtimes = f.runtimes ∧ f'.generations = f.generations)
    ∨ f'.tasks = f.tasks ∧ FenceStep f f' := by
  cases hs with
  | install runtime h =>
    exact .inr ⟨rfl, .install runtime h.new h.not_ready h.not_stopped h.entity⟩
  | stop a r h => exact .inr ⟨rfl, .stop a r h⟩
  | makeReady a r manifest readyAt h =>
    exact .inr ⟨rfl, .makeReady a r manifest readyAt (fun row hrow hc => (h.row row hrow hc).1)
      h.drained⟩
  | dropAsset a h => exact .inr ⟨rfl, .dropAsset a h⟩
  | _ => exact .inl ⟨rfl, rfl⟩

theorem LedgerStep.known (hI : f.Inv) (hs : LedgerStep env now f f') (h : Scheduled env f) :
    ∀ t ∈ f'.tasks, f'.Installed t.assetID t.runtimeID := by
  intro t ht
  have hold : f.Installed t.assetID t.runtimeID := by
    rcases hs.origin ht with ⟨x, hx, hsame⟩ | ⟨row, hserves⟩
    · rw [hsame.assetID, hsame.runtimeID]
      exact h.known x hx
    · exact ⟨_, hI.registered row hserves.mem, hserves.asset, hserves.runtime⟩
  rcases hs.runtimes with ⟨-, hg⟩ | ⟨-, hf⟩
  · unfold Installed
    rwa [hg]
  · exact FenceStep.installed hf hold

theorem LedgerStep.unborn (hI : f.Inv) (hs : LedgerStep env now f f') (h : Scheduled env f) :
    ∀ row ∈ f'.runtimes, row.ready = false → row.stopped = false →
      ∀ t ∈ f'.tasks, ¬ BoundTo row.assetID row.runtimeID t := by
  intro row hrow hready hstopped t ht hb
  -- Under fixed runtimes the Task is an old one, or its runtime is ready.
  have hfixed : f'.runtimes = f.runtimes → False := by
    intro hr
    rw [hr] at hrow
    rcases hs.origin ht with ⟨x, hx, hsame⟩ | ⟨row', hserves⟩
    · exact h.unborn row hrow hready hstopped x hx
        ⟨hsame.assetID.symm.trans hb.1, hsame.runtimeID.symm.trans hb.2⟩
    · obtain rfl := hI.row_eq hserves.mem hrow (hserves.asset.trans hb.1)
      exact absurd (hserves.ready.symm.trans hready) (by decide)
  cases hs with
  | install runtime hr =>
    rcases mem_install.1 hrow with rfl | ⟨hrow, -⟩
    · obtain ⟨g, hg, -, hgr⟩ := h.known t ht
      exact hr.new g hg (hgr.trans hb.2)
    · exact h.unborn row hrow hready hstopped t ht hb
  | stop a' r' hcur =>
    obtain ⟨x, hx, rfl⟩ := List.mem_map.1 hrow
    split at hstopped
    · exact absurd hstopped.symm Bool.false_ne_true
    · rename_i hne
      rw [if_neg hne] at hready hb
      exact h.unborn x hx hready hstopped t ht hb
  | makeReady a' r' manifest' readyAt hr =>
    obtain ⟨x, hx, rfl⟩ := List.mem_map.1 hrow
    split at hready
    · exact absurd hready.symm Bool.false_ne_true
    · rename_i hne
      rw [if_neg hne] at hstopped hb
      exact h.unborn x hx hready hstopped t ht hb
  | dropAsset a' hidle =>
    exact h.unborn row (List.mem_filter.1 hrow).1 hready hstopped t ht hb
  | _ => exact hfixed rfl

/-- A runtime is pinned when it becomes ready: none of its Tasks are there yet. -/
theorem Scheduled.makeReady (h : Scheduled env f) (hI : f.Inv) {readyAt : Time}
    (hr : Readies env f a r manifest) {row : AssetRuntime} (hrow : row ∈ f.runtimes)
    (heq : isRuntime a r row = true) : Pinned env (f.makeReady a r manifest readyAt) a r manifest := by
  obtain ⟨hstopped, hready⟩ := hr.row row hrow heq
  obtain ⟨ha, hrr⟩ := isRuntime_iff.1 heq
  have hnone : ∀ t ∈ f.tasks, ¬ BoundTo a r t := by
    intro t ht hb
    exact h.unborn row hrow hready hstopped t ht (ha.symm ▸ hrr.symm ▸ hb)
  refine ⟨⟨_, hI.registered row hrow, ha, hrr⟩, fun row' hrow' ha' hrr' => ?_,
    fun t ht hb => absurd hb (hnone t ht), fun t ht _ _ hb => absurd hb (hnone t ht)⟩
  obtain ⟨x, hx, rfl⟩ := List.mem_map.1 hrow'
  split
  · exact .inr ⟨rfl, rfl⟩
  · rename_i hne
    rw [if_neg hne] at ha' hrr'
    exact absurd (isRuntime_iff.2 ⟨ha', hrr'⟩) hne

theorem LedgerStep.scheduled (hI : f.Inv) (hs : LedgerStep env now f f') (h : Scheduled env f) :
    Scheduled env f' := by
  refine ⟨hs.known hI h, hs.unborn hI h, fun row hrow hready => ?_⟩
  have hold : row ∈ f.runtimes → Pinned env f' row.assetID row.runtimeID row.manifest :=
    fun hrow => hs.pinned hI (h.pinned row hrow hready)
  cases hs with
  | install runtime hr =>
    rcases mem_install.1 hrow with rfl | ⟨hrow, -⟩
    · exact absurd (hr.not_ready.symm.trans hready) (by decide)
    · exact hold hrow
  | stop a' r' hcur =>
    obtain ⟨x, hx, rfl⟩ := List.mem_map.1 hrow
    split at hready
    · exact absurd hready Bool.false_ne_true
    · rename_i hne
      rw [if_neg hne] at hold ⊢
      exact hold hx
  | makeReady a' r' manifest' readyAt hr =>
    obtain ⟨x, hx, rfl⟩ := List.mem_map.1 hrow
    split
    · rename_i heq
      obtain ⟨rfl, rfl⟩ := isRuntime_iff.1 heq
      exact h.makeReady hI hr hx heq
    · rename_i hne
      rw [if_neg hne] at hold
      exact hold hx
  | dropAsset a' hidle => exact hold (List.mem_filter.1 hrow).1
  | _ => exact hold hrow

/-- The turn of a Task that is acknowledged or started while the clock reads `now`. -/
structure InTurn (env : Env) (now : Time) (f : Fence) (manifest : CommandManifest)
    (t t' : Task) : Prop where
  acknowledged : t'.status = .acknowledged → t.status = .pending
    ∧ schedulingOf env manifest t.command = some .queued
    ∧ ∀ x ∈ f.tasks, Earlier env x t → schedulingOf env manifest x.command = some .queued →
      x.status ≠ .pending
  started : t'.status = .inProgress → schedulingOf env manifest t.command = some .queued →
    ∀ x ∈ f.tasks, Earlier env x t → schedulingOf env manifest x.command = some .queued →
      x.status.nonterminal = false
  startedImmediate : t'.status = .inProgress → schedulingOf env manifest t.command = some .immediate →
    ∀ x ∈ f.tasks, Earlier env x t → schedulingOf env manifest x.command = some .immediate →
      x.status = .pending → x.createdAt + immediateStartWindow ≤ now
  scheduled : t'.status = .inProgress → schedulingOf env manifest t.command ≠ none

theorem InOrder.inTurn {t t' : Task} (hm : TaskMove (schedulingOf env manifest t.command) t t')
    (ho : InOrder env now f manifest t t') (hne : t'.status ≠ t.status) :
    InTurn env now f manifest t t' := by
  have hn := hm.nonterminal
  have hack : t'.status = .acknowledged → t.status = .pending := by
    intro ha
    cases hm with
    | ends h => cases h <;> exact absurd ha (by simp)
    | _ => simp_all
  have hrun : t'.status = .inProgress → t.status = .pending ∨ t.status = .acknowledged := by
    intro hr
    cases hst : t.status <;> simp_all [TaskStatus.nonterminal]
  refine ⟨fun ha => ⟨hack ha, hm.scheduling.1 (hack ha) ha, fun x hx he hq hp => ?_⟩,
    fun hr hq x hx he hqx => ?_, fun hr hi x hx he hix hp => ?_, fun hr => ?_⟩
  · have himm := ho.acknowledged (hack ha) ha x hx he hp
    rw [hq] at himm
    exact absurd himm (by decide)
  · rcases hrun hr with hst | hst
    · have himm := hm.scheduling.2.2 hst hr
      rw [hq] at himm
      exact absurd himm (by decide)
    · by_contra hopen
      have hcase : x.status = .inProgress
          ∨ Earlier env x t ∧ (x.status = .pending ∨ x.status = .acknowledged) := by
        cases hx : x.status <;> simp_all [TaskStatus.nonterminal]
      have himm := ho.started hst hr x hx he.1 he.2.1 hcase
      rw [hqx] at himm
      exact absurd himm (by decide)
  · rcases hrun hr with hst | hst
    · by_contra hlate
      have hq := ho.startedImmediate hst hr x hx he hp (sub_lt_iff_lt_add.2 (not_le.1 hlate))
      rw [hix] at hq
      exact absurd hq (by decide)
    · have hq := hm.scheduling.2.1 hst hr
      rw [hi] at hq
      exact absurd hq (by decide)
  · rcases hrun hr with hst | hst
    · rw [hm.scheduling.2.2 hst hr]
      exact Option.some_ne_none _
    · rw [hm.scheduling.2.1 hst hr]
      exact Option.some_ne_none _

/-- A step acknowledges or starts a Task only through its ready runtime, in its turn. -/
theorem LedgerStep.inTurn (hI : f.Inv) (hs : LedgerStep env now f f') {t t' : Task} (ht : t ∈ f.tasks)
    (ht' : t' ∈ f'.tasks) (hid : t'.taskID = t.taskID) (hne : t'.status ≠ t.status)
    (hst : t'.status = .acknowledged ∨ t'.status = .inProgress) :
    ∃ row, Serves f row t ∧ InTurn env now f row.manifest t t' := by
  have hopen : t'.status.nonterminal = true := by
    rcases hst with h | h <;> rw [h] <;> rfl
  have hkept : t' ∉ f.tasks := fun hin => hne (congrArg Task.status (hI.task_eq hin ht hid))
  have hends : ∀ {p : Task → Prop} {u : Task → Task}, EndsOf p f u → t' ∉ f.tasks.map u := by
    intro p u he hin
    obtain ⟨x, hx, rfl⟩ := List.mem_map.1 hin
    by_cases hp : p x
    · exact absurd (((he x hx).1 hp).nonterminal.2.symm.trans hopen) (by decide)
    · rw [(he x hx).2 hp] at hkept
      exact hkept hx
  cases hs with
  | moved row t₀ t₁ updatedAt version hserves ht₀ hm ho =>
    rcases mem_put ht' with rfl | ⟨hin, -⟩
    · obtain rfl := hI.task_eq ht₀ ht (hm.same.taskID.symm.trans hid)
      obtain ⟨h₁, h₂, h₃, h₄⟩ := ho.inTurn hm hne
      exact ⟨row, hserves, h₁, h₂, h₃, h₄⟩
    · exact absurd hin hkept
  | ended p u he => exact absurd ht' (hends he)
  | created row u task hserves hsched hreq hc =>
    rcases List.mem_append.1 ht' with hin | hin
    · exact absurd hin (hends hc.ends)
    · obtain rfl := List.mem_singleton.1 hin
      exact absurd hid.symm (hc.new_id t ht)
  | _ => exact absurd ht' hkept

end Steps

/-! ## The branch that is not reached -/

/-- The error of the branch that finds a blocking Task without a manifest entry. -/
def unadvertisedBlocker : ActionError :=
  .validation "current runtime no longer advertises a blocking Task Command"

/-- No run of the transaction ends in this error. -/
class Never {α : Type} (e : ActionError) (m : CoreTx α) : Prop where
  ne : ∀ s, m s ≠ .error e

section Never

variable {α β : Type} {e e' : ActionError} {s : Session}

theorem bind_ne_error {m : CoreTx α} {f : α → CoreTx β} (hm : m s ≠ .error e)
    (hf : ∀ a s', m s = .ok (a, s') → f a s' ≠ .error e) : (m >>= f) s ≠ .error e := by
  intro h
  simp only [bind, StateT.bind, Except.bind] at h
  rcases hr : m s with e'' | ⟨a, s'⟩ <;> rw [hr] at h
  · rw [hr] at hm
    exact hm (by rw [Except.error.inj h])
  · exact hf a s' hr h

instance (m : CoreTx α) (f : α → CoreTx β) [hm : Never e m] [hf : ∀ a, Never e (f a)] :
    Never e (m >>= f) where
  ne s := bind_ne_error (hm.ne s) fun a s' _ => (hf a).ne s'

instance (a : α) : Never e (pure a : CoreTx α) where
  ne _ h := nomatch h

instance : Never e (get : CoreTx Session) where
  ne _ h := nomatch h

instance (f : Session → Session) : Never e (modify f : CoreTx PUnit) where
  ne _ h := nomatch h

instance : Never e getDB := by
  unfold getDB
  infer_instance

instance (f : DB → DB) : Never e (modifyDB f) := by
  unfold modifyDB
  infer_instance

instance : Never e clockTimestamp := by
  unfold clockTimestamp
  infer_instance

theorem throw_ne_error (h : e' ≠ e) : (throw e' : CoreTx α) s ≠ .error e :=
  fun h' => h (Except.error.inj h')

theorem require_ne_error {p : Bool} (h : e' ≠ e) : require p e' s ≠ .error e := by
  unfold require
  split
  · exact fun h => nomatch h
  · exact throw_ne_error h

theorem check_ne_error {x : Except ActionError α} (h : x ≠ .error e) : check x s ≠ .error e := by
  cases x with
  | ok a => exact fun h => nomatch h
  | error e' => exact throw_ne_error fun he => h (by rw [he])

theorem forM_ne_error {γ : Type} {l : List γ} {f : γ → CoreTx Unit}
    (h : ∀ x ∈ l, ∀ s, f x s ≠ .error e) : ForM.forM l f s ≠ .error e := by
  induction l generalizing s with
  | nil => exact fun h => nomatch h
  | cons x l ih =>
    rw [List.forM_cons]
    exact bind_ne_error (h x List.mem_cons_self s) fun _ s' _ =>
      ih fun y hy => h y (List.mem_cons_of_mem _ hy)

end Never

theorem resolveScheduling_ne (c : CommandDefinition) (entry : CommandManifestEntry) :
    resolveScheduling c entry ≠ .error unadvertisedBlocker := by
  unfold resolveScheduling
  split
  · split <;> simp [unadvertisedBlocker]
  · simp
  · simp [unadvertisedBlocker]

theorem invalidTaskTransition_ne (t : Task) {operation : String}
    (h : operation = "acknowledge" ∨ operation = "start" ∨ operation = "fail") :
    invalidTaskTransition t operation ≠ unadvertisedBlocker := by
  unfold invalidTaskTransition unadvertisedBlocker
  rcases h with rfl | rfl | rfl <;> cases t.status <;> decide

theorem failTask_ne (failure : TaskFailure) (t : Task) (c : CommandDefinition)
    (entry : CommandManifestEntry) (now : Time) :
    failTask failure t c entry now ≠ .error unadvertisedBlocker := by
  unfold failTask
  split_ifs
  · simp
  · simp [unadvertisedBlocker]
  · exact fun h => invalidTaskTransition_ne t (.inr (.inr rfl)) (Except.error.inj h)
  · simp

theorem acknowledgeTask_ne (t : Task) (c : CommandDefinition) (entry : CommandManifestEntry)
    (now : Time) : acknowledgeTask t c entry now ≠ .error unadvertisedBlocker := by
  unfold acknowledgeTask
  split
  · rename_i e he
    exact fun h => resolveScheduling_ne c entry (he.trans (by rw [Except.error.inj h]))
  · simp [unadvertisedBlocker]
  · split_ifs
    · simp
    · exact fun h => invalidTaskTransition_ne t (.inl rfl) (Except.error.inj h)
    · simp

theorem startTask_ne (t : Task) (c : CommandDefinition) (entry : CommandManifestEntry)
    (now : Time) : startTask t c entry now ≠ .error unadvertisedBlocker := by
  have hinvalid : (Except.error (invalidTaskTransition t "start") : Except ActionError (Bool × Task))
      ≠ .error unadvertisedBlocker :=
    fun h => invalidTaskTransition_ne t (.inr (.inl rfl)) (Except.error.inj h)
  unfold startTask
  split
  · simp
  split
  · simp
  split
  · rename_i e he
    exact fun h => resolveScheduling_ne c entry (he.trans (by rw [Except.error.inj h]))
  · split_ifs
    · exact hinvalid
    · exact failTask_ne _ t c default now
    · simp
  · split_ifs
    · exact hinvalid
    · simp

instance (p : Bool) (text : String) :
    Never unadvertisedBlocker (require p (.failure text)) where
  ne _ := require_ne_error (by simp [unadvertisedBlocker])

theorem readTask_ne_error {id : String} {s : Session} :
    readTask id s ≠ .error unadvertisedBlocker := by
  unfold readTask
  refine bind_ne_error (Never.ne s) fun db s' _ => ?_
  rcases findTask db id with _ | task
  · exact throw_ne_error (by simp [unadvertisedBlocker])
  · exact Never.ne s'

instance (id : String) : Never unadvertisedBlocker (readTask id) where
  ne _ := readTask_ne_error

instance (id : String) (v : ℕ) (t : Task) : Never unadvertisedBlocker (recordResourceChange
    { event := .update, resourceType := .task, id := id, version := v, afterTask := some t }) := by
  unfold recordResourceChange
  simp only [resourceChangeRecord, Bool.false_and, Bool.false_eq_true, if_false, pure, Except.pure]
  infer_instance

instance (task : Task) : Never unadvertisedBlocker (persistTaskState task) := by
  unfold persistTaskState nextChangeVersion reserveChangeVersions
  infer_instance

theorem validateTaskID_ne_error {id : String} {s : Session} :
    validateTaskID id s ≠ .error unadvertisedBlocker := by
  unfold validateTaskID validateResourceID validateStringMaxLength
  refine bind_ne_error (require_ne_error ?_) fun _ s₁ _ =>
    bind_ne_error (require_ne_error ?_) fun _ s₂ _ => require_ne_error ?_
  all_goals
    unfold unadvertisedBlocker
    decide +kernel

theorem storedCommandDefinition_ne_error {env : Env} {id name : String} {s : Session} :
    storedCommandDefinition env id name s ≠ .error unadvertisedBlocker := by
  unfold storedCommandDefinition
  rcases env.command name with _ | c
  · exact throw_ne_error (by simp [unadvertisedBlocker])
  · exact Never.ne s

theorem lockCurrentRuntimeManifest_ne_error {assetID bound caller : String} {s : Session} :
    lockCurrentRuntimeManifest assetID bound caller s ≠ .error unadvertisedBlocker := by
  unfold lockCurrentRuntimeManifest
  refine bind_ne_error (Never.ne s) fun db s' _ => ?_
  rcases findAssetRuntime db assetID with _ | row
  · exact throw_ne_error (by simp [unadvertisedBlocker])
  · refine bind_ne_error (require_ne_error (by simp [unadvertisedBlocker])) fun _ s₁ _ => ?_
    refine bind_ne_error (require_ne_error (by simp [unadvertisedBlocker])) fun _ s₂ _ => ?_
    exact Never.ne s₂

/-- The check finds an entry for every Task it looks at. -/
theorem requireNoSchedulingBlocker_ne_error {env : Env} {task : Task} {manifest : CommandManifest}
    {scheduling : CommandScheduling} {statuses : List TaskStatus} {any expired : Bool}
    {message : String} {s : Session} (hmessage : message
      ≠ "current runtime no longer advertises a blocking Task Command")
    (h : ∀ x ∈ s.db.tasks, BoundTo task.assetID task.runtimeID x →
      schedulingOf env manifest x.command ≠ none) :
    requireNoSchedulingBlocker env task manifest scheduling statuses any expired message s
      ≠ .error unadvertisedBlocker := by
  unfold requireNoSchedulingBlocker
  refine bind_ne_error (Never.ne s) fun now s₁ h₁ => bind_ne_error (Never.ne s₁) fun db s₂ h₂ => ?_
  obtain ⟨rfl, rfl⟩ := getDB_ok.1 h₂
  rw [← (clockTimestamp_ok h₁).2] at h
  refine forM_ne_error fun x hx s₃ => ?_
  obtain ⟨hmem, hp⟩ := mem_selectTasks.1 hx
  simp only [Bool.and_eq_true, decide_eq_true_eq] at hp
  have hsched := h x hmem ⟨hp.1.1.1, hp.1.1.2⟩
  refine bind_ne_error storedCommandDefinition_ne_error fun c s₄ h₄ => ?_
  rcases hentry : manifestEntry manifest x.command with _ | entry
  · unfold schedulingOf at hsched
    rw [hentry, (storedCommandDefinition_ok h₄).1] at hsched
    exact absurd rfl hsched
  · refine bind_ne_error (check_ne_error (resolveScheduling_ne c entry)) fun other s₅ _ => ?_
    exact require_ne_error (by simpa [unadvertisedBlocker] using hmessage)

theorem requireAcknowledgeOrder_ne_error {env : Env} {t : Task} {c : CommandDefinition}
    {e : CommandManifestEntry} {manifest : CommandManifest} {s : Session}
    (h : ∀ x ∈ s.db.tasks, BoundTo t.assetID t.runtimeID x →
      schedulingOf env manifest x.command ≠ none) :
    requireAcknowledgeOrder env t c e manifest s ≠ .error unadvertisedBlocker := by
  unfold requireAcknowledgeOrder
  refine bind_ne_error (check_ne_error (resolveScheduling_ne c e)) fun scheduling s₁ h₁ => ?_
  obtain ⟨-, rfl⟩ := check_ok.1 h₁
  split
  · exact Never.ne s₁
  · exact requireNoSchedulingBlocker_ne_error (by decide) h

theorem requireStartOrder_ne_error {env : Env} {t : Task} {c : CommandDefinition}
    {e : CommandManifestEntry} {manifest : CommandManifest} {s : Session}
    (h : ∀ x ∈ s.db.tasks, BoundTo t.assetID t.runtimeID x →
      schedulingOf env manifest x.command ≠ none) :
    requireStartOrder env t c e manifest s ≠ .error unadvertisedBlocker := by
  unfold requireStartOrder
  refine bind_ne_error (check_ne_error (resolveScheduling_ne c e)) fun scheduling s₁ h₁ => ?_
  obtain ⟨-, rfl⟩ := check_ok.1 h₁
  split
  · split
    · exact Never.ne s₁
    · exact requireNoSchedulingBlocker_ne_error (by decide) h
  · split
    · exact Never.ne s₁
    · exact requireNoSchedulingBlocker_ne_error (by decide) h

/-- What the order check of a call is run on: a ready runtime that advertises all of its Tasks. -/
theorem withTaskTransition_ne_error {env : Env} {id caller : String} {allow : Bool}
    {pre : TaskPrecondition} {mutate : TaskMutation} {s : Session} (hsched : Scheduled env s.db.fence)
    (hpre : ∀ t c e manifest, (∀ x ∈ s.db.tasks, BoundTo t.assetID t.runtimeID x →
      schedulingOf env manifest x.command ≠ none) → pre t c e manifest s ≠ .error unadvertisedBlocker)
    (hmutate : ∀ t c e now, mutate t c e now ≠ .error unadvertisedBlocker) :
    withTaskTransition env id caller allow pre mutate s ≠ .error unadvertisedBlocker := by
  unfold withTaskTransition
  refine bind_ne_error validateTaskID_ne_error fun _ s₁ h₁ => ?_
  obtain rfl := validateResourceID_ok h₁
  refine bind_ne_error (Never.ne s₁) fun read s₂ h₂ => ?_
  obtain ⟨hread, rfl⟩ := readTask_ok.1 h₂
  split
  · refine bind_ne_error (require_ne_error (by simp [unadvertisedBlocker])) fun _ s₃ _ => ?_
    refine bind_ne_error (check_ne_error (hmutate _ _ _ _)) fun r s₄ _ => ?_
    exact bind_ne_error (require_ne_error (by simp [unadvertisedBlocker])) fun _ s₅ _ => Never.ne s₅
  · refine bind_ne_error lockCurrentRuntimeManifest_ne_error fun manifest s₃ h₃ => ?_
    obtain ⟨rfl, row, hrow, hasset, hruntime, hready, rfl⟩ := lockCurrentRuntimeManifest_ok h₃
    refine bind_ne_error (Never.ne s₃) fun task s₄ h₄ => ?_
    obtain ⟨htask, rfl⟩ := readTask_ok.1 h₄
    obtain rfl := Option.some.inj (hread.symm.trans htask)
    refine bind_ne_error storedCommandDefinition_ne_error fun c s₅ h₅ => ?_
    obtain ⟨-, rfl⟩ := storedCommandDefinition_ok h₅
    rcases manifestEntry row.manifest read.command with _ | entry
    · exact throw_ne_error (by simp [unadvertisedBlocker])
    · have hpin := hsched.pinned row hrow hready
      rw [hasset, hruntime] at hpin
      refine bind_ne_error (hpre _ _ _ _ hpin.advertised) fun _ s₆ _ => ?_
      refine bind_ne_error (Never.ne s₆) fun now s₇ _ => ?_
      refine bind_ne_error (check_ne_error (hmutate _ _ _ _)) fun ⟨changed, task⟩ s₈ _ => ?_
      cases changed
      · exact Never.ne (m := (pure task : CoreTx Task)) s₈
      · exact Never.ne (m := persistTaskState task) s₈

theorem discard_ne_error {α : Type} {m : CoreTx α} {e : ActionError} {s : Session}
    (h : m s ≠ .error e) : discard m s ≠ .error e := by
  unfold discard
  exact bind_ne_error h fun _ s' _ => Never.ne s'

variable (env : Env)

theorem order_ne_error {s : Session} (hsched : Scheduled env s.db.fence) {q : Request}
    (hq : (∃ id runtime, q = .acknowledge id runtime) ∨ ∃ id runtime, q = .start id runtime) :
    q.run env s ≠ .error unadvertisedBlocker := by
  have hruntime : ActionError.validation "Atlas-Runtime-ID is required" ≠ unadvertisedBlocker := by
    simp [unadvertisedBlocker]
  rcases hq with ⟨id, runtime, rfl⟩ | ⟨id, runtime, rfl⟩
  · refine discard_ne_error (bind_ne_error (require_ne_error hruntime) fun _ s₁ h₁ => ?_)
    obtain ⟨-, rfl⟩ := require_ok.1 h₁
    exact withTaskTransition_ne_error hsched (fun _ _ _ _ => requireAcknowledgeOrder_ne_error)
      acknowledgeTask_ne
  · refine discard_ne_error (bind_ne_error (require_ne_error hruntime) fun _ s₁ h₁ => ?_)
    obtain ⟨-, rfl⟩ := require_ok.1 h₁
    exact withTaskTransition_ne_error hsched (fun _ _ _ _ => requireStartOrder_ne_error) startTask_ne

/-! ## Runs -/

theorem step_scheduled {s : System} (h : SystemInv s ∧ Scheduled env s.db.fence) (e : Event) :
    SystemInv (s.step env e) ∧ Scheduled env (s.step env e).db.fence :=
  ⟨step_systemInv env s e h.1, (step_ledger env h.1 e).scheduled h.1.fence h.2⟩

theorem reachable_scheduled {s : System} (hs : Reachable env s) :
    SystemInv s ∧ Scheduled env s.db.fence := by
  refine hs.invariant _ (I := fun s => SystemInv s ∧ Scheduled env s.db.fence)
    (fun s e h => step_scheduled env h e) ⟨initial_systemInv, ?_⟩
  exact ⟨fun _ ht => absurd ht List.not_mem_nil, fun _ hr => absurd hr List.not_mem_nil,
    fun _ hr => absurd hr List.not_mem_nil⟩

theorem run_pinned {s v : System} (hs : SystemInv s) (hv : Runs (System.step env) s v)
    {a r : String} {manifest : CommandManifest} (h : Pinned env s.db.fence a r manifest) :
    SystemInv v ∧ Pinned env v.db.fence a r manifest :=
  hv.invariant _ (I := fun v => SystemInv v ∧ Pinned env v.db.fence a r manifest)
    (fun v e hv => ⟨step_systemInv env v e hv.1, (step_ledger env hv.1 e).pinned hv.1.fence hv.2⟩)
    ⟨hs, h⟩

/-- In every state Core reaches, and from then on, the Tasks of a runtime that is ready use Commands
of its manifest, which stays what it is for as long as the runtime is ready, and at most one of its
queued Tasks is in progress; a step acknowledges or starts a Task only in its turn; and no
acknowledgement and no start finds a blocking Task whose Command is not advertised. -/
theorem task_scheduling {s : System} (hs : Reachable env s) :
    (∀ row ∈ s.db.assetRuntimes, row.ready = true → ∀ v, Runs (System.step env) s v →
        (∀ t ∈ v.db.tasks, BoundTo row.assetID row.runtimeID t →
          schedulingOf env row.manifest t.command ≠ none)
        ∧ (∀ row' ∈ v.db.assetRuntimes, row'.assetID = row.assetID →
          row'.runtimeID = row.runtimeID → row'.ready = true → row'.manifest = row.manifest)
        ∧ ∀ t ∈ v.db.tasks, ∀ t' ∈ v.db.tasks, BoundTo row.assetID row.runtimeID t →
          BoundTo row.assetID row.runtimeID t' → t.status = .inProgress → t'.status = .inProgress →
          schedulingOf env row.manifest t.command = some .queued →
          schedulingOf env row.manifest t'.command = some .queued → t = t')
    ∧ (∀ e, ∀ t ∈ s.db.tasks, ∀ t' ∈ (s.step env e).db.tasks, t'.taskID = t.taskID →
        t'.status ≠ t.status → (t'.status = .acknowledged ∨ t'.status = .inProgress) →
        ∃ row, Serves s.db.fence row t ∧ InTurn env e.now s.db.fence row.manifest t t')
    ∧ ∀ q readings, ((∃ id runtime, q = Request.acknowledge id runtime)
          ∨ ∃ id runtime, q = Request.start id runtime) →
        q.run env ⟨s.db, readings⟩ ≠ .error unadvertisedBlocker := by
  obtain ⟨hI, hsched⟩ := reachable_scheduled env hs
  refine ⟨fun row hrow hready v hv => ?_, fun e t ht t' ht' hid hne hst => ?_,
    fun q readings hq => order_ne_error env hsched hq⟩
  · obtain ⟨hIv, hpin⟩ := run_pinned env hI hv (hsched.pinned row hrow hready)
    refine ⟨hpin.advertised, fun row' hrow' ha hr hready' => ?_, hpin.single⟩
    rcases hpin.fixed row' hrow' ha hr with hst | hm
    · exact absurd ((hIv.fence.stopped_idle row' hrow' hst).symm.trans hready') (by decide)
    · exact hm.2
  · exact (step_ledger env hI e).inTurn hI.fence ht ht' hid hne hst

theorem task_scheduling_readyAsset :
    Reachable plainEnv readyAsset
    ∧ ∃ t ∈ readyAsset.db.tasks,
      ∃ t' ∈ (readyAsset.step plainEnv (.request (.start "task-1" "r") fun _ => 0)).db.tasks,
      t.status = .pending ∧ t'.status = .inProgress
      ∧ ∃ row, Serves readyAsset.db.fence row t
        ∧ InTurn plainEnv 0 readyAsset.db.fence row.manifest t t' := by
  refine ⟨readyAsset_reachable, ?_⟩
  obtain ⟨t, ht, t', ht', hid, hp, hr⟩ : ∃ t ∈ readyAsset.db.tasks,
      ∃ t' ∈ (readyAsset.step plainEnv (.request (.start "task-1" "r") fun _ => 0)).db.tasks,
      t'.taskID = t.taskID ∧ t.status = .pending ∧ t'.status = .inProgress := by
    decide +kernel
  exact ⟨t, ht, t', ht', hp, hr, (task_scheduling plainEnv readyAsset_reachable).2.1 _ t ht t' ht' hid
    (by rw [hp, hr]; decide) (.inr hr)⟩

end Atlas.Core
