import Atlas.Proofs.ChangeLog
import Atlas.Proofs.Fence

/-!
# Core keeps the runtime fence

Every transaction of Core is a step of the fence (`FenceStep`), so its invariant holds in every
state Core reaches, whatever calls are in the middle of a drain. A call that drains carries what its
earlier transactions established (`CallInv`), and when it returns while its runtime is current no
work it set out to end is left.
-/

namespace Atlas.Core

open Transaction Fence

variable {α β : Type}

/-! ## Transactions that leave the fence alone -/

abbrev KeepsFence (m : CoreTx α) : Prop := Preserves (fun s : Session => s.db.fence) m

theorem keepsFence_modifyDB {f : DB → DB} (h : ∀ db, (f db).fence = db.fence) :
    KeepsFence (modifyDB f) :=
  Preserves.of_modify fun s => h s.db

instance : KeepsFence nextChangeVersion := by
  unfold nextChangeVersion reserveChangeVersions
  refine .bind inferInstance fun _ => .bind (keepsFence_modifyDB fun _ => rfl) fun _ => ?_
  infer_instance

instance (change : ResourceChange) : KeepsFence (recordResourceChange change) := by
  unfold recordResourceChange
  split
  · infer_instance
  · refine .bind inferInstance fun _ => .bind inferInstance fun _ => .bind inferInstance fun _ => ?_
    exact keepsFence_modifyDB fun _ => rfl

instance (hash : String) (e : ActionError) : KeepsFence (reserveResourceInstanceToken hash e) := by
  unfold reserveResourceInstanceToken
  refine .bind inferInstance fun _ => .bind inferInstance fun _ => ?_
  exact keepsFence_modifyDB fun _ => rfl

instance (env : Env) (id token : String) : KeepsFence (createEntityToken env id token) := by
  unfold createEntityToken
  infer_instance

instance (env : Env) (token : String) : KeepsFence (createObjectToken env token) := by
  unfold createObjectToken
  infer_instance

instance (event : FeedEventName) (e : Entity) (reason : Bool) :
    KeepsFence (recordEntity event e reason) := by
  unfold recordEntity
  infer_instance

instance (event : FeedEventName) (o : MediaObject) : KeepsFence (recordObject event o) := by
  unfold recordObject
  infer_instance

instance (e : Entity) : KeepsFence (updateEntityRow e) := by
  refine keepsFence_modifyDB fun db => ?_
  simp only [DB.fence, Fence.mk.injEq, true_and]
  refine map_key_eq (fun x => ?_) _
  split
  · exact Eq.symm ‹_›
  · rfl

instance (o : MediaObject) : KeepsFence (updateObjectRow o) := keepsFence_modifyDB fun _ => rfl

instance (blob : Option (String × String)) (id : String) :
    KeepsFence (queueBlobDeletion blob id) := by
  unfold queueBlobDeletion
  split
  · infer_instance
  · unfold queueStorageDeletionTx
    split
    · infer_instance
    · exact keepsFence_modifyDB fun _ => rfl

instance (id : String) (v : ℕ) : KeepsFence (recordObjectDeletionFenceTx id v) :=
  keepsFence_modifyDB fun _ => rfl

instance (bucket path id owner : String) :
    KeepsFence (createStorageUploadIntentTx bucket path id owner) := by
  unfold createStorageUploadIntentTx
  refine .bind inferInstance fun _ => .bind inferInstance fun _ => .bind inferInstance fun _ => ?_
  refine .bind inferInstance fun _ => ?_
  exact keepsFence_modifyDB fun _ => rfl

instance (bucket path owner : String) :
    KeepsFence (deleteStorageUploadIntentTx bucket path owner) := by
  unfold deleteStorageUploadIntentTx
  refine .bind inferInstance fun _ => .bind inferInstance fun _ => ?_
  exact keepsFence_modifyDB fun _ => rfl

instance (id path contentType : String) (type : Option String) (json : String) (v : ℕ) :
    KeepsFence (upsertUploadedObjectMetadata id path contentType type json v) := by
  unfold upsertUploadedObjectMetadata
  refine .bind inferInstance fun _ => .bind inferInstance fun _ => .bind inferInstance fun _ => ?_
  refine .bind inferInstance fun _ => ?_
  split
  · exact .bind (keepsFence_modifyDB fun _ => rfl) fun _ => inferInstance
  · infer_instance

instance (env : Env) (id : String) (params : UpdateEntityParams)
    (movement : Except ActionError Unit) :
    KeepsFence (EntityActions.update env id params movement) := by
  unfold EntityActions.update
  iterate 6 refine .bind inferInstance fun _ => ?_
  split
  · infer_instance
  · iterate 9 refine .bind inferInstance fun _ => ?_
    infer_instance

instance (env : Env) (params : CreateObjectParams) :
    KeepsFence (ObjectActions.create env params) := by
  unfold ObjectActions.create
  iterate 9 refine .bind inferInstance fun _ => ?_
  exact .bind (keepsFence_modifyDB fun _ => rfl) fun _ => inferInstance

instance (env : Env) (id : String) (params : UpdateObjectParams) :
    KeepsFence (ObjectActions.update env id params) := by
  unfold ObjectActions.update
  iterate 4 refine .bind inferInstance fun _ => ?_
  split
  · infer_instance
  · iterate 4 refine .bind inferInstance fun _ => ?_
    infer_instance

instance (env : Env) (id : String) (token : Option String) :
    KeepsFence (ObjectActions.delete env id token) := by
  unfold ObjectActions.delete
  iterate 4 refine .bind inferInstance fun _ => ?_
  exact .bind (keepsFence_modifyDB fun _ => rfl) fun _ => inferInstance

instance (env : Env) (params : UploadParams) :
    KeepsFence (ObjectActions.uploadPreflight env params) := by
  unfold ObjectActions.uploadPreflight
  iterate 3 refine .bind inferInstance fun _ => ?_
  split <;> infer_instance

instance (env : Env) (params : UploadParams) (preflight : UploadState) (n : ℕ) :
    KeepsFence (ObjectActions.uploadMetadata env params preflight n) := by
  unfold ObjectActions.uploadMetadata
  iterate 8 refine .bind inferInstance fun _ => ?_
  infer_instance

instance (cutoff : Time) (n : ℕ) : KeepsFence (pruneChangeRecordBatch cutoff n) := by
  unfold pruneChangeRecordBatch
  refine .bind inferInstance fun _ => ?_
  exact .bind (keepsFence_modifyDB fun _ => rfl) fun _ => inferInstance

instance (e : Entity) : KeepsFence (recordRuntimeManifestEntityChange e) := by
  unfold recordRuntimeManifestEntityChange
  iterate 4 refine .bind inferInstance fun _ => ?_
  infer_instance

/-! ## Specifications over the fence -/

/-- From a fence in `φ`, if `m` commits, its result and the fence it leaves are in `ψ`. -/
def FSpec (φ : Fence → Prop) (m : CoreTx α) (ψ : α → Fence → Prop) : Prop :=
  Spec (fun db => φ db.fence) m fun a db => ψ a db.fence

namespace FSpec

variable {φ φ' : Fence → Prop} {ψ ψ' : α → Fence → Prop} {χ : β → Fence → Prop}

theorem bind {m : CoreTx α} {f : α → CoreTx β} (hm : FSpec φ m ψ)
    (hf : ∀ a, FSpec (ψ a) (f a) χ) : FSpec φ (m >>= f) χ :=
  Spec.bind hm hf

theorem mono {m : CoreTx α} (h : FSpec φ m ψ) (hφ : ∀ f, φ' f → φ f)
    (hψ : ∀ a f, ψ a f → ψ' a f) : FSpec φ' m ψ' :=
  Spec.mono h (fun db => hφ db.fence) fun a db => hψ a db.fence

theorem of_pure {a : α} (h : ∀ f, φ f → ψ a f) : FSpec φ (pure a) ψ :=
  Spec.of_pure fun db => h db.fence

theorem of_throw {e : ActionError} : FSpec φ (throw e : CoreTx α) ψ := Spec.of_throw

theorem of_keeps {m : CoreTx α} [h : KeepsFence m] (hψ : ∀ a f, φ f → ψ a f) : FSpec φ m ψ := by
  intro s a s' hs hr
  have := h.eq hr
  simp only at this ⊢
  rw [this]
  exact hψ a _ hs

/-- Pass over a step that leaves the fence alone. -/
theorem pass {m : CoreTx α} [KeepsFence m] {f : α → CoreTx β} (hf : ∀ a, FSpec φ (f a) χ) :
    FSpec φ (m >>= f) χ :=
  bind (of_keeps fun _ _ h => h) hf

theorem of_modifyDB {u : DB → DB} {ψ : Unit → Fence → Prop}
    (h : ∀ db, φ db.fence → ψ () (u db).fence) : FSpec φ (modifyDB u) ψ :=
  Spec.of_modifyDB h

theorem get {f : DB → CoreTx β} (hf : ∀ db, φ db.fence → FSpec (· = db.fence) (f db) χ) :
    FSpec φ (getDB >>= f) χ :=
  Spec.get fun db h => Spec.mono (hf db h) (fun _ he => congrArg DB.fence he) fun _ _ h => h

theorem of_require {p : Bool} {e : ActionError} {f : Unit → CoreTx β}
    (hf : p = true → FSpec φ (f ()) χ) : FSpec φ (require p e >>= f) χ :=
  Spec.of_require hf

theorem of_check {x : Except ActionError α} {f : α → CoreTx β}
    (hf : ∀ a, x = .ok a → FSpec φ (f a) χ) : FSpec φ (check x >>= f) χ :=
  Spec.of_check hf

theorem of_ite {c : Prop} [Decidable c] {m n : CoreTx α} (hm : c → FSpec φ m ψ)
    (hn : ¬ c → FSpec φ n ψ) : FSpec φ (if c then m else n) ψ :=
  Spec.of_ite hm hn

theorem of_holds {p : Prop} {m : CoreTx α} (h : ∀ f, φ f → p) (hm : p → FSpec φ m ψ) :
    FSpec φ m ψ :=
  Spec.of_holds (fun db => h db.fence) hm

theorem forM {γ : Type} {l : List γ} {f : γ → CoreTx Unit}
    (h : ∀ x ∈ l, FSpec φ (f x) fun _ => φ) : FSpec φ (ForM.forM l f) fun _ => φ :=
  Spec.forM h

end FSpec

/-! ## What reads say of the fence -/

theorem findEntity_none {db : DB} {id : String} :
    findEntity db id = none ↔ id ∉ db.fence.entityIDs := by
  simp [findEntity, DB.fence]

theorem findTask_mem {db : DB} {id : String} {t : Task} (h : findTask db id = some t) :
    t ∈ db.fence.tasks :=
  List.mem_of_find?_eq_some h

theorem findAssetRuntime_mem {db : DB} {a : String} {row : AssetRuntime}
    (h : findAssetRuntime db a = some row) : row ∈ db.fence.runtimes ∧ row.assetID = a :=
  ⟨List.mem_of_find?_eq_some h, by simpa using List.find?_some h⟩

theorem findAssetRuntime_none {db : DB} {a r : String} (h : findAssetRuntime db a = none) :
    ¬ db.fence.Current a r := by
  rintro ⟨row, hrow, rfl, -⟩
  exact absurd (List.find?_eq_none.1 h row hrow) (by simp)

theorem current_iff {db : DB} {a r : String} {row : AssetRuntime} (hI : db.fence.Inv)
    (h : findAssetRuntime db a = some row) : db.fence.Current a r ↔ row.runtimeID = r := by
  obtain ⟨hrow, hra⟩ := findAssetRuntime_mem h
  constructor
  · exact fun hc => hI.current_unique ⟨row, hrow, hra, rfl⟩ hc
  · exact fun hr => ⟨row, hrow, hra, hr⟩

/-- A runtime row goes with its Entity. -/
theorem not_current_of_missing {db : DB} {a r : String} (hI : db.fence.Inv)
    (h : ∀ e row, findEntity db a = some e → findAssetRuntime db a = some row → False) :
    ¬ db.fence.Current a r := by
  rintro ⟨row, hrow, hra, hrr⟩
  rcases hf : findAssetRuntime db a with _ | row'
  · exact findAssetRuntime_none hf ⟨row, hrow, hra, hrr⟩
  · rcases he : findEntity db a with _ | e
    · exact findEntity_none.1 he (hra ▸ hI.has_entity row hrow)
    · exact h e row' he hf

theorem lockEntity_fence {φ : Fence → Prop} {id : String} :
    FSpec φ (lockEntity id) fun e f => φ f ∧ e.entityID = id ∧ id ∈ f.entityIDs := by
  unfold lockEntity
  refine .get fun db h => ?_
  rcases hf : findEntity db id with _ | e
  · exact .of_throw
  · refine .of_pure ?_
    rintro _ rfl
    have hin : id ∈ db.fence.entityIDs := by
      by_contra hn
      rw [findEntity_none.2 hn] at hf
      exact Option.some_ne_none e hf.symm
    exact ⟨h, findEntity_id hf, hin⟩

theorem readTask_fence {φ : Fence → Prop} {id : String} :
    FSpec φ (readTask id) fun t f => φ f ∧ t.taskID = id ∧ t ∈ f.tasks := by
  unfold readTask
  refine .get fun db h => ?_
  rcases hf : findTask db id with _ | t
  · exact .of_throw
  · refine .of_pure ?_
    rintro _ rfl
    exact ⟨h, findTask_id hf, findTask_mem hf⟩

/-! ## Persisting a Task -/

/-- A stored row under the state a lifecycle change computed for it. -/
structure Persisted (row task updated : Task) : Prop where
  taskID : updated.taskID = row.taskID
  assetID : updated.assetID = row.assetID
  runtimeID : updated.runtimeID = row.runtimeID
  status : updated.status = task.status
  failure : updated.failure = task.failure

theorem persistTaskState_fence {f : Fence} (task : Task) :
    FSpec (· = f) (persistTaskState task) fun _ f' => ∃ row ∈ f.tasks, ∃ updated,
      row.taskID = task.taskID ∧ Persisted row task updated
      ∧ f' = { f with tasks := f.tasks.map fun t => if t.taskID = task.taskID then updated else t } := by
  unfold persistTaskState
  refine .pass fun v => .pass fun now => .bind readTask_fence fun row => ?_
  refine .bind (ψ := fun _ f' => ∃ row ∈ f.tasks, ∃ updated,
    row.taskID = task.taskID ∧ Persisted row task updated
      ∧ f' = { f with tasks := f.tasks.map fun t => if t.taskID = task.taskID then updated else t })
    (.of_modifyDB ?_) fun _ => .pass fun _ => .of_pure fun _ h => h
  rintro db ⟨rfl, hid, hmem⟩
  refine ⟨row, hmem, _, hid, ?_, rfl⟩
  exact ⟨rfl, rfl, rfl, rfl, rfl⟩

theorem Fence.workStep_persist {f : Fence} {row updated : Task} {id : String}
    (hid : updated.taskID = id) (ha : updated.assetID = row.assetID)
    (hr : updated.runtimeID = row.runtimeID)
    (hok : updated.status.nonterminal = true →
      f.Work row.assetID row.runtimeID ∨ f.Ready row.assetID row.runtimeID) :
    f.WorkStep { f with tasks := f.tasks.map fun t => if t.taskID = id then updated else t } := by
  refine ⟨rfl, rfl, rfl, fun _ h => h, fun hu => ?_, ?_⟩
  · rw [map_key_eq fun t => ?_]
    · exact hu
    · split
      · exact hid.trans (Eq.symm ‹_›)
      · rfl
  · rintro a r ⟨t, ht, rfl, rfl, hn⟩
    obtain ⟨t₀, ht₀, rfl⟩ := List.mem_map.1 ht
    split at hn
    · rename_i hc
      simp only [hc, if_true, ha, hr]
      exact hok hn
    · rename_i hc
      simp only [hc, if_false]
      exact .inl ⟨t₀, ht₀, rfl, rfl, hn⟩

/-- A change that ends the Task adds no work. -/
theorem persistTaskState_terminal {f : Fence} {task : Task}
    (ht : task.status.nonterminal = false) :
    FSpec f.WorkStep (persistTaskState task) fun _ => f.WorkStep := by
  intro s a s' hs hr
  obtain ⟨row, -, updated, hid, hp, hf'⟩ := persistTaskState_fence task s a s' rfl hr
  simp only [hf']
  refine WorkStep.trans hs (workStep_persist (hp.taskID.trans hid) hp.assetID hp.runtimeID ?_)
  rw [hp.status, ht]
  exact fun h => absurd h Bool.false_ne_true

theorem failTask_ok {failure : TaskFailure} {task : Task} {c : CommandDefinition}
    {e : CommandManifestEntry} {now : Time} {r : Bool × Task}
    (h : failTask failure task c e now = .ok r) :
    r.2.taskID = task.taskID ∧ r.2.status = .failed ∧ r.2.failure = some failure := by
  unfold failTask at h
  split_ifs at h with h₁ h₂ h₃
  · cases h
    exact ⟨rfl, h₁, h₂⟩
  · cases h
    exact ⟨rfl, rfl, rfl⟩

theorem cancelTask_ok {cancellation : TaskCancellation} {task : Task} {c : CommandDefinition}
    {e : CommandManifestEntry} {now : Time} {r : Bool × Task}
    (h : cancelTask cancellation task c e now = .ok r) :
    r.2.taskID = task.taskID ∧ r.2.status = .cancelled := by
  unfold cancelTask at h
  split_ifs at h with h₁ h₂ h₃ h₄
  · cases h
    exact ⟨rfl, h₁⟩
  · cases h
    exact ⟨rfl, rfl⟩

theorem supersedeReplacedFlightTasks_fence {f : Fence}
    {env : Env} {assetID runtimeID command taskID : String} :
    FSpec f.WorkStep (supersedeReplacedFlightTasks env assetID runtimeID command taskID)
      fun _ => f.WorkStep := by
  unfold supersedeReplacedFlightTasks
  split
  · exact .of_pure fun _ h => h
  · refine .pass fun db => .of_ite (fun _ => .of_pure fun _ h => h) fun _ => .pass fun now => ?_
    refine .forM fun task _ => .of_check fun r hr => ?_
    have hstatus := (cancelTask_ok hr).2
    exact .bind (persistTaskState_terminal (by rw [hstatus]; rfl)) fun _ => .of_pure fun _ h => h

/-! ## Lifecycle calls -/

/-- A change of a Task's state keeps which Task it is. -/
def KeepsTaskID (mutate : TaskMutation) : Prop :=
  ∀ t c e now r, mutate t c e now = .ok r → r.2.taskID = t.taskID

theorem acknowledgeTask_id : KeepsTaskID acknowledgeTask := by
  intro t c e now r h
  unfold acknowledgeTask at h
  repeat' split at h
  all_goals cases h <;> rfl

theorem startTask_id : KeepsTaskID startTask := by
  intro t c e now r h
  unfold startTask at h
  repeat' split at h
  all_goals first
    | exact (failTask_ok h).1
    | (cases h <;> rfl)

theorem progressTask_id (value : ℚ) : KeepsTaskID (progressTask value) := by
  intro t c e now r h
  unfold progressTask at h
  repeat' split at h
  all_goals cases h <;> rfl

theorem completeTask_id (env : Env) (output : Option String) :
    KeepsTaskID (completeTask env output) := by
  intro t c e now r h
  unfold completeTask at h
  repeat' split at h
  all_goals first
    | exact (failTask_ok h).1
    | (cases h <;> rfl)

/-- The runtime that a lifecycle call on this Task goes through: ready, the Task's and, if it
names one, the caller's. -/
def Admits (f : Fence) (t : Task) (caller : String) : Prop :=
  f.Ready t.assetID t.runtimeID ∧ (caller = "" ∨ trimSpace caller = t.runtimeID)

theorem lockCurrentRuntimeManifest_fence {f : Fence} {t : Task} {caller : String} :
    FSpec (· = f) (lockCurrentRuntimeManifest t.assetID t.runtimeID caller)
      fun _ f' => f' = f ∧ Admits f t caller := by
  unfold lockCurrentRuntimeManifest
  refine .get fun db h => ?_
  rcases hf : findAssetRuntime db t.assetID with _ | row
  · exact .of_throw
  · refine .of_require fun hready => .of_require fun hcaller => .of_pure ?_
    rintro _ rfl
    obtain ⟨hrow, hra⟩ := findAssetRuntime_mem hf
    simp only [Bool.and_eq_true, decide_eq_true_eq] at hready
    simp only [Bool.or_eq_true, decide_eq_true_eq] at hcaller
    rw [← h]
    refine ⟨rfl, ⟨row, hrow, hra, hready.2, hready.1⟩, ?_⟩
    rwa [← hready.2]

/-- A lifecycle call leaves the Tasks as they are, or the Task it names is that of the Asset's
ready runtime. -/
theorem withTaskTransition_fence {f : Fence} (hI : f.Inv) {env : Env} {id caller : String}
    {allow : Bool} {precondition : TaskPrecondition} [∀ t c e m, ReadOnly (precondition t c e m)]
    {mutate : TaskMutation} (hid : KeepsTaskID mutate) :
    FSpec (· = f) (withTaskTransition env id caller allow precondition mutate) fun _ f' =>
      f' = f ∨ f.WorkStep f' ∧ ∃ t ∈ f.tasks, t.taskID = trimSpace id ∧ Admits f t caller := by
  unfold withTaskTransition
  refine .pass fun _ => .bind readTask_fence fun read => .of_ite (fun _ => ?_) fun _ => ?_
  · exact .pass fun _ => .pass fun r => .pass fun _ => .of_pure fun _ h => .inl h.1
  · refine .of_holds (fun g hg => (⟨hg.2.1, hg.1 ▸ hg.2.2⟩ : _ ∧ read ∈ f.tasks)) fun hread => ?_
    refine .bind ((lockCurrentRuntimeManifest_fence (f := f)).mono (fun _ h => h.1)
      fun _ _ h => h) fun manifest => .bind readTask_fence fun task => .pass fun command => ?_
    split
    · exact .of_throw
    · refine .pass fun _ => .pass fun now => .of_check fun r hr => ?_
      refine .of_ite (fun _ => ?_) fun _ => .of_pure fun _ h => .inl h.1.1
      intro s a s' hs hrun
      obtain ⟨⟨hf, hadm⟩, htask, hmem⟩ := hs
      obtain ⟨row, hrow, updated, hrid, hp, hf'⟩ := persistTaskState_fence r.2 s a s' rfl hrun
      rw [hf] at hrow hmem
      have hrt : row = read := by
        refine hI.task_eq hrow hread.2 ?_
        rw [hrid, hid _ _ _ _ _ hr, htask, hread.1]
      simp only [hf', hf]
      refine .inr ⟨workStep_persist (hp.taskID.trans hrid) hp.assetID hp.runtimeID ?_, read,
        hread.2, hread.1, hadm⟩
      rw [hrt]
      exact fun _ => .inr hadm.1

/-! ## The other transactions -/

theorem createEntity_adds {f : Fence} {env : Env} {params : CreateEntityParams}
    {movement : Except ActionError Unit} :
    FSpec (· = f) (EntityActions.create env params movement) fun _ f' =>
      ∃ id, f' = { f with entityIDs := f.entityIDs ++ [id] } := by
  unfold EntityActions.create
  iterate 14 refine .pass fun _ => ?_
  refine .bind (ψ := fun _ f' => ∃ id, f' = { f with entityIDs := f.entityIDs ++ [id] })
    (.of_modifyDB ?_) fun _ => .pass fun _ => .pass fun _ => .of_pure fun _ h => h
  rintro db rfl
  exact ⟨trimSpace params.entityID, by simp [DB.fence]⟩

theorem createEntity_fence {f : Fence} {env : Env} {params : CreateEntityParams}
    {movement : Except ActionError Unit} :
    FSpec (· = f) (EntityActions.create env params movement) fun _ f' => f.WorkStep f' := by
  refine createEntity_adds.mono (fun _ h => h) ?_
  rintro _ _ ⟨id, rfl⟩
  exact ⟨rfl, rfl, rfl, List.subset_append_left _ _, fun h => h, fun _ _ h => .inl h⟩

theorem deleteEntity_drops {f : Fence} {env : Env} {id : String} {token : Option String} :
    FSpec (· = f) (EntityActions.delete env id token) fun _ f' =>
      f' = f.dropAsset (trimSpace id) ∧ ∀ r, ¬ f.Work (trimSpace id) r := by
  unfold EntityActions.delete
  iterate 5 refine .pass fun _ => ?_
  refine .get fun db h => .of_require fun hidle => ?_
  have hdrained : ∀ r, ¬ f.Work (trimSpace id) r := by
    rintro r ⟨t, ht, hta, -, hn⟩
    rw [← h] at ht
    simp only [Bool.not_eq_true', List.any_eq_false, Bool.and_eq_true, decide_eq_true_eq] at hidle
    exact hidle t ht ⟨hta, hn⟩
  refine .bind (ψ := fun _ f' => f' = f.dropAsset (trimSpace id)) (.of_modifyDB ?_) fun _ =>
    .pass fun _ => .of_keeps fun _ _ h => ⟨h, hdrained⟩
  intro db' hdb
  rw [← h, ← hdb]
  simp only [DB.fence, DB.deleteEntity, dropAsset, List.filter_map]
  rfl

theorem deleteEntity_fence {f : Fence} {env : Env} {id : String} {token : Option String} :
    FSpec (· = f) (EntityActions.delete env id token) fun _ f' => FenceStep f f' := by
  refine deleteEntity_drops.mono (fun _ h => h) ?_
  rintro _ _ ⟨rfl, hidle⟩
  exact .dropAsset _ hidle

theorem createTaskRow_fence {f : Fence} {env : Env} {params : CreateTaskParams}
    {key taskID runtimeID : String} (hready : f.Ready params.assetID runtimeID) :
    FSpec (· = f) (createTaskRow env params key taskID runtimeID) fun _ f' => f.WorkStep f' := by
  unfold createTaskRow
  refine .pass fun v => .pass fun _ => .bind
    ((supersedeReplacedFlightTasks_fence (f := f)).mono ?_ fun _ _ h => h) fun _ => ?_
  · rintro _ rfl
    exact .refl _
  refine .pass fun created => .pass fun updated => .get fun db h => .of_require fun hnew => ?_
  refine .bind (ψ := fun _ => f.WorkStep) (.of_modifyDB ?_) fun _ => .pass fun _ =>
    .of_pure fun _ h => h
  intro db' hdb
  rw [← hdb] at h
  have hnew : ∀ t ∈ db'.fence.tasks, t.taskID ≠ taskID := by
    rw [hdb]
    intro t ht hid
    simp only [Bool.not_eq_true', List.any_eq_false, Bool.or_eq_true, decide_eq_true_eq,
      not_or] at hnew
    exact (hnew t ht).1 hid
  refine h.trans ⟨rfl, rfl, rfl, fun _ h => h, fun hu => ?_, ?_⟩
  · simp only [DB.fence, List.map_append, List.map_cons, List.map_nil]
    refine hu.append (List.nodup_singleton _) ?_
    rw [List.disjoint_singleton, List.mem_map]
    rintro ⟨t, ht, hid⟩
    exact hnew t ht hid
  · rintro a r ⟨t, ht, rfl, rfl, hn⟩
    rcases List.mem_append.1 ht with ht | ht
    · exact .inl ⟨t, ht, rfl, rfl, hn⟩
    · rw [List.mem_singleton.1 ht]
      exact .inr (h.ready.2 hready)

theorem createTask_fence {f : Fence} {env : Env} {given : CreateTaskParams} {key taskID : String} :
    FSpec (· = f) (TaskActions.create env given key taskID) fun _ f' => f.WorkStep f' := by
  have hrefl : ∀ g, g = f → f.WorkStep g := by
    rintro _ rfl
    exact .refl _
  unfold TaskActions.create
  iterate 3 refine .pass fun _ => ?_
  refine .get fun db h => ?_
  rw [h]
  split
  · exact .pass fun _ => .of_pure hrefl
  · iterate 2 refine .pass fun _ => ?_
    split
    · exact .of_throw
    · exact .of_throw
    · rename_i command row _ hrow
      refine .of_require fun hready => ?_
      split
      · exact .of_throw
      · iterate 2 refine .pass fun _ => ?_
        obtain ⟨hmem, hra⟩ := findAssetRuntime_mem hrow
        exact .bind (createTaskRow_fence ⟨row, h ▸ hmem, hra, rfl, hready⟩) fun _ =>
          .of_pure fun _ h => h

/-- A runtime as it is installed: under an ID no generation had, neither ready nor stopped. -/
structure Installable (runtime : AssetRuntime) (f : Fence) : Prop where
  new : ∀ g ∈ f.generations, g.runtimeID ≠ runtime.runtimeID
  not_ready : runtime.ready = false
  not_stopped : runtime.stopped = false
  entity : runtime.assetID ∈ f.entityIDs

theorem beginRuntimeRegistration_installs {f : Fence} (hI : f.Inv) {env : Env} {a r : String} :
    FSpec (· = f) (beginRuntimeRegistration env a r) fun b f' => b = true
      ∧ (f' = f ∧ f.Current a r ∨ ∃ runtime, Installable runtime f ∧ runtime.assetID = a
        ∧ runtime.runtimeID = r ∧ f' = f.install runtime) := by
  unfold beginRuntimeRegistration installRuntimeRegistration
  iterate 2 refine .pass fun _ => ?_
  refine .bind lockEntity_fence fun e => .pass fun _ => .pass fun _ => .get fun db h => ?_
  obtain ⟨h, -, hent⟩ := h
  refine .of_ite (fun hcur => ?_) fun hcur => ?_
  · refine .pass fun _ => .of_pure ?_
    rintro _ rfl
    obtain ⟨row, hrow, hr⟩ := Option.map_eq_some_iff.1 hcur
    rw [h]
    exact ⟨rfl, .inl ⟨rfl, h ▸ (current_iff (h ▸ hI) hrow).2 hr⟩⟩
  · refine .of_require fun hnew => .pass fun now => .bind (ψ := fun _ f' => ∃ runtime,
      Installable runtime f ∧ runtime.assetID = a ∧ runtime.runtimeID = r ∧ f' = f.install runtime)
        (.of_modifyDB ?_) fun _ => .pass fun _ => .of_pure fun _ h => ⟨rfl, .inr h⟩
    intro db' hdb
    rw [h] at hdb
    refine ⟨_, ⟨?_, rfl, rfl, h ▸ hent⟩, rfl, rfl, by rw [← hdb]; rfl⟩
    rw [← h]
    simpa [DB.fence] using hnew

theorem beginRuntimeRegistration_fence {f : Fence} (hI : f.Inv) {env : Env} {a r : String} :
    FSpec (· = f) (beginRuntimeRegistration env a r) fun b f' =>
      b = true ∧ FenceStep f f' ∧ f'.Current a r := by
  refine (beginRuntimeRegistration_installs hI).mono (fun _ h => h) ?_
  rintro b f' ⟨hb, ⟨rfl, hcur⟩ | ⟨runtime, hr, rfl, rfl, rfl⟩⟩
  · exact ⟨hb, .work (.refl _), hcur⟩
  · exact ⟨hb, .install _ hr.new hr.not_ready hr.not_stopped hr.entity,
      install_current.2 (.inl ⟨rfl, rfl⟩)⟩

/-- `StopRuntime` stops the runtime it names if that is the current one, and else does nothing. -/
theorem stopRuntime_fence {f : Fence} (hI : f.Inv) {env : Env} {a r : String} :
    FSpec (· = f) (stopRuntime env a r) fun b f' =>
      b = true ∧ f.Current a r ∧ f' = f.stop a r ∨ b = false ∧ ¬ f.Current a r ∧ f' = f := by
  unfold stopRuntime
  iterate 2 refine .pass fun _ => ?_
  refine .get fun db h => ?_
  rw [h]
  split
  · rename_i e row he hrow
    have hcur := current_iff (r := r) (h ▸ hI) hrow
    rw [h] at hcur
    refine .of_ite (fun hne => .of_pure ?_) fun heq => ?_
    · exact fun g hg => .inr ⟨rfl, fun hc => hne (hcur.1 hc), hg⟩
    · have hstop : FSpec (· = f) (modifyDB (DB.stopRuntime a r)) fun _ f' => f' = f.stop a r := by
        refine .of_modifyDB ?_
        rintro db rfl
        rfl
      have hpost : ∀ g, g = f.stop a r → true = true ∧ f.Current a r ∧ g = f.stop a r ∨
          true = false ∧ ¬ f.Current a r ∧ g = f :=
        fun g hg => .inl ⟨rfl, hcur.2 (not_not.1 heq), hg⟩
      exact .bind hstop fun _ => .of_ite (fun _ => .pass fun _ => .of_pure hpost) fun _ =>
        .of_pure hpost
  · rename_i hnone
    exact .of_pure fun g hg => .inr ⟨rfl, h ▸ not_current_of_missing (h ▸ hI) hnone, hg⟩

/-- What holds where a runtime becomes ready: its row was not, no work of another runtime is left
and the manifest is within the catalog. -/
structure Readies (env : Env) (f : Fence) (a r : String) (manifest : CommandManifest) : Prop where
  row : ∀ row ∈ f.runtimes, isRuntime a r row = true → row.stopped = false ∧ row.ready = false
  drained : ∀ r', f.Work a r' → r' = r
  manifest : validateCommandManifestCatalog env [] manifest = .ok ()

theorem completeRuntimeRegistration_readies {f : Fence} (hI : f.Inv) {env : Env}
    {asset runtime : String} {manifest : CommandManifest} :
    FSpec (· = f) (TaskActions.completeRuntimeRegistration env asset runtime manifest)
      fun _ f' => f' = f ∨ ∃ now, Readies env f (trimSpace asset) (trimSpace runtime) manifest
        ∧ f' = f.makeReady (trimSpace asset) (trimSpace runtime) manifest now := by
  unfold TaskActions.completeRuntimeRegistration
  iterate 4 refine .pass fun _ => ?_
  refine .get fun db h => ?_
  rw [h]
  split
  · exact .of_throw
  · rename_i row hrow
    refine .of_require fun hcur => .of_require fun hstopped => .of_require fun hdrained => ?_
    refine .of_ite (fun _ => .of_keeps fun _ _ h => .inl h) fun hready => .of_check fun _ hcatalog =>
      .pass fun now => ?_
    refine .bind (ψ := fun _ f' => f' = f.makeReady (trimSpace asset) (trimSpace runtime) manifest now)
      (.of_modifyDB ?_) fun _ => .of_keeps fun _ _ hf => .inr ⟨now, ⟨?_, ?_, hcatalog⟩, hf⟩
    · intro db' hdb
      rw [← hdb]
      rfl
    · obtain ⟨hmem, hra⟩ := findAssetRuntime_mem hrow
      intro row' hrow' hc
      obtain rfl := hI.row_eq hrow' (h ▸ hmem) ((isRuntime_iff.1 hc).1.trans hra.symm)
      exact ⟨by simpa using hstopped, by simpa using hready⟩
    · rintro r' ⟨t, ht, hta, rfl, hn⟩
      rw [← h] at ht
      simp only [Bool.not_eq_true', List.any_eq_false, Bool.and_eq_true, decide_eq_true_eq,
        and_assoc] at hdrained
      by_contra hne
      exact hdrained t ht ⟨hta, hne, hn⟩

theorem completeRuntimeRegistration_fence {f : Fence} (hI : f.Inv) {env : Env}
    {asset runtime : String} {manifest : CommandManifest} :
    FSpec (· = f) (TaskActions.completeRuntimeRegistration env asset runtime manifest)
      fun _ f' => FenceStep f f' := by
  refine (completeRuntimeRegistration_readies hI).mono (fun _ h => h) ?_
  rintro _ _ (rfl | ⟨now, h, rfl⟩)
  · exact .work (.refl _)
  · exact .makeReady _ _ _ _ (fun row hrow hc => (h.row row hrow hc).1) h.drained

/-! ## Draining -/

theorem mem_selectTasks {env : Env} {db : DB} {p : Task → Bool} {t : Task} :
    t ∈ selectTasks env db p ↔ t ∈ db.tasks ∧ p t = true := by
  unfold selectTasks
  rw [List.mem_mergeSort, List.mem_filter]

/-- Every Task is as it was or one of `drained`, failed as `failure` says. -/
def Drains (f f' : Fence) (drained : List Task) (failure : Task → TaskFailure) : Prop :=
  ∀ t' ∈ f'.tasks, t' ∈ f.tasks ∨ ∃ t ∈ drained, t'.taskID = t.taskID ∧ t'.status = .failed
    ∧ t'.failure = some (failure t)

theorem failTasks_drains {f : Fence} {now : Time} {failure : Task → TaskFailure}
    {tasks : List Task} :
    FSpec (· = f) (failTasks now failure tasks) fun _ f' =>
      f.WorkStep f' ∧ Drains f f' tasks failure := by
  refine FSpec.mono (φ := fun g => f.WorkStep g ∧ Drains f g tasks failure) ?_ ?_ fun _ _ h => h
  · unfold failTasks
    refine .forM fun task htask => .of_check fun r hr => ?_
    obtain ⟨hid, hstatus, hfailure⟩ := failTask_ok hr
    refine .bind (ψ := fun _ g => f.WorkStep g ∧ Drains f g tasks failure) ?_ fun _ =>
      .of_pure fun _ h => h
    intro s a s' hs hrun
    refine ⟨persistTaskState_terminal (by rw [hstatus]; rfl) s a s' hs.1 hrun, ?_⟩
    obtain ⟨row, -, updated, hrid, hp, hf'⟩ := persistTaskState_fence r.2 s a s' rfl hrun
    intro t' ht'
    rw [hf'] at ht'
    obtain ⟨t₀, ht₀, rfl⟩ := List.mem_map.1 ht'
    split
    · refine .inr ⟨task, htask, ?_, hp.status.trans hstatus, hp.failure.trans hfailure⟩
      rw [hp.taskID, hrid, hid]
    · exact hs.2 t₀ ht₀
  · rintro _ rfl
    exact ⟨.refl _, fun t' ht' => .inl ht'⟩

/-- What a batch of a drain did and found. -/
structure BatchPost (f : Fence) (a r : String) (stale : Bool) (failure : TaskFailure)
    (result : ℕ × Bool) (f' : Fence) : Prop where
  work : f.WorkStep f'
  superseded : result.2 = false → ¬ f.Current a r
  no_stale : stale = true → result = (0, true) → ∀ r', f'.Work a r' → r' = r
  no_own : stale = false → result.1 = 0 → f.Current a r → f'.Work a r → f.Ready a r
  drained : ∀ t' ∈ f'.tasks, t' ∈ f.tasks ∨ ∃ t ∈ f.tasks, t'.taskID = t.taskID
    ∧ t.assetID = a ∧ t'.status = .failed ∧ ∃ cause, t'.failure = some cause
    ∧ (stale = true → f.Current a r ∧ t.runtimeID ≠ r
      ∧ (cause.code = .assetStopped ↔ f.Stopped a t.runtimeID ∨ failure.code = .assetStopped))
    ∧ (stale = false → t.runtimeID = r ∧ cause = failure)

theorem BatchPost.skip {f : Fence} {a r : String} {stale : Bool} {failure : TaskFailure}
    (h : ¬ f.Current a r) : BatchPost f a r stale failure (0, false) f :=
  ⟨.refl _, fun _ => h, fun _ hr => by simp at hr, fun _ _ hc => absurd hc h,
    fun t' ht' => .inl ht'⟩

theorem mem_runtimeTaskBatch {env : Env} {db : DB} {a r : String} {stale : Bool} {t : Task}
    (h : t ∈ runtimeTaskBatch env db a r stale) :
    t ∈ db.fence.tasks ∧ t.assetID = a ∧ (stale = true → t.runtimeID ≠ r)
      ∧ (stale = false → t.runtimeID = r) := by
  obtain ⟨hmem, hp⟩ := mem_selectTasks.1 (List.mem_of_mem_take h)
  refine ⟨hmem, ?_⟩
  cases stale <;> simp_all

/-- An empty batch means that nothing is left to drain. -/
theorem runtimeTaskBatch_nil {env : Env} {db : DB} {a r r' : String} {stale : Bool}
    (h : runtimeTaskBatch env db a r stale = []) (hw : db.fence.Work a r') :
    (stale = true → r' = r) ∧ (stale = false → r' ≠ r) := by
  obtain ⟨t, ht, hta, rfl, hn⟩ := hw
  rcases List.take_eq_nil_iff.1 h with h | h
  · exact absurd h (by decide)
  · have hnot : t ∉ selectTasks env db _ := h ▸ List.not_mem_nil
    rw [mem_selectTasks] at hnot
    have ht : t ∈ db.tasks := ht
    cases stale <;> simp_all

theorem runtimeDrainFailure_code {db : DB} {a : String} {tasks : List Task} {t : Task}
    {failure : TaskFailure} (ht : t ∈ tasks) :
    (runtimeDrainFailure t failure (stoppedRuntimeIDs db a tasks)).code = .assetStopped
      ↔ db.fence.Stopped a t.runtimeID ∨ failure.code = .assetStopped := by
  have hmem : t.runtimeID ∈ stoppedRuntimeIDs db a tasks ↔ db.fence.Stopped a t.runtimeID := by
    simp only [stoppedRuntimeIDs, List.mem_map, List.mem_filter, Bool.and_eq_true,
      decide_eq_true_eq]
    constructor
    · rintro ⟨g, ⟨hg, ⟨ha, hs⟩, -⟩, hr⟩
      exact ⟨g, hg, ha, hr, hs⟩
    · rintro ⟨g, hg, ha, hr, hs⟩
      exact ⟨g, ⟨hg, ⟨ha, hs⟩, t, ht, hr.symm⟩, hr⟩
  unfold runtimeDrainFailure
  split
  · exact ⟨fun _ => .inl (hmem.1 ‹_›), fun _ => rfl⟩
  · exact ⟨.inr, fun h => h.resolve_left fun hs => ‹¬ _› (hmem.2 hs)⟩

theorem failRuntimeTaskBatch_fence {f : Fence} (hI : f.Inv) {env : Env} {a r : String}
    {stale : Bool} {failure : TaskFailure} :
    FSpec (· = f) (failRuntimeTaskBatch env a r stale failure)
      fun result => BatchPost f a r stale failure result := by
  unfold failRuntimeTaskBatch
  refine .get fun db h => ?_
  subst h
  split
  · rename_i e row he hrow
    have hcur := current_iff (r := r) hI hrow
    refine .of_ite (fun hne => .of_pure ?_) fun hgo => .pass fun now => ?_
    · rintro _ rfl
      simp only [Bool.and_eq_true, decide_eq_true_eq] at hne
      exact .skip fun hc => hne.2 (hcur.1 hc)
    refine .bind failTasks_drains fun _ => .of_pure fun f' hf' => ?_
    refine ⟨hf'.1, ?_, ?_, ?_, ?_⟩
    · exact fun hf hc => by simp [hcur.1 hc] at hf
    · intro hs hres r' hw
      obtain ⟨hn, hc⟩ := Prod.mk.inj hres
      have hc := hcur.2 (of_decide_eq_true hc)
      rcases hf'.1.work a r' hw with hw | hr
      · exact (runtimeTaskBatch_nil (List.length_eq_zero_iff.1 hn) hw).1 hs
      · exact hI.current_unique hr.current hc
    · intro hs hn _ hw
      refine (hf'.1.work a r hw).resolve_left fun hw => ?_
      exact (runtimeTaskBatch_nil (List.length_eq_zero_iff.1 hn) hw).2 hs rfl
    · intro t' ht'
      rcases hf'.2 t' ht' with ht' | ⟨t, ht, hid, hst, hfail⟩
      · exact .inl ht'
      · obtain ⟨hmem, hta, hstale, hown⟩ := mem_runtimeTaskBatch ht
        refine .inr ⟨t, hmem, hid, hta, hst, _, hfail, fun hs => ?_, fun hs => ⟨hown hs, ?_⟩⟩
        · refine ⟨hcur.2 ?_, hstale hs, ?_⟩
          · simpa [hs] using hgo
          · rw [if_pos hs]
            exact runtimeDrainFailure_code ht
        · simp [hs, runtimeDrainFailure]
  · rename_i hnone
    refine .of_pure ?_
    rintro _ rfl
    exact .skip (not_current_of_missing hI hnone)

theorem reconcileImmediateTimeouts_fence {f : Fence} {env : Env} :
    FSpec (· = f) (TaskActions.reconcileImmediateTimeouts env) fun _ f' => f.WorkStep f' := by
  unfold TaskActions.reconcileImmediateTimeouts
  exact .pass fun now => .pass fun db => .bind failTasks_drains fun _ => .of_pure fun _ h => h.1

/-! ## The system -/

section System

variable (env : Env)

theorem discard_fence {m : CoreTx α} {φ ψ : Fence → Prop} (h : FSpec φ m fun _ => ψ) :
    FSpec φ (discard m) fun _ => ψ :=
  .bind h fun _ => .of_pure fun _ h => h

theorem keeps_step {f : Fence} {m : CoreTx α} [KeepsFence m] :
    FSpec (· = f) (discard m) fun _ f' => FenceStep f f' := by
  refine discard_fence (.of_keeps ?_)
  rintro _ _ rfl
  exact .work (.refl _)

theorem work_step {f : Fence} {m : CoreTx α} (h : FSpec (· = f) m fun _ f' => f.WorkStep f') :
    FSpec (· = f) (discard m) fun _ f' => FenceStep f f' :=
  discard_fence (h.mono (fun _ h => h) fun _ _ h => .work h)

/-- What a lifecycle request does. -/
theorem lifecycle_fence {f : Fence} (hI : f.Inv) {q : Request} {id caller : String}
    (hq : q.lifecycle = some (id, caller)) :
    FSpec (· = f) (q.run env) fun _ f' =>
      f' = f ∨ f.WorkStep f' ∧ ∃ t ∈ f.tasks, t.taskID = trimSpace id ∧ Admits f t caller := by
  cases q <;> cases hq
  case acknowledge =>
    exact discard_fence (.pass fun _ => withTaskTransition_fence hI acknowledgeTask_id)
  case start => exact discard_fence (.pass fun _ => withTaskTransition_fence hI startTask_id)
  case progress value =>
    exact discard_fence (.pass fun _ => withTaskTransition_fence hI (progressTask_id value))
  case complete output =>
    exact discard_fence (.pass fun _ => withTaskTransition_fence hI (completeTask_id env output))
  case fail failure =>
    exact discard_fence (.pass fun _ => .pass fun _ =>
      withTaskTransition_fence hI fun _ _ _ _ _ h => (failTask_ok h).1)
  case cancel cancellation =>
    exact discard_fence (.pass fun _ =>
      withTaskTransition_fence hI fun _ _ _ _ _ h => (cancelTask_ok h).1)

theorem lifecycle_step {f : Fence} (hI : f.Inv) {q : Request} {id caller : String}
    (hq : q.lifecycle = some (id, caller)) :
    FSpec (· = f) (q.run env) fun _ f' => FenceStep f f' := by
  refine (lifecycle_fence env hI hq).mono (fun _ h => h) ?_
  rintro _ f' (rfl | h)
  · exact .work (.refl _)
  · exact .work h.1

theorem request_fence {f : Fence} (hI : f.Inv) (q : Request) :
    FSpec (· = f) (q.run env) fun _ f' => FenceStep f f' := by
  cases q with
  | createEntity params movement => exact work_step createEntity_fence
  | updateEntity id params movement => exact keeps_step
  | deleteEntity id token => exact deleteEntity_fence
  | createObject params => exact keeps_step
  | updateObject id params => exact keeps_step
  | deleteObject id token =>
    refine .of_keeps (m := ObjectActions.delete env id token) ?_
    rintro _ _ rfl
    exact .work (.refl _)
  | uploadPreflight params => exact keeps_step
  | uploadMetadata params preflight n => exact keeps_step
  | createTask params key taskID => exact work_step createTask_fence
  | acknowledge taskID runtimeID => exact lifecycle_step env hI rfl
  | start taskID runtimeID => exact lifecycle_step env hI rfl
  | progress taskID runtimeID value => exact lifecycle_step env hI rfl
  | complete taskID runtimeID output => exact lifecycle_step env hI rfl
  | fail taskID runtimeID failure => exact lifecycle_step env hI rfl
  | cancel taskID cancellation => exact lifecycle_step env hI rfl
  | completeRuntimeRegistration asset runtime manifest =>
    exact completeRuntimeRegistration_fence hI
  | reconcileImmediateTimeouts => exact work_step reconcileImmediateTimeouts_fence
  | pruneChangeRecordBatch cutoff n => exact keeps_step

/-- What the transactions a call has committed so far have established. -/
def CallInv (f : Fence) (c : Call) : Prop :=
  match c.phase with
  | .first | .success | .failure => True
  | .drainStale => f.Installed c.assetID c.runtimeID
      ∧ (c.kind = .stopRuntime → f.Stopped c.assetID c.runtimeID)
  | .drainOwn => c.kind = .stopRuntime ∧ f.Stopped c.assetID c.runtimeID
      ∧ f.Fenced c.assetID c.runtimeID

/-- What a call that returns success has achieved. -/
def Returned (f : Fence) (c : Call) : Prop :=
  f.Current c.assetID c.runtimeID →
    match c.kind with
    | .beginRuntimeRegistration => f.Fenced c.assetID c.runtimeID
    | .stopRuntime => f.Idle c.assetID c.runtimeID

theorem stop_stopped {f : Fence} {a r : String} (h : f.Installed a r) : (f.stop a r).Stopped a r := by
  obtain ⟨g, hg, rfl, rfl⟩ := h
  exact ⟨_, List.mem_map.2 ⟨g, hg, rfl⟩, by simp⟩

/-- A batch that found no stale work, or found its runtime replaced, leaves the Asset fenced. -/
theorem BatchPost.fenced {f f' : Fence} {a r : String} {failure : TaskFailure} {n : ℕ} {cur : Bool}
    (h : BatchPost f a r true failure (n, cur) f') (hi : f.Installed a r)
    (hdone : (!cur || n = 0) = true) : f'.Fenced a r := by
  have hs : FenceStep f f' := .work h.work
  refine ⟨FenceStep.installed hs hi, fun hc r' hw => ?_⟩
  have hcur : cur = true := by
    by_contra hf
    exact h.superseded (by simpa using hf) (FenceStep.current hs hi hc)
  subst hcur
  have hn : n = 0 := by simpa using hdone
  exact h.no_stale rfl (by rw [hn]) r' hw

/-- A batch that found no work of its own stopped runtime leaves the Asset idle. -/
theorem BatchPost.idle {f f' : Fence} (hI : f.Inv) {a r : String} {failure : TaskFailure}
    {cur : Bool} (h : BatchPost f a r false failure (0, cur) f') (hst : f.Stopped a r)
    (hf : f.Fenced a r) : f'.Idle a r := by
  have hs : FenceStep f f' := .work h.work
  refine ⟨FenceStep.stopped hs hst, fun hc r' hw => ?_⟩
  obtain rfl := (FenceStep.fenced hI hs hf).2 hc r' hw
  exact hI.stopped_not_ready hst (h.no_own rfl rfl (FenceStep.current hs hf.1 hc) hw)

theorem call_fence {f : Fence} (hI : f.Inv) {c : Call} (hc : CallInv f c)
    (hrun : c.phase ≠ .success) :
    FSpec (· = f) (c.transaction env) fun phase f' =>
      FenceStep f f' ∧ CallInv f' { c with phase := phase } ∧ (phase = .success → Returned f' c) := by
  obtain ⟨kind, a, r, phase⟩ := c
  cases phase with
  | first =>
    cases kind with
    | beginRuntimeRegistration =>
      refine .bind (beginRuntimeRegistration_fence hI) fun b => .of_pure ?_
      rintro f' ⟨rfl, hs, hcur⟩
      exact ⟨hs, ⟨(FenceStep.inv hI hs).installed_of_current hcur, by simp⟩, by simp⟩
    | stopRuntime =>
      refine .bind (stopRuntime_fence hI) fun b => .of_pure ?_
      rintro f' (⟨rfl, hcur, rfl⟩ | ⟨rfl, hcur, rfl⟩)
      · have hst := stop_stopped (hI.installed_of_current hcur)
        exact ⟨.stop a r hcur, ⟨hst.installed, fun _ => hst⟩, by simp⟩
      · exact ⟨.work (.refl _), trivial, fun _ hc => absurd hc hcur⟩
  | drainStale =>
    refine .bind (failRuntimeTaskBatch_fence hI) fun res => .of_pure fun f' h => ?_
    obtain ⟨n, cur⟩ := res
    have hs : FenceStep f f' := .work h.work
    by_cases hdone : (!cur || n = 0) = true
    · have hf := h.fenced hc.1 hdone
      simp only [hdone, if_true]
      cases kind with
      | beginRuntimeRegistration => exact ⟨hs, trivial, fun _ _ => hf⟩
      | stopRuntime => exact ⟨hs, ⟨rfl, FenceStep.stopped hs (hc.2 rfl), hf⟩, by simp⟩
    · simp only [hdone, if_false, Bool.false_eq_true]
      exact ⟨hs, ⟨FenceStep.installed hs hc.1, fun hk => FenceStep.stopped hs (hc.2 hk)⟩, by simp⟩
  | drainOwn =>
    refine .bind (failRuntimeTaskBatch_fence hI) fun res => .of_pure fun f' h => ?_
    obtain ⟨n, cur⟩ := res
    have hs : FenceStep f f' := .work h.work
    obtain ⟨rfl, hst, hf⟩ := hc
    by_cases hdone : n = 0
    · subst hdone
      exact ⟨hs, trivial, fun _ _ => h.idle hI hst hf⟩
    · simp only [hdone, if_false]
      exact ⟨hs, ⟨rfl, FenceStep.stopped hs hst, FenceStep.fenced hI hs hf⟩, by simp⟩
  | success => exact absurd rfl hrun
  | failure =>
    refine .of_pure ?_
    rintro _ rfl
    exact ⟨.work (.refl _), trivial, by simp⟩

theorem FenceStep.callInv {f f' : Fence} (hI : f.Inv) (hs : FenceStep f f') {c : Call}
    (hc : CallInv f c) : CallInv f' c := by
  unfold CallInv at hc ⊢
  split at hc
  · trivial
  · trivial
  · trivial
  · exact ⟨FenceStep.installed hs hc.1, fun hk => FenceStep.stopped hs (hc.2 hk)⟩
  · exact ⟨hc.1, FenceStep.stopped hs hc.2.1, FenceStep.fenced hI hs hc.2.2⟩

structure SystemInv (s : System) : Prop where
  fence : s.db.fence.Inv
  calls : ∀ c ∈ s.calls, CallInv s.db.fence c

/-- A transaction that runs in a step of the system is a step of the fence. -/
theorem commit_fence {m : CoreTx α} {db : DB} {readings : ℕ → Time}
    (h : FSpec (· = db.fence) m fun _ f' => FenceStep db.fence f') :
    FenceStep db.fence (commit m readings db).fence := by
  unfold commit settle
  rcases hm : m ⟨db, readings⟩ with e | ⟨a, s'⟩
  · exact .work (.refl _)
  · exact h _ a s' rfl hm

/-- What the step of a call does: nothing that shows in the fence if its transaction aborts. -/
theorem advanceCall_fence {db : DB} (hI : db.fence.Inv) {c : Call} (hc : CallInv db.fence c)
    (readings : ℕ → Time) :
    FenceStep db.fence (advanceCall env db c readings).1.fence
      ∧ CallInv (advanceCall env db c readings).1.fence
          { c with phase := (advanceCall env db c readings).2 }
      ∧ (c.phase ≠ .success → (advanceCall env db c readings).2 = .success →
          Returned (advanceCall env db c readings).1.fence c) := by
  unfold advanceCall
  by_cases hp : c.phase = .success
  · have : c.transaction env ⟨db, readings⟩ = .ok (.success, ⟨db, readings⟩) := by
      unfold Call.transaction
      simp only [hp]
      rfl
    rw [this]
    exact ⟨.work (.refl _), trivial, fun h => absurd hp h⟩
  · rcases hm : c.transaction env ⟨db, readings⟩ with e | ⟨phase, s'⟩
    · exact ⟨.work (.refl _), trivial, by simp⟩
    · obtain ⟨hs, hc', hr⟩ := call_fence env hI hc hp _ phase s' rfl hm
      exact ⟨hs, hc', fun _ => hr⟩

theorem step_fence {s : System} (h : SystemInv s) (e : Event) :
    FenceStep s.db.fence (s.step env e).db.fence := by
  cases e with
  | request q readings => exact commit_fence (request_fence env h.fence q)
  | call kind asset runtime => exact .work (.refl _)
  | advance i readings =>
    rcases hi : s.calls[i]? with _ | c
    · simp only [System.step, hi]
      exact .work (.refl _)
    · simp only [System.step, hi]
      exact (advanceCall_fence env h.fence (h.calls c (List.mem_of_getElem? hi)) readings).1
  | crash i =>
    simp only [System.step]
    repeat' split
    all_goals exact .work (.refl _)
  | blobStore intents outbox => exact .work (.refl _)

theorem step_systemInv (s : System) (e : Event) (h : SystemInv s) : SystemInv (s.step env e) := by
  have hs := step_fence env h e
  have hold : ∀ c ∈ s.calls, CallInv (s.step env e).db.fence c :=
    fun c hc => FenceStep.callInv h.fence hs (h.calls c hc)
  refine ⟨FenceStep.inv h.fence hs, ?_⟩
  cases e with
  | request q readings => exact hold
  | call kind asset runtime =>
    intro c hc
    rcases List.mem_append.1 hc with hc | hc
    · exact hold c hc
    · rw [List.mem_singleton.1 hc]
      trivial
  | advance i readings =>
    rcases hi : s.calls[i]? with _ | c
    · simp only [System.step, hi] at hold ⊢
      exact hold
    · simp only [System.step, hi] at hold ⊢
      intro c' hc'
      rcases List.mem_or_eq_of_mem_set hc' with hc' | rfl
      · exact hold c' hc'
      · exact (advanceCall_fence env h.fence (h.calls c (List.mem_of_getElem? hi)) readings).2.1
  | crash i =>
    rcases hi : s.calls[i]? with _ | c
    · simp only [System.step, hi] at hold ⊢
      exact hold
    · simp only [System.step, hi] at hold ⊢
      split
      · exact h.calls
      · intro c' hc'
        rcases List.mem_or_eq_of_mem_set hc' with hc' | rfl
        · exact h.calls c' hc'
        · trivial
  | blobStore intents outbox => exact hold

theorem initial_systemInv : SystemInv System.initial := by
  refine ⟨⟨List.nodup_nil, List.nodup_nil, List.nodup_nil, ?_, ?_, ?_, ?_, List.nodup_nil, ?_⟩, ?_⟩
  all_goals simp [System.initial, DB.empty, DB.fence, Ready]

theorem reachable_systemInv {s : System} (h : Reachable env s) : SystemInv s :=
  h.invariant _ (step_systemInv env) initial_systemInv

/-- A call stays the same call. -/
theorem step_call {s : System} {i : ℕ} {c : Call} (hc : s.calls[i]? = some c) (e : Event) :
    ∃ phase, (s.step env e).calls[i]? = some { c with phase := phase } := by
  have hlt : i < s.calls.length := (List.getElem?_eq_some_iff.1 hc).1
  have hset : ∀ j d phase, s.calls[j]? = some d →
      ∃ phase', (s.calls.set j { d with phase := phase })[i]? = some { c with phase := phase' } := by
    intro j d phase hd
    by_cases hij : j = i
    · subst hij
      obtain rfl := Option.some.inj (hc.symm.trans hd)
      exact ⟨phase, List.getElem?_set_self hlt⟩
    · exact ⟨c.phase, (List.getElem?_set_ne hij).trans hc⟩
  cases e with
  | request q readings => exact ⟨c.phase, hc⟩
  | call kind asset runtime => exact ⟨c.phase, (List.getElem?_append_left hlt).trans hc⟩
  | advance j readings =>
    rcases hj : s.calls[j]? with _ | d
    · simp only [System.step, hj]
      exact ⟨c.phase, hc⟩
    · simp only [System.step, hj]
      exact hset j d _ hj
  | crash j =>
    rcases hj : s.calls[j]? with _ | d
    · simp only [System.step, hj]
      exact ⟨c.phase, hc⟩
    · simp only [System.step, hj]
      split
      · exact ⟨c.phase, hc⟩
      · exact hset j d _ hj
  | blobStore intents outbox => exact ⟨c.phase, hc⟩

theorem run_call {s u : System} (h : Runs (System.step env) s u) {i : ℕ} {c : Call}
    (hc : s.calls[i]? = some c) : ∃ phase, u.calls[i]? = some { c with phase := phase } := by
  refine h.invariant _ (I := fun u => ∃ phase, u.calls[i]? = some { c with phase := phase }) ?_
    ⟨c.phase, hc⟩
  rintro v e ⟨phase, hv⟩
  exact step_call env hv e

/-- What every step of the fence preserves lasts along a run. -/
theorem run_fence {s u : System} (hs : SystemInv s) (h : Runs (System.step env) s u)
    {I : Fence → Prop} (hI : I s.db.fence)
    (hstep : ∀ f f', f.Inv → FenceStep f f' → I f → I f') : I u.db.fence := by
  refine (h.invariant _ (I := fun u => SystemInv u ∧ I u.db.fence) ?_ ⟨hs, hI⟩).2
  rintro v e ⟨hv, hIv⟩
  exact ⟨step_systemInv env v e hv, hstep _ _ hv.fence (step_fence env hv e) hIv⟩

/-- While a runtime of `s` stays current, which other generations of its Asset are stopped does not
change. -/
theorem run_stopped_other {s u : System} (hs : SystemInv s) (h : Runs (System.step env) s u)
    {a r r' : String} (hi : s.db.fence.Installed a r) (hc : u.db.fence.Current a r) (hne : r' ≠ r) :
    u.db.fence.Stopped a r' ↔ s.db.fence.Stopped a r' := by
  constructor
  · have hI := run_fence env hs h (I := fun f => f.Installed a r
        ∧ (f.Current a r → f.Stopped a r' → s.db.fence.Stopped a r')) ⟨hi, fun _ h => h⟩ ?_
    · exact hI.2 hc
    · rintro f f' hinv hs ⟨hi, hback⟩
      refine ⟨FenceStep.installed hs hi, fun hc hst => ?_⟩
      exact hback (FenceStep.current hs hi hc) (FenceStep.stopped_other hinv hs hi hc hne hst)
  · exact fun hst => run_fence env hs h hst fun _ _ _ hs hst => FenceStep.stopped hs hst

/-- A call in one of its drains. -/
def Call.draining (c : Call) : Prop := c.phase = .drainStale ∨ c.phase = .drainOwn

theorem CallInv.installed {f : Fence} {c : Call} (h : CallInv f c) (hd : c.draining) :
    f.Installed c.assetID c.runtimeID := by
  obtain ⟨kind, a, r, phase⟩ := c
  rcases hd with hp | hp <;> cases hp
  · exact h.1
  · exact h.2.1.installed

theorem CallInv.stopped {f : Fence} {c : Call} (h : CallInv f c) (hd : c.draining)
    (hk : c.kind = .stopRuntime) : f.Stopped c.assetID c.runtimeID := by
  obtain ⟨kind, a, r, phase⟩ := c
  rcases hd with hp | hp <;> cases hp
  · exact h.2 hk
  · exact h.2.1

theorem drain_batch {f : Fence} (hI : f.Inv) {c : Call} (hd : c.draining) :
    FSpec (· = f) (c.transaction env) fun _ f' => ∃ stale failure result,
      (stale = true ∧ failure = assetRestartedFailure
        ∨ stale = false ∧ failure = assetStoppedFailure ∧ c.phase = .drainOwn)
      ∧ BatchPost f c.assetID c.runtimeID stale failure result f' := by
  obtain ⟨kind, a, r, phase⟩ := c
  rcases hd with hp | hp <;> cases hp
  · exact .bind (failRuntimeTaskBatch_fence hI) fun res => .of_pure fun f' h =>
      ⟨true, _, res, .inl ⟨rfl, rfl⟩, h⟩
  · exact .bind (failRuntimeTaskBatch_fence hI) fun res => .of_pure fun f' h =>
      ⟨false, _, res, .inr ⟨rfl, rfl, rfl⟩, h⟩

/-- A Task that a drain ends has failed, as stopped exactly if its generation was stopped when the
drain was under way, at any state of it. -/
theorem drained_cause {s u : System} (hs : SystemInv s) (h : Runs (System.step env) s u) {i : ℕ}
    {c d : Call} (hc : s.calls[i]? = some c) (hcd : c.draining) (hd : u.calls[i]? = some d)
    (hdd : d.draining) {readings : ℕ → Time} {t t' : Task} (ht : t ∈ u.db.tasks)
    (hn : t.status.nonterminal = true) (ht' : t' ∈ (u.step env (.advance i readings)).db.tasks)
    (hid : t'.taskID = t.taskID) (hend : t'.status.nonterminal = false) :
    t'.status = .failed ∧ ∃ cause, t'.failure = some cause
      ∧ (cause.code = .assetStopped ↔ s.db.fence.Stopped t.assetID t.runtimeID) := by
  have hu : SystemInv u := h.invariant _ (step_systemInv env) hs
  obtain ⟨phase, hd'⟩ := run_call env h hc
  obtain rfl := Option.some.inj (hd.symm.trans hd')
  have hcall := hs.calls c (List.mem_of_getElem? hc)
  have hsame : t' ∉ u.db.fence.tasks := by
    intro hin
    rw [hu.fence.task_eq hin ht hid, hn] at hend
    exact absurd hend (by decide)
  simp only [System.step, hd, advanceCall] at ht'
  rcases hm : Call.transaction env { c with phase := phase } ⟨u.db, readings⟩ with e | ⟨ph, s'⟩
  · rw [hm] at ht'
    exact absurd ht' hsame
  · rw [hm] at ht'
    obtain ⟨stale, failure, result, hcase, hpost⟩ := drain_batch env hu.fence hdd _ ph s' rfl hm
    rcases hpost.drained t' ht' with hin | ⟨t₀, ht₀, hid₀, ha, hst, cause, hcause, hstale, hown⟩
    · exact absurd hin hsame
    obtain rfl := hu.fence.task_eq ht₀ ht (hid₀.symm.trans hid)
    refine ⟨hst, cause, hcause, ?_⟩
    rw [ha]
    rcases hcase with ⟨rfl, rfl⟩ | ⟨rfl, rfl, hp⟩
    · obtain ⟨hcur, hne, hcode⟩ := hstale rfl
      rw [hcode, run_stopped_other env hs h (hcall.installed hcd) hcur hne]
      exact or_iff_left (by decide)
    · obtain ⟨hr, rfl⟩ := hown rfl
      have hk : c.kind = .stopRuntime := by
        have := hu.calls _ (List.mem_of_getElem? hd)
        cases hp
        exact this.1
      rw [hr]
      exact iff_of_true rfl (hcall.stopped hcd hk)

/-- When a call returns success and its runtime is current, the work it set out to end is gone, and
stays gone for as long as its runtime is current. -/
theorem returned_drained {s t : System} (hs : SystemInv s) {i : ℕ} {c : Call}
    {readings : ℕ → Time} (hc : s.calls[i]? = some c) (hrun : c.phase ≠ .success)
    (hret : (s.step env (.advance i readings)).calls[i]? = some { c with phase := .success })
    (hcur : (s.step env (.advance i readings)).db.fence.Current c.assetID c.runtimeID)
    (ht : Runs (System.step env) (s.step env (.advance i readings)) t)
    (hcur' : t.db.fence.Current c.assetID c.runtimeID) {r : String}
    (hw : t.db.fence.Work c.assetID r) :
    c.kind = .beginRuntimeRegistration ∧ r = c.runtimeID := by
  have hs' := step_systemInv env s (.advance i readings) hs
  have hphase : (advanceCall env s.db c readings).2 = .success := by
    have hlt : i < s.calls.length := (List.getElem?_eq_some_iff.1 hc).1
    simp only [System.step, hc, List.getElem?_set_self hlt, Option.some.injEq, Call.mk.injEq,
      true_and] at hret
    exact hret
  have hadv := (advanceCall_fence env hs.fence (hs.calls c (List.mem_of_getElem? hc)) readings).2.2
    hrun hphase
  have hdb : (advanceCall env s.db c readings).1 = (s.step env (.advance i readings)).db := by
    simp only [System.step, hc]
  rw [hdb] at hadv
  have hadv := hadv hcur
  rcases hk : c.kind with _ | _ <;> rw [hk] at hadv
  · have hf := run_fence env hs' ht hadv fun f f' hI hs h => FenceStep.fenced hI hs h
    exact ⟨rfl, hf.2 hcur' r hw⟩
  · have hf := run_fence env hs' ht hadv fun f f' hI hs h => FenceStep.idle hI hs h
    exact absurd hw (hf.2 hcur' r)

/-- The runtime fence, in every state Core reaches: a ready runtime holds all of its Asset's work; a
runtime is installed at most once and once stopped is never ready again; a lifecycle call changes a
Task only through the Task's runtime, ready and, if the call names one, named; a call that returns
success with its runtime current has ended the work of the runtimes it drains; and each Task it
ended failed as stopped exactly if its own generation had been stopped. -/
theorem runtime_fencing {s : System} (hs : Reachable env s) :
    (∀ a r r', s.db.fence.Ready a r → s.db.fence.Work a r' → r' = r)
    ∧ s.db.installed.Nodup
    ∧ (∀ a r t, s.db.fence.Stopped a r → Runs (System.step env) s t → ¬ t.db.fence.Ready a r)
    ∧ (∀ (q : Request) (id caller : String) (readings : ℕ → Time),
        q.lifecycle = some (id, caller) →
        (s.step env (.request q readings)).db.tasks ≠ s.db.tasks →
        ∃ t ∈ s.db.tasks, t.taskID = trimSpace id ∧ Admits s.db.fence t caller)
    ∧ (∀ (i : ℕ) (c : Call) (readings : ℕ → Time) (t : System) (r : String),
        s.calls[i]? = some c → c.phase ≠ .success →
        (s.step env (.advance i readings)).calls[i]? = some { c with phase := .success } →
        (s.step env (.advance i readings)).db.fence.Current c.assetID c.runtimeID →
        Runs (System.step env) (s.step env (.advance i readings)) t →
        t.db.fence.Current c.assetID c.runtimeID → t.db.fence.Work c.assetID r →
        c.kind = .beginRuntimeRegistration ∧ r = c.runtimeID)
    ∧ ∀ (i : ℕ) (c d : Call) (u : System) (readings : ℕ → Time) (t t' : Task),
        s.calls[i]? = some c → c.draining → Runs (System.step env) s u →
        u.calls[i]? = some d → d.draining → t ∈ u.db.tasks → t.status.nonterminal = true →
        t' ∈ (u.step env (.advance i readings)).db.tasks → t'.taskID = t.taskID →
        t'.status.nonterminal = false →
        t'.status = .failed ∧ ∃ cause, t'.failure = some cause
          ∧ (cause.code = .assetStopped ↔ s.db.fence.Stopped t.assetID t.runtimeID) := by
  have hI := reachable_systemInv env hs
  refine ⟨hI.fence.ready_bound, hI.fence.installed_once, ?_, ?_, ?_, ?_⟩
  · intro a r t hst ht
    have ht' : SystemInv t := ht.invariant _ (step_systemInv env) hI
    exact ht'.fence.stopped_not_ready
      (run_fence env hI ht hst fun _ _ _ hs h => FenceStep.stopped hs h)
  · intro q id caller readings hq hne
    have hfence : (s.step env (.request q readings)).db.fence ≠ s.db.fence :=
      fun heq => hne (congrArg Fence.tasks heq)
    simp only [System.step, commit, settle] at hfence
    rcases hm : q.run env ⟨s.db, readings⟩ with e | ⟨a, s'⟩
    · rw [hm] at hfence
      exact absurd rfl hfence
    · rw [hm] at hfence
      rcases lifecycle_fence env hI.fence hq _ a s' rfl hm with heq | ⟨-, h⟩
      · exact absurd heq hfence
      · exact h
  · exact fun i c readings t r hc hrun hret hcur ht hcur' hw =>
      returned_drained env hI hc hrun hret hcur ht hcur' hw
  · exact fun i c d u readings t t' hc hcd hu hd hdd ht hn ht' hid hend =>
      drained_cause env hI hu hc hcd hd hdd ht hn ht' hid hend

end System

/-- An Asset is created and its runtime registered and made ready; a Task is created, and a call to
stop the runtime has gone on to drain its own Tasks. -/
def stopEvents : List Event :=
  [.request (.createEntity ⟨"a", "asset", "", none, none, none, none, [], ""⟩ (.ok ())) fun _ => 0,
    .call .beginRuntimeRegistration "a" "r", .advance 0 fun _ => 0, .advance 0 fun _ => 0,
    .request (.completeRuntimeRegistration "a" "r"
      [⟨"flight.land", "", some .immediate, false, false⟩]) fun _ => 0,
    .request (.createTask ⟨"a", "flight.land", "{}"⟩ "key" "task-1") fun _ => 0,
    .call .stopRuntime "a" "r", .advance 1 fun _ => 0, .advance 1 fun _ => 0]

def stoppingAsset : System := stopEvents.foldl (System.step plainEnv) System.initial

theorem stoppingAsset_reachable : Reachable plainEnv stoppingAsset := by
  unfold Reachable stoppingAsset stopEvents
  simp only [List.foldl_cons, List.foldl_nil]
  iterate 9 apply Runs.tail
  exact .refl _

/-- The Asset before it is stopped, its one Task pending. -/
def readyAsset : System := (stopEvents.take 6).foldl (System.step plainEnv) System.initial

theorem readyAsset_reachable : Reachable plainEnv readyAsset := by
  unfold Reachable readyAsset stopEvents
  simp only [List.take_succ_cons, List.take_zero, List.foldl_cons, List.foldl_nil]
  iterate 6 apply Runs.tail
  exact .refl _

theorem runtime_fencing_stoppingAsset :
    Reachable plainEnv stoppingAsset
    ∧ ∃ t ∈ stoppingAsset.db.tasks,
      ∃ t' ∈ (stoppingAsset.step plainEnv (.advance 1 fun _ => 0)).db.tasks,
      t.status.nonterminal = true ∧ t'.status.nonterminal = false
      ∧ ∃ cause, t'.failure = some cause
      ∧ (cause.code = .assetStopped ↔ stoppingAsset.db.fence.Stopped t.assetID t.runtimeID) := by
  refine ⟨stoppingAsset_reachable, ?_⟩
  have hcall : stoppingAsset.calls[1]? = some ⟨.stopRuntime, "a", "r", .drainOwn⟩ := by
    decide +kernel
  obtain ⟨t, ht, t', ht', hn, hid, hend⟩ : ∃ t ∈ stoppingAsset.db.tasks,
      ∃ t' ∈ (stoppingAsset.step plainEnv (.advance 1 fun _ => 0)).db.tasks,
      t.status.nonterminal = true ∧ t'.taskID = t.taskID ∧ t'.status.nonterminal = false := by
    decide +kernel
  obtain ⟨-, cause, hcause, hiff⟩ :=
    (runtime_fencing plainEnv stoppingAsset_reachable).2.2.2.2.2 1 _ _ stoppingAsset _ t t' hcall
      (.inr rfl) (.refl _) hcall (.inr rfl) ht hn ht' hid hend
  exact ⟨t, ht, t', ht', hn, hend, cause, hcause, hiff⟩

end Atlas.Core
