import Atlas.Core.System

/-!
# Rules for Core's transactions

`Spec P m Q`: from a database in `P`, if `m` commits, its result and the database it leaves are in
`Q`. What only reads the database, or reads the clock, keeps every `P` (`ReadOnly`), so a proof
about a transaction passes over its checks and stops at its writes.
-/

namespace Atlas.Core

open Transaction

variable {α β : Type}

def Spec (P : DB → Prop) (m : CoreTx α) (Q : α → DB → Prop) : Prop :=
  Ensures (fun s => P s.db) m fun a s => Q a s.db

/-- The transaction leaves every table as it was. -/
abbrev ReadOnly (m : CoreTx α) : Prop := Preserves Session.db m

instance {γ : Type*} (view : DB → γ) (m : CoreTx α) [h : ReadOnly m] :
    Preserves (fun s : Session => view s.db) m where
  eq hr := congrArg view (h.eq hr)

namespace Spec

variable {P P' : DB → Prop} {Q Q' : α → DB → Prop} {R : β → DB → Prop}

theorem bind {m : CoreTx α} {f : α → CoreTx β} (hm : Spec P m Q)
    (hf : ∀ a, Spec (Q a) (f a) R) : Spec P (m >>= f) R :=
  Ensures.bind hm hf

theorem mono {m : CoreTx α} (h : Spec P m Q) (hP : ∀ db, P' db → P db)
    (hQ : ∀ a db, Q a db → Q' a db) : Spec P' m Q' :=
  Ensures.mono h (fun s => hP s.db) fun a s => hQ a s.db

theorem of_pure {a : α} (h : ∀ db, P db → Q a db) : Spec P (pure a) Q :=
  Ensures.of_pure fun s => h s.db

theorem of_throw {e : ActionError} : Spec P (throw e : CoreTx α) Q := Ensures.of_throw

/-- Pass over a step that only reads. -/
theorem read {m : CoreTx α} [h : ReadOnly m] {f : α → CoreTx β} (hf : ∀ a, Spec P (f a) R) :
    Spec P (m >>= f) R := by
  refine bind (Q := fun _ => P) ?_ hf
  intro s a s' hs hr
  simp only [h.eq hr]
  exact hs

theorem of_readOnly {m : CoreTx α} [h : ReadOnly m] (hQ : ∀ a db, P db → Q a db) : Spec P m Q := by
  intro s a s' hs hr
  simp only [h.eq hr]
  exact hQ a s.db hs

theorem of_ite {c : Prop} [Decidable c] {m n : CoreTx α} (hm : c → Spec P m Q)
    (hn : ¬ c → Spec P n Q) : Spec P (if c then m else n) Q := by
  split
  · exact hm ‹_›
  · exact hn ‹_›

/-- A condition that holds of the database throughout may be used. -/
theorem of_holds {p : Prop} {m : CoreTx α} (h : ∀ db, P db → p) (hm : p → Spec P m Q) :
    Spec P m Q :=
  fun s a s' hs hr => hm (h s.db hs) s a s' hs hr

end Spec

theorem getDB_ok {s s' : Session} {db : DB} :
    getDB s = .ok (db, s') ↔ db = s.db ∧ s' = s := by
  unfold getDB
  rw [bind_ok]
  constructor
  · rintro ⟨a, t, h₁, h₂⟩
    obtain ⟨rfl, rfl⟩ := get_ok.1 h₁
    exact pure_ok.1 h₂
  · rintro ⟨rfl, rfl⟩
    exact ⟨s', s', get_ok.2 ⟨rfl, rfl⟩, pure_ok.2 ⟨rfl, rfl⟩⟩

theorem require_ok {p : Bool} {e : ActionError} {s s' : Session} {u : Unit} :
    require p e s = .ok (u, s') ↔ p = true ∧ s' = s := by
  unfold require
  cases p
  · exact ⟨fun h => absurd h throw_ok, fun h => absurd h.1 (by simp)⟩
  · rw [if_pos rfl, pure_ok]
    simp

instance : ReadOnly getDB where
  eq h := by rw [(getDB_ok.1 h).2]

instance (p : Bool) (e : ActionError) : ReadOnly (require p e) where
  eq h := by rw [(require_ok.1 h).2]

instance : ReadOnly clockTimestamp where
  eq h := by
    unfold clockTimestamp at h
    obtain ⟨a, t, h₁, h₂⟩ := bind_ok.1 h
    obtain ⟨b, t', h₃, h₄⟩ := bind_ok.1 h₂
    rw [(pure_ok.1 h₄).2, modify_ok.1 h₃, (get_ok.1 h₁).2]

instance (x : Except ActionError α) : ReadOnly (check x) := by
  cases x with
  | ok a => exact Preserves.of_pure a
  | error e => exact Preserves.of_throw e

namespace Spec

variable {P : DB → Prop} {R : β → DB → Prop}

theorem of_modifyDB {f : DB → DB} {Q : Unit → DB → Prop} (h : ∀ db, P db → Q () (f db)) :
    Spec P (modifyDB f) Q :=
  Ensures.of_modify fun s hs => h s.db hs

/-- Read the database, and know from then on which one it was. -/
theorem get {f : DB → CoreTx β} (hf : ∀ db, P db → Spec (· = db) (f db) R) :
    Spec P (getDB >>= f) R := by
  intro s b s' hs hr
  obtain ⟨db, t, h₁, h₂⟩ := bind_ok.1 hr
  obtain ⟨rfl, rfl⟩ := getDB_ok.1 h₁
  exact hf _ hs _ b s' rfl h₂

theorem of_require {p : Bool} {e : ActionError} {f : Unit → CoreTx β}
    (hf : p = true → Spec P (f ()) R) : Spec P (require p e >>= f) R := by
  intro s b s' hs hr
  obtain ⟨u, t, h₁, h₂⟩ := bind_ok.1 hr
  obtain ⟨hp, rfl⟩ := require_ok.1 h₁
  exact hf hp _ b s' hs h₂

theorem of_check {x : Except ActionError α} {f : α → CoreTx β}
    (hf : ∀ a, x = .ok a → Spec P (f a) R) : Spec P (check x >>= f) R := by
  intro s b s' hs hr
  obtain ⟨a, t, h₁, h₂⟩ := bind_ok.1 hr
  cases x with
  | error e => exact absurd h₁ throw_ok
  | ok c =>
    obtain ⟨rfl, rfl⟩ := pure_ok.1 h₁
    exact hf _ rfl _ b s' hs h₂

theorem forM {γ : Type} {l : List γ} {f : γ → CoreTx Unit}
    (h : ∀ x ∈ l, Spec P (f x) fun _ => P) : Spec P (ForM.forM l f) fun _ => P :=
  Ensures.forM h

/-- What a transaction ensures of the database, the step that runs it ensures. -/
theorem commit {m : CoreTx α} (h : Spec P m fun _ => P) {readings : ℕ → Time} {db : DB}
    (hdb : P db) : P (commit m readings db) :=
  settle_preserves (P := fun s : Session => P s.db) h hdb

end Spec

/-! ## The checks -/

instance (field value : String) (n : ℕ) : ReadOnly (validateStringMaxLength field value n) := by
  unfold validateStringMaxLength
  infer_instance

instance (id type : String) : ReadOnly (validateResourceID id type) := by
  unfold validateResourceID
  infer_instance

instance (id : String) : ReadOnly (validateEntityID id) := by
  unfold validateEntityID
  infer_instance

instance (id : String) : ReadOnly (validateTaskID id) := by
  unfold validateTaskID
  infer_instance

instance (id : String) : ReadOnly (validateObjectID id) := by
  unfold validateObjectID
  infer_instance

instance (a : String) : ReadOnly (normalizeAlias a) := by
  unfold normalizeAlias validateAlias
  infer_instance

instance (type : String) (expected : Option ℕ) (current : ℕ) :
    ReadOnly (checkExpectedVersion type expected current) := by
  unfold checkExpectedVersion
  infer_instance

instance (env : Env) (e : Entity) (id : Option String) : ReadOnly (validateToolAsset env e id) := by
  unfold validateToolAsset
  split <;> infer_instance

instance (env : Env) (token : String) : ReadOnly (resourceInstanceTokenHash env token) := by
  unfold resourceInstanceTokenHash validateResourceInstanceToken
  infer_instance

instance (env : Env) (token stored : Option String) (type : String) :
    ReadOnly (checkResourceInstanceToken env token stored type) := by
  unfold checkResourceInstanceToken
  split <;> infer_instance

instance (id : String) : ReadOnly (lockEntity id) := by
  unfold lockEntity
  refine .bind inferInstance fun db => ?_
  split <;> infer_instance

instance (a : Option String) : ReadOnly (createEntityAlias a) := by
  unfold createEntityAlias
  split <;> infer_instance

instance (e : Entity) (a : Option String) : ReadOnly (updateEntityAlias e a) := by
  unfold updateEntityAlias
  split <;> infer_instance

instance (env : Env) (e c : Entity) : ReadOnly (checkOwnershipChange env e c) := by
  unfold checkOwnershipChange
  refine .bind inferInstance fun _ => ?_
  split <;> infer_instance

instance (env : Env) (e c : Entity) : ReadOnly (checkIdentityChange env e c) := by
  unfold checkIdentityChange
  infer_instance

instance (id : String) : ReadOnly (lockObject id) := by
  unfold lockObject
  refine .bind inferInstance fun db => ?_
  split <;> infer_instance

instance (env : Env) (o : MediaObject) : ReadOnly (persistedObjectBucket env o) := by
  unfold persistedObjectBucket
  split <;> infer_instance

instance (env : Env) (o : MediaObject) : ReadOnly (deletedBlob env o) := by
  unfold deletedBlob
  split <;> infer_instance

instance (env : Env) (u : UploadState) (path : String) : ReadOnly (replacedBlob env u path) := by
  unfold replacedBlob
  split
  · infer_instance
  · split <;> infer_instance

instance (id : String) : ReadOnly (currentObjectStateForUpload id) := by
  unfold currentObjectStateForUpload
  infer_instance

instance (path id : String) : ReadOnly (ensureObjectStoragePathAvailable path id) := by
  unfold ensureObjectStoragePathAvailable
  infer_instance

instance (bucket path owner : String) :
    ReadOnly (lockOwnedStorageUploadIntentTx bucket path owner) := by
  unfold lockOwnedStorageUploadIntentTx
  infer_instance

instance (id : String) : ReadOnly (readTask id) := by
  unfold readTask
  refine .bind inferInstance fun db => ?_
  split <;> infer_instance

instance (env : Env) (taskID command : String) :
    ReadOnly (storedCommandDefinition env taskID command) := by
  unfold storedCommandDefinition
  split <;> infer_instance

instance (asset bound caller : String) :
    ReadOnly (lockCurrentRuntimeManifest asset bound caller) := by
  unfold lockCurrentRuntimeManifest
  refine .bind inferInstance fun db => ?_
  split <;> infer_instance

instance (env : Env) (t : Task) (m : CommandManifest) (sch : CommandScheduling)
    (st : List TaskStatus) (inProgress expired : Bool) (message : String) :
    ReadOnly (requireNoSchedulingBlocker env t m sch st inProgress expired message) := by
  unfold requireNoSchedulingBlocker
  refine .bind inferInstance fun now => ?_
  refine .bind inferInstance fun db => ?_
  refine .forM fun row => ?_
  refine .bind inferInstance fun c => ?_
  split <;> infer_instance

instance (env : Env) (t : Task) (c : CommandDefinition) (e : CommandManifestEntry)
    (m : CommandManifest) : ReadOnly (requireAcknowledgeOrder env t c e m) := by
  unfold requireAcknowledgeOrder
  infer_instance

instance (env : Env) (t : Task) (c : CommandDefinition) (e : CommandManifestEntry)
    (m : CommandManifest) : ReadOnly (requireStartOrder env t c e m) := by
  unfold requireStartOrder
  infer_instance

instance (t : Task) (c : CommandDefinition) (e : CommandManifestEntry) (m : CommandManifest) :
    ReadOnly (noPrecondition t c e m) := by
  unfold noPrecondition
  infer_instance

instance (runtimeID : String) : ReadOnly (requireRuntimeID runtimeID) := by
  unfold requireRuntimeID
  infer_instance

instance (code : TaskFailureCode) : ReadOnly (validateAssetFailureCode code) := by
  unfold validateAssetFailureCode
  infer_instance

instance (asset runtime command : String) :
    ReadOnly (rejectGotoDuringTakeoff asset runtime command) := by
  unfold rejectGotoDuringTakeoff
  infer_instance

end Atlas.Core
