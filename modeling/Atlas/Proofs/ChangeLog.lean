import Atlas.Proofs.Transactions

/-!
# The change log has no gaps

Between two transactions every version above the retention floor has exactly one row, and every
live resource carries the version of the last event recorded for it. Inside a transaction both are
open: a version may be reserved and not yet recorded, a row may be written and its event not yet
recorded. `LogInv` says what holds then, given the `reserved` versions and the `upcoming` event;
a transaction begins and ends with neither.
-/

namespace Atlas.Core

open Transaction

/-- The resource an event is about, and the version it gives it. -/
abbrev Stamp := ResourceType × String × ℕ

def FeedEvent.stamp (e : FeedEvent) : Stamp := (e.resourceType, e.id, e.version)

/-- The version the last stamp of a resource gives it. -/
def lastVersion (stamps : List Stamp) (type : ResourceType) (id : String) : Option ℕ :=
  (stamps.reverse.find? fun s => s.1 = type && s.2.1 = id).map (·.2.2)

/-- The resource is stored, at this version. -/
def Live (db : DB) : ResourceType → String → ℕ → Prop
  | .entity, id, v => ∃ e ∈ db.entities, e.entityID = id ∧ e.version = v
  | .task, id, v => ∃ t ∈ db.tasks, t.taskID = id ∧ t.version = v
  | .object, id, v => ∃ o ∈ db.objects, o.objectID = id ∧ o.version = v

theorem lastVersion_append (stamps : List Stamp) (s : Stamp) (type : ResourceType) (id : String) :
    lastVersion (stamps ++ [s]) type id
      = if s.1 = type ∧ s.2.1 = id then some s.2.2 else lastVersion stamps type id := by
  unfold lastVersion
  rw [List.reverse_append, List.reverse_singleton, List.singleton_append, List.find?_cons]
  by_cases h : s.1 = type ∧ s.2.1 = id
  · simp [h]
  · rw [if_neg h]
    have : (decide (s.1 = type) && decide (s.2.1 = id)) = false := by simpa using h
    rw [this]

structure LogInv (floor : ChangeClock) (reserved : List ℕ) (upcoming : List Stamp) (db : DB) :
    Prop where
  clock_mono : floor.version ≤ db.changeClock.version
  min_mono : floor.minRetainedVersion ≤ db.changeClock.minRetainedVersion
  min_le : db.changeClock.minRetainedVersion ≤ db.changeClock.version
  row_version : ∀ r ∈ db.changeEvents, r.event.version = r.version
  row_le : ∀ r ∈ db.changeEvents, r.version ≤ db.changeClock.version
  unique : (db.changeEvents.map (·.version)).Nodup
  covered : ∀ v, db.changeClock.minRetainedVersion < v → v ≤ db.changeClock.version →
    v ∉ reserved → v ∈ db.changeEvents.map (·.version)
  reserved_le : ∀ v ∈ reserved, v ≤ db.changeClock.version
  live : ∀ type id v, Live db type id v →
    lastVersion (db.recorded.map FeedEvent.stamp ++ upcoming) type id = some v

section Steps

variable {floor : ChangeClock} {R : List ℕ} {U : List Stamp}

/-- Every row of `rows'` is of the resource `id` and has its version `v`, or is an old row of
another resource. -/
def Rewrites {ρ : Type} (key : ρ → String) (version : ρ → ℕ) (id : String) (v : ℕ)
    (rows rows' : List ρ) : Prop :=
  ∀ r ∈ rows', (key r = id ∧ version r = v) ∨ (key r ≠ id ∧ r ∈ rows)

section Rewrites

variable {ρ : Type} {key : ρ → String} {version : ρ → ℕ} {rows : List ρ}

theorem Rewrites.insert {new : ρ} (h : ∀ r ∈ rows, key r ≠ key new) :
    Rewrites key version (key new) (version new) rows (rows ++ [new]) := by
  intro r hr
  rcases List.mem_append.1 hr with hr | hr
  · exact .inr ⟨h r hr, hr⟩
  · rw [List.mem_singleton.1 hr]
    exact .inl ⟨rfl, rfl⟩

theorem Rewrites.replace {new : ρ} {id : String} {v : ℕ} (hid : key new = id)
    (hv : version new = v) :
    Rewrites key version id v rows (rows.map fun r => if key r = id then new else r) := by
  intro r hr
  obtain ⟨r₀, hr₀, rfl⟩ := List.mem_map.1 hr
  split
  · exact .inl ⟨hid, hv⟩
  · exact .inr ⟨‹_›, hr₀⟩

theorem Rewrites.remove (id : String) (v : ℕ) :
    Rewrites key version id v rows (rows.filter (key · ≠ id)) := by
  intro r hr
  obtain ⟨hr, hk⟩ := List.mem_filter.1 hr
  exact .inr ⟨by simpa using hk, hr⟩

end Rewrites

/-- A write to the resource `(type, id)` that leaves it at version `v`, or deletes it. -/
theorem LogInv.write {db db' : DB} (h : LogInv floor R [] db)
    (hc : db'.changeClock = db.changeClock) (he : db'.changeEvents = db.changeEvents)
    (hr : db'.recorded = db.recorded) {type : ResourceType} {id : String} {v : ℕ}
    (hw : ∀ t i w, Live db' t i w → (t = type ∧ i = id ∧ w = v)
      ∨ (¬ (type = t ∧ id = i) ∧ Live db t i w)) :
    LogInv floor R [(type, id, v)] db' := by
  refine ⟨by rw [hc]; exact h.clock_mono, by rw [hc]; exact h.min_mono, by rw [hc]; exact h.min_le,
    by rw [he]; exact h.row_version, by rw [he, hc]; exact h.row_le, by rw [he]; exact h.unique,
    by rw [hc, he]; exact h.covered, by rw [hc]; exact h.reserved_le, ?_⟩
  intro t i w hlive
  rw [hr, lastVersion_append]
  rcases hw t i w hlive with ⟨rfl, rfl, rfl⟩ | ⟨hk, hold⟩
  · rw [if_pos ⟨rfl, rfl⟩]
  · rw [if_neg hk]
    simpa using h.live t i w hold

theorem LogInv.entities {db : DB} (h : LogInv floor R [] db) {id : String} {v : ℕ}
    {rows : List Entity} (hr : Rewrites Entity.entityID Entity.version id v db.entities rows) :
    LogInv floor R [(.entity, id, v)] { db with entities := rows } := by
  refine h.write ?_ ?_ ?_ fun t i w hw => ?_
  iterate 3 rfl
  cases t with
  | entity =>
    obtain ⟨r, hmem, rfl, rfl⟩ := hw
    rcases hr r hmem with ⟨hk, hv⟩ | ⟨hk, hold⟩
    · exact .inl ⟨rfl, hk, hv⟩
    · exact .inr ⟨fun hc => hk hc.2.symm, r, hold, rfl, rfl⟩
  | task => exact .inr ⟨by simp, hw⟩
  | object => exact .inr ⟨by simp, hw⟩

theorem LogInv.tasks {db : DB} (h : LogInv floor R [] db) {id : String} {v : ℕ}
    {rows : List Task} (hr : Rewrites Task.taskID Task.version id v db.tasks rows) :
    LogInv floor R [(.task, id, v)] { db with tasks := rows } := by
  refine h.write ?_ ?_ ?_ fun t i w hw => ?_
  iterate 3 rfl
  cases t with
  | task =>
    obtain ⟨r, hmem, rfl, rfl⟩ := hw
    rcases hr r hmem with ⟨hk, hv⟩ | ⟨hk, hold⟩
    · exact .inl ⟨rfl, hk, hv⟩
    · exact .inr ⟨fun hc => hk hc.2.symm, r, hold, rfl, rfl⟩
  | entity => exact .inr ⟨by simp, hw⟩
  | object => exact .inr ⟨by simp, hw⟩

theorem LogInv.objects {db : DB} (h : LogInv floor R [] db) {id : String} {v : ℕ}
    {rows : List MediaObject}
    (hr : Rewrites MediaObject.objectID MediaObject.version id v db.objects rows) :
    LogInv floor R [(.object, id, v)] { db with objects := rows } := by
  refine h.write ?_ ?_ ?_ fun t i w hw => ?_
  iterate 3 rfl
  cases t with
  | object =>
    obtain ⟨r, hmem, rfl, rfl⟩ := hw
    rcases hr r hmem with ⟨hk, hv⟩ | ⟨hk, hold⟩
    · exact .inl ⟨rfl, hk, hv⟩
    · exact .inr ⟨fun hc => hk hc.2.symm, r, hold, rfl, rfl⟩
  | entity => exact .inr ⟨by simp, hw⟩
  | task => exact .inr ⟨by simp, hw⟩

/-- The tables the invariant reads. -/
def logView (db : DB) :
    ChangeClock × List ChangeRow × List FeedEvent × List Entity × List Task × List MediaObject :=
  (db.changeClock, db.changeEvents, db.recorded, db.entities, db.tasks, db.objects)

/-- A write to other tables. -/
theorem LogInv.frame {db db' : DB} (h : LogInv floor R U db) (hv : logView db' = logView db) :
    LogInv floor R U db' := by
  simp only [logView, Prod.mk.injEq] at hv
  obtain ⟨hc, he, hr, hent, htask, hobj⟩ := hv
  refine ⟨by rw [hc]; exact h.clock_mono, by rw [hc]; exact h.min_mono, by rw [hc]; exact h.min_le,
    by rw [he]; exact h.row_version, by rw [he, hc]; exact h.row_le, by rw [he]; exact h.unique,
    by rw [hc, he]; exact h.covered, by rw [hc]; exact h.reserved_le, ?_⟩
  intro t i w hw
  rw [hr]
  refine h.live t i w ?_
  cases t <;> simp only [Live, hent, htask, hobj] at hw ⊢ <;> exact hw

theorem nextChangeVersion_log :
    Spec (LogInv floor R U) nextChangeVersion fun v => LogInv floor (v :: R) U := by
  unfold nextChangeVersion reserveChangeVersions
  refine .of_require fun _ => .bind (Q := fun _ db => ∃ n, db.changeClock.version = n + 1 ∧
    LogInv floor ((n + 1) :: R) U db) (.of_modifyDB fun db h => ⟨_, rfl, ?_⟩) fun _ => ?_
  · refine ⟨?_, h.min_mono, ?_, h.row_version, ?_, h.unique, ?_, ?_, ?_⟩
    · exact h.clock_mono.trans (Nat.le_succ _)
    · exact h.min_le.trans (Nat.le_succ _)
    · exact fun r hr => (h.row_le r hr).trans (Nat.le_succ _)
    · intro v hmin hv hnot
      simp only [List.mem_cons, not_or] at hnot
      exact h.covered v hmin (Nat.le_of_lt_succ (lt_of_le_of_ne hv hnot.1)) hnot.2
    · intro v hv
      rcases List.mem_cons.1 hv with rfl | hv
      · exact le_rfl
      · exact (h.reserved_le v hv).trans (Nat.le_succ _)
    · intro t i w hw
      refine h.live t i w ?_
      cases t <;> exact hw
  · refine .get fun db h => .of_pure ?_
    rintro _ rfl
    obtain ⟨n, hn, hinv⟩ := h
    rw [hn]
    exact hinv

/-- A resource already deleted is explained by an upcoming event of any version. -/
theorem nextChangeVersion_deleted {type : ResourceType} {id : String} :
    Spec (fun db => ∀ v, LogInv floor R [(type, id, v)] db) nextChangeVersion
      fun v => LogInv floor (v :: R) [(type, id, v)] :=
  fun s v s' hs hr => nextChangeVersion_log s v s' (hs v) hr

theorem resourceChangeRecord_stamp {change : ResourceChange} {event : FeedEvent}
    {asset : Option String} (h : resourceChangeRecord change = .ok (event, asset)) :
    event.stamp = (change.resourceType, change.id, change.version) := by
  unfold resourceChangeRecord at h
  simp only [bind, Except.bind, pure, Except.pure, throw, throwThe, MonadExceptOf.throw] at h
  unfold FeedEvent.stamp
  repeat' split at h
  all_goals cases h <;> rfl

/-- Recording the upcoming event of the version reserved last. -/
theorem recordResourceChange_log {change : ResourceChange} {type : ResourceType} {id : String}
    {v : ℕ} (ht : change.resourceType = type) (hi : change.id = id) (hv : change.version = v) :
    Spec (LogInv floor (v :: R) [(type, id, v)]) (recordResourceChange change)
      fun _ => LogInv floor R [] := by
  subst ht hi
  unfold recordResourceChange
  rcases hrec : resourceChangeRecord change with e | ⟨event, asset⟩
  · exact .of_throw
  have hstamp := resourceChangeRecord_stamp hrec
  have hver : event.version = v := by
    rw [← hv]
    exact congrArg (·.2.2) hstamp
  refine .read fun now => .get fun _ h => .of_require fun hnew => .of_modifyDB ?_
  rintro db rfl
  have hnot : v ∉ db.changeEvents.map (·.version) := by
    rw [← hv]
    intro hmem
    obtain ⟨r, hr, hrv⟩ := List.mem_map.1 hmem
    exact absurd hrv (by simpa using List.all_eq_true.1 hnew r hr)
  refine ⟨h.clock_mono, h.min_mono, h.min_le, ?_, ?_, ?_, ?_, ?_, ?_⟩
  · intro r hr
    rcases List.mem_append.1 hr with hr | hr
    · exact h.row_version r hr
    · obtain rfl := List.mem_singleton.1 hr
      exact hver.trans hv.symm
  · intro r hr
    rcases List.mem_append.1 hr with hr | hr
    · exact h.row_le r hr
    · obtain rfl := List.mem_singleton.1 hr
      rw [show (ChangeRow.mk change.version event asset now).version = v from hv]
      exact h.reserved_le v (by simp)
  · simp only [List.map_append, List.map_cons, List.map_nil, hv]
    exact h.unique.append (List.nodup_singleton v) (by simpa using hnot)
  · intro w hmin hw hnotR
    simp only [List.map_append, List.map_cons, List.map_nil, hv, List.mem_append,
      List.mem_singleton]
    by_cases hwv : w = v
    · exact .inr hwv
    · exact .inl (h.covered w hmin hw (by simp [hwv, hnotR]))
  · exact fun w hw => h.reserved_le w (List.mem_cons_of_mem _ hw)
  · intro t i w hw
    have := h.live t i w (by cases t <;> exact hw)
    simpa [hstamp, hv] using this

end Steps

/-! ## The transactions -/

section Transactions

variable {floor : ChangeClock} {R : List ℕ} {U : List Stamp}

theorem recordEntity_log {event : FeedEventName} {e : Entity} {reason : Bool} {id : String}
    {v : ℕ} (hid : e.entityID = id) (hv : e.version = v) :
    Spec (LogInv floor (v :: R) [(.entity, id, v)]) (recordEntity event e reason)
      fun _ => LogInv floor R [] := by
  unfold recordEntity
  exact recordResourceChange_log rfl hid hv

theorem recordObject_log {event : FeedEventName} {o : MediaObject} {id : String} {v : ℕ}
    (hid : o.objectID = id) (hv : o.version = v) :
    Spec (LogInv floor (v :: R) [(.object, id, v)]) (recordObject event o)
      fun _ => LogInv floor R [] := by
  unfold recordObject
  exact recordResourceChange_log rfl hid hv

theorem findEntity_id {db : DB} {id : String} {e : Entity} (h : findEntity db id = some e) :
    e.entityID = id := by
  simpa using List.find?_some h

theorem findObject_id {db : DB} {id : String} {o : MediaObject} (h : findObject db id = some o) :
    o.objectID = id := by
  simpa using List.find?_some h

theorem findTask_id {db : DB} {id : String} {t : Task} (h : findTask db id = some t) :
    t.taskID = id := by
  simpa using List.find?_some h

/-- What a locked row is, and that the database was only read. -/
theorem lockEntity_spec {P : DB → Prop} {id : String} :
    Spec P (lockEntity id) fun e db => P db ∧ e.entityID = id := by
  unfold lockEntity
  refine .get fun db h => ?_
  rcases hf : findEntity db id with _ | e
  · exact .of_throw
  · refine .of_pure ?_
    rintro _ rfl
    exact ⟨h, findEntity_id hf⟩

theorem lockObject_spec {P : DB → Prop} {id : String} :
    Spec P (lockObject id) fun o db => P db ∧ o.objectID = id := by
  unfold lockObject
  refine .get fun db h => ?_
  rcases hf : findObject db id with _ | o
  · exact .of_throw
  · refine .of_pure ?_
    rintro _ rfl
    exact ⟨h, findObject_id hf⟩

theorem readTask_spec {P : DB → Prop} {id : String} :
    Spec P (readTask id) fun t db => P db ∧ t.taskID = id := by
  unfold readTask
  refine .get fun db h => ?_
  rcases hf : findTask db id with _ | t
  · exact .of_throw
  · refine .of_pure ?_
    rintro _ rfl
    exact ⟨h, findTask_id hf⟩

theorem updateEntityRow_log (e : Entity) :
    Spec (LogInv floor R []) (updateEntityRow e)
      fun _ => LogInv floor R [(.entity, e.entityID, e.version)] :=
  .of_modifyDB fun _ h => h.entities (.replace rfl rfl)

theorem updateObjectRow_log (o : MediaObject) :
    Spec (LogInv floor R []) (updateObjectRow o)
      fun _ => LogInv floor R [(.object, o.objectID, o.version)] :=
  .of_modifyDB fun _ h => h.objects (.replace rfl rfl)

/-- Creating the token of a resource writes no table of the log. -/
theorem reserveResourceInstanceToken_log {hash : String} {e : ActionError} :
    Spec (LogInv floor R U) (reserveResourceInstanceToken hash e) fun _ => LogInv floor R U := by
  unfold reserveResourceInstanceToken
  exact .read fun _ => .read fun _ => .of_modifyDB fun _ h => h.frame rfl

theorem createEntityToken_log {env : Env} {id token : String} :
    Spec (LogInv floor R U) (createEntityToken env id token) fun _ => LogInv floor R U := by
  unfold createEntityToken
  refine .of_ite (fun _ => .of_pure fun _ h => h) fun _ => ?_
  exact .read fun _ => .read fun _ => .bind reserveResourceInstanceToken_log fun _ =>
    .of_pure fun _ h => h

theorem createObjectToken_log {env : Env} {token : String} :
    Spec (LogInv floor R U) (createObjectToken env token) fun _ => LogInv floor R U := by
  unfold createObjectToken
  refine .of_ite (fun _ => .of_pure fun _ h => h) fun _ => ?_
  exact .read fun _ => .bind reserveResourceInstanceToken_log fun _ => .of_pure fun _ h => h

theorem createEntity_log {env : Env} {params : CreateEntityParams}
    {movement : Except ActionError Unit} :
    Spec (LogInv floor [] []) (EntityActions.create env params movement)
      fun _ => LogInv floor [] [] := by
  unfold EntityActions.create
  iterate 7 refine .read fun _ => ?_
  refine .bind nextChangeVersion_log fun v => .bind createEntityToken_log fun hash => ?_
  refine .get fun db h => .of_require fun hnew => .read fun _ => .read fun created => ?_
  refine .read fun updated =>
    .bind (Q := fun _ => LogInv floor [v] [(.entity, trimSpace params.entityID, v)])
      (.of_modifyDB ?_) fun _ => ?_
  · rintro db rfl
    refine h.entities (.insert fun e he => ?_)
    simpa using List.find?_eq_none.1 (Option.isNone_iff_eq_none.1 hnew) e he
  · exact .read fun _ => .bind (recordEntity_log rfl rfl) fun _ => .of_pure fun _ h => h

theorem updateEntity_log {env : Env} {id : String} {params : UpdateEntityParams}
    {movement : Except ActionError Unit} :
    Spec (LogInv floor [] []) (EntityActions.update env id params movement)
      fun _ => LogInv floor [] [] := by
  unfold EntityActions.update
  iterate 6 refine .read fun _ => ?_
  refine .of_ite (fun _ => .of_pure fun _ h => h) fun _ => ?_
  iterate 3 refine .read fun _ => ?_
  refine .bind nextChangeVersion_log fun v => ?_
  iterate 3 refine .read fun _ => ?_
  refine .bind (updateEntityRow_log _) fun _ => .read fun _ => ?_
  exact .bind (recordEntity_log rfl rfl) fun _ => .of_pure fun _ h => h

theorem deleteEntity_log {env : Env} {id : String} {token : Option String} :
    Spec (LogInv floor [] []) (EntityActions.delete env id token) fun _ => LogInv floor [] [] := by
  unfold EntityActions.delete
  refine .read fun _ => .bind lockEntity_spec fun e => .of_holds (fun _ h => h.2) fun hid => ?_
  iterate 5 refine .read fun _ => ?_
  refine .bind (Q := fun _ db => ∀ v, LogInv floor [] [(.entity, trimSpace id, v)] db)
    (.of_modifyDB fun db h v => ?_) fun _ => ?_
  · exact (h.1.entities (.remove _ v)).frame rfl
  · exact .bind nextChangeVersion_deleted fun v => recordResourceChange_log rfl hid rfl

theorem createObject_log {env : Env} {params : CreateObjectParams} :
    Spec (LogInv floor [] []) (ObjectActions.create env params) fun _ => LogInv floor [] [] := by
  unfold ObjectActions.create
  iterate 3 refine .read fun _ => ?_
  refine .bind nextChangeVersion_log fun v => .bind createObjectToken_log fun hash => ?_
  refine .get fun db h => .of_require fun hnew => .read fun created => .read fun updated => ?_
  refine .bind (Q := fun _ => LogInv floor [v] [(.object, trimSpace params.objectID, v)])
      (.of_modifyDB ?_) fun _ => ?_
  · rintro db rfl
    refine h.objects (.insert fun o ho => ?_)
    simpa using List.find?_eq_none.1 (Option.isNone_iff_eq_none.1 hnew) o ho
  · exact .bind (recordObject_log rfl rfl) fun _ => .of_pure fun _ h => h

theorem updateObject_log {env : Env} {id : String} {params : UpdateObjectParams} :
    Spec (LogInv floor [] []) (ObjectActions.update env id params) fun _ => LogInv floor [] [] := by
  unfold ObjectActions.update
  iterate 4 refine .read fun _ => ?_
  refine .of_ite (fun _ => .of_pure fun _ h => h) fun _ => .read fun _ => ?_
  refine .bind nextChangeVersion_log fun v => .read fun _ => .bind (updateObjectRow_log _) fun _ => ?_
  exact .bind (recordObject_log rfl rfl) fun _ => .of_pure fun _ h => h

theorem queueBlobDeletion_log {blob : Option (String × String)} {id : String} :
    Spec (LogInv floor R U) (queueBlobDeletion blob id) fun _ => LogInv floor R U := by
  unfold queueBlobDeletion
  split
  · exact .of_pure fun _ h => h
  · unfold queueStorageDeletionTx
    exact .of_ite (fun _ => .of_pure fun _ h => h) fun _ => .of_modifyDB fun _ h => h.frame rfl

theorem deleteObject_log {env : Env} {id : String} {token : Option String} :
    Spec (LogInv floor [] []) (ObjectActions.delete env id token) fun _ => LogInv floor [] [] := by
  unfold ObjectActions.delete
  refine .read fun _ => .bind lockObject_spec fun o => .of_holds (fun _ h => h.2) fun hid => ?_
  iterate 2 refine .read fun _ => ?_
  refine .bind (Q := fun _ db => ∀ v, LogInv floor [] [(.object, trimSpace id, v)] db)
    (.of_modifyDB fun db h v => h.1.objects (.remove _ v)) fun _ => ?_
  refine .bind (Q := fun _ db => ∀ v, LogInv floor [] [(.object, trimSpace id, v)] db)
    (fun s a s' hs hr v => queueBlobDeletion_log s a s' (hs v) hr) fun _ => ?_
  refine .bind nextChangeVersion_deleted fun v => ?_
  refine .bind (Q := fun _ => LogInv floor [v] [(.object, trimSpace id, v)])
    (.of_modifyDB fun db h => h.frame rfl) fun _ => ?_
  exact recordResourceChange_log rfl hid rfl

theorem uploadPreflight_log {env : Env} {params : UploadParams} :
    Spec (LogInv floor [] []) (ObjectActions.uploadPreflight env params)
      fun _ => LogInv floor [] [] := by
  unfold ObjectActions.uploadPreflight
  iterate 3 refine .read fun _ => ?_
  split
  · exact .of_throw
  · iterate 3 refine .read fun _ => ?_
    refine .bind (Q := fun _ => LogInv floor [] []) ?_ fun _ => .of_pure fun _ h => h
    unfold createStorageUploadIntentTx
    iterate 4 refine .read fun _ => ?_
    exact .of_modifyDB fun db h => h.frame rfl

theorem upsertUploadedObjectMetadata_log {id path contentType : String} {type : Option String}
    {json : String} {v : ℕ} :
    Spec (LogInv floor R []) (upsertUploadedObjectMetadata id path contentType type json v)
      fun o db => LogInv floor R [(.object, o.objectID, o.version)] db ∧ o.version = v := by
  unfold upsertUploadedObjectMetadata
  refine .get fun db h => .read fun _ => .read fun created => .read fun updated => ?_
  rcases hf : findObject db id with _ | o
  · refine .bind (Q := fun _ => LogInv floor R [(.object, id, v)]) (.of_modifyDB ?_) fun _ =>
      .of_pure fun _ h => ⟨h, rfl⟩
    rintro db rfl
    refine h.objects (.insert fun o ho => ?_)
    simpa using List.find?_eq_none.1 hf o ho
  · refine .bind ((updateObjectRow_log _).mono ?_ fun _ _ h => h) fun _ =>
      .of_pure fun _ h => ⟨h, rfl⟩
    rintro db rfl
    exact h

theorem uploadMetadata_log {env : Env} {params : UploadParams} {preflight : UploadState} {n : ℕ} :
    Spec (LogInv floor [] []) (ObjectActions.uploadMetadata env params preflight n)
      fun _ => LogInv floor [] [] := by
  unfold ObjectActions.uploadMetadata
  iterate 4 refine .read fun _ => ?_
  refine .bind nextChangeVersion_log fun v => .bind upsertUploadedObjectMetadata_log fun o => ?_
  refine .of_holds (fun _ h => h.2) fun hv => ?_
  subst hv
  refine Spec.mono (P := LogInv floor [o.version] [(.object, o.objectID, o.version)]) ?_
    (fun _ h => h.1) fun _ _ h => h
  refine .read fun _ => .bind queueBlobDeletion_log fun _ => ?_
  refine .bind (Q := fun _ => LogInv floor [o.version] [(.object, o.objectID, o.version)]) ?_
    fun _ => .bind (recordObject_log rfl rfl) fun _ => .of_pure fun _ h => h
  unfold deleteStorageUploadIntentTx
  exact .read fun _ => .read fun _ => .of_modifyDB fun _ h => h.frame rfl

theorem persistTaskState_log (task : Task) :
    Spec (LogInv floor R []) (persistTaskState task) fun _ => LogInv floor R [] := by
  unfold persistTaskState
  refine .bind nextChangeVersion_log fun v => .read fun now => .bind readTask_spec fun row => ?_
  refine .of_holds (fun _ h => h.2) fun hid => ?_
  refine .bind (Q := fun _ => LogInv floor (v :: R) [(.task, task.taskID, v)])
    (.of_modifyDB fun db h => h.1.tasks (.replace hid rfl)) fun _ => ?_
  exact .bind (recordResourceChange_log rfl hid rfl) fun _ => .of_pure fun _ h => h

theorem withTaskTransition_log {env : Env} {id runtimeID : String} {allow : Bool}
    {precondition : TaskPrecondition} [∀ t c e m, ReadOnly (precondition t c e m)]
    {mutate : TaskMutation} :
    Spec (LogInv floor [] []) (withTaskTransition env id runtimeID allow precondition mutate)
      fun _ => LogInv floor [] [] := by
  unfold withTaskTransition
  refine .read fun _ => .read fun read => .of_ite (fun _ => ?_) fun _ => ?_
  · refine .read fun _ => .read fun r => .read fun _ => .of_pure fun _ h => h
  · iterate 3 refine .read fun _ => ?_
    split
    · exact .of_throw
    · refine .read fun _ => .read fun now => .read fun r => ?_
      exact .of_ite (fun _ => persistTaskState_log _) fun _ => .of_pure fun _ h => h

theorem supersedeReplacedFlightTasks_log {env : Env} {assetID runtimeID command taskID : String} :
    Spec (LogInv floor R []) (supersedeReplacedFlightTasks env assetID runtimeID command taskID)
      fun _ => LogInv floor R [] := by
  unfold supersedeReplacedFlightTasks
  split
  · exact .of_pure fun _ h => h
  · refine .read fun db => .of_ite (fun _ => .of_pure fun _ h => h) fun _ => .read fun now => ?_
    refine .forM fun task _ => .read fun r => ?_
    exact .bind (persistTaskState_log _) fun _ => .of_pure fun _ h => h

theorem createTaskRow_log {env : Env} {params : CreateTaskParams}
    {key taskID runtimeID : String} :
    Spec (LogInv floor [] []) (createTaskRow env params key taskID runtimeID)
      fun _ => LogInv floor [] [] := by
  unfold createTaskRow
  refine .bind nextChangeVersion_log fun v => .read fun _ => ?_
  refine .bind supersedeReplacedFlightTasks_log fun _ => .read fun created => .read fun updated => ?_
  refine .get fun db h => .of_require fun hnew => ?_
  refine .bind (Q := fun _ => LogInv floor [v] [(.task, taskID, v)]) (.of_modifyDB ?_) fun _ => ?_
  · rintro db rfl
    refine h.tasks (.insert fun t ht => ?_)
    have := hnew
    simp only [Bool.not_eq_true', List.any_eq_false, Bool.or_eq_true, decide_eq_true_eq,
      not_or] at this
    exact (this t ht).1
  · exact .bind (recordResourceChange_log rfl rfl rfl) fun _ => .of_pure fun _ h => h

theorem createTask_log {env : Env} {given : CreateTaskParams} {key taskID : String} :
    Spec (LogInv floor [] []) (TaskActions.create env given key taskID)
      fun _ => LogInv floor [] [] := by
  unfold TaskActions.create
  iterate 4 refine .read fun _ => ?_
  split
  · exact .read fun _ => .of_pure fun _ h => h
  · iterate 2 refine .read fun _ => ?_
    split
    · exact .of_throw
    · exact .of_throw
    · refine .read fun _ => ?_
      split
      · exact .of_throw
      · iterate 2 refine .read fun _ => ?_
        exact .bind createTaskRow_log fun _ => .of_pure fun _ h => h

theorem recordRuntimeManifestEntityChange_log (e : Entity) :
    Spec (LogInv floor [] []) (recordRuntimeManifestEntityChange e) fun _ => LogInv floor [] [] := by
  unfold recordRuntimeManifestEntityChange
  refine .bind nextChangeVersion_log fun v => .read fun now => .read fun row => ?_
  exact .bind (updateEntityRow_log _) fun _ => recordEntity_log rfl rfl

theorem beginRuntimeRegistration_log {env : Env} {assetID runtimeID : String} :
    Spec (LogInv floor [] []) (beginRuntimeRegistration env assetID runtimeID)
      fun _ => LogInv floor [] [] := by
  unfold beginRuntimeRegistration installRuntimeRegistration
  iterate 6 refine .read fun _ => ?_
  refine .of_ite (fun _ => .read fun _ => .of_pure fun _ h => h) fun _ => ?_
  refine .read fun _ => .read fun now => ?_
  refine .bind (Q := fun _ => LogInv floor [] []) (.of_modifyDB fun _ h => h.frame rfl) fun _ => ?_
  exact .bind (recordRuntimeManifestEntityChange_log _) fun _ => .of_pure fun _ h => h

theorem stopRuntime_log {env : Env} {assetID runtimeID : String} :
    Spec (LogInv floor [] []) (stopRuntime env assetID runtimeID) fun _ => LogInv floor [] [] := by
  unfold stopRuntime
  iterate 3 refine .read fun _ => ?_
  split
  · refine .of_ite (fun _ => .of_pure fun _ h => h) fun _ => ?_
    refine .bind (Q := fun _ => LogInv floor [] []) (.of_modifyDB fun _ h => h.frame rfl) fun _ => ?_
    refine .of_ite (fun _ => ?_) fun _ => .of_pure fun _ h => h
    exact .bind (recordRuntimeManifestEntityChange_log _) fun _ => .of_pure fun _ h => h
  · exact .of_pure fun _ h => h

theorem completeRuntimeRegistration_log {env : Env} {asset runtime : String}
    {manifest : CommandManifest} :
    Spec (LogInv floor [] []) (TaskActions.completeRuntimeRegistration env asset runtime manifest)
      fun _ => LogInv floor [] [] := by
  unfold TaskActions.completeRuntimeRegistration
  iterate 5 refine .read fun _ => ?_
  split
  · exact .of_throw
  · iterate 3 refine .read fun _ => ?_
    refine .of_ite (fun _ => .of_readOnly fun _ _ h => h) fun _ => .read fun _ => .read fun now => ?_
    refine .bind (Q := fun _ => LogInv floor [] []) (.of_modifyDB fun _ h => h.frame rfl) fun _ => ?_
    exact recordRuntimeManifestEntityChange_log _

theorem failTasks_log {now : Time} {failure : Task → TaskFailure} {tasks : List Task} :
    Spec (LogInv floor R []) (failTasks now failure tasks) fun _ => LogInv floor R [] := by
  unfold failTasks
  refine .forM fun task _ => .read fun r => ?_
  exact .bind (persistTaskState_log _) fun _ => .of_pure fun _ h => h

theorem failRuntimeTaskBatch_log {env : Env} {assetID runtimeID : String} {stale : Bool}
    {failure : TaskFailure} :
    Spec (LogInv floor [] []) (failRuntimeTaskBatch env assetID runtimeID stale failure)
      fun _ => LogInv floor [] [] := by
  unfold failRuntimeTaskBatch
  refine .read fun db => ?_
  split
  · refine .of_ite (fun _ => .of_pure fun _ h => h) fun _ => .read fun now => ?_
    exact .bind failTasks_log fun _ => .of_pure fun _ h => h
  · exact .of_pure fun _ h => h

theorem reconcileImmediateTimeouts_log {env : Env} :
    Spec (LogInv floor [] []) (TaskActions.reconcileImmediateTimeouts env)
      fun _ => LogInv floor [] [] := by
  unfold TaskActions.reconcileImmediateTimeouts
  refine .read fun now => .read fun db => .bind failTasks_log fun _ => .of_pure fun _ h => h

end Transactions

/-! ## Pruning -/

section Prune

variable {floor : ChangeClock}

/-- Rows may leave in any order of versions if the floor rises to the greatest of them. -/
theorem LogInv.prune {db : DB} (h : LogInv floor [] [] db) {versions : List ℕ} {through : ℕ}
    (hle : through ≤ db.changeClock.version)
    (hthrough : ∀ r ∈ db.changeEvents, r.version ∈ versions → r.version ≤ through) :
    LogInv floor [] []
      { db with
        changeEvents := db.changeEvents.filter fun r => !versions.contains r.version
        changeClock :=
          if db.changeClock.minRetainedVersion < through then
            { db.changeClock with minRetainedVersion := through }
          else db.changeClock } := by
  have hclock : (if db.changeClock.minRetainedVersion < through then
      { db.changeClock with minRetainedVersion := through } else db.changeClock)
      = ⟨db.changeClock.version, max db.changeClock.minRetainedVersion through⟩ := by
    split
    · rw [max_eq_right (le_of_lt ‹_›)]
    · rw [max_eq_left (not_lt.1 ‹_›)]
  rw [hclock]
  refine ⟨h.clock_mono, h.min_mono.trans (le_max_left _ _), max_le h.min_le hle, ?_, ?_, ?_, ?_,
    by simp, ?_⟩
  · exact fun r hr => h.row_version r (List.mem_filter.1 hr).1
  · exact fun r hr => h.row_le r (List.mem_filter.1 hr).1
  · exact h.unique.sublist (List.filter_sublist.map _)
  · intro v hmin hv _
    obtain ⟨hmin, hv'⟩ := max_lt_iff.1 hmin
    obtain ⟨r, hr, rfl⟩ := List.mem_map.1 (h.covered v hmin hv (by simp))
    refine List.mem_map.2 ⟨r, List.mem_filter.2 ⟨hr, ?_⟩, rfl⟩
    simp only [Bool.not_eq_true', List.contains_eq_mem, decide_eq_false_iff_not]
    exact fun hin => absurd (hthrough r hr hin) (not_le.2 hv')
  · intro t i w hw
    exact h.live t i w (by cases t <;> exact hw)

theorem pruneChangeRecordBatch_log {cutoff : Time} {batchSize : ℕ} :
    Spec (LogInv floor [] []) (pruneChangeRecordBatch cutoff batchSize)
      fun _ => LogInv floor [] [] := by
  unfold pruneChangeRecordBatch
  refine .get fun db h => ?_
  refine .bind (Q := fun _ => LogInv floor [] []) (.of_modifyDB ?_) fun _ => .of_pure fun _ h => h
  intro db' hdb
  subst hdb
  refine h.prune ?_ fun r hr hv => ?_
  · rcases hm : List.max? _ with _ | m
    · exact Nat.zero_le _
    · obtain ⟨r, hr, rfl⟩ := List.mem_map.1 (List.max?_mem hm)
      exact h.row_le r (List.mem_filter.1 hr).1
  · refine List.le_max?_getD_of_mem (List.mem_map.2 ⟨r, List.mem_filter.2 ⟨hr, ?_⟩, rfl⟩)
    simpa using hv

end Prune

/-! ## The system -/

section System

variable {floor : ChangeClock} (env : Env)

theorem discard_log {α : Type} {m : CoreTx α}
    (h : Spec (LogInv floor [] []) m fun _ => LogInv floor [] []) :
    Spec (LogInv floor [] []) (discard m) fun _ => LogInv floor [] [] :=
  .bind h fun _ => .of_pure fun _ h => h

theorem request_log (r : Request) :
    Spec (LogInv floor [] []) (r.run env) fun _ => LogInv floor [] [] := by
  cases r with
  | createEntity params movement => exact discard_log createEntity_log
  | updateEntity id params movement => exact discard_log updateEntity_log
  | deleteEntity id token => exact deleteEntity_log
  | createObject params => exact discard_log createObject_log
  | updateObject id params => exact discard_log updateObject_log
  | deleteObject id token => exact deleteObject_log
  | uploadPreflight params => exact discard_log uploadPreflight_log
  | uploadMetadata params preflight n => exact discard_log uploadMetadata_log
  | createTask params key taskID => exact discard_log createTask_log
  | acknowledge taskID runtimeID => exact discard_log (.read fun _ => withTaskTransition_log)
  | start taskID runtimeID => exact discard_log (.read fun _ => withTaskTransition_log)
  | progress taskID runtimeID value => exact discard_log (.read fun _ => withTaskTransition_log)
  | complete taskID runtimeID output => exact discard_log (.read fun _ => withTaskTransition_log)
  | fail taskID runtimeID failure =>
    exact discard_log (.read fun _ => .read fun _ => withTaskTransition_log)
  | cancel taskID cancellation => exact discard_log (.read fun _ => withTaskTransition_log)
  | completeRuntimeRegistration asset runtime manifest => exact completeRuntimeRegistration_log
  | reconcileImmediateTimeouts => exact discard_log reconcileImmediateTimeouts_log
  | pruneChangeRecordBatch cutoff n => exact discard_log pruneChangeRecordBatch_log

theorem call_log (c : Call) :
    Spec (LogInv floor [] []) (c.transaction env) fun _ => LogInv floor [] [] := by
  unfold Call.transaction
  split
  · exact .bind beginRuntimeRegistration_log fun _ => .of_pure fun _ h => h
  · exact .bind stopRuntime_log fun _ => .of_pure fun _ h => h
  · exact .bind failRuntimeTaskBatch_log fun _ => .of_pure fun _ h => h
  · exact .bind failRuntimeTaskBatch_log fun _ => .of_pure fun _ h => h
  · exact .of_pure fun _ h => h

theorem step_log (s : System) (e : Event) (h : LogInv floor [] [] s.db) :
    LogInv floor [] [] (s.step env e).db := by
  cases e with
  | request r readings => exact (request_log env r).commit h
  | call kind asset runtime => exact h
  | advance i readings =>
    simp only [System.step]
    split
    · exact h
    · rename_i c _
      simp only [advanceCall]
      rcases hr : c.transaction env ⟨s.db, readings⟩ with e | ⟨phase, s'⟩
      · exact h
      · exact call_log env c _ phase s' h hr
  | crash i =>
    simp only [System.step]
    repeat' split
    all_goals exact h
  | blobStore intents outbox => exact h.frame rfl

theorem logInv_empty : LogInv ⟨0, 0⟩ [] [] DB.empty := by
  refine ⟨le_rfl, le_rfl, le_rfl, by simp [DB.empty], by simp [DB.empty], by simp [DB.empty], ?_,
    by simp, ?_⟩
  · intro v hmin hv
    exact absurd (hmin.trans_le hv) (lt_irrefl 0)
  · intro t i w hw
    cases t <;> simp [Live, DB.empty] at hw

/-- The same invariant, measured from the state's own clock. -/
theorem LogInv.rebase {db : DB} (h : LogInv floor [] [] db) : LogInv db.changeClock [] [] db :=
  { h with clock_mono := le_rfl, min_mono := le_rfl }

theorem reachable_log {s : System} (h : Reachable env s) : LogInv ⟨0, 0⟩ [] [] s.db :=
  h.invariant _ (I := fun s => LogInv ⟨0, 0⟩ [] [] s.db) (step_log env) logInv_empty

theorem filter_version_eq {r : ChangeRow} : ∀ {rows : List ChangeRow},
    (rows.map (·.version)).Nodup → r ∈ rows → rows.filter (·.version = r.version) = [r]
  | a :: rows, hn, hr => by
    obtain ⟨ha, hn⟩ := List.nodup_cons.1 hn
    rcases List.mem_cons.1 hr with rfl | hr
    · rw [List.filter_cons_of_pos (by simp), List.filter_eq_nil_iff.2]
      intro b hb hv
      exact ha (List.mem_map.2 ⟨b, hb, by simpa using hv⟩)
    · rw [List.filter_cons_of_neg, filter_version_eq hn hr]
      intro hv
      exact ha (List.mem_map.2 ⟨r, hr, by simpa using (of_decide_eq_true hv).symm⟩)

/-- In every committed state each version above the retention floor has exactly one row, whose
event carries it; no row lies above the clock; neither clock field ever decreases; and each live
resource is at the version of the last event recorded for it. -/
theorem change_log_contiguous {s t : System} (hs : Reachable env s)
    (ht : Runs (System.step env) s t) :
    (∀ v, t.db.changeClock.minRetainedVersion < v → v ≤ t.db.changeClock.version →
      ∃ r, t.db.changeEvents.filter (·.version = v) = [r] ∧ r.event.version = v)
    ∧ (∀ r ∈ t.db.changeEvents, r.version ≤ t.db.changeClock.version)
    ∧ s.db.changeClock.version ≤ t.db.changeClock.version
    ∧ s.db.changeClock.minRetainedVersion ≤ t.db.changeClock.minRetainedVersion
    ∧ ∀ type id v, Live t.db type id v →
      lastVersion (t.db.recorded.map FeedEvent.stamp) type id = some v := by
  have h : LogInv s.db.changeClock [] [] t.db :=
    ht.invariant _ (I := fun u => LogInv s.db.changeClock [] [] u.db) (step_log env)
      (reachable_log env hs).rebase
  refine ⟨fun v hmin hv => ?_, h.row_le, h.clock_mono, h.min_mono, fun type id v hl => ?_⟩
  · obtain ⟨r, hr, rfl⟩ := List.mem_map.1 (h.covered v hmin hv (by simp))
    exact ⟨r, filter_version_eq h.unique hr, h.row_version r hr⟩
  · simpa using h.live type id v hl

/-- An installation that accepts every request, for runs on given inputs. -/
def plainEnv : Env :=
  { catalog := [⟨"flight.land", "", "", some .immediate⟩], pluginIDs := [], storageBucket := none,
    jsonEqual := fun a b => a = b, collation := fun a b => a < b, deriveToolAssetID := id,
    toolAssetPluginID := fun _ => .ok none, sha256Hex := id,
    validateTaskCreateRequest := fun _ _ _ => [], validateRuntimeRegistrationRequest := fun _ => [],
    validateRuntimeStopRequest := fun _ => [], validateRuntimeReadyRequest := fun _ _ => [],
    validateDefinition := fun _ _ => [], validateEntityComponents := fun _ => [],
    createEntityJSON := fun _ => .ok "{}", patchEntityJSON := fun json _ => .ok json,
    createObjectJSON := fun _ => .ok "{}", patchObjectJSON := fun json _ => .ok json,
    uploadObjectJSON := fun _ _ _ _ => .ok "{}", objectBucket := fun _ => none }

/-- Core after one Entity of type asset was created. -/
def oneAsset : System :=
  System.initial.step plainEnv
    (.request (.createEntity ⟨"a", "asset", "", none, none, none, none, [], ""⟩ (.ok ())) fun _ => 0)

theorem change_log_contiguous_oneAsset :
    oneAsset.db.changeClock = ⟨1, 0⟩ ∧ ∃ r, oneAsset.db.changeEvents.filter (·.version = 1) = [r]
      ∧ r.event.version = 1 := by
  have hclock : oneAsset.db.changeClock = ⟨1, 0⟩ := by decide +kernel
  have hrun : Runs (System.step plainEnv) System.initial oneAsset := .tail _ (.refl _)
  refine ⟨hclock, (change_log_contiguous plainEnv (.refl _) hrun).1 1 ?_ ?_⟩
  · rw [hclock]
    decide
  · rw [hclock]

end System

end Atlas.Core
