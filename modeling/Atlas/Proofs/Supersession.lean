import Atlas.Proofs.Marking

/-!
# Nothing older comes back

An entity or object is known at an Atlas version, by its record or by its tombstone. A publication
takes the place of what is held only if it is newer, so the version goes up, or stays and the
publication is decided by Core, or more recent; only a refresh lets a record go.
-/

namespace Atlas.Picture

open Atlas.Link (LinkNode ResourceType ConfirmationState)

variable (env : PictureEnv)

/-- The Atlas version at which a resource is held. -/
def SharedPicture.heldVersion (p : SharedPicture) (key : String) : Option ℕ :=
  match p.records.get key with
  | some record => record.atlasVersion
  | none => (p.tombstones.get key).map (·.atlasVersion)

theorem recordKey_inj {type type' : ResourceType} {id id' : String}
    (h : recordKey type id = recordKey type' id') : type = type' := by
  have hlist := congrArg String.toList h
  simp only [recordKey, String.toList_append] at hlist
  cases type <;> cases type' <;> simp [ResourceType.text] at hlist <;> rfl

/-- A publication for an entity or object has a version. -/
theorem resourceVersion_eq_some {publication : StatePublication}
    (h : publication.published.resourceType ≠ .task) :
    ∃ version, resourceVersion publication = some version := by
  unfold resourceVersion
  rcases hpublished : publication.published with r | ⟨type, id, version, hnot⟩
  · rw [hpublished] at h
    cases r with
    | entity e => exact ⟨_, rfl⟩
    | task t => exact absurd rfl h
    | object o => exact ⟨_, rfl⟩
  · exact ⟨_, rfl⟩

section Newer

variable {publication : StatePublication} {context : PictureApplyContext} {record : PictureRecord}
  {version version' : ℕ}

/-- A publication with a version is newer than a record only at its version or a higher one. -/
theorem le_of_isNewer (hnext : resourceVersion publication = some version')
    (hcurrent : record.atlasVersion = some version)
    (h : isNewer env publication record context = true) : version ≤ version' := by
  unfold isNewer at h
  rw [hnext, hcurrent] at h
  by_cases hne : version' = version
  · omega
  · simp only [ne_eq, hne, not_false_eq_true, if_true, decide_eq_true_eq] at h
    omega

/-- At the same version, a lower rank needs a later observation. -/
theorem laterThan_of_isNewer (hnext : resourceVersion publication = some version)
    (hcurrent : record.atlasVersion = some version)
    (hrank : confirmationRank publication.confirmation < confirmationRank record.confirmation)
    (h : isNewer env publication record context = true) :
    laterThan env publication.observationTime record.observationTime = true := by
  unfold isNewer at h
  rw [hnext, hcurrent] at h
  have hnot : ¬ confirmationRank record.confirmation < confirmationRank publication.confirmation := by
    omega
  simpa [hnot, hrank] using h

theorem canReplaceTombstone_iff {tombstone : PictureTombstone}
    (hnext : resourceVersion publication = some version) :
    canReplaceTombstone publication tombstone = true ↔
      tombstone.atlasVersion < version ∨ version = tombstone.atlasVersion ∧
        confirmationRank tombstone.confirmation < confirmationRank publication.confirmation := by
  unfold canReplaceTombstone
  rw [hnext]
  by_cases h : version = tombstone.atlasVersion <;> simp [h]

end Newer

section Steps

variable {env} {p : SharedPicture} {type : ResourceType} {id : String}

theorem heldVersion_of_eq {p p' : SharedPicture} {key : String}
    (hr : (p'.records.get key).map PictureRecord.core = (p.records.get key).map PictureRecord.core)
    (ht : p'.tombstones.get key = p.tombstones.get key) :
    p'.heldVersion key = p.heldVersion key := by
  have hversion : (p'.records.get key).map PictureRecord.atlasVersion =
      (p.records.get key).map PictureRecord.atlasVersion := by
    have := congrArg (Option.map PictureRecord.atlasVersion) hr
    simpa [Function.comp_def, PictureRecord.core] using this
  unfold SharedPicture.heldVersion
  rw [ht]
  cases hr₀ : p.records.get key <;> cases hr₁ : p'.records.get key <;> simp_all

theorem heldVersion_of_refreshed {p p' : SharedPicture} (h : Refreshed p p') (key : String) :
    p'.heldVersion key = p.heldVersion key :=
  heldVersion_of_eq (h.records key) (by rw [h.tombstones])

/-- An accepted publication is held at its version. -/
theorem Superseded.heldVersion {publication : StatePublication} {context : PictureApplyContext}
    {p p' : SharedPicture} (h : Superseded env publication context p p') :
    p'.heldVersion publication.key = resourceVersion publication := by
  have hentry := h.entry
  unfold SharedPicture.heldVersion
  split at hentry
  · rename_i hpublished
    rw [hentry.1, hentry.2, resourceVersion, hpublished]
    rfl
  · rename_i hpublished
    obtain ⟨r, hr, hcore⟩ := Option.map_eq_some_iff.1 hentry.1
    rw [hr]
    exact congrArg PictureRecord.atlasVersion hcore

/-- What is held of a resource is held at a version, and by one entry. -/
theorem Reachable.version (hp : Reachable env p) (htype : type ≠ .task) {r : PictureRecord}
    (hr : p.records.get (recordKey type id) = some r) : ∃ version, r.atlasVersion = some version := by
  have hsound := hp.sound env _ r hr
  have := recordKey_inj hsound.key_eq
  exact Option.isSome_iff_exists.1 (hsound.version (this ▸ htype))

theorem version_of_key {publication : StatePublication} (htype : type ≠ .task)
    (hkey : publication.key = recordKey type id) :
    ∃ version, resourceVersion publication = some version := by
  refine resourceVersion_eq_some ?_
  rw [recordKey_inj (show recordKey _ _ = _ from hkey)]
  exact htype

/-- One operation lets the version of a resource go up, or lets go of a record. -/
theorem heldVersion_step (hp : Reachable env p) (htype : type ≠ .task) (op : PictureOp)
    {version : ℕ} (hversion : p.heldVersion (recordKey type id) = some version) :
    (∃ version', (op.run env p).heldVersion (recordKey type id) = some version' ∧
        version ≤ version') ∨
      (op.run env p).heldVersion (recordKey type id) = none ∧ (∃ now, op = .refresh now) ∧
        p.tombstones.get (recordKey type id) = none := by
  rcases run_effect env op (hp.exclusive env) with h | ⟨publication, context, -, h⟩ | ⟨now, hop, h⟩
  · rw [heldVersion_of_refreshed h, hversion]
    exact .inl ⟨version, rfl, le_rfl⟩
  · refine .inl ?_
    by_cases hk : recordKey type id = publication.key
    · obtain ⟨version', hnext⟩ := version_of_key htype hk.symm
      refine ⟨version', by rw [hk, h.heldVersion, hnext], ?_⟩
      unfold SharedPicture.heldVersion at hversion
      split at hversion
      · rename_i r hr
        exact le_of_isNewer env hnext hversion (h.newer r (hk ▸ hr))
      · obtain ⟨t, ht, rfl⟩ := Option.map_eq_some_iff.1 hversion
        have hreplace := h.replaces t (hk ▸ ht)
        rw [canReplaceTombstone_iff hnext] at hreplace
        omega
    · obtain ⟨hr, ht⟩ := h.elsewhere _ hk
      rw [heldVersion_of_eq hr ht, hversion]
      exact ⟨version, rfl, le_rfl⟩
  · rcases h.records (recordKey type id) with hr | hr
    · rw [heldVersion_of_eq hr (by rw [h.tombstones]), hversion]
      exact .inl ⟨version, rfl, le_rfl⟩
    · rcases hr₀ : p.records.get (recordKey type id) with _ | r
      · have hsame : (op.run env p).heldVersion (recordKey type id) =
            p.heldVersion (recordKey type id) :=
          heldVersion_of_eq (by simp [hr, hr₀]) (by rw [h.tombstones])
        rw [hsame, hversion]
        exact .inl ⟨version, rfl, le_rfl⟩
      · have ht := hp.exclusive env _ r hr₀
        refine .inr ⟨?_, ⟨now, hop⟩, ht⟩
        unfold SharedPicture.heldVersion
        rw [hr, h.tombstones, ht]
        rfl

theorem heldVersion_run (htype : type ≠ .task) :
    ∀ (ops : List PictureOp) {p : SharedPicture}, Reachable env p →
      (∀ earlier later, ops = earlier ++ later →
        (earlier.foldl (PictureOp.run env) p).heldVersion (recordKey type id) ≠ none) →
      ∀ version, p.heldVersion (recordKey type id) = some version →
        ∃ version', (ops.foldl (PictureOp.run env) p).heldVersion (recordKey type id) =
          some version' ∧ version ≤ version'
  | [], _, _, _, version, hversion => ⟨version, hversion, le_rfl⟩
  | op :: ops, p, hp, hheld, version, hversion => by
    rcases heldVersion_step hp htype op hversion with ⟨version₁, hversion₁, hle⟩ | ⟨hnone, -⟩
    · obtain ⟨version₂, hversion₂, hle₂⟩ := heldVersion_run htype ops (hp.step op)
        (fun earlier later heq => hheld (op :: earlier) later (by rw [heq]; rfl)) version₁ hversion₁
      exact ⟨version₂, hversion₂, hle.trans hle₂⟩
    · exact absurd hnone (hheld [op] ops rfl)

/-- A tombstone gives way to what may replace it only. -/
theorem tombstone_step (hp : Reachable env p) (htype : type ≠ .task) (op : PictureOp)
    {t : PictureTombstone} (ht : p.tombstones.get (recordKey type id) = some t) :
    (op.run env p).tombstones.get (recordKey type id) = some t ∨
      ∃ publication context version, op = .apply publication context ∧
        publication.key = recordKey type id ∧ resourceVersion publication = some version ∧
        (t.atlasVersion < version ∨ version = t.atlasVersion ∧
          confirmationRank t.confirmation < confirmationRank publication.confirmation) := by
  rcases run_effect env op (hp.exclusive env) with h | ⟨publication, context, hop, h⟩ | ⟨now, -, h⟩
  · exact .inl (by rw [h.tombstones, ht])
  · by_cases hk : recordKey type id = publication.key
    · obtain ⟨version, hnext⟩ := version_of_key htype hk.symm
      have hreplace := h.replaces t (hk ▸ ht)
      rw [canReplaceTombstone_iff hnext] at hreplace
      exact .inr ⟨publication, context, version, hop, hk.symm, hnext, hreplace⟩
    · exact .inl (by rw [(h.elsewhere _ hk).2, ht])
  · exact .inl (by rw [h.tombstones, ht])

/-- What Core decided is not replaced, at its version, by something Core has not decided and that
was not observed later. -/
theorem decided_step (hp : Reachable env p) (htype : type ≠ .task) {r : PictureRecord}
    (hr : p.records.get (recordKey type id) = some r) {publication : StatePublication}
    (context : PictureApplyContext) (hkey : publication.key = recordKey type id)
    (hversion : resourceVersion publication = r.atlasVersion)
    (hrank : confirmationRank publication.confirmation < confirmationRank r.confirmation)
    (hlater : laterThan env publication.observationTime r.observationTime = false) :
    ((PictureOp.run env p (.apply publication context)).records.get (recordKey type id)).map
      PictureRecord.core = some r.core := by
  obtain ⟨version, hcurrent⟩ := hp.version htype hr
  have heffect := apply_effect env publication context (hp.exclusive env)
  have hrun : PictureOp.run env p (.apply publication context) =
      (p.apply env publication context).1 := rfl
  rcases hresult : p.apply env publication context with ⟨p', result⟩
  rw [hresult] at heffect hrun
  rw [hrun]
  cases heffect with
  | rejected h => rw [h.records, hr, Option.map_some]
  | applied h =>
    have hnewer := h.newer r (hkey ▸ hr)
    have := laterThan_of_isNewer env (hversion.trans hcurrent) hcurrent hrank hnewer
    rw [hlater] at this
    cases this

end Steps

section Deleted

def deletedObject : StatePublication :=
  ⟨.deleted .object "map-1" 3 (by decide), "5", .gatewayFeed, .coreConfirmed, none, none⟩

def olderObject : StatePublication :=
  ⟨.resource (.object ⟨"map-1", 2, "{}"⟩), "9", .gatewayFeed, .coreConfirmed, none, none⟩

def objectContext (node : LinkNode) : PictureApplyContext := ⟨node, 1, "boot-1", 1, 0, plainBootId_ne⟩

end Deleted

end Atlas.Picture
