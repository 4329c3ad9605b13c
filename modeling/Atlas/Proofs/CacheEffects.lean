import Atlas.Sdk.Cache

/-!
# What an operation does to the cache

Whatever an operation does, one entry at most is written: a state at a version not below the
entry's, or a deletion at one. So what is shown is as good as the states that are let in.
-/

namespace Atlas.Sdk

open ResourceCache

section Effects

variable {c c' : ResourceCache} {P Q : Resource → ℕ → Prop}

/-- What an operation may do to the entries, with what is known of a state it lets in. -/
inductive Effect (P : Resource → ℕ → Prop) (c c' : ResourceCache) : Prop
  | kept (hentries : c'.entries = c.entries) (hrecords : c'.snapshotRecords = c.snapshotRecords)
    (hepoch : c'.hydrationEpoch = c.hydrationEpoch)
  | installed (value : Resource) (version : ℕ) (detail : Bool) (serial : ℕ)
    (hentries : c'.entries =
      c.entries.set value.key ⟨some value, version, false, detail, serial⟩)
    (hrecords : c'.snapshotRecords = c.snapshotRecords.updateSnapshot value.key value)
    (hepoch : c'.hydrationEpoch = c.hydrationEpoch)
    (hversion : ∀ existing, c.entries.get value.key = some existing → existing.version ≤ version)
    (hlet : P value version)
  | removed (key : ResourceKey) (version serial : ℕ)
    (hentries : c'.entries = c.entries.set key ⟨none, version, true, false, serial⟩)
    (hrecords : c'.snapshotRecords = c.snapshotRecords.removeFromSnapshot key)
    (hepoch : c'.hydrationEpoch = c.hydrationEpoch)
    (hversion : ∀ existing, c.entries.get key = some existing → existing.version ≤ version)

theorem Effect.mono (h : Effect P c c')
    (himp : ∀ value version, P value version → Q value version) : Effect Q c c' := by
  cases h with
  | kept hentries hrecords hepoch => exact .kept hentries hrecords hepoch
  | installed value version detail serial hentries hrecords hepoch hversion hlet =>
    exact .installed value version detail serial hentries hrecords hepoch hversion
      (himp _ _ hlet)
  | removed key version serial hentries hrecords hepoch hversion =>
    exact .removed key version serial hentries hrecords hepoch hversion

/-- What comes before and after an effect and leaves the entries alone. -/
theorem Effect.congr {d d' : ResourceCache} (h : Effect P d d') (hentries : d.entries = c.entries)
    (hrecords : d.snapshotRecords = c.snapshotRecords)
    (hepoch : d.hydrationEpoch = c.hydrationEpoch) (hentries' : c'.entries = d'.entries)
    (hrecords' : c'.snapshotRecords = d'.snapshotRecords)
    (hepoch' : c'.hydrationEpoch = d'.hydrationEpoch) : Effect P c c' := by
  cases h with
  | kept h₁ h₂ h₃ =>
    exact .kept (hentries'.trans (h₁.trans hentries)) (hrecords'.trans (h₂.trans hrecords))
      (hepoch'.trans (h₃.trans hepoch))
  | installed value version detail serial h₁ h₂ h₃ hversion hlet =>
    rw [hentries] at h₁ hversion
    rw [hrecords] at h₂
    exact .installed value version detail serial (hentries'.trans h₁) (hrecords'.trans h₂)
      (hepoch'.trans (h₃.trans hepoch)) hversion hlet
  | removed key version serial h₁ h₂ h₃ hversion =>
    rw [hentries] at h₁ hversion
    rw [hrecords] at h₂
    exact .removed key version serial (hentries'.trans h₁) (hrecords'.trans h₂)
      (hepoch'.trans (h₃.trans hepoch)) hversion

theorem Effect.after {d : ResourceCache} (h : Effect P d c') (hentries : d.entries = c.entries)
    (hrecords : d.snapshotRecords = c.snapshotRecords)
    (hepoch : d.hydrationEpoch = c.hydrationEpoch) : Effect P c c' :=
  h.congr hentries hrecords hepoch rfl rfl rfl

/-- A state is let in above the entry's version; at that version, where it adds the details of an
object that is shown, or where the reader wants it anyway. -/
def LetIn (c : ResourceCache) (value : Resource) (replaceSameVersion : Bool) (version : ℕ) : Prop :=
  ∀ existing, c.entries.get value.key = some existing → existing.version < version ∨
    existing.version = version ∧
      (value.type = .object ∧ existing.deleted = false ∨ replaceSameVersion = true)

theorem acceptVersion_effect (value : Resource) (options : ResourceReadOptions)
    (c : ResourceCache) :
    Effect (fun value' version => value' = value ∧
      version = options.version.getD (embeddedResourceVersion value) ∧
      LetIn c value options.replaceSameVersion version) c (c.acceptVersion value options).1 := by
  unfold acceptVersion
  simp only
  split
  · rename_i existing hexisting
    split_ifs with hbelow hsame
    · exact .kept rfl rfl rfl
    · exact .kept rfl rfl rfl
    · refine .installed value _ _ _ rfl rfl rfl (fun existing' hexisting' => ?_)
        ⟨rfl, rfl, fun existing' hexisting' => ?_⟩
      · rw [hexisting, Option.some.injEq] at hexisting'
        rw [← hexisting']
        exact Nat.le_of_not_lt hbelow
      · rw [hexisting, Option.some.injEq] at hexisting'
        rw [← hexisting']
        rcases (Nat.le_of_not_lt hbelow).lt_or_eq with hlt | heq
        · exact .inl hlt
        · refine .inr ⟨heq, ?_⟩
          simp only [heq, decide_true, Bool.true_and, Bool.and_true, Bool.and_eq_true,
            Bool.not_eq_true', not_and, Bool.not_eq_false] at hsame
          by_cases hreplace : options.replaceSameVersion = true
          · exact .inr hreplace
          · refine .inl ?_
            by_contra hnot
            refine hreplace (hsame ?_)
            simp only [Bool.and_eq_false_iff, decide_eq_false_iff_not, Bool.not_eq_false']
            by_cases hobject : value.type = .object
            · simp only [hobject, true_and, Bool.not_eq_false] at hnot
              simp [hnot]
            · simp [hobject]
  · rename_i hnone
    exact .installed value _ _ _ rfl rfl rfl (fun existing' hexisting' => by
      rw [hnone] at hexisting'
      cases hexisting') ⟨rfl, rfl, fun existing' hexisting' => by
      rw [hnone] at hexisting'
      cases hexisting'⟩

theorem acceptResource_effect (value : Resource) (options : ResourceReadOptions)
    (generation : Option ℕ) (c : ResourceCache) :
    Effect (fun value' version => value' = value ∧
      version = options.version.getD (embeddedResourceVersion value) ∧
      LetIn c value options.replaceSameVersion version) c
      (c.acceptResource value options generation).1 := by
  unfold acceptResource
  split
  · exact acceptVersion_effect value options c
  · split_ifs
    · exact .kept rfl rfl rfl
    · exact .kept rfl rfl rfl
    · exact acceptVersion_effect value options c

theorem settlePointRead_same (operation : PointReadOperation) (status : PointReadStatus)
    (c : ResourceCache) :
    (c.settlePointRead operation status).entries = c.entries ∧
      (c.settlePointRead operation status).snapshotRecords = c.snapshotRecords ∧
      (c.settlePointRead operation status).hydrationEpoch = c.hydrationEpoch := by
  unfold settlePointRead
  split
  · split_ifs <;> exact ⟨rfl, rfl, rfl⟩
  · exact ⟨rfl, rfl, rfl⟩

theorem applyPointRead_effect (operation : PointReadOperation) (value : Resource)
    (options : ResourceReadOptions) (c : ResourceCache) :
    Effect (fun value' version => value' = value ∧
      version = options.version.getD (embeddedResourceVersion value) ∧
      operation.hydrationEpoch = c.hydrationEpoch) c
      (c.applyPointRead operation value options).1 := by
  unfold applyPointRead
  split_ifs with hepoch
  · exact .kept rfl rfl rfl
  · have hsame := settlePointRead_same operation .succeeded c
    have heffect := acceptResource_effect value options (some operation.generation)
      (c.settlePointRead operation .succeeded)
    refine (heffect.mono fun value' version hlet => ?_).after hsame.1 hsame.2.1 hsame.2.2
    exact ⟨hlet.1, hlet.2.1, not_not.1 hepoch⟩

theorem le_versionFor {key : ResourceKey} (existing : CacheEntry)
    (h : c.entries.get key = some existing) : existing.version ≤ c.versionFor key := by
  unfold versionFor
  rw [h]
  rfl

theorem applyPointNotFoundNow_effect (operation : PointReadOperation) (c : ResourceCache) :
    Effect P c (c.applyPointNotFoundNow operation).1 := by
  unfold applyPointNotFoundNow
  simp only
  split_ifs
  · exact .kept rfl rfl rfl
  · exact .removed operation.key (c.versionFor operation.key) _ rfl rfl rfl le_versionFor

theorem applyPointNotFound_effect (operation : PointReadOperation) (c : ResourceCache) :
    Effect P c (c.applyPointNotFound operation).1 := by
  obtain ⟨h₁, h₂, h₃⟩ := settlePointRead_same operation .notFound c
  unfold applyPointNotFound
  simp only
  split_ifs
  · exact .kept rfl rfl rfl
  · split
    · split_ifs
      · exact (applyPointNotFoundNow_effect operation _).after rfl rfl rfl
      · exact applyPointNotFoundNow_effect operation _
      · exact .kept rfl rfl rfl
      · exact .kept rfl rfl rfl
      · exact (applyPointNotFoundNow_effect operation _).after h₁ h₂ h₃
    · exact (applyPointNotFoundNow_effect operation _).after h₁ h₂ h₃

theorem completePointRead_effect (operation : PointReadOperation) (c : ResourceCache) :
    Effect P c (c.completePointRead operation).1 := by
  unfold completePointRead
  simp only
  split_ifs
  · exact .kept rfl rfl rfl
  · split
    · split_ifs
      · exact .kept rfl rfl rfl
      · split
        · exact (applyPointNotFoundNow_effect _ _).after rfl rfl rfl
        · exact .kept rfl rfl rfl
    · exact .kept rfl rfl rfl

theorem applyWrite_effect (event : ResourceUpsertEvent) (detail : Bool) (c : ResourceCache) :
    Effect (fun value version => value = event.resource ∧ version = event.version ∧
      c.isSuppressedByLocalDelete event = false ∧ LetIn c event.resource false version) c
      (c.applyWrite event detail).1 := by
  unfold applyWrite
  split
  · exact .kept rfl rfl rfl
  · rename_i hsuppressed
    have heffect := (acceptResource_effect event.resource
      { detail := detail, version := some event.version } none c).mono
      fun value version hlet => (⟨hlet.1, hlet.2.1, Bool.not_eq_true _ ▸ hsuppressed, hlet.2.2⟩ :
        value = event.resource ∧ version = event.version ∧
          c.isSuppressedByLocalDelete event = false ∧ LetIn c event.resource false version)
    split
    · rename_i heq
      rw [heq] at heffect
      exact heffect
    · rename_i heq
      rw [heq] at heffect
      simp only
      refine heffect.congr rfl rfl rfl ?_ ?_ ?_ <;> split_ifs <;> rfl

theorem applyFeedEvent_effect (event : FeedEvent) (c : ResourceCache) :
    Effect (fun value version => ∃ upsert, event = .upsert upsert ∧ value = upsert.resource ∧
      version = upsert.version ∧ c.versionFor upsert.resource.key < upsert.version ∧
      c.isSuppressedByPendingDelete upsert = false) c (c.applyFeedEvent event).1 := by
  unfold applyFeedEvent
  split_ifs with hknown
  · exact .kept rfl rfl rfl
  · split
    · rename_i key version
      refine .removed key version _ rfl rfl rfl fun existing hexisting => ?_
      exact (le_versionFor existing hexisting).trans (Nat.le_of_not_le hknown)
    · rename_i upsert
      split_ifs with hsuppressed
      · exact .kept rfl rfl rfl
      · have heffect := (acceptResource_effect upsert.resource
          { version := some upsert.version } none c).mono
          (Q := fun value version => ∃ upsert', FeedEvent.upsert upsert = .upsert upsert' ∧
            value = upsert'.resource ∧ version = upsert'.version ∧
            c.versionFor upsert'.resource.key < upsert'.version ∧
            c.isSuppressedByPendingDelete upsert' = false)
          fun value version hlet => ⟨upsert, rfl, hlet.1, hlet.2.1, Nat.lt_of_not_le hknown,
            Bool.not_eq_true _ ▸ hsuppressed⟩
        simp only
        split_ifs <;> exact heffect.congr rfl rfl rfl rfl rfl rfl

theorem finishLocalDelete_effect (id : ℕ) (outcome : DeleteOutcome) (c : ResourceCache) :
    Effect P c (c.finishLocalDelete id outcome).1 := by
  unfold finishLocalDelete
  split
  · rename_i operation hoperation
    simp only
    split_ifs
    · exact .kept rfl rfl rfl
    · exact .kept rfl rfl rfl
    · exact .kept rfl rfl rfl
    all_goals exact .removed operation.key (c.versionFor operation.key) _ rfl rfl rfl le_versionFor
  · exact .kept rfl rfl rfl

end Effects

section Versions

variable {c c' : ResourceCache} {P : Resource → ℕ → Prop}

/-- The entries that are there stay, at their version or above. -/
def Grows (c c' : ResourceCache) : Prop :=
  ∀ key entry, c.entries.get key = some entry →
    ∃ entry', c'.entries.get key = some entry' ∧ entry.version ≤ entry'.version

theorem Grows.refl (c : ResourceCache) : Grows c c := fun _ entry hget => ⟨entry, hget, le_rfl⟩

theorem Grows.trans {c'' : ResourceCache} (h : Grows c c') (h' : Grows c' c'') : Grows c c'' := by
  intro key entry hget
  obtain ⟨entry', hget', hle⟩ := h key entry hget
  obtain ⟨entry'', hget'', hle'⟩ := h' key entry' hget'
  exact ⟨entry'', hget'', hle.trans hle'⟩

theorem grows_set {key : ResourceKey} {entry : CacheEntry}
    (hentries : c'.entries = c.entries.set key entry)
    (hversion : ∀ existing, c.entries.get key = some existing →
      existing.version ≤ entry.version) : Grows c c' := by
  intro key' existing hget
  rw [hentries, OrderedMap.get_set]
  split_ifs with hkey
  · exact ⟨entry, rfl, hversion existing (hkey ▸ hget)⟩
  · exact ⟨existing, hget, le_rfl⟩

theorem Effect.grows (h : Effect P c c') : Grows c c' := by
  cases h with
  | kept hentries _ _ =>
    intro key entry hget
    rw [hentries]
    exact ⟨entry, hget, le_rfl⟩
  | installed value version detail serial hentries _ _ hversion _ =>
    exact grows_set hentries hversion
  | removed key version serial hentries _ _ hversion => exact grows_set hentries hversion

end Versions

section Soundness

variable {c c' : ResourceCache} {P : Resource → ℕ → Prop} {Q : Resource → Prop}

/-- What is shown is good, the snapshot shows the same, and the entry of an Entity or an object has
the version of its state. -/
structure Sound (Q : Resource → Prop) (c : ResourceCache) : Prop where
  shown : ∀ key entry, c.entries.get key = some entry → entry.deleted = false →
    ∃ value, entry.value = some value ∧ value.key = key ∧ Q value ∧
      (value.type ≠ .task → entry.version = value.stateVersion)
  records : ∀ key, c.snapshotRecords.get key = c.value key

/-- The snapshot goes on to show what the entries say. -/
theorem Effect.records (heffect : Effect P c c')
    (h : ∀ key, c.snapshotRecords.get key = c.value key) (key : ResourceKey) :
    c'.snapshotRecords.get key = c'.value key := by
  have hold := h key
  unfold ResourceCache.value at hold ⊢
  cases heffect with
  | kept hentries hrecords _ =>
    rw [hrecords, hentries]
    exact hold
  | installed value version detail serial hentries hrecords _ _ _ =>
    rw [hrecords, hentries, SnapshotRecords.get_updateSnapshot, OrderedMap.get_set]
    split_ifs
    · rfl
    · exact hold
  | removed key' version serial hentries hrecords _ _ =>
    rw [hrecords, hentries, OrderedMap.get_set, SnapshotRecords.get_removeFromSnapshot]
    split_ifs
    · rfl
    · exact hold

theorem Sound.effect (h : Sound Q c) (heffect : Effect P c c')
    (hlet : ∀ value version, P value version →
      Q value ∧ (value.type ≠ .task → version = value.stateVersion)) : Sound Q c' := by
  refine ⟨fun key entry hget hlive => ?_, heffect.records h.records⟩
  cases heffect with
  | kept hentries hrecords _ => exact h.shown key entry (hentries ▸ hget) hlive
  | installed value version detail serial hentries hrecords _ _ hP =>
    rw [hentries, OrderedMap.get_set] at hget
    split_ifs at hget with hkey
    · rw [← Option.some.inj hget]
      exact ⟨value, rfl, hkey.symm, hlet _ _ hP⟩
    · exact h.shown key entry hget hlive
  | removed key' version serial hentries hrecords _ _ =>
    rw [hentries, OrderedMap.get_set] at hget
    split_ifs at hget
    · rw [← Option.some.inj hget] at hlive
      cases hlive
    · exact h.shown key entry hget hlive

theorem Effect.epoch (h : Effect P c c') : c'.hydrationEpoch = c.hydrationEpoch := by
  cases h <;> assumption

/-- Resources are taken one by one; each is at the version it carries. -/
theorem Sound.foldl (options : ResourceReadOptions) (hoptions : options.version = none) :
    ∀ (values : List Resource) (c : ResourceCache), Sound Q c → (∀ value ∈ values, Q value) →
      Sound Q (values.foldl (fun c value => (c.acceptResource value options none).1) c) ∧
      (values.foldl (fun c value => (c.acceptResource value options none).1) c).hydrationEpoch =
        c.hydrationEpoch
  | [], _, h, _ => ⟨h, rfl⟩
  | value :: values, c, h, hvalues => by
    have heffect := acceptResource_effect value options none c
    have hsound : Sound Q (c.acceptResource value options none).1 := by
      refine h.effect heffect fun value' version hlet => ?_
      obtain ⟨rfl, hversion, -⟩ := hlet
      refine ⟨hvalues _ (List.mem_cons_self ..), fun htype => ?_⟩
      rw [hversion, hoptions]
      simp [embeddedResourceVersion, Resource.metadata, htype]
    obtain ⟨hrest, hepoch⟩ := Sound.foldl options hoptions values _ hsound fun value' hmem =>
      hvalues value' (List.mem_cons_of_mem _ hmem)
    exact ⟨hrest, hepoch.trans heffect.epoch⟩

/-- A hydration shows its resources and nothing from before. -/
theorem sound_replace {entities tasks objects : List Resource}
    (h : ∀ value ∈ entities ++ tasks ++ objects, Q value) (c : ResourceCache) :
    Sound Q (c.replaceHydratedResources entities tasks objects) ∧
      (c.replaceHydratedResources entities tasks objects).hydrationEpoch =
        c.hydrationEpoch + 1 := by
  unfold replaceHydratedResources
  simp only
  obtain ⟨h₁, e₁⟩ := Sound.foldl (Q := Q) {} rfl entities
    { c with
      entries := .empty
      pendingDeletes := .empty
      localDeleteKeys := .empty
      localDeleteInstances := .empty
      locallyNotifiedDeletes := .empty
      localDeleteOperations := c.localDeleteOperations.map fun operation =>
        { operation with active := false }
      generations := .empty
      pointReadStates := .empty
      deferredPointNotFound := .empty
      hydrationEpoch := c.hydrationEpoch + 1
      snapshotRecords := c.snapshotRecords.clear } ⟨nofun, fun _ => rfl⟩
    fun value hmem => h value (List.mem_append_left _ (List.mem_append_left _ hmem))
  obtain ⟨h₂, e₂⟩ := Sound.foldl {} rfl tasks _ h₁
    fun value hmem => h value (List.mem_append_left _ (List.mem_append_right _ hmem))
  obtain ⟨h₃, e₃⟩ := Sound.foldl { detail := true } rfl objects _ h₂
    fun value hmem => h value (List.mem_append_right _ hmem)
  exact ⟨h₃, e₃.trans (e₂.trans e₁)⟩

end Soundness

end Atlas.Sdk
