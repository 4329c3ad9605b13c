import Atlas.Proofs.CacheEffects

/-!
# What a snapshot shows

The records of a snapshot follow the entries through every call, and a record or the snapshot that
is not dirty holds what it would be built anew of. So it does not matter when a snapshot was read
last.
-/

namespace Atlas.Sdk

open ResourceCache

/-- A call of a cache that changes it; the others only read. -/
inductive CacheCall
  | snapshot
  | beginPointRead (key : ResourceKey)
  | applyPointRead (operation : PointReadOperation) (value : Resource)
      (options : ResourceReadOptions)
  | applyPointNotFound (operation : PointReadOperation)
  | completePointRead (operation : PointReadOperation)
  | applyWrite (event : ResourceUpsertEvent) (detail : Bool)
  | applyFeedEvent (event : FeedEvent)
  | replaceHydratedResources (entities tasks objects : List Resource)
  | beginLocalDelete (key : ResourceKey)
  | finishLocalDelete (id : ℕ) (outcome : DeleteOutcome)
  | cancelLocalDelete (id : ℕ)

def CacheCall.hydrates : CacheCall → Bool
  | .replaceHydratedResources _ _ _ => true
  | _ => false

def ResourceCache.perform (c : ResourceCache) : CacheCall → ResourceCache
  | .snapshot => c.snapshot.1
  | .beginPointRead key => (c.beginPointRead key).1
  | .applyPointRead operation value options =>
    if value.key = operation.key then (c.applyPointRead operation value options).1
    -- The state of another resource throws, when the read is settled already.
    else if operation.hydrationEpoch ≠ c.hydrationEpoch then c
    else c.settlePointRead operation .succeeded
  | .applyPointNotFound operation => (c.applyPointNotFound operation).1
  | .completePointRead operation => (c.completePointRead operation).1
  | .applyWrite event detail => (c.applyWrite event detail).1
  | .applyFeedEvent event => (c.applyFeedEvent event).1
  | .replaceHydratedResources entities tasks objects =>
    c.replaceHydratedResources entities tasks objects
  | .beginLocalDelete key => (c.beginLocalDelete key).1
  | .finishLocalDelete id outcome => (c.finishLocalDelete id outcome).1
  | .cancelLocalDelete id => c.cancelLocalDelete id

def ResourceCache.performAll (calls : List CacheCall) (c : ResourceCache) : ResourceCache :=
  calls.foldl perform c

variable {c c' : ResourceCache} {P : Resource → ℕ → Prop}

/-- An entry that is not deleted has a state, and the records hold the states of the entries. -/
structure Listed (c : ResourceCache) : Prop where
  shown : ∀ key entry, c.entries.get key = some entry → entry.deleted = false →
    entry.value.isSome = true
  records : ∀ key, c.snapshotRecords.get key = c.value key

section Calls

theorem Listed.effect (h : Listed c) (heffect : Effect P c c') : Listed c' := by
  refine ⟨fun key entry hget hlive => ?_, heffect.records h.records⟩
  cases heffect with
  | kept hentries _ _ => exact h.shown key entry (hentries ▸ hget) hlive
  | installed value version detail serial hentries _ _ _ _ =>
    rw [hentries, OrderedMap.get_set] at hget
    split_ifs at hget
    · rw [← Option.some.inj hget]
      rfl
    · exact h.shown key entry hget hlive
  | removed key' version serial hentries _ _ _ =>
    rw [hentries, OrderedMap.get_set] at hget
    split_ifs at hget
    · rw [← Option.some.inj hget] at hlive
      cases hlive
    · exact h.shown key entry hget hlive

theorem Listed.foldl (options : ResourceReadOptions) : ∀ (values : List Resource)
    (c : ResourceCache), Listed c →
    Listed (values.foldl (fun c value => (c.acceptResource value options none).1) c)
  | [], _, h => h
  | value :: values, c, h =>
    Listed.foldl options values _ (h.effect (acceptResource_effect value options none c))

theorem listed_replace (entities tasks objects : List Resource) (c : ResourceCache) :
    Listed (c.replaceHydratedResources entities tasks objects) := by
  unfold replaceHydratedResources
  refine Listed.foldl _ objects _ (Listed.foldl _ tasks _ (Listed.foldl _ entities _ ?_))
  exact ⟨nofun, fun _ => rfl⟩

/-- A call other than a reading and a hydration writes one entry at most. -/
theorem perform_effect (call : CacheCall) (c : ResourceCache) :
    (c.perform call = c.snapshot.1 ∨ Effect (fun _ _ => True) c (c.perform call)) ∨
      call.hydrates = true := by
  cases call with
  | snapshot => exact .inl (.inl rfl)
  | beginPointRead key => exact .inl (.inr (.kept rfl rfl rfl))
  | applyPointRead operation value options =>
    refine .inl (.inr ?_)
    simp only [ResourceCache.perform]
    split_ifs
    · exact (applyPointRead_effect operation value options c).mono fun _ _ _ => trivial
    · exact .kept rfl rfl rfl
    · obtain ⟨h₁, h₂, h₃⟩ := settlePointRead_same operation .succeeded c
      exact .kept h₁ h₂ h₃
  | applyPointNotFound operation => exact .inl (.inr (applyPointNotFound_effect operation c))
  | completePointRead operation => exact .inl (.inr (completePointRead_effect operation c))
  | applyWrite event detail =>
    exact .inl (.inr ((applyWrite_effect event detail c).mono fun _ _ _ => trivial))
  | applyFeedEvent event =>
    exact .inl (.inr ((applyFeedEvent_effect event c).mono fun _ _ _ => trivial))
  | replaceHydratedResources entities tasks objects => exact .inr rfl
  | beginLocalDelete key => exact .inl (.inr (.kept rfl rfl rfl))
  | finishLocalDelete id outcome => exact .inl (.inr (finishLocalDelete_effect id outcome c))
  | cancelLocalDelete id => exact .inl (.inr (.kept rfl rfl rfl))

theorem Listed.snapshot (h : Listed c) : Listed c.snapshot.1 :=
  ⟨h.shown, fun key => SnapshotRecords.get_snapshot.trans (h.records key)⟩

theorem Listed.perform (h : Listed c) (call : CacheCall) : Listed (c.perform call) := by
  rcases perform_effect call c with (hread | heffect) | hhydrates
  · rw [hread]
    exact h.snapshot
  · exact h.effect heffect
  · cases call with
    | replaceHydratedResources entities tasks objects =>
      exact listed_replace entities tasks objects c
    | _ => cases hhydrates

theorem Listed.performAll : ∀ (calls : List CacheCall) (c : ResourceCache), Listed c →
    Listed (c.performAll calls)
  | [], _, h => h
  | call :: calls, _, h => Listed.performAll calls _ (h.perform call)

theorem grows_performAll : ∀ (calls : List CacheCall) (c : ResourceCache),
    (∀ call ∈ calls, call.hydrates = false) → Grows c (c.performAll calls)
  | [], c, _ => .refl c
  | call :: calls, c, hcalls => by
    have hrest := grows_performAll calls (c.perform call) fun call' hmem =>
      hcalls call' (List.mem_cons_of_mem _ hmem)
    refine Grows.trans ?_ hrest
    rcases perform_effect call c with (hread | heffect) | hhydrates
    · rw [hread]
      exact .refl c
    · exact heffect.grows
    · rw [hcalls call (List.mem_cons_self ..)] at hhydrates
      cases hhydrates

theorem Listed.get_snapshot (h : Listed c) (type : ResourceType) (id : String) :
    (c.snapshot.2 type).get id = c.value (type, id) :=
  (@SnapshotRecords.snapshotValue_snapshot _ _ c.snapshotRecords (type, id)).trans
    (h.records (type, id))

end Calls

/-- After any calls a snapshot lists the resources that are not deleted, each with its state; and
from there on, until the next hydration, the versions of the entries do not go down. -/
theorem snapshot_lists (calls : List CacheCall) :
    (∀ type id, ((ResourceCache.new.performAll calls).snapshot.2 type).has id = true ↔
      ∃ entry, (ResourceCache.new.performAll calls).entries.get (type, id) = some entry ∧
        entry.deleted = false) ∧
    (∀ type id entry, (ResourceCache.new.performAll calls).entries.get (type, id) = some entry →
      entry.deleted = false →
      ((ResourceCache.new.performAll calls).snapshot.2 type).get id = entry.value) ∧
    ∀ more : List CacheCall, (∀ call ∈ more, call.hydrates = false) →
      Grows (ResourceCache.new.performAll calls)
        (ResourceCache.new.performAll (calls ++ more)) := by
  have h : Listed (ResourceCache.new.performAll calls) :=
    Listed.performAll calls _ ⟨nofun, fun _ => rfl⟩
  refine ⟨fun type id => ?_, fun type id entry hget hlive => ?_, fun more hmore => ?_⟩
  · rw [OrderedMap.has_eq_true_iff, h.get_snapshot]
    constructor
    · rintro ⟨value, hvalue⟩
      obtain ⟨entry, hget, hentry⟩ := Option.bind_eq_some_iff.1 hvalue
      split_ifs at hentry with hdeleted
      exact ⟨entry, hget, Bool.not_eq_true _ ▸ hdeleted⟩
    · rintro ⟨entry, hget, hlive⟩
      obtain ⟨value, hvalue⟩ := Option.isSome_iff_exists.1 (h.shown _ _ hget hlive)
      exact ⟨value, by simp [ResourceCache.value, hget, hlive, hvalue]⟩
  · rw [h.get_snapshot]
    simp [ResourceCache.value, hget, hlive]
  · unfold ResourceCache.performAll
    rw [List.foldl_append]
    exact grows_performAll more _ hmore

/-- An Entity is written and read, then deleted while the snapshot is stale. -/
theorem snapshot_lists_deleted :
    Grows
      (ResourceCache.new.performAll
        [.applyWrite ⟨.create, 3, ⟨.entity, "drone", "noon", 3⟩⟩ false, .snapshot,
          .beginLocalDelete (.entity, "drone")])
      (ResourceCache.new.performAll
        ([.applyWrite ⟨.create, 3, ⟨.entity, "drone", "noon", 3⟩⟩ false, .snapshot,
          .beginLocalDelete (.entity, "drone")] ++ [.finishLocalDelete 0 .deleted])) :=
  (snapshot_lists _).2.2 [.finishLocalDelete 0 .deleted] (by decide)

end Atlas.Sdk
