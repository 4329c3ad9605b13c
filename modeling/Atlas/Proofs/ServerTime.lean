import Atlas.Sdk.Engine
import Atlas.Proofs.CacheEffects

/-!
# The cache in the server's time

The versions of an entry go up until the next hydration. What the cache shows after one is of the
watermark or later as long as whatever else comes in late is: the cursor and the hydration's epoch
see to that for the feed's events and the reads, but for nothing else.
-/

namespace Atlas.Sdk

open ResourceCache

section Steps

variable {server : Server} {s : SyncEngine} {event : SyncEvent}

/-- The state that a write's response, a changed-since page or an event that has waited for missing
ones brings, whatever the cursor. -/
def SyncEngine.delivers (s : SyncEngine) : SyncEvent → Option ResourceUpsertEvent
  | .write event => if s.cache.isSuppressedByLocalDelete event then none else some event
  | .recovered id (.upsert event) =>
    match s.handlers[id]? with
    | some (.recovering _ lastEventVersion) =>
      if event.version ≤ lastEventVersion ∨ s.cache.isSuppressedByPendingDelete event then none
      else some event
    | _ => none
  | .recoveredMissing id true =>
    match s.handlers[id]? with
    | some (.missing (.upsert event)) =>
      if s.cache.isSuppressedByPendingDelete event then none else some event
    | _ => none
  | _ => none

/-- The states that an event may let into the cache. -/
def Lets (s : SyncEngine) (event : SyncEvent) (value : Resource) (version : ℕ) : Prop :=
  (∃ upsert, s.delivers event = some upsert ∧ value = upsert.resource ∧ version = upsert.version ∧
    LetIn s.cache value false version) ∨
  (∃ (id : ℕ) (upsert : ResourceUpsertEvent),
    s.handlers[id]? = some (.consuming (.upsert upsert)) ∧ value = upsert.resource ∧
    version = upsert.version ∧ s.feedCursor < version) ∨
  ∃ (id : ℕ) (operation : PointReadOperation) (fresh : Bool),
    s.handlers[id]? = some (.answered operation fresh (some value)) ∧
    version = (SyncEngine.readOptions value fresh).version.getD (embeddedResourceVersion value) ∧
    operation.hydrationEpoch = s.cache.hydrationEpoch

abbrev Effects (P : Resource → ℕ → Prop) : ResourceCache → ResourceCache → Prop :=
  Relation.ReflTransGen (Effect P)

theorem failPointRead_effects {P : Resource → ℕ → Prop} (operation : PointReadOperation)
    (s : SyncEngine) : Effects P s.cache (s.failPointRead operation).cache := by
  unfold SyncEngine.failPointRead
  split_ifs
  · exact .refl
  · exact .single (completePointRead_effect operation s.cache)

theorem pointNotFound_effects {P : Resource → ℕ → Prop} (operation : PointReadOperation)
    (s : SyncEngine) : Effects P s.cache (s.pointNotFound operation).cache := by
  unfold SyncEngine.pointNotFound
  split_ifs
  · exact .refl
  · have heffect := applyPointNotFound_effect (P := P) operation s.cache
    split
    · rename_i heq
      rw [heq] at heffect
      exact .single heffect
    · rename_i cache heq
      rw [heq] at heffect
      exact (Relation.ReflTransGen.single heffect).trans
        (failPointRead_effects operation { s with cache := cache })

/-- A feed event that is let in is above the entry's version. -/
theorem letIn_of_versionFor {c : ResourceCache} {value : Resource} {version : ℕ}
    (h : c.versionFor value.key < version) : LetIn c value false version :=
  fun existing hexisting => .inl ((le_versionFor existing hexisting).trans_lt h)

/-- All that an event does to the cache, a hydration's installation apart. -/
theorem step_effects (hevent : ∀ id, event ≠ .install id) :
    Effects (Lets s event) s.cache (s.step event).cache := by
  cases event with
  | advance => exact .refl
  | read key fresh => exact .single (.kept rfl rfl rfl)
  | answer id value =>
    simp only [SyncEngine.step, SyncEngine.answer]
    split <;> exact .refl
  | deliver id =>
    simp only [SyncEngine.step, SyncEngine.deliver]
    split
    · rename_i operation fresh value hhandler
      split_ifs
      · exact failPointRead_effects operation s
      · refine .single ((applyPointRead_effect operation value _ s.cache).mono ?_)
        rintro value' version ⟨rfl, hversion, hepoch⟩
        exact Or.inr (.inr ⟨id, operation, fresh, hhandler, hversion, hepoch⟩)
    · exact pointNotFound_effects _ s
    · exact .refl
  | failRead id =>
    simp only [SyncEngine.step, SyncEngine.failRead]
    split
    · exact failPointRead_effects _ s
    · exact .refl
  | write upsert =>
    refine .single ((applyWrite_effect upsert _ s.cache).mono ?_)
    rintro value version ⟨rfl, rfl, hsuppressed, hlet⟩
    refine Or.inl ⟨upsert, ?_, rfl, rfl, hlet⟩
    simp [SyncEngine.delivers, hsuppressed]
  | delete key => exact .single (.kept rfl rfl rfl)
  | finishDelete id outcome =>
    simp only [SyncEngine.step, SyncEngine.finishDelete]
    split
    · rename_i operation hhandler
      refine (Relation.ReflTransGen.single
        (finishLocalDelete_effect operation outcome s.cache)).trans ?_
      unfold SyncEngine.reconcileLocalDelete
      split
      · split_ifs
        · exact .single (.kept rfl rfl rfl)
        · exact .refl
      · exact .refl
    · exact .refl
  | failDelete id =>
    simp only [SyncEngine.step, SyncEngine.failDelete]
    split
    · exact .single (.kept rfl rfl rfl)
    · exact .refl
  | hydrate => exact .refl
  | page id version entities tasks objects =>
    simp only [SyncEngine.step, SyncEngine.page]
    split
    · split_ifs <;> exact .refl
    · exact .refl
  | install id => exact absurd rfl (hevent id)
  | recover sinceVersion => exact .refl
  | recovered id event =>
    simp only [SyncEngine.step, SyncEngine.recovered]
    split
    · rename_i sinceVersion lastEventVersion hhandler
      split_ifs with hlast
      · exact .refl
      · refine .single ((applyFeedEvent_effect event s.cache).mono ?_)
        rintro value version ⟨upsert, rfl, rfl, rfl, hversion, hsuppressed⟩
        refine Or.inl ⟨upsert, ?_, rfl, rfl, letIn_of_versionFor hversion⟩
        have hlast' : ¬ upsert.version ≤ lastEventVersion := hlast
        simp only [SyncEngine.delivers, hhandler]
        rw [if_neg]
        simp [hlast', hsuppressed]
    · exact .refl
  | synchronized id snapshotVersion =>
    simp only [SyncEngine.step, SyncEngine.synchronized]
    split <;> exact .refl
  | feed event => exact .refl
  | consume id =>
    simp only [SyncEngine.step, SyncEngine.consumeFeedEvent]
    split
    · rename_i event hhandler
      split_ifs with hknown
      · exact .refl
      · exact .refl
      · refine .single ((applyFeedEvent_effect event s.cache).mono ?_)
        rintro value version ⟨upsert, rfl, rfl, rfl, -, -⟩
        exact Or.inr (.inl ⟨id, upsert, hhandler, rfl, rfl, Nat.lt_of_not_le hknown⟩)
    · exact .refl
  | recoveredMissing id recovered =>
    simp only [SyncEngine.step, SyncEngine.recoveredMissing]
    split
    · rename_i event hhandler
      split_ifs with hrecovered
      · refine .single ((applyFeedEvent_effect event s.cache).mono ?_)
        rintro value version ⟨upsert, rfl, rfl, rfl, hversion, hsuppressed⟩
        refine Or.inl ⟨upsert, ?_, rfl, rfl, letIn_of_versionFor hversion⟩
        subst hrecovered
        simp [SyncEngine.delivers, hhandler, hsuppressed]
      · exact .refl
    · exact .refl
  | abandon id => exact .refl

end Steps

section Versions

variable {c c' : ResourceCache} {P : Resource → ℕ → Prop} {server : Server} {s s' : SyncEngine}

theorem Effects.grows (h : Effects P c c') : Grows c c' := by
  induction h with
  | refl => exact .refl c
  | tail _ heffect ih => exact ih.trans heffect.grows

theorem Effects.epoch (h : Effects P c c') : c'.hydrationEpoch = c.hydrationEpoch := by
  induction h with
  | refl => rfl
  | tail _ heffect ih => exact heffect.epoch.trans ih

theorem Sound.effects {Q : Resource → Prop} (h : Sound Q c) (heffects : Effects P c c')
    (hlet : ∀ value version, P value version →
      Q value ∧ (value.type ≠ .task → version = value.stateVersion)) : Sound Q c' := by
  induction heffects with
  | refl => exact h
  | tail _ heffect ih => exact ih.effect heffect hlet

/-- Between hydrations. -/
def NoInstall (_ : SyncEngine) (event : SyncEvent) : Prop := ∀ id, event ≠ .install id

theorem grows_of_run (h : SyncRun server NoInstall s s') : Grows s.cache s'.cache := by
  induction h with
  | refl => exact .refl _
  | step event _ _ hmeets ih => exact ih.trans (step_effects hmeets).grows

end Versions

section Holding

variable {server : Server} {Q : ℕ → Resource → Prop} {s : SyncEngine}

/-- What a handler waits with, in a run whose states let in are good by the watermark. -/
def Waits (server : Server) (Q : ℕ → Resource → Prop) (watermark serverVersion epoch : ℕ) :
    Handler → Prop
  | .reading operation _ => operation.hydrationEpoch ≤ epoch
  | .answered operation _ (some value) => operation.hydrationEpoch ≤ epoch ∧
    (operation.hydrationEpoch = epoch → Q watermark value)
  | .hydrating snapshotVersion entities tasks objects =>
    (∀ version, snapshotVersion = some version → version ≤ serverVersion) ∧
      ∀ value ∈ entities ++ tasks ++ objects, ∃ version, snapshotVersion = some version ∧
        Q version value
  | .consuming event => server.Sends event
  | .missing event => server.Sends event
  | _ => True

/-- A notion of a good state that hydrations, reads and the events above the watermark meet, and
whatever else is let in under a condition on the run. -/
structure Vouched (server : Server) (Q : ℕ → Resource → Prop)
    (meets : SyncEngine → SyncEvent → Prop) : Prop where
  states : ∀ watermark value, Q watermark value → server.States value
  current : ∀ watermark atVersion value, watermark ≤ atVersion → server.Current value atVersion →
    Q watermark value
  later : ∀ watermark value, server.States value → watermark < value.stateVersion →
    Q watermark value
  delivered : ∀ s event upsert, meets s event → s.delivers event = some upsert →
    server.Sends (.upsert upsert) → (∀ existing,
      s.cache.entries.get upsert.resource.key = some existing →
        existing.version < upsert.version) → Q s.watermark upsert.resource

/-- The invariant of a run. -/
structure Holds (server : Server) (Q : ℕ → Resource → Prop) (s : SyncEngine) : Prop where
  sound : Sound (Q s.watermark) s.cache
  cursor : s.watermark ≤ s.feedCursor
  version : s.watermark ≤ s.serverVersion
  handlers : ∀ handler ∈ s.handlers,
    Waits server Q s.watermark s.serverVersion s.cache.hydrationEpoch handler

theorem Waits.mono {watermark serverVersion serverVersion' epoch : ℕ} {handler : Handler}
    (h : Waits server Q watermark serverVersion epoch handler)
    (hle : serverVersion ≤ serverVersion') :
    Waits server Q watermark serverVersion' epoch handler := by
  cases handler with
  | hydrating snapshotVersion entities tasks objects =>
    exact ⟨fun version hversion => (h.1 version hversion).trans hle, h.2⟩
  | answered operation fresh answer => cases answer <;> exact h
  | reading => exact h
  | deleting => trivial
  | recovering => trivial
  | consuming => exact h
  | missing => exact h
  | done => trivial

/-- After a hydration has been installed, the reads before it are of another epoch. -/
theorem Waits.install {watermark watermark' serverVersion epoch : ℕ} {handler : Handler}
    (h : Waits server Q watermark serverVersion epoch handler) :
    Waits server Q watermark' serverVersion (epoch + 1) handler := by
  cases handler with
  | reading => exact Nat.le_succ_of_le h
  | answered operation fresh answer =>
    cases answer with
    | none => trivial
    | some value => exact ⟨Nat.le_succ_of_le h.1, fun heq => absurd heq (by have := h.1; omega)⟩
  | hydrating => exact h
  | deleting => trivial
  | recovering => trivial
  | consuming => exact h
  | missing => exact h
  | done => trivial

/-- An event's handlers are those before it and one that waits with what is possible. -/
theorem waits_step (h : Holds server Q s) {meets : SyncEngine → SyncEvent → Prop}
    (hQ : Vouched server Q meets) {event : SyncEvent} (hpossible : server.Possible s event)
    (hevent : ∀ id, event ≠ .install id) : ∀ handler ∈ (s.step event).handlers,
      handler ∈ s.handlers ∨
        Waits server Q s.watermark s.serverVersion s.cache.hydrationEpoch handler := by
  have hset : ∀ {handlers : List Handler} {id : ℕ} {handler : Handler},
      handlers = s.handlers → Waits server Q s.watermark s.serverVersion s.cache.hydrationEpoch
        handler → ∀ handler' ∈ handlers.set id handler, handler' ∈ s.handlers ∨
          Waits server Q s.watermark s.serverVersion s.cache.hydrationEpoch handler' := by
    rintro _ id handler rfl hwaits handler' hmem
    rcases List.mem_or_eq_of_mem_set hmem with hmem | rfl
    · exact .inl hmem
    · exact .inr hwaits
  have happend : ∀ {handlers : List Handler} {handler : Handler},
      handlers = s.handlers → Waits server Q s.watermark s.serverVersion s.cache.hydrationEpoch
        handler → ∀ handler' ∈ handlers ++ [handler], handler' ∈ s.handlers ∨
          Waits server Q s.watermark s.serverVersion s.cache.hydrationEpoch handler' := by
    rintro _ handler rfl hwaits handler' hmem
    rcases List.mem_append.1 hmem with hmem | hmem
    · exact .inl hmem
    · rw [List.mem_singleton.1 hmem]
      exact .inr hwaits
  have hfail : ∀ (s : SyncEngine) (operation : PointReadOperation),
      (s.failPointRead operation).handlers = s.handlers := by
    intro s operation
    unfold SyncEngine.failPointRead
    split_ifs <;> rfl
  have hsame : ∀ handler ∈ s.handlers, handler ∈ s.handlers ∨
      Waits server Q s.watermark s.serverVersion s.cache.hydrationEpoch handler :=
    fun _ hmem => .inl hmem
  cases event with
  | advance => exact hsame
  | read key fresh => exact happend rfl le_rfl
  | answer id value =>
    simp only [SyncEngine.step, SyncEngine.answer]
    split
    · rename_i operation fresh hhandler
      have hepoch := h.handlers _ (List.mem_of_getElem? hhandler)
      refine hset rfl ?_
      cases value with
      | none => trivial
      | some value => exact ⟨hepoch, fun _ => hQ.current _ _ value h.version hpossible⟩
    · exact hsame
  | deliver id =>
    simp only [SyncEngine.step, SyncEngine.deliver]
    split
    · split_ifs
      · exact hset (hfail _ _) trivial
      · exact hset rfl trivial
    · refine hset ?_ trivial
      unfold SyncEngine.pointNotFound
      split_ifs
      · rfl
      · split
        · rfl
        · exact hfail _ _
    · exact hsame
  | failRead id =>
    simp only [SyncEngine.step, SyncEngine.failRead]
    split
    · exact hset (hfail _ _) trivial
    · exact hsame
  | write upsert => exact hsame
  | delete key => exact happend rfl trivial
  | finishDelete id outcome =>
    simp only [SyncEngine.step, SyncEngine.finishDelete]
    split
    · rename_i operation hhandler
      unfold SyncEngine.reconcileLocalDelete
      split
      · rename_i localDelete hdelete
        split_ifs
        · intro handler hmem
          have hepoch : (s.cache.finishLocalDelete operation outcome).1.hydrationEpoch =
              s.cache.hydrationEpoch :=
            (finishLocalDelete_effect (P := fun _ _ => True) operation outcome s.cache).epoch
          rcases List.mem_append.1 hmem with hmem | hmem
          · have hdone : Waits server Q s.watermark s.serverVersion s.cache.hydrationEpoch
                .done := trivial
            exact hset rfl hdone handler hmem
          · rw [List.mem_singleton.1 hmem]
            exact .inr hepoch.le
        · exact hset rfl trivial
      · exact hset rfl trivial
    · exact hsame
  | failDelete id =>
    simp only [SyncEngine.step, SyncEngine.failDelete]
    split
    · exact hset rfl trivial
    · exact hsame
  | hydrate => exact happend rfl ⟨nofun, nofun⟩
  | page id version entities tasks objects =>
    simp only [SyncEngine.step, SyncEngine.page]
    split
    · rename_i snapshotVersion entities' tasks' objects' hhandler
      obtain ⟨-, hold⟩ := h.handlers _ (List.mem_of_getElem? hhandler)
      split_ifs with hversion
      · exact hset rfl trivial
      · have hsnapshot : ∀ v, snapshotVersion = some v → v = version := by
          rintro v rfl
          simpa using hversion
        refine hset rfl ⟨fun v hv => ?_, fun value hmem => ⟨version, rfl, ?_⟩⟩
        · rw [← Option.some.inj hv]
          exact hpossible.1
        · simp only [List.mem_append] at hmem hold
          by_cases hnew : value ∈ entities ++ tasks ++ objects
          · obtain ⟨atVersion, hle, -, hcurrent⟩ := hpossible.2 value hnew
            exact hQ.current _ _ value hle hcurrent
          · simp only [List.mem_append] at hnew
            obtain ⟨v, hv, hgood⟩ := hold value (by tauto)
            rw [← hsnapshot v hv]
            exact hgood
    · exact hsame
  | install id => exact absurd rfl (hevent id)
  | recover sinceVersion => exact happend rfl trivial
  | recovered id event =>
    simp only [SyncEngine.step, SyncEngine.recovered]
    split
    · split_ifs <;> exact hset rfl trivial
    · exact hsame
  | synchronized id snapshotVersion =>
    simp only [SyncEngine.step, SyncEngine.synchronized]
    split
    · exact hset rfl trivial
    · exact hsame
  | feed event => exact happend rfl hpossible.1
  | consume id =>
    simp only [SyncEngine.step, SyncEngine.consumeFeedEvent]
    split
    · rename_i event hhandler
      have hsends := h.handlers _ (List.mem_of_getElem? hhandler)
      split_ifs
      · exact hset rfl trivial
      · exact hset rfl hsends
      · exact hset rfl trivial
    · exact hsame
  | recoveredMissing id recovered =>
    simp only [SyncEngine.step, SyncEngine.recoveredMissing]
    split
    · split_ifs <;> exact hset rfl trivial
    · exact hsame
  | abandon id => exact hset rfl trivial

end Holding

section Running

variable {server : Server} {Q : ℕ → Resource → Prop} {meets : SyncEngine → SyncEvent → Prop}
  {s : SyncEngine} {event : SyncEvent}

/-- An event leaves the watermark where it is and takes no cursor back, a hydration apart. -/
theorem step_fields (hevent : ∀ id, event ≠ .install id) :
    (s.step event).watermark = s.watermark ∧ s.feedCursor ≤ (s.step event).feedCursor ∧
      s.serverVersion ≤ (s.step event).serverVersion := by
  have hfail : ∀ (s : SyncEngine) (operation : PointReadOperation),
      (s.failPointRead operation).watermark = s.watermark ∧
      s.feedCursor ≤ (s.failPointRead operation).feedCursor ∧
      s.serverVersion ≤ (s.failPointRead operation).serverVersion := by
    intro s operation
    unfold SyncEngine.failPointRead
    split_ifs <;> exact ⟨rfl, le_rfl, le_rfl⟩
  have hsame : s.watermark = s.watermark ∧ s.feedCursor ≤ s.feedCursor ∧
      s.serverVersion ≤ s.serverVersion := ⟨rfl, le_rfl, le_rfl⟩
  cases event with
  | advance => exact ⟨rfl, le_rfl, Nat.le_succ _⟩
  | read key fresh => exact hsame
  | answer id value =>
    simp only [SyncEngine.step, SyncEngine.answer]
    split <;> exact hsame
  | deliver id =>
    simp only [SyncEngine.step, SyncEngine.deliver]
    split
    · split_ifs
      · exact hfail s _
      · exact hsame
    · simp only [SyncEngine.resume, SyncEngine.pointNotFound]
      split_ifs
      · exact hsame
      · split
        · exact hsame
        · exact hfail _ _
    · exact hsame
  | failRead id =>
    simp only [SyncEngine.step, SyncEngine.failRead]
    split
    · exact hfail s _
    · exact hsame
  | write upsert => exact hsame
  | delete key => exact hsame
  | finishDelete id outcome =>
    simp only [SyncEngine.step, SyncEngine.finishDelete]
    split
    · unfold SyncEngine.reconcileLocalDelete
      split
      · split_ifs <;> exact hsame
      · exact hsame
    · exact hsame
  | failDelete id =>
    simp only [SyncEngine.step, SyncEngine.failDelete]
    split <;> exact hsame
  | hydrate => exact hsame
  | page id version entities tasks objects =>
    simp only [SyncEngine.step, SyncEngine.page]
    split
    · split_ifs <;> exact hsame
    · exact hsame
  | install id => exact absurd rfl (hevent id)
  | recover sinceVersion => exact hsame
  | recovered id event =>
    simp only [SyncEngine.step, SyncEngine.recovered]
    split
    · split_ifs
      · exact hsame
      · exact ⟨rfl, le_max_left _ _, le_rfl⟩
    · exact hsame
  | synchronized id snapshotVersion =>
    simp only [SyncEngine.step, SyncEngine.synchronized]
    split
    · exact ⟨rfl, le_max_left _ _, le_rfl⟩
    · exact hsame
  | feed event => exact hsame
  | consume id =>
    simp only [SyncEngine.step, SyncEngine.consumeFeedEvent]
    split
    · split_ifs
      · exact hsame
      · exact hsame
      · exact ⟨rfl, le_max_left _ _, le_rfl⟩
    · exact hsame
  | recoveredMissing id recovered =>
    simp only [SyncEngine.step, SyncEngine.recoveredMissing]
    split
    · split_ifs
      · exact ⟨rfl, le_max_left _ _, le_rfl⟩
      · exact hsame
    · exact hsame
  | abandon id => exact hsame

/-- What is delivered the server has sent. -/
theorem sends_of_delivers (h : Holds server Q s) (hpossible : server.Possible s event)
    {upsert : ResourceUpsertEvent} (hdelivers : s.delivers event = some upsert) :
    server.Sends (.upsert upsert) := by
  unfold SyncEngine.delivers at hdelivers
  split at hdelivers
  · split_ifs at hdelivers
    rw [← Option.some.inj hdelivers]
    exact hpossible.1
  · split at hdelivers
    · split_ifs at hdelivers
      rw [← Option.some.inj hdelivers]
      exact hpossible.1
    · cases hdelivers
  · split at hdelivers
    · rename_i upsert' hhandler
      split_ifs at hdelivers
      rw [← Option.some.inj hdelivers]
      exact h.handlers _ (List.mem_of_getElem? hhandler)
    · cases hdelivers
  · cases hdelivers

theorem embeddedResourceVersion_eq {value : Resource} (htype : value.type ≠ .task) :
    embeddedResourceVersion value = value.stateVersion := by
  simp [embeddedResourceVersion, Resource.metadata, htype]

/-- A version is that of one state. -/
theorem states_unique {value value' : Resource} (h : server.States value)
    (h' : server.States value') (hversion : value.stateVersion = value'.stateVersion) :
    value = value' := by
  unfold Server.States at h h'
  rw [hversion, h'] at h
  simpa using h.symm

/-- Everything that an event lets into the cache is good. -/
theorem good_of_lets (h : Holds server Q s) (hQ : Vouched server Q meets)
    (hpossible : server.Possible s event) (hmeets : meets s event) {value : Resource}
    {version : ℕ} (hlets : Lets s event value version) :
    Q s.watermark value ∧ (value.type ≠ .task → version = value.stateVersion) := by
  rcases hlets with ⟨upsert, hdelivers, rfl, rfl, hlet⟩ |
    ⟨id, upsert, hhandler, rfl, rfl, hcursor⟩ | ⟨id, operation, fresh, hhandler, rfl, hepoch⟩
  · have hsends := sends_of_delivers h hpossible hdelivers
    refine ⟨?_, fun _ => hsends.2⟩
    by_cases hnewer : ∀ existing, s.cache.entries.get upsert.resource.key = some existing →
        existing.version < upsert.version
    · exact hQ.delivered s event upsert hmeets hdelivers hsends hnewer
    · -- the details of an object that is shown at this version
      push Not at hnewer
      obtain ⟨existing, hexisting, hle⟩ := hnewer
      rcases hlet existing hexisting with hlt | ⟨heq, ⟨hobject, hlive⟩ | hreplace⟩
      · omega
      · obtain ⟨value, hvalue, hkey, hgood, hversion⟩ := h.sound.shown _ _ hexisting hlive
        have htype : value.type = .object := (congrArg Prod.fst hkey).trans hobject
        have hsame : value = upsert.resource := by
          refine states_unique (hQ.states _ _ hgood) hsends.1 ?_
          rw [← hversion (by rw [htype]; nofun), heq]
          exact hsends.2
        rw [← hsame]
        exact hgood
      · cases hreplace
  · have hsends : server.Sends (.upsert upsert) := h.handlers _ (List.mem_of_getElem? hhandler)
    have hcursor' := h.cursor
    refine ⟨hQ.later _ _ hsends.1 ?_, fun _ => hsends.2⟩
    rw [← hsends.2]
    omega
  · obtain ⟨-, hgood⟩ := h.handlers _ (List.mem_of_getElem? hhandler)
    refine ⟨hgood hepoch, fun htype => ?_⟩
    rw [← embeddedResourceVersion_eq htype]
    unfold SyncEngine.readOptions
    split
    · rename_i htask
      exact absurd htask htype
    · rfl
    · rfl

theorem Holds.install (h : Holds server Q s) (id : ℕ) : Holds server Q (s.install id) := by
  unfold SyncEngine.install
  split
  · rename_i snapshotVersion entities tasks objects hhandler
    obtain ⟨hversion, hgood⟩ := h.handlers _ (List.mem_of_getElem? hhandler)
    obtain ⟨hsound, hepoch⟩ := sound_replace (Q := Q snapshotVersion) (fun value hmem => by
      obtain ⟨version, heq, hvalue⟩ := hgood value hmem
      rw [Option.some.inj heq]
      exact hvalue) s.cache
    refine ⟨hsound, le_rfl, hversion _ rfl, fun handler hmem => ?_⟩
    rcases List.mem_or_eq_of_mem_set hmem with hmem | rfl
    · show Waits server Q snapshotVersion s.serverVersion
        (s.cache.replaceHydratedResources entities tasks objects).hydrationEpoch handler
      rw [hepoch]
      exact (h.handlers handler hmem).install
    · trivial
  · exact h

theorem Holds.step (h : Holds server Q s) (hQ : Vouched server Q meets)
    (hpossible : server.Possible s event) (hmeets : meets s event) :
    Holds server Q (s.step event) := by
  by_cases hevent : ∀ id, event ≠ .install id
  · obtain ⟨hwatermark, hcursor, hversion⟩ := step_fields (s := s) hevent
    have heffects := step_effects (s := s) hevent
    constructor
    · rw [hwatermark]
      exact h.sound.effects heffects fun value version hlets =>
        good_of_lets h hQ hpossible hmeets hlets
    · rw [hwatermark]
      exact h.cursor.trans hcursor
    · rw [hwatermark]
      exact h.version.trans hversion
    · intro handler hmem
      rw [hwatermark, heffects.epoch]
      rcases waits_step h hQ hpossible hevent handler hmem with hold | hnew
      · exact (h.handlers handler hold).mono hversion
      · exact hnew.mono hversion
  · push Not at hevent
    obtain ⟨id, rfl⟩ := hevent
    exact h.install id

theorem holds_new : Holds server Q .new where
  sound := ⟨nofun, fun _ => rfl⟩
  cursor := le_rfl
  version := le_rfl
  handlers _ hmem := absurd hmem List.not_mem_nil

theorem holds_of_run (hQ : Vouched server Q meets) (h : SyncRun server meets .new s) :
    Holds server Q s := by
  induction h with
  | refl => exact holds_new
  | step event _ hpossible hmeets ih => exact ih.step hQ hpossible hmeets

/-- A state that the server has not replaced or deleted by a version. -/
def Server.Lives (server : Server) (atVersion : ℕ) (value : Resource) : Prop :=
  server.States value ∧ ¬ server.Replaced value.key value.stateVersion atVersion

/-- No write's response, changed-since event or feed event that has waited brings a state that the
server had replaced or deleted at the last hydration's watermark, unless the cache has an entry at
the state's version or above. -/
def OnTime (server : Server) (s : SyncEngine) (event : SyncEvent) : Prop :=
  ∀ upsert, s.delivers event = some upsert →
    (∀ existing, s.cache.entries.get upsert.resource.key = some existing →
      existing.version < upsert.version) →
    ¬ server.Replaced upsert.resource.key upsert.version s.watermark

theorem vouched_lives : Vouched server server.Lives (OnTime server) where
  states _ _ h := h.1
  current watermark atVersion value hle hcurrent := by
    refine ⟨hcurrent.1, ?_⟩
    rintro ⟨later, change, hlt, hle', hchange, hkey⟩
    exact hcurrent.2.2 ⟨later, change, hlt, hle'.trans hle, hchange, hkey⟩
  later watermark value hstates hlt := by
    refine ⟨hstates, ?_⟩
    rintro ⟨later, change, hlt', hle, -, -⟩
    omega
  delivered s event upsert hmeets hdelivers hsends hnewer := by
    refine ⟨hsends.1, ?_⟩
    rw [← hsends.2]
    exact hmeets upsert hdelivers hnewer

theorem vouched_states :
    Vouched server (fun _ value => server.States value) fun _ _ => True where
  states _ _ h := h
  current _ _ _ _ h := h.1
  later _ _ h _ := h
  delivered _ _ _ _ _ h _ := h.1

theorem value_eq_some {c : ResourceCache} {key : ResourceKey} {value : Resource}
    (h : c.value key = some value) : ∃ entry, c.entries.get key = some entry ∧
      entry.deleted = false ∧ entry.value = some value := by
  obtain ⟨entry, hget, hentry⟩ := Option.bind_eq_some_iff.1 h
  split_ifs at hentry with hdeleted
  exact ⟨entry, hget, Bool.not_eq_true _ ▸ hdeleted, hentry⟩

/-- In runs whose deliveries are on time, what the cache and its snapshot show after a hydration are
states that the server had not replaced or deleted at the watermark; and in all runs, the versions
shown of an Entity or an object go up between hydrations. -/
theorem cache_server_time (server : Server) :
    (∀ s, SyncRun server (OnTime server) .new s → ∀ key value, s.cache.value key = some value →
      s.cache.snapshotRecords.get key = some value ∧ value.key = key ∧ server.States value ∧
        ¬ server.Replaced key value.stateVersion s.watermark) ∧
    (∀ s, SyncRun server (fun _ _ => True) .new s → ∀ s', SyncRun server NoInstall s s' →
      ∀ key value value', key.1 ≠ .task → s.cache.value key = some value →
        s'.cache.value key = some value' → value.stateVersion ≤ value'.stateVersion) := by
  refine ⟨fun s hrun key value hvalue => ?_,
    fun s hrun s' hbetween key value value' htype hvalue hvalue' => ?_⟩
  · have h := holds_of_run vouched_lives hrun
    obtain ⟨entry, hget, hlive, hentry⟩ := value_eq_some hvalue
    obtain ⟨value', hvalue', hkey, hgood, -⟩ := h.sound.shown key entry hget hlive
    rw [hentry, Option.some.injEq] at hvalue'
    subst hvalue'
    refine ⟨(h.sound.records key).trans hvalue, hkey, hgood.1, ?_⟩
    rw [← hkey]
    exact hgood.2
  · have h := holds_of_run vouched_states hrun
    have h' : Holds server (fun _ value => server.States value) s' := by
      clear hvalue'
      induction hbetween with
      | refl => exact h
      | step event _ hpossible _ ih => exact ih.step vouched_states hpossible trivial
    obtain ⟨entry, hget, hlive, hentry⟩ := value_eq_some hvalue
    obtain ⟨entry', hget', hlive', hentry'⟩ := value_eq_some hvalue'
    obtain ⟨w, hw, hkey, -, hversion⟩ := h.sound.shown key entry hget hlive
    obtain ⟨w', hw', hkey', -, hversion'⟩ := h'.sound.shown key entry' hget' hlive'
    rw [hentry, Option.some.injEq] at hw
    rw [hentry', Option.some.injEq] at hw'
    subst hw hw'
    obtain ⟨grown, hgrown, hle⟩ := grows_of_run hbetween key entry hget
    rw [hget', Option.some.injEq] at hgrown
    subst hgrown
    rw [hversion (by rw [← hkey] at htype; exact htype),
      hversion' (by rw [← hkey'] at htype; exact htype)] at hle
    exact hle

/-- An Entity's state at a version of the server below. -/
def asset (version : ℕ) : Resource := ⟨.entity, "asset", "2026-01-01T00:00:00Z", version⟩

/-- An Entity is created, deleted and created again. -/
def recreating : Server where
  change
    | 1 => some (.upsert (asset 1))
    | 2 => some (.delete (asset 1).key)
    | 3 => some (.upsert (asset 3))
    | _ => none
  stateVersion_eq version value h := by
    split at h
    · rw [← ServerChange.upsert.inj (Option.some.inj h)]
      rfl
    · cases Option.some.inj h
    · rw [← ServerChange.upsert.inj (Option.some.inj h)]
      rfl
    · cases h

/-- A hydration of the deleted Entity's time is installed, and the response of a write comes. -/
def hydratedBefore (version : ℕ) : SyncEngine :=
  (((((((SyncEngine.new.step .advance).step .advance).step .hydrate).step
    (.page 0 2 [] [] [])).step (.install 0)).step .advance).step
      (.write ⟨.create, version, asset version⟩))

theorem run_hydratedBefore {meets : SyncEngine → SyncEvent → Prop} {version : ℕ}
    (hstates : recreating.States (asset version)) (hversion : version ≤ 3)
    (hmeets : ∀ s event, s.delivers event = none → meets s event)
    (hwrite : ∀ s : SyncEngine, s.watermark = 2 →
      meets s (.write ⟨.create, version, asset version⟩)) :
    SyncRun recreating meets .new (hydratedBefore version) := by
  refine .step _ (.step _ (.step _ (.step _ (.step _ (.step _ (.step _ .refl trivial ?_)
    trivial ?_) trivial ?_) ⟨le_rfl, nofun⟩ ?_) trivial ?_) trivial ?_)
    ⟨⟨hstates, rfl⟩, hversion⟩ ?_
  · exact hmeets _ _ rfl
  · exact hmeets _ _ rfl
  · exact hmeets _ _ rfl
  · exact hmeets _ _ rfl
  · exact hmeets _ _ rfl
  · exact hmeets _ _ rfl
  · exact hwrite _ rfl

/-- After the hydration, a write of the new Entity is shown. -/
theorem cache_server_time_recreating :
    (hydratedBefore 3).cache.value (asset 3).key = some (asset 3) ∧
      ¬ recreating.Replaced (asset 3).key 3 (hydratedBefore 3).watermark := by
  have hrun : SyncRun recreating (OnTime recreating) .new (hydratedBefore 3) := by
    refine run_hydratedBefore rfl le_rfl (fun s event hnone upsert hsome => ?_)
      fun s hwatermark upsert hsome _ => ?_
    · rw [hnone] at hsome
      cases hsome
    · have hupsert : upsert = ⟨.create, 3, asset 3⟩ := by
        simp only [SyncEngine.delivers] at hsome
        split_ifs at hsome
        exact (Option.some.inj hsome).symm
      rw [hupsert, hwatermark]
      rintro ⟨later, change, hlt, hle, -, -⟩
      have hlt' : 3 < later := hlt
      omega
  have hvalue : (hydratedBefore 3).cache.value (asset 3).key = some (asset 3) := by
    decide +kernel
  exact ⟨hvalue, ((cache_server_time recreating).1 _ hrun _ _ hvalue).2.2.2⟩

/-- A write's response that comes after the hydration shows the Entity that was deleted by then. -/
theorem cache_goes_back : ¬ ∀ (server : Server) (s : SyncEngine),
    SyncRun server (fun _ _ => True) .new s → ∀ key value, s.cache.value key = some value →
      ¬ server.Replaced key value.stateVersion s.watermark := by
  intro h
  have hrun : SyncRun recreating (fun _ _ => True) .new (hydratedBefore 1) :=
    run_hydratedBefore rfl (by decide) (fun _ _ _ => trivial) fun _ _ => trivial
  have hvalue : (hydratedBefore 1).cache.value (asset 1).key = some (asset 1) := by
    decide +kernel
  exact h recreating _ hrun _ _ hvalue ⟨2, _, by decide, by decide, rfl, rfl⟩

end Running

end Atlas.Sdk
