import Atlas.Core.Delivery
import Atlas.Proofs.Scheduling

/-!
# Delivery agrees with the transitions

The first Task of its kind has no earlier one that blocks it, so what a runtime is handed it may
acknowledge or start. That the manifest of a ready runtime is within the catalog is an invariant
(`Cataloged`), and with it the three ways in which a Task's scheduling is resolved agree. Delivery
and the check of the order leave out the Tasks whose start window has passed, which are those that
starting fails and that the reconciliation selects.
-/

namespace Atlas.Core

open Transaction Fence

/-! ## The first Task -/

section First

variable {env : Env} {db : DB} {p : Task → Bool}

/-- The database orders the IDs of Tasks. -/
structure Collates (env : Env) : Prop where
  total : ∀ a b, env.collation a b = true ∨ env.collation b a = true
  trans : ∀ a b c, env.collation a b = true → env.collation b c = true → env.collation a c = true
  antisymm : ∀ a b, env.collation a b = true → env.collation b a = true → a = b

theorem creationOrder_iff {t t' : Task} : creationOrder env t t' = true ↔
    t.createdAt < t'.createdAt
      ∨ t.createdAt = t'.createdAt ∧ env.collation t.taskID t'.taskID = true := by
  simp [creationOrder]

theorem Collates.creationOrder_total (h : Collates env) (t t' : Task) :
    (creationOrder env t t' || creationOrder env t' t) = true := by
  rw [Bool.or_eq_true, creationOrder_iff, creationOrder_iff]
  rcases lt_trichotomy t.createdAt t'.createdAt with hlt | heq | hgt
  · exact .inl (.inl hlt)
  · exact (h.total t.taskID t'.taskID).imp (fun h => .inr ⟨heq, h⟩) fun h => .inr ⟨heq.symm, h⟩
  · exact .inr (.inl hgt)

theorem Collates.creationOrder_trans (h : Collates env) (t t' t'' : Task)
    (h₁ : creationOrder env t t' = true) (h₂ : creationOrder env t' t'' = true) :
    creationOrder env t t'' = true := by
  rw [creationOrder_iff] at *
  rcases h₁ with hlt | ⟨heq, hid⟩ <;> rcases h₂ with hlt' | ⟨heq', hid'⟩
  · exact .inl (hlt.trans hlt')
  · exact .inl (heq' ▸ hlt)
  · exact .inl (heq ▸ hlt')
  · exact .inr ⟨heq.trans heq', h.trans _ _ _ hid hid'⟩

/-- A Task is not earlier than one that it comes before. -/
theorem Collates.not_earlier (h : Collates env) {t x : Task} (htx : creationOrder env t x = true) :
    ¬Earlier env x t := by
  rintro ⟨-, -, hne, hxt⟩
  rw [creationOrder_iff] at htx hxt
  rcases htx with hlt | ⟨heq, hid⟩ <;> rcases hxt with hlt' | ⟨heq', hid'⟩
  · exact absurd hlt' hlt.le.not_gt
  · exact absurd heq' hlt.ne'
  · exact absurd heq.symm hlt'.ne
  · exact hne (h.antisymm _ _ hid' hid)

/-- Of the Tasks of a runtime the first one is that which no other one is earlier than. -/
theorem Collates.mem_first (h : Collates env) {a r : String}
    (hids : ∀ x ∈ db.tasks, ∀ y ∈ db.tasks, x.taskID = y.taskID → x = y)
    (hbound : ∀ x ∈ db.tasks, p x = true → BoundTo a r x) (t : Task) :
    t ∈ (selectTasks env db p).take 1 ↔ t ∈ db.tasks ∧ p t = true
      ∧ ∀ x ∈ db.tasks, p x = true → ¬Earlier env x t := by
  have hmem : ∀ x, x ∈ selectTasks env db p ↔ x ∈ db.tasks ∧ p x = true := fun x => mem_selectTasks
  have hsorted : (selectTasks env db p).Pairwise fun t t' => creationOrder env t t' = true :=
    List.pairwise_mergeSort h.creationOrder_trans h.creationOrder_total _
  rcases hselect : selectTasks env db p with _ | ⟨first, rest⟩
  · rw [hselect] at hmem
    rw [List.take_nil]
    exact iff_of_false List.not_mem_nil fun ht => List.not_mem_nil ((hmem t).2 ⟨ht.1, ht.2.1⟩)
  · rw [hselect] at hsorted hmem
    obtain ⟨hfirst, hp⟩ := (hmem first).1 List.mem_cons_self
    have hle : ∀ x ∈ db.tasks, p x = true → x = first ∨ creationOrder env first x = true := by
      intro x hx hpx
      refine (List.mem_cons.1 ((hmem x).2 ⟨hx, hpx⟩)).imp_right fun hx => ?_
      exact List.rel_of_pairwise_cons hsorted hx
    rw [List.take_succ_cons, List.take_zero, List.mem_singleton]
    constructor
    · rintro rfl
      refine ⟨hfirst, hp, fun x hx hpx hearlier => ?_⟩
      rcases hle x hx hpx with rfl | horder
      · exact hearlier.2.2.1 rfl
      · exact h.not_earlier horder hearlier
    · rintro ⟨ht, hpt, hnone⟩
      rcases hle t ht hpt with heq | horder
      · exact heq
      · by_contra hne
        have hid : first.taskID ≠ t.taskID := fun hid => hne (hids t ht first hfirst hid.symm)
        obtain ⟨ha, hr⟩ := hbound first hfirst hp
        obtain ⟨ha', hr'⟩ := hbound t ht hpt
        exact hnone first hfirst hp ⟨ha.trans ha'.symm, hr.trans hr'.symm, hid, horder⟩

end First

/-! ## The manifest -/

section Manifest

variable {env : Env}

theorem catalog_entries : ∀ {manifest : CommandManifest} {seen : List String},
    validateCommandManifestCatalog env seen manifest = .ok () →
      (∀ entry ∈ manifest, entry.command ∉ seen
        ∧ ∃ c s, env.command entry.command = some c ∧ resolveScheduling c entry = .ok s)
      ∧ (manifest.map (·.command)).Nodup
  | [], _, _ => ⟨by simp, .nil⟩
  | entry :: rest, seen, h => by
    rw [validateCommandManifestCatalog] at h
    split_ifs at h with hseen
    rcases hc : env.command entry.command with _ | c
    · rw [hc] at h
      cases h
    simp only [hc] at h
    rcases hs : resolveScheduling c entry with e | s
    · rw [hs] at h
      cases h
    simp only [hs] at h
    obtain ⟨hrest, hnodup⟩ := catalog_entries h
    rw [List.forall_mem_cons, List.map_cons, List.nodup_cons]
    refine ⟨⟨⟨hseen, c, s, hc, hs⟩, fun entry' hentry' => ?_⟩, fun hmem => ?_, hnodup⟩
    · obtain ⟨hnot, hrest⟩ := hrest entry' hentry'
      exact ⟨fun h => hnot (List.mem_cons_of_mem _ h), hrest⟩
    · obtain ⟨entry', hentry', heq⟩ := List.mem_map.1 hmem
      exact (hrest entry' hentry').1 (heq ▸ List.mem_cons_self)

theorem manifestEntry_of_mem {manifest : CommandManifest} {entry : CommandManifestEntry}
    (hnodup : (manifest.map (·.command)).Nodup) (h : entry ∈ manifest) :
    manifestEntry manifest entry.command = some entry := by
  unfold manifestEntry
  rcases hfind : manifest.find? (·.command = entry.command) with _ | found
  · simpa using List.find?_eq_none.1 hfind entry h
  · have hcommand : found.command = entry.command := by simpa using List.find?_some hfind
    rw [hfind, List.inj_on_of_nodup_map hnodup (List.mem_of_find?_eq_some hfind) h hcommand]

theorem mem_of_manifestEntry {manifest : CommandManifest} {entry : CommandManifestEntry}
    {command : String} (h : manifestEntry manifest command = some entry) :
    entry ∈ manifest ∧ entry.command = command :=
  ⟨List.mem_of_find?_eq_some h, by simpa using List.find?_some h⟩

theorem schedulingOf_some {manifest : CommandManifest} {command : String}
    {scheduling : CommandScheduling} (h : schedulingOf env manifest command = some scheduling) :
    ∃ c e, env.command command = some c ∧ manifestEntry manifest command = some e
      ∧ resolveScheduling c e = .ok scheduling := by
  unfold schedulingOf at h
  rcases hc : env.command command with _ | c
  · rw [hc] at h
    cases h
  rcases he : manifestEntry manifest command with _ | e
  · rw [hc, he] at h
    cases h
  simp only [hc, he] at h
  refine ⟨c, e, rfl, rfl, ?_⟩
  rcases hs : resolveScheduling c e with error | s
  · rw [hs] at h
    cases h
  · rw [hs] at h
    rw [Option.some.inj h]

theorem immediateCommands_ok : ∀ {manifest : CommandManifest},
    (∀ entry ∈ manifest, ∃ c s, env.command entry.command = some c
      ∧ resolveScheduling c entry = .ok s) →
      ∃ commands, immediateCommands env manifest = .ok commands ∧ ∀ command, command ∈ commands ↔
        ∃ entry ∈ manifest, entry.command = command
          ∧ ∃ c, env.command command = some c ∧ resolveScheduling c entry = .ok .immediate
  | [], _ => ⟨[], rfl, by simp⟩
  | entry :: rest, h => by
    rw [List.forall_mem_cons] at h
    obtain ⟨⟨c, s, hc, hs⟩, hrest⟩ := h
    obtain ⟨commands, hcommands, hmem⟩ := immediateCommands_ok hrest
    refine ⟨if s = .immediate then entry.command :: commands else commands, ?_, fun command => ?_⟩
    · simp only [immediateCommands, hc, hs, hcommands]
    · rw [List.exists_mem_cons_iff, ← hmem]
      split_ifs with himmediate
      · subst himmediate
        rw [List.mem_cons, eq_comm]
        refine or_congr_left (iff_self_and.2 ?_)
        rintro rfl
        exact ⟨c, hc, hs⟩
      · refine (or_iff_right ?_).symm
        rintro ⟨rfl, c', hc', hs'⟩
        obtain rfl := Option.some.inj (hc.symm.trans hc')
        exact himmediate (Except.ok.inj (hs.symm.trans hs'))

/-- Of a manifest within the catalog the Commands that are found immediate are those with that
scheduling. -/
theorem catalog_immediate {manifest : CommandManifest}
    (h : validateCommandManifestCatalog env [] manifest = .ok ()) :
    ∃ commands, immediateCommands env manifest = .ok commands
      ∧ ∀ command, command ∈ commands ↔ schedulingOf env manifest command = some .immediate := by
  obtain ⟨hentries, hnodup⟩ := catalog_entries h
  obtain ⟨commands, hcommands, hmem⟩ := immediateCommands_ok fun entry he => (hentries entry he).2
  refine ⟨commands, hcommands, fun command => (hmem command).trans ?_⟩
  constructor
  · rintro ⟨entry, he, rfl, c, hc, hs⟩
    rw [schedulingOf_eq hc (manifestEntry_of_mem hnodup he), hs]
    rfl
  · intro hsched
    obtain ⟨c, entry, hc, he, hs⟩ := schedulingOf_some hsched
    obtain ⟨hmem, hcommand⟩ := mem_of_manifestEntry he
    exact ⟨entry, hmem, hcommand, c, hc, hs⟩

/-- The manifests of ready runtimes are within the catalog. -/
def Cataloged (env : Env) (f : Fence) : Prop :=
  ∀ row ∈ f.runtimes, row.ready = true →
    validateCommandManifestCatalog env [] row.manifest = .ok ()

theorem LedgerStep.cataloged {now : Time} {f f' : Fence} (hs : LedgerStep env now f f')
    (h : Cataloged env f) : Cataloged env f' := by
  cases hs with
  | same => exact h
  | entity id => exact h
  | moved row t t' updatedAt version _ _ _ _ => exact h
  | ended p u _ => exact h
  | created row u task _ _ _ _ => exact h
  | install runtime hi =>
    intro row hrow hready
    rcases mem_install.1 hrow with rfl | ⟨hrow, -⟩
    · exact absurd (hi.not_ready.symm.trans hready) Bool.false_ne_true
    · exact h row hrow hready
  | stop a r _ =>
    intro row hrow hready
    obtain ⟨x, hx, rfl⟩ := List.mem_map.1 hrow
    split_ifs at hready ⊢ with hr
    exact h x hx hready
  | makeReady a r manifest readyAt hr =>
    intro row hrow hready
    obtain ⟨x, hx, rfl⟩ := List.mem_map.1 hrow
    split_ifs at hready ⊢
    · exact hr.manifest
    · exact h x hx hready
  | dropAsset a _ => exact fun row hrow => h row (List.mem_of_mem_filter hrow)

theorem reachable_cataloged {s : System} (hs : Reachable env s) : Cataloged env s.db.fence := by
  refine (hs.invariant _ (I := fun s => SystemInv s ∧ Cataloged env s.db.fence)
    (fun s e h => ?_) ⟨initial_systemInv, ?_⟩).2
  · exact ⟨step_systemInv env s e h.1, (step_ledger env h.1 e).cataloged h.2⟩
  · exact fun _ hr => absurd hr List.not_mem_nil

end Manifest

/-! ## The order check -/

section Order

variable {env : Env} {db : DB} {now : Time} {α β γ : Type} {manifest : CommandManifest}

theorem bind_of_ok {m : CoreTx α} {f : α → CoreTx β} {s s' : Session} {a : α}
    (h : m s = .ok (a, s')) : (m >>= f) s = f a s' := by
  simp [bind, StateT.bind, Except.bind, h]

theorem forM_pass {s : Session} {f : γ → CoreTx Unit} : ∀ {l : List γ},
    (∀ x ∈ l, f x s = .ok ((), s)) → ForM.forM l f s = .ok ((), s)
  | [], _ => rfl
  | x :: l, h => by
    rw [List.forall_mem_cons] at h
    rw [List.forM_cons, bind_of_ok h.1]
    exact forM_pass h.2

theorem forM_fail {s : Session} {f : γ → CoreTx Unit} {e : ActionError} : ∀ {l : List γ},
    (∀ x ∈ l, f x s = .ok ((), s) ∨ f x s = .error e) → (∃ x ∈ l, f x s = .error e) →
      ForM.forM l f s = .error e
  | [], _, h => by simp at h
  | x :: l, h, hx => by
    rw [List.forall_mem_cons] at h
    rw [List.forM_cons]
    rcases h.1 with hpass | hfail
    · rw [List.exists_mem_cons_iff] at hx
      rw [bind_of_ok hpass]
      refine forM_fail h.2 (hx.resolve_left fun hfail => ?_)
      rw [hpass] at hfail
      cases hfail
    · simp [bind, StateT.bind, Except.bind, hfail]

/-- A database connection whose clock stands. -/
def standing (db : DB) (now : Time) : Session := ⟨db, fun _ => now⟩

variable {task : Task} {scheduling : CommandScheduling} {statuses : List TaskStatus}
  {any expired : Bool} {message : String}

variable (env db now) in
/-- The check reads the Tasks that can block, and one of them after the other. -/
theorem requireNoSchedulingBlocker_eq : ∃ f : Task → CoreTx Unit,
    requireNoSchedulingBlocker env task manifest scheduling statuses any expired message
        (standing db now)
      = ForM.forM (selectTasks env db (blockers env now task statuses any expired)) f
        (standing db now)
    ∧ ∀ x other, schedulingOf env manifest x.command = some other →
      f x (standing db now) = if other ≠ scheduling then .ok ((), standing db now)
        else .error (.validation message) := by
  refine ⟨_, rfl, fun x other h => ?_⟩
  obtain ⟨c, e, hc, he, hs⟩ := schedulingOf_some h
  have hstored : storedCommandDefinition env x.taskID x.command (standing db now)
      = .ok (c, standing db now) := by
    unfold storedCommandDefinition
    rw [hc]
    rfl
  rw [bind_of_ok hstored]
  simp only [he]
  rw [bind_of_ok (check_ok.2 ⟨hs, rfl⟩)]
  unfold require
  simp only [decide_eq_true_eq]
  split_ifs <;> rfl

theorem requireNoSchedulingBlocker_pass
    (h : ∀ x ∈ db.tasks, blockers env now task statuses any expired x = true →
      ∃ other, schedulingOf env manifest x.command = some other ∧ other ≠ scheduling) :
    requireNoSchedulingBlocker env task manifest scheduling statuses any expired message
      (standing db now) = .ok ((), standing db now) := by
  obtain ⟨f, heq, hf⟩ := requireNoSchedulingBlocker_eq env db now
  rw [heq]
  refine forM_pass fun x hx => ?_
  obtain ⟨hx, hblocks⟩ := mem_selectTasks.1 hx
  obtain ⟨other, hother, hne⟩ := h x hx hblocks
  rw [hf x other hother, if_pos hne]

theorem requireNoSchedulingBlocker_block
    (h : ∀ x ∈ db.tasks, blockers env now task statuses any expired x = true →
      schedulingOf env manifest x.command ≠ none)
    (hx : ∃ x ∈ db.tasks, blockers env now task statuses any expired x = true
      ∧ schedulingOf env manifest x.command = some scheduling) :
    requireNoSchedulingBlocker env task manifest scheduling statuses any expired message
      (standing db now) = .error (.validation message) := by
  obtain ⟨f, heq, hf⟩ := requireNoSchedulingBlocker_eq env db now
  rw [heq]
  refine forM_fail (fun x hx => ?_) ?_
  · obtain ⟨hx, hblocks⟩ := mem_selectTasks.1 hx
    obtain ⟨other, hother⟩ := Option.ne_none_iff_exists'.1 (h x hx hblocks)
    rw [hf x other hother]
    split_ifs
    · exact .inl rfl
    · exact .inr rfl
  · obtain ⟨x, hx, hblocks, hsched⟩ := hx
    exact ⟨x, mem_selectTasks.2 ⟨hx, hblocks⟩, by rw [hf x _ hsched, if_neg (not_not.2 rfl)]⟩

end Order

/-! ## Delivery and the transitions -/

section Agreement

variable {env : Env} {db : DB} {row : AssetRuntime} {now : Time} {t x : Task}

/-- What is known of a runtime that is ready. -/
structure Serving (env : Env) (db : DB) (row : AssetRuntime) : Prop where
  inv : db.fence.Inv
  mem : row ∈ db.assetRuntimes
  ready : row.ready = true
  advertised : ∀ t ∈ db.tasks, BoundTo row.assetID row.runtimeID t →
    schedulingOf env row.manifest t.command ≠ none
  catalog : validateCommandManifestCatalog env [] row.manifest = .ok ()

theorem reachable_serving {s : System} (hs : Reachable env s) (hrow : row ∈ s.db.assetRuntimes)
    (hready : row.ready = true) : Serving env s.db row := by
  obtain ⟨hinv, hsched⟩ := reachable_scheduled env hs
  exact ⟨hinv.fence, hrow, hready, (hsched.pinned row hrow hready).advertised,
    reachable_cataloged hs row hrow hready⟩

/-- A Task of the runtime that is pending. -/
structure Awaits (db : DB) (row : AssetRuntime) (t : Task) : Prop where
  mem : t ∈ db.tasks
  bound : BoundTo row.assetID row.runtimeID t
  pending : t.status = .pending

/-- The Task passes the check of a transition and is changed by it. -/
def Advances (env : Env) (db : DB) (row : AssetRuntime) (now : Time) (pre : TaskPrecondition)
    (mutate : TaskMutation) (t t' : Task) : Prop :=
  ∃ c e, env.command t.command = some c ∧ manifestEntry row.manifest t.command = some e
    ∧ pre t c e row.manifest (standing db now) = .ok ((), standing db now)
    ∧ mutate t c e now = .ok (true, t')

def Acknowledgeable (env : Env) (db : DB) (row : AssetRuntime) (now : Time) (t : Task) : Prop :=
  ∃ t', Advances env db row now (requireAcknowledgeOrder env) acknowledgeTask t t'
    ∧ t'.status = .acknowledged

def Startable (env : Env) (db : DB) (row : AssetRuntime) (now : Time) (t : Task) : Prop :=
  ∃ t', Advances env db row now (requireStartOrder env) startTask t t' ∧ t'.status = .inProgress

/-- Starting the Task fails it. -/
def TimesOut (env : Env) (db : DB) (row : AssetRuntime) (now : Time) (t : Task) : Prop :=
  ∃ t', Advances env db row now (requireStartOrder env) startTask t t' ∧ t'.status = .failed
    ∧ t'.failure = some immediateStartTimeoutFailure

/-- No later immediate Task passes the check of the order. -/
def Blocks (env : Env) (db : DB) (row : AssetRuntime) (now : Time) (t : Task) : Prop :=
  ∀ x, Awaits db row x → schedulingOf env row.manifest x.command = some .immediate →
    Earlier env t x → ∀ c e, env.command x.command = some c →
      manifestEntry row.manifest x.command = some e →
      requireStartOrder env x c e row.manifest (standing db now)
        = .error (.validation "an earlier immediate Task has not started")

theorem blockers_iff {statuses : List TaskStatus} {any expired : Bool} :
    blockers env now t statuses any expired x = true ↔ x.assetID = t.assetID
      ∧ x.runtimeID = t.runtimeID
      ∧ (any = true ∧ x.status = .inProgress
        ∨ creationOrder env x t = true ∧ x.taskID ≠ t.taskID ∧ x.status ∈ statuses)
      ∧ (expired = true → now - immediateStartWindow < x.createdAt) := by
  unfold blockers
  cases expired <;> simp [and_assoc]

/-- A Task of the same runtime. -/
theorem BoundTo.same (ht : BoundTo row.assetID row.runtimeID t) (ha : x.assetID = t.assetID)
    (hr : x.runtimeID = t.runtimeID) : BoundTo row.assetID row.runtimeID x :=
  ⟨ha.trans ht.1, hr.trans ht.2⟩

/-- A queued Task is acknowledged if no earlier one is pending. -/
theorem Serving.acknowledgeable (h : Serving env db row) (ht : Awaits db row t)
    (hqueued : schedulingOf env row.manifest t.command = some .queued)
    (hfirst : ∀ x, Awaits db row x → Earlier env x t →
      schedulingOf env row.manifest x.command ≠ some .queued) :
    Acknowledgeable env db row now t := by
  obtain ⟨c, e, hc, he, hs⟩ := schedulingOf_some hqueued
  refine ⟨{ t with status := .acknowledged, acknowledgedAt := some now }, ⟨c, e, hc, he, ?_, ?_⟩,
    rfl⟩
  · unfold requireAcknowledgeOrder
    rw [bind_of_ok (check_ok.2 ⟨hs, rfl⟩), if_neg (by simp [ht.pending])]
    refine requireNoSchedulingBlocker_pass fun x hx hblocks => ?_
    obtain ⟨ha, hr, hcase, -⟩ := blockers_iff.1 hblocks
    obtain ⟨horder, hid, hpending⟩ := hcase.resolve_left fun h => Bool.false_ne_true h.1
    have hbound := ht.bound.same ha hr
    obtain ⟨other, hother⟩ := Option.ne_none_iff_exists'.1 (h.advertised x hx hbound)
    refine ⟨other, hother, ?_⟩
    rintro rfl
    exact hfirst x ⟨hx, hbound, List.mem_singleton.1 hpending⟩ ⟨ha, hr, hid, horder⟩ hother
  · unfold acknowledgeTask
    simp [hs, ht.pending]

/-- The order does not keep an immediate Task from starting if no earlier one is pending within
its start window. -/
theorem Serving.start_order (h : Serving env db row) (ht : Awaits db row t)
    {c : CommandDefinition} {e : CommandManifestEntry}
    (hs : resolveScheduling c e = .ok .immediate)
    (hfirst : ∀ x, Awaits db row x → Earlier env x t → now - immediateStartWindow < x.createdAt →
      schedulingOf env row.manifest x.command ≠ some .immediate) :
    requireStartOrder env t c e row.manifest (standing db now) = .ok ((), standing db now) := by
  unfold requireStartOrder
  rw [bind_of_ok (check_ok.2 ⟨hs, rfl⟩), if_pos rfl, if_neg (not_not.2 ht.pending)]
  refine requireNoSchedulingBlocker_pass fun x hx hblocks => ?_
  obtain ⟨ha, hr, hcase, hwindow⟩ := blockers_iff.1 hblocks
  obtain ⟨horder, hid, hpending⟩ := hcase.resolve_left fun h => Bool.false_ne_true h.1
  have hbound := ht.bound.same ha hr
  obtain ⟨other, hother⟩ := Option.ne_none_iff_exists'.1 (h.advertised x hx hbound)
  refine ⟨other, hother, ?_⟩
  rintro rfl
  exact hfirst x ⟨hx, hbound, List.mem_singleton.1 hpending⟩ ⟨ha, hr, hid, horder⟩ (hwindow rfl)
    hother

theorem startTask_immediate {c : CommandDefinition} {e : CommandManifestEntry}
    (hs : resolveScheduling c e = .ok .immediate) (hpending : t.status = .pending) :
    startTask t c e now = if t.createdAt + immediateStartWindow ≤ now then
        .ok (true, { t with status := .failed, failure := some immediateStartTimeoutFailure,
                            finishedAt := some now })
      else
        .ok (true, { t with status := .inProgress, acknowledgedAt := some now,
                            startedAt := some now }) := by
  unfold startTask failTask
  simp [hs, hpending, taskTerminal]

theorem window_iff {created : Time} :
    now - immediateStartWindow < created ↔ ¬created + immediateStartWindow ≤ now := by
  rw [not_le, sub_lt_iff_lt_add]

/-- Within its window an immediate Task is started, if it is the first one. -/
theorem Serving.startable (h : Serving env db row) (ht : Awaits db row t)
    (himmediate : schedulingOf env row.manifest t.command = some .immediate)
    (hwindow : now - immediateStartWindow < t.createdAt)
    (hfirst : ∀ x, Awaits db row x → Earlier env x t → now - immediateStartWindow < x.createdAt →
      schedulingOf env row.manifest x.command ≠ some .immediate) :
    Startable env db row now t := by
  obtain ⟨c, e, hc, he, hs⟩ := schedulingOf_some himmediate
  have hstart : startTask t c e now = _ :=
    (startTask_immediate hs ht.pending).trans (if_neg (window_iff.1 hwindow))
  exact ⟨_, ⟨c, e, hc, he, h.start_order ht hs hfirst, hstart⟩, rfl⟩

/-- After its window an immediate Task is failed. -/
theorem Serving.timesOut (h : Serving env db row) (ht : Awaits db row t)
    (himmediate : schedulingOf env row.manifest t.command = some .immediate)
    (hwindow : t.createdAt ≤ now - immediateStartWindow) : TimesOut env db row now t := by
  obtain ⟨c, e, hc, he, hs⟩ := schedulingOf_some himmediate
  have hstart : startTask t c e now = _ :=
    (startTask_immediate hs ht.pending).trans (if_pos (le_sub_iff_add_le.1 hwindow))
  refine ⟨_, ⟨c, e, hc, he, h.start_order ht hs fun x _ hearlier hx => ?_, hstart⟩, rfl, rfl⟩
  have hle : x.createdAt ≤ t.createdAt :=
    (creationOrder_iff.1 hearlier.2.2.2).elim le_of_lt fun h => h.1.le
  exact absurd (hle.trans hwindow) (not_le.2 hx)

/-- A Task that starts within its window is not failed. -/
theorem Startable.window (himmediate : schedulingOf env row.manifest t.command = some .immediate)
    (hpending : t.status = .pending) (h : Startable env db row now t) :
    now - immediateStartWindow < t.createdAt := by
  obtain ⟨t', ⟨c, e, hc, he, -, hmutate⟩, hstatus⟩ := h
  obtain ⟨c', e', hc', he', hs⟩ := schedulingOf_some himmediate
  obtain rfl := Option.some.inj (hc.symm.trans hc')
  obtain rfl := Option.some.inj (he.symm.trans he')
  rw [startTask_immediate hs hpending] at hmutate
  split_ifs at hmutate with hwindow
  · cases hmutate
    cases hstatus
  · exact window_iff.2 hwindow

theorem TimesOut.window (himmediate : schedulingOf env row.manifest t.command = some .immediate)
    (hpending : t.status = .pending) (h : TimesOut env db row now t) :
    t.createdAt ≤ now - immediateStartWindow := by
  obtain ⟨t', ⟨c, e, hc, he, -, hmutate⟩, hstatus, -⟩ := h
  obtain ⟨c', e', hc', he', hs⟩ := schedulingOf_some himmediate
  obtain rfl := Option.some.inj (hc.symm.trans hc')
  obtain rfl := Option.some.inj (he.symm.trans he')
  rw [startTask_immediate hs hpending] at hmutate
  split_ifs at hmutate with hwindow
  · exact le_sub_iff_add_le.2 hwindow
  · cases hmutate
    cases hstatus

/-- An immediate Task within its window keeps those after it from starting. -/
theorem Serving.blocks (h : Serving env db row) (ht : Awaits db row t)
    (himmediate : schedulingOf env row.manifest t.command = some .immediate)
    (hwindow : now - immediateStartWindow < t.createdAt) : Blocks env db row now t := by
  intro x hx hsched hearlier c e hc he
  obtain ⟨c', e', hc', he', hs⟩ := schedulingOf_some hsched
  obtain rfl := Option.some.inj (hc.symm.trans hc')
  obtain rfl := Option.some.inj (he.symm.trans he')
  unfold requireStartOrder
  rw [bind_of_ok (check_ok.2 ⟨hs, rfl⟩), if_pos rfl, if_neg (not_not.2 hx.pending)]
  refine requireNoSchedulingBlocker_block (fun y hy hblocks => ?_) ⟨t, ht.mem, ?_, himmediate⟩
  · obtain ⟨ha, hr, -⟩ := blockers_iff.1 hblocks
    exact h.advertised y hy (hx.bound.same ha hr)
  · obtain ⟨ha, hr, hid, horder⟩ := hearlier
    exact blockers_iff.2 ⟨ha, hr, .inr ⟨horder, hid, by simp [ht.pending]⟩, fun _ => hwindow⟩

/-- No earlier queued Task is pending where one is acknowledged. -/
theorem Acknowledgeable.first (hqueued : schedulingOf env row.manifest t.command = some .queued)
    (hpending : t.status = .pending) (h : Acknowledgeable env db row now t) (hx : Awaits db row x)
    (hearlier : Earlier env x t) : schedulingOf env row.manifest x.command ≠ some .queued := by
  obtain ⟨t', ⟨c, e, hc, he, hpre, -⟩, -⟩ := h
  obtain ⟨c', e', hc', he', hs⟩ := schedulingOf_some hqueued
  obtain rfl := Option.some.inj (hc.symm.trans hc')
  obtain rfl := Option.some.inj (he.symm.trans he')
  unfold requireAcknowledgeOrder at hpre
  rw [bind_of_ok (check_ok.2 ⟨hs, rfl⟩), if_neg (by simp [hpending])] at hpre
  obtain ⟨ha, hr, hid, horder⟩ := hearlier
  obtain ⟨other, hother, hne⟩ := requireNoSchedulingBlocker_ok hpre x hx.mem
    (mem_blockers ha hr (.inr ⟨horder, hid, by simp [hx.pending]⟩) (by simp))
  rw [hother]
  exact fun h => hne (Option.some.inj h)

/-- No earlier immediate Task is pending within its window where one is started. -/
theorem Startable.first (himmediate : schedulingOf env row.manifest t.command = some .immediate)
    (hpending : t.status = .pending) (h : Startable env db row now t) (hx : Awaits db row x)
    (hearlier : Earlier env x t) (hwindow : now - immediateStartWindow < x.createdAt) :
    schedulingOf env row.manifest x.command ≠ some .immediate := by
  obtain ⟨t', ⟨c, e, hc, he, hpre, -⟩, -⟩ := h
  obtain ⟨c', e', hc', he', hs⟩ := schedulingOf_some himmediate
  obtain rfl := Option.some.inj (hc.symm.trans hc')
  obtain rfl := Option.some.inj (he.symm.trans he')
  unfold requireStartOrder at hpre
  rw [bind_of_ok (check_ok.2 ⟨hs, rfl⟩), if_pos rfl, if_neg (not_not.2 hpending)] at hpre
  obtain ⟨ha, hr, hid, horder⟩ := hearlier
  obtain ⟨other, hother, hne⟩ := requireNoSchedulingBlocker_ok hpre x hx.mem
    (mem_blockers ha hr (.inr ⟨horder, hid, by simp [hx.pending]⟩) fun _ => hwindow)
  rw [hother]
  exact fun h => hne (Option.some.inj h)

theorem Serving.found (h : Serving env db row) :
    (∃ e, findEntity db row.assetID = some e) ∧ findAssetRuntime db row.assetID = some row := by
  constructor
  · rcases he : findEntity db row.assetID with _ | e
    · exact absurd (h.inv.has_entity row h.mem) (findEntity_none.1 he)
    · exact ⟨e, rfl⟩
  · rcases hfind : findAssetRuntime db row.assetID with _ | row'
    · simpa using List.find?_eq_none.1 hfind row h.mem
    · obtain ⟨hmem, hasset⟩ := findAssetRuntime_mem hfind
      rw [h.inv.row_eq hmem h.mem hasset]

/-- The Commands of the manifest that are found immediate. -/
structure FoundImmediate (env : Env) (row : AssetRuntime) (commands : List String) : Prop where
  found : immediateCommands env row.manifest = .ok commands
  mem : ∀ command, command ∈ commands ↔ schedulingOf env row.manifest command = some .immediate

theorem Serving.immediate (h : Serving env db row) : ∃ commands, FoundImmediate env row commands := by
  obtain ⟨commands, hfound, hmem⟩ := catalog_immediate h.catalog
  exact ⟨commands, hfound, hmem⟩

variable {commands : List String}

theorem deliverableImmediate_iff (hcommands : FoundImmediate env row commands) (ht : t ∈ db.tasks) :
    deliverableImmediate row.assetID row.runtimeID commands now t = true ↔ Awaits db row t
      ∧ schedulingOf env row.manifest t.command = some .immediate
      ∧ now - immediateStartWindow < t.createdAt := by
  simp only [deliverableImmediate, Bool.and_eq_true, decide_eq_true_eq, hcommands.mem]
  constructor
  · rintro ⟨⟨⟨⟨ha, hr⟩, hp⟩, hs⟩, hw⟩
    exact ⟨⟨ht, ⟨ha, hr⟩, hp⟩, hs, hw⟩
  · rintro ⟨⟨-, ⟨ha, hr⟩, hp⟩, hs, hw⟩
    exact ⟨⟨⟨⟨ha, hr⟩, hp⟩, hs⟩, hw⟩

theorem Serving.deliverableQueued_iff (h : Serving env db row)
    (hcommands : FoundImmediate env row commands) (ht : t ∈ db.tasks) :
    deliverableQueued row.assetID row.runtimeID commands t = true ↔ Awaits db row t
      ∧ schedulingOf env row.manifest t.command = some .queued := by
  simp only [deliverableQueued, Bool.and_eq_true, decide_eq_true_eq, hcommands.mem]
  constructor
  · rintro ⟨⟨⟨ha, hr⟩, hp⟩, hs⟩
    obtain ⟨other, hother⟩ := Option.ne_none_iff_exists'.1 (h.advertised t ht ⟨ha, hr⟩)
    rw [hother] at hs ⊢
    rw [eq_queued fun heq => hs (congrArg some heq)]
    exact ⟨⟨ht, ⟨ha, hr⟩, hp⟩, rfl⟩
  · rintro ⟨⟨-, ⟨ha, hr⟩, hp⟩, hs⟩
    refine ⟨⟨⟨ha, hr⟩, hp⟩, ?_⟩
    rw [hs]
    simp

/-- What is handed out is the first Task of each kind. -/
theorem Serving.deliverable_eq (h : Serving env db row) (hcommands : FoundImmediate env row commands)
    {runtime : String} (hruntime : trimSpace runtime = row.runtimeID) :
    TaskActions.deliverable env row.assetID runtime (standing db now)
      = .ok (((selectTasks env db (deliverableImmediate row.assetID row.runtimeID commands
            now)).take 1
          ++ (selectTasks env db (deliverableQueued row.assetID row.runtimeID commands)).take
            1).mergeSort (creationOrder env), standing db now) := by
  obtain ⟨⟨e, he⟩, hrow⟩ := h.found
  have hdb : getDB (standing db now) = .ok (db, standing db now) := rfl
  have hclock : clockTimestamp (standing db now) = .ok (now, standing db now) := rfl
  unfold TaskActions.deliverable
  simp only [hruntime]
  rw [bind_of_ok hdb, he, hrow]
  simp only
  rw [bind_of_ok (a := ()) (require_ok.2 ⟨by simp [h.ready], rfl⟩),
    bind_of_ok (check_ok.2 ⟨hcommands.found, rfl⟩), bind_of_ok hclock]
  refine bind_of_ok (a := ()) (forM_pass fun t ht => ?_)
  have hadvertised : schedulingOf env row.manifest t.command ≠ none := by
    rw [List.mem_mergeSort, List.mem_append] at ht
    rcases ht with ht | ht <;> obtain ⟨hmem, hp⟩ := mem_selectTasks.1 (List.mem_of_mem_take ht)
    · rw [((deliverableImmediate_iff hcommands hmem).1 hp).2.1]
      simp
    · rw [((h.deliverableQueued_iff hcommands hmem).1 hp).2]
      simp
  obtain ⟨other, hother⟩ := Option.ne_none_iff_exists'.1 hadvertised
  obtain ⟨c, -, hc, -⟩ := schedulingOf_some hother
  unfold storedCommandDefinition
  rw [hc]
  rfl

/-- The reconciliation selects the pending immediate Tasks whose window has passed. -/
theorem Serving.expiredImmediate_iff (h : Serving env db row) (ht : Awaits db row t)
    (himmediate : schedulingOf env row.manifest t.command = some .immediate) :
    expiredImmediate env db now t = true ↔ t.createdAt ≤ now - immediateStartWindow := by
  obtain ⟨c, e, hc, he, hs⟩ := schedulingOf_some himmediate
  obtain ⟨hmem, hcommand⟩ := mem_of_manifestEntry he
  have hfind : db.assetRuntimes.find? (isRuntime t.assetID t.runtimeID) = some row := by
    rcases hfind : db.assetRuntimes.find? (isRuntime t.assetID t.runtimeID) with _ | row'
    · have hnot := List.find?_eq_none.1 hfind row h.mem
      exact absurd (isRuntime_iff.2 ⟨ht.bound.1.symm, ht.bound.2.symm⟩) hnot
    · have hasset := (isRuntime_iff.1 (List.find?_some hfind)).1
      rw [h.inv.row_eq (List.mem_of_find?_eq_some hfind) h.mem (hasset.trans ht.bound.1)]
  unfold resolveScheduling at hs
  unfold expiredImmediate
  rcases hsched : c.scheduling with _ | scheduling
  · rcases hentry : e.scheduling with _ | scheduling
    · rw [hsched, hentry] at hs
      cases hs
    · rw [hsched, hentry] at hs
      obtain rfl : scheduling = .immediate := Except.ok.inj hs
      have hany : (row.manifest.any fun entry =>
          entry.command = t.command && entry.scheduling = some .immediate) = true :=
        List.any_eq_true.2 ⟨e, hmem, by simp [hcommand, hentry]⟩
      simp only [hc, hsched, hfind, Option.any_some, hany, ht.pending, decide_true, Bool.true_and,
        Bool.and_true, decide_eq_true_eq]
  · simp only [hsched] at hs
    split_ifs at hs
    obtain rfl : scheduling = .immediate := Except.ok.inj hs
    simp only [hc, hsched, ht.pending, decide_true, Bool.true_and, Bool.and_true,
      decide_eq_true_eq]

/-- In every state Core reaches, and of every runtime that is ready in it, what is handed out are
the pending Tasks that could be acknowledged or, within their window, started; and an immediate Task
that is pending either may be handed out and blocks the later ones, or is failed by its start and
selected by the reconciliation. -/
theorem deliverable_agrees (hcollates : Collates env) {s : System} (hs : Reachable env s)
    (hrow : row ∈ s.db.assetRuntimes) (hready : row.ready = true) {runtime : String}
    (hruntime : trimSpace runtime = row.runtimeID) (now : Time) :
    ∃ commands tasks, immediateCommands env row.manifest = .ok commands
      ∧ TaskActions.deliverable env row.assetID runtime (standing s.db now)
        = .ok (tasks, standing s.db now)
      ∧ (∀ t, t ∈ tasks ↔ Awaits s.db row t
        ∧ (schedulingOf env row.manifest t.command = some .queued
            ∧ Acknowledgeable env s.db row now t
          ∨ schedulingOf env row.manifest t.command = some .immediate
            ∧ Startable env s.db row now t))
      ∧ ∀ t, Awaits s.db row t → schedulingOf env row.manifest t.command = some .immediate →
        (deliverableImmediate row.assetID row.runtimeID commands now t = true
            ∧ Blocks env s.db row now t ∧ ¬TimesOut env s.db row now t
            ∧ t ∉ selectTasks env s.db (expiredImmediate env s.db now))
        ∨ (TimesOut env s.db row now t ∧ t ∈ selectTasks env s.db (expiredImmediate env s.db now)
          ∧ ¬deliverableImmediate row.assetID row.runtimeID commands now t = true) := by
  have h := reachable_serving hs hrow hready
  obtain ⟨commands, hcommands⟩ := h.immediate
  refine ⟨commands, _, hcommands.found, h.deliverable_eq hcommands hruntime, fun t => ?_,
    fun t ht himmediate => ?_⟩
  · have hids : ∀ x ∈ s.db.tasks, ∀ y ∈ s.db.tasks, x.taskID = y.taskID → x = y :=
      fun x hx y hy => h.inv.task_eq hx hy
    have himmediate := hcollates.mem_first
      (p := deliverableImmediate row.assetID row.runtimeID commands now) hids
      (fun x hx hp => ((deliverableImmediate_iff hcommands hx).1 hp).1.bound) t
    have hqueued := hcollates.mem_first
      (p := deliverableQueued row.assetID row.runtimeID commands) hids
      (fun x hx hp => ((h.deliverableQueued_iff hcommands hx).1 hp).1.bound) t
    rw [List.mem_mergeSort, List.mem_append, himmediate, hqueued]
    constructor
    · rintro (⟨ht, hp, hnone⟩ | ⟨ht, hp, hnone⟩)
      · obtain ⟨hawaits, hsched, hwindow⟩ := (deliverableImmediate_iff hcommands ht).1 hp
        refine ⟨hawaits, .inr ⟨hsched, h.startable hawaits hsched hwindow ?_⟩⟩
        intro x hx hearlier hxw hxs
        exact hnone x hx.mem ((deliverableImmediate_iff hcommands hx.mem).2 ⟨hx, hxs, hxw⟩) hearlier
      · obtain ⟨hawaits, hsched⟩ := (h.deliverableQueued_iff hcommands ht).1 hp
        refine ⟨hawaits, .inl ⟨hsched, h.acknowledgeable hawaits hsched ?_⟩⟩
        intro x hx hearlier hxs
        exact hnone x hx.mem ((h.deliverableQueued_iff hcommands hx.mem).2 ⟨hx, hxs⟩) hearlier
    · rintro ⟨hawaits, ⟨hsched, hack⟩ | ⟨hsched, hstart⟩⟩
      · refine .inr ⟨hawaits.mem,
          (h.deliverableQueued_iff hcommands hawaits.mem).2 ⟨hawaits, hsched⟩,
          fun x hx hp hearlier => ?_⟩
        obtain ⟨hx, hxs⟩ := (h.deliverableQueued_iff hcommands hx).1 hp
        exact hack.first hsched hawaits.pending hx hearlier hxs
      · have hwindow := hstart.window hsched hawaits.pending
        refine .inl ⟨hawaits.mem,
          (deliverableImmediate_iff hcommands hawaits.mem).2 ⟨hawaits, hsched, hwindow⟩,
          fun x hx hp hearlier => ?_⟩
        obtain ⟨hx, hxs, hxw⟩ := (deliverableImmediate_iff hcommands hx).1 hp
        exact hstart.first hsched hawaits.pending hx hearlier hxw hxs
  · have hselected : t ∈ selectTasks env s.db (expiredImmediate env s.db now)
        ↔ t.createdAt ≤ now - immediateStartWindow := by
      rw [mem_selectTasks, h.expiredImmediate_iff ht himmediate]
      exact and_iff_right ht.mem
    have hoffered : deliverableImmediate row.assetID row.runtimeID commands now t = true ↔ _ :=
      deliverableImmediate_iff hcommands ht.mem
    by_cases hwindow : t.createdAt ≤ now - immediateStartWindow
    · refine .inr ⟨h.timesOut ht himmediate hwindow, hselected.2 hwindow, fun hp => ?_⟩
      exact absurd (hoffered.1 hp).2.2 (not_lt.2 hwindow)
    · refine .inl ⟨hoffered.2 ⟨ht, himmediate, not_le.1 hwindow⟩,
        h.blocks ht himmediate (not_le.1 hwindow), fun hout => hwindow ?_,
        fun hmem => hwindow (hselected.1 hmem)⟩
      exact hout.window himmediate ht.pending

/-- The IDs of Tasks in the order of their characters. -/
def sortedEnv : Env := { plainEnv with collation := fun a b => a ≤ b }

theorem sortedEnv_collates : Collates sortedEnv :=
  ⟨fun a b => by simpa [sortedEnv] using le_total a b,
    fun a b c hab hbc => by
      simp only [sortedEnv, decide_eq_true_eq] at *
      exact hab.trans hbc,
    fun a b hab hba => by
      simp only [sortedEnv, decide_eq_true_eq] at *
      exact le_antisymm hab hba⟩

/-- An Asset whose runtime is ready, with an immediate Task that is pending. -/
def waitingAsset : System := (stopEvents.take 6).foldl (System.step sortedEnv) System.initial

theorem waitingAsset_reachable : Reachable sortedEnv waitingAsset := by
  unfold Reachable waitingAsset stopEvents
  simp only [List.take_succ_cons, List.take_zero, List.foldl_cons, List.foldl_nil]
  iterate 6 apply Runs.tail
  exact .refl _

theorem deliverable_agrees_waitingAsset :
    ∃ row ∈ waitingAsset.db.assetRuntimes, ∃ t ∈ waitingAsset.db.tasks,
      Startable sortedEnv waitingAsset.db row 0 t := by
  obtain ⟨row, hrow, hready, hruntime, hasset⟩ : ∃ row ∈ waitingAsset.db.assetRuntimes,
      row.ready = true ∧ trimSpace "r" = row.runtimeID ∧ row.assetID = "a" := by
    decide +kernel
  obtain ⟨commands, tasks, -, hrun, hiff, -⟩ :=
    deliverable_agrees sortedEnv_collates waitingAsset_reachable hrow hready hruntime 0
  have htasks : (match TaskActions.deliverable sortedEnv "a" "r" (standing waitingAsset.db 0) with
      | .ok r => r.1
      | .error _ => []) = waitingAsset.db.tasks := by
    decide +kernel
  rw [← hasset, hrun] at htasks
  have htasks : tasks = waitingAsset.db.tasks := htasks
  obtain ⟨t, ht, himmediate⟩ : ∃ t ∈ waitingAsset.db.tasks, ∀ row ∈ waitingAsset.db.assetRuntimes,
      schedulingOf sortedEnv row.manifest t.command = some .immediate := by
    decide +kernel
  have hcase := ((hiff t).1 (htasks ▸ ht)).2
  rw [himmediate row hrow] at hcase
  rcases hcase with ⟨hqueued, -⟩ | ⟨-, hstart⟩
  · cases hqueued
  · exact ⟨row, hrow, t, ht, hstart⟩

end Agreement

end Atlas.Core
