import Atlas.Core.System

/-!
# Fencing of Asset runtimes

What the runtime fence is about, apart from how Core's transactions compute it: the Tasks, the
runtime row of each Asset, the generations ever installed. A step (`FenceStep`) changes Tasks under
fixed runtimes without adding work the fence would not admit, installs a generation never used
before, stops the current one, makes it ready once no other runtime has work left, or drops the row
of an Asset without work. `Fence.Inv` holds after every step, a generation once installed or
stopped stays so, and a runtime once replaced never becomes current again.
-/

namespace Atlas.Core

/-- The part of the database the fence reads. -/
structure Fence where
  tasks : List Task
  runtimes : List AssetRuntime
  generations : List RuntimeGeneration
  installed : List (String × String)
  entityIDs : List String

def DB.fence (db : DB) : Fence :=
  ⟨db.tasks, db.assetRuntimes, db.assetRuntimeGenerations, db.installed,
    db.entities.map (·.entityID)⟩

namespace Fence

/-- A nonterminal Task of the Asset, bound to the runtime. -/
def Work (f : Fence) (assetID runtimeID : String) : Prop :=
  ∃ t ∈ f.tasks, t.assetID = assetID ∧ t.runtimeID = runtimeID ∧ t.status.nonterminal = true

/-- The Asset's runtime row names this runtime. -/
def Current (f : Fence) (assetID runtimeID : String) : Prop :=
  ∃ r ∈ f.runtimes, r.assetID = assetID ∧ r.runtimeID = runtimeID

def Ready (f : Fence) (assetID runtimeID : String) : Prop :=
  ∃ r ∈ f.runtimes, r.assetID = assetID ∧ r.runtimeID = runtimeID ∧ r.ready = true

/-- The generation exists, stopped or not. -/
def Installed (f : Fence) (assetID runtimeID : String) : Prop :=
  ∃ g ∈ f.generations, g.assetID = assetID ∧ g.runtimeID = runtimeID

def Stopped (f : Fence) (assetID runtimeID : String) : Prop :=
  ∃ g ∈ f.generations, g.assetID = assetID ∧ g.runtimeID = runtimeID ∧ g.stopped = true

structure Inv (f : Fence) : Prop where
  task_unique : (f.tasks.map (·.taskID)).Nodup
  runtime_unique : (f.runtimes.map (·.assetID)).Nodup
  generation_unique : (f.generations.map (·.runtimeID)).Nodup
  registered : ∀ r ∈ f.runtimes, ⟨r.assetID, r.runtimeID, r.stopped⟩ ∈ f.generations
  stopped_idle : ∀ r ∈ f.runtimes, r.stopped = true → r.ready = false
  has_entity : ∀ r ∈ f.runtimes, r.assetID ∈ f.entityIDs
  ready_bound : ∀ a r r', f.Ready a r → f.Work a r' → r' = r
  installed_once : f.installed.Nodup
  installed_known : ∀ p ∈ f.installed, f.Installed p.1 p.2

/-- Tasks change under fixed runtimes. New work is only that of a ready runtime. -/
structure WorkStep (f f' : Fence) : Prop where
  runtimes : f'.runtimes = f.runtimes
  generations : f'.generations = f.generations
  installed : f'.installed = f.installed
  entities : f.entityIDs ⊆ f'.entityIDs
  task_unique : (f.tasks.map (·.taskID)).Nodup → (f'.tasks.map (·.taskID)).Nodup
  work : ∀ a r, f'.Work a r → f.Work a r ∨ f.Ready a r

/-- Install a generation in the place of the Asset's runtime. -/
def install (runtime : AssetRuntime) (f : Fence) : Fence :=
  { f with
    generations := f.generations ++ [⟨runtime.assetID, runtime.runtimeID, false⟩]
    runtimes :=
      if f.runtimes.any (·.assetID = runtime.assetID) then
        f.runtimes.map fun r => if r.assetID = runtime.assetID then runtime else r
      else f.runtimes ++ [runtime]
    installed := f.installed ++ [(runtime.assetID, runtime.runtimeID)] }

def stop (assetID runtimeID : String) (f : Fence) : Fence :=
  { f with
    runtimes := f.runtimes.map fun r =>
      if isRuntime assetID runtimeID r then
        { r with ready := false, stopped := true, manifest := [], readyAt := none }
      else r
    generations := f.generations.map fun g =>
      if g.assetID = assetID && g.runtimeID = runtimeID then { g with stopped := true } else g }

def makeReady (assetID runtimeID : String) (manifest : CommandManifest) (now : Time) (f : Fence) :
    Fence :=
  { f with
    runtimes := f.runtimes.map fun r =>
      if isRuntime assetID runtimeID r then
        { r with ready := true, manifest := manifest, readyAt := some now }
      else r }

def dropAsset (assetID : String) (f : Fence) : Fence :=
  { f with
    runtimes := f.runtimes.filter (·.assetID ≠ assetID)
    entityIDs := f.entityIDs.filter (· ≠ assetID) }

end Fence

open Fence

inductive FenceStep (f : Fence) : Fence → Prop
  | work {f' : Fence} (h : f.WorkStep f') : FenceStep f f'
  | install (runtime : AssetRuntime) (hnew : ∀ g ∈ f.generations, g.runtimeID ≠ runtime.runtimeID)
      (hready : runtime.ready = false) (hstopped : runtime.stopped = false)
      (hentity : runtime.assetID ∈ f.entityIDs) : FenceStep f (f.install runtime)
  | stop (a r : String) (hcurrent : f.Current a r) : FenceStep f (f.stop a r)
  | makeReady (a r : String) (manifest : CommandManifest) (now : Time)
      (hrow : ∀ row ∈ f.runtimes, isRuntime a r row = true → row.stopped = false)
      (hdrained : ∀ r', f.Work a r' → r' = r) : FenceStep f (f.makeReady a r manifest now)
  | dropAsset (a : String) (hidle : ∀ r, ¬ f.Work a r) : FenceStep f (f.dropAsset a)

namespace Fence

variable {f f' f'' : Fence} {a r : String}

@[refl] theorem WorkStep.refl (f : Fence) : f.WorkStep f :=
  ⟨rfl, rfl, rfl, fun _ h => h, fun h => h, fun _ _ h => .inl h⟩

theorem WorkStep.ready (h : f.WorkStep f') : f'.Ready a r ↔ f.Ready a r := by
  unfold Ready
  rw [h.runtimes]

@[trans] theorem WorkStep.trans (h : f.WorkStep f') (h' : f'.WorkStep f'') : f.WorkStep f'' := by
  refine ⟨h'.runtimes.trans h.runtimes, h'.generations.trans h.generations,
    h'.installed.trans h.installed, fun e he => h'.entities (h.entities he),
    fun hu => h'.task_unique (h.task_unique hu), fun a r hw => ?_⟩
  rcases h'.work a r hw with hw | hr
  · exact h.work a r hw
  · exact .inr (h.ready.1 hr)

/-- An Asset has one runtime row. -/
theorem Inv.row_eq (h : f.Inv) {x y : AssetRuntime} (hx : x ∈ f.runtimes) (hy : y ∈ f.runtimes)
    (hxy : x.assetID = y.assetID) : x = y :=
  List.inj_on_of_nodup_map h.runtime_unique hx hy hxy

/-- A runtime ID has one generation. -/
theorem Inv.generation_eq (h : f.Inv) {x y : RuntimeGeneration} (hx : x ∈ f.generations)
    (hy : y ∈ f.generations) (hxy : x.runtimeID = y.runtimeID) : x = y :=
  List.inj_on_of_nodup_map h.generation_unique hx hy hxy

theorem Inv.task_eq (h : f.Inv) {x y : Task} (hx : x ∈ f.tasks) (hy : y ∈ f.tasks)
    (hxy : x.taskID = y.taskID) : x = y :=
  List.inj_on_of_nodup_map h.task_unique hx hy hxy

theorem Inv.installed_of_current (h : f.Inv) (hc : f.Current a r) : f.Installed a r := by
  obtain ⟨row, hrow, rfl, rfl⟩ := hc
  exact ⟨_, h.registered row hrow, rfl, rfl⟩

theorem Ready.current (h : f.Ready a r) : f.Current a r := by
  obtain ⟨row, hrow, ha, hr, -⟩ := h
  exact ⟨row, hrow, ha, hr⟩

theorem Inv.current_unique (h : f.Inv) {r' : String} (hc : f.Current a r) (hc' : f.Current a r') :
    r = r' := by
  obtain ⟨x, hx, hxa, rfl⟩ := hc
  obtain ⟨y, hy, hya, rfl⟩ := hc'
  rw [h.row_eq hx hy (hxa.trans hya.symm)]

/-- A stopped generation is not ready. -/
theorem Inv.stopped_not_ready (h : f.Inv) (hs : f.Stopped a r) : ¬ f.Ready a r := by
  rintro ⟨row, hrow, -, rfl, hready⟩
  obtain ⟨g, hg, -, hgr, hgs⟩ := hs
  obtain rfl := h.generation_eq hg (h.registered row hrow) hgr
  exact Bool.false_ne_true ((h.stopped_idle row hrow hgs).symm.trans hready)

theorem Stopped.installed (h : f.Stopped a r) : f.Installed a r := by
  obtain ⟨g, hg, ha, hr, -⟩ := h
  exact ⟨g, hg, ha, hr⟩

theorem isRuntime_iff {row : AssetRuntime} :
    isRuntime a r row = true ↔ row.assetID = a ∧ row.runtimeID = r := by
  simp [isRuntime]

/-- Rows changed in place keep their keys. -/
theorem map_key_eq {ρ : Type} {key : ρ → String} {u : ρ → ρ} (h : ∀ x, key (u x) = key x)
    (l : List ρ) : (l.map u).map key = l.map key := by
  rw [List.map_map]
  exact List.map_congr_left fun x _ => h x

/-! ## Each step keeps the invariant -/

theorem Inv.workStep (h : f.Inv) (hs : f.WorkStep f') : f'.Inv := by
  refine ⟨hs.task_unique h.task_unique, by rw [hs.runtimes]; exact h.runtime_unique,
    by rw [hs.generations]; exact h.generation_unique, ?_, by rw [hs.runtimes]; exact h.stopped_idle,
    ?_, ?_, by rw [hs.installed]; exact h.installed_once, ?_⟩
  · rw [hs.runtimes, hs.generations]
    exact h.registered
  · rw [hs.runtimes]
    exact fun r hr => hs.entities (h.has_entity r hr)
  · intro a r r' hready hwork
    have hready := hs.ready.1 hready
    rcases hs.work a r' hwork with hw | hr
    · exact h.ready_bound a r r' hready hw
    · exact h.current_unique hr.current hready.current
  · intro p hp
    unfold Installed
    rw [hs.generations]
    exact h.installed_known p (hs.installed ▸ hp)

/-- The new runtime's row, and those of other Assets. -/
theorem mem_install {runtime row : AssetRuntime} :
    row ∈ (f.install runtime).runtimes ↔
      row = runtime ∨ row ∈ f.runtimes ∧ row.assetID ≠ runtime.assetID := by
  unfold install
  simp only
  split
  · rename_i hany
    obtain ⟨x, hx, hxa⟩ := List.any_eq_true.1 hany
    constructor
    · intro hrow
      obtain ⟨y, hy, rfl⟩ := List.mem_map.1 hrow
      split
      · exact .inl rfl
      · exact .inr ⟨hy, ‹_›⟩
    · rintro (rfl | ⟨hrow, hne⟩)
      · exact List.mem_map.2 ⟨x, hx, if_pos (by simpa using hxa)⟩
      · exact List.mem_map.2 ⟨row, hrow, if_neg hne⟩
  · rename_i hany
    have hany : ∀ x ∈ f.runtimes, x.assetID ≠ runtime.assetID := by simpa using hany
    rw [List.mem_append, List.mem_singleton]
    constructor
    · rintro (hrow | rfl)
      · exact .inr ⟨hrow, hany row hrow⟩
      · exact .inl rfl
    · rintro (rfl | ⟨hrow, -⟩)
      · exact .inr rfl
      · exact .inl hrow

theorem install_runtime_unique {runtime : AssetRuntime}
    (h : (f.runtimes.map (·.assetID)).Nodup) :
    ((f.install runtime).runtimes.map (·.assetID)).Nodup := by
  unfold install
  simp only
  split
  · rw [map_key_eq fun x => ?_]
    · exact h
    · split
      · exact Eq.symm ‹_›
      · rfl
  · rename_i hany
    rw [List.map_append]
    refine h.append (List.nodup_singleton _) ?_
    simpa [List.disjoint_singleton] using hany

theorem install_current {runtime : AssetRuntime} :
    (f.install runtime).Current a r ↔
      (a = runtime.assetID ∧ r = runtime.runtimeID) ∨ (a ≠ runtime.assetID ∧ f.Current a r) := by
  constructor
  · rintro ⟨row, hrow, rfl, rfl⟩
    rcases mem_install.1 hrow with rfl | ⟨hrow, hne⟩
    · exact .inl ⟨rfl, rfl⟩
    · exact .inr ⟨hne, row, hrow, rfl, rfl⟩
  · rintro (⟨rfl, rfl⟩ | ⟨hne, row, hrow, rfl, rfl⟩)
    · exact ⟨runtime, mem_install.2 (.inl rfl), rfl, rfl⟩
    · exact ⟨row, mem_install.2 (.inr ⟨hrow, hne⟩), rfl, rfl⟩

theorem Inv.install (h : f.Inv) {runtime : AssetRuntime}
    (hnew : ∀ g ∈ f.generations, g.runtimeID ≠ runtime.runtimeID) (hready : runtime.ready = false)
    (hstopped : runtime.stopped = false) (hentity : runtime.assetID ∈ f.entityIDs) :
    (f.install runtime).Inv := by
  refine ⟨h.task_unique, install_runtime_unique h.runtime_unique, ?_, ?_, ?_, ?_, ?_, ?_, ?_⟩
  · simp only [Fence.install, List.map_append, List.map_cons, List.map_nil]
    refine h.generation_unique.append (List.nodup_singleton _) ?_
    rw [List.disjoint_singleton, List.mem_map]
    rintro ⟨g, hg, hgr⟩
    exact hnew g hg hgr
  · intro row hrow
    rcases mem_install.1 hrow with rfl | ⟨hrow, -⟩
    · exact List.mem_append_right _ (by rw [hstopped]; exact List.mem_singleton_self _)
    · exact List.mem_append_left _ (h.registered row hrow)
  · intro row hrow hs
    rcases mem_install.1 hrow with rfl | ⟨hrow, -⟩
    · exact hready
    · exact h.stopped_idle row hrow hs
  · intro row hrow
    rcases mem_install.1 hrow with rfl | ⟨hrow, -⟩
    · exact hentity
    · exact h.has_entity row hrow
  · rintro a r r' ⟨row, hrow, rfl, rfl, hr⟩ hwork
    rcases mem_install.1 hrow with rfl | ⟨hrow, -⟩
    · exact absurd (hready.symm.trans hr) Bool.false_ne_true
    · exact h.ready_bound _ _ r' ⟨row, hrow, rfl, rfl, hr⟩ hwork
  · refine h.installed_once.append (List.nodup_singleton _) ?_
    rw [List.disjoint_singleton]
    intro hin
    obtain ⟨g, hg, -, hgr⟩ := h.installed_known _ hin
    exact hnew g hg hgr
  · intro p hp
    rcases List.mem_append.1 hp with hp | hp
    · obtain ⟨g, hg, hg'⟩ := h.installed_known p hp
      exact ⟨g, List.mem_append_left _ hg, hg'⟩
    · obtain rfl := List.mem_singleton.1 hp
      exact ⟨_, List.mem_append_right _ (List.mem_singleton_self _), rfl, rfl⟩

/-- Changing rows in place keeps each row's Asset and runtime. -/
theorem current_map {u : AssetRuntime → AssetRuntime} (hf : f'.runtimes = f.runtimes.map u)
    (ha : ∀ row, (u row).assetID = row.assetID) (hr : ∀ row, (u row).runtimeID = row.runtimeID) :
    f'.Current a r ↔ f.Current a r := by
  unfold Current
  simp [hf, ha, hr]

theorem stop_current {a' r' : String} : (f.stop a' r').Current a r ↔ f.Current a r :=
  current_map rfl (fun row => by split <;> rfl) fun row => by split <;> rfl

theorem makeReady_current {a' r' : String} {manifest : CommandManifest} {now : Time} :
    (f.makeReady a' r' manifest now).Current a r ↔ f.Current a r :=
  current_map rfl (fun row => by split <;> rfl) fun row => by split <;> rfl

theorem Inv.stop (h : f.Inv) (a r : String) : (f.stop a r).Inv := by
  refine ⟨h.task_unique, ?_, ?_, ?_, ?_, ?_, ?_, h.installed_once, ?_⟩
  · rw [Fence.stop, map_key_eq fun x => by split <;> rfl]
    exact h.runtime_unique
  · rw [Fence.stop, map_key_eq fun x => by split <;> rfl]
    exact h.generation_unique
  · intro row hrow
    obtain ⟨x, hx, rfl⟩ := List.mem_map.1 hrow
    refine List.mem_map.2 ⟨_, h.registered x hx, ?_⟩
    by_cases hc : isRuntime a r x = true
    · obtain ⟨rfl, rfl⟩ := isRuntime_iff.1 hc
      simp [hc]
    · have : ¬ (x.assetID = a ∧ x.runtimeID = r) := fun hcc => hc (isRuntime_iff.2 hcc)
      simp only [hc, if_false, Bool.false_eq_true]
      rw [if_neg (by simpa using this)]
  · intro row hrow hs
    obtain ⟨x, hx, rfl⟩ := List.mem_map.1 hrow
    by_cases hc : isRuntime a r x = true
    · simp only [hc, if_true]
    · simp only [hc, if_false, Bool.false_eq_true] at hs ⊢
      exact h.stopped_idle x hx hs
  · intro row hrow
    obtain ⟨x, hx, rfl⟩ := List.mem_map.1 hrow
    split <;> exact h.has_entity x hx
  · rintro a₀ r₀ r' ⟨row, hrow, rfl, rfl, hready⟩ hwork
    obtain ⟨x, hx, rfl⟩ := List.mem_map.1 hrow
    split at hready
    · exact absurd hready Bool.false_ne_true
    · rename_i hc
      simp only [hc, if_false, Bool.false_eq_true] at hwork ⊢
      exact h.ready_bound _ _ r' ⟨x, hx, rfl, rfl, hready⟩ hwork
  · intro p hp
    obtain ⟨g, hg, hga, hgr⟩ := h.installed_known p hp
    refine ⟨_, List.mem_map.2 ⟨g, hg, rfl⟩, ?_⟩
    split <;> exact ⟨hga, hgr⟩

theorem Inv.makeReady (h : f.Inv) {manifest : CommandManifest} {now : Time}
    (hrow : ∀ row ∈ f.runtimes, isRuntime a r row = true → row.stopped = false)
    (hdrained : ∀ r', f.Work a r' → r' = r) : (f.makeReady a r manifest now).Inv := by
  refine ⟨h.task_unique, ?_, h.generation_unique, ?_, ?_, ?_, ?_, h.installed_once,
    h.installed_known⟩
  · rw [Fence.makeReady, map_key_eq fun x => by split <;> rfl]
    exact h.runtime_unique
  · intro row hr
    obtain ⟨x, hx, rfl⟩ := List.mem_map.1 hr
    split <;> exact h.registered x hx
  · intro row hr hs
    obtain ⟨x, hx, rfl⟩ := List.mem_map.1 hr
    by_cases hc : isRuntime a r x = true
    · simp only [hc, if_true] at hs
      exact absurd ((hrow x hx hc).symm.trans hs) Bool.false_ne_true
    · simp only [hc, if_false, Bool.false_eq_true] at hs ⊢
      exact h.stopped_idle x hx hs
  · intro row hr
    obtain ⟨x, hx, rfl⟩ := List.mem_map.1 hr
    split <;> exact h.has_entity x hx
  · rintro a₀ r₀ r' ⟨row, hr, rfl, rfl, hready⟩ hwork
    obtain ⟨x, hx, rfl⟩ := List.mem_map.1 hr
    by_cases hc : isRuntime a r x = true
    · simp only [hc, if_true] at hwork ⊢
      obtain ⟨rfl, rfl⟩ := isRuntime_iff.1 hc
      exact hdrained r' hwork
    · simp only [hc, if_false, Bool.false_eq_true] at hwork hready ⊢
      exact h.ready_bound _ _ r' ⟨x, hx, rfl, rfl, hready⟩ hwork

theorem Inv.dropAsset (h : f.Inv) (a : String) : (f.dropAsset a).Inv := by
  refine ⟨h.task_unique, h.runtime_unique.sublist (List.filter_sublist.map _),
    h.generation_unique, fun row hr => h.registered row (List.mem_filter.1 hr).1,
    fun row hr => h.stopped_idle row (List.mem_filter.1 hr).1, ?_, ?_, h.installed_once,
    h.installed_known⟩
  · intro row hr
    obtain ⟨hr, hne⟩ := List.mem_filter.1 hr
    exact List.mem_filter.2 ⟨h.has_entity row hr, hne⟩
  · rintro a₀ r₀ r' ⟨row, hr, hra, hrr, hready⟩ hwork
    exact h.ready_bound _ _ r' ⟨row, (List.mem_filter.1 hr).1, hra, hrr, hready⟩ hwork

theorem FenceStep.inv (h : f.Inv) (hs : FenceStep f f') : f'.Inv := by
  cases hs with
  | work hs => exact h.workStep hs
  | install runtime hnew hready hstopped hentity => exact h.install hnew hready hstopped hentity
  | stop a r _ => exact h.stop a r
  | makeReady a r manifest now hrow hdrained => exact h.makeReady hrow hdrained
  | dropAsset a _ => exact h.dropAsset a

/-! ## What lasts -/

theorem FenceStep.installed (hs : FenceStep f f') (h : f.Installed a r) : f'.Installed a r := by
  obtain ⟨g, hg, ha, hr⟩ := h
  cases hs with
  | work hs => exact ⟨g, hs.generations ▸ hg, ha, hr⟩
  | install runtime _ _ _ _ => exact ⟨g, List.mem_append_left _ hg, ha, hr⟩
  | stop a' r' _ =>
    refine ⟨_, List.mem_map.2 ⟨g, hg, rfl⟩, ?_⟩
    split <;> exact ⟨ha, hr⟩
  | makeReady a' r' manifest now _ _ => exact ⟨g, hg, ha, hr⟩
  | dropAsset a' _ => exact ⟨g, hg, ha, hr⟩

theorem FenceStep.stopped (hs : FenceStep f f') (h : f.Stopped a r) : f'.Stopped a r := by
  obtain ⟨g, hg, ha, hr, hst⟩ := h
  cases hs with
  | work hs => exact ⟨g, hs.generations ▸ hg, ha, hr, hst⟩
  | install runtime _ _ _ _ => exact ⟨g, List.mem_append_left _ hg, ha, hr, hst⟩
  | stop a' r' _ =>
    refine ⟨_, List.mem_map.2 ⟨g, hg, rfl⟩, ?_⟩
    split
    · exact ⟨ha, hr, rfl⟩
    · exact ⟨ha, hr, hst⟩
  | makeReady a' r' manifest now _ _ => exact ⟨g, hg, ha, hr, hst⟩
  | dropAsset a' _ => exact ⟨g, hg, ha, hr, hst⟩

/-- A runtime already installed that is current after a step was so before. -/
theorem FenceStep.current (hs : FenceStep f f') (hi : f.Installed a r) (hc : f'.Current a r) :
    f.Current a r := by
  cases hs with
  | work hs =>
    unfold Current at hc ⊢
    rwa [hs.runtimes] at hc
  | install runtime hnew _ _ _ =>
    rcases install_current.1 hc with ⟨rfl, rfl⟩ | ⟨-, hc⟩
    · obtain ⟨g, hg, -, hgr⟩ := hi
      exact absurd hgr (hnew g hg)
    · exact hc
  | stop a' r' _ => exact stop_current.1 hc
  | makeReady a' r' manifest now _ _ => exact makeReady_current.1 hc
  | dropAsset a' _ =>
    obtain ⟨row, hrow, hr⟩ := hc
    exact ⟨row, (List.mem_filter.1 hrow).1, hr⟩

/-- Work after a step was there before, or is that of a ready runtime. -/
theorem FenceStep.work_cases (hs : FenceStep f f') (hw : f'.Work a r) :
    f.Work a r ∨ f.Ready a r := by
  cases hs with
  | work hs => exact hs.work a r hw
  | install runtime _ _ _ _ => exact .inl hw
  | stop a' r' _ => exact .inl hw
  | makeReady a' r' manifest now _ _ => exact .inl hw
  | dropAsset a' _ => exact .inl hw

/-- While a runtime stays current, no other generation of its Asset is stopped. -/
theorem FenceStep.stopped_other (h : f.Inv) (hs : FenceStep f f') (hi : f.Installed a r)
    (hc : f'.Current a r) {r' : String} (hne : r' ≠ r) (hst : f'.Stopped a r') :
    f.Stopped a r' := by
  have hcur := FenceStep.current hs hi hc
  obtain ⟨g, hg, ha, hr, hgs⟩ := hst
  cases hs with
  | work hs => exact ⟨g, hs.generations ▸ hg, ha, hr, hgs⟩
  | install runtime _ _ _ _ =>
    rcases List.mem_append.1 hg with hg | hg
    · exact ⟨g, hg, ha, hr, hgs⟩
    · rw [List.mem_singleton.1 hg] at hgs
      exact absurd hgs Bool.false_ne_true
  | stop a' r'' hcurrent =>
    obtain ⟨x, hx, rfl⟩ := List.mem_map.1 hg
    split at hgs
    · rename_i hx'
      simp only [Bool.and_eq_true, decide_eq_true_eq] at hx'
      simp only [hx', decide_true, Bool.and_self, if_true] at ha hr
      rw [ha] at hcurrent
      rw [hr] at hcurrent
      exact absurd (h.current_unique hcurrent hcur) hne
    · rename_i hx'
      rw [if_neg hx'] at ha hr
      exact ⟨x, hx, ha, hr, hgs⟩
  | makeReady a' r'' manifest now _ _ => exact ⟨g, hg, ha, hr, hgs⟩
  | dropAsset a' _ => exact ⟨g, hg, ha, hr, hgs⟩

/-- The Asset's work is bound to this runtime for as long as it is current. -/
def Fenced (f : Fence) (a r : String) : Prop :=
  f.Installed a r ∧ (f.Current a r → ∀ r', f.Work a r' → r' = r)

/-- The Asset has no work for as long as this stopped runtime is current. -/
def Idle (f : Fence) (a r : String) : Prop :=
  f.Stopped a r ∧ (f.Current a r → ∀ r', ¬ f.Work a r')

theorem FenceStep.fenced (h : f.Inv) (hs : FenceStep f f') (hf : f.Fenced a r) :
    f'.Fenced a r := by
  refine ⟨FenceStep.installed hs hf.1, fun hc r' hw => ?_⟩
  have hcur := FenceStep.current hs hf.1 hc
  rcases FenceStep.work_cases hs hw with hw | hr
  · exact hf.2 hcur r' hw
  · exact h.current_unique hr.current hcur

theorem FenceStep.idle (h : f.Inv) (hs : FenceStep f f') (hf : f.Idle a r) : f'.Idle a r := by
  refine ⟨FenceStep.stopped hs hf.1, fun hc r' hw => ?_⟩
  have hcur := FenceStep.current hs hf.1.installed hc
  rcases FenceStep.work_cases hs hw with hw | hr
  · exact hf.2 hcur r' hw
  · obtain rfl := h.current_unique hr.current hcur
    exact h.stopped_not_ready hf.1 hr

end Fence

end Atlas.Core
