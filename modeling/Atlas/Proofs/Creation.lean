import Atlas.Proofs.TaskMoves

/-!
# Creating Tasks

A Create is known by its idempotency key: the first one that is accepted stores a Task under the
trimmed key, later ones find it and change nothing. A new flight Task ends those it supersedes in
the transaction that creates it.
-/

namespace Atlas.Core

open Transaction Fence

/-- Each key was used once, and each stored Task passed the checks of its Create. -/
structure Keyed (env : Env) (f : Fence) : Prop where
  unique : (f.tasks.map (·.idempotencyKey)).Nodup
  requested : ∀ t ∈ f.tasks, Requested env t

section Steps

variable {env : Env} {now : Time} {f f' : Fence}

theorem Requested.same {t t' : Task} (h : Requested env t) (hs : Same t t') : Requested env t' := by
  obtain ⟨hkey, hentity, hrequest⟩ := h
  refine ⟨?_, ?_, ?_⟩
  · rw [hs.idempotencyKey]
    exact hkey
  · rw [hs.assetID]
    exact hentity
  · rw [hs.assetID, hs.command, hs.input]
    exact hrequest

theorem Keyed.map (h : Keyed env f) {u : Task → Task} (hu : ∀ t ∈ f.tasks, Same t (u t)) :
    Keyed env { f with tasks := f.tasks.map u } := by
  refine ⟨?_, fun t ht => ?_⟩
  · rw [List.map_map, List.map_congr_left fun t ht => ?_]
    · exact h.unique
    · exact (hu t ht).idempotencyKey
  · obtain ⟨x, hx, rfl⟩ := List.mem_map.1 ht
    exact (h.requested x hx).same (hu x hx)

theorem Keyed.append (h : Keyed env f) {task : Task} (hr : Requested env task)
    (hnew : ∀ t ∈ f.tasks, t.idempotencyKey ≠ task.idempotencyKey) :
    Keyed env { f with tasks := f.tasks ++ [task] } := by
  refine ⟨?_, fun t ht => ?_⟩
  · rw [List.map_append]
    refine h.unique.append (List.nodup_singleton _) ?_
    simpa [List.disjoint_singleton] using hnew
  · rcases List.mem_append.1 ht with ht | ht
    · exact h.requested t ht
    · rw [List.mem_singleton.1 ht]
      exact hr

theorem LedgerStep.keyed (hI : f.Inv) (hs : LedgerStep env now f f') (h : Keyed env f) :
    Keyed env f' := by
  cases hs with
  | moved row t t' updatedAt version hserves ht hm ho =>
    refine h.map fun x hx => ?_
    split
    · rename_i hid
      obtain rfl := hI.task_eq hx ht (hid.trans hm.same.taskID)
      exact hm.same.stamp updatedAt version
    · exact .refl x
  | ended p u he => exact h.map fun t ht => he.same ht
  | created row u task hserves hsched hreq hc =>
    refine (h.map fun t ht => hc.ends.same ht).append hreq fun t ht => ?_
    obtain ⟨x, hx, rfl⟩ := List.mem_map.1 ht
    rw [(hc.ends.same hx).idempotencyKey]
    exact hc.new_key x hx
  | _ => exact ⟨h.unique, h.requested⟩

end Steps

/-- What a stored Task says of a Create under its key. -/
def SameRequest (env : Env) (given : CreateTaskParams) (t : Task) : Prop :=
  t.assetID = trimSpace given.assetID ∧ t.command = trimSpace given.command
    ∧ env.jsonEqual t.input given.input = true

section Retry

variable {env : Env} {s : Session} {given : CreateTaskParams} {key taskID : String} {t : Task}

theorem find_key (hk : Keyed env s.db.fence) (ht : t ∈ s.db.tasks)
    (hkey : t.idempotencyKey = trimSpace key) :
    s.db.tasks.find? (·.idempotencyKey = trimSpace key) = some t := by
  rcases hf : s.db.tasks.find? (·.idempotencyKey = trimSpace key) with _ | x
  · exact absurd (List.find?_eq_none.1 hf t ht) (by simpa using hkey)
  · have hx := List.find?_some hf
    have hx : x.idempotencyKey = trimSpace key := by simpa using hx
    rw [hf, List.inj_on_of_nodup_map hk.unique (List.mem_of_find?_eq_some hf) ht
      (hx.trans hkey.symm)]

/-- A retry of a Create answers with its Task. -/
theorem create_retry (hk : Keyed env s.db.fence) (ht : t ∈ s.db.tasks)
    (hkey : t.idempotencyKey = trimSpace key)
    (hvalid : ∀ a c i j, env.jsonEqual i j = true → env.validateTaskCreateRequest a c i = [] →
      env.validateTaskCreateRequest a c j = []) (hsame : SameRequest env given t) :
    TaskActions.create env given key taskID s = .ok ((t, false), s) := by
  obtain ⟨hasset, hcommand, hinput⟩ := hsame
  obtain ⟨⟨key', hkey', hne⟩, hentity, hrequest⟩ := hk.requested t ht
  have hne : trimSpace key ≠ "" := by rwa [← hkey, hkey']
  have hrequest := hvalid _ _ _ _ hinput hrequest
  rw [hasset, hcommand] at hrequest
  rw [hasset] at hentity
  unfold TaskActions.create
  refine bind_ok.2 ⟨(), s, require_ok.2 ⟨by simpa using hne, rfl⟩, bind_ok.2 ⟨(), s, hentity s,
    bind_ok.2 ⟨(), s, require_ok.2 ⟨by simp [hrequest], rfl⟩, bind_ok.2 ⟨s.db, s,
      getDB_ok.2 ⟨rfl, rfl⟩, ?_⟩⟩⟩⟩
  rw [find_key hk ht hkey]
  refine bind_ok.2 ⟨(), s, require_ok.2 ⟨?_, rfl⟩, pure_ok.2 ⟨rfl, rfl⟩⟩
  simp [hasset, hcommand, hinput]

/-- A Create under the key of another request is refused. -/
theorem create_conflict (hk : Keyed env s.db.fence) (hI : s.db.fence.Inv) (ht : t ∈ s.db.tasks)
    (hkey : t.idempotencyKey = trimSpace key) (hdiff : ¬ SameRequest env given t) :
    ∃ e, TaskActions.create env given key taskID s = .error e := by
  rcases hr : TaskActions.create env given key taskID s with e | ⟨⟨task, created⟩, s'⟩
  · exact ⟨e, rfl⟩
  · obtain ⟨hasset, hcommand, hkey', hcase⟩ := create_ok hI.task_unique hr
    rcases hcase with ⟨-, -, hmem, hinput⟩ | ⟨-, -, row, u, -, -, -, hc, -⟩
    · obtain rfl := List.inj_on_of_nodup_map hk.unique hmem ht (hkey'.trans hkey.symm)
      exact absurd ⟨hasset, hcommand, hinput⟩ hdiff
    · exact absurd (hkey.trans hkey'.symm) (hc.new_key t ht)

/-- What a Create of a new Task leaves. -/
theorem create_new (hI : s.db.fence.Inv) {s' : Session} {task : Task}
    (h : TaskActions.create env given key taskID s = .ok ((task, true), s')) :
    (task.command = "flight.goto" → NoTakeoff s.db.fence task)
    ∧ ∀ t ∈ s'.db.tasks, t.taskID ≠ task.taskID → t.assetID = task.assetID →
      t.runtimeID = task.runtimeID → ∀ targets, flightSupersessionTargets task.command = some targets →
      t.command ∈ targets → t.status.nonterminal = false := by
  obtain ⟨-, -, -, ⟨hfalse, -⟩ | ⟨-, -, row, u, -, -, -, hc, hf⟩⟩ := create_ok hI.task_unique h
  · exact absurd hfalse (by decide)
  · refine ⟨hc.no_takeoff, fun t ht hne ha hr targets htargets hin => ?_⟩
    have ht : t ∈ s'.db.fence.tasks := ht
    rw [hf] at ht
    rcases List.mem_append.1 ht with ht | ht
    · obtain ⟨x, hx, rfl⟩ := List.mem_map.1 ht
      have hsame := hc.ends.same hx
      by_cases hs : Supersedes task x
      · exact ((hc.ends x hx).1 hs).nonterminal.2
      · rw [(hc.ends x hx).2 hs] at ha hr hin ⊢
        by_contra hopen
        exact hs ⟨ha, hr, by simpa using hopen, targets, htargets, hin⟩
    · exact absurd (congrArg Task.taskID (List.mem_singleton.1 ht)) hne

end Retry

variable (env : Env)

theorem step_keyed {s : System} (h : SystemInv s ∧ Keyed env s.db.fence) (e : Event) :
    SystemInv (s.step env e) ∧ Keyed env (s.step env e).db.fence :=
  ⟨step_systemInv env s e h.1, (step_ledger env h.1 e).keyed h.1.fence h.2⟩

theorem reachable_keyed {s : System} (hs : Reachable env s) :
    SystemInv s ∧ Keyed env s.db.fence :=
  hs.invariant _ (I := fun s => SystemInv s ∧ Keyed env s.db.fence)
    (fun s e h => step_keyed env h e)
    ⟨initial_systemInv, List.nodup_nil, fun _ ht => absurd ht List.not_mem_nil⟩

/-- A Create that fails, or finds its Task, leaves Core as it was. -/
theorem step_create_unchanged {s : System} {given : CreateTaskParams} {key taskID : String}
    {readings : ℕ → Time}
    (h : ∀ r s', TaskActions.create env given key taskID ⟨s.db, readings⟩ = .ok (r, s') →
      s'.db = s.db) :
    s.step env (.request (.createTask given key taskID) readings) = s := by
  simp only [System.step, commit, settle]
  rcases hr : (Request.createTask given key taskID).run env ⟨s.db, readings⟩ with e | ⟨u, s'⟩
  · rfl
  · obtain ⟨a, ha⟩ := discard_ok hr
    simp only [h a s' ha]

/-- Creation of Tasks in every state Core reaches: at most one Task is stored under a key; a Create
under a known key changes nothing, and returns the key's Task if it asks for the same and else
fails; one that fails changes nothing; and a new flight Task ends those it supersedes, a go-to never
being created during a takeoff. -/
theorem task_creation {s : System} (hs : Reachable env s)
    (hvalid : ∀ a c i j, env.jsonEqual i j = true → env.validateTaskCreateRequest a c i = [] →
      env.validateTaskCreateRequest a c j = []) :
    (∀ t ∈ s.db.tasks, ∃ key, t.idempotencyKey = trimSpace key)
    ∧ (∀ t ∈ s.db.tasks, ∀ t' ∈ s.db.tasks, t.idempotencyKey = t'.idempotencyKey → t = t')
    ∧ (∀ given key taskID readings, ∀ t ∈ s.db.tasks, t.idempotencyKey = trimSpace key →
        s.step env (.request (.createTask given key taskID) readings) = s
        ∧ (SameRequest env given t →
          TaskActions.create env given key taskID ⟨s.db, readings⟩
            = .ok ((t, false), ⟨s.db, readings⟩))
        ∧ (¬ SameRequest env given t →
          ∃ e, TaskActions.create env given key taskID ⟨s.db, readings⟩ = .error e))
    ∧ (∀ given key taskID readings e,
        TaskActions.create env given key taskID ⟨s.db, readings⟩ = .error e →
        s.step env (.request (.createTask given key taskID) readings) = s)
    ∧ ∀ given key taskID readings task s',
        TaskActions.create env given key taskID ⟨s.db, readings⟩ = .ok ((task, true), s') →
        (s.step env (.request (.createTask given key taskID) readings)).db = s'.db
        ∧ (task.command = "flight.goto" → ∀ t ∈ s.db.tasks, t.assetID = task.assetID →
          t.runtimeID = task.runtimeID → t.command = "flight.takeoff" → t.status.nonterminal = false)
        ∧ ∀ t ∈ s'.db.tasks, t.taskID ≠ task.taskID → t.assetID = task.assetID →
          t.runtimeID = task.runtimeID →
          (task.command = "flight.goto" ∧ t.command = "flight.goto"
            ∨ (task.command = "flight.return_to_launch" ∨ task.command = "flight.land")
              ∧ (t.command = "flight.takeoff" ∨ t.command = "flight.goto")) →
          t.status.nonterminal = false := by
  obtain ⟨hI, hk⟩ := reachable_keyed env hs
  refine ⟨fun t ht => ?_, fun t ht t' ht' heq => List.inj_on_of_nodup_map hk.unique ht ht' heq,
    fun given key taskID readings t ht hkey => ⟨?_, fun hsame => ?_, fun hdiff => ?_⟩,
    fun given key taskID readings e he => ?_, fun given key taskID readings task s' hr => ?_⟩
  · obtain ⟨key, hkey, -⟩ := (hk.requested t ht).key
    exact ⟨key, hkey⟩
  · refine step_create_unchanged env fun ⟨task, created⟩ s' hr => ?_
    obtain ⟨-, -, hkey', ⟨-, rfl, -⟩ | ⟨-, -, row, u, -, -, -, hc, -⟩⟩ :=
      create_ok hI.fence.task_unique hr
    · rfl
    · exact absurd (hkey.trans hkey'.symm) (hc.new_key t ht)
  · exact create_retry (s := ⟨s.db, readings⟩) hk ht hkey hvalid hsame
  · exact create_conflict (s := ⟨s.db, readings⟩) hk hI.fence ht hkey hdiff
  · exact step_create_unchanged env fun r s' hr => absurd (he.symm.trans hr) (by simp)
  · obtain ⟨htakeoff, hends⟩ := create_new (s := ⟨s.db, readings⟩) hI.fence hr
    refine ⟨?_, htakeoff, fun t ht hne ha hrt hcase => ?_⟩
    · have hrun : (Request.createTask given key taskID).run env ⟨s.db, readings⟩
          = .ok ((), s') := bind_ok.2 ⟨_, _, hr, pure_ok.2 ⟨rfl, rfl⟩⟩
      simp only [System.step, commit, settle, hrun]
    · rcases hcase with ⟨hgoto, ht'⟩ | ⟨hland | hland, ht'⟩
      · exact hends t ht hne ha hrt ["flight.goto"] (by rw [hgoto]; rfl) (by simp [ht'])
      · exact hends t ht hne ha hrt ["flight.takeoff", "flight.goto"] (by rw [hland]; rfl)
          (by simpa using ht')
      · exact hends t ht hne ha hrt ["flight.takeoff", "flight.goto"] (by rw [hland]; rfl)
          (by simpa using ht')

/-- The Create of the Asset's Task, once more. -/
theorem task_creation_readyAsset :
    Reachable plainEnv readyAsset
    ∧ ∃ t ∈ readyAsset.db.tasks,
      TaskActions.create plainEnv ⟨"a", "flight.land", "{}"⟩ "key" "task-2"
        ⟨readyAsset.db, fun _ => 0⟩ = .ok ((t, false), ⟨readyAsset.db, fun _ => 0⟩) := by
  refine ⟨readyAsset_reachable, ?_⟩
  obtain ⟨t, ht, hkey, ha, hc, hi⟩ : ∃ t ∈ readyAsset.db.tasks, t.idempotencyKey = trimSpace "key"
      ∧ t.assetID = trimSpace "a" ∧ t.command = trimSpace "flight.land"
      ∧ plainEnv.jsonEqual t.input "{}" = true := by
    decide +kernel
  exact ⟨t, ht, ((task_creation plainEnv readyAsset_reachable fun _ _ _ _ _ h => h).2.2.1
    ⟨"a", "flight.land", "{}"⟩ "key" "task-2" (fun _ => 0) t ht hkey).2.1 ⟨ha, hc, hi⟩⟩

end Atlas.Core
