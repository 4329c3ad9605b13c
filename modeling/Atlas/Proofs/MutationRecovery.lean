import Atlas.Proofs.LockOwners

/-!
# The recovery of the mutation lock

A process that finds nothing alive takes the lock over, unless it finds more than one recovery
claim. A second claim only comes from a lock file renamed beside a claim, or from a claim that is
written again after another process has renamed it away. Where neither happens, there never is a
second claim, and what the processes leave behind when they die can be recovered.
-/

namespace Atlas.Cli.Mutation

open Interleaving

section Claims

variable {w w' : World} {p : ProcessId} {β : Type} {op : Op β} {b : β}

/-- There is one recovery claim at most. -/
def World.ClaimsOnce (w : World) : Prop :=
  ∀ c ∈ w.claims.keys, ∀ c' ∈ w.claims.keys, c = c'

/-- A lock file is renamed to a claim where there is no other, and a claim is written where there is
none or where it still has its name. -/
def onceClaimed : {β : Type} → ProcessId → Op β → World → Prop
  | _, _, .renameLock _, w => w.lock = none ∨ w.claims.keys = []
  | _, _, .writeClaim c _, w => ∀ c' ∈ w.claims.keys, c' = c
  | _, _, _, _ => True

theorem mem_keys_iff {m : OrderedMap Claim MutationLockOwner} {c : Claim} :
    c ∈ m.keys ↔ ∃ o, m.get c = some o := by
  simp only [OrderedMap.keys, List.mem_map, OrderedMap.get_eq_some_iff]
  constructor
  · rintro ⟨⟨c', o⟩, he, rfl⟩
    exact ⟨o, he⟩
  · rintro ⟨o, he⟩
    exact ⟨(c, o), he, rfl⟩

theorem mem_keys_set {m : OrderedMap Claim MutationLockOwner} {c c' : Claim}
    {o : MutationLockOwner} : c' ∈ (m.set c o).keys ↔ c' = c ∨ c' ∈ m.keys := by
  rw [mem_keys_iff, mem_keys_iff, OrderedMap.get_set]
  split_ifs with h
  · simp [h]
  · simp [h]

theorem mem_keys_delete {m : OrderedMap Claim MutationLockOwner} {c c' : Claim} :
    c' ∈ (m.delete c).keys ↔ c' ≠ c ∧ c' ∈ m.keys := by
  rw [mem_keys_iff, mem_keys_iff, OrderedMap.get_delete]
  split_ifs with h
  · simp [h]
  · simp [h]

/-- An operation that makes no second claim leaves one at most. -/
theorem claimsOnce_performs (h : w.ClaimsOnce) (hmeets : onceClaimed p op w)
    (hw : Performs p op w b w') : w'.ClaimsOnce := by
  cases hw with
  | ambiguous | chosen | counted => exact h
  | performs =>
    cases op with
    | renameLock c =>
      simp only [perform]
      rcases hl : w.lock with _ | o
      · exact h
      · rcases hmeets with hnone | hnil
        · rw [hnone] at hl
          cases hl
        · intro d hd d' hd'
          simp only [mem_keys_set, hnil, List.not_mem_nil, or_false] at hd hd'
          rw [hd, hd']
    | writeClaim c o =>
      intro d hd d' hd'
      simp only [perform, mem_keys_set] at hd hd'
      rw [hd.elim id (hmeets d), hd'.elim id (hmeets d')]
    | unlinkClaim c =>
      intro d hd d' hd'
      simp only [perform, mem_keys_delete] at hd hd'
      exact h d hd.2 d' hd'.2
    | renameClaim c c' =>
      simp only [perform]
      rcases hc : w.claims.get c with _ | o
      · exact h
      · have hmem : c ∈ w.claims.keys := mem_keys_iff.2 ⟨o, hc⟩
        have honly {d : Claim} (hd : d ∈ (w.claims.delete c).keys) : False := by
          rw [mem_keys_delete] at hd
          exact hd.1 (h d hd.2 c hmem)
        intro d hd d' hd'
        simp only [mem_keys_set] at hd hd'
        rw [hd.elim id fun hd => (honly hd).elim, hd'.elim id fun hd' => (honly hd').elim]
    | linkClaim c =>
      simp only [perform, World.linkClaim]
      split <;> exact h
    | createLock o =>
      simp only [perform]
      split_ifs <;> exact h
    | createNetwork l a =>
      simp only [perform]
      split_ifs <;> exact h
    | removeNetwork i =>
      simp only [perform]
      split_ifs <;> exact h
    | writeLock | unlinkLock | readLock | random | startGroup | endGroup | act | claimNames
      | lockExists | claimExists | readClaim | isMutationOwnerActive | isProcessGroupAlive
      | inspectNetwork | choose | count => exact h

/-- So does a step of the system. -/
theorem claimsOnce_step {engine : String} {s s' : System} (h : s.world.ClaimsOnce)
    (hstep : Step engine onceClaimed s s') : s'.world.ClaimsOnce := by
  cases hstep with
  | start | begin | acquired | released | crash | endGroup => exact h
  | acquire p o op next b w hp hdead hw hmeets => exact claimsOnce_performs h hmeets hw
  | hold p op next b w hp hdead hw hmeets => exact claimsOnce_performs h hmeets hw

theorem reached_claimsOnce {engine : String} {s : System} (h : Reached engine onceClaimed s) :
    s.world.ClaimsOnce := by
  induction h with
  | initial => exact fun c hc => nomatch hc
  | step _ hstep ih => exact claimsOnce_step ih hstep

/-- Where there is one claim at most, there is none or one. -/
theorem World.ClaimsOnce.keys (h : w.ClaimsOnce) :
    w.claims.keys = [] ∨ ∃ c o, w.claims.keys = [c] ∧ w.claims.get c = some o := by
  have hnodup : w.claims.keys.Nodup := w.claims.nodup
  rcases hkeys : w.claims.keys with _ | ⟨c, _ | ⟨c', l⟩⟩
  · exact .inl rfl
  · obtain ⟨o, ho⟩ := mem_keys_iff.1 (hkeys ▸ List.mem_singleton_self c)
    exact .inr ⟨c, o, rfl, ho⟩
  · have heq := h c (by simp [hkeys]) c' (by simp [hkeys])
    rw [hkeys, heq] at hnodup
    simp at hnodup

end Claims

section Alone

variable {α β : Type} {p : ProcessId} {m : Memory} {w : World}

/-- What a process does where no other does anything. -/
def alone (p : ProcessId) (x : Proc α) (m : Memory) (w : World) :
    (Except Fault α × Memory) × World :=
  (x.run.run m).run (perform p) w

@[simp]
theorem alone_pure (a : α) : alone p (pure a) m w = ((.ok a, m), w) := rfl

/-- What has gone well goes on. -/
theorem alone_bind {x : Proc α} {f : α → Proc β} {a : α} {m' : Memory} {w' : World}
    (hx : alone p x m w = ((.ok a, m'), w')) :
    alone p (x >>= f) m w = alone p (f a) m' w' := by
  change Prog.run (perform p) (x m) w = _ at hx
  refine (Prog.run_bind _ _ _).trans ?_
  rw [hx]
  rfl

theorem alone_map {x : Proc α} {f : α → β} {a : α} {m' : Memory} {w' : World}
    (hx : alone p x m w = ((.ok a, m'), w')) :
    alone p (f <$> x) m w = ((.ok (f a), m'), w') := by
  change Prog.run (perform p) (x m) w = _ at hx
  refine (Prog.run_bind _ _ _).trans ?_
  rw [hx]
  rfl

theorem alone_tryCatch {x : Proc α} {f : Fault → Proc α} {a : α} {m' : Memory} {w' : World}
    (hx : alone p x m w = ((.ok a, m'), w')) :
    alone p (tryCatch x f) m w = ((.ok a, m'), w') := by
  change Prog.run (perform p) (x m) w = _ at hx
  refine (Prog.run_bind _ _ _).trans ?_
  rw [hx]
  rfl

theorem alone_ensure {condition : Bool} (h : condition = true) (message : String) :
    alone p (ensure condition message) m w = ((.ok (), m), w) := by
  simp [ensure, h]

@[simp]
theorem alone_ask_bind (op : Op α) (f : α → Proc β) :
    alone p (ask op >>= f) m w = alone p (f (perform p op w).1) m (perform p op w).2 := rfl

@[simp]
theorem alone_get_bind (f : Memory → Proc β) :
    alone p (get >>= f) m w = alone p (f m) m w := rfl

theorem alone_readClaimOwner {c : Claim} {o : MutationLockOwner} (h : w.claims.get c = some o) :
    alone p (readClaimOwner c) m w = ((.ok o, m), w) := by
  simp [readClaimOwner, perform, h, ownerRead]

end Alone

section Recovery

variable {p : ProcessId} {engine : String} {m : Memory} {w : World} {c : Claim}
  {o : MutationLockOwner}

/-- Whoever is named in a file is gone, and can be taken over. -/
structure World.Abandoned (w : World) : Prop where
  lock {o : MutationLockOwner} : w.lock = some o →
    isRecoverableMutationOwner o = true ∧ w.isMutationOwnerActive o = false
  claims {c : Claim} {o : MutationLockOwner} : w.claims.get c = some o →
    isRecoverableMutationOwner o = true ∧ w.isMutationOwnerActive o = false

/-- The process has the only claim, with this owner, and there is no lock file. -/
structure World.Claimed (w : World) (c : Claim) (o : MutationLockOwner) : Prop where
  lock : w.lock = none
  keys : w.claims.keys = [c]
  get : w.claims.get c = some o

theorem isRecoverable_of_identified (h : o.identity.isSome = true) :
    isRecoverableMutationOwner o = true := by
  rcases hop : o.operation with _ | _ | _ | _ <;> simp [isRecoverableMutationOwner, hop, h]

theorem keys_set_of_nil {l : OrderedMap Claim MutationLockOwner} (h : l.keys = []) :
    (l.set c o).keys = [c] := by
  have hentries : l.entries = [] := by simpa [OrderedMap.keys] using h
  simp [OrderedMap.set, OrderedMap.has, OrderedMap.keys, hentries]

theorem keys_delete_of_singleton {l : OrderedMap Claim MutationLockOwner} (h : l.keys = [c]) :
    (l.delete c).keys = [] := by
  refine List.eq_nil_iff_forall_not_mem.2 fun d hd => ?_
  rw [mem_keys_delete, h] at hd
  exact hd.1 (List.mem_singleton.1 hd.2)

theorem alone_removeAbandonedLock
    (h : ∀ o, w.lock = some o → w.isMutationOwnerActive o = false) :
    ∃ w', alone p removeAbandonedLock m w = ((.ok (), m), w') ∧ w'.lock = none ∧
      w'.claims = w.claims := by
  rcases hl : w.lock with _ | o
  · exact ⟨w, by simp [removeAbandonedLock, perform, hl], hl, rfl⟩
  · refine ⟨{ w with lock := none, seen := Function.update w.seen p w.lock }, ?_, rfl, rfl⟩
    have hactive := h o hl
    have hread : alone p readLockOwner m w =
        ((.ok o, m), { w with seen := Function.update w.seen p w.lock }) := by
      simp [readLockOwner, perform, hl, ownerRead]
    have hactive' : World.isMutationOwnerActive
        { w with seen := Function.update w.seen p w.lock } o = false := hactive
    simp only [removeAbandonedLock, alone_ask_bind, perform, hl, Option.isSome_some, if_true]
    rw [alone_bind hread]
    simp only [alone_ask_bind, perform, hactive', Bool.not_false]
    rw [alone_bind (alone_ensure rfl _)]
    simp [alone_ensure, perform, hl]

/-- The renaming of a claim keeps the owner. -/
theorem alone_claimMutationRecovery_renameClaim (hkeys : w.claims.keys = [c])
    (hget : w.claims.get c = some o) :
    ∃ w', alone p (claimMutationRecovery p (.renameClaim c)) m w =
        ((.ok (some ⟨p, w.next⟩), { m with activeMutationRecoveryPath := some ⟨p, w.next⟩ }), w') ∧
      w'.claims.keys = [⟨p, w.next⟩] ∧ w'.claims.get ⟨p, w.next⟩ = some o ∧ w'.lock = w.lock ∧
      w'.dead = w.dead ∧ w'.groups = w.groups := by
  refine ⟨{ w with next := w.next + 1, claims := (w.claims.delete c).set ⟨p, w.next⟩ o }, ?_,
    keys_set_of_nil (keys_delete_of_singleton hkeys), by simp, rfl, rfl, rfl⟩
  simp only [claimMutationRecovery, alone_ask_bind, perform, hget, if_true]
  rfl

theorem isActive_congr {w' : World} (hdead : w'.dead = w.dead) (hgroups : w'.groups = w.groups)
    (o : MutationLockOwner) : w'.isMutationOwnerActive o = w.isMutationOwnerActive o := by
  simp [World.isMutationOwnerActive, World.isAlive, World.isProcessGroupAlive, hdead, hgroups]

/-- The only claim is taken over, and what is in the lock file goes. -/
theorem alone_claimAbandoned (h : w.Abandoned) (hkeys : w.claims.keys = [c])
    (hget : w.claims.get c = some o) :
    ∃ w', alone p (claimAbandoned p c) m w =
        ((.ok (some o), { m with activeMutationRecoveryPath := some ⟨p, w.next⟩ }), w') ∧
      w'.Claimed ⟨p, w.next⟩ o := by
  obtain ⟨hrec, hactive⟩ := h.claims hget
  obtain ⟨w₁, hclaim, hkeys₁, hget₁, hlock₁, hdead₁, hgroups₁⟩ :=
    alone_claimMutationRecovery_renameClaim (p := p) (m := m) hkeys hget
  have hactive₁ : w₁.isMutationOwnerActive o = false := by
    rw [isActive_congr hdead₁ hgroups₁, hactive]
  obtain ⟨w₂, hremove, hlock₂, hclaims₂⟩ := alone_removeAbandonedLock (p := p)
    (m := { m with activeMutationRecoveryPath := some ⟨p, w.next⟩ }) (w := w₁) fun a ha => by
      rw [isActive_congr hdead₁ hgroups₁, (h.lock (hlock₁ ▸ ha)).2]
  have htake : alone p (takeClaim ⟨p, w.next⟩)
      { m with activeMutationRecoveryPath := some ⟨p, w.next⟩ } w₁ =
      ((.ok o, { m with activeMutationRecoveryPath := some ⟨p, w.next⟩ }), w₂) := by
    rw [takeClaim, alone_bind (alone_readClaimOwner hget₁), alone_bind (alone_ensure hrec _)]
    simp only [alone_ask_bind, perform, hactive₁, Bool.not_false]
    rw [alone_bind (alone_ensure rfl _), alone_bind hremove, alone_pure]
  refine ⟨w₂, ?_, hlock₂, hclaims₂ ▸ hkeys₁, hclaims₂ ▸ hget₁⟩
  rw [claimAbandoned, alone_bind (alone_readClaimOwner hget), alone_bind (alone_ensure hrec _)]
  simp only [alone_ask_bind, perform, hactive, Bool.not_false]
  rw [alone_bind (alone_ensure rfl _), alone_bind hclaim]
  exact alone_map (alone_tryCatch htake)

/-- A claim becomes the lock file of the process that has it. -/
theorem alone_activateRecoveredMutationLock (h : w.Claimed c o)
    (hpath : m.activeMutationRecoveryPath = some c) :
    ∃ m' w', alone p (activateRecoveredMutationLock p o) m w = ((.ok (), m'), w') ∧
      m'.activeMutationLock = some (recoveredOwner p o) ∧
      w'.lock = some (recoveredOwner p o) ∧ w'.claims.keys = [] := by
  have hkeys : ((w.claims.set c (recoveredOwner p o)).delete c).keys = [] := by
    refine List.eq_nil_iff_forall_not_mem.2 fun d hd => ?_
    rw [mem_keys_delete, mem_keys_set, h.keys, List.mem_singleton, or_self] at hd
    exact hd.1 hd.2
  have hget : (w.claims.set c (recoveredOwner p o)).get c = some (recoveredOwner p o) := by
    simp
  have hhas : (w.claims.set c (recoveredOwner p o)).has c = true :=
    OrderedMap.has_eq_true_iff.2 ⟨_, hget⟩
  refine ⟨{ m with
      activeMutationRecoveryPath := none
      activeMutationLock := some (recoveredOwner p o)
      owner := some (recoveredOwner p o) },
    { w with
      lock := some (recoveredOwner p o)
      claims := (w.claims.set c (recoveredOwner p o)).delete c }, ?_, rfl, rfl, hkeys⟩
  have hrelease : alone p releaseMutationRecoveryLock m { w with
        lock := some (recoveredOwner p o)
        claims := w.claims.set c (recoveredOwner p o) } =
      ((.ok (), { m with activeMutationRecoveryPath := none }), { w with
        lock := some (recoveredOwner p o)
        claims := (w.claims.set c (recoveredOwner p o)).delete c }) := by
    simp only [releaseMutationRecoveryLock, alone_get_bind, hpath, alone_ask_bind, perform, hhas,
      if_true]
    rfl
  simp only [activateRecoveredMutationLock, alone_get_bind, hpath, alone_ask_bind, perform,
    World.linkClaim, hget, h.lock, if_true]
  rw [alone_bind hrelease]
  rfl

/-- A lock file that is left becomes the claim of the process. -/
theorem alone_contendLock (h : w.Abandoned) (hkeys : w.claims.keys = []) (hlock : w.lock = some o) :
    ∃ w' c', alone p (contendLock p) m w =
        ((.ok (some ⟨o, true⟩), { m with activeMutationRecoveryPath := some c' }), w') ∧
      w'.Claimed c' o := by
  obtain ⟨hrec, hactive⟩ := h.lock hlock
  have hreclaim {w' : World} (hw' : w'.isMutationOwnerActive o = false) {m' : Memory} :
      alone p (isReclaimable p o) m' w' = ((.ok true, m'), w') := by
    simp [isReclaimable, hrec, perform, hw']
  have hget : (w.claims.set ⟨p, w.next⟩ o).get ⟨p, w.next⟩ = some o := by simp
  refine ⟨{ w with
      lock := none
      claims := w.claims.set ⟨p, w.next⟩ o
      seen := Function.update w.seen p w.lock
      next := w.next + 1 }, ⟨p, w.next⟩, ?_, rfl, keys_set_of_nil hkeys, hget⟩
  have hclaim : alone p (claimMutationRecovery p .renameLock) m
      { w with seen := Function.update w.seen p w.lock } =
      ((.ok (some ⟨p, w.next⟩), { m with activeMutationRecoveryPath := some ⟨p, w.next⟩ }),
        { w with
          lock := none
          claims := w.claims.set ⟨p, w.next⟩ o
          seen := Function.update w.seen p w.lock
          next := w.next + 1 }) := by
    simp only [claimMutationRecovery, alone_ask_bind, perform, hlock, if_true]
    rfl
  simp only [contendLock, alone_ask_bind, perform, hlock, Option.isSome_some]
  rw [alone_bind (alone_ensure rfl _)]
  simp only [alone_ask_bind, perform, hlock]
  rw [hlock] at hclaim
  refine (alone_bind (hreclaim ?_)).trans ?_
  · exact hactive
  rw [if_pos rfl, takeLock, alone_bind hclaim]
  have htaken (m' : Memory) (w' : World) (hw' : w'.claims = w.claims.set ⟨p, w.next⟩ o)
      (ha : w'.isMutationOwnerActive o = false) :
      alone p (checkTaken p ⟨p, w.next⟩) m' w' = ((.ok (some ⟨o, true⟩), m'), w') := by
    rw [checkTaken, alone_bind (alone_readClaimOwner (hw' ▸ hget)), alone_bind (hreclaim ha)]
    rfl
  refine (alone_bind (alone_tryCatch (htaken _ _ ?_ ?_))).trans rfl
  · rfl
  · exact hactive

/-- The acquisition of the lock, and the activation of what it has recovered. -/
def obtainMutationLock (p : ProcessId) (o : MutationLockOwner) : Proc MutationLockOwner := do
  match ← acquireMutationLock p o with
  | none => fail "continue"
  | some a => do
    whenever a.recovered (activateRecoveredMutationLock p a.owner)
    return if a.recovered then recoveredOwner p a.owner else a.owner

/-- The process has the lock: the lock file is its own, and there is no claim. -/
def Obtains (p : ProcessId) (engine : String) (w : World) : Prop :=
  ∃ o m w', alone p (obtainMutationLock p (newOwner p engine w.next)) .empty
      { w with next := w.next + 1 } = ((.ok o, m), w') ∧
    o.pid = p ∧ w'.lock = some o ∧ w'.claims.keys = []

/-- Where there is one claim at most, a process that is alone obtains what is left. -/
theorem obtains_of_abandoned (h : w.Abandoned) (honce : w.ClaimsOnce) :
    Obtains p engine w := by
  set w₀ : World := { w with next := w.next + 1 } with hw₀
  have h₀ : w₀.Abandoned := ⟨h.lock, h.claims⟩
  have hobtain {a : MutationLockOwner} {c : Claim} {w₁ : World}
      (hacquire : alone p (acquireMutationLock p (newOwner p engine w.next)) .empty w₀ =
        ((.ok (some ⟨a, true⟩), { Memory.empty with activeMutationRecoveryPath := some c }), w₁))
      (hclaimed : w₁.Claimed c a) : Obtains p engine w := by
    obtain ⟨m, w', hactivate, -, hlock, hkeys⟩ := alone_activateRecoveredMutationLock (p := p)
      (m := { Memory.empty with activeMutationRecoveryPath := some c }) hclaimed rfl
    refine ⟨recoveredOwner p a, m, w', ?_, rfl, hlock, hkeys⟩
    rw [obtainMutationLock, alone_bind hacquire]
    exact alone_bind hactivate
  rcases honce.keys with hkeys | ⟨c, o, hkeys, hget⟩
  · have hnames : alone p (claimAbandonedMutationRecovery p) .empty w₀ =
        ((.ok none, .empty), w₀) := by
      simp [claimAbandonedMutationRecovery, perform, hw₀, hkeys]
    rcases hlock : w.lock with _ | o
    · refine ⟨newOwner p engine w.next, .empty, { w₀ with lock := some (newOwner p engine w.next) },
        ?_, rfl, rfl, hkeys⟩
      have hacquire : alone p (acquireMutationLock p (newOwner p engine w.next)) .empty w₀ =
          ((.ok (some ⟨newOwner p engine w.next, false⟩), .empty),
            { w₀ with lock := some (newOwner p engine w.next) }) := by
        rw [acquireMutationLock, alone_bind hnames]
        simp [perform, hw₀, hlock, keepCreated, hkeys]
      rw [obtainMutationLock, alone_bind hacquire]
      rfl
    · obtain ⟨w₁, c, hcontend, hclaimed⟩ :=
        alone_contendLock (p := p) (m := .empty) (w := w₀) h₀ hkeys hlock
      refine hobtain ?_ hclaimed
      rw [acquireMutationLock, alone_bind hnames]
      simpa [perform, hw₀, hlock] using hcontend
  · obtain ⟨w₁, hclaim, hclaimed⟩ :=
      alone_claimAbandoned (p := p) (m := .empty) (w := w₀) h₀ hkeys hget
    refine hobtain ?_ hclaimed
    have hnames : alone p (claimAbandonedMutationRecovery p) .empty w₀ =
        alone p (claimAbandoned p c) .empty w₀ := by
      simp [claimAbandonedMutationRecovery, perform, hw₀, hkeys]
    rw [acquireMutationLock, alone_bind (hnames.trans hclaim)]
    rfl

/-- A file names the owner. -/
def World.Names (w : World) (o : MutationLockOwner) : Prop :=
  w.lock = some o ∨ ∃ c, w.claims.get c = some o

/-- Once every process that has been started is dead, and every process group that is recorded,
whoever is named in a file can be taken over. -/
theorem abandoned_of_dead {meets : {β : Type} → ProcessId → Op β → World → Prop} {s : System}
    (h : Reached engine meets s) (hdead : ∀ q, s.stage q ≠ none → s.world.dead q = true)
    (hgroups : ∀ o, s.world.Names o → s.world.isProcessGroupAlive o.processGroupId = false)
    (hunused : s.stage p = none) : s.world.Abandoned := by
  have hother {a : MutationLockOwner} (ha : s.world.Names a) (q : ProcessId)
      (hq : s.stage q = none) : a.Other q :=
    ha.elim (reached_other h hq).world.lock fun ⟨_, hc⟩ => (reached_other h hq).world.claims hc
  have hnamed {a : MutationLockOwner} (ha : s.world.Names a) :
      isRecoverableMutationOwner a = true ∧ s.world.isMutationOwnerActive a = false := by
    have hpid : s.world.dead a.pid = true := hdead _ fun hnone => (hother ha _ hnone).pid_ne rfl
    refine ⟨isRecoverable_of_identified (hother ha p hunused).identified, ?_⟩
    simp [World.isMutationOwnerActive, World.isAlive, hpid, hgroups a ha]
  exact ⟨fun ha => hnamed (.inl ha), fun ha => hnamed (.inr ⟨_, ha⟩)⟩

end Recovery

section Runs

variable {engine : String} {p q : ProcessId} {s : System}

/-- What a process does next, where what is left open goes one way. -/
def advance (engine : String) (p : ProcessId) (s : System) : System :=
  if s.world.dead p then s else
    match s.stage p with
    | none => s.set p s.world (.idle .empty)
    | some (.idle m) =>
      s.set p { s.world with next := s.world.next + 1 } (pass p (newOwner p engine s.world.next) m)
    | some (.acquiring o (.call op next)) =>
      s.set p (perform p op s.world).2 (.acquiring o (next (perform p op s.world).1))
    | some (.acquiring o (.done result)) => s.set p s.world (acquired p o result)
    | some (.holding (.call op next)) =>
      s.set p (perform p op s.world).2 (.holding (next (perform p op s.world).1))
    | some (.holding (.done result)) => s.set p s.world (.idle result.2)

/-- A process goes on for some steps. -/
def advances (engine : String) (p : ProcessId) : ℕ → System → System
  | 0, s => s
  | n + 1, s => advances engine p n (advance engine p s)

def crashed (p : ProcessId) (s : System) : System :=
  ⟨{ s.world with dead := Function.update s.world.dead p true }, s.stage⟩

/-- The next operation of a process, if that is what comes next, meets a condition. -/
def MeetsNext (meets : {β : Type} → ProcessId → Op β → World → Prop) (p : ProcessId) (s : System) :
    Prop :=
  match s.stage p with
  | some (.acquiring _ (.call op _)) => meets p op s.world
  | some (.holding (.call op _)) => meets p op s.world
  | _ => True

theorem reached_advance {meets : {β : Type} → ProcessId → Op β → World → Prop}
    (h : Reached engine meets s) (hmeets : MeetsNext meets p s) :
    Reached engine meets (advance engine p s) := by
  unfold advance
  split_ifs with hdead
  · exact h
  · have halive : s.world.dead p = false := by simpa using hdead
    split <;> rename_i hs <;> simp only [MeetsNext, hs] at hmeets
    · exact h.step (.start s p hs)
    · exact h.step (.begin s p _ hs halive)
    · exact h.step (.acquire s p _ _ _ _ _ hs halive (.performs _ _) hmeets)
    · exact h.step (.acquired s p _ _ hs)
    · exact h.step (.hold s p _ _ _ _ hs halive (.performs _ _) hmeets)
    · exact h.step (.released s p _ hs)

theorem reached_advances (n : ℕ) (h : Reached engine (fun _ _ _ => True) s) :
    Reached engine (fun _ _ _ => True) (advances engine p n s) := by
  induction n generalizing s with
  | zero => exact h
  | succ n ih =>
    refine ih (reached_advance h ?_)
    unfold MeetsNext
    split <;> trivial

theorem reached_crashed {meets : {β : Type} → ProcessId → Op β → World → Prop} (p : ProcessId)
    (h : Reached engine meets s) : Reached engine meets (crashed p s) :=
  h.step (.crash s p)

theorem stage_crashed (p : ProcessId) (s : System) : (crashed p s).stage = s.stage := rfl

theorem stage_advance_of_ne (hq : q ≠ p) : (advance engine p s).stage q = s.stage q := by
  unfold advance
  split_ifs
  · rfl
  · split <;> simp [System.set, hq]

theorem stage_advances_of_ne (n : ℕ) (hq : q ≠ p) :
    (advances engine p n s).stage q = s.stage q := by
  induction n generalizing s with
  | zero => rfl
  | succ n ih => exact ih.trans (stage_advance_of_ne hq)

/-- In every run in which no step makes a second claim, whatever the processes have left behind when
they and the process groups they have recorded are dead, a further process that is alone obtains the
lock, and leaves its own lock file and no claim. -/
theorem mutation_lock_recoverable {s : System} (h : Reached engine onceClaimed s)
    (hdead : ∀ q, s.stage q ≠ none → s.world.dead q = true)
    (hgroups : ∀ o, s.world.Names o → s.world.isProcessGroupAlive o.processGroupId = false)
    (hp : s.stage p = none) : Obtains p engine s.world :=
  obtains_of_abandoned (abandoned_of_dead h hdead hgroups hp) (reached_claimsOnce h)

/-- A process dies with the lock. -/
def lockLeft : System := crashed 1 (advances "engine" 1 4 System.initial)

theorem lock_left_recoverable : Obtains 2 "engine" lockLeft.world := by
  have hlock : lockLeft.world.lock = some (newOwner 1 "engine" 0) := by decide +kernel
  have hclaims : lockLeft.world.claims.entries = [] := by decide +kernel
  have hreached : Reached "engine" onceClaimed lockLeft := by
    simp only [lockLeft, advances]
    refine reached_crashed 1 ?_
    refine reached_advance (reached_advance (reached_advance (reached_advance .initial ?_) ?_)
      ?_) ?_
    all_goals exact trivial
  have hunused {q : ProcessId} (hq : q ≠ 1) : lockLeft.stage q = none := by
    rw [lockLeft, stage_crashed, stage_advances_of_ne _ hq]
    rfl
  refine mutation_lock_recoverable hreached (fun q hq => ?_) (fun o ho => ?_) (hunused (by simp))
  · by_contra hdead
    refine hq (hunused ?_)
    rintro rfl
    exact hdead (by decide +kernel)
  · rcases ho with ho | ⟨c, ho⟩
    · rw [hlock] at ho
      cases ho
      rfl
    · have hmem := OrderedMap.get_eq_some_iff.1 ho
      rw [hclaims] at hmem
      cases hmem

/-- The first process dies with the lock. The second takes the lock file over and reads its claim,
the third takes the claim over from it, and the second writes what it has read. -/
def twoClaims : System :=
  crashed 3 (crashed 2 (advances "engine" 2 1 (advances "engine" 3 7 (advances "engine" 2 13
    (crashed 1 (advances "engine" 1 5 System.initial))))))

/-- Two claims that dead processes have left are refused: the third process has renamed the claim
of the second, which writes it again. -/
theorem multiple_claims_refused :
    Reached "engine" (fun _ _ _ => True) twoClaims ∧
      (∀ q, twoClaims.stage q ≠ none → twoClaims.world.dead q = true) ∧
      (∀ o, twoClaims.world.Names o →
        twoClaims.world.isProcessGroupAlive o.processGroupId = false) ∧
      twoClaims.stage 4 = none ∧ ¬Obtains 4 "engine" twoClaims.world := by
  have hunused {q : ProcessId} (h₁ : q ≠ 1) (h₂ : q ≠ 2) (h₃ : q ≠ 3) :
      twoClaims.stage q = none := by
    rw [twoClaims, stage_crashed, stage_crashed, stage_advances_of_ne _ h₂,
      stage_advances_of_ne _ h₃, stage_advances_of_ne _ h₂, stage_crashed,
      stage_advances_of_ne _ h₁]
    rfl
  refine ⟨?_, fun q hq => ?_, fun o ho => ?_, hunused (by simp) (by simp) (by simp), ?_⟩
  · have hfirst : Reached "engine" (fun _ _ _ => True)
        (crashed 1 (advances "engine" 1 5 System.initial)) :=
      reached_crashed 1 (reached_advances 5 .initial)
    exact reached_crashed 3 <| reached_crashed 2 <| reached_advances 1 <| reached_advances 7 <|
      reached_advances 13 hfirst
  · by_contra hdead
    refine hq (hunused ?_ ?_ ?_)
    all_goals
      rintro rfl
      exact hdead (by decide +kernel)
  · have hlock : twoClaims.world.lock = none := by decide +kernel
    have hgroups : ∀ e ∈ twoClaims.world.claims.entries, e.2.processGroupId = none := by
      decide +kernel
    rcases ho with ho | ⟨c, ho⟩
    · rw [hlock] at ho
      cases ho
    · rw [hgroups _ (OrderedMap.get_eq_some_iff.1 ho)]
      rfl
  · rintro ⟨o, m, w', h, -⟩
    have hfailed : (alone 4 (obtainMutationLock 4 (newOwner 4 "engine" twoClaims.world.next)) .empty
        { twoClaims.world with next := twoClaims.world.next + 1 }).1.1 =
        .error (.failed "Atlas Core found multiple deployment recovery claims") := by
      decide +kernel
    generalize alone 4 (obtainMutationLock 4 (newOwner 4 "engine" twoClaims.world.next)) .empty
      { twoClaims.world with next := twoClaims.world.next + 1 } = result at h hfailed
    subst h
    simp at hfailed

end Runs

end Atlas.Cli.Mutation
