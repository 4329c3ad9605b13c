import Atlas.Proofs.LockKnowledge
import Atlas.Proofs.MutationRecovery

/-!
# One deployment mutation at a time

Every program of a process only does what the process knows to be allowed. So of all live processes
one at most is in the action of a mutation, nobody removes the lock file or the lock network of
another that lives, and what is taken over was left by the dead. This needs that no other process
comes between the reading of the lock file and its removal, and that an owner that is recovered
names the process that recovers it.
-/

namespace Atlas.Cli.Mutation

open Interleaving

section Acquiring

variable {q : ProcessId} {o : MutationLockOwner} {N : Option MutationLockOwner → Prop}
  {α : Type} {P : Memory → Knowledge → Prop}

/-- Outside the action, with what has been read in the lock file. -/
def Waiting (N : Option MutationLockOwner → Prop) : Memory → Knowledge → Prop :=
  fun _ k => ¬k.acting ∧ N k.seen

def Outside : Memory → Knowledge → Prop := fun _ k => ¬k.acting

/-- The owner is dead, or it is the idle lock of the process. -/
def MayTake (q : ProcessId) (o : MutationLockOwner) : Memory → Knowledge → Prop := fun m k =>
  k.gone o.pid ∨ (o.pid = q ∧ m.idleRecoverableMutationLock.any (sameMutationLockOwner o) = true)

/-- What an acquisition ends with. -/
def Won (q : ProcessId) (r : Option Acquired) : Memory → Knowledge → Prop := fun m k =>
  ¬k.acting ∧ ∀ a, r = some a →
    (a.recovered = true → MayTake q a.owner m k) ∧
    (a.recovered = false → a.owner.pid = q ∧ a.owner.Identified)

namespace Obeys

theorem setRecoveryPath (path : Option Claim) :
    Obeys q Outside (fun _ => Outside) Outside (Mutation.setRecoveryPath path) :=
  modify fun _ _ h => h

theorem readLockOwner :
    Obeys q Outside (fun o m k => Waiting (· = some o) m k ∧ o.Identified) Outside
      Mutation.readLockOwner := by
  refine bind (Q := fun (b : Option MutationLockOwner) m k =>
      Waiting (· = b) m k ∧ ∀ o, b = some o → o.Identified) (ask
    (fun _ _ _ => trivial) fun m k hp b hb => ⟨⟨hp, rfl⟩, hb.1⟩) fun b => ?_
  rcases b with _ | o
  · exact throw fun _ _ h => h.1.1
  · exact pure fun _ _ h => ⟨h.1, h.2 o rfl⟩

theorem readClaimOwner (c : Claim) :
    Obeys q (Waiting N) (fun o m k => Waiting N m k ∧ o.Identified) Outside
      (Mutation.readClaimOwner c) := by
  refine bind (Q := fun (b : Option MutationLockOwner) m k =>
      Waiting N m k ∧ ∀ o, b = some o → o.Identified) (ask
    (fun _ _ _ => trivial) fun m k hp b hb => ⟨hp, hb⟩) fun b => ?_
  rcases b with _ | o
  · exact throw fun _ _ h => h.1.1
  · exact pure fun _ _ h => ⟨h.1, h.2 o rfl⟩

theorem isMutationOwnerActive (ho : o.Identified) {E : Memory → Knowledge → Prop} :
    Obeys q (Waiting N) (fun b m k => Waiting N m k ∧ (b = false → k.gone o.pid)) E
      (Mutation.ask (.isMutationOwnerActive o)) :=
  ask (fun _ _ _ => ho) fun _ _ hp _ _ => ⟨hp, fun hb => .inr ⟨rfl, hb⟩⟩

theorem isIdleRecoverableMutationOwner {E : Memory → Knowledge → Prop} :
    Obeys q (Waiting N) (fun r m k => Waiting N m k ∧ (r = true → MayTake q o m k)) E
      (Mutation.isIdleRecoverableMutationOwner q o) := by
  intro m k hp
  show Within _ _
    ((if m.activeMutationLock = none ∧ o.pid = q then _ else _ : Proc Bool).run.run m) k
  split_ifs with h
  · refine ⟨trivial, fun b _ => ⟨hp, fun hr => .inr ⟨h.2, ?_⟩⟩⟩
    rw [Bool.and_eq_true] at hr
    exact hr.2
  · exact ⟨hp, fun hr => by cases hr⟩

theorem isReclaimable (ho : o.Identified) {E : Memory → Knowledge → Prop} :
    Obeys q (Waiting N) (fun r m k => Waiting N m k ∧ (r = true → MayTake q o m k)) E
      (Mutation.isReclaimable q o) := by
  refine ite (fun _ => (isMutationOwnerActive ho).bind fun b => ?_) fun _ => ?_
  · refine ite (fun _ => ?_) fun hb => pure fun m k h =>
      ⟨h.1, fun _ => .inl (h.2 (by simpa using hb))⟩
    exact isIdleRecoverableMutationOwner.weaken (fun _ _ h => h.1) (fun _ _ _ h => h) fun _ _ h => h
  · exact pure fun _ _ h => ⟨h, fun hr => by cases hr⟩

theorem claimMutationRecovery {rename : Claim → Op Bool}
    (hpre : ∀ c m k, P m k → Allowed q k (rename c))
    (hpost : ∀ c m k, P m k → ∀ b, ¬(k.after q (rename c) b).acting)
    {E : Memory → Knowledge → Prop} :
    Obeys q P (fun _ => Outside) E (Mutation.claimMutationRecovery q rename) := by
  refine bind (quiet (fun _ => by trivial) fun _ _ => by rfl) fun n => ?_
  refine bind (Q := fun _ => Outside) (ask (hpre _) fun m k hp b _ => hpost _ m k hp b) fun b => ?_
  refine ite (fun _ => ?_) fun _ => pure fun _ _ h => h
  exact bind (Q := fun _ => Outside) (modify fun _ _ h => h) fun _ => pure fun _ _ h => h

theorem outside_waiting {x : Proc α} {Q : α → Memory → Knowledge → Prop}
    {E : Memory → Knowledge → Prop} (h : Obeys q (Waiting fun _ => True) Q E x) :
    Obeys q Outside Q E x :=
  h.weaken (fun _ _ h => ⟨h, trivial⟩) (fun _ _ _ h => h) fun _ _ h => h

theorem checkRestored (c : Claim) (linked : Option Bool) :
    Obeys q Outside (fun _ => Outside) Outside (Mutation.checkRestored c linked) := by
  rcases linked with _ | _ | _
  · exact throw fun _ _ h => h
  · refine (readClaimOwner c).outside_waiting.bind fun _ => ?_
    refine bind (readLockOwner.weaken (fun _ _ h => h.1.1) (fun _ _ _ h => h) fun _ _ h => h)
      fun _ => ?_
    exact ite (fun _ => pure fun _ _ h => h.1.1) fun _ => throw fun _ _ h => h.1.1
  · exact pure fun _ _ h => h

theorem restoreMutationRecoveryLock :
    Obeys q Outside (fun _ => Outside) Outside Mutation.restoreMutationRecoveryLock := by
  refine get.bind fun m => ?_
  refine weaken (P := Outside) ?_ (fun _ _ h => h.2) (fun _ _ _ h => h) fun _ _ h => h
  rcases m.activeMutationRecoveryPath with _ | c
  · exact pure fun _ _ h => h
  · refine bind (quiet (fun _ => by trivial) fun _ _ => by rfl) fun _ => ite (fun _ => ?_) fun _ =>
      setRecoveryPath _
    refine bind (quiet (fun _ => by trivial) fun _ _ => by rfl) fun l => ?_
    refine bind (checkRestored c l) fun _ => ?_
    refine bind (quiet (fun _ => by trivial) fun _ _ => by rfl) fun _ => ?_
    refine (ensure fun _ _ h => h).bind fun _ => ?_
    exact (setRecoveryPath _).weaken (fun _ _ h => h.2) (fun _ _ _ h => h) fun _ _ h => h

/-- The removal of what the process has still in the lock file. -/
theorem releaseMutationLock (ho : o.pid = q) :
    Obeys q Outside (fun _ => Outside) Outside (Mutation.releaseMutationLock o) := by
  refine bind (quiet (fun _ => by trivial) fun _ _ => by rfl) fun _ => ite (fun _ => ?_) fun _ =>
    pure fun _ _ h => h
  refine bind (Q := fun b _ k => ¬k.acting ∧ ((∃ o, b = some o ∧ o.pid = q) → k.mine)) (ask
    (fun _ _ _ => trivial) fun m k hp b _ => ⟨hp, id⟩) fun b => ?_
  rcases b with _ | current
  · exact throw fun _ _ h => h.1
  · refine whenever (fun hcond => ?_) fun _ _ _ h => h.1
    have hpid : current.pid = q := by
      simp only [sameMutationLockIdentity, Bool.and_eq_true, decide_eq_true_eq] at hcond
      rw [hcond.1.1.2, ho]
    refine bind (Q := fun _ => Outside) (ask (fun m k h => ⟨h.1, .inl (h.2 ⟨current, rfl, hpid⟩)⟩)
      fun m k h _ _ => h.1) fun _ => ?_
    exact ite (fun _ => pure fun _ _ h => h) fun _ => throw fun _ _ h => h

theorem removeAbandonedLock :
    Obeys q Outside (fun _ => Outside) Outside Mutation.removeAbandonedLock := by
  refine bind (quiet (fun _ => by trivial) fun _ _ => by rfl) fun _ => ite (fun _ => ?_) fun _ =>
    pure fun _ _ h => h
  refine readLockOwner.bind fun current => assuming (fun _ _ h => h.2) fun hcurrent => ?_
  refine ((isMutationOwnerActive hcurrent).weaken (fun _ _ h => h.1) (fun _ _ _ h => h)
    fun _ _ h => h).bind fun b => ?_
  refine (ensure fun _ _ h => h.1.1).bind fun _ => ?_
  refine bind (Q := fun _ => Outside) (ask (fun m k h => ?_) fun m k h _ _ => h.2.1.1) fun _ => ?_
  · exact ⟨h.2.1.1, .inr ⟨current, h.2.1.2, .inr (h.2.2 (by simpa using h.1))⟩⟩
  · exact (ensure fun _ _ h => h).weaken (fun _ _ h => h) (fun _ _ _ h => h.2) fun _ _ h => h

/-- Who is known to be dead stays so. -/
theorem gone {x : Proc α} {Q : α → Memory → Knowledge → Prop} {E : Memory → Knowledge → Prop}
    (h : Obeys q P Q E x) (r : ProcessId) :
    Obeys q (fun m k => P m k ∧ k.gone r) (fun a m k => Q a m k ∧ k.gone r)
      (fun m k => E m k ∧ k.gone r) x := by
  intro m k hp
  refine (Within.frame (F := fun k => k.gone r) ?_ (h m k hp.1) hp.2).mono ?_
  · intro β k op b hk
    cases op with
    | isMutationOwnerActive => exact .inl hk
    | _ => exact hk
  · rintro ⟨_ | a, m'⟩ k' hr <;> exact hr

theorem takeClaim (c : Claim) :
    Obeys q Outside (fun o m k => Outside m k ∧ MayTake q o m k) Outside
      (Mutation.takeClaim c) := by
  refine bind (readClaimOwner c).outside_waiting fun o => assuming (fun _ _ h => h.2) fun ho => ?_
  refine bind (ensure fun _ _ h => h.1.1) fun _ => ?_
  refine bind ((isMutationOwnerActive ho).weaken (fun _ _ h => h.2.1) (fun _ _ _ h => h)
    fun _ _ h => h) fun b => ?_
  refine bind (ensure fun _ _ h => h.1.1) fun _ => ?_
  refine bind ((removeAbandonedLock.gone o.pid).weaken
    (fun _ _ h => ⟨h.2.1.1, h.2.2 (by simpa using h.1)⟩) (fun _ _ _ h => h) fun _ _ h => h.1)
    fun _ => ?_
  exact pure fun _ _ h => ⟨h.1, .inl h.2⟩

theorem giveBackClaim (source : Claim) (e : Fault)
    {Q : MutationLockOwner → Memory → Knowledge → Prop} :
    Obeys q Outside Q Outside (Mutation.giveBackClaim source e) := by
  refine bind get fun m => ?_
  refine weaken (P := Outside) ?_ (fun _ _ h => h.2) (fun _ _ _ h => h) fun _ _ h => h
  rcases m.activeMutationRecoveryPath with _ | c
  · exact throw fun _ _ h => h
  · refine bind (quiet (fun _ => by trivial) fun _ _ => by rfl) fun _ => ite (fun _ => ?_) fun _ =>
      throw fun _ _ h => h
    refine bind (quiet (fun _ => by trivial) fun _ _ => by rfl) fun _ => ite (fun _ =>
      throw fun _ _ h => h) fun _ => ?_
    refine bind (quiet (fun _ => by trivial) fun _ _ => by rfl) fun _ => ?_
    refine bind (ensure fun _ _ h => h) fun _ => bind (Q := fun _ => Outside) ?_ fun _ =>
      throw fun _ _ h => h
    exact (setRecoveryPath _).weaken (fun _ _ h => h.2) (fun _ _ _ h => h) fun _ _ h => h

theorem claimAbandoned (source : Claim) :
    Obeys q Outside (fun r m k => Outside m k ∧ ∀ o, r = some o → MayTake q o m k) Outside
      (Mutation.claimAbandoned q source) := by
  refine bind (readClaimOwner source).outside_waiting fun o => ?_
  refine assuming (fun _ _ h => h.2) fun ho => ?_
  refine bind (ensure fun _ _ h => h.1.1) fun _ => ?_
  refine bind ((isMutationOwnerActive ho).weaken (fun _ _ h => h.2.1) (fun _ _ _ h => h)
    fun _ _ h => h) fun b => ?_
  refine bind (ensure fun _ _ h => h.1.1) fun _ => ?_
  refine bind (claimMutationRecovery (fun _ _ _ _ => by trivial)
    fun _ _ _ h _ => by exact h.2.1.1) fun r => ?_
  rcases r with _ | c
  · exact pure fun _ _ h => ⟨h, fun _ hr => nomatch hr⟩
  · exact map (tryCatch ((takeClaim c).weaken (fun _ _ h => h)
      (fun _ _ _ h => ⟨h.1, fun _ hr => by cases hr; exact h.2⟩) fun _ _ h => h)
      fun e => giveBackClaim source e)

theorem claimAbandonedMutationRecovery :
    Obeys q Outside (fun r m k => Outside m k ∧ ∀ o, r = some o → MayTake q o m k) Outside
      (Mutation.claimAbandonedMutationRecovery q) := by
  refine bind (quiet (fun _ => by trivial) fun _ _ => by rfl) fun names => ?_
  rcases names with _ | ⟨source, _ | _⟩
  · exact pure fun _ _ h => ⟨h, fun _ hr => nomatch hr⟩
  · exact claimAbandoned source
  · exact throw fun _ _ h => h

theorem checkTaken (c : Claim) : Obeys q Outside (Won q) Outside (Mutation.checkTaken q c) := by
  refine bind (readClaimOwner c).outside_waiting fun o => assuming (fun _ _ h => h.2) fun ho => ?_
  refine bind ((isReclaimable ho).weaken (fun _ _ h => h.1) (fun _ _ _ h => h) fun _ _ h => h)
    fun b => ite (fun hb => ?_) fun _ => ?_
  · exact pure fun _ _ h => ⟨h.1.1, fun a ha => by
      cases ha; exact ⟨fun _ => h.2 hb, fun h => nomatch h⟩⟩
  · exact pure fun _ _ h => ⟨h.1.1, fun a ha => nomatch ha⟩

theorem takeLock : Obeys q (fun m k => Outside m k ∧ k.Reclaimable q) (Won q) Outside
    (Mutation.takeLock q) := by
  refine bind (claimMutationRecovery (fun _ _ _ h => by exact ⟨h.1, .inr h.2⟩)
    fun _ _ _ h _ => by exact h.1)
    fun r => ?_
  rcases r with _ | c
  · exact pure fun _ _ h => ⟨h, fun a ha => nomatch ha⟩
  · refine bind (tryCatch (checkTaken c) fun e =>
      bind restoreMutationRecoveryLock fun _ => throw fun _ _ h => h) fun r => ?_
    rcases r with _ | a
    · exact bind (restoreMutationRecoveryLock.weaken (fun _ _ h => h.1) (fun _ _ _ h => h)
        fun _ _ h => h) fun _ => pure fun _ _ h => ⟨h, fun a ha => nomatch ha⟩
    · exact pure fun _ _ h => h

theorem contendLock : Obeys q Outside (Won q) Outside (Mutation.contendLock q) := by
  refine bind (quiet (fun _ => by trivial) fun _ _ => by rfl) fun _ => ?_
  refine bind (ensure fun _ _ h => h) fun _ => ?_
  refine bind (Q := fun (b : Option MutationLockOwner) m k =>
      Waiting (· = b) m k ∧ ∀ o, b = some o → o.Identified)
    (ask (fun _ _ _ => trivial) fun m k hp b hb => ⟨⟨hp.2, rfl⟩, hb.1⟩) fun b => ?_
  rcases b with _ | o
  · exact throw fun _ _ h => h.1.1
  · refine assuming (fun _ _ h => h.2 o rfl) fun ho => ?_
    refine bind ((isReclaimable ho).weaken (fun _ _ h => h.1) (fun _ _ _ h => h) fun _ _ h => h)
      fun b => ite (fun hb => ?_) fun _ => throw fun _ _ h => h.1.1
    refine takeLock.weaken (fun m k h => ⟨h.1.1, o, h.1.2, ?_⟩) (fun _ _ _ h => h) fun _ _ h => h
    exact (h.2 hb).elim .inr fun h => .inl h.1

theorem acquireMutationLock (ho : o.pid = q ∧ o.Identified) :
    Obeys q Outside (Won q) Outside (Mutation.acquireMutationLock q o) := by
  refine bind claimAbandonedMutationRecovery fun r => ?_
  rcases r with _ | claimed
  · refine bind (Q := fun _ => Outside) (ask (fun _ _ _ => ho) fun _ _ h _ _ => h.1) fun b => ?_
    refine ite (fun _ => ?_) fun _ => contendLock
    refine bind (quiet (fun _ => by trivial) fun _ _ => by rfl) fun _ => ?_
    refine ite (fun _ => ?_) fun _ => ?_
    · exact pure fun _ _ h => ⟨h, fun a ha => by
        cases ha; exact ⟨(fun h => nomatch h), fun _ => ho⟩⟩
    · exact bind (releaseMutationLock ho.1) fun _ => pure fun _ _ h => ⟨h, fun a ha => nomatch ha⟩
  · exact pure fun _ _ h => ⟨h.1, fun a ha => by
      cases ha; exact ⟨fun _ => h.2 claimed rfl, fun h => nomatch h⟩⟩

end Obeys

end Acquiring


section Holding

variable {q : ProcessId} {o : MutationLockOwner} {A own : Prop} {α : Type}

/-- The owner is this process. -/
def Own (q : ProcessId) (o : MutationLockOwner) : Prop := o.pid = q ∧ o.Identified

/-- The owners that the process keeps are its own, once it has activated what it has recovered. -/
structure Memory.Held (q : ProcessId) (own : Prop) (m : Memory) : Prop where
  docker {l : DockerMutationLock} : m.dockerLock = some l → l.owner.pid = q
  active : own → ∃ o, m.activeMutationLock = some o ∧ Own q o
  owner : own → ∃ o, m.owner = some o ∧ Own q o

/-- The process holds the lock, in the action or not. -/
def Busy (q : ProcessId) (own A : Prop) : Memory → Knowledge → Prop :=
  fun m k => m.Held q own ∧ k.acting = A ∧ (A → k.mine)

/-- It holds the lock, and the lock file is its own. -/
def Sure (q : ProcessId) (own A : Prop) : Memory → Knowledge → Prop :=
  fun m k => Busy q own A m k ∧ k.mine

theorem Busy.outside {m : Memory} {k : Knowledge} (h : Busy q own False m k) : Outside m k :=
  fun ha => by rw [h.2.1] at ha; exact ha

theorem Busy.less {m : Memory} {k : Knowledge} (h : Busy q True A m k) : Busy q own A m k :=
  ⟨⟨h.1.docker, fun _ => h.1.active trivial, fun _ => h.1.owner trivial⟩, h.2⟩

namespace Obeys

theorem activeOwner :
    Obeys q (Busy q True A) (fun o m k => Busy q True A m k ∧ Own q o) (Busy q True A)
      Mutation.activeOwner := by
  unfold Mutation.activeOwner
  refine getting fun m k hp => ?_
  obtain ⟨o, hactive, ho⟩ := hp.1.active trivial
  rw [hactive]
  exact ⟨hp, ho⟩

/-- What is in the lock file, and whether it is the process's own. -/
theorem readLock :
    Obeys q (Busy q own A) (fun o m k => Busy q own A m k ∧ o.Identified ∧ (o.pid = q → k.mine))
      (Busy q own A) Mutation.readLockOwner := by
  refine bind (Q := fun (b : Option MutationLockOwner) m k => Busy q own A m k ∧
      ∀ o, b = some o → o.Identified ∧ (o.pid = q → k.mine))
    (ask (fun _ _ _ => trivial) fun m k hp b hb => ⟨⟨hp.1, hp.2.1, fun h => hb.2 (hp.2.2 h)⟩,
      fun o ho => ⟨hb.1 o ho, fun hpid => ⟨o, ho, hpid⟩⟩⟩) fun b => ?_
  rcases b with _ | o
  · exact throw fun _ _ h => h.1
  · exact pure fun _ _ h => ⟨h.1, h.2 o rfl⟩

theorem replaceLock (ho : Own q o) :
    Obeys q (Sure q True A) (fun _ => Sure q True A) (Busy q True A) (Mutation.replaceLock o) := by
  refine bind (Q := fun _ => Sure q True A)
    (ask (fun _ _ h => ⟨h.2, ho⟩) fun _ _ h _ _ => h) fun _ => ?_
  exact modify fun m k h => ⟨⟨⟨h.1.1.docker, fun _ => ⟨o, rfl, ho⟩, h.1.1.owner⟩, h.1.2⟩, h.2⟩

/-- The lock file is replaced after it has been found to be the process's own. -/
theorem replaceChecked {active : MutationLockOwner} (hactive : Own q active)
    {check : MutationLockOwner → Bool} {message : String}
    {f : MutationLockOwner → MutationLockOwner}
    (hcheck : ∀ o, check o = true → o.pid = active.pid)
    (hf : ∀ o, o.pid = q → o.Identified → Own q (f o)) :
    Obeys q (Busy q True A) (fun _ => Sure q True A) (Busy q True A) (do
      let current ← Mutation.readLockOwner
      Mutation.ensure (check current) message
      Mutation.replaceLock (f current)) := by
  refine bind readLock fun current => bind (ensure fun _ _ h => h.1) fun _ => ?_
  refine assuming (F := current.pid = q ∧ current.Identified)
    (fun _ _ h => ⟨(hcheck current h.1).trans hactive.1, h.2.2.1⟩) fun h => ?_
  exact (replaceLock (hf current h.1 h.2)).weaken (fun _ _ hs => ⟨hs.2.1, hs.2.2.2 h.1⟩)
    (fun _ _ _ h => h) fun _ _ h => h

theorem pid_of_sameIdentity {left right : MutationLockOwner}
    (h : sameMutationLockIdentity left right = true) : left.pid = right.pid := by
  simp only [sameMutationLockIdentity, Bool.and_eq_true, decide_eq_true_eq] at h
  exact h.1.2

theorem recordMutationProcessGroup (g : ℕ) :
    Obeys q (Busy q True A) (fun _ => Sure q True A) (Busy q True A)
      (Mutation.recordMutationProcessGroup g) := by
  refine bind activeOwner fun active => assuming (fun _ _ h => h.2) fun hactive => ?_
  refine weaken (P := Busy q True A) ?_ (fun _ _ h => h.1) (fun _ _ _ h => h) fun _ _ h => h
  refine replaceChecked (f := fun o => { o with processGroupId := some g }) hactive
    (fun o h => ?_) fun o hpid ho => ⟨hpid, ho⟩
  rw [Bool.and_eq_true] at h
  exact pid_of_sameIdentity h.1

theorem clearMutationProcessGroup (g : ℕ) :
    Obeys q (Busy q True A) (fun _ => Sure q True A) (Busy q True A)
      (Mutation.clearMutationProcessGroup g) := by
  refine bind activeOwner fun active => assuming (fun _ _ h => h.2) fun hactive => ?_
  refine weaken (P := Busy q True A) ?_ (fun _ _ h => h.1) (fun _ _ _ h => h) fun _ _ h => h
  refine replaceChecked (f := fun o => { o with processGroupId := none }) hactive
    (fun o h => ?_) fun o hpid ho => ⟨hpid, ho⟩
  rw [Bool.and_eq_true] at h
  exact pid_of_sameIdentity h.1

theorem docker {op : Op α} (hpre : ∀ k : Knowledge, k.mine → Allowed q k op)
    (hafter : ∀ (k : Knowledge) (b : α), k.after q op b = k) :
    Obeys q (Busy q True A) (fun _ => Sure q True A) (Busy q True A) (Mutation.docker op) := by
  refine bind (quiet (fun _ => by trivial) fun _ _ => by rfl) fun g => ?_
  refine bind (recordMutationProcessGroup g) fun _ => ?_
  refine bind (Q := fun _ => Sure q True A) (ask (fun _ k h => hpre k h.2) fun _ k h b _ => by
    rw [hafter k b]; exact h) fun result => ?_
  refine bind (quiet (fun _ => by trivial) fun _ _ => by rfl) fun _ => ?_
  refine bind ((clearMutationProcessGroup g).weaken (fun _ _ h => h.1) (fun _ _ _ h => h)
    fun _ _ h => h) fun _ => ?_
  exact bind (mayThrow fun _ _ h => h.1) fun _ => pure fun _ _ h => h

theorem markActivePluginDisableOperation (target : Option PluginDisableTarget) :
    Obeys q (Busy q True A) (fun _ => Sure q True A) (Busy q True A)
      (Mutation.markActivePluginDisableOperation target) := by
  refine bind activeOwner fun active => assuming (fun _ _ h => h.2) fun hactive => ?_
  refine weaken (P := Busy q True A) ?_ (fun _ _ h => h.1) (fun _ _ _ h => h) fun _ _ h => h
  refine replaceChecked (f := fun _ => { active with
    dockerEngineId := none
    operation := some .pluginDisable
    pluginDisableTarget := target <|> active.pluginDisableTarget }) hactive (fun o h => ?_)
    fun _ _ _ => hactive
  rw [Bool.and_eq_true, decide_eq_true_eq, decide_eq_true_eq] at h
  exact h.2

theorem completeRecoverableMutationLockHandoff :
    Obeys q (Sure q True A) (fun _ => Sure q True A) (Busy q True A)
      Mutation.completeRecoverableMutationLockHandoff := by
  unfold Mutation.completeRecoverableMutationLockHandoff
  refine getting fun m k hp => ?_
  obtain ⟨active, hm, hactive⟩ := hp.1.1.active trivial
  rw [hm]
  refine (ite (c := isRecoverableMutationOwner active = true) (P := Sure q True A)
    (Q := fun _ => Sure q True A) (E := Busy q True A) (fun _ => ?_) fun _ => pure fun _ _ h => h)
    m k hp
  refine weaken (P := Busy q True A) ?_ (fun _ _ h => h.1) (fun _ _ _ h => h) fun _ _ h => h
  refine replaceChecked (f := fun o => { o with operation := none, pluginDisableTarget := none })
    hactive (fun o h => ?_) fun o hpid ho => ⟨hpid, ho⟩
  rw [Bool.and_eq_true] at h
  simp only [sameMutationLockOwner, Bool.and_eq_true] at h
  exact pid_of_sameIdentity h.1.1.1.1.1

theorem removeAmbiguousDockerMutationLock (attempt : ℕ) :
    Obeys q (Busy q True A) (fun _ => Busy q True A) (Busy q True A)
      (Mutation.removeAmbiguousDockerMutationLock attempt) := by
  refine bind (docker (fun _ _ => by trivial) fun _ _ => by rfl) fun n => ?_
  rcases n with _ | n
  · exact pure fun _ _ h => h.1
  · refine ite (fun _ => bind ((docker (fun _ h => by exact h) fun _ _ => by rfl).weaken
      (fun _ _ h => h.1) (fun _ _ _ h => h) fun _ _ h => h) fun _ => ?_) fun _ => ?_
    · exact pure fun _ _ h => h.1
    · exact pure fun _ _ h => h.1

theorem removeRecoveredDockerMutationLock (lockId : ℕ) :
    Obeys q (Busy q True A) (fun _ => Busy q True A) (Busy q True A)
      (Mutation.removeRecoveredDockerMutationLock lockId) := by
  refine bind (docker (fun _ _ => by trivial) fun _ _ => by rfl) fun n => ?_
  rcases n with _ | n
  · exact pure fun _ _ h => h.1
  · refine bind (ensure fun _ _ h => h.1) fun _ => ?_
    exact bind ((docker (fun _ h => by exact h) fun _ _ => by rfl).weaken
      (fun _ _ h => h.2.1) (fun _ _ _ h => h) fun _ _ h => h) fun _ => pure fun _ _ h => h.1

theorem networkCreated (attempt : ℕ) (networkId : Option ℕ) :
    Obeys q (Sure q True A) (fun _ => Sure q True A) (Busy q True A)
      (Mutation.networkCreated attempt networkId) := by
  have hremove : Obeys q (Sure q True A) (fun _ => Busy q True A) (Busy q True A)
      (Mutation.removeAmbiguousDockerMutationLock attempt) :=
    (removeAmbiguousDockerMutationLock attempt).weaken (fun _ _ h => h.1) (fun _ _ _ h => h)
      fun _ _ h => h
  rcases networkId with _ | n
  · exact bind hremove fun _ => throw fun _ _ h => h
  · refine bind (quiet (fun _ => by trivial) fun _ _ => by rfl) fun _ => ite (fun _ => ?_) fun _ =>
      pure fun _ _ h => h
    exact bind hremove fun _ => throw fun _ _ h => h

theorem acquireDockerMutationLock (a : Acquired) :
    Obeys q (Busy q True A)
      (fun (l : DockerMutationLock) m k => Sure q True A m k ∧ Own q l.owner) (Busy q True A)
      (Mutation.acquireDockerMutationLock q a) := by
  intro m k hp
  obtain ⟨o, howner, ho⟩ := hp.1.owner trivial
  have hheld : m.owner.getD a.owner = o := by rw [howner]; rfl
  suffices h : Obeys q (Busy q True A)
      (fun (l : DockerMutationLock) m k => Sure q True A m k ∧ Own q l.owner)
      (Busy q True A) (do
        Mutation.whenever a.recovered (Mutation.removeRecoveredDockerMutationLock o.id)
        let owner : MutationLockOwner := { o with processGroupId := none, pid := q }
        let attempt ← Mutation.ask .random
        let networkId ← Mutation.networkCreated attempt
          (← Mutation.docker (.createNetwork owner.id attempt))
        return DockerMutationLock.mk networkId attempt owner) by
    have hrun := h m k hp
    rw [← hheld] at hrun
    exact hrun
  refine bind (whenever (fun _ => removeRecoveredDockerMutationLock _) fun _ _ _ h => h) fun _ => ?_
  refine bind (quiet (fun _ => by trivial) fun _ _ => by rfl) fun attempt => ?_
  refine bind (docker (fun _ h => by exact h) fun _ _ => by rfl) fun created => ?_
  refine bind (networkCreated attempt created) fun n => pure fun _ _ h => ⟨h, rfl, ?_⟩
  rw [MutationLockOwner.Identified, ho.2, ho.1]

theorem releaseDockerMutationLock (lock : DockerMutationLock) :
    Obeys q (Busy q True A) (fun _ => Busy q True A) (Busy q True A)
      (Mutation.releaseDockerMutationLock lock) := by
  refine bind (docker (fun _ _ => by trivial) fun _ _ => by rfl) fun n => ?_
  rcases n with _ | n
  · exact pure fun _ _ h => h.1
  · refine ite (fun _ => bind ((docker (fun _ h => by exact h) fun _ _ => by rfl).weaken
      (fun _ _ h => h.1) (fun _ _ _ h => h) fun _ _ h => h) fun _ => ?_) fun _ => ?_
    · exact pure fun _ _ h => h.1
    · exact throw fun _ _ h => h.1

theorem dockerWork (n : ℕ) :
    Obeys q (Sure q True A) (fun _ => Sure q True A) (Busy q True A) (Mutation.dockerWork n) := by
  induction n with
  | zero => exact pure fun _ _ h => h
  | succ n ih =>
    exact bind ((docker (fun _ _ => by trivial) fun _ _ => by rfl).weaken (fun _ _ h => h.1)
      (fun _ _ _ h => h) fun _ _ h => h) fun _ => ih

/-- The process is in the action or not, and keeps only owners of its own. -/
def Somewhere (q : ProcessId) : Memory → Knowledge → Prop :=
  fun m k => m.Held q True ∧ (k.acting → k.mine)

theorem runAction :
    Obeys q (Sure q True False) (fun _ => Somewhere q) (Somewhere q) Mutation.runAction := by
  have hbefore {m : Memory} {k : Knowledge} (h : Busy q True False m k) : Somewhere q m k :=
    ⟨h.1, fun ha => (h.outside ha).elim⟩
  have hwithin {m : Memory} {k : Knowledge} (h : Busy q True True m k) : Somewhere q m k :=
    ⟨h.1, fun _ => h.2.2 trivial⟩
  refine bind (quiet (fun _ => by trivial) fun _ _ => by rfl) fun _ => ?_
  refine bind (Q := fun _ => Sure q True False) (whenever (fun _ =>
    completeRecoverableMutationLockHandoff.weaken (fun _ _ h => h) (fun _ _ _ h => h)
      fun _ _ h => hbefore h) fun _ _ _ h => h) fun _ => ?_
  refine bind (quiet (fun _ => by trivial) fun _ _ => by rfl) fun n => ?_
  refine bind ((dockerWork n).weaken (fun _ _ h => h) (fun _ _ _ h => h) fun _ _ h => hbefore h)
    fun _ => ?_
  refine bind (Q := fun _ => Sure q True True) (ask (fun _ _ h _ => h.2) fun m k h _ _ =>
    ⟨⟨h.1.1, eq_true (by rfl), fun _ => h.2⟩, h.2⟩) fun _ => ?_
  refine bind (quiet (fun _ => by trivial) fun _ _ => by rfl) fun n => ?_
  refine bind ((dockerWork n).weaken (fun _ _ h => h) (fun _ _ _ h => h) fun _ _ h => hwithin h)
    fun _ => ?_
  exact (mayThrow fun _ _ h => h).weaken (fun _ _ h => hwithin h.1) (fun _ _ _ h => h)
    fun _ _ h => h

theorem attempt {P Q E : Memory → Knowledge → Prop} {x : Proc Unit}
    (hx : Obeys q P (fun _ => Q) Q x) : Obeys q P (fun _ => Q) E (Mutation.attempt x) :=
  tryCatch (bind hx fun _ => pure fun _ _ h => h) fun _ => pure fun _ _ h => h

theorem rethrow {P : Memory → Knowledge → Prop} (e : Option Fault) :
    Obeys q P (fun _ => P) P (Mutation.rethrow e) := by
  rcases e with _ | e
  · exact pure fun _ _ h => h
  · exact throw fun _ _ h => h

theorem runDockerMutation (a : Acquired) :
    Obeys q (Busy q True False) (fun _ => Busy q True False) (Busy q True False)
      (Mutation.runDockerMutation q a) := by
  refine bind (tryCatch (acquireDockerMutationLock a) fun e => ?_) fun lock => ?_
  · refine bind (Q := fun _ => Busy q True False) (modify fun m k h => ?_) fun _ =>
      throw fun _ _ h => h
    exact ⟨⟨h.1.docker, h.1.active, h.1.owner⟩, h.2⟩
  · refine bind (Q := fun _ => Sure q True False) (modify fun m k h => ?_) fun _ => ?_
    · exact ⟨⟨⟨fun hl => by cases hl; exact h.2.1, fun _ => ⟨_, rfl, h.2⟩, h.1.1.1.owner⟩,
        h.1.1.2⟩, h.1.2⟩
    · refine bind (attempt runAction) fun error => ?_
      refine bind (Q := fun _ => Busy q True False) (ask (fun _ _ _ h => nomatch h) fun m k h _ _ =>
        ⟨h.1, eq_false (by intro hf; cases hf), False.elim⟩) fun _ => ?_
      refine bind (releaseDockerMutationLock lock) fun _ => ?_
      refine bind (Q := fun _ => Busy q True False) (modify fun m k h => ?_) fun _ => rethrow error
      exact ⟨⟨h.1.docker, h.1.active, h.1.owner⟩, h.2⟩

theorem markOperation :
    Obeys q (Busy q True False) (fun _ => Busy q True False) (Busy q True False)
      Mutation.markOperation := by
  refine bind (quiet (fun _ => by trivial) fun _ _ => by rfl) fun _ => ite (fun _ => ?_) fun _ =>
    pure fun _ _ h => h
  refine bind (quiet (fun _ => by trivial) fun _ _ => by rfl) fun _ => ?_
  refine bind (markActivePluginDisableOperation _) fun _ => modify fun m k h => ?_
  exact ⟨⟨h.1.1.docker, h.1.1.active, h.1.1.active⟩, h.1.2⟩

theorem activateRecoveredMutationLock (o : MutationLockOwner) :
    Obeys q (Busy q own False) (fun _ => Busy q True False) (Busy q own False)
      (Mutation.activateRecoveredMutationLock q o) := by
  refine bind get fun m => ?_
  refine weaken (P := Busy q own False) ?_ (fun _ _ h => h.2) (fun _ _ _ h => h) fun _ _ h => h
  rcases m.activeMutationRecoveryPath with _ | c
  · exact throw fun _ _ h => h
  · refine bind (Q := fun _ m k => Busy q own False m k ∧ (recoveredOwner q o).Identified)
      (ask (fun _ _ _ => rfl) fun m k h _ hl => ⟨h, hl⟩) fun _ => ?_
    refine bind (quiet (fun _ => by trivial) fun _ _ => by rfl) fun l => ite (fun _ => ?_) fun _ =>
      throw fun _ _ h => h.1
    refine assuming (fun _ _ h => h.2) fun ho => ?_
    refine weaken (P := Busy q own False) ?_ (fun _ _ h => h.1) (fun _ _ _ h => h) fun _ _ h => h
    refine bind (Q := fun _ => Busy q own False) ?_ fun _ => modify fun m k h => ?_
    · refine bind get fun m => ?_
      refine weaken (P := Busy q own False) ?_ (fun _ _ h => h.2) (fun _ _ _ h => h) fun _ _ h => h
      rcases m.activeMutationRecoveryPath with _ | c'
      · exact pure fun _ _ h => h
      · refine bind (quiet (fun _ => by trivial) fun _ _ => by rfl) fun _ => ite (fun _ => ?_)
          fun _ => pure fun _ _ h => h
        refine bind (quiet (fun _ => by trivial) fun _ _ => by rfl) fun _ => modify fun m k h => ?_
        exact ⟨⟨h.1.docker, h.1.active, h.1.owner⟩, h.2⟩
    · exact ⟨⟨h.1.docker, fun _ => ⟨_, rfl, rfl, ho⟩, fun _ => ⟨_, rfl, rfl, ho⟩⟩, h.2⟩

theorem work (a : Acquired) :
    Obeys q (Busy q (a.recovered = false) False) (fun _ => Busy q (a.recovered = false) False)
      (Busy q (a.recovered = false) False) (Mutation.work q a) := by
  refine bind (mayThrow fun _ _ h => h) fun _ => ?_
  refine bind (Q := fun _ => Busy q True False) (whenever (fun _ =>
    activateRecoveredMutationLock _) fun hr m k h => ?_) fun _ => ?_
  · exact ⟨⟨h.1.docker, fun _ => h.1.active hr, fun _ => h.1.owner hr⟩, h.2⟩
  · refine weaken (E := Busy q True False) ?_ (fun _ _ h => h) (fun _ _ _ h => Busy.less h)
      fun _ _ h => Busy.less h
    exact bind (mayThrow fun _ _ h => h) fun _ => bind markOperation fun _ => runDockerMutation a

theorem canonicalRecoverableMutationOwner (expected : MutationLockOwner) :
    Obeys q Outside (fun _ => Outside) Outside
      (Mutation.canonicalRecoverableMutationOwner expected) := by
  refine bind get fun m => ?_
  refine weaken (P := Outside) ?_ (fun _ _ h => h.2) (fun _ _ _ h => h) fun _ _ h => h
  rcases m.activeMutationRecoveryPath with _ | c
  all_goals
    refine bind (Q := fun _ => Outside) (ask (fun _ _ _ => trivial) fun _ _ h _ _ => h)
      fun current => ?_
    rcases current with _ | o
    · exact throw fun _ _ h => h
    · exact ite (fun _ => pure fun _ _ h => h) fun _ => throw fun _ _ h => h

theorem canonicalOwner (o : MutationLockOwner) :
    Obeys q Outside (fun _ => Outside) Outside (Mutation.canonicalOwner o) := by
  refine bind (quiet (fun _ => by trivial) fun _ _ => by rfl) fun _ => ite (fun _ => ?_) fun _ =>
    pure fun _ _ h => h
  have hread : Obeys q Outside (fun _ => Outside) Outside Mutation.readLockOwner :=
    readLockOwner.weaken (fun _ _ h => h) (fun _ _ _ h => h.1.1) fun _ _ h => h
  refine bind hread fun canonical => ite (fun _ => ?_) fun _ => pure fun _ _ h => h
  exact bind (Q := fun _ => Outside) (modify fun _ _ h => h) fun _ => pure fun _ _ h => h

theorem settleLock (a : Acquired) :
    Obeys q (Busy q (a.recovered = false) False) (fun _ => Outside) Outside
      (Mutation.settleLock a) := by
  refine bind get fun m => ?_
  refine assuming (F := m.Held q (a.recovered = false)) (fun m' _ h => h.1 ▸ h.2.1) fun hm => ?_
  refine weaken (P := Outside) ?_ (fun _ _ h => h.2.outside) (fun _ _ _ h => h) fun _ _ h => h
  refine bind (canonicalOwner _) fun localOwner => ite (fun _ => ite (fun _ => ?_) fun _ => ?_)
    fun hkeep => ?_
  · exact map (canonicalRecoverableMutationOwner _)
  · exact pure fun _ _ h => h
  · refine bind (releaseMutationLock ?_) fun _ => pure fun _ _ h => h
    rcases hdocker : m.dockerLock with _ | l
    · have hr : a.recovered = false := by
        rw [hdocker] at hkeep
        simp only [Bool.or_eq_true, not_or, Bool.not_eq_true] at hkeep
        exact hkeep.1
      obtain ⟨o, howner, ho⟩ := hm.owner hr
      simp [howner, ho.1]
    · simpa [hdocker] using hm.docker hdocker

theorem withMutationLock {a : Acquired} (ha : a.recovered = false → Own q a.owner) :
    Obeys q Outside (fun _ => Outside) Outside (Mutation.withMutationLock q a) := by
  refine bind (Q := fun _ => Busy q (a.recovered = false) False) (modify fun m k h => ?_)
    fun _ => ?_
  · exact ⟨⟨(fun hl => nomatch hl), fun hr => ⟨_, rfl, ha hr⟩, fun hr => ⟨_, rfl, ha hr⟩⟩,
      eq_false h, False.elim⟩
  · refine bind (attempt (work a)) fun error => ?_
    refine bind (tryCatch (settleLock a) fun _ => pure fun _ _ h => h) fun idle => ?_
    refine bind (attempt restoreMutationRecoveryLock) fun restoreError => ?_
    refine bind (Q := fun _ => Outside) (modify fun _ _ h => h) fun _ => ?_
    exact bind (rethrow _) fun _ => rethrow _

end Obeys

end Holding


section Runs

variable {engine : String} {s s' : System} {p q : ProcessId} {k : Knowledge}

/-- What a process has still to do is allowed by what it knows. -/
def Stage.Obeys (p : ProcessId) (k : Knowledge) : Stage → Prop
  | .idle _ => ¬k.acting
  | .acquiring o rest => Own p o ∧ Within (knowing p) (Ends (Won p) Outside) rest k
  | .holding rest => Within (knowing p) (Ends (fun _ => Outside) Outside) rest k

/-- Every owner in a file names its process, every live process does what it knows to be allowed,
and only what has been started is in the action. -/
structure System.Excludes (s : System) : Prop where
  identified : s.world.Identified
  knows {p : ProcessId} {t : Stage} : s.stage p = some t → s.world.dead p = false →
    ∃ k, Agrees p k s.world ∧ t.Obeys p k
  unstarted {p : ProcessId} : s.stage p = none → s.world.acting p = false

theorem initial_excludes : System.initial.Excludes :=
  ⟨⟨(fun h => nomatch h), fun h => nomatch h⟩, (fun h => nomatch h), fun _ => rfl⟩

/-- A world that differs in nothing that the process knows of. -/
theorem Agrees.congr {w w' : World} (h : Agrees p k w) (hseen : w'.seen = w.seen)
    (hlock : w'.lock = w.lock) (hacting : w'.acting = w.acting)
    (hdead : ∀ r, w.dead r = true → w'.dead r = true) : Agrees p k w' :=
  ⟨by rw [hseen, h.seen], fun hg => hdead _ (h.gone hg), fun hm => hlock ▸ h.mine hm,
    fun ha => h.acting (hacting ▸ ha), h.acting_mine⟩

/-- A process goes on in a world that the others know the same of. -/
theorem System.Excludes.set (h : s.Excludes) {w : World} {t : Stage} (hid : w.Identified)
    (hk : w.dead p = false → ∃ k, Agrees p k w ∧ t.Obeys p k)
    (hothers : ∀ r k, r ≠ p → s.world.dead r = false → Agrees r k s.world → Agrees r k w)
    (hdead : w.dead = s.world.dead) (hacting : ∀ r, r ≠ p → w.acting r = s.world.acting r) :
    (s.set p w t).Excludes := by
  refine ⟨hid, fun {r t'} hr hd => ?_, fun {r} hr => ?_⟩
  · simp only [System.set, Function.update_apply] at hr
    split_ifs at hr with hrp
    · cases hr
      cases hrp
      exact hk hd
    · have hd' : s.world.dead r = false := hdead ▸ hd
      obtain ⟨k, hagrees, hobeys⟩ := h.knows hr hd'
      exact ⟨k, hothers r k hrp hd' hagrees, hobeys⟩
  · simp only [System.set, Function.update_apply] at hr
    split_ifs at hr with hrp
    exact (hacting r hrp).trans (h.unstarted hr)

theorem pass_obeys {o : MutationLockOwner} {m : Memory} (ho : Own p o) (hk : ¬k.acting) :
    (pass p o m).Obeys p k := ⟨ho, Obeys.acquireMutationLock ho m k hk⟩

theorem acquired_obeys {o : MutationLockOwner} (ho : Own p o)
    {r : Except Fault (Option Acquired) × Memory}
    (h : Ends (Won p) Outside r k) : (acquired p o r).Obeys p k := by
  obtain ⟨_ | _ | a, m⟩ := r
  · exact h
  · exact pass_obeys ho h.1
  · exact Obeys.withMutationLock (h.2 a rfl).2 m k h.1

/-- A step by a live process whose next operation meets the condition. -/
theorem excludes_step (h : s.Excludes) (hstep : Step engine exclusive s s') : s'.Excludes := by
  cases hstep with
  | start p hp =>
    refine h.set h.identified (fun _ => ⟨⟨s.world.seen p, fun _ => False, False, False⟩,
      ⟨rfl, False.elim, False.elim, fun ha => ?_, id⟩, id⟩) (fun _ _ _ _ hk => hk) rfl
      fun _ _ => rfl
    rw [h.unstarted hp] at ha
    cases ha
  | begin p m hp hdead =>
    obtain ⟨k, hk, hidle⟩ := h.knows hp hdead
    have ho : Own p (newOwner p engine s.world.next) := ⟨rfl, rfl⟩
    exact h.set ⟨h.identified.lock, h.identified.claims⟩
      (fun _ => ⟨k, hk.congr rfl rfl rfl fun _ h => h, pass_obeys ho hidle⟩)
      (fun _ _ _ _ hk => hk.congr rfl rfl rfl fun _ h => h) rfl fun _ _ => rfl
  | acquire p o op next b w hp hdead hw hmeets =>
    obtain ⟨k, hk, ho, hrest⟩ := h.knows hp hdead
    obtain ⟨hlearnt, hk', hid, hleaves⟩ := performs_allowed hk h.identified hrest.1 hmeets hw
    exact h.set hid (fun _ => ⟨_, hk', ho, hrest.2 b hlearnt⟩)
      (fun r k hr hd hk => hk.leaves hleaves hr hd) hleaves.dead fun r hr => (hleaves.others hr).2
  | hold p op next b w hp hdead hw hmeets =>
    obtain ⟨k, hk, hrest⟩ := h.knows hp hdead
    obtain ⟨hlearnt, hk', hid, hleaves⟩ := performs_allowed hk h.identified hrest.1 hmeets hw
    exact h.set hid (fun _ => ⟨_, hk', hrest.2 b hlearnt⟩)
      (fun r k hr hd hk => hk.leaves hleaves hr hd) hleaves.dead fun r hr => (hleaves.others hr).2
  | acquired p o result hp =>
    refine h.set h.identified (fun hdead => ?_) (fun _ _ _ _ hk => hk) rfl fun _ _ => rfl
    obtain ⟨k, hk, ho, hrest⟩ := h.knows hp hdead
    exact ⟨k, hk, acquired_obeys ho hrest⟩
  | released p result hp =>
    refine h.set h.identified (fun hdead => ?_) (fun _ _ _ _ hk => hk) rfl fun _ _ => rfl
    obtain ⟨k, hk, hrest⟩ := h.knows hp hdead
    refine ⟨k, hk, ?_⟩
    obtain ⟨_ | _, m⟩ := result <;> exact hrest
  | crash p =>
    refine ⟨⟨h.identified.lock, h.identified.claims⟩, fun {r t} hr hd => ?_, h.unstarted⟩
    simp only [Function.update_apply] at hd
    split_ifs at hd with hrp
    obtain ⟨k, hk, hobeys⟩ := h.knows hr hd
    refine ⟨k, hk.congr rfl rfl rfl fun x hx => ?_, hobeys⟩
    simp only [Function.update_apply]
    split_ifs
    · rfl
    · exact hx
  | endGroup g =>
    refine ⟨⟨h.identified.lock, h.identified.claims⟩, fun {r t} hr hd => ?_, h.unstarted⟩
    obtain ⟨k, hk, hobeys⟩ := h.knows hr hd
    exact ⟨k, hk.congr rfl rfl rfl fun _ hx => hx, hobeys⟩

theorem reached_excludes (h : Reached engine exclusive s) : s.Excludes := by
  induction h with
  | initial => exact initial_excludes
  | step _ hstep ih => exact excludes_step ih hstep

/-- The operation that a process performs next. -/
def System.Next {β : Type} (s : System) (p : ProcessId) (op : Op β) : Prop :=
  (∃ o next, s.stage p = some (.acquiring o (.call op next))) ∨
    ∃ next, s.stage p = some (.holding (.call op next))

/-- One live process at most is in the action. -/
def System.ActsAlone (s : System) : Prop :=
  ∀ p q, s.world.acting p = true → s.world.dead p = false → s.world.acting q = true →
    s.world.dead q = false → p = q

/-- A lock file that names a live process stays through what another process does next, and the lock
network with it. -/
def System.KeepsLock (s : System) (meets : {β : Type} → ProcessId → Op β → World → Prop) : Prop :=
  ∀ (p : ProcessId) {β : Type} (op : Op β) (b : β) (w : World), s.Next p op →
    s.world.dead p = false → Performs p op s.world b w → meets p op s.world →
    ∀ o, s.world.lock = some o → o.pid ≠ p → s.world.dead o.pid = false →
      w.lock = some o ∧ w.network = s.world.network

/-- What an acquisition has taken over was the lock of a dead process, or its own idle lock. -/
def System.TakesOver (s : System) : Prop :=
  ∀ p o a m, s.stage p = some (.acquiring o (.done (.ok (some a), m))) →
    s.world.dead p = false → a.recovered = true → s.world.dead a.owner.pid = true ∨
      (a.owner.pid = p ∧
        m.idleRecoverableMutationLock.any (sameMutationLockOwner a.owner) = true)

theorem System.Excludes.actsAlone (h : s.Excludes) : s.ActsAlone := by
  have howner {p : ProcessId} (hp : s.world.acting p = true) (hd : s.world.dead p = false) :
      ∃ o, s.world.lock = some o ∧ o.pid = p := by
    rcases hstage : s.stage p with _ | t
    · rw [h.unstarted hstage] at hp
      cases hp
    · obtain ⟨k, hk, -⟩ := h.knows hstage hd
      exact hk.mine (hk.acting_mine (hk.acting hp))
  intro p q hp hpd hq hqd
  obtain ⟨o, ho, rfl⟩ := howner hp hpd
  obtain ⟨o', ho', rfl⟩ := howner hq hqd
  rw [ho] at ho'
  cases ho'
  rfl

theorem System.Excludes.keepsLock (h : s.Excludes) : s.KeepsLock exclusive := by
  intro p β op b w hnext hd hw hmeets o hl hne hod
  obtain ⟨k, hk, hpre⟩ : ∃ k, Agrees p k s.world ∧ Allowed p k op := by
    rcases hnext with ⟨o', next, hp⟩ | ⟨next, hp⟩
    · obtain ⟨k, hk, -, hrest⟩ := h.knows hp hd
      exact ⟨k, hk, hrest.1⟩
    · obtain ⟨k, hk, hrest⟩ := h.knows hp hd
      exact ⟨k, hk, hrest.1⟩
  obtain ⟨-, -, -, hleaves⟩ := performs_allowed hk h.identified hpre hmeets hw
  exact hleaves.lock hl hne hod

theorem System.Excludes.takesOver (h : s.Excludes) : s.TakesOver := by
  intro p o a m hp hd hr
  obtain ⟨k, hk, -, hwon⟩ := h.knows hp hd
  exact ((hwon.2 a rfl).1 hr).imp_left hk.gone

/-- The first process dies with the lock. The second has read the lock file and found it dead, when
the third takes the lock over and activates it. -/
def staleRead : System :=
  advances "engine" 3 15 (advances "engine" 2 8 (crashed 1 (advances "engine" 1 4 System.initial)))

/-- The process renames the lock file next. -/
def renamesLock (s : System) (p : ProcessId) : Bool :=
  match s.stage p with
  | some (.acquiring _ (.call (.renameLock _) _)) => true
  | _ => false

end Runs

end Atlas.Cli.Mutation
