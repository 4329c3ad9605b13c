import Atlas.Cli.MutationLock

/-!
# The owners in lock files

Every owner that a process writes is its own or one that it has read, changed in ways that keep the
identity and put no other process than itself in. So where a process has never been started, no
file names it, and every owner in a file says which process identifies it.
-/

namespace Atlas.Cli.Mutation

open Interleaving

section Owners

variable (p : ProcessId)

/-- An owner with an identity, written by other processes than this one. -/
structure MutationLockOwner.Other (o : MutationLockOwner) : Prop where
  identified : o.identity.isSome = true
  pid_ne : o.pid ≠ p

/-- No file names the process. -/
structure World.Other (w : World) : Prop where
  lock {o : MutationLockOwner} : w.lock = some o → o.Other p
  claims {c : Claim} {o : MutationLockOwner} : w.claims.get c = some o → o.Other p

/-- No owner that a process keeps names the process. -/
structure Memory.Other (m : Memory) : Prop where
  active {o : MutationLockOwner} : m.activeMutationLock = some o → o.Other p
  owner {o : MutationLockOwner} : m.owner = some o → o.Other p
  docker {l : DockerMutationLock} : m.dockerLock = some l → l.owner.Other p

/-- Owners with an identity go in and out of the files. -/
def owners : Contract Op Unit where
  pre
    | _, .createLock o => o.Other p
    | _, .writeLock o => o.Other p
    | _, .writeClaim _ o => o.Other p
    | _, _ => True
  post
    | _, .readLock, b => ∀ o, b = some o → o.Other p
    | _, .readClaim _, b => ∀ o, b = some o → o.Other p
    | _, _, _ => True
  after _ _ _ := ()

end Owners

section Operations

variable {p q : ProcessId} {w w' : World} {β : Type} {op : Op β} {b : β}

/-- An operation that the contract allows names no other process in the files. -/
theorem World.Other.performs (h : w.Other p) (hpre : (owners p).pre () op)
    (hw : Performs q op w b w') : w'.Other p ∧ (owners p).post () op b := by
  cases hw with
  | ambiguous o => exact ⟨h, trivial⟩
  | chosen b => exact ⟨h, trivial⟩
  | counted n => exact ⟨h, trivial⟩
  | performs =>
    cases op with
    | createLock o =>
      refine ⟨?_, trivial⟩
      simp only [perform]
      split_ifs
      · exact ⟨fun ho => by cases ho; exact hpre, h.claims⟩
      · exact h
    | writeLock o => exact ⟨⟨fun ho => by cases ho; exact hpre, h.claims⟩, trivial⟩
    | unlinkLock => exact ⟨⟨(fun ho => nomatch ho), h.claims⟩, trivial⟩
    | readLock => exact ⟨⟨h.lock, h.claims⟩, fun o ho => h.lock ho⟩
    | readClaim c => exact ⟨h, fun o ho => h.claims ho⟩
    | renameLock c =>
      refine ⟨?_, trivial⟩
      simp only [perform]
      rcases hl : w.lock with _ | o
      · exact h
      · refine ⟨(fun ho => nomatch ho), fun {c' o'} ho => ?_⟩
        rw [OrderedMap.get_set] at ho
        split_ifs at ho
        · cases ho
          exact h.lock hl
        · exact h.claims ho
    | writeClaim c o =>
      refine ⟨⟨h.lock, fun {c' o'} ho => ?_⟩, trivial⟩
      simp only [perform, OrderedMap.get_set] at ho
      split_ifs at ho
      · cases ho
        exact hpre
      · exact h.claims ho
    | unlinkClaim c =>
      refine ⟨⟨h.lock, fun {c' o'} ho => ?_⟩, trivial⟩
      simp only [perform, OrderedMap.get_delete] at ho
      split_ifs at ho
      exact h.claims ho
    | renameClaim c c' =>
      refine ⟨?_, trivial⟩
      simp only [perform]
      rcases hc : w.claims.get c with _ | o
      · exact h
      · refine ⟨h.lock, fun {d o'} ho => ?_⟩
        rw [OrderedMap.get_set, OrderedMap.get_delete] at ho
        split_ifs at ho
        · cases ho
          exact h.claims hc
        · exact h.claims ho
    | linkClaim c =>
      refine ⟨?_, trivial⟩
      simp only [perform, World.linkClaim]
      rcases hc : w.claims.get c with _ | o
      · exact h
      · rcases hl : w.lock with _ | o'
        · exact ⟨fun ho => by cases ho; exact h.claims hc, h.claims⟩
        · exact h
    | createNetwork l a =>
      refine ⟨?_, trivial⟩
      simp only [perform]
      split_ifs
      · exact ⟨h.lock, h.claims⟩
      · exact h
    | removeNetwork i =>
      refine ⟨?_, trivial⟩
      simp only [perform]
      split_ifs
      · exact ⟨h.lock, h.claims⟩
      · exact h
    | random => exact ⟨⟨h.lock, h.claims⟩, trivial⟩
    | startGroup => exact ⟨⟨h.lock, h.claims⟩, trivial⟩
    | endGroup g => exact ⟨⟨h.lock, h.claims⟩, trivial⟩
    | act a => exact ⟨⟨h.lock, h.claims⟩, trivial⟩
    | claimNames | lockExists | claimExists | isMutationOwnerActive | isProcessGroupAlive
      | inspectNetwork | choose | count => exact ⟨h, trivial⟩

end Operations

section Programs

variable {p : ProcessId} {α β : Type}

/-- From a memory that does not name the process, the program writes only owners that do not, and
its result is as it should be. -/
def Keeps (p : ProcessId) (Q : α → Prop) (x : Proc α) : Prop :=
  ∀ m : Memory, m.Other p →
    Within (owners p) (fun r _ => r.2.Other p ∧ ∀ a, r.1 = .ok a → Q a) (x.run.run m) ()

variable {Q : α → Prop} {R : β → Prop}

namespace Keeps

theorem pure {a : α} (h : Q a) : Keeps p Q (pure a : Proc α) :=
  fun _ hm => ⟨hm, fun _ ha => by cases ha; exact h⟩

theorem throw {e : Fault} : Keeps p Q (throw e : Proc α) :=
  fun _ hm => ⟨hm, fun _ ha => by cases ha⟩

theorem bind {x : Proc α} {f : α → Proc β} (hx : Keeps p Q x) (hf : ∀ a, Q a → Keeps p R (f a)) :
    Keeps p R (x >>= f) := by
  intro m hm
  refine Within.bind ((hx m hm).mono ?_)
  rintro ⟨_ | a, m'⟩ - ⟨hm', ha⟩
  · exact ⟨hm', fun b hb => by cases hb⟩
  · exact hf a (ha a rfl) m' hm'

theorem tryCatch {x : Proc α} {f : Fault → Proc α} (hx : Keeps p Q x) (hf : ∀ e, Keeps p Q (f e)) :
    Keeps p Q (tryCatch x f) := by
  intro m hm
  refine Within.bind ((hx m hm).mono ?_)
  rintro ⟨e | a, m'⟩ - ⟨hm', ha⟩
  · exact hf e m' hm'
  · exact ⟨hm', ha⟩

theorem ask {op : Op α} (hpre : (owners p).pre () op) :
    Keeps p ((owners p).post () op) (Mutation.ask op) :=
  fun _ hm => ⟨hpre, fun _ hb => ⟨hm, fun _ ha => by cases ha; exact hb⟩⟩

theorem get : Keeps p (Memory.Other p) (get : Proc Memory) :=
  fun _ hm => ⟨hm, fun _ ha => by cases ha; exact hm⟩

theorem modify {f : Memory → Memory} (hf : ∀ m, m.Other p → (f m).Other p) :
    Keeps p (fun _ => True) (modify f : Proc PUnit) :=
  fun m hm => ⟨hf m hm, fun _ _ => trivial⟩

theorem mono {Q' : α → Prop} {x : Proc α} (h : Keeps p Q x) (hQ : ∀ a, Q a → Q' a) :
    Keeps p Q' x :=
  fun m hm => (h m hm).mono fun _ _ hr => ⟨hr.1, fun a ha => hQ a (hr.2 a ha)⟩

theorem ask_any {op : Op α} (hpre : (owners p).pre () op) :
    Keeps p (fun _ => True) (Mutation.ask op) :=
  (ask hpre).mono fun _ _ => trivial

theorem ite {c : Prop} [Decidable c] {x y : Proc α} (hx : c → Keeps p Q x) (hy : ¬c → Keeps p Q y) :
    Keeps p Q (if c then x else y) := by
  split_ifs with h
  · exact hx h
  · exact hy h

theorem ensure (condition : Bool) (message : String) :
    Keeps p (fun _ => True) (Mutation.ensure condition message) :=
  ite (fun _ => pure trivial) fun _ => throw

theorem whenever (condition : Bool) {x : Proc Unit} (hx : Keeps p (fun _ => True) x) :
    Keeps p (fun _ => True) (Mutation.whenever condition x) :=
  ite (fun _ => hx) fun _ => pure trivial

theorem mayThrow : Keeps p (fun _ => True) Mutation.mayThrow :=
  (ask_any (by trivial)).bind fun _ _ => ensure _ _

theorem map {f : α → β} {x : Proc α} (hx : Keeps p Q x) (hf : ∀ a, Q a → R (f a)) :
    Keeps p R (f <$> x) := by
  intro m hm
  refine Within.bind ((hx m hm).mono ?_)
  rintro ⟨_ | a, m'⟩ - ⟨hm', ha⟩
  · exact ⟨hm', fun b hb => nomatch hb⟩
  · exact ⟨hm', fun b hb => by cases hb; exact hf a (ha a rfl)⟩

theorem setRecoveryPath (path : Option Claim) :
    Keeps p (fun _ => True) (Mutation.setRecoveryPath path) :=
  modify fun _ hm => ⟨hm.active, hm.owner, hm.docker⟩

theorem ownerRead {o : Option MutationLockOwner} (ho : ∀ a, o = some a → a.Other p) :
    Keeps p (MutationLockOwner.Other p) (Mutation.ownerRead o) := by
  rcases o with _ | a
  · exact throw
  · exact pure (ho a rfl)

theorem readLockOwner : Keeps p (MutationLockOwner.Other p) Mutation.readLockOwner :=
  (ask (by trivial)).bind fun _ ho => ownerRead ho

theorem readClaimOwner (c : Claim) :
    Keeps p (MutationLockOwner.Other p) (Mutation.readClaimOwner c) :=
  (ask (by trivial)).bind fun _ ho => ownerRead ho

end Keeps

end Programs

section Acquiring

variable {p q : ProcessId} {o : MutationLockOwner}

namespace Keeps

theorem isIdleRecoverableMutationOwner :
    Keeps p (fun _ => True) (Mutation.isIdleRecoverableMutationOwner q o) :=
  get.bind fun _ _ => ite (fun _ => (ask_any (by trivial)).bind fun _ _ => pure trivial)
    fun _ => pure trivial

theorem isReclaimable : Keeps p (fun _ => True) (Mutation.isReclaimable q o) :=
  ite (fun _ => (ask_any (by trivial)).bind fun _ _ =>
    ite (fun _ => isIdleRecoverableMutationOwner) fun _ => pure trivial) fun _ => pure trivial

theorem claimMutationRecovery {rename : Claim → Op Bool} (h : ∀ c, (owners p).pre () (rename c)) :
    Keeps p (fun _ => True) (Mutation.claimMutationRecovery q rename) :=
  (ask_any (by trivial)).bind fun _ _ => (ask_any (h _)).bind fun _ _ =>
    ite (fun _ => (setRecoveryPath _).bind fun _ _ => pure trivial) fun _ => pure trivial

theorem checkRestored (c : Claim) (linked : Option Bool) :
    Keeps p (fun _ => True) (Mutation.checkRestored c linked) := by
  rcases linked with _ | _ | _
  · exact throw
  · exact (readClaimOwner c).bind fun _ _ => readLockOwner.bind fun _ _ =>
      ite (fun _ => pure trivial) fun _ => throw
  · exact pure trivial

theorem restoreMutationRecoveryLock :
    Keeps p (fun _ => True) Mutation.restoreMutationRecoveryLock := by
  refine get.bind fun m _ => ?_
  rcases m.activeMutationRecoveryPath with _ | c
  · exact pure trivial
  · refine (ask_any (by trivial)).bind fun _ _ => ite (fun _ => ?_) fun _ => setRecoveryPath _
    refine (ask_any (by trivial)).bind fun linked _ => (checkRestored c linked).bind fun _ _ => ?_
    exact (ask_any (by trivial)).bind fun _ _ => (ensure _ _).bind fun _ _ => setRecoveryPath _

theorem unlinkOwned : Keeps p (fun _ => True) Mutation.unlinkOwned :=
  (ask_any (by trivial)).bind fun _ _ => ite (fun _ => pure trivial) fun _ => throw

theorem releaseMutationLock : Keeps p (fun _ => True) (Mutation.releaseMutationLock o) := by
  refine (ask_any (by trivial)).bind fun _ _ => ite (fun _ => ?_) fun _ => pure trivial
  refine (ask_any (by trivial)).bind fun current _ => ?_
  rcases current with _ | current
  · exact throw
  · exact whenever _ unlinkOwned

theorem removeAbandonedLock : Keeps p (fun _ => True) Mutation.removeAbandonedLock := by
  refine (ask_any (by trivial)).bind fun _ _ => ite (fun _ => ?_) fun _ => pure trivial
  refine readLockOwner.bind fun _ _ => (ask_any (by trivial)).bind fun _ _ => ?_
  exact (ensure _ _).bind fun _ _ => (ask_any (by trivial)).bind fun _ _ => ensure _ _

theorem takeClaim (c : Claim) : Keeps p (MutationLockOwner.Other p) (Mutation.takeClaim c) := by
  refine (readClaimOwner c).bind fun _ ho => (ensure _ _).bind fun _ _ => ?_
  refine (ask_any (by trivial)).bind fun _ _ => (ensure _ _).bind fun _ _ => ?_
  exact removeAbandonedLock.bind fun _ _ => pure ho

theorem giveBackClaim (source : Claim) (e : Fault) :
    Keeps p (MutationLockOwner.Other p) (Mutation.giveBackClaim source e) := by
  refine get.bind fun m _ => ?_
  rcases m.activeMutationRecoveryPath with _ | c
  · exact throw
  · refine (ask_any (by trivial)).bind fun _ _ => ite (fun _ => ?_) fun _ => throw
    refine (ask_any (by trivial)).bind fun _ _ => ite (fun _ => throw) fun _ => ?_
    exact (ask_any (by trivial)).bind fun _ _ => (ensure _ _).bind fun _ _ =>
      (setRecoveryPath _).bind fun _ _ => throw

theorem claimAbandoned (source : Claim) :
    Keeps p (fun o => ∀ a, o = some a → a.Other p) (Mutation.claimAbandoned q source) := by
  refine (readClaimOwner source).bind fun _ _ => (ensure _ _).bind fun _ _ => ?_
  refine (ask_any (by trivial)).bind fun _ _ => (ensure _ _).bind fun _ _ => ?_
  refine (claimMutationRecovery fun _ => by trivial).bind fun c _ => ?_
  rcases c with _ | c
  · exact pure fun _ h => nomatch h
  · exact ((takeClaim c).tryCatch (giveBackClaim source)).map fun a ha b hb => by cases hb; exact ha

theorem claimAbandonedMutationRecovery :
    Keeps p (fun o => ∀ a, o = some a → a.Other p) (Mutation.claimAbandonedMutationRecovery q) := by
  refine (ask_any (by trivial)).bind fun names _ => ?_
  rcases names with _ | ⟨source, _ | _⟩
  · exact pure fun _ h => nomatch h
  · exact claimAbandoned source
  · exact throw

theorem checkTaken (c : Claim) :
    Keeps p (fun r => ∀ a, r = some a → a.owner.Other p) (Mutation.checkTaken q c) := by
  refine (readClaimOwner c).bind fun o ho => isReclaimable.bind fun _ _ => ?_
  refine ite (fun _ => ?_) fun _ => ?_
  · exact pure fun a ha => by cases ha; exact ho
  · exact pure fun _ h => nomatch h

theorem takeLock : Keeps p (fun r => ∀ a, r = some a → a.owner.Other p) (Mutation.takeLock q) := by
  refine (claimMutationRecovery fun _ => by trivial).bind fun c _ => ?_
  rcases c with _ | c
  · exact pure fun _ h => nomatch h
  · refine ((checkTaken c).tryCatch fun e =>
      restoreMutationRecoveryLock.bind fun _ _ => throw).bind fun r hr => ?_
    rcases r with _ | a
    · exact restoreMutationRecoveryLock.bind fun _ _ => pure fun _ h => nomatch h
    · exact pure hr

theorem contendLock :
    Keeps p (fun r => ∀ a, r = some a → a.owner.Other p) (Mutation.contendLock q) := by
  refine (ask_any (by trivial)).bind fun _ _ => (ensure _ _).bind fun _ _ => ?_
  refine (ask_any (by trivial)).bind fun existing _ => ?_
  rcases existing with _ | existing
  · exact throw
  · exact isReclaimable.bind fun _ _ => ite (fun _ => takeLock) fun _ => throw

theorem acquireMutationLock (ho : o.Other p) :
    Keeps p (fun r => ∀ a, r = some a → a.owner.Other p) (Mutation.acquireMutationLock q o) := by
  refine claimAbandonedMutationRecovery.bind fun claimed hclaimed => ?_
  rcases claimed with _ | claimed
  · refine (ask_any (by exact ho)).bind fun _ _ => ite (fun _ => ?_) fun _ => contendLock
    refine (ask_any (by trivial)).bind fun _ _ => ite (fun _ => ?_) fun _ => ?_
    · exact pure fun a ha => by cases ha; exact ho
    · exact releaseMutationLock.bind fun _ _ => pure fun _ h => nomatch h
  · exact pure fun a ha => by cases ha; exact hclaimed claimed rfl

end Keeps

end Acquiring

section Holding

variable {p q : ProcessId} {o : MutationLockOwner}

/-- The process group in an owner says nothing about who it is. -/
theorem MutationLockOwner.Other.group (h : o.Other p) (g : Option ℕ) :
    MutationLockOwner.Other p { o with processGroupId := g } := ⟨h.identified, h.pid_ne⟩

theorem recoveredOwner_other (h : o.Other p) (hq : q ≠ p) : (recoveredOwner q o).Other p := by
  refine ⟨?_, hq⟩
  simp only [recoveredOwner]
  split_ifs
  · exact h.identified
  · rfl

namespace Keeps

theorem releaseMutationRecoveryLock :
    Keeps p (fun _ => True) Mutation.releaseMutationRecoveryLock := by
  refine get.bind fun m _ => ?_
  rcases m.activeMutationRecoveryPath with _ | c
  · exact pure trivial
  · refine (ask_any (by trivial)).bind fun _ _ => ite (fun _ => ?_) fun _ => pure trivial
    exact (ask_any (by trivial)).bind fun _ _ => setRecoveryPath _

theorem activateRecoveredMutationLock (ho : o.Other p) (hq : q ≠ p) :
    Keeps p (fun _ => True) (Mutation.activateRecoveredMutationLock q o) := by
  have h := recoveredOwner_other ho hq
  refine get.bind fun m _ => ?_
  rcases m.activeMutationRecoveryPath with _ | c
  · exact throw
  · refine (ask_any (by exact h)).bind fun _ _ => (ask_any (by trivial)).bind fun _ _ => ?_
    refine ite (fun _ => releaseMutationRecoveryLock.bind fun _ _ => ?_) fun _ => throw
    exact modify fun m hm =>
      ⟨fun ha => by cases ha; exact h, fun ha => by cases ha; exact h, hm.docker⟩

theorem activeOwner : Keeps p (MutationLockOwner.Other p) Mutation.activeOwner := by
  refine get.bind fun m hm => ?_
  rcases hactive : m.activeMutationLock with _ | o
  · exact throw
  · exact pure (hm.active hactive)

theorem replaceLock (ho : o.Other p) : Keeps p (fun _ => True) (Mutation.replaceLock o) :=
  (ask_any (by exact ho)).bind fun _ _ =>
    modify fun _ hm => ⟨fun ha => by cases ha; exact ho, hm.owner, hm.docker⟩

theorem recordMutationProcessGroup (g : ℕ) :
    Keeps p (fun _ => True) (Mutation.recordMutationProcessGroup g) :=
  activeOwner.bind fun _ _ => readLockOwner.bind fun _ hcurrent => (ensure _ _).bind fun _ _ =>
    replaceLock (hcurrent.group _)

theorem clearMutationProcessGroup (g : ℕ) :
    Keeps p (fun _ => True) (Mutation.clearMutationProcessGroup g) :=
  activeOwner.bind fun _ _ => readLockOwner.bind fun _ hcurrent => (ensure _ _).bind fun _ _ =>
    replaceLock (hcurrent.group _)

theorem docker {α : Type} {op : Op α} (hpre : (owners p).pre () op) :
    Keeps p (fun _ => True) (Mutation.docker op) := by
  refine (ask_any (by trivial)).bind fun g _ => (recordMutationProcessGroup g).bind fun _ _ => ?_
  refine (ask_any hpre).bind fun _ _ => (ask_any (by trivial)).bind fun _ _ => ?_
  exact (clearMutationProcessGroup g).bind fun _ _ => mayThrow.bind fun _ _ => pure trivial

theorem markActivePluginDisableOperation (target : Option PluginDisableTarget) :
    Keeps p (fun _ => True) (Mutation.markActivePluginDisableOperation target) :=
  activeOwner.bind fun _ hactive => readLockOwner.bind fun _ _ => (ensure _ _).bind fun _ _ =>
    replaceLock ⟨hactive.identified, hactive.pid_ne⟩

theorem completeRecoverableMutationLockHandoff :
    Keeps p (fun _ => True) Mutation.completeRecoverableMutationLockHandoff := by
  refine get.bind fun m _ => ?_
  rcases m.activeMutationLock with _ | active
  · exact pure trivial
  · refine ite (fun _ => ?_) fun _ => pure trivial
    exact readLockOwner.bind fun _ hcurrent => (ensure _ _).bind fun _ _ =>
      replaceLock ⟨hcurrent.identified, hcurrent.pid_ne⟩

theorem removeAmbiguousDockerMutationLock (attempt : ℕ) :
    Keeps p (fun _ => True) (Mutation.removeAmbiguousDockerMutationLock attempt) := by
  refine (docker (by trivial)).bind fun n _ => ?_
  rcases n with _ | n
  · exact pure trivial
  · exact ite (fun _ => (docker (by trivial)).bind fun _ _ => pure trivial) fun _ => pure trivial

theorem removeRecoveredDockerMutationLock (lockId : ℕ) :
    Keeps p (fun _ => True) (Mutation.removeRecoveredDockerMutationLock lockId) := by
  refine (docker (by trivial)).bind fun n _ => ?_
  rcases n with _ | n
  · exact pure trivial
  · exact (ensure _ _).bind fun _ _ => (docker (by trivial)).bind fun _ _ => pure trivial

theorem networkCreated (attempt : ℕ) (networkId : Option ℕ) :
    Keeps p (fun _ => True) (Mutation.networkCreated attempt networkId) := by
  rcases networkId with _ | n
  · exact (removeAmbiguousDockerMutationLock attempt).bind fun _ _ => throw
  · refine (ask_any (by trivial)).bind fun _ _ => ite (fun _ => ?_) fun _ => pure trivial
    exact (removeAmbiguousDockerMutationLock attempt).bind fun _ _ => throw

theorem acquireDockerMutationLock {a : Acquired} (ha : a.owner.Other p) (hq : q ≠ p) :
    Keeps p (fun l => l.owner.Other p) (Mutation.acquireDockerMutationLock q a) := by
  refine get.bind fun m hm => ?_
  have hheld : (m.owner.getD a.owner).Other p := by
    rcases h : m.owner with _ | o
    · exact ha
    · exact hm.owner h
  refine (whenever _ (removeRecoveredDockerMutationLock _)).bind fun _ _ => ?_
  refine (ask_any (by trivial)).bind fun _ _ => (docker (by trivial)).bind fun _ _ => ?_
  exact (networkCreated _ _).bind fun _ _ => pure ⟨hheld.identified, hq⟩

theorem releaseDockerMutationLock (lock : DockerMutationLock) :
    Keeps p (fun _ => True) (Mutation.releaseDockerMutationLock lock) := by
  refine (docker (by trivial)).bind fun n _ => ?_
  rcases n with _ | n
  · exact pure trivial
  · exact ite (fun _ => (docker (by trivial)).bind fun _ _ => pure trivial) fun _ => throw

theorem dockerWork (n : ℕ) : Keeps p (fun _ => True) (Mutation.dockerWork n) := by
  induction n with
  | zero => exact pure trivial
  | succ n ih => exact (docker (by trivial)).bind fun _ _ => ih

theorem runAction : Keeps p (fun _ => True) Mutation.runAction := by
  refine (ask_any (by trivial)).bind fun _ _ => ?_
  refine (whenever _ completeRecoverableMutationLockHandoff).bind fun _ _ => ?_
  refine (ask_any (by trivial)).bind fun _ _ => (dockerWork _).bind fun _ _ => ?_
  refine (ask_any (by trivial)).bind fun _ _ => (ask_any (by trivial)).bind fun _ _ => ?_
  exact (dockerWork _).bind fun _ _ => mayThrow

theorem attempt {x : Proc Unit} (hx : Keeps p (fun _ => True) x) :
    Keeps p (fun _ => True) (Mutation.attempt x) :=
  (hx.bind fun _ _ => pure trivial).tryCatch fun _ => pure trivial

theorem rethrow (e : Option Fault) : Keeps p (fun _ => True) (Mutation.rethrow e) := by
  rcases e with _ | e
  · exact pure trivial
  · exact throw

theorem runDockerMutation {a : Acquired} (ha : a.owner.Other p) (hq : q ≠ p) :
    Keeps p (fun _ => True) (Mutation.runDockerMutation q a) := by
  refine ((acquireDockerMutationLock ha hq).tryCatch fun e =>
    (modify ?_).bind fun _ _ => throw).bind fun lock hlock => (modify ?_).bind fun _ _ => ?_
  · exact fun m hm => ⟨hm.active, hm.owner, hm.docker⟩
  · exact fun m hm => ⟨fun h => by cases h; exact hlock, hm.owner, fun h => by cases h; exact hlock⟩
  refine (attempt runAction).bind fun _ _ => (ask_any (by trivial)).bind fun _ _ => ?_
  refine (releaseDockerMutationLock lock).bind fun _ _ => ?_
  refine (modify ?_).bind fun _ _ => rethrow _
  exact fun m hm => ⟨hm.active, hm.owner, hm.docker⟩

theorem markOperation : Keeps p (fun _ => True) Mutation.markOperation := by
  refine (ask_any (by trivial)).bind fun _ _ => ite (fun _ => ?_) fun _ => pure trivial
  refine (ask_any (by trivial)).bind fun _ _ => ?_
  refine (markActivePluginDisableOperation _).bind fun _ _ => ?_
  exact modify fun m hm => ⟨hm.active, fun h => hm.active h, hm.docker⟩

theorem work {a : Acquired} (ha : a.owner.Other p) (hq : q ≠ p) :
    Keeps p (fun _ => True) (Mutation.work q a) := by
  refine mayThrow.bind fun _ _ => ?_
  refine (whenever _ (activateRecoveredMutationLock ha hq)).bind fun _ _ => ?_
  exact mayThrow.bind fun _ _ => markOperation.bind fun _ _ => runDockerMutation ha hq

theorem canonicalRecoverableMutationOwner (expected : MutationLockOwner) :
    Keeps p (fun _ => True) (Mutation.canonicalRecoverableMutationOwner expected) := by
  refine get.bind fun m _ => ?_
  rcases m.activeMutationRecoveryPath with _ | c
  all_goals
    refine (ask_any (by trivial)).bind fun current _ => ?_
    rcases current with _ | o
    · exact throw
    · exact ite (fun _ => pure trivial) fun _ => throw

theorem canonicalOwner (ho : o.Other p) :
    Keeps p (MutationLockOwner.Other p) (Mutation.canonicalOwner o) := by
  refine (ask_any (by trivial)).bind fun _ _ => ite (fun _ => ?_) fun _ => pure ho
  refine readLockOwner.bind fun canonical hc => ite (fun _ => ?_) fun _ => pure ho
  refine (modify ?_).bind fun _ _ => pure hc
  exact fun m hm => ⟨fun h => by cases h; exact hc, hm.owner, hm.docker⟩

theorem settleLock (a : Acquired) (ha : a.owner.Other p) :
    Keeps p (fun _ => True) (Mutation.settleLock a) := by
  refine get.bind fun m hm => ?_
  have hlocal : (m.activeMutationLock.getD (m.owner.getD a.owner)).Other p := by
    rcases hactive : m.activeMutationLock with _ | o
    · rcases howner : m.owner with _ | o
      · exact ha
      · exact hm.owner howner
    · exact hm.active hactive
  refine (canonicalOwner hlocal).bind fun _ _ => ?_
  refine ite (fun _ => ite (fun _ => ?_) fun _ => ?_) fun _ => ?_
  · exact (canonicalRecoverableMutationOwner _).map fun _ _ => trivial
  · exact pure trivial
  · exact releaseMutationLock.bind fun _ _ => pure trivial

theorem withMutationLock {a : Acquired} (ha : a.owner.Other p) (hq : q ≠ p) :
    Keeps p (fun _ => True) (Mutation.withMutationLock q a) := by
  refine (modify ?_).bind fun _ _ => ?_
  · exact fun m _ => ⟨fun h => by cases h; exact ha, fun h => by cases h; exact ha,
      fun h => nomatch h⟩
  refine (attempt (work ha hq)).bind fun _ _ => ?_
  refine ((settleLock a ha).tryCatch fun _ => pure trivial).bind fun _ _ => ?_
  refine (attempt restoreMutationRecoveryLock).bind fun _ _ => ?_
  refine (modify ?_).bind fun _ _ => ?_
  · exact fun m hm => ⟨fun h => (nomatch h), hm.owner, hm.docker⟩
  exact (rethrow _).bind fun _ _ => rethrow _

end Keeps

end Holding

section Runs

variable {p : ProcessId} {engine : String} {s s' : System}

/-- What a process has still to do names this process in no file. -/
def Stage.Other (p : ProcessId) : Stage → Prop
  | .idle m => m.Other p
  | .acquiring o rest => o.Other p ∧ Within (owners p)
      (fun r _ => r.2.Other p ∧ ∀ a, r.1 = .ok a → ∀ b, a = some b → b.owner.Other p) rest ()
  | .holding rest =>
    Within (owners p) (fun r _ => r.2.Other p ∧ ∀ a, r.1 = .ok a → True) rest ()

/-- The process has not been started, and nothing names it. -/
structure System.Other (p : ProcessId) (s : System) : Prop where
  world : s.world.Other p
  stage {q : ProcessId} {t : Stage} : s.stage q = some t → t.Other p
  unused : s.stage p = none

theorem initial_other : System.initial.Other p :=
  ⟨⟨(fun h => nomatch h), (fun h => nomatch h)⟩, (fun h => nomatch h), rfl⟩

theorem System.Other.set (h : s.Other p) {q : ProcessId} (hq : q ≠ p) {w : World} (hw : w.Other p)
    {t : Stage} (ht : t.Other p) : (s.set q w t).Other p := by
  refine ⟨hw, fun {q' t'} ht' => ?_, ?_⟩
  · simp only [System.set, Function.update_apply] at ht'
    split_ifs at ht'
    · cases ht'
      exact ht
    · exact h.stage ht'
  · simp only [System.set, Function.update_of_ne hq.symm]
    exact h.unused

theorem pass_other {q : ProcessId} {o : MutationLockOwner} {m : Memory} (ho : o.Other p)
    (hm : m.Other p) : (pass q o m).Other p := ⟨ho, Keeps.acquireMutationLock ho m hm⟩

theorem acquired_other {q : ProcessId} (hq : q ≠ p) {o : MutationLockOwner} (ho : o.Other p)
    {r : Except Fault (Option Acquired) × Memory}
    (h : r.2.Other p ∧ ∀ a, r.1 = .ok a → ∀ b, a = some b → b.owner.Other p) :
    (acquired q o r).Other p := by
  obtain ⟨_ | _ | a, m⟩ := r
  · exact h.1
  · exact pass_other ho h.1
  · exact Keeps.withMutationLock (h.2 _ rfl a rfl) hq m h.1

/-- A step of another process leaves the process unnamed. -/
theorem other_step {meets : {β : Type} → ProcessId → Op β → World → Prop} (h : s.Other p)
    (hstep : Step engine meets s s') (hp : s'.stage p = none) : s'.Other p := by
  have hne {q : ProcessId} {w : World} {t : Stage} (hq : (s.set q w t).stage p = none) : q ≠ p := by
    rintro rfl
    simp [System.set] at hq
  cases hstep with
  | start q hq =>
    exact h.set (hne hp) h.world
      ⟨(fun h => nomatch h), (fun h => nomatch h), (fun h => nomatch h)⟩
  | begin q m hq hdead =>
    have hq' := hne hp
    have ho : (newOwner q engine s.world.next).Other p := ⟨rfl, hq'⟩
    have hw : World.Other p { s.world with next := s.world.next + 1 } :=
      ⟨h.world.lock, h.world.claims⟩
    exact h.set hq' hw (pass_other ho (h.stage hq))
  | acquire q o op next b w hq hdead hw hmeets =>
    have hrest := h.stage hq
    have hpost := h.world.performs hrest.2.1 hw
    exact h.set (hne hp) hpost.1 ⟨hrest.1, hrest.2.2 b hpost.2⟩
  | hold q op next b w hq hdead hw hmeets =>
    have hrest := h.stage hq
    have hpost := h.world.performs hrest.1 hw
    exact h.set (hne hp) hpost.1 (hrest.2 b hpost.2)
  | acquired q o result hq =>
    have hrest := h.stage hq
    exact h.set (hne hp) h.world (acquired_other (hne hp) hrest.1 hrest.2)
  | released q result hq => exact h.set (hne hp) h.world (h.stage hq).1
  | crash q => exact ⟨⟨h.world.lock, h.world.claims⟩, h.stage, h.unused⟩
  | endGroup g => exact ⟨⟨h.world.lock, h.world.claims⟩, h.stage, h.unused⟩

/-- A process once started stays so. -/
theorem unused_of_step {meets : {β : Type} → ProcessId → Op β → World → Prop}
    (hstep : Step engine meets s s') (hp : s'.stage p = none) : s.stage p = none := by
  have hset {q : ProcessId} {w : World} {t : Stage} (hq : (s.set q w t).stage p = none) :
      s.stage p = none := by
    simp only [System.set, Function.update_apply] at hq
    split_ifs at hq
    exact hq
  cases hstep with
  | crash | endGroup => exact hp
  | start | begin | acquire | hold | acquired | released => exact hset hp

/-- Nothing names a process that has never been started. -/
theorem reached_other {meets : {β : Type} → ProcessId → Op β → World → Prop}
    (h : Reached engine meets s) (hp : s.stage p = none) : s.Other p := by
  induction h with
  | initial => exact initial_other
  | step _ hstep ih => exact other_step (ih (unused_of_step hstep hp)) hstep hp

end Runs

end Atlas.Cli.Mutation
