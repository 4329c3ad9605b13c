import Atlas.Cli.MutationLock

/-!
# What a process knows of the mutation lock

A process knows what it has last read in the lock file, who it has found dead, and whether the lock
file is its own: that stays so until it gives the lock up itself, because no other process may touch
it. What a process knows bounds what it may do (`Allowed`), and grows with the answers it gets. An
operation that is allowed leaves what the other live processes have (`performs_allowed`), and so
what they know.
-/

namespace Atlas.Cli.Mutation

open Interleaving

section Protocol

/-- What a process knows: what it last read in the lock file, who is dead, whether the lock file is
its own, and whether it is in the action. -/
structure Knowledge where
  seen : Option MutationLockOwner
  gone : ProcessId → Prop
  mine : Prop
  acting : Prop

/-- The identity in an owner is that of its process. -/
def MutationLockOwner.Identified (o : MutationLockOwner) : Prop := o.identity = some o.pid

variable (q : ProcessId)

/-- The lock file that was last read may go: its owner is dead, or it is this process. -/
def Knowledge.Reclaimable (k : Knowledge) : Prop :=
  ∃ o, k.seen = some o ∧ (o.pid = q ∨ k.gone o.pid)

/-- What an operation asks of what the process knows. -/
def Allowed (k : Knowledge) : {β : Type} → Op β → Prop
  | _, .createLock o => o.pid = q ∧ o.Identified
  | _, .writeLock o => k.mine ∧ o.pid = q ∧ o.Identified
  | _, .unlinkLock => ¬k.acting ∧ (k.mine ∨ k.Reclaimable q)
  | _, .renameLock _ => ¬k.acting ∧ (k.mine ∨ k.Reclaimable q)
  | _, .writeClaim _ o => o.pid = q
  | _, .isMutationOwnerActive o => o.Identified
  | _, .createNetwork _ _ => k.mine
  | _, .removeNetwork _ => k.mine
  | _, .act acting => acting = true → k.mine
  | _, _ => True

/-- What the process learns that its answer is like. -/
def Learnt (k : Knowledge) : {β : Type} → Op β → β → Prop
  | _, .readLock, b => (∀ o, b = some o → o.Identified) ∧ (k.mine → ∃ o, b = some o ∧ o.pid = q)
  | _, .readClaim _, b => ∀ o, b = some o → o.Identified
  | _, .writeClaim _ o, _ => o.Identified
  | _, _, _ => True

/-- What it knows then. -/
def Knowledge.after (k : Knowledge) : {β : Type} → Op β → β → Knowledge
  | _, .readLock, b => { k with seen := b, mine := ∃ o, b = some o ∧ o.pid = q }
  | _, .createLock _, b => { k with mine := k.mine ∨ b = true }
  | _, .unlinkLock, _ => { k with mine := False }
  | _, .renameLock _, _ => { k with mine := False }
  | _, .isMutationOwnerActive o, b => { k with gone := fun r => k.gone r ∨ r = o.pid ∧ b = false }
  | _, .act acting, _ => { k with acting := acting = true }
  | _, _, _ => k

/-- The lock file is not touched while it names a live process that is not this one, nor the
network; and nobody else is told anything. -/
structure Leaves (w w' : World) : Prop where
  lock {o : MutationLockOwner} : w.lock = some o → o.pid ≠ q → w.dead o.pid = false →
    w'.lock = some o ∧ w'.network = w.network
  others {r : ProcessId} : r ≠ q → w'.seen r = w.seen r ∧ w'.acting r = w.acting r
  dead : w'.dead = w.dead

/-- What the process knows is so. -/
structure Agrees (k : Knowledge) (w : World) : Prop where
  seen : w.seen q = k.seen
  gone {r : ProcessId} : k.gone r → w.dead r = true
  mine : k.mine → ∃ o, w.lock = some o ∧ o.pid = q
  acting : w.acting q = true → k.acting
  acting_mine : k.acting → k.mine

structure World.Identified (w : World) : Prop where
  lock {o : MutationLockOwner} : w.lock = some o → o.Identified
  claims {c : Claim} {o : MutationLockOwner} : w.claims.get c = some o → o.Identified

/-- The lock file still is what the process last read there when it is renamed or removed, and an
owner that is recovered names the process by its identity. -/
def exclusive : {β : Type} → ProcessId → Op β → World → Prop
  | _, p, .unlinkLock, w => w.lock = none ∨ w.lock = w.seen p
  | _, p, .renameLock _, w => w.lock = none ∨ w.lock = w.seen p
  | _, _, .writeClaim _ o, _ => o.Identified
  | _, _, _, _ => True

end Protocol

section Operations

variable {q : ProcessId} {k : Knowledge} {w w' : World} {β : Type} {op : Op β} {b : β}

theorem dead_of_not_active {o : MutationLockOwner} (ho : o.Identified)
    (h : w.isMutationOwnerActive o = false) : w.dead o.pid = true := by
  unfold MutationLockOwner.Identified at ho
  simp only [World.isMutationOwnerActive, World.isAlive, ho, Option.all_some, Bool.or_eq_false_iff,
    Bool.and_eq_false_iff] at h
  simpa using h.1

/-- The lock file that goes is not that of another live process. -/
theorem not_live_other (hk : Agrees q k w) (hpre : k.mine ∨ k.Reclaimable q)
    (hmeets : w.lock = none ∨ w.lock = w.seen q) {o : MutationLockOwner} (hl : w.lock = some o)
    (hne : o.pid ≠ q) (hdead : w.dead o.pid = false) : False := by
  rcases hpre with hmine | ⟨o', hseen, ho'⟩
  · obtain ⟨o', hl', hpid⟩ := hk.mine hmine
    rw [hl] at hl'
    cases hl'
    exact hne hpid
  · rw [hl, hk.seen, hseen] at hmeets
    rcases hmeets with h | h
    · cases h
    · cases h
      rcases ho' with hpid | hgone
      · exact hne hpid
      · rw [hk.gone hgone] at hdead
        cases hdead

/-- What another live process has is not this one's. -/
theorem Agrees.not_mine (hk : Agrees q k w) {o : MutationLockOwner} (hl : w.lock = some o)
    (hne : o.pid ≠ q) : ¬k.mine := by
  intro hmine
  obtain ⟨o', hl', hpid⟩ := hk.mine hmine
  rw [hl] at hl'
  cases hl'
  exact hne hpid

/-- An operation that is allowed leaves what others have, and what the process knows is so again. -/
theorem performs_allowed (hk : Agrees q k w) (hid : w.Identified) (hpre : Allowed q k op)
    (hmeets : exclusive q op w) (hw : Performs q op w b w') :
    Learnt q k op b ∧ Agrees q (k.after q op b) w' ∧ w'.Identified ∧ Leaves q w w' := by
  have hsame : Leaves q w w := ⟨fun h _ _ => ⟨h, rfl⟩, fun _ => ⟨rfl, rfl⟩, rfl⟩
  cases hw with
  | ambiguous o =>
    exact ⟨trivial, ⟨hk.seen, fun h => h.elim hk.gone fun h => by simp at h, hk.mine, hk.acting,
      hk.acting_mine⟩, hid, hsame⟩
  | chosen b => exact ⟨trivial, hk, hid, hsame⟩
  | counted n => exact ⟨trivial, hk, hid, hsame⟩
  | performs =>
    cases op with
    | createLock o =>
      rcases hl : w.lock with _ | o'
      · simp only [perform, hl, if_true]
        exact ⟨trivial, ⟨hk.seen, hk.gone, fun _ => ⟨o, rfl, hpre.1⟩, hk.acting,
          fun h => .inl (hk.acting_mine h)⟩, ⟨fun h => by cases h; exact hpre.2, hid.claims⟩,
          ⟨(fun h => by rw [hl] at h; cases h), fun _ => ⟨rfl, rfl⟩, rfl⟩⟩
      · simp only [perform, hl, reduceCtorEq, if_false]
        refine ⟨trivial, ⟨hk.seen, hk.gone, fun h => ?_, hk.acting,
          fun h => .inl (hk.acting_mine h)⟩, hid, hsame⟩
        exact hk.mine (h.resolve_right (by simp))
    | writeLock o =>
      obtain ⟨hmine, hpid, ho⟩ := hpre
      exact ⟨trivial, ⟨hk.seen, hk.gone, fun _ => ⟨o, rfl, hpid⟩, hk.acting, hk.acting_mine⟩,
        ⟨fun h => by cases h; exact ho, hid.claims⟩,
        ⟨fun h hne _ => (hk.not_mine h hne hmine).elim, fun _ => ⟨rfl, rfl⟩, rfl⟩⟩
    | readLock =>
      refine ⟨⟨fun o ho => hid.lock ho, hk.mine⟩, ⟨?_, hk.gone, id, hk.acting,
        fun h => hk.mine (hk.acting_mine h)⟩, ⟨hid.lock, hid.claims⟩,
        ⟨fun h _ _ => ⟨h, rfl⟩, fun hr => ⟨?_, rfl⟩, rfl⟩⟩
      · simp [perform, Knowledge.after]
      · simp [perform, Function.update_of_ne hr]
    | unlinkLock =>
      exact ⟨trivial, ⟨hk.seen, hk.gone, False.elim, hk.acting, fun h => (hpre.1 h).elim⟩,
        ⟨(fun h => nomatch h), hid.claims⟩,
        ⟨fun h hne hd => (not_live_other hk hpre.2 hmeets h hne hd).elim, fun _ => ⟨rfl, rfl⟩, rfl⟩⟩
    | renameLock c =>
      rcases hl : w.lock with _ | o
      · simp only [perform, hl]
        exact ⟨trivial, ⟨hk.seen, hk.gone, False.elim, hk.acting, fun h => (hpre.1 h).elim⟩, hid,
          hsame⟩
      · simp only [perform, hl]
        refine ⟨trivial, ⟨hk.seen, hk.gone, False.elim, hk.acting, fun h => (hpre.1 h).elim⟩,
          ⟨(fun h => nomatch h), fun {c' o'} h => ?_⟩,
          ⟨fun h hne hd => (not_live_other hk hpre.2 hmeets h hne hd).elim, fun _ => ⟨rfl, rfl⟩,
            rfl⟩⟩
        rw [OrderedMap.get_set] at h
        split_ifs at h
        · cases h
          exact hid.lock hl
        · exact hid.claims h
    | writeClaim c o =>
      refine ⟨hmeets, ⟨hk.seen, hk.gone, hk.mine, hk.acting, hk.acting_mine⟩,
        ⟨hid.lock, fun {c' o'} h => ?_⟩, ⟨fun h _ _ => ⟨h, rfl⟩, fun _ => ⟨rfl, rfl⟩, rfl⟩⟩
      simp only [perform, OrderedMap.get_set] at h
      split_ifs at h
      · cases h
        exact hmeets
      · exact hid.claims h
    | unlinkClaim c =>
      refine ⟨trivial, ⟨hk.seen, hk.gone, hk.mine, hk.acting, hk.acting_mine⟩,
        ⟨hid.lock, fun {c' o'} h => ?_⟩, ⟨fun h _ _ => ⟨h, rfl⟩, fun _ => ⟨rfl, rfl⟩, rfl⟩⟩
      simp only [perform, OrderedMap.get_delete] at h
      split_ifs at h
      exact hid.claims h
    | renameClaim c c' =>
      rcases hc : w.claims.get c with _ | o
      · simp only [perform, hc]
        exact ⟨trivial, hk, hid, hsame⟩
      · simp only [perform, hc]
        refine ⟨trivial, ⟨hk.seen, hk.gone, hk.mine, hk.acting, hk.acting_mine⟩,
          ⟨hid.lock, fun {d o'} h => ?_⟩, ⟨fun h _ _ => ⟨h, rfl⟩, fun _ => ⟨rfl, rfl⟩, rfl⟩⟩
        rw [OrderedMap.get_set, OrderedMap.get_delete] at h
        split_ifs at h
        · cases h
          exact hid.claims hc
        · exact hid.claims h
    | linkClaim c =>
      rcases hc : w.claims.get c with _ | o
      · simp only [perform, World.linkClaim, hc]
        exact ⟨trivial, hk, hid, hsame⟩
      · rcases hl : w.lock with _ | o'
        · simp only [perform, World.linkClaim, hc, hl]
          refine ⟨trivial, ⟨hk.seen, hk.gone, fun h => ?_, hk.acting, hk.acting_mine⟩,
            ⟨fun h => by cases h; exact hid.claims hc, hid.claims⟩,
            ⟨(fun h => by rw [hl] at h; cases h), fun _ => ⟨rfl, rfl⟩, rfl⟩⟩
          obtain ⟨a, ha, -⟩ := hk.mine h
          rw [hl] at ha
          cases ha
        · simp only [perform, World.linkClaim, hc, hl]
          exact ⟨trivial, hk, hid, hsame⟩
    | isMutationOwnerActive o =>
      refine ⟨trivial, ⟨hk.seen, fun h => ?_, hk.mine, hk.acting, hk.acting_mine⟩, hid, hsame⟩
      rcases h with h | ⟨rfl, h⟩
      · exact hk.gone h
      · exact dead_of_not_active hpre h
    | createNetwork l a =>
      have hleaves {u : World} (hlock : u.lock = w.lock) (hseen : u.seen = w.seen)
          (hacting : u.acting = w.acting) (hdead : u.dead = w.dead) : Leaves q w u :=
        ⟨fun h hne _ => (hk.not_mine h hne hpre).elim, fun _ => ⟨by rw [hseen], by rw [hacting]⟩,
          hdead⟩
      simp only [perform]
      split_ifs
      · exact ⟨trivial, ⟨hk.seen, hk.gone, hk.mine, hk.acting, hk.acting_mine⟩,
          ⟨hid.lock, hid.claims⟩, hleaves rfl rfl rfl rfl⟩
      · exact ⟨trivial, hk, hid, hsame⟩
    | removeNetwork i =>
      simp only [perform]
      split_ifs
      · exact ⟨trivial, ⟨hk.seen, hk.gone, hk.mine, hk.acting, hk.acting_mine⟩,
          ⟨hid.lock, hid.claims⟩, ⟨fun h hne _ => (hk.not_mine h hne hpre).elim,
            fun _ => ⟨rfl, rfl⟩, rfl⟩⟩
      · exact ⟨trivial, hk, hid, hsame⟩
    | act a =>
      refine ⟨trivial, ⟨hk.seen, hk.gone, hk.mine, fun h => ?_, hpre⟩, ⟨hid.lock, hid.claims⟩,
        ⟨fun h _ _ => ⟨h, rfl⟩, fun hr => ⟨rfl, ?_⟩, rfl⟩⟩
      · show a = true
        simpa [perform] using h
      · simp [perform, Function.update_of_ne hr]
    | random => exact ⟨trivial, ⟨hk.seen, hk.gone, hk.mine, hk.acting, hk.acting_mine⟩,
        ⟨hid.lock, hid.claims⟩, ⟨fun h _ _ => ⟨h, rfl⟩, fun _ => ⟨rfl, rfl⟩, rfl⟩⟩
    | startGroup => exact ⟨trivial, ⟨hk.seen, hk.gone, hk.mine, hk.acting, hk.acting_mine⟩,
        ⟨hid.lock, hid.claims⟩, ⟨fun h _ _ => ⟨h, rfl⟩, fun _ => ⟨rfl, rfl⟩, rfl⟩⟩
    | endGroup g => exact ⟨trivial, ⟨hk.seen, hk.gone, hk.mine, hk.acting, hk.acting_mine⟩,
        ⟨hid.lock, hid.claims⟩, ⟨fun h _ _ => ⟨h, rfl⟩, fun _ => ⟨rfl, rfl⟩, rfl⟩⟩
    | readClaim c => exact ⟨fun o ho => hid.claims ho, hk, hid, hsame⟩
    | claimNames | lockExists | claimExists | isProcessGroupAlive | inspectNetwork | choose
      | count => exact ⟨trivial, hk, hid, hsame⟩

/-- What another process does leaves what this one knows as it is, while it lives. -/
theorem Agrees.leaves {r : ProcessId} (hk : Agrees r k w) (h : Leaves q w w') (hr : r ≠ q)
    (hdead : w.dead r = false) : Agrees r k w' := by
  refine ⟨by rw [(h.others hr).1, hk.seen], fun hg => by rw [h.dead, hk.gone hg], fun hm => ?_,
    fun ha => hk.acting (by rw [← (h.others hr).2, ha]), hk.acting_mine⟩
  obtain ⟨o, hl, rfl⟩ := hk.mine hm
  exact ⟨o, (h.lock hl hr hdead).1, rfl⟩

end Operations


section Programs

variable {q : ProcessId} {α β : Type}

def knowing (q : ProcessId) : Contract Op Knowledge where
  pre k op := Allowed q k op
  post k op b := Learnt q k op b
  after k op b := k.after q op b

/-- How a program ends, when it returns and when it throws. -/
def Ends (Q : α → Memory → Knowledge → Prop) (E : Memory → Knowledge → Prop)
    (r : Except Fault α × Memory) (k : Knowledge) : Prop :=
  match r.1 with
  | .ok a => Q a r.2 k
  | .error _ => E r.2 k

/-- What a process does from such a memory and with such a knowledge is allowed, and leaves these
when it returns, and when it throws. -/
def Obeys (q : ProcessId) (P : Memory → Knowledge → Prop) (Q : α → Memory → Knowledge → Prop)
    (E : Memory → Knowledge → Prop) (x : Proc α) : Prop :=
  ∀ m k, P m k → Within (knowing q) (Ends Q E) (x.run.run m) k

variable {P P' : Memory → Knowledge → Prop} {Q Q' : α → Memory → Knowledge → Prop}
  {R : β → Memory → Knowledge → Prop} {E E' : Memory → Knowledge → Prop}

namespace Obeys

theorem pure {a : α} (h : ∀ m k, P m k → Q a m k) : Obeys q P Q E (pure a : Proc α) :=
  fun m k hp => h m k hp

/-- A process reads its own memory. -/
theorem getting {f : Memory → Proc α}
    (h : ∀ m k, P m k → Within (knowing q) (Ends Q E) ((f m).run.run m) k) :
    Obeys q P Q E (get >>= f) :=
  h

theorem throw {e : Fault} (h : ∀ m k, P m k → E m k) : Obeys q P Q E (throw e : Proc α) :=
  fun m k hp => h m k hp

theorem bind {x : Proc α} {f : α → Proc β} (hx : Obeys q P Q E x)
    (hf : ∀ a, Obeys q (Q a) R E (f a)) : Obeys q P R E (x >>= f) := by
  intro m k hp
  refine Within.bind ((hx m k hp).mono ?_)
  rintro ⟨_ | a, m'⟩ k' h
  · exact h
  · exact hf a m' k' h

theorem tryCatch {x : Proc α} {f : Fault → Proc α} (hx : Obeys q P Q E' x)
    (hf : ∀ e, Obeys q E' Q E (f e)) : Obeys q P Q E (tryCatch x f) := by
  intro m k hp
  refine Within.bind ((hx m k hp).mono ?_)
  rintro ⟨e | a, m'⟩ k' h
  · exact hf e m' k' h
  · exact h

theorem map {x : Proc α} {f : α → β} (hx : Obeys q P (fun a => R (f a)) E x) :
    Obeys q P R E (f <$> x) := by
  intro m k hp
  refine Within.bind ((hx m k hp).mono ?_)
  rintro ⟨_ | a, m'⟩ k' h
  · exact h
  · exact h

theorem ask {op : Op α} (hpre : ∀ m k, P m k → Allowed q k op)
    (hpost : ∀ m k, P m k → ∀ b, Learnt q k op b → Q b m (k.after q op b)) :
    Obeys q P Q E (Mutation.ask op) :=
  fun m k hp => ⟨hpre m k hp, fun b hb => hpost m k hp b hb⟩

theorem get : Obeys q P (fun a m k => a = m ∧ P m k) E (get : Proc Memory) :=
  fun _ _ hp => ⟨rfl, hp⟩

theorem modify {f : Memory → Memory} (h : ∀ m k, P m k → P' (f m) k) :
    Obeys q P (fun _ => P') E (modify f : Proc PUnit) :=
  fun m k hp => h m k hp

theorem weaken {x : Proc α} (h : Obeys q P Q E x) (hP : ∀ m k, P' m k → P m k)
    (hQ : ∀ a m k, Q a m k → Q' a m k) (hE : ∀ m k, E m k → E' m k) : Obeys q P' Q' E' x := by
  intro m k hp
  refine (h m k (hP m k hp)).mono ?_
  rintro ⟨_ | a, m'⟩ k' hr
  · exact hE m' k' hr
  · exact hQ a m' k' hr

theorem ite {c : Prop} [Decidable c] {x y : Proc α} (hx : c → Obeys q P Q E x)
    (hy : ¬c → Obeys q P Q E y) : Obeys q P Q E (if c then x else y) := by
  split_ifs with h
  · exact hx h
  · exact hy h

/-- What holds by a pure fact may be used. -/
theorem assuming {F : Prop} {x : Proc α} (h : ∀ m k, P m k → F) (hx : F → Obeys q P Q E x) :
    Obeys q P Q E x :=
  fun m k hp => hx (h m k hp) m k hp

/-- An operation that asks nothing and tells nothing. -/
theorem quiet {op : Op α} (hpre : ∀ k, Allowed q k op)
    (hafter : ∀ (k : Knowledge) (b : α), k.after q op b = k) :
    Obeys q P (fun _ => P) E (Mutation.ask op) :=
  ask (fun _ k _ => hpre k) fun _ k hp b _ => by rw [hafter k b]; exact hp

theorem ensure {condition : Bool} {message : String} (h : ∀ m k, P m k → E m k) :
    Obeys q P (fun _ m k => condition = true ∧ P m k) E (Mutation.ensure condition message) :=
  ite (fun hc => pure fun _ _ hp => ⟨hc, hp⟩) fun _ => throw h

theorem whenever {condition : Bool} {x : Proc Unit}
    (hx : condition = true → Obeys q P (fun _ => P') E x)
    (h : condition = false → ∀ m k, P m k → P' m k) :
    Obeys q P (fun _ => P') E (Mutation.whenever condition x) :=
  ite hx fun hc => pure (h (by simpa using hc))

theorem mayThrow (h : ∀ m k, P m k → E m k) : Obeys q P (fun _ => P) E Mutation.mayThrow :=
  bind (quiet (fun _ => by trivial) fun _ _ => by rfl) fun _ =>
    (ensure h).weaken (fun _ _ hp => hp) (fun _ _ _ hp => hp.2) fun _ _ he => he

end Obeys

end Programs

end Atlas.Cli.Mutation
