import Atlas.Link.Service

/-!
# Reconfiguring the radio and transmitting exclude each other

Of the calls of `applyRadioProfile`, only the first that has not released its promise is past its
wait for the one before it (`Chain.unique`). What that one waits for tells what the gate is like
(`StageOk`): from the end of `suspend` on, the gate is paused and nothing is on air, and it stays
so until the one call that may resume the gate does. So a send starts only where no application is
with the profile manager, the last one that was is followed by a success if it was rejected, and no
abort has come (`Orderly`).
-/

namespace Atlas.Link

/-- The part of a service that the radio depends on. -/
structure RadioView where
  applications : List Application
  released : List ℕ
  tail : ℕ
  gate : LinkRadioGate
  history : List RadioEvent

namespace LinkService

def radio (s : LinkService) : RadioView :=
  ⟨s.applications, s.releasedPromises, s.profileApplyTail, s.gate, s.history⟩

/-- A service but for what it keeps of its clients' demand. -/
def rest (s : LinkService) : LinkService :=
  { s with
    subscriptions := .new
    pendingSubscriptionRemovals := .empty
    clientLeaseTimers := .empty
    renewalTimer := false
    submissions := [] }

theorem of_rest {α : Type} {s s' : LinkService} (f : LinkService → α)
    (hf : ∀ s, f s.rest = f s) (h : s'.rest = s.rest) : f s' = f s :=
  (hf s').symm.trans ((congrArg f h).trans (hf s))

theorem radio_of_rest {s s' : LinkService} (h : s'.rest = s.rest) : s'.radio = s.radio :=
  of_rest radio (fun _ => rfl) h

section Demand

variable (options : LinkServiceOptions) (failure : SubscriptionTransition → Option String)
  (s : LinkService)

@[simp]
theorem setLifecycle_radio (lifecycle : LinkLifecycle) (detail : Option String) :
    (s.setLifecycle lifecycle detail).radio = s.radio := by
  unfold setLifecycle
  split_ifs <;> rfl

@[simp]
theorem submit_rest (transition : SubscriptionTransition) :
    (s.submit failure transition).1.rest = s.rest := by
  unfold submit
  split <;> rfl

@[simp]
theorem dispatchSubscription_rest (transition : SubscriptionTransition) :
    (s.dispatchSubscription options failure transition).1.rest = s.rest := by
  unfold dispatchSubscription
  split_ifs <;> simp

@[simp]
theorem scheduleRenewalIfNeeded_rest :
    (s.scheduleRenewalIfNeeded options).rest = s.rest := by
  unfold scheduleRenewalIfNeeded
  split_ifs <;> rfl

@[simp]
theorem finishUpdate_rest (clientID : String) (action : SubscriptionAction) (selector : String) :
    (s.finishUpdate options clientID action selector).rest = s.rest := by
  unfold finishUpdate
  dsimp only
  rw [scheduleRenewalIfNeeded_rest]
  split_ifs <;> rfl

theorem tellUpdate_rest (clientID : String) (action : SubscriptionAction) (selector : String)
    (transition : Option SubscriptionTransition) :
    (s.tellUpdate options failure clientID action selector transition).1.rest = s.rest := by
  unfold tellUpdate
  rcases transition with _ | transition
  · exact finishUpdate_rest options s clientID action selector
  · have hdispatched := dispatchSubscription_rest options failure s transition
    rcases h : s.dispatchSubscription options failure transition with ⟨s', _ | reason⟩
    · rw [h] at hdispatched
      simp only [h, finishUpdate_rest]
      exact hdispatched
    · rw [h] at hdispatched
      simp only [h]
      exact hdispatched

theorem updateLocalSubscription_rest (clientID : String) (action : SubscriptionAction)
    (selector : String) :
    (s.updateLocalSubscription options failure clientID action selector).1.rest = s.rest := by
  unfold updateLocalSubscription
  dsimp only
  split_ifs
  · rfl
  · rfl
  · rfl
  all_goals exact tellUpdate_rest options failure _ clientID action selector _

theorem foldl_rest {α : Type} {f : LinkService → α → LinkService}
    (h : ∀ s a, (f s a).rest = s.rest) : ∀ (as : List α) (s : LinkService),
      (as.foldl f s).rest = s.rest
  | [], _ => rfl
  | a :: as, s => (foldl_rest h as (f s a)).trans (h s a)

theorem dispatchRemoval_rest (transition : SubscriptionTransition) :
    (s.dispatchRemoval options failure transition).rest = s.rest := by
  have hdispatched := dispatchSubscription_rest options failure s transition
  unfold dispatchRemoval
  rcases h : s.dispatchSubscription options failure transition with ⟨s', _ | reason⟩ <;>
    rw [h] at hdispatched <;> exact hdispatched

theorem disconnectClient_rest (clientID : String) :
    (s.disconnectClient options failure clientID).rest = s.rest := by
  unfold disconnectClient
  dsimp only
  rw [scheduleRenewalIfNeeded_rest, foldl_rest fun s => dispatchRemoval_rest options failure s]
  rfl

theorem expireClientLease_rest (clientID : String) :
    (s.expireClientLease options failure clientID).rest = s.rest := by
  unfold expireClientLease
  split_ifs
  · exact disconnectClient_rest options failure _ clientID
  · rfl

theorem retryRemoval_rest (e : String × String) :
    (s.retryRemoval options failure e).rest = s.rest := by
  have hdispatched := dispatchSubscription_rest options failure s ⟨.remove, e.2⟩
  unfold retryRemoval
  rcases h : s.dispatchSubscription options failure ⟨.remove, e.2⟩ with ⟨s', _ | reason⟩ <;>
    rw [h] at hdispatched <;> exact hdispatched

@[simp]
theorem dispatchAll_rest (transitions : List SubscriptionTransition) :
    (s.dispatchAll options failure transitions).rest = s.rest :=
  foldl_rest (fun s => dispatchSubscription_rest options failure s) transitions s

theorem fireRenewal_rest : (s.fireRenewal options failure).rest = s.rest := by
  unfold fireRenewal
  dsimp only
  split_ifs
  · rw [scheduleRenewalIfNeeded_rest, dispatchAll_rest,
      foldl_rest fun s => retryRemoval_rest options failure s]
    rfl
  · rfl

@[simp]
theorem activateTransport_radio : (s.activateTransport options failure).radio = s.radio := by
  unfold activateTransport
  dsimp only
  split_ifs
  · rfl
  · rw [radio_of_rest (scheduleRenewalIfNeeded_rest options _)]
    exact (radio_of_rest (dispatchAll_rest options failure _ _)).trans (setLifecycle_radio s _ _)

theorem attachTransport_radio (node : LinkNode) (gatewayNode : Option LinkNode) :
    (s.attachTransport options failure node gatewayNode).radio = s.radio := by
  unfold attachTransport
  dsimp only
  split_ifs
  · rfl
  · exact activateTransport_radio options failure _
  · rfl

end Demand

end LinkService

section Chain

namespace RadioView

def setStage (i : ℕ) (stage : ApplicationStage) (v : RadioView) : RadioView :=
  { v with applications := v.applications.modify i fun a => { a with stage := stage } }

theorem of_setStage {v : RadioView} {i j : ℕ} {stage : ApplicationStage} {b : Application}
    (h : (v.setStage i stage).applications[j]? = some b) :
    j ≠ i ∧ v.applications[j]? = some b ∨
      j = i ∧ ∃ a, v.applications[i]? = some a ∧ b = { a with stage := stage } := by
  have hmodify : (v.setStage i stage).applications[j]? =
      (fun a => if i = j then { a with stage := stage } else a) <$> v.applications[j]? :=
    List.getElem?_modify ..
  rw [hmodify] at h
  obtain ⟨a, ha, rfl⟩ := Option.map_eq_some_iff.1 h
  by_cases hij : i = j
  · subst hij
    exact .inr ⟨rfl, a, ha, by simp⟩
  · exact .inl ⟨Ne.symm hij, by simpa [hij] using ha⟩

theorem setStage_self {v : RadioView} {i : ℕ} {a : Application} (stage : ApplicationStage)
    (h : v.applications[i]? = some a) :
    (v.setStage i stage).applications[i]? = some { a with stage := stage } := by
  show (v.applications.modify i _)[i]? = _
  rw [List.getElem?_modify, h]
  simp

theorem setStage_of_ne {v : RadioView} {i j : ℕ} {b : Application} (stage : ApplicationStage)
    (hij : j ≠ i) (h : v.applications[j]? = some b) :
    (v.setStage i stage).applications[j]? = some b := by
  show (v.applications.modify i _)[j]? = _
  rw [List.getElem?_modify, h]
  simp [Ne.symm hij]

end RadioView

/-- Each application waits for the one before it, and only those that waited for nothing else have
released their promise. -/
structure Chain (v : RadioView) : Prop where
  tail : v.tail = v.applications.length
  links : ∀ (i : ℕ) (a : Application), v.applications[i]? = some a →
    a.previous = i ∧ a.release = i + 1
  released : ∀ i : ℕ, i + 1 ∈ v.released →
    ∃ a : Application, v.applications[i]? = some a ∧ a.stage = .released
  passed : ∀ (i : ℕ) (a : Application), v.applications[i]? = some a → a.stage ≠ .queued →
    ∀ (j : ℕ) (b : Application), j < i → v.applications[j]? = some b → b.stage = .released

variable {v : RadioView} {i j : ℕ} {a b : Application}

/-- The application may take a step: it is past its wait, or its wait is over. -/
def Due (v : RadioView) (a : Application) : Prop :=
  a.stage ≠ .released ∧ (a.stage ≠ .queued ∨ a.previous ∈ v.released)

theorem Chain.before (h : Chain v) (hi : v.applications[i]? = some a) (hdue : Due v a)
    (hj : v.applications[j]? = some b) (hji : j < i) : b.stage = .released := by
  rcases hdue.2 with hstage | hprevious
  · exact h.passed i a hi hstage j b hji hj
  · rw [(h.links i a hi).1] at hprevious
    obtain ⟨k, rfl⟩ : ∃ k, i = k + 1 := ⟨i - 1, by omega⟩
    obtain ⟨c, hc, hreleased⟩ := h.released k hprevious
    rcases Nat.lt_or_ge j k with hjk | hjk
    · exact h.passed k c hc (by simp [hreleased]) j b hjk hj
    · obtain rfl : j = k := by omega
      rw [hc] at hj
      cases hj
      exact hreleased

/-- Where an application is due, every other waits for its turn or is over. -/
theorem Chain.others (h : Chain v) (hi : v.applications[i]? = some a) (hdue : Due v a)
    (hj : v.applications[j]? = some b) (hji : j ≠ i) :
    b.stage = .queued ∨ b.stage = .released := by
  rcases Nat.lt_or_gt_of_ne hji with hlt | hgt
  · exact .inr (h.before hi hdue hj hlt)
  · by_cases hqueued : b.stage = .queued
    · exact .inl hqueued
    · exact absurd (h.passed j b hj hqueued i a hgt hi) hdue.1

theorem Chain.unique (h : Chain v) (hi : v.applications[i]? = some a)
    (hj : v.applications[j]? = some b) (ha : a.stage ≠ .queued ∧ a.stage ≠ .released)
    (hb : b.stage ≠ .queued ∧ b.stage ≠ .released) : j = i := by
  by_contra hji
  rcases h.others hi ⟨ha.2, .inl ha.1⟩ hj hji with hstage | hstage
  · exact hb.1 hstage
  · exact hb.2 hstage

theorem Chain.setStage (h : Chain v) (hi : v.applications[i]? = some a) (hdue : Due v a)
    (stage : ApplicationStage) : Chain (v.setStage i stage) where
  tail := by
    rw [show (v.setStage i stage).applications.length = v.applications.length from
      List.length_modify ..]
    exact h.tail
  links := by
    intro j b hj
    rcases RadioView.of_setStage hj with ⟨-, hj⟩ | ⟨rfl, a, ha, rfl⟩
    · exact h.links j b hj
    · exact h.links j a ha
  released := by
    intro j hj
    obtain ⟨b, hb, hreleased⟩ := h.released j hj
    by_cases hji : j = i
    · subst hji
      rw [hi] at hb
      cases hb
      exact absurd hreleased hdue.1
    · exact ⟨b, RadioView.setStage_of_ne stage hji hb, hreleased⟩
  passed := by
    intro k c hk hstage j b hjk hj
    rcases RadioView.of_setStage hj with ⟨hji, hj'⟩ | ⟨rfl, a', ha', rfl⟩
    · rcases RadioView.of_setStage hk with ⟨-, hk⟩ | ⟨rfl, -⟩
      · exact h.passed k c hk hstage j b hjk hj'
      · exact h.before hi hdue hj' hjk
    · rcases RadioView.of_setStage hk with ⟨-, hk⟩ | ⟨rfl, -⟩
      · exact absurd (h.passed k c hk hstage j a hjk hi) hdue.1
      · exact absurd hjk (lt_irrefl k)

/-- The promise of an application is released as its last step. -/
theorem Chain.release (h : Chain v) (hi : v.applications[i]? = some a) (hdue : Due v a) :
    Chain ({ v with released := a.release :: v.released }.setStage i .released) := by
  have hset := h.setStage hi hdue .released
  refine ⟨hset.tail, hset.links, fun j hj => ?_, hset.passed⟩
  rcases List.mem_cons.1 hj with hj | hj
  · rw [(h.links i a hi).2] at hj
    obtain rfl : j = i := by omega
    exact ⟨_, RadioView.setStage_self .released hi, rfl⟩
  · exact hset.released j hj

theorem Chain.call (h : Chain v) (profile : String) :
    Chain { v with
      applications := v.applications ++ [⟨profile, v.tail, v.applications.length + 1, .queued⟩]
      tail := v.applications.length + 1 } where
  tail := by simp
  links := by
    intro i a hi
    rw [List.getElem?_append] at hi
    split_ifs at hi with hlt
    · exact h.links i a hi
    · rw [List.getElem?_singleton] at hi
      split_ifs at hi with hzero
      cases hi
      have := h.tail
      dsimp only
      omega
  released := by
    intro i hi
    obtain ⟨a, ha, hreleased⟩ := h.released i hi
    exact ⟨a, by rw [List.getElem?_append_left (List.getElem?_eq_some_iff.1 ha).1, ha], hreleased⟩
  passed := by
    intro i a hi hstage j b hji hj
    rw [List.getElem?_append] at hi
    split_ifs at hi with hlt
    · rw [List.getElem?_append_left (hji.trans hlt)] at hj
      exact h.passed i a hi hstage j b hji hj
    · rw [List.getElem?_singleton] at hi
      split_ifs at hi
      cases hi
      exact absurd rfl hstage

end Chain

section Gate

/-- The counters of a gate agree, an aborted gate is paused, and the promises it has resolved are
promises it has made. -/
structure GateOk (g : LinkRadioGate) : Prop where
  counts : g.activeSends = g.onAir + g.settled
  aborted : g.abortedReason ≠ none → g.paused = true
  resolved : ∀ p ∈ g.resolved, p < g.promises
  drain_lt : ∀ p, g.drainPromise = some p → p < g.promises
  drain_eq : g.resolveDrain = g.drainPromise

/-- What the gate is like while an application waits at a stage. -/
def StageOk (g : LinkRadioGate) : ApplicationStage → Prop
  | .draining _ promise =>
    g.paused = true ∧ g.drainPromise = some promise ∧ (promise ∈ g.resolved → g.activeSends = 0)
  | .suspended _ none | .applying _ | .applied _ _ => g.paused = true ∧ g.activeSends = 0
  | _ => True

/-- The gate goes from `g` to `g'` while applications wait. -/
structure GateMoves (g g' : LinkRadioGate) : Prop where
  ok : GateOk g'
  stages : ∀ stage, StageOk g stage → StageOk g' stage
  drain : g'.drainPromise = g.drainPromise
  paused : g.paused = true → g'.paused = true
  aborted : g.abortedReason ≠ none → g'.abortedReason ≠ none

variable {g : LinkRadioGate}

theorem send_moves (h : GateOk g) (hpaused : g.paused = false) :
    GateMoves g { g with activeSends := g.activeSends + 1, onAir := g.onAir + 1 } where
  ok := { h with counts := by have := h.counts; dsimp only; omega }
  stages := by
    intro stage hstage
    unfold StageOk at hstage ⊢
    split at hstage
    all_goals first | trivial | (rw [hpaused] at hstage; exact absurd hstage.1 Bool.false_ne_true)
  drain := rfl
  paused := id
  aborted := id

theorem settle_moves (h : GateOk g) (hair : g.onAir ≠ 0) : GateMoves g g.settle where
  ok := { h with
    counts := by
      have := h.counts
      show g.activeSends = g.onAir - 1 + (g.settled + 1)
      omega }
  stages := fun _ => id
  drain := rfl
  paused := id
  aborted := id

/-- A promise is resolved when no send is active any more. -/
theorem resolve_moves (h : GateOk g) (hactive : g.activeSends = 0) :
    GateMoves g (g.resolve g.resolveDrain) where
  ok := { h with
    resolved := by
      intro p hp
      rcases List.mem_append.1 hp with hp | hp
      · rw [h.drain_eq, Option.mem_toList] at hp
        exact h.drain_lt p hp
      · exact h.resolved p hp }
  stages := by
    intro stage hstage
    unfold StageOk at hstage ⊢
    split at hstage
    · exact ⟨hstage.1, hstage.2.1, fun _ => hactive⟩
    all_goals exact hstage
  drain := rfl
  paused := id
  aborted := id

theorem GateMoves.trans {g' g'' : LinkRadioGate} (h : GateMoves g g') (h' : GateMoves g' g'') :
    GateMoves g g'' where
  ok := h'.ok
  stages := fun stage hstage => h'.stages stage (h.stages stage hstage)
  drain := h'.drain.trans h.drain
  paused := fun hpaused => h'.paused (h.paused hpaused)
  aborted := fun haborted => h'.aborted (h.aborted haborted)

theorem finishSend_moves (h : GateOk g) (hsettled : g.settled ≠ 0) : GateMoves g g.finishSend := by
  have hcounts := h.counts
  have hmoves : GateMoves g
      { g with activeSends := g.activeSends - 1, settled := g.settled - 1 } :=
    { ok := { h with counts := by dsimp only; omega }
      stages := by
        intro stage hstage
        unfold StageOk at hstage ⊢
        split at hstage
        · refine ⟨hstage.1, hstage.2.1, fun hp => ?_⟩
          have := hstage.2.2 hp
          dsimp only
          omega
        · exact ⟨hstage.1, by dsimp only; omega⟩
        · exact ⟨hstage.1, by dsimp only; omega⟩
        · exact ⟨hstage.1, by dsimp only; omega⟩
        · exact hstage
      drain := rfl
      paused := id
      aborted := id }
  unfold LinkRadioGate.finishSend
  dsimp only
  split_ifs with hzero
  · exact hmoves.trans (resolve_moves hmoves.ok hzero)
  · exact hmoves

theorem abort_moves (h : GateOk g) (reason : String) : GateMoves g (g.abort reason) := by
  unfold LinkRadioGate.abort
  split
  · exact ⟨h, fun _ => id, rfl, id, id⟩
  · have hmoves : GateMoves g { g with abortedReason := some reason, paused := true } :=
      { ok := { h with aborted := fun _ => rfl }
        stages := by
          intro stage hstage
          unfold StageOk at hstage ⊢
          split at hstage
          · exact ⟨rfl, hstage.2⟩
          · exact ⟨rfl, hstage.2⟩
          · exact ⟨rfl, hstage.2⟩
          · exact ⟨rfl, hstage.2⟩
          · exact hstage
        drain := rfl
        paused := fun _ => rfl
        aborted := fun _ => Option.some_ne_none reason }
    dsimp only
    split_ifs with hzero
    · exact hmoves.trans (resolve_moves hmoves.ok hzero)
    · exact hmoves

theorem abort_aborted (g : LinkRadioGate) (reason : String) :
    (g.abort reason).abortedReason ≠ none ∧ (GateOk g → (g.abort reason).paused = true) := by
  unfold LinkRadioGate.abort
  split
  · rename_i h
    exact ⟨by simp [h], fun hok => hok.aborted (by simp [h])⟩
  · dsimp only
    split_ifs <;> exact ⟨Option.some_ne_none reason, fun _ => rfl⟩

end Gate

section History

/-- The profile manager has rejected a profile since the last application that succeeded. -/
def Blocked : List RadioEvent → Prop
  | [] => False
  | .applyRejected _ :: _ => True
  | .profileApplied _ :: _ => False
  | _ :: earlier => Blocked earlier

/-- The profile manager has been called by an application and is not done. -/
def Pending (application : ℕ) : List RadioEvent → Prop
  | [] => False
  | .applyStarted i :: earlier => i = application ∨ Pending application earlier
  | .applyResolved i :: earlier | .applyRejected i :: earlier =>
    i ≠ application ∧ Pending application earlier
  | _ :: earlier => Pending application earlier

def Ended (history : List RadioEvent) : Prop := .linkError ∈ history ∨ .stopped ∈ history

theorem Ended.of_cons {event : RadioEvent} {earlier : List RadioEvent}
    (h : Ended (event :: earlier)) (hevent : event ≠ .linkError ∧ event ≠ .stopped) :
    Ended earlier := by
  rcases h with h | h
  · exact .inl ((List.mem_cons.1 h).resolve_left hevent.1.symm)
  · exact .inr ((List.mem_cons.1 h).resolve_left hevent.2.symm)

/-- Sends start where nothing forbids it. -/
def Orderly : List RadioEvent → Prop
  | [] => True
  | .sendStarted :: earlier =>
    ¬ Blocked earlier ∧ ¬ Ended earlier ∧ (∀ i, ¬ Pending i earlier) ∧ Orderly earlier
  | _ :: earlier => Orderly earlier

end History

/-- What holds of the radio at all times. -/
structure RadioOk (v : RadioView) : Prop where
  chain : Chain v
  gate : GateOk v.gate
  stages : ∀ (i : ℕ) (a : Application), v.applications[i]? = some a → StageOk v.gate a.stage
  drain : ∀ p, v.gate.drainPromise = some p →
    ∃ (i : ℕ) (a : Application) (run : ProfileRun), v.applications[i]? = some a ∧
      a.stage = .draining run p
  blocked : Blocked v.history → v.gate.paused = true
  ended : Ended v.history → v.gate.abortedReason ≠ none
  pending : ∀ i, Pending i v.history →
    ∃ (a : Application) (run : ProfileRun), v.applications[i]? = some a ∧ a.stage = .applying run
  orderly : Orderly v.history

section Steps

variable {v : RadioView} {i : ℕ} {a : Application}

/-- What happens at the gate alone, and an event of it that concerns no application. -/
theorem RadioOk.gate_moves (h : RadioOk v) {g' : LinkRadioGate} (hg : GateMoves v.gate g') :
    RadioOk { v with gate := g' } where
  chain := ⟨h.chain.tail, h.chain.links, h.chain.released, h.chain.passed⟩
  gate := hg.ok
  stages := fun i a hi => hg.stages _ (h.stages i a hi)
  drain := fun p hp => h.drain p (hg.drain ▸ hp)
  blocked := fun hb => hg.paused (h.blocked hb)
  ended := fun he => hg.aborted (h.ended he)
  pending := h.pending
  orderly := h.orderly

/-- The one application that is due goes to its next stage, with what that does to the gate. -/
theorem RadioOk.move (h : RadioOk v) (hi : v.applications[i]? = some a) (hdue : Due v a)
    (stage : ApplicationStage) (history : List RadioEvent) {g' : LinkRadioGate} (hg : GateOk g')
    (hstage : StageOk g' stage)
    (hdrain : ∀ p, g'.drainPromise = some p → ∃ run, stage = .draining run p)
    (hblocked : Blocked history → g'.paused = true)
    (hended : Ended history → g'.abortedReason ≠ none)
    (hpending : ∀ j, Pending j history → j = i ∧ ∃ run, stage = .applying run)
    (horderly : Orderly history) :
    RadioOk { v.setStage i stage with gate := g', history := history } where
  chain := by
    have hset := h.chain.setStage hi hdue stage
    exact ⟨hset.tail, hset.links, hset.released, hset.passed⟩
  gate := hg
  stages := by
    intro j b hj
    rcases RadioView.of_setStage hj with ⟨hji, hj'⟩ | ⟨rfl, a', -, rfl⟩
    · rcases h.chain.others hi hdue hj' hji with hb | hb <;> rw [hb] <;> trivial
    · exact hstage
  drain := by
    intro p hp
    obtain ⟨run, hrun⟩ := hdrain p hp
    exact ⟨i, _, run, RadioView.setStage_self stage hi, hrun⟩
  blocked := hblocked
  ended := hended
  pending := by
    intro j hj
    obtain ⟨rfl, run, hrun⟩ := hpending j hj
    exact ⟨_, run, RadioView.setStage_self stage hi, hrun⟩
  orderly := horderly

theorem RadioOk.not_draining (h : RadioOk v) (hi : v.applications[i]? = some a) (hdue : Due v a)
    (hstage : ∀ run p, a.stage ≠ .draining run p) : v.gate.drainPromise = none := by
  rcases hp : v.gate.drainPromise with _ | p
  · rfl
  · obtain ⟨j, b, run, hj, hb⟩ := h.drain p hp
    by_cases hji : j = i
    · subst hji
      rw [hi] at hj
      cases hj
      exact absurd hb (hstage run p)
    · rcases h.chain.others hi hdue hj hji with hqueued | hreleased
      · rw [hb] at hqueued
        cases hqueued
      · rw [hb] at hreleased
        cases hreleased

theorem RadioOk.of_pending (h : RadioOk v) (hi : v.applications[i]? = some a) (hdue : Due v a)
    {j : ℕ} (hj : Pending j v.history) : j = i ∧ ∃ run, a.stage = .applying run := by
  obtain ⟨b, run, hb, hrun⟩ := h.pending j hj
  by_cases hji : j = i
  · subst hji
    rw [hi] at hb
    cases hb
    exact ⟨rfl, run, hrun⟩
  · rcases h.chain.others hi hdue hb hji with hqueued | hreleased
    · rw [hrun] at hqueued
      cases hqueued
    · rw [hrun] at hreleased
      cases hreleased

theorem RadioOk.no_drain (h : RadioOk v) (hi : v.applications[i]? = some a) (hdue : Due v a)
    (hstage : ∀ run p, a.stage ≠ .draining run p) {stage : ApplicationStage} (p : ℕ)
    (hp : v.gate.drainPromise = some p) : ∃ run, stage = .draining run p := by
  rw [h.not_draining hi hdue hstage] at hp
  cases hp

theorem RadioOk.no_pending (h : RadioOk v) (hi : v.applications[i]? = some a) (hdue : Due v a)
    (hstage : ∀ run, a.stage ≠ .applying run) {stage : ApplicationStage} (j : ℕ)
    (hj : Pending j v.history) : j = i ∧ ∃ run, stage = .applying run := by
  obtain ⟨-, run, hrun⟩ := h.of_pending hi hdue hj
  exact absurd hrun (hstage run)

/-- A step of an application that leaves the gate alone. -/
theorem RadioOk.setStage (h : RadioOk v) (hi : v.applications[i]? = some a) (hdue : Due v a)
    (stage : ApplicationStage) (hold : ∀ run p, a.stage ≠ .draining run p)
    (happlying : ∀ run, a.stage ≠ .applying run) (hstage : StageOk v.gate stage) :
    RadioOk (v.setStage i stage) :=
  h.move hi hdue _ _ h.gate hstage (h.no_drain hi hdue hold) h.blocked h.ended
    (h.no_pending hi hdue happlying) h.orderly

theorem suspend_gateOk {g : LinkRadioGate} (h : GateOk g) (hdrain : g.drainPromise = none) :
    GateOk g.suspend.1 ∧
      match g.suspend.2 with
      | .rejected _ => g.suspend.1 = g
      | .passed => g.suspend.1 = { g with paused := true } ∧ g.activeSends = 0
      | .draining promise => g.suspend.1.paused = true ∧ g.suspend.1.drainPromise = some promise ∧
        promise ∉ g.suspend.1.resolved ∧ g.suspend.1.abortedReason = g.abortedReason := by
  unfold LinkRadioGate.suspend
  split
  · exact ⟨h, rfl⟩
  · dsimp only
    split_ifs with hactive
    · exact ⟨{ h with aborted := fun _ => rfl }, rfl, hactive⟩
    · rw [hdrain]
      refine ⟨⟨h.counts, fun _ => rfl, fun p hp => ?_, ?_, rfl⟩, rfl, rfl, fun hp => ?_, rfl⟩
      · exact (h.resolved p hp).trans (Nat.lt_succ_self _)
      · rintro p ⟨⟩
        exact Nat.lt_succ_self _
      · exact lt_irrefl _ (h.resolved _ hp)

theorem resume_gateOk {g : LinkRadioGate} (h : GateOk g) :
    GateOk g.resume ∧ g.resume.drainPromise = g.drainPromise ∧
      g.resume.abortedReason = g.abortedReason := by
  unfold LinkRadioGate.resume
  split
  · exact ⟨h, rfl, rfl⟩
  · rename_i hnone
    exact ⟨{ h with aborted := fun hsome => absurd hnone hsome }, rfl, rfl⟩

variable {options : LinkServiceOptions} {failure : SubscriptionTransition → Option String}
  {s : LinkService}

@[simp]
theorem setStage_radio (stage : ApplicationStage) :
    (s.setStage i stage).radio = s.radio.setStage i stage := rfl

theorem failApply_radio (run : ProfileRun) (error : String) :
    (s.failApply i run error).radio = s.radio.setStage i .finished := by
  unfold LinkService.failApply
  dsimp only
  split_ifs
  · rw [setStage_radio, LinkService.setLifecycle_radio]
    rfl
  · rfl

theorem succeedApply_radio (run : ProfileRun) :
    (s.succeedApply options failure i run).radio =
      { s.radio.setStage i .finished with
        gate := s.gate.resume
        history := .profileApplied i :: s.history } := by
  unfold LinkService.succeedApply
  dsimp only
  set s₁ : LinkService := { s with profileApplyActive := false, gate := s.gate.resume }
  have hresumed : (s₁.setLifecycle (LinkService.resumedLifecycle run) none).radio =
      { s.radio with gate := s.gate.resume } := LinkService.setLifecycle_radio s₁ _ _
  have hnoted : ∀ s₂ : LinkService, s₂.radio = { s.radio with gate := s.gate.resume } →
      (((s₂.scheduleRenewalIfNeeded options).setStage i .finished).note (.profileApplied i)).radio =
        { s.radio.setStage i .finished with
          gate := s.gate.resume
          history := .profileApplied i :: s.history } := by
    intro s₂ hs₂
    have hscheduled := (LinkService.radio_of_rest
      (LinkService.scheduleRenewalIfNeeded_rest options s₂)).trans hs₂
    exact congrArg (fun v : RadioView =>
      { v.setStage i .finished with history := .profileApplied i :: v.history }) hscheduled
  split_ifs
  · exact hnoted _ ((LinkService.activateTransport_radio options failure _).trans hresumed)
  · exact hnoted _ hresumed

theorem beginApply_radioOk (h : RadioOk s.radio) (hi : s.applications[i]? = some a)
    (hdue : Due s.radio a) (hstage : a.stage = .queued) :
    RadioOk (s.beginApply options i).radio := by
  have hmove : ∀ stage, StageOk s.gate stage → RadioOk (s.radio.setStage i stage) := fun stage =>
    h.setStage hi hdue _ (by simp [hstage]) (by simp [hstage])
  unfold LinkService.beginApply
  dsimp only
  split_ifs
  · exact hmove .finished trivial
  · rw [setStage_radio, LinkService.setLifecycle_radio]
    exact hmove .finished trivial
  · rw [setStage_radio, LinkService.setLifecycle_radio]
    exact hmove (.pausing _) trivial

theorem suspendGate_radioOk (h : RadioOk s.radio) (hi : s.applications[i]? = some a)
    (hdue : Due s.radio a) {run : ProfileRun} (hstage : a.stage = .pausing run) :
    RadioOk (s.suspendGate i run).radio := by
  have hnone := h.not_draining hi hdue (by simp [hstage])
  have hpending := @RadioOk.no_pending s.radio i a h hi hdue (by simp [hstage])
  have hquiet := @RadioOk.no_drain s.radio i a h hi hdue (by simp [hstage])
  obtain ⟨hok, hresult⟩ := suspend_gateOk h.gate hnone
  unfold LinkService.suspendGate
  rcases hsuspend : s.gate.suspend with ⟨g', error | _ | promise⟩ <;> dsimp only <;>
    rw [show s.radio.gate.suspend = _ from hsuspend] at hok hresult
  · obtain rfl : g' = s.gate := hresult
    exact h.move hi hdue (.suspended run (some error)) _ hok trivial hquiet h.blocked h.ended
      hpending h.orderly
  · obtain ⟨rfl, hactive⟩ := hresult
    exact h.move hi hdue (.suspended run none) _ hok ⟨rfl, hactive⟩ hquiet (fun _ => rfl)
      h.ended hpending h.orderly
  · obtain ⟨hpaused, hdrain, hnot, haborted⟩ := hresult
    refine h.move hi hdue (.draining run promise) _ hok
      ⟨hpaused, hdrain, fun hp => absurd hp hnot⟩ (fun p hp => ?_) (fun _ => hpaused)
      (fun hended => haborted ▸ h.ended hended) hpending h.orderly
    obtain rfl : p = promise := Option.some.inj (hp.symm.trans hdrain)
    exact ⟨run, rfl⟩

theorem drained_radioOk (h : RadioOk s.radio) (hi : s.applications[i]? = some a)
    (hdue : Due s.radio a) {run : ProfileRun} {promise : ℕ}
    (hstage : a.stage = .draining run promise) (hresolved : promise ∈ s.gate.resolved) :
    RadioOk ({ s with gate := s.gate.drained }.setStage i (.suspended run none)).radio := by
  have hok := h.stages i a hi
  rw [hstage] at hok
  have hgate : GateOk s.gate.drained :=
    { h.gate with drain_lt := by rintro p ⟨⟩, drain_eq := rfl }
  refine h.move hi hdue (.suspended run none) _ hgate ⟨hok.1, hok.2.2 hresolved⟩ ?_ h.blocked
    h.ended (h.no_pending hi hdue (by simp [hstage])) h.orderly
  rintro p ⟨⟩

/-- The profile manager is called. -/
theorem startApply_radioOk (h : RadioOk s.radio) (hi : s.applications[i]? = some a)
    (hdue : Due s.radio a) {run : ProfileRun} (hstage : a.stage = .suspended run none) :
    RadioOk ((s.setStage i (.applying run)).note (.applyStarted i)).radio := by
  have hok := h.stages i a hi
  rw [hstage] at hok
  refine h.move hi hdue (.applying run) (.applyStarted i :: s.history) h.gate
    hok (h.no_drain hi hdue (by simp [hstage])) h.blocked (fun he => h.ended (he.of_cons (by simp)))
    (fun j hj => ?_) h.orderly
  rcases hj with rfl | hj
  · exact ⟨rfl, run, rfl⟩
  · exact h.no_pending hi hdue (by simp [hstage]) j hj

/-- The profile manager is done. -/
theorem endApply_radioOk (h : RadioOk s.radio) (hi : s.applications[i]? = some a)
    (hdue : Due s.radio a) {run : ProfileRun} (hstage : a.stage = .applying run)
    (error : Option String) :
    RadioOk ((s.setStage i (.applied run error)).note
      (if error.isSome then .applyRejected i else .applyResolved i)).radio := by
  have hok := h.stages i a hi
  rw [hstage] at hok
  have hdrain := @RadioOk.no_drain s.radio i a h hi hdue (by simp [hstage])
  have hover : ∀ j, i ≠ j → ¬ Pending j s.history := fun j hij hj =>
    hij (h.of_pending hi hdue hj).1.symm
  rcases error with _ | error
  · exact h.move hi hdue (.applied run none) (.applyResolved i :: s.history)
      h.gate hok hdrain h.blocked (fun he => h.ended (he.of_cons (by simp)))
      (fun j hj => absurd hj.2 (hover j hj.1)) h.orderly
  · exact h.move hi hdue (.applied run (some error)) (.applyRejected i :: s.history)
      h.gate hok hdrain (fun _ => hok.1) (fun he => h.ended (he.of_cons (by simp)))
      (fun j hj => absurd hj.2 (hover j hj.1)) h.orderly

theorem succeedApply_radioOk (h : RadioOk s.radio) (hi : s.applications[i]? = some a)
    (hdue : Due s.radio a) {run : ProfileRun} (hstage : a.stage = .applied run none) :
    RadioOk (s.succeedApply options failure i run).radio := by
  rw [succeedApply_radio]
  obtain ⟨hok, hdrain, haborted⟩ := resume_gateOk h.gate
  exact h.move hi hdue _ _ hok trivial
    (fun p hp => h.no_drain hi hdue (by simp [hstage]) p (hdrain.symm.trans hp)) False.elim
    (fun he => haborted ▸ h.ended (he.of_cons (by simp)))
    (h.no_pending hi hdue (by simp [hstage])) h.orderly

theorem release_radioOk (h : RadioOk s.radio) (hi : s.applications[i]? = some a)
    (hdue : Due s.radio a) (hstage : a.stage = .finished) :
    RadioOk ({ s with
      releasedPromises := a.release :: s.releasedPromises }.setStage i .released).radio := by
  have hmoved := h.setStage hi hdue .released (by simp [hstage]) (by simp [hstage])
    trivial
  exact { hmoved with chain := h.chain.release hi hdue }

theorem proceed_radioOk (h : RadioOk s.radio) (i : ℕ) (error : Option String) :
    RadioOk (s.proceed options failure i error).radio := by
  unfold LinkService.proceed
  split
  · exact h
  rename_i a hi
  have hfail : ∀ {run : ProfileRun} {error : String}, Due s.radio a →
      (∀ run p, a.stage ≠ .draining run p) → (∀ run, a.stage ≠ .applying run) →
        RadioOk (s.failApply i run error).radio := by
    intro run error hdue hdraining happlying
    rw [failApply_radio]
    exact h.setStage hi hdue _ hdraining happlying trivial
  split <;> rename_i hstage
  · split_ifs with hreleased
    · exact beginApply_radioOk h hi ⟨by simp [hstage], .inr hreleased⟩ hstage
    · exact h
  all_goals
    have hdue : Due s.radio a ∨ a.stage = .released := by
      by_cases hover : a.stage = .released
      · exact .inr hover
      · exact .inl ⟨hover, .inl (by simp [hstage])⟩
    rw [hstage] at hdue
    simp only [reduceCtorEq, or_false] at hdue
  · split
    · exact hfail hdue (by simp [hstage]) (by simp [hstage])
    · exact suspendGate_radioOk h hi hdue hstage
  · split_ifs with hresolved
    · exact drained_radioOk h hi hdue hstage hresolved
    · exact h
  · exact hfail hdue (by simp [hstage]) (by simp [hstage])
  · split_ifs
    · exact hfail hdue (by simp [hstage]) (by simp [hstage])
    · exact startApply_radioOk h hi hdue hstage
  · exact endApply_radioOk h hi hdue hstage error
  · exact hfail hdue (by simp [hstage]) (by simp [hstage])
  · split_ifs
    · exact hfail hdue (by simp [hstage]) (by simp [hstage])
    · exact succeedApply_radioOk h hi hdue hstage
  · exact release_radioOk h hi hdue hstage
  · exact h

theorem call_radioOk (h : RadioOk s.radio) : RadioOk (s.applyRadioProfile options).radio := by
  unfold LinkService.applyRadioProfile
  split_ifs
  · have hkept : ∀ {i : ℕ} {a : Application}, s.applications[i]? = some a →
        ∀ more, (s.applications ++ more)[i]? = some a := by
      intro i a hi more
      rw [List.getElem?_append_left (List.getElem?_eq_some_iff.1 hi).1, hi]
    exact {
      chain := h.chain.call s.profile
      gate := h.gate
      stages := by
        intro i a hi
        rw [show (LinkService.radio _).applications[i]? = (s.applications ++ _)[i]? from rfl,
          List.getElem?_append] at hi
        split_ifs at hi
        · exact h.stages i a hi
        · rw [List.getElem?_singleton] at hi
          split_ifs at hi
          cases hi
          trivial
      drain := by
        intro p hp
        obtain ⟨i, a, run, hi, hrun⟩ := h.drain p hp
        exact ⟨i, a, run, hkept hi _, hrun⟩
      blocked := h.blocked
      ended := h.ended
      pending := by
        intro i hi
        obtain ⟨a, run, ha, hrun⟩ := h.pending i hi
        exact ⟨a, run, hkept ha _, hrun⟩
      orderly := h.orderly }
  · exact h

@[simp]
theorem note_radio (event : RadioEvent) :
    (s.note event).radio = { s.radio with history := event :: s.radio.history } := rfl

/-- An event that concerns no application. -/
theorem RadioOk.tell {v : RadioView} (h : RadioOk v) (event : RadioEvent)
    (hblocked : Blocked (event :: v.history) → Blocked v.history)
    (hended : Ended (event :: v.history) → v.gate.abortedReason ≠ none)
    (hpending : ∀ i, Pending i (event :: v.history) → Pending i v.history)
    (horderly : Orderly (event :: v.history)) :
    RadioOk { v with history := event :: v.history } where
  chain := ⟨h.chain.tail, h.chain.links, h.chain.released, h.chain.passed⟩
  gate := h.gate
  stages := h.stages
  drain := h.drain
  blocked := fun hb => h.blocked (hblocked hb)
  ended := hended
  pending := fun i hi => h.pending i (hpending i hi)
  orderly := horderly

theorem send_open {g g' : LinkRadioGate} (h : g.send = (g', none)) :
    g.abortedReason = none ∧ g.paused = false ∧
      g' = { g with activeSends := g.activeSends + 1, onAir := g.onAir + 1 } := by
  unfold LinkRadioGate.send at h
  split at h
  · cases h
  · rename_i haborted
    split_ifs at h with hpaused
    · simp at h
    · exact ⟨haborted, by simpa using hpaused, (Prod.mk.inj h).1.symm⟩

/-- A send starts where the gate is open, and there nothing forbids it. -/
theorem send_radioOk (h : RadioOk s.radio) : RadioOk s.send.radio := by
  unfold LinkService.send
  split
  · exact h
  · rename_i g' hsend
    obtain ⟨haborted, hopen, rfl⟩ := send_open hsend
    have hfree : ∀ i, ¬ Pending i s.history := by
      intro i hi
      obtain ⟨a, run, ha, hrun⟩ := h.pending i hi
      have hok := h.stages i a ha
      rw [hrun] at hok
      exact absurd (hok.1.symm.trans hopen) (by simp)
    have hunblocked : ¬ Blocked s.history := fun hb =>
      absurd ((h.blocked hb).symm.trans hopen) (by simp)
    have hgoing : ¬ Ended s.history := fun he => h.ended he haborted
    exact (h.gate_moves (send_moves h.gate hopen)).tell .sendStarted id
      (fun he => absurd (he.of_cons (by simp)) hgoing) (fun _ => id)
      ⟨hunblocked, hgoing, hfree, h.orderly⟩

theorem settleSend_radioOk (h : RadioOk s.radio) : RadioOk s.settleSend.radio := by
  unfold LinkService.settleSend
  split_ifs with hair
  · exact h
  · exact (h.gate_moves (settle_moves h.gate hair)).tell .sendSettled id
      (fun he => h.ended (he.of_cons (by simp))) (fun _ => id) h.orderly

theorem finishSend_radioOk (h : RadioOk s.radio) : RadioOk s.finishSend.radio := by
  unfold LinkService.finishSend
  split_ifs with hsettled
  · exact h
  · exact h.gate_moves (finishSend_moves h.gate hsettled)

/-- The end of the link, which aborts the gate. -/
theorem RadioOk.endLink {v : RadioView} (h : RadioOk v) (reason : String) {event : RadioEvent}
    (hevent : event = .linkError ∨ event = .stopped) :
    RadioOk { v with gate := v.gate.abort reason, history := event :: v.history } := by
  have hmoved := h.gate_moves (abort_moves h.gate reason)
  have haborted := (abort_aborted v.gate reason).1
  rcases hevent with rfl | rfl
  · exact hmoved.tell _ id (fun _ => haborted) (fun _ => id) hmoved.orderly
  · exact hmoved.tell _ id (fun _ => haborted) (fun _ => id) hmoved.orderly

theorem abortGate_radio (hgate : options.radioGate = true) (reason : String) :
    (s.abortGate options reason).radio = { s.radio with gate := s.radio.gate.abort reason } := by
  unfold LinkService.abortGate
  rw [if_pos hgate]
  rfl

theorem handleLinkError_radioOk (hgate : options.radioGate = true) (h : RadioOk s.radio)
    (reason : String) : RadioOk (s.handleLinkError options reason).radio := by
  unfold LinkService.handleLinkError
  dsimp only
  split_ifs
  · exact h
  · rw [note_radio, LinkService.setLifecycle_radio, abortGate_radio hgate]
    exact h.endLink reason (.inl rfl)

theorem stop_radioOk (hgate : options.radioGate = true) (h : RadioOk s.radio) :
    RadioOk (s.stop options failure).radio := by
  unfold LinkService.stop
  dsimp only
  split_ifs
  · exact h
  · rw [note_radio, LinkService.setLifecycle_radio, abortGate_radio hgate,
      LinkService.radio_of_rest (LinkService.dispatchAll_rest options failure _ _)]
    exact h.endLink _ (.inr rfl)
  · rw [note_radio, LinkService.setLifecycle_radio, abortGate_radio hgate]
    exact h.endLink _ (.inr rfl)

theorem step_radioOk (hgate : options.radioGate = true) (h : RadioOk s.radio)
    (step : LinkServiceStep) : RadioOk (step.run options s).radio := by
  cases step with
  | updateLocalSubscription clientID action selector failure =>
    have hrest := LinkService.updateLocalSubscription_rest options failure s clientID action
      selector
    exact (LinkService.radio_of_rest hrest).symm ▸ h
  | disconnectClient clientID failure =>
    have hrest := LinkService.disconnectClient_rest options failure s clientID
    exact (LinkService.radio_of_rest hrest).symm ▸ h
  | expireClientLease clientID failure =>
    have hrest := LinkService.expireClientLease_rest options failure s clientID
    exact (LinkService.radio_of_rest hrest).symm ▸ h
  | fireRenewal failure =>
    have hrest := LinkService.fireRenewal_rest options failure s
    exact (LinkService.radio_of_rest hrest).symm ▸ h
  | attachTransport node gatewayNode failure =>
    exact (LinkService.attachTransport_radio options failure s node gatewayNode).symm ▸ h
  | setJoiningLifecycle active detail =>
    unfold LinkServiceStep.run LinkService.setJoiningLifecycle
    dsimp only
    split_ifs
    · exact h
    · exact (LinkService.setLifecycle_radio s _ _).symm ▸ h
    · exact (LinkService.setLifecycle_radio s _ _).symm ▸ h
  | radioDisconnected reason => exact (LinkService.setLifecycle_radio s _ _).symm ▸ h
  | linkError reason => exact handleLinkError_radioOk hgate h reason
  | stop failure => exact stop_radioOk hgate h
  | replaceProfile profile =>
    unfold LinkServiceStep.run
    dsimp only
    split_ifs <;> exact h
  | applyRadioProfile => exact call_radioOk h
  | proceed application error failure => exact proceed_radioOk h application error
  | send => exact send_radioOk h
  | settleSend => exact settleSend_radioOk h
  | finishSend => exact finishSend_radioOk h

theorem new_radioOk (profile : String) : RadioOk (LinkService.new options profile).radio where
  chain := ⟨rfl, by simp [LinkService.radio, LinkService.new], by
    simp [LinkService.radio, LinkService.new], by simp [LinkService.radio, LinkService.new]⟩
  gate := ⟨rfl, fun h => absurd rfl h, by simp [LinkService.radio, LinkService.new,
    LinkRadioGate.new], by simp [LinkService.radio, LinkService.new, LinkRadioGate.new], rfl⟩
  stages := by simp [LinkService.radio, LinkService.new]
  drain := by simp [LinkService.radio, LinkService.new, LinkRadioGate.new]
  blocked := False.elim
  ended := by simp [LinkService.radio, LinkService.new, Ended]
  pending := fun _ => False.elim
  orderly := trivial

theorem ServiceReachable.radioOk (hgate : options.radioGate = true)
    (h : ServiceReachable options s) : RadioOk s.radio := by
  induction h with
  | new profile => exact new_radioOk profile
  | step step _ ih => exact step_radioOk hgate ih step

end Steps

section Reading

theorem blocked_of_split {application : ℕ} {earlier : List RadioEvent} :
    ∀ mid : List RadioEvent, (∀ j, .profileApplied j ∉ mid) →
      Blocked (mid ++ .applyRejected application :: earlier)
  | [], _ => trivial
  | event :: mid, h => by
    have ih := @blocked_of_split application earlier mid fun j hj =>
      h j (List.mem_cons_of_mem _ hj)
    cases event with
    | profileApplied j => exact absurd List.mem_cons_self (h j)
    | applyRejected j => trivial
    | _ => exact ih

theorem pending_of_split {application : ℕ} {earlier : List RadioEvent} :
    ∀ mid : List RadioEvent, .applyResolved application ∉ mid → .applyRejected application ∉ mid →
      Pending application (mid ++ .applyStarted application :: earlier)
  | [], _, _ => .inl rfl
  | event :: mid, hresolved, hrejected => by
    have ih := @pending_of_split application earlier mid
      (fun h => hresolved (List.mem_cons_of_mem _ h)) fun h => hrejected (List.mem_cons_of_mem _ h)
    cases event with
    | applyStarted j => exact .inr ih
    | applyResolved j => exact ⟨by rintro rfl; exact hresolved List.mem_cons_self, ih⟩
    | applyRejected j => exact ⟨by rintro rfl; exact hrejected List.mem_cons_self, ih⟩
    | _ => exact ih

theorem Orderly.of_append {earlier : List RadioEvent} :
    ∀ later : List RadioEvent, Orderly (later ++ earlier) → Orderly earlier
  | [], h => h
  | event :: later, h => by
    cases event with
    | sendStarted => exact of_append later h.2.2.2
    | _ => exact of_append later h

end Reading

/-- Reconfiguring the radio and transmitting exclude each other. -/
theorem radio_exclusion {options : LinkServiceOptions} (hgate : options.radioGate = true)
    {s : LinkService} (h : ServiceReachable options s) :
    (∀ (i j : ℕ) (a b : Application) (run run' : ProfileRun), s.applications[i]? = some a →
      s.applications[j]? = some b → a.stage = .applying run → b.stage = .applying run' → i = j) ∧
    (∀ (i : ℕ) (a : Application) (run : ProfileRun), s.applications[i]? = some a →
      a.stage = .applying run → s.gate.onAir = 0 ∧ s.gate.send.2 ≠ none) ∧
    (∀ (later mid earlier : List RadioEvent) (i : ℕ),
      s.history = later ++ .sendStarted :: (mid ++ .applyStarted i :: earlier) →
        .applyResolved i ∈ mid ∨ .applyRejected i ∈ mid) ∧
    (∀ (later mid earlier : List RadioEvent) (i : ℕ),
      s.history = later ++ .sendStarted :: (mid ++ .applyRejected i :: earlier) →
        ∃ j, .profileApplied j ∈ mid) ∧
    ∀ later earlier : List RadioEvent, s.history = later ++ .sendStarted :: earlier →
      .linkError ∉ earlier ∧ .stopped ∉ earlier := by
  have hok := h.radioOk hgate
  have hsend : ∀ {later earlier : List RadioEvent}, s.history = later ++ .sendStarted :: earlier →
      ¬ Blocked earlier ∧ ¬ Ended earlier ∧ ∀ i, ¬ Pending i earlier := by
    intro later earlier heq
    have horderly : Orderly s.history := hok.orderly
    rw [heq] at horderly
    obtain ⟨hb, he, hp, -⟩ := horderly.of_append later
    exact ⟨hb, he, hp⟩
  refine ⟨?_, ?_, ?_, ?_, ?_⟩
  · intro i j a b run run' hi hj ha hb
    exact (hok.chain.unique hi hj (by simp [ha]) (by simp [hb])).symm
  · intro i a run hi ha
    have hstage := hok.stages i a hi
    rw [ha] at hstage
    refine ⟨?_, fun hnone => ?_⟩
    · have hcounts := hok.gate.counts
      have hactive := hstage.2
      dsimp only [LinkService.radio] at hcounts hactive
      omega
    · have hopen := (@send_open _ s.gate.send.1 (Prod.ext rfl hnone)).2.1
      exact absurd (hstage.1.symm.trans hopen) (by simp)
  · intro later mid earlier i heq
    by_contra hnot
    rw [not_or] at hnot
    exact (hsend heq).2.2 i (pending_of_split mid hnot.1 hnot.2)
  · intro later mid earlier i heq
    by_contra hnot
    exact (hsend heq).1 (blocked_of_split mid fun j hj => hnot ⟨j, hj⟩)
  · intro later earlier heq
    have hended := (hsend heq).2.1
    exact ⟨fun he => hended (.inl he), fun he => hended (.inr he)⟩

theorem ServiceReachable.run {options : LinkServiceOptions} :
    ∀ (steps : List LinkServiceStep) {s : LinkService}, ServiceReachable options s →
      ServiceReachable options (steps.foldl (LinkServiceStep.run options) s)
  | [], _, h => h
  | next :: steps, _, h => run steps (h.step next)

section Draining

def assetOptions : LinkServiceOptions := ⟨.asset, "uav-1", true, true, false, none⟩

def attached : LinkServiceStep :=
  .attachTransport ⟨.asset, "uav-1"⟩ (some ⟨.gateway, "gw"⟩) fun _ => none

def proceeded : LinkServiceStep := .proceed 0 none fun _ => none

/-- A profile is applied while a send is on air, for the end of which the application waits. -/
def drained : LinkService :=
  [attached, .send, .applyRadioProfile, proceeded, proceeded, .settleSend, .finishSend, proceeded,
    proceeded].foldl (LinkServiceStep.run assetOptions) (.new assetOptions "long-range")

theorem radio_exclusion_drained : drained.gate.onAir = 0 ∧ drained.gate.send.2 ≠ none :=
  (@radio_exclusion assetOptions rfl _ (ServiceReachable.run _ (.new "long-range"))).2.1 0
    ⟨"long-range", 0, 1, .applying ⟨1, .active, true⟩⟩ ⟨1, .active, true⟩ (by decide +kernel) rfl

end Draining

end Atlas.Link
