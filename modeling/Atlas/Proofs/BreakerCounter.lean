import Atlas.Proofs.BreakerHistory

/-!
# Circuit breakers and counters

When attempts are resolved in the order in which they were completed, the history with its credits
comes to the same as a counter. When they are not, the order in which they are resolved makes no
difference, as long as no time is over.
-/

namespace Atlas.SourceGateway

open Connector

/-- A breaker that counts the failures since the last reachable response. -/
structure ReferenceBreaker where
  count : ℕ
  openUntil : ℕ
  deriving DecidableEq, Repr

namespace ReferenceBreaker

variable (settings : CircuitBreakerSettings)

def expire (now : ℕ) (r : ReferenceBreaker) : ReferenceBreaker :=
  if r.openUntil = 0 ∨ now < r.openUntil then r
  else ⟨r.count % settings.failures, 0⟩

def circuitOpen (now : ℕ) (r : ReferenceBreaker) : Bool :=
  now < (r.expire settings now).openUntil

def fail (observedAt : ℕ) (r : ReferenceBreaker) : ReferenceBreaker :=
  ⟨r.count + 1, if (r.count + 1) % settings.failures = 0 then observedAt + settings.openDuration
    else r.openUntil⟩

def step (r : ReferenceBreaker) : BreakerStep → ReferenceBreaker
  | .tryBeginAttempt expiredBefore _ now => if expiredBefore then r else r.expire settings now
  | .finishBreakerFailure observedAt _ _ => (r.expire settings observedAt).fail settings observedAt
  | .finishBreakerReachable _ _ _ => ⟨0, 0⟩
  | .discardBreakerAttempt _ => r
  | .circuitOpenWithClock now => r.expire settings now

end ReferenceBreaker

/-- A step resolves an attempt that was completed after those resolved before it. -/
def BreakerStep.InOrder (c : Connector) (last : BreakerOrder) (observed : ℕ) : BreakerStep → Prop
  | .finishBreakerFailure observedAt attempt order
  | .finishBreakerReachable observedAt attempt order =>
    attempt ∈ c.breakerAttempts ∧ order.after last = true ∧ observed ≤ observedAt
  | _ => True

def BreakerStep.completed (last : BreakerOrder) : BreakerStep → BreakerOrder
  | .finishBreakerFailure _ _ order | .finishBreakerReachable _ _ order => order
  | _ => last

def BreakerStep.observed (observed : ℕ) : BreakerStep → ℕ
  | .finishBreakerFailure observedAt _ _ | .finishBreakerReachable observedAt _ _ => observedAt
  | _ => observed

/-- Both breakers after the same steps, with the last completion and the last observation. -/
inductive OrderedRun (settings : CircuitBreakerSettings) :
    Connector → ReferenceBreaker → BreakerOrder → ℕ → Prop
  | new : OrderedRun settings .new ⟨0, 0⟩ ⟨0, 0⟩ 0
  | step {c : Connector} {r : ReferenceBreaker} {last : BreakerOrder} {observed : ℕ}
      (step : BreakerStep) : OrderedRun settings c r last observed → step.InOrder c last observed →
      OrderedRun settings (c.step settings step) (r.step settings step) (step.completed last)
        (step.observed observed)

section Appending

variable {settings : CircuitBreakerSettings} {failures : List BreakerFailure}
  {credits : List BreakerCredit} {failure : BreakerFailure}

theorem creditGroups_append {credit : BreakerCredit}
    (h : failure.order.after credit.through = true) : ∀ (groups credited : ℕ),
    creditGroups settings (failures ++ [failure]) credit groups credited =
      creditGroups settings failures credit groups credited
  | 0, _ => rfl
  | groups + 1, credited => by
    have hpos := settings.failures_pos
    unfold creditGroups
    simp only [List.length_append, List.length_singleton]
    rcases Nat.lt_or_ge failures.length (credited + settings.failures) with hshort | hfits
    · rw [if_neg (Nat.not_le.2 hshort)]
      split_ifs with hlength hstop
      · rfl
      · have hexact : credited + settings.failures = failures.length + 1 := by omega
        refine absurd (Bool.or_eq_true _ _ ▸ .inl (List.any_eq_true.2 ⟨failure, ?_, h⟩)) hstop
        rw [List.take_of_length_le (by simp; omega), List.drop_append_of_le_length (by omega)]
        exact List.mem_append_right _ (List.mem_singleton_self _)
      · rfl
    · rw [if_pos hfits, if_pos (Nat.le_succ_of_le hfits),
        List.drop_append_of_le_length (by omega), List.take_append_of_le_length (by simp; omega),
        creditGroups_append h groups]

/-- No credit is for a failure that is completed later. -/
theorem creditedCount_append (h : ∀ credit ∈ credits, failure.order.after credit.through = true) :
    creditedCount settings (failures ++ [failure]) credits =
      creditedCount settings failures credits := by
  unfold creditedCount
  generalize 0 = credited
  induction credits generalizing credited with
  | nil => rfl
  | cons credit credits ih =>
    rw [List.foldl_cons, List.foldl_cons, creditGroups_append (h credit List.mem_cons_self)]
    exact ih (fun other hmem => h other (List.mem_cons_of_mem _ hmem)) _

theorem openUntilGroups_append : ∀ (groups : ℕ) (failures : List BreakerFailure) (openUntil : ℕ),
    groups * settings.failures ≤ failures.length →
    openUntilGroups settings groups (failures ++ [failure]) openUntil =
      openUntilGroups settings groups failures openUntil
  | 0, _, _, _ => rfl
  | groups + 1, failures, openUntil, h => by
    rw [Nat.succ_mul] at h
    have hfits : settings.failures ≤ failures.length := by omega
    have hcandidate : candidate settings (failures ++ [failure]) 0 =
        candidate settings failures 0 := by
      unfold candidate
      rw [List.drop_zero, List.drop_zero, List.take_append_of_le_length hfits]
    rw [openUntilGroups_succ, openUntilGroups_succ, hcandidate,
      List.drop_append_of_le_length hfits]
    refine openUntilGroups_append groups _ _ ?_
    rw [List.length_drop]
    omega

theorem latestObservation_le {group : List BreakerFailure} {observed : ℕ}
    (h : ∀ failure ∈ group, failure.observedAt ≤ observed) :
    latestObservation group ≤ observed := by
  rcases group with - | ⟨failure, group⟩
  · exact Nat.zero_le _
  · obtain ⟨other, hmem, hle⟩ := exists_latestObservation (List.cons_ne_nil failure group)
    exact hle.trans (h other hmem)

theorem le_latestObservation {group : List BreakerFailure} (h : failure ∈ group) :
    failure.observedAt ≤ latestObservation group := by
  unfold latestObservation
  rw [List.foldl_eq_foldr]
  exact List.le_max_of_le' 0 (List.mem_map.2 ⟨failure, h, rfl⟩) le_rfl

/-- The last failure opens the breaker if it completes a group. -/
theorem opening_append (hlatest : ∀ other ∈ failures, other.observedAt ≤ failure.observedAt)
    (hcredits : ∀ credit ∈ credits, failure.order.after credit.through = true) :
    opening settings (failures ++ [failure]) credits =
      if (failures.length - creditedCount settings failures credits + 1) % settings.failures = 0
      then failure.observedAt + settings.openDuration else opening settings failures credits := by
  have hpos := settings.failures_pos
  have hle : creditedCount settings failures credits ≤ failures.length := creditedCount_le _
  split_ifs with hfull
  · refine le_antisymm ?_ ?_
    · by_cases hzero : opening settings (failures ++ [failure]) credits = 0
      · rw [hzero]
        exact Nat.zero_le _
      · obtain ⟨j, -, heq⟩ := opening_attained hzero
        rw [heq]
        refine Nat.add_le_add_right (latestObservation_le fun other hmem => ?_) _
        rcases List.mem_append.1 (List.mem_of_mem_drop (List.mem_of_mem_take hmem)) with hmem | hmem
        · exact hlatest other hmem
        · rw [List.mem_singleton.1 hmem]
    · obtain ⟨groups, hgroups⟩ := Nat.dvd_of_mod_eq_zero hfull
      obtain ⟨j, rfl⟩ : ∃ j, groups = j + 1 := Nat.exists_eq_succ_of_ne_zero fun hzero => by
        rw [hzero, Nat.mul_zero] at hgroups
        omega
      have hlast : j < ((failures ++ [failure]).length -
          creditedCount settings (failures ++ [failure]) credits) / settings.failures := by
        rw [creditedCount_append hcredits, List.length_append, List.length_singleton,
          Nat.sub_add_comm hle, hgroups, Nat.mul_div_cancel_left _ hpos]
        exact Nat.lt_succ_self j
      refine (Nat.add_le_add_right (le_latestObservation ?_) _).trans (candidate_le_opening hlast)
      rw [Nat.mul_succ, Nat.mul_comm] at hgroups
      rw [creditedCount_append hcredits, List.drop_append_of_le_length (by omega),
        List.take_of_length_le (by simp; omega)]
      exact List.mem_append_right _ (List.mem_singleton_self _)
  · unfold opening
    rw [creditedCount_append hcredits, List.length_append, List.length_singleton,
      List.drop_append_of_le_length hle, Nat.sub_add_comm hle, Nat.succ_div,
      if_neg fun hdvd => hfull (Nat.mod_eq_zero_of_dvd hdvd), Nat.add_zero]
    refine openUntilGroups_append _ _ _ ?_
    rw [List.length_drop]
    exact Nat.div_mul_le_self _ _

/-- Fewer failures than a group do not open the breaker. -/
theorem opening_of_lt (h : failures.length - creditedCount settings failures credits <
    settings.failures) : opening settings failures credits = 0 := by
  unfold opening
  rw [Nat.div_eq_of_lt h]
  rfl

end Appending

section Counting

variable {settings : CircuitBreakerSettings} {c : Connector} {r : ReferenceBreaker}
  {last : BreakerOrder} {observed : ℕ}

/-- How many failures are not credited. -/
def uncredited (settings : CircuitBreakerSettings) (c : Connector) : ℕ :=
  c.breakerFailures.length - creditedCount settings c.breakerFailures c.breakerCredits

/-- The breaker is open as long as the failures that are not credited say. -/
structure Opened (settings : CircuitBreakerSettings) (c : Connector) : Prop where
  inOrder : c.breakerFailures.Pairwise NotAfter
  opened : c.openUntil = opening settings c.breakerFailures c.breakerCredits

theorem Opened.current (h : Opened settings c) : Current settings c := ⟨h.inOrder, .inr h.opened⟩

variable (settings) in
theorem Opened.settle_recompute (c : Connector) : Opened settings
    ((c.settleExpiredBreakerGroupsLocked settings).recomputeBreakerLocked settings) := by
  rw [SourceGateway.settle_recompute]
  split_ifs with hattempts
  · exact ⟨(sorted_pairwise _).sublist (List.drop_sublist _ _), rfl⟩
  · exact ⟨sorted_pairwise _, rfl⟩

/-- What expiring does to the failures that are not credited. -/
theorem Opened.expire (h : Opened settings c) (now : ℕ) :
    Opened settings (c.expireBreakerLocked settings now) ∧
      (c.expireBreakerLocked settings now = c ∧ (c.openUntil = 0 ∨ now < c.openUntil) ∨
        (c.openUntil ≠ 0 ∧ c.openUntil ≤ now) ∧
          (c.expireBreakerLocked settings now).openUntil = 0 ∧
          uncredited settings (c.expireBreakerLocked settings now) =
            uncredited settings c % settings.failures) := by
  rcases expire_cases h.current now with ⟨heq, hskip⟩ | ⟨hopen, hover, -, last, -, hcount, heq⟩
  · rw [heq]
    exact ⟨h, .inl ⟨rfl, hskip⟩⟩
  · have hleft : c.breakerFailures.length - allCredited settings c =
        uncredited settings c % settings.failures := by
      have hdiv := Nat.div_add_mod (uncredited settings c) settings.failures
      unfold allCredited openGroups
      unfold uncredited at hdiv ⊢
      rw [Nat.mul_comm] at hdiv
      omega
    have hlt : _ < settings.failures := length_sub_allCredited_lt c
    rw [heq]
    split_ifs with hattempts
    · refine ⟨⟨h.inOrder.sublist (List.drop_sublist _ _), (opening_of_lt ?_).symm⟩,
        .inr ⟨⟨hopen, hover⟩, rfl, ?_⟩⟩
      · rw [List.length_drop]
        exact hlt
      · unfold uncredited
        rw [List.length_drop]
        exact hleft
    · refine ⟨⟨h.inOrder, (opening_of_lt ?_).symm⟩, .inr ⟨⟨hopen, hover⟩, rfl, ?_⟩⟩
      · simp only [hcount]
        exact hlt
      · unfold uncredited
        simp only [hcount]
        exact hleft

/-- The history comes to the same as the counter. -/
structure Follows (settings : CircuitBreakerSettings) (c : Connector) (r : ReferenceBreaker)
    (last : BreakerOrder) (observed : ℕ) : Prop where
  opened : Opened settings c
  same : c.openUntil = r.openUntil
  count : uncredited settings c % settings.failures = r.count % settings.failures
  before : ∀ failure ∈ c.breakerFailures, failure.order.after last = false
  through : ∀ credit ∈ c.breakerCredits, credit.through.after last = false
  lastReachable : c.lastReachable.after last = false
  observedAt : ∀ failure ∈ c.breakerFailures, failure.observedAt ≤ observed

theorem expire_records (h : Opened settings c) (now : ℕ) :
    (∀ failure ∈ (c.expireBreakerLocked settings now).breakerFailures,
        failure ∈ c.breakerFailures) ∧
      (∀ credit ∈ (c.expireBreakerLocked settings now).breakerCredits,
        credit ∈ c.breakerCredits ∨
          ∃ failure ∈ c.breakerFailures, credit.through = failure.order) ∧
      (c.expireBreakerLocked settings now).lastReachable = c.lastReachable := by
  rcases expire_cases h.current now with ⟨heq, -⟩ | ⟨-, -, -, last, hlast, -, heq⟩
  · rw [heq]
    exact ⟨fun _ hmem => hmem, fun _ hmem => .inl hmem, rfl⟩
  · rw [heq]
    split_ifs with hattempts
    · exact ⟨fun _ hmem => List.mem_of_mem_drop hmem, nofun, rfl⟩
    · refine ⟨fun _ hmem => hmem, fun credit hmem => ?_, rfl⟩
      rcases List.mem_append.1 hmem with hmem | hmem
      · exact .inl hmem
      · rw [List.mem_singleton.1 hmem]
        exact .inr ⟨last, List.mem_of_getElem? hlast, rfl⟩

variable (settings) in
theorem settle_recompute_inOrder (h : c.breakerFailures.Pairwise NotAfter) :
    ((c.settleExpiredBreakerGroupsLocked settings).recomputeBreakerLocked settings).openUntil =
        opening settings c.breakerFailures c.breakerCredits ∧
      uncredited settings
          ((c.settleExpiredBreakerGroupsLocked settings).recomputeBreakerLocked settings) =
        uncredited settings c := by
  rw [SourceGateway.settle_recompute, sorted_eq h]
  split_ifs with hattempts
  · unfold opening uncredited
    simp only [List.length_drop]
    exact ⟨rfl, rfl⟩
  · exact ⟨rfl, rfl⟩

variable (settings) in
theorem settle_recompute_records (c : Connector) :
    (∀ failure ∈ ((c.settleExpiredBreakerGroupsLocked settings).recomputeBreakerLocked
          settings).breakerFailures, failure ∈ c.breakerFailures) ∧
      (∀ credit ∈ ((c.settleExpiredBreakerGroupsLocked settings).recomputeBreakerLocked
          settings).breakerCredits, credit ∈ c.breakerCredits) ∧
      ((c.settleExpiredBreakerGroupsLocked settings).recomputeBreakerLocked
        settings).lastReachable = c.lastReachable := by
  rw [SourceGateway.settle_recompute]
  split_ifs with hattempts
  · exact ⟨fun _ hmem => (sorted_perm _).mem_iff.1 (List.mem_of_mem_drop hmem), nofun, rfl⟩
  · exact ⟨fun _ hmem => (sorted_perm _).mem_iff.1 hmem, fun _ hmem => hmem, rfl⟩

theorem Follows.expire (h : Follows settings c r last observed) (now : ℕ) :
    Follows settings (c.expireBreakerLocked settings now) (r.expire settings now) last
      observed := by
  obtain ⟨hopened, hcases⟩ := h.opened.expire now
  obtain ⟨hfailures, hcredits, hreachable⟩ := expire_records h.opened now
  have hrecords : (∀ failure ∈ (c.expireBreakerLocked settings now).breakerFailures,
        failure.order.after last = false) ∧
      (∀ credit ∈ (c.expireBreakerLocked settings now).breakerCredits,
        credit.through.after last = false) ∧
      (c.expireBreakerLocked settings now).lastReachable.after last = false ∧
      ∀ failure ∈ (c.expireBreakerLocked settings now).breakerFailures,
        failure.observedAt ≤ observed := by
    refine ⟨fun failure hmem => h.before failure (hfailures failure hmem), fun credit hmem => ?_,
      hreachable ▸ h.lastReachable, fun failure hmem => h.observedAt failure (hfailures _ hmem)⟩
    rcases hcredits credit hmem with hmem | ⟨failure, hmem, heq⟩
    · exact h.through credit hmem
    · rw [heq]
      exact h.before failure hmem
  unfold ReferenceBreaker.expire
  rw [← h.same]
  rcases hcases with ⟨heq, hskip⟩ | ⟨⟨hopen, hover⟩, hclosed, hcount⟩
  · rw [if_pos hskip, heq]
    exact h
  · rw [if_neg (by omega)]
    refine ⟨hopened, hclosed, ?_, hrecords.1, hrecords.2.1, hrecords.2.2.1, hrecords.2.2.2⟩
    rw [hcount, Nat.mod_mod, Nat.mod_mod]
    exact h.count

variable (settings) in
/-- A counter that expires before it counts a failure opens and counts like one that does so
after. -/
theorem ReferenceBreaker.fail_expire (r : ReferenceBreaker) (observedAt : ℕ) :
    ((r.fail settings observedAt).expire settings observedAt).openUntil =
        ((r.expire settings observedAt).fail settings observedAt).openUntil ∧
      ((r.fail settings observedAt).expire settings observedAt).count % settings.failures =
        ((r.expire settings observedAt).fail settings observedAt).count % settings.failures := by
  have hpos : 0 < settings.openDuration := by
    have := settings.openMS_pos
    unfold CircuitBreakerSettings.openDuration
    omega
  have hmod : (r.count % settings.failures + 1) % settings.failures =
      (r.count + 1) % settings.failures := Nat.mod_add_mod _ _ _
  unfold ReferenceBreaker.expire ReferenceBreaker.fail
  by_cases hopen : r.openUntil = 0 ∨ observedAt < r.openUntil
  · by_cases hfull : (r.count + 1) % settings.failures = 0
    · have hlater : observedAt + settings.openDuration = 0 ∨
          observedAt < observedAt + settings.openDuration := .inr (by omega)
      simp only [hopen, hfull, hlater, if_true, and_self]
    · simp only [hopen, hfull, if_true, if_false, and_self]
  · by_cases hfull : (r.count + 1) % settings.failures = 0
    · have hlater : observedAt + settings.openDuration = 0 ∨
          observedAt < observedAt + settings.openDuration := .inr (by omega)
      simp only [hopen, hmod, hfull, hlater, if_true, if_false, and_self]
    · simp only [hopen, hmod, hfull, if_false, Nat.mod_mod, and_self]

theorem Follows.fail (h : Follows settings c r last observed) {observedAt attempt : ℕ}
    {order : BreakerOrder} (hmem : attempt ∈ c.breakerAttempts) (hafter : order.after last = true)
    (hobserved : observed ≤ observedAt) :
    Follows settings (c.finishBreakerFailure settings observedAt attempt order)
      ((r.expire settings observedAt).fail settings observedAt) order observedAt := by
  have hreachable : order.after c.lastReachable = true :=
    BreakerOrder.after_of_after_of_not hafter h.lastReachable
  have holder : ∀ {other : BreakerOrder}, other.after last = false → other.after order = false :=
    fun hother => BreakerOrder.not_after_trans hother (BreakerOrder.not_after_of_after hafter)
  have hcredits : ∀ credit ∈ c.breakerCredits, order.after credit.through = true :=
    fun credit hcredit => BreakerOrder.after_of_after_of_not hafter (h.through credit hcredit)
  have hlatest : ∀ failure ∈ c.breakerFailures, failure.observedAt ≤ observedAt :=
    fun failure hfailure => (h.observedAt failure hfailure).trans hobserved
  have hle : creditedCount settings c.breakerFailures c.breakerCredits ≤ _ := creditedCount_le _
  -- the state before the history is gone through
  let recorded : Connector := { c.take attempt with
    breakerFailures := c.breakerFailures ++ [⟨order, observedAt, attempt⟩] }
  have hinOrder : recorded.breakerFailures.Pairwise NotAfter := by
    refine List.pairwise_append.2 ⟨h.opened.inOrder, List.pairwise_singleton _ _, ?_⟩
    intro failure hfailure other hother
    rw [List.mem_singleton.1 hother]
    exact holder (h.before failure hfailure)
  have hopening : opening settings recorded.breakerFailures recorded.breakerCredits =
      if (uncredited settings c + 1) % settings.failures = 0 then
        observedAt + settings.openDuration
      else opening settings c.breakerFailures c.breakerCredits :=
    opening_append hlatest hcredits
  have huncredited : uncredited settings recorded = uncredited settings c + 1 := by
    unfold uncredited
    simp only [recorded, Connector.take]
    rw [creditedCount_append hcredits, List.length_append, List.length_singleton]
    omega
  have hmod : (uncredited settings c + 1) % settings.failures =
      (r.count + 1) % settings.failures := Nat.ModEq.add_right 1 h.count
  obtain ⟨hopen, hcount⟩ := settle_recompute_inOrder settings hinOrder
  obtain ⟨hfailures, hcredits', hlast⟩ := settle_recompute_records settings recorded
  have hfollows : Follows settings
      ((recorded.settleExpiredBreakerGroupsLocked settings).recomputeBreakerLocked settings)
      (r.fail settings observedAt) order observedAt := by
    refine ⟨Opened.settle_recompute settings recorded, ?_, ?_, fun failure hfailure => ?_,
      fun credit hcredit => holder (h.through credit (hcredits' credit hcredit)),
      hlast ▸ holder h.lastReachable, fun failure hfailure => ?_⟩
    · rw [hopen, hopening, hmod, ← h.opened.opened, h.same]
      rfl
    · rw [hcount, huncredited, hmod]
      rfl
    · rcases List.mem_append.1 (hfailures failure hfailure) with hfailure | hfailure
      · exact holder (h.before failure hfailure)
      · rw [List.mem_singleton.1 hfailure]
        exact BreakerOrder.after_self order
    · rcases List.mem_append.1 (hfailures failure hfailure) with hfailure | hfailure
      · exact hlatest failure hfailure
      · rw [List.mem_singleton.1 hfailure]
  have hexpire := hfollows.expire observedAt
  obtain ⟨hsame, hcongr⟩ := ReferenceBreaker.fail_expire settings r observedAt
  unfold Connector.finishBreakerFailure
  rw [if_neg (not_not.2 hmem)]
  simp only
  rw [if_pos (show order.after (c.take attempt).lastReachable = true from hreachable)]
  exact ⟨hexpire.opened, hexpire.same.trans hsame, hexpire.count.trans hcongr, hexpire.before,
    hexpire.through, hexpire.lastReachable, hexpire.observedAt⟩

theorem Follows.reach (h : Follows settings c r last observed) {observedAt attempt : ℕ}
    {order : BreakerOrder} (hmem : attempt ∈ c.breakerAttempts) (hafter : order.after last = true) :
    Follows settings (c.finishBreakerReachable settings observedAt attempt order) ⟨0, 0⟩ order
      observedAt := by
  have hreachable : order.after c.lastReachable = true :=
    BreakerOrder.after_of_after_of_not hafter h.lastReachable
  have holder : ∀ {other : BreakerOrder}, other.after last = false → other.after order = false :=
    fun hother => BreakerOrder.not_after_trans hother (BreakerOrder.not_after_of_after hafter)
  let reached : Connector := { c.take attempt with
    reached := order :: c.reached, lastReachable := order, breakerFailures := [] }
  have hnil : reached.breakerFailures.Pairwise NotAfter := .nil
  obtain ⟨hopen, hcount⟩ := settle_recompute_inOrder settings hnil
  obtain ⟨hfailures, hcredits, hlast⟩ := settle_recompute_records settings reached
  have hclosed : opening settings reached.breakerFailures reached.breakerCredits = 0 :=
    opening_of_lt (by
      rw [show reached.breakerFailures.length = 0 from rfl, Nat.zero_sub]
      exact settings.failures_pos)
  have hfollows : Follows settings
      ((reached.settleExpiredBreakerGroupsLocked settings).recomputeBreakerLocked settings)
      ⟨0, 0⟩ order observedAt := by
    refine ⟨Opened.settle_recompute settings reached, hopen.trans hclosed, ?_,
      fun failure hfailure => absurd (hfailures failure hfailure) List.not_mem_nil,
      fun credit hcredit => holder (h.through credit (hcredits credit hcredit)),
      hlast ▸ BreakerOrder.after_self order,
      fun failure hfailure => absurd (hfailures failure hfailure) List.not_mem_nil⟩
    rw [hcount]
    unfold uncredited
    rw [show reached.breakerFailures.length = 0 from rfl, Nat.zero_sub]
  have hexpire := hfollows.expire observedAt
  have hnone : c.breakerFailures.filter (fun failure => failure.order.after order) = [] :=
    List.filter_eq_nil_iff.2 fun failure hfailure => by
      rw [holder (h.before failure hfailure)]
      exact Bool.false_ne_true
  unfold Connector.finishBreakerReachable
  rw [if_neg (not_not.2 hmem)]
  simp only
  rw [if_pos (show order.after (c.take attempt).lastReachable = true from hreachable),
    show (c.take attempt).breakerFailures = c.breakerFailures from rfl, hnone]
  exact hexpire

theorem Follows.discard (h : Follows settings c r last observed) (attempt : ℕ) :
    Follows settings (c.discardBreakerAttempt settings attempt) r last observed := by
  unfold discardBreakerAttempt
  split_ifs with hmem
  swap
  · exact h
  have hopened := Opened.settle_recompute settings (c.take attempt)
  have hinOrder : (c.take attempt).breakerFailures.Pairwise NotAfter := h.opened.inOrder
  obtain ⟨hopen, hcount⟩ := settle_recompute_inOrder settings hinOrder
  obtain ⟨hfailures, hcredits, hreachable⟩ :=
    settle_recompute_records settings (c.take attempt)
  exact ⟨hopened, (hopen.trans h.opened.opened.symm).trans h.same,
    (congrArg (· % settings.failures) hcount).trans h.count,
    fun failure hmem => h.before failure (hfailures failure hmem),
    fun credit hmem => h.through credit (hcredits credit hmem), hreachable ▸ h.lastReachable,
    fun failure hmem => h.observedAt failure (hfailures failure hmem)⟩

theorem Follows.step (h : Follows settings c r last observed) {step : BreakerStep}
    (hstep : step.InOrder c last observed) :
    Follows settings (c.step settings step) (r.step settings step) (step.completed last)
      (step.observed observed) := by
  cases step with
  | tryBeginAttempt expiredBefore expiredAfter now =>
    have hexpire := h.expire now
    show Follows settings (c.tryBeginAttempt settings expiredBefore expiredAfter now).1
      (if expiredBefore then r else r.expire settings now) last observed
    unfold Connector.tryBeginAttempt
    simp only
    split_ifs
    · exact h
    · exact hexpire
    · exact hexpire
    · exact ⟨⟨hexpire.opened.inOrder, hexpire.opened.opened⟩, hexpire.same, hexpire.count,
        hexpire.before, hexpire.through, hexpire.lastReachable, hexpire.observedAt⟩
  | finishBreakerFailure observedAt attempt order => exact h.fail hstep.1 hstep.2.1 hstep.2.2
  | finishBreakerReachable observedAt attempt order => exact h.reach hstep.1 hstep.2.1
  | discardBreakerAttempt attempt => exact h.discard attempt
  | circuitOpenWithClock now => exact h.expire now

theorem OrderedRun.follows (h : OrderedRun settings c r last observed) :
    Follows settings c r last observed := by
  induction h with
  | new =>
    refine ⟨⟨.nil, (opening_of_lt (by exact settings.failures_pos)).symm⟩, rfl, rfl, nofun,
      nofun, rfl, nofun⟩
  | step step _ hstep ih => exact ih.step hstep

theorem Follows.circuitOpen (h : Follows settings c r last observed) (now : ℕ) :
    (c.circuitOpenWithClock settings now).2 = r.circuitOpen settings now := by
  have hsame := (h.expire now).same
  unfold circuitOpenWithClock ReferenceBreaker.circuitOpen
  simp only [hsame]

/-- An attempt is refused if the counter says so, unless the history is at its limit. -/
theorem Follows.tryBeginAttempt (h : Follows settings c r last observed) (now : ℕ)
    (hroom : (c.expireBreakerLocked settings now).breakerHistoryCostLocked + 2 ≤
      breakerHistoryLimit) :
    (c.tryBeginAttempt settings false false now).2 = .error .circuitOpen ↔
      r.circuitOpen settings now = true := by
  have hsame := (h.expire now).same
  unfold Connector.tryBeginAttempt ReferenceBreaker.circuitOpen
  simp only [Bool.false_eq_true, if_false, Nat.not_lt.2 hroom, or_false, hsame,
    decide_eq_true_eq]
  split_ifs with hopen
  · simp [hopen]
  · simp [hopen]

end Counting

section Confluence

variable {settings : CircuitBreakerSettings} {c : Connector}

/-- The failure that a step records, if it is not older than a reachable response. -/
def BreakerStep.failure : BreakerStep → Option BreakerFailure
  | .finishBreakerFailure observedAt attempt order => some ⟨order, observedAt, attempt⟩
  | _ => none

/-- The reachable response of a step. -/
def BreakerStep.reachable : BreakerStep → Option BreakerOrder
  | .finishBreakerReachable _ _ order => some order
  | _ => none

/-- The attempt that a step resolves. -/
def BreakerStep.attempt : BreakerStep → Option ℕ
  | .finishBreakerFailure _ attempt _ | .finishBreakerReachable _ attempt _
  | .discardBreakerAttempt attempt => some attempt
  | _ => none

/-- The clock of a step. -/
def BreakerStep.clock : BreakerStep → Option ℕ
  | .tryBeginAttempt _ _ now | .circuitOpenWithClock now => some now
  | .finishBreakerFailure observedAt _ _ | .finishBreakerReachable observedAt _ _ =>
    some observedAt
  | .discardBreakerAttempt _ => none

/-- What the results of some attempts leave in the history, in whichever order they are known. -/
structure Summary (settings : CircuitBreakerSettings) (c : Connector) (steps : List BreakerStep)
    (s : Connector) : Prop where
  opened : Opened settings s
  credits : s.breakerCredits = []
  failures : s.breakerFailures.Perm
    ((c.breakerFailures ++ steps.filterMap BreakerStep.failure).filter fun failure =>
      failure.order.after c.lastReachable &&
        (steps.filterMap BreakerStep.reachable).all fun order => failure.order.after order)
  reachable : s.lastReachable ∈ c.lastReachable :: steps.filterMap BreakerStep.reachable
  latest : ∀ order ∈ c.lastReachable :: steps.filterMap BreakerStep.reachable,
    order.after s.lastReachable = false
  attempts : ∀ attempt, attempt ∈ s.breakerAttempts ↔
    attempt ∈ c.breakerAttempts ∧ attempt ∉ steps.filterMap BreakerStep.attempt
  serial : s.breakerSerial = c.breakerSerial

/-- No time is over while the clock is within the open duration of every observation. -/
theorem expire_within (h : Opened settings c) {now : ℕ}
    (hwithin : ∀ failure ∈ c.breakerFailures, now < failure.observedAt + settings.openDuration) :
    c.expireBreakerLocked settings now = c := by
  unfold expireBreakerLocked
  by_cases hopen : c.openUntil = 0
  · rw [if_pos (.inl hopen)]
  · refine if_pos (.inr ?_)
    rw [h.opened] at hopen ⊢
    obtain ⟨j, hj, heq⟩ := opening_attained hopen
    rw [heq]
    unfold candidate
    have hpos := settings.failures_pos
    obtain ⟨failure, hmem⟩ : ∃ failure, failure ∈ (c.breakerFailures.drop
        (creditedCount settings c.breakerFailures c.breakerCredits +
          j * settings.failures)).take settings.failures := by
      refine List.exists_mem_of_ne_nil _ fun hnil => ?_
      have hlength := congrArg List.length hnil
      have hmul := Nat.mul_le_mul_right settings.failures hj
      have hdiv := Nat.div_mul_le_self (c.breakerFailures.length -
        creditedCount settings c.breakerFailures c.breakerCredits) settings.failures
      have hle : creditedCount settings c.breakerFailures c.breakerCredits ≤ _ :=
        creditedCount_le _
      rw [List.length_take, List.length_drop, List.length_nil] at hlength
      rw [Nat.succ_mul] at hmul
      omega
    have hnow := hwithin failure (List.mem_of_mem_drop (List.mem_of_mem_take hmem))
    have hlatest := le_latestObservation hmem
    omega

theorem settle_recompute_nil (h : c.breakerCredits = []) :
    (c.settleExpiredBreakerGroupsLocked settings).recomputeBreakerLocked settings =
      { c with
        breakerFailures := sorted c.breakerFailures
        openUntil := opening settings (sorted c.breakerFailures) [] } := by
  have hcount : creditedCount settings (sorted c.breakerFailures) [] = 0 := rfl
  rw [settle_recompute]
  split_ifs with hattempts
  · rw [h, hcount, List.drop_zero]
  · rw [h]

/-- What a resolved attempt adds to a summary, given what is recorded of it. -/
theorem Summary.resolve {steps : List BreakerStep} {s : Connector}
    (h : Summary settings c steps s) {step : BreakerStep} {attempt : ℕ} {s' : Connector}
    (hattempt : step.attempt = some attempt)
    (hfailures : s'.breakerFailures.Perm
      ((c.breakerFailures ++ (steps ++ [step]).filterMap BreakerStep.failure).filter
        fun failure => failure.order.after c.lastReachable &&
          ((steps ++ [step]).filterMap BreakerStep.reachable).all fun order =>
            failure.order.after order))
    (hreachable : s'.lastReachable ∈
      c.lastReachable :: (steps ++ [step]).filterMap BreakerStep.reachable)
    (hlatest : ∀ order ∈ c.lastReachable :: (steps ++ [step]).filterMap BreakerStep.reachable,
      order.after s'.lastReachable = false)
    (hcredits : s'.breakerCredits = s.breakerCredits)
    (hattempts : s'.breakerAttempts = s.breakerAttempts.erase attempt)
    (hserial : s'.breakerSerial = s.breakerSerial) :
    Summary settings c (steps ++ [step])
      ((s'.settleExpiredBreakerGroupsLocked settings).recomputeBreakerLocked settings) := by
  have hopened := Opened.settle_recompute settings s'
  have hnil : s'.breakerCredits = [] := hcredits.trans h.credits
  rw [settle_recompute_nil hnil] at hopened ⊢
  refine ⟨hopened, hnil, (sorted_perm _).trans hfailures, hreachable, hlatest,
    fun other => ?_, hserial.trans h.serial⟩
  show other ∈ s'.breakerAttempts ↔ _
  rw [hattempts, Finset.mem_erase, h.attempts, List.filterMap_append, List.mem_append, not_or]
  have hlast : other ∈ [step].filterMap BreakerStep.attempt ↔ other = attempt := by
    rw [List.filterMap_cons, hattempt]
    exact List.mem_singleton
  rw [hlast]
  tauto

/-- A recorded failure is after the latest reachable response. -/
theorem Summary.newer {steps : List BreakerStep} {s : Connector}
    (h : Summary settings c steps s) {failure : BreakerFailure}
    (hmem : failure ∈ s.breakerFailures) : failure.order.after s.lastReachable = true := by
  have hkept := (List.mem_filter.1 (h.failures.mem_iff.1 hmem)).2
  rw [Bool.and_eq_true, List.all_eq_true] at hkept
  rcases List.mem_cons.1 h.reachable with heq | hreached
  · rw [heq]
    exact hkept.1
  · exact hkept.2 _ hreached

/-- The failures that may be recorded. -/
def records (c : Connector) (steps : List BreakerStep) : List BreakerFailure :=
  (c.breakerFailures ++ steps.filterMap BreakerStep.failure).filter
    (·.order.after c.lastReachable)

theorem Summary.mem_records {steps : List BreakerStep} {s : Connector}
    (h : Summary settings c steps s) {failure : BreakerFailure}
    (hmem : failure ∈ s.breakerFailures) : failure ∈ records c steps := by
  obtain ⟨hold, hkept⟩ := List.mem_filter.1 (h.failures.mem_iff.1 hmem)
  rw [Bool.and_eq_true] at hkept
  exact List.mem_filter.2 ⟨hold, hkept.1⟩

theorem Summary.expire {steps : List BreakerStep} {s : Connector} (h : Summary settings c steps s)
    {now : ℕ} (hwithin : ∀ failure ∈ records c steps,
      now < failure.observedAt + settings.openDuration) :
    s.expireBreakerLocked settings now = s :=
  expire_within h.opened fun failure hmem => hwithin failure (h.mem_records hmem)

theorem Summary.fail {steps : List BreakerStep} {s : Connector} (h : Summary settings c steps s)
    {observedAt attempt : ℕ} {order : BreakerOrder} (hmem : attempt ∈ s.breakerAttempts)
    (hwithin : ∀ failure ∈ records c
        (steps ++ [BreakerStep.finishBreakerFailure observedAt attempt order]),
      observedAt < failure.observedAt + settings.openDuration) :
    Summary settings c (steps ++ [.finishBreakerFailure observedAt attempt order])
      (s.finishBreakerFailure settings observedAt attempt order) := by
  unfold Connector.finishBreakerFailure
  rw [if_neg (not_not.2 hmem)]
  simp only
  have hresolve : Summary settings c
      (steps ++ [.finishBreakerFailure observedAt attempt order])
      ((((if order.after (s.take attempt).lastReachable = true then
        { s.take attempt with breakerFailures :=
            (s.take attempt).breakerFailures ++ [⟨order, observedAt, attempt⟩] }
        else s.take attempt).settleExpiredBreakerGroupsLocked settings).recomputeBreakerLocked
          settings)) := by
    have hkept : (order.after c.lastReachable &&
        (steps.filterMap BreakerStep.reachable).all fun other => order.after other) =
          order.after s.lastReachable := by
      rw [Bool.eq_iff_iff, Bool.and_eq_true, List.all_eq_true]
      constructor
      · rintro ⟨hfirst, hrest⟩
        rcases List.mem_cons.1 h.reachable with heq | hreached
        · rw [heq]
          exact hfirst
        · exact hrest _ hreached
      · intro hafter
        exact ⟨BreakerOrder.after_of_after_of_not hafter (h.latest _ List.mem_cons_self),
          fun other hother => BreakerOrder.after_of_after_of_not hafter
            (h.latest other (List.mem_cons_of_mem _ hother))⟩
    refine h.resolve rfl ?_ ?_ ?_ ?_ ?_ ?_
    · simp only [List.filterMap_append, List.filterMap_cons, List.filterMap_nil,
        BreakerStep.failure, BreakerStep.reachable, List.append_nil]
      rw [← List.append_assoc, List.filter_append, List.filter_singleton]
      simp only [hkept]
      rw [show (s.take attempt).lastReachable = s.lastReachable from rfl]
      split_ifs with hafter
      · rw [hafter, cond_true]
        exact List.Perm.append_right [⟨order, observedAt, attempt⟩] h.failures
      · rw [Bool.not_eq_true] at hafter
        rw [hafter, cond_false, List.append_nil]
        exact h.failures
    · simp only [List.filterMap_append, List.filterMap_cons, List.filterMap_nil,
        BreakerStep.reachable, List.append_nil]
      split_ifs <;> exact h.reachable
    · simp only [List.filterMap_append, List.filterMap_cons, List.filterMap_nil,
        BreakerStep.reachable, List.append_nil]
      split_ifs <;> exact h.latest
    all_goals split_ifs <;> rfl
  rw [hresolve.expire hwithin]
  exact hresolve

theorem Summary.reach {steps : List BreakerStep} {s : Connector} (h : Summary settings c steps s)
    {observedAt attempt : ℕ} {order : BreakerOrder} (hmem : attempt ∈ s.breakerAttempts)
    (hwithin : ∀ failure ∈ records c
        (steps ++ [BreakerStep.finishBreakerReachable observedAt attempt order]),
      observedAt < failure.observedAt + settings.openDuration) :
    Summary settings c (steps ++ [.finishBreakerReachable observedAt attempt order])
      (s.finishBreakerReachable settings observedAt attempt order) := by
  unfold Connector.finishBreakerReachable
  rw [if_neg (not_not.2 hmem)]
  simp only
  have hresolve : Summary settings c
      (steps ++ [.finishBreakerReachable observedAt attempt order])
      ((((if order.after (s.take attempt).lastReachable = true then
        { s.take attempt with
          reached := order :: s.reached
          lastReachable := order
          breakerFailures :=
            (s.take attempt).breakerFailures.filter fun failure => failure.order.after order }
        else { s.take attempt with
          reached := order :: s.reached }).settleExpiredBreakerGroupsLocked
            settings).recomputeBreakerLocked settings)) := by
    have hfilter : (s.breakerFailures.filter fun failure => failure.order.after order).Perm
        ((c.breakerFailures ++ steps.filterMap BreakerStep.failure).filter fun failure =>
          failure.order.after c.lastReachable &&
            (steps.filterMap BreakerStep.reachable ++ [order]).all fun order =>
              failure.order.after order) := by
      have hperm := h.failures.filter fun failure => failure.order.after order
      rw [List.filter_filter] at hperm
      refine hperm.trans (List.Perm.of_eq (List.filter_congr fun failure _ => ?_))
      rw [List.all_append, List.all_cons, List.all_nil, Bool.and_true, Bool.and_comm,
        Bool.and_assoc]
    refine h.resolve rfl ?_ ?_ ?_ ?_ ?_ ?_
    · simp only [List.filterMap_append, List.filterMap_cons, List.filterMap_nil,
        BreakerStep.failure, BreakerStep.reachable, List.append_nil]
      split_ifs with hlast
      · exact hfilter
      · -- the failures kept so far are after a later reachable response
        have hall : s.breakerFailures.filter (fun failure => failure.order.after order) =
            s.breakerFailures := List.filter_eq_self.2 fun failure hfailure =>
          BreakerOrder.after_of_after_of_not (h.newer hfailure) (Bool.not_eq_true _ ▸ hlast)
        exact hall ▸ hfilter
    · simp only [List.filterMap_append, List.filterMap_cons, List.filterMap_nil,
        BreakerStep.reachable]
      split_ifs
      · exact List.mem_cons_of_mem _ (List.mem_append_right _ (List.mem_singleton_self _))
      · rw [← List.cons_append]
        exact List.mem_append_left _ h.reachable
    · simp only [List.filterMap_append, List.filterMap_cons, List.filterMap_nil,
        BreakerStep.reachable]
      intro other hother
      rw [← List.cons_append] at hother
      rcases List.mem_append.1 hother with hother | hother
      · split_ifs with hlast
        · exact BreakerOrder.not_after_trans (h.latest other hother)
            (BreakerOrder.not_after_of_after hlast)
        · exact h.latest other hother
      · rw [List.mem_singleton.1 hother]
        split_ifs with hlast
        · exact BreakerOrder.after_self order
        · exact Bool.not_eq_true _ ▸ hlast
    all_goals split_ifs <;> rfl
  rw [hresolve.expire hwithin]
  exact hresolve

theorem Summary.discard {steps : List BreakerStep} {s : Connector} (h : Summary settings c steps s)
    {attempt : ℕ} (hmem : attempt ∈ s.breakerAttempts) :
    Summary settings c (steps ++ [.discardBreakerAttempt attempt])
      (s.discardBreakerAttempt settings attempt) := by
  unfold Connector.discardBreakerAttempt
  rw [if_neg (not_not.2 hmem)]
  refine h.resolve rfl ?_ ?_ ?_ rfl rfl rfl
  · simp only [List.filterMap_append, List.filterMap_cons, List.filterMap_nil,
      BreakerStep.failure, BreakerStep.reachable, List.append_nil]
    exact h.failures
  · simp only [List.filterMap_append, List.filterMap_cons, List.filterMap_nil,
      BreakerStep.reachable, List.append_nil]
    exact h.reachable
  · simp only [List.filterMap_append, List.filterMap_cons, List.filterMap_nil,
      BreakerStep.reachable, List.append_nil]
    exact h.latest

theorem Summary.check {steps : List BreakerStep} {s : Connector} (h : Summary settings c steps s)
    {now : ℕ} (hwithin : ∀ failure ∈ records c (steps ++ [BreakerStep.circuitOpenWithClock now]),
      now < failure.observedAt + settings.openDuration) :
    Summary settings c (steps ++ [.circuitOpenWithClock now])
      (s.circuitOpenWithClock settings now).1 := by
  unfold records at hwithin
  simp only [List.filterMap_append, List.filterMap_cons, List.filterMap_nil,
    BreakerStep.failure, List.append_nil] at hwithin
  unfold Connector.circuitOpenWithClock
  rw [h.expire hwithin]
  obtain ⟨hopened, hcredits, hfailures, hreachable, hlatest, hattempts, hserial⟩ := h
  refine ⟨hopened, hcredits, ?_, ?_, ?_, ?_, hserial⟩ <;>
    simpa only [List.filterMap_append, List.filterMap_cons, List.filterMap_nil,
      BreakerStep.failure, BreakerStep.reachable, BreakerStep.attempt, List.append_nil]

/-- Results of unresolved attempts and checks, with the clock within the open duration of each
failure that may be recorded. -/
structure Resolving (settings : CircuitBreakerSettings) (c : Connector)
    (steps : List BreakerStep) : Prop where
  begins : ∀ step ∈ steps, ∀ expiredBefore expiredAfter now,
    step ≠ .tryBeginAttempt expiredBefore expiredAfter now
  unresolved : ∀ attempt ∈ steps.filterMap BreakerStep.attempt, attempt ∈ c.breakerAttempts
  distinct : (steps.filterMap BreakerStep.attempt).Nodup
  within : ∀ failure ∈ records c steps, ∀ now ∈ steps.filterMap BreakerStep.clock,
    now < failure.observedAt + settings.openDuration

theorem records_append (steps steps' : List BreakerStep) {failure : BreakerFailure}
    (h : failure ∈ records c steps) : failure ∈ records c (steps ++ steps') := by
  unfold records at h ⊢
  rw [List.filterMap_append, ← List.append_assoc, List.filter_append]
  exact List.mem_append_left _ h

theorem Resolving.of_append {steps steps' : List BreakerStep}
    (h : Resolving settings c (steps ++ steps')) : Resolving settings c steps := by
  refine ⟨fun step hmem => h.begins step (List.mem_append_left _ hmem), fun attempt hmem => ?_, ?_,
    fun failure hmem now hnow => ?_⟩
  · refine h.unresolved attempt ?_
    rw [List.filterMap_append]
    exact List.mem_append_left _ hmem
  · have hdistinct := h.distinct
    rw [List.filterMap_append] at hdistinct
    exact hdistinct.of_append_left
  · refine h.within failure (records_append _ _ hmem) now ?_
    rw [List.filterMap_append]
    exact List.mem_append_left _ hnow

theorem Summary.step {steps : List BreakerStep} {s : Connector} (h : Summary settings c steps s)
    {step : BreakerStep} (hresolving : Resolving settings c (steps ++ [step])) :
    Summary settings c (steps ++ [step]) (s.step settings step) := by
  have hattempt : ∀ attempt, step.attempt = some attempt → attempt ∈ s.breakerAttempts := by
    intro attempt heq
    have hlast : attempt ∈ [step].filterMap BreakerStep.attempt :=
      List.mem_filterMap.2 ⟨step, List.mem_singleton_self _, heq⟩
    have hdistinct := hresolving.distinct
    rw [List.filterMap_append] at hdistinct
    refine (h.attempts attempt).2 ⟨hresolving.unresolved attempt ?_, fun hmem =>
      List.disjoint_of_nodup_append hdistinct hmem hlast⟩
    rw [List.filterMap_append]
    exact List.mem_append_right _ hlast
  have hwithin : ∀ now, step.clock = some now → ∀ failure ∈ records c (steps ++ [step]),
      now < failure.observedAt + settings.openDuration := by
    intro now heq failure hmem
    refine hresolving.within failure hmem now ?_
    rw [List.filterMap_append]
    exact List.mem_append_right _ (List.mem_filterMap.2 ⟨step, List.mem_singleton_self _, heq⟩)
  cases step with
  | tryBeginAttempt expiredBefore expiredAfter now =>
    exact absurd rfl (hresolving.begins _ (List.mem_append_right _ (List.mem_singleton_self _))
      expiredBefore expiredAfter now)
  | finishBreakerFailure observedAt attempt order =>
    exact h.fail (hattempt attempt rfl) (hwithin observedAt rfl)
  | finishBreakerReachable observedAt attempt order =>
    exact h.reach (hattempt attempt rfl) (hwithin observedAt rfl)
  | discardBreakerAttempt attempt => exact h.discard (hattempt attempt rfl)
  | circuitOpenWithClock now => exact h.check (hwithin now rfl)

theorem Opened.step (h : Opened settings c) (step : BreakerStep) :
    Opened settings (c.step settings step) := by
  cases step with
  | tryBeginAttempt expiredBefore expiredAfter now =>
    show Opened settings (c.tryBeginAttempt settings expiredBefore expiredAfter now).1
    have hexpire := (h.expire now).1
    unfold Connector.tryBeginAttempt
    simp only
    split_ifs
    · exact h
    · exact hexpire
    · exact hexpire
    · exact ⟨hexpire.inOrder, hexpire.opened⟩
  | finishBreakerFailure observedAt attempt order =>
    show Opened settings (c.finishBreakerFailure settings observedAt attempt order)
    unfold Connector.finishBreakerFailure
    split_ifs
    · exact ((Opened.settle_recompute settings _).expire observedAt).1
    · exact h
  | finishBreakerReachable observedAt attempt order =>
    show Opened settings (c.finishBreakerReachable settings observedAt attempt order)
    unfold Connector.finishBreakerReachable
    split_ifs
    · exact ((Opened.settle_recompute settings _).expire observedAt).1
    · exact h
  | discardBreakerAttempt attempt =>
    show Opened settings (c.discardBreakerAttempt settings attempt)
    unfold Connector.discardBreakerAttempt
    split_ifs
    · exact Opened.settle_recompute settings _
    · exact h
  | circuitOpenWithClock now => exact (h.expire now).1

theorem BreakerReachable.opened (h : BreakerReachable settings c) : Opened settings c := by
  induction h with
  | new => exact ⟨.nil, (opening_of_lt (by exact settings.failures_pos)).symm⟩
  | step step _ ih => exact ih.step step

theorem BreakerReachable.summary (h : BreakerReachable settings c)
    (hcredits : c.breakerCredits = []) (steps : List BreakerStep)
    (hresolving : Resolving settings c steps) :
    Summary settings c steps (steps.foldl (Connector.step settings) c) := by
  induction steps using List.reverseRecOn with
  | nil =>
    refine ⟨h.opened, hcredits, ?_, List.mem_cons_self, fun order hmem => ?_, fun attempt => ?_,
      rfl⟩
    · rw [List.filterMap_nil, List.filterMap_nil, List.append_nil, List.filter_eq_self.2]
      · exact List.Perm.refl _
      · intro failure hmem
        rw [h.accounted.recorded.newer failure hmem]
        rfl
    · rw [List.mem_singleton.1 hmem]
      exact BreakerOrder.after_self _
    · simp
  | append_singleton steps step ih =>
    rw [List.foldl_append]
    exact (ih hresolving.of_append).step hresolving

/-- The results are the same, whatever is checked in between. -/
def SameResults (steps steps' : List BreakerStep) : Prop :=
  (steps.filter fun step => step.attempt.isSome).Perm
    (steps'.filter fun step => step.attempt.isSome)

theorem SameResults.filterMap {α : Type} {f : BreakerStep → Option α}
    {steps steps' : List BreakerStep} (h : SameResults steps steps')
    (hf : ∀ step : BreakerStep, step.attempt = none → f step = none) :
    (steps.filterMap f).Perm (steps'.filterMap f) := by
  have hfilter : ∀ steps : List BreakerStep,
      (steps.filter fun step => step.attempt.isSome).filterMap f = steps.filterMap f := by
    intro steps
    rw [List.filterMap_filter]
    refine List.filterMap_congr fun step _ => ?_
    rcases hattempt : step.attempt with - | attempt
    · exact (hf step hattempt).symm
    · rfl
  rw [← hfilter steps, ← hfilter steps']
  exact List.Perm.filterMap f h

/-- Two summaries of the same results are of the same history. -/
theorem Summary.unique {steps steps' : List BreakerStep} {s s' : Connector}
    (h : Summary settings c steps s) (h' : Summary settings c steps' s')
    (hsame : SameResults steps steps')
    (hserials : ((c.breakerFailures ++ steps.filterMap BreakerStep.failure).map
      (·.order.serial)).Nodup) :
    s'.breakerFailures = s.breakerFailures ∧ s'.breakerCredits = s.breakerCredits ∧
      s'.lastReachable = s.lastReachable ∧ s'.breakerAttempts = s.breakerAttempts ∧
      s'.breakerSerial = s.breakerSerial ∧ s'.openUntil = s.openUntil := by
  have hfailures : (steps.filterMap BreakerStep.failure).Perm _ :=
    hsame.filterMap fun step hnone => by
      cases step <;> first | rfl | cases hnone
  have hreached : (steps.filterMap BreakerStep.reachable).Perm _ :=
    hsame.filterMap fun step hnone => by
      cases step <;> first | rfl | cases hnone
  have hattempts : (steps.filterMap BreakerStep.attempt).Perm _ :=
    hsame.filterMap fun _ hnone => hnone
  have hperm : s.breakerFailures.Perm s'.breakerFailures := by
    refine h.failures.trans (.trans ?_ h'.failures.symm)
    refine ((List.Perm.append_left _ hfailures).filter _).trans (List.Perm.of_eq ?_)
    refine List.filter_congr fun failure _ => ?_
    rw [hreached.all_eq]
  have heq : s.breakerFailures = s'.breakerFailures := by
    refine hperm.eq_of_pairwise (fun failure other hmem hother hle hge => ?_) h.opened.inOrder
      h'.opened.inOrder
    have horder := BreakerOrder.eq_of_not_after hle hge
    have hmem' := (List.mem_filter.1 (h.failures.mem_iff.1 hmem)).1
    have hother' := (List.mem_filter.1 (h.failures.mem_iff.1 (hperm.mem_iff.2 hother))).1
    exact List.inj_on_of_nodup_map hserials hmem' hother' (congrArg (·.serial) horder)
  have hlast : s'.lastReachable = s.lastReachable := by
    have hmem := (List.Perm.cons c.lastReachable hreached).mem_iff.1 h.reachable
    have hmem' := (List.Perm.cons c.lastReachable hreached).mem_iff.2 h'.reachable
    exact BreakerOrder.eq_of_not_after (h.latest _ hmem') (h'.latest _ hmem)
  refine ⟨heq.symm, h'.credits.trans h.credits.symm, hlast, ?_, h'.serial.trans h.serial.symm, ?_⟩
  · ext attempt
    rw [h.attempts, h'.attempts, hattempts.mem_iff]
  · rw [h.opened.opened, h'.opened.opened, heq, h.credits, h'.credits]

/-- A check says whether the breaker is open, and nothing else. -/
theorem Opened.circuitOpen (h : Opened settings c) (now : ℕ) :
    (c.circuitOpenWithClock settings now).2 = decide (now < c.openUntil) := by
  unfold circuitOpenWithClock
  rcases (h.expire now).2 with ⟨heq, -⟩ | ⟨⟨-, hover⟩, hclosed, -⟩
  · simp only [heq]
  · simp only [hclosed, Nat.not_lt_zero, decide_false, Nat.not_lt.2 hover]

end Confluence

/-- The breaker answers like the counter when attempts are resolved in the order of their
completion, and otherwise does not depend on the order while the clock is within the open duration
of all failures. -/
theorem breaker_agrees (settings : CircuitBreakerSettings) :
    (∀ c r last observed, OrderedRun settings c r last observed →
      ∀ now, (c.circuitOpenWithClock settings now).2 = r.circuitOpen settings now ∧
        ((c.expireBreakerLocked settings now).breakerHistoryCostLocked + 2 ≤
          breakerHistoryLimit →
          ((c.tryBeginAttempt settings false false now).2 = .error .circuitOpen ↔
            r.circuitOpen settings now = true))) ∧
      ∀ c, BreakerReachable settings c → c.breakerCredits = [] → ∀ steps steps',
        Resolving settings c steps → Resolving settings c steps' → SameResults steps steps' →
        ((c.breakerFailures ++ steps.filterMap BreakerStep.failure).map
          (·.order.serial)).Nodup →
        let s := steps.foldl (Connector.step settings) c
        let s' := steps'.foldl (Connector.step settings) c
        s'.breakerFailures = s.breakerFailures ∧ s'.breakerCredits = s.breakerCredits ∧
          s'.lastReachable = s.lastReachable ∧ s'.breakerAttempts = s.breakerAttempts ∧
          s'.breakerSerial = s.breakerSerial ∧ s'.openUntil = s.openUntil ∧
          ∀ now, (s'.circuitOpenWithClock settings now).2 =
            (s.circuitOpenWithClock settings now).2 := by
  refine ⟨fun c r last observed h now => ⟨h.follows.circuitOpen now,
    h.follows.tryBeginAttempt now⟩, ?_⟩
  intro c h hcredits steps steps' hsteps hsteps' hsame hserials s s'
  have hsummary := h.summary hcredits steps hsteps
  have hsummary' := h.summary hcredits steps' hsteps'
  obtain ⟨hfailures, hnone, hlast, hattempts, hserial, hopen⟩ :=
    hsummary.unique hsummary' hsame hserials
  refine ⟨hfailures, hnone, hlast, hattempts, hserial, hopen, fun now => ?_⟩
  rw [hsummary.opened.circuitOpen, hsummary'.opened.circuitOpen, hopen]

/-- Two attempts that are not resolved yet. -/
def Connector.begunTwice : Connector :=
  (Connector.new.step .least (.tryBeginAttempt false false 1)).step .least
    (.tryBeginAttempt false false 2)

theorem breaker_agrees_failedOnce :
    ((Connector.failedOnce.circuitOpenWithClock .least 6).2 = true) ∧
      ([.finishBreakerReachable 6 2 ⟨3, 1⟩, .finishBreakerFailure 5 1 ⟨4, 2⟩].foldl
          (Connector.step .least) Connector.begunTwice).openUntil =
        ([.finishBreakerFailure 5 1 ⟨4, 2⟩, .finishBreakerReachable 6 2 ⟨3, 1⟩].foldl
          (Connector.step .least) Connector.begunTwice).openUntil := by
  have hrun : OrderedRun .least .failedOnce
      ((((⟨0, 0⟩ : ReferenceBreaker).step .least (.tryBeginAttempt false false 1)).step .least
        (.tryBeginAttempt false false 2)).step .least (.finishBreakerFailure 5 1 ⟨4, 1⟩))
      ⟨4, 1⟩ 5 :=
    .step _ (.step _ (.step _ .new trivial) trivial) (by
      refine ⟨?_, ?_, ?_⟩ <;> decide +kernel)
  have hreachable : BreakerReachable .least .begunTwice := .step _ (.step _ .new)
  have hresolving : Resolving .least .begunTwice
      [.finishBreakerFailure 5 1 ⟨4, 2⟩, .finishBreakerReachable 6 2 ⟨3, 1⟩] :=
    ⟨by simp, by decide +kernel, by decide +kernel, by decide +kernel⟩
  have hresolving' : Resolving .least .begunTwice
      [.finishBreakerReachable 6 2 ⟨3, 1⟩, .finishBreakerFailure 5 1 ⟨4, 2⟩] :=
    ⟨by simp, by decide +kernel, by decide +kernel, by decide +kernel⟩
  exact ⟨((breaker_agrees .least).1 _ _ _ _ hrun 6).1.trans (by decide +kernel),
    ((breaker_agrees .least).2 _ hreachable (by decide +kernel) _ _ hresolving
      hresolving' (List.Perm.swap _ _ _) (by decide +kernel)).2.2.2.2.2.1⟩

end Atlas.SourceGateway
