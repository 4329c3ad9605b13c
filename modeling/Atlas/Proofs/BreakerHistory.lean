import Atlas.Proofs.BreakerGroups

/-!
# What a circuit breaker's history amounts to

Each attempt pays for a failure and a credit before it begins. Its failure takes the place of one
of the two, and the breaker it may open takes the place of the other, until that is credited.
-/

namespace Atlas.SourceGateway

open Connector

/-- What the recorded failures are. -/
structure Recorded (c : Connector) : Prop where
  newer : ∀ failure ∈ c.breakerFailures, failure.order.after c.lastReachable = true
  latest : ∀ order ∈ c.reached, order.after c.lastReachable = false
  distinct : (c.breakerFailures.map (·.attempt)).Nodup
  resolved : ∀ failure ∈ c.breakerFailures, failure.attempt ∈ c.finished
  once : ∀ attempt ∈ c.finished, attempt ∉ c.breakerAttempts
  numbered : ∀ attempt, attempt ∈ c.finished ∨ attempt ∈ c.breakerAttempts →
    attempt ≤ c.breakerSerial

/-- The breaker's history stays within its limit, also once an open breaker is credited. -/
structure Accounted (settings : CircuitBreakerSettings) (c : Connector) : Prop where
  recorded : Recorded c
  current : Current settings c
  cost : c.breakerHistoryCostLocked + (if c.openUntil = 0 then 0 else 1) ≤ breakerHistoryLimit
  settled : c.breakerAttempts = ∅ →
    c.breakerCredits = [] ∧ c.openUntil = opening settings c.breakerFailures []

section Steps

variable {settings : CircuitBreakerSettings} {c : Connector}

theorem Recorded.of_subperm {c' : Connector} (h : Recorded c)
    (hfailures : c'.breakerFailures.Subperm c.breakerFailures)
    (hreachable : c'.lastReachable = c.lastReachable) (hreached : c'.reached = c.reached)
    (hfinished : c'.finished = c.finished) (hattempts : c'.breakerAttempts = c.breakerAttempts)
    (hserial : c'.breakerSerial = c.breakerSerial) : Recorded c' := by
  refine ⟨fun failure hmem => ?_, ?_, ?_, fun failure hmem => ?_, ?_, ?_⟩
  · rw [hreachable]
    exact h.newer failure (hfailures.subset hmem)
  · rw [hreachable, hreached]
    exact h.latest
  · obtain ⟨failures, hperm, hsub⟩ := hfailures
    exact (hperm.map _).nodup_iff.1 ((hsub.map _).nodup h.distinct)
  · rw [hfinished]
    exact h.resolved failure (hfailures.subset hmem)
  · rw [hfinished, hattempts]
    exact h.once
  · rw [hfinished, hattempts, hserial]
    exact h.numbered

theorem sorted_perm (failures : List BreakerFailure) : (sorted failures).Perm failures :=
  List.perm_insertionSort _ _

/-- A resolved attempt is accounted for if a record is left over for the breaker it may open. -/
theorem Recorded.settle_recompute (h : Recorded c)
    (hcost : c.breakerHistoryCostLocked + 1 ≤ breakerHistoryLimit) :
    Accounted settings
      ((c.settleExpiredBreakerGroupsLocked settings).recomputeBreakerLocked settings) := by
  rw [SourceGateway.settle_recompute]
  have hlength := (sorted_perm c.breakerFailures).length_eq
  unfold breakerHistoryCostLocked at hcost
  split_ifs with hattempts
  · have hsub := List.drop_sublist
      (creditedCount settings (sorted c.breakerFailures) c.breakerCredits)
      (sorted c.breakerFailures)
    refine ⟨h.of_subperm (hsub.subperm.trans (sorted_perm _).subperm) rfl rfl rfl rfl rfl,
      ⟨(sorted_pairwise _).sublist hsub, .inr rfl⟩, ?_, fun _ => ⟨rfl, rfl⟩⟩
    have hdrop := hsub.length_le
    unfold breakerHistoryCostLocked
    simp only [List.length_nil]
    split_ifs <;> omega
  · refine ⟨h.of_subperm (sorted_perm _).subperm rfl rfl rfl rfl rfl,
      ⟨sorted_pairwise _, .inr rfl⟩, ?_, fun hnone => absurd hnone hattempts⟩
    unfold breakerHistoryCostLocked
    simp only
    split_ifs <;> omega

theorem Accounted.expire (h : Accounted settings c) (now : ℕ) :
    Accounted settings (c.expireBreakerLocked settings now) := by
  rcases expire_cases h.current now with ⟨heq, -⟩ | ⟨hopen, -, -, last, -, -, heq⟩
  · rw [heq]
    exact h
  · rw [heq]
    have hcost := h.cost
    rw [if_neg hopen] at hcost
    unfold breakerHistoryCostLocked at hcost
    split_ifs with hattempts
    · have hsub := List.drop_sublist (allCredited settings c) c.breakerFailures
      refine ⟨h.recorded.of_subperm hsub.subperm rfl rfl rfl rfl rfl,
        ⟨h.current.inOrder.sublist hsub, .inl rfl⟩, ?_, fun _ => ⟨rfl, ?_⟩⟩
      · have hdrop := hsub.length_le
        unfold breakerHistoryCostLocked
        simp only [List.length_nil, if_true]
        omega
      · refine (opening_eq_zero ?_).symm
        rw [List.length_drop]
        exact length_sub_allCredited_lt c
    · refine ⟨h.recorded.of_subperm (List.Perm.refl _).subperm rfl rfl rfl rfl rfl,
        ⟨h.current.inOrder, .inl rfl⟩, ?_, fun hnone => absurd hnone hattempts⟩
      unfold breakerHistoryCostLocked
      simp only [List.length_append, List.length_singleton, if_true]
      omega

/-- Once its time is over, a breaker is not open. -/
theorem openUntil_expire (h : Current settings c) {now : ℕ}
    (hover : ¬now < (c.expireBreakerLocked settings now).openUntil) :
    (c.expireBreakerLocked settings now).openUntil = 0 := by
  rcases expire_cases h now with ⟨heq, hopen⟩ | ⟨-, -, -, last, -, -, heq⟩
  · rw [heq] at hover ⊢
    exact hopen.resolve_right hover
  · rw [heq]
    split_ifs <;> rfl

theorem Accounted.tryBeginAttempt (h : Accounted settings c) (expiredBefore expiredAfter : Bool)
    (now : ℕ) :
    Accounted settings (c.tryBeginAttempt settings expiredBefore expiredAfter now).1 := by
  unfold Connector.tryBeginAttempt
  simp only
  have hexpire := h.expire now
  split_ifs with hbefore hafter hrefused
  · exact h
  · exact hexpire
  · exact hexpire
  · rw [not_or, Nat.not_lt, Nat.not_lt] at hrefused
    have hclosed := openUntil_expire h.current (Nat.not_lt.2 hrefused.1)
    have hroom := hrefused.2
    generalize c.expireBreakerLocked settings now = d at hexpire hclosed hroom
    have hfresh : ∀ attempt, attempt ∈ d.finished ∨ attempt ∈ d.breakerAttempts →
        attempt ≠ d.breakerSerial + 1 := fun attempt hmem heq => by
      have := hexpire.recorded.numbered attempt hmem
      omega
    refine ⟨⟨hexpire.recorded.newer, hexpire.recorded.latest, hexpire.recorded.distinct,
      hexpire.recorded.resolved, fun attempt hmem => ?_, fun attempt hmem => ?_⟩,
      ⟨hexpire.current.inOrder, hexpire.current.opened⟩, ?_, fun hnone => ?_⟩
    · rw [Finset.mem_insert, not_or]
      exact ⟨hfresh attempt (.inl hmem), hexpire.recorded.once attempt hmem⟩
    · rw [Finset.mem_insert] at hmem
      rcases hmem with hmem | rfl | hmem
      · exact (hexpire.recorded.numbered attempt (.inl hmem)).trans (Nat.le_succ _)
      · exact le_rfl
      · exact (hexpire.recorded.numbered attempt (.inr hmem)).trans (Nat.le_succ _)
    · unfold breakerHistoryCostLocked at hroom ⊢
      simp only [hclosed, if_true]
      rw [Finset.card_insert_of_notMem fun hmem => hfresh _ (.inr hmem) rfl]
      omega
    · exact absurd hnone (Finset.insert_ne_empty _ _)

theorem Recorded.take (h : Recorded c) {attempt : ℕ} (hmem : attempt ∈ c.breakerAttempts) :
    Recorded (c.take attempt) := by
  refine ⟨h.newer, h.latest, h.distinct, fun failure hfailure =>
    List.mem_cons_of_mem _ (h.resolved failure hfailure), fun other hother => ?_,
    fun other hother => h.numbered other ?_⟩
  · intro hcontra
    have hother' := List.mem_cons.1 hother
    obtain ⟨hne, hcontra⟩ := Finset.mem_erase.1 hcontra
    exact h.once other (hother'.resolve_left hne) hcontra
  · rcases hother with hother | hother
    · rcases List.mem_cons.1 hother with rfl | hother
      · exact .inr hmem
      · exact .inl hother
    · exact .inr (Finset.mem_of_mem_erase hother)

theorem breakerHistoryCostLocked_take {attempt : ℕ} (hmem : attempt ∈ c.breakerAttempts) :
    (c.take attempt).breakerHistoryCostLocked + 2 = c.breakerHistoryCostLocked := by
  have hcard := Finset.card_erase_add_one hmem
  unfold breakerHistoryCostLocked Connector.take
  simp only
  omega

theorem Accounted.cost_le (h : Accounted settings c) :
    c.breakerHistoryCostLocked ≤ breakerHistoryLimit :=
  (Nat.le_add_right _ _).trans h.cost

theorem Accounted.finishBreakerFailure (h : Accounted settings c) (observedAt attempt : ℕ)
    (order : BreakerOrder) :
    Accounted settings (c.finishBreakerFailure settings observedAt attempt order) := by
  unfold Connector.finishBreakerFailure
  split_ifs with hmem
  swap
  · exact h
  have htake := h.recorded.take hmem
  have hcost := breakerHistoryCostLocked_take hmem
  have hle := h.cost_le
  simp only
  refine Accounted.expire (Recorded.settle_recompute ?_ ?_) observedAt
  · split_ifs with hafter
    · refine ⟨fun failure hfailure => ?_, htake.latest, ?_, fun failure hfailure => ?_,
        htake.once, htake.numbered⟩
      · rcases List.mem_append.1 hfailure with hfailure | hfailure
        · exact htake.newer failure hfailure
        · rw [List.mem_singleton.1 hfailure]
          exact hafter
      · have hnew : attempt ∉ c.breakerFailures.map (·.attempt) := fun hold => by
          obtain ⟨failure, hfailure, rfl⟩ := List.mem_map.1 hold
          exact h.recorded.once _ (h.recorded.resolved failure hfailure) hmem
        rw [List.map_append, List.map_singleton]
        exact List.nodup_append.2 ⟨h.recorded.distinct, List.nodup_singleton _,
          fun a ha b hb hab => hnew (by rwa [hab, List.mem_singleton.1 hb] at ha)⟩
      · rcases List.mem_append.1 hfailure with hfailure | hfailure
        · exact htake.resolved failure hfailure
        · rw [List.mem_singleton.1 hfailure]
          exact List.mem_cons_self
    · exact htake
  · split_ifs with hafter
    · unfold breakerHistoryCostLocked at hcost hle ⊢
      simp only [List.length_append, List.length_singleton]
      omega
    · omega

theorem Accounted.finishBreakerReachable (h : Accounted settings c) (observedAt attempt : ℕ)
    (order : BreakerOrder) :
    Accounted settings (c.finishBreakerReachable settings observedAt attempt order) := by
  unfold Connector.finishBreakerReachable
  split_ifs with hmem
  swap
  · exact h
  have htake := h.recorded.take hmem
  have hcost := breakerHistoryCostLocked_take hmem
  have hle := h.cost_le
  simp only
  refine Accounted.expire (Recorded.settle_recompute ?_ ?_) observedAt
  · split_ifs with hafter
    · have hsub : (c.breakerFailures.filter fun failure => failure.order.after order).Sublist
        c.breakerFailures := List.filter_sublist
      refine ⟨fun failure hfailure => (List.mem_filter.1 hfailure).2, fun other hother => ?_,
        (hsub.map _).nodup htake.distinct,
        fun failure hfailure => htake.resolved failure (hsub.subset hfailure), htake.once,
        htake.numbered⟩
      rcases List.mem_cons.1 hother with rfl | hother
      · exact BreakerOrder.after_self _
      · exact BreakerOrder.not_after_trans (htake.latest other hother)
          (BreakerOrder.not_after_of_after hafter)
    · refine ⟨htake.newer, fun other hother => ?_, htake.distinct, htake.resolved, htake.once,
        htake.numbered⟩
      rcases List.mem_cons.1 hother with rfl | hother
      · exact Bool.not_eq_true _ ▸ hafter
      · exact htake.latest other hother
  · split_ifs with hafter
    · have hfilter := List.length_filter_le (fun failure : BreakerFailure =>
        failure.order.after order) c.breakerFailures
      unfold breakerHistoryCostLocked at hcost hle ⊢
      unfold Connector.take at hcost ⊢
      simp only at hcost ⊢
      omega
    · unfold breakerHistoryCostLocked at hcost hle ⊢
      simp only
      omega

theorem Accounted.discardBreakerAttempt (h : Accounted settings c) (attempt : ℕ) :
    Accounted settings (c.discardBreakerAttempt settings attempt) := by
  unfold Connector.discardBreakerAttempt
  split_ifs with hmem
  swap
  · exact h
  have hcost := breakerHistoryCostLocked_take hmem
  have hle := h.cost_le
  exact (h.recorded.take hmem).settle_recompute (by omega)

/-- Every step keeps to the limit. -/
theorem Accounted.step (h : Accounted settings c) (step : BreakerStep) :
    Accounted settings (c.step settings step) := by
  cases step with
  | tryBeginAttempt expiredBefore expiredAfter now =>
    exact h.tryBeginAttempt expiredBefore expiredAfter now
  | finishBreakerFailure observedAt attempt order =>
    exact h.finishBreakerFailure observedAt attempt order
  | finishBreakerReachable observedAt attempt order =>
    exact h.finishBreakerReachable observedAt attempt order
  | discardBreakerAttempt attempt => exact h.discardBreakerAttempt attempt
  | circuitOpenWithClock now => exact h.expire now

theorem BreakerReachable.accounted (h : BreakerReachable settings c) : Accounted settings c := by
  induction h with
  | new =>
    refine ⟨⟨nofun, nofun, List.nodup_nil, nofun, nofun, ?_⟩, ⟨.nil, .inl rfl⟩, ?_, fun _ =>
      ⟨rfl, (opening_eq_zero (by exact settings.failures_pos)).symm⟩⟩
    · rintro attempt (hmem | hmem)
      · cases hmem
      · exact absurd hmem (Finset.notMem_empty _)
    · unfold breakerHistoryCostLocked Connector.new
      simp
  | step step _ ih => exact ih.step step

theorem exists_latestObservation {group : List BreakerFailure} (h : group ≠ []) :
    ∃ failure ∈ group, latestObservation group ≤ failure.observedAt := by
  suffices hfold : ∀ (group : List BreakerFailure) (earliest : ℕ),
      (group.map (·.observedAt)).foldl max earliest = earliest ∨
        ∃ failure ∈ group, (group.map (·.observedAt)).foldl max earliest = failure.observedAt by
    rcases hfold group 0 with hzero | ⟨failure, hmem, heq⟩
    · obtain ⟨failure, hmem⟩ := List.exists_mem_of_ne_nil group h
      exact ⟨failure, hmem, hzero.le.trans (Nat.zero_le _)⟩
    · exact ⟨failure, hmem, heq.le⟩
  intro group
  induction group with
  | nil => exact fun _ => .inl rfl
  | cons failure group ih =>
    intro earliest
    rw [List.map_cons, List.foldl_cons]
    rcases ih (max earliest failure.observedAt) with heq | ⟨other, hmem, heq⟩
    · rcases max_choice earliest failure.observedAt with hmax | hmax
      · exact .inl (heq.trans hmax)
      · exact .inr ⟨failure, List.mem_cons_self, heq.trans hmax⟩
    · exact .inr ⟨other, List.mem_cons_of_mem _ hmem, heq⟩

/-- An open breaker has a full group of failures, one of them observed recently. -/
theorem Accounted.circuitOpen (h : Accounted settings c) {now : ℕ}
    (hopen : (c.circuitOpenWithClock settings now).2 = true) :
    settings.failures ≤ c.breakerFailures.length ∧
      ∃ failure ∈ c.breakerFailures, now < failure.observedAt + settings.openDuration := by
  have hopen := of_decide_eq_true hopen
  rcases expire_cases h.current now with ⟨heq, -⟩ | ⟨-, -, -, last, -, -, heq⟩
  · simp only [heq] at hopen
    have hne : c.openUntil ≠ 0 := by omega
    have hopening := h.current.opened.resolve_left hne
    obtain ⟨j, hj, hattained⟩ := opening_attained (hopening ▸ hne)
    have hfits : creditedCount settings c.breakerFailures c.breakerCredits +
        j * settings.failures + settings.failures ≤ c.breakerFailures.length := by
      have hmul := Nat.mul_le_mul_right settings.failures hj
      have hdiv := Nat.div_mul_le_self (c.breakerFailures.length -
        creditedCount settings c.breakerFailures c.breakerCredits) settings.failures
      have hle : creditedCount settings c.breakerFailures c.breakerCredits ≤ _ :=
        creditedCount_le _
      rw [Nat.succ_mul] at hmul
      omega
    have hpos := settings.failures_pos
    refine ⟨by omega, ?_⟩
    have hgroup : (c.breakerFailures.drop (creditedCount settings c.breakerFailures
        c.breakerCredits + j * settings.failures)).take settings.failures ≠ [] := by
      intro hnil
      have := congrArg List.length hnil
      rw [List.length_take, List.length_drop, List.length_nil] at this
      omega
    obtain ⟨failure, hmem, hlatest⟩ := exists_latestObservation hgroup
    refine ⟨failure, List.mem_of_mem_drop (List.mem_of_mem_take hmem), ?_⟩
    rw [hopening, hattained] at hopen
    unfold candidate at hopen
    omega
  · simp only [heq] at hopen
    split_ifs at hopen <;> exact absurd hopen (Nat.not_lt_zero _)

/-- The breaker is safe however its attempts are interleaved. -/
theorem breaker_history_safe (h : BreakerReachable settings c) :
    c.breakerHistoryCostLocked ≤ breakerHistoryLimit ∧
      ((∀ failure ∈ c.breakerFailures, failure.order.after c.lastReachable = true ∧
          failure.attempt ∈ c.finished ∧ failure.attempt ∉ c.breakerAttempts) ∧
        (c.breakerFailures.map (·.attempt)).Nodup) ∧
      (∀ now, (c.circuitOpenWithClock settings now).2 = true →
        settings.failures ≤ (c.breakerFailures.filter fun failure =>
            c.reached.all fun order => failure.order.after order).length ∧
          ∃ failure ∈ c.breakerFailures, (∀ order ∈ c.reached, failure.order.after order = true) ∧
            now < failure.observedAt + settings.openDuration) ∧
      (c.breakerAttempts = ∅ →
        c.breakerCredits = [] ∧ c.openUntil = opening settings c.breakerFailures []) := by
  have haccounted := h.accounted
  have hrecorded := haccounted.recorded
  have hreached : ∀ failure ∈ c.breakerFailures, ∀ order ∈ c.reached,
      failure.order.after order = true := fun failure hmem order horder =>
    BreakerOrder.after_of_after_of_not (hrecorded.newer failure hmem)
      (hrecorded.latest order horder)
  refine ⟨haccounted.cost_le, ⟨fun failure hmem => ⟨hrecorded.newer failure hmem,
    hrecorded.resolved failure hmem, hrecorded.once _ (hrecorded.resolved failure hmem)⟩,
    hrecorded.distinct⟩, fun now hopen => ?_, haccounted.settled⟩
  obtain ⟨hlength, failure, hmem, hobserved⟩ := haccounted.circuitOpen hopen
  refine ⟨?_, failure, hmem, hreached failure hmem, hobserved⟩
  rw [List.filter_eq_self.2 fun failure hmem => List.all_eq_true.2 (hreached failure hmem)]
  exact hlength

end Steps

/-- The smallest settings. -/
def CircuitBreakerSettings.least : CircuitBreakerSettings :=
  ⟨1, 1, le_rfl, by decide, le_rfl, by decide⟩

/-- A breaker that one failure has opened, with another attempt unresolved. -/
def Connector.failedOnce : Connector :=
  ((Connector.new.step .least (.tryBeginAttempt false false 1)).step .least
    (.tryBeginAttempt false false 2)).step .least (.finishBreakerFailure 5 1 ⟨4, 1⟩)

theorem breaker_history_safe_failedOnce :
    ∃ failure ∈ Connector.failedOnce.breakerFailures, (∀ order ∈ Connector.failedOnce.reached,
      failure.order.after order = true) ∧
        6 < failure.observedAt + CircuitBreakerSettings.least.openDuration :=
  have hreachable : BreakerReachable .least .failedOnce := .step _ (.step _ (.step _ .new))
  ((breaker_history_safe hreachable).2.2.1 6 (by decide +kernel)).2

end Atlas.SourceGateway
