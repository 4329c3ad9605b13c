import Atlas.SourceGateway.Breaker

/-!
# What the steps of a circuit breaker do

After every step the failures are in order, and the breaker is open exactly as long as the groups
that are not credited say, unless that time is over and they are credited.
-/

namespace Atlas.SourceGateway

open Connector

section Orders

theorem BreakerOrder.after_iff {a b : BreakerOrder} : a.after b = true ↔
    b.completedAt < a.completedAt ∨ a.completedAt = b.completedAt ∧ b.serial < a.serial := by
  unfold BreakerOrder.after
  simp

theorem BreakerOrder.after_self (a : BreakerOrder) : a.after a = false := by
  rw [← Bool.not_eq_true, after_iff]
  omega

theorem BreakerOrder.after_of_after_of_not {a b c : BreakerOrder} (h : a.after b = true)
    (h' : c.after b = false) : a.after c = true := by
  rw [← Bool.not_eq_true, after_iff] at h'
  rw [after_iff] at h ⊢
  omega

theorem BreakerOrder.not_after_trans {a b c : BreakerOrder} (h : a.after b = false)
    (h' : b.after c = false) : a.after c = false := by
  rw [← Bool.not_eq_true, after_iff] at h h' ⊢
  omega

theorem BreakerOrder.eq_of_not_after {a b : BreakerOrder} (h : a.after b = false)
    (h' : b.after a = false) : a = b := by
  rw [← Bool.not_eq_true, after_iff] at h h'
  cases a
  cases b
  simp only [mk.injEq]
  simp only at h h'
  omega

theorem BreakerOrder.not_after_of_after {a b : BreakerOrder} (h : a.after b = true) :
    b.after a = false := by
  rw [after_iff] at h
  rw [← Bool.not_eq_true, after_iff]
  omega

instance : Std.Total NotAfter where
  total a b := by
    unfold NotAfter
    by_cases h : a.order.after b.order = true
    · exact .inr (BreakerOrder.not_after_of_after h)
    · exact .inl (Bool.not_eq_true _ ▸ h)

instance : IsTrans BreakerFailure NotAfter where
  trans _ _ _ h h' := BreakerOrder.not_after_trans h h'

abbrev sorted (failures : List BreakerFailure) : List BreakerFailure :=
  failures.insertionSort NotAfter

theorem sorted_pairwise (failures : List BreakerFailure) : (sorted failures).Pairwise NotAfter :=
  List.pairwise_insertionSort _ _

theorem sorted_eq {failures : List BreakerFailure} (h : failures.Pairwise NotAfter) :
    sorted failures = failures := h.insertionSort_eq

end Orders

section Groups

variable {settings : CircuitBreakerSettings} {failures : List BreakerFailure}
  {credits : List BreakerCredit}

/-- How many failures the credits are for. -/
def creditedCount (settings : CircuitBreakerSettings) (failures : List BreakerFailure)
    (credits : List BreakerCredit) : ℕ :=
  credits.foldl (fun credited credit =>
    creditGroups settings failures credit credit.groups credited) 0

/-- Until when the groups that are not credited keep the breaker open. -/
def opening (settings : CircuitBreakerSettings) (failures : List BreakerFailure)
    (credits : List BreakerCredit) : ℕ :=
  openUntilGroups settings
    ((failures.length - creditedCount settings failures credits) / settings.failures)
    (failures.drop (creditedCount settings failures credits)) 0

/-- Until when the group from a failure on keeps the breaker open. -/
def candidate (settings : CircuitBreakerSettings) (failures : List BreakerFailure) (start : ℕ) :
    ℕ :=
  latestObservation ((failures.drop start).take settings.failures) + settings.openDuration

theorem creditGroups_le (credit : BreakerCredit) : ∀ (groups credited : ℕ),
    credited ≤ failures.length → creditGroups settings failures credit groups credited ≤
      failures.length
  | 0, _, h => h
  | groups + 1, credited, h => by
    unfold creditGroups
    simp only
    split_ifs with hlength
    · exact h
    · exact creditGroups_le credit groups _ hlength
    · exact h

theorem creditedCount_le (credits : List BreakerCredit) :
    creditedCount settings failures credits ≤ failures.length := by
  unfold creditedCount
  suffices h : ∀ credited, credited ≤ failures.length →
      credits.foldl (fun credited credit =>
        creditGroups settings failures credit credit.groups credited) credited ≤
          failures.length from h 0 (Nat.zero_le _)
  induction credits with
  | nil => exact fun credited h => h
  | cons credit credits ih => exact fun credited h => ih _ (creditGroups_le credit _ credited h)

theorem openUntilGroups_succ (groups : ℕ) (failures : List BreakerFailure) (openUntil : ℕ) :
    openUntilGroups settings (groups + 1) failures openUntil =
      openUntilGroups settings groups (failures.drop settings.failures)
        (if openUntil < candidate settings failures 0 then candidate settings failures 0
          else openUntil) := by
  simp only [openUntilGroups, candidate, List.drop_zero]

theorem le_openUntilGroups : ∀ (groups : ℕ) (failures : List BreakerFailure) (openUntil : ℕ),
    openUntil ≤ openUntilGroups settings groups failures openUntil ∧
      ∀ j < groups, candidate settings failures (j * settings.failures) ≤
        openUntilGroups settings groups failures openUntil
  | 0, _, _ => ⟨le_rfl, fun j hj => absurd hj (Nat.not_lt_zero j)⟩
  | groups + 1, failures, openUntil => by
    obtain ⟨hle, hgroups⟩ := le_openUntilGroups groups (failures.drop settings.failures)
      (if openUntil < candidate settings failures 0 then candidate settings failures 0
        else openUntil)
    rw [openUntilGroups_succ]
    refine ⟨?_, fun j hj => ?_⟩
    · split_ifs at hle ⊢ with hlt
      · exact hlt.le.trans hle
      · exact hle
    · cases j with
      | zero =>
        rw [Nat.zero_mul]
        split_ifs at hle ⊢ with hlt
        · exact hle
        · exact (Nat.le_of_not_lt hlt).trans hle
      | succ j =>
        have hcandidate := hgroups j (Nat.lt_of_succ_lt_succ hj)
        unfold candidate at hcandidate
        rw [List.drop_drop] at hcandidate
        unfold candidate
        rw [Nat.succ_mul, Nat.add_comm (j * settings.failures)]
        exact hcandidate

theorem openUntilGroups_attained : ∀ (groups : ℕ) (failures : List BreakerFailure)
    (openUntil : ℕ), openUntilGroups settings groups failures openUntil = openUntil ∨
      ∃ j < groups, openUntilGroups settings groups failures openUntil =
        candidate settings failures (j * settings.failures)
  | 0, _, _ => .inl rfl
  | groups + 1, failures, openUntil => by
    rw [openUntilGroups_succ]
    rcases openUntilGroups_attained groups (failures.drop settings.failures)
      (if openUntil < candidate settings failures 0 then candidate settings failures 0
        else openUntil) with heq | ⟨j, hj, heq⟩
    · rw [heq]
      split_ifs
      · exact .inr ⟨0, Nat.succ_pos _, by rw [Nat.zero_mul]⟩
      · exact .inl rfl
    · refine .inr ⟨j + 1, Nat.succ_lt_succ hj, heq.trans ?_⟩
      unfold candidate
      rw [List.drop_drop, Nat.succ_mul, Nat.add_comm (j * settings.failures)]

theorem candidate_drop (start j : ℕ) : candidate settings (failures.drop start) j =
    candidate settings failures (start + j) := by
  unfold candidate
  rw [List.drop_drop]

/-- The groups that are not credited open the breaker no longer than until then. -/
theorem candidate_le_opening {j : ℕ}
    (hj : j < (failures.length - creditedCount settings failures credits) / settings.failures) :
    candidate settings failures
        (creditedCount settings failures credits + j * settings.failures) ≤
      opening settings failures credits := by
  rw [← candidate_drop]
  exact (le_openUntilGroups _ _ _).2 j hj

/-- An open breaker is so because of a group that is not credited. -/
theorem opening_attained (h : opening settings failures credits ≠ 0) :
    ∃ j < (failures.length - creditedCount settings failures credits) / settings.failures,
      opening settings failures credits = candidate settings failures
        (creditedCount settings failures credits + j * settings.failures) := by
  rcases openUntilGroups_attained _ _ _ with heq | ⟨j, hj, heq⟩
  · exact absurd heq h
  · exact ⟨j, hj, heq.trans (candidate_drop _ _)⟩

theorem opening_eq_zero (h : failures.length < settings.failures) :
    opening settings failures [] = 0 := by
  unfold opening creditedCount
  rw [List.foldl_nil, Nat.sub_zero, Nat.div_eq_of_lt h]
  rfl

/-- A credit given when all groups are over is for all of them. -/
theorem creditGroups_all (hsorted : failures.Pairwise NotAfter) {credited groups : ℕ}
    {last : BreakerFailure} {now : ℕ} (hlength : credited + groups * settings.failures ≤
      failures.length)
    (hlast : failures[credited + groups * settings.failures - 1]? = some last)
    (hover : ∀ j < groups,
      candidate settings failures (credited + j * settings.failures) ≤ now) :
    ∀ left j, j + left = groups →
      creditGroups settings failures ⟨groups, last.order, now⟩ left
          (credited + j * settings.failures) = credited + groups * settings.failures
  | 0, j, hj => by
    rw [← hj]
    rfl
  | left + 1, j, hj => by
    have hlt : j < groups := by omega
    have hmul : (j + 1) * settings.failures ≤ groups * settings.failures :=
      Nat.mul_le_mul_right _ hlt
    rw [Nat.succ_mul] at hmul
    unfold creditGroups
    simp only
    rw [if_pos (by omega), if_neg]
    · rw [Nat.add_assoc, ← Nat.succ_mul]
      exact creditGroups_all hsorted hlength hlast hover left (j + 1) (by omega)
    · have hcandidate := hover j hlt
      unfold candidate at hcandidate
      simp only [Bool.or_eq_true, List.any_eq_true, decide_eq_true_eq, not_or, not_exists, not_and,
        Bool.not_eq_true]
      refine ⟨fun failure hmem => ?_, by omega⟩
      obtain ⟨i, hi⟩ := List.mem_iff_getElem?.1 hmem
      obtain ⟨hi', hget⟩ := List.getElem?_eq_some_iff.1 hi
      rw [List.length_take, List.length_drop] at hi'
      rw [List.getElem_take, List.getElem_drop] at hget
      obtain ⟨hlast', hget'⟩ := List.getElem?_eq_some_iff.1 hlast
      rcases Nat.lt_or_ge (credited + j * settings.failures + i)
        (credited + groups * settings.failures - 1) with hbefore | hafter
      · rw [← hget, ← hget']
        exact List.pairwise_iff_getElem.1 hsorted _ _ _ _ hbefore
      · have hsame : credited + j * settings.failures + i =
            credited + groups * settings.failures - 1 := by omega
        have hfailure : failure = last := by
          rw [← hget, ← hget']
          congr 1
        rw [hfailure]
        exact BreakerOrder.after_self _

end Groups

section Operations

variable {settings : CircuitBreakerSettings} {c : Connector}

theorem creditedFailureCountLocked_eq (c : Connector) : c.creditedFailureCountLocked settings =
    creditedCount settings c.breakerFailures c.breakerCredits := rfl

/-- What a resolved attempt leaves to count. -/
theorem settle_recompute (c : Connector) :
    (c.settleExpiredBreakerGroupsLocked settings).recomputeBreakerLocked settings =
      if c.breakerAttempts = ∅ then
        { c with
          breakerFailures := (sorted c.breakerFailures).drop
            (creditedCount settings (sorted c.breakerFailures) c.breakerCredits)
          breakerCredits := []
          openUntil := opening settings ((sorted c.breakerFailures).drop
            (creditedCount settings (sorted c.breakerFailures) c.breakerCredits)) [] }
      else
        { c with
          breakerFailures := sorted c.breakerFailures
          openUntil := opening settings (sorted c.breakerFailures) c.breakerCredits } := by
  have hdrop : ∀ k, sorted ((sorted c.breakerFailures).drop k) =
      (sorted c.breakerFailures).drop k := fun k =>
    sorted_eq ((sorted_pairwise _).sublist (List.drop_sublist _ _))
  by_cases hattempts : c.breakerAttempts = ∅
  · rw [if_pos hattempts]
    unfold settleExpiredBreakerGroupsLocked
    by_cases hcredits : c.breakerCredits = []
    · rw [if_pos (.inr hcredits)]
      have hcount : creditedCount settings (sorted c.breakerFailures) c.breakerCredits = 0 := by
        rw [hcredits]
        rfl
      rw [hcount, List.drop_zero]
      unfold recomputeBreakerLocked sortBreakerFailuresLocked
      simp only [creditedFailureCountLocked_eq, hcredits]
      rfl
    · rw [if_neg (by simp [hattempts, hcredits])]
      unfold recomputeBreakerLocked sortBreakerFailuresLocked
      simp only [creditedFailureCountLocked_eq]
      have h := hdrop (creditedCount settings (sorted c.breakerFailures) c.breakerCredits)
      unfold sorted at h
      rw [h]
      rfl
  · rw [if_neg hattempts]
    unfold settleExpiredBreakerGroupsLocked
    rw [if_pos (.inl hattempts)]
    rfl

/-- The failures are in order, and the breaker is open as long as they say, or its time is over. -/
structure Current (settings : CircuitBreakerSettings) (c : Connector) : Prop where
  inOrder : c.breakerFailures.Pairwise NotAfter
  opened : c.openUntil = 0 ∨
    c.openUntil = opening settings c.breakerFailures c.breakerCredits

/-- The groups that are not credited. -/
def openGroups (settings : CircuitBreakerSettings) (c : Connector) : ℕ :=
  (c.breakerFailures.length - creditedCount settings c.breakerFailures c.breakerCredits) /
    settings.failures

/-- The credited failures once all groups are. -/
def allCredited (settings : CircuitBreakerSettings) (c : Connector) : ℕ :=
  creditedCount settings c.breakerFailures c.breakerCredits +
    openGroups settings c * settings.failures

theorem allCredited_le (c : Connector) :
    allCredited settings c ≤ c.breakerFailures.length := by
  have hle : creditedCount settings c.breakerFailures c.breakerCredits ≤ _ := creditedCount_le _
  have hdiv := Nat.div_mul_le_self (c.breakerFailures.length -
    creditedCount settings c.breakerFailures c.breakerCredits) settings.failures
  unfold allCredited openGroups
  omega

theorem length_sub_allCredited_lt (c : Connector) :
    c.breakerFailures.length - allCredited settings c < settings.failures := by
  have hle : creditedCount settings c.breakerFailures c.breakerCredits ≤ _ := creditedCount_le _
  have hpos := settings.failures_pos
  have hlt := Nat.lt_div_mul_add (a := c.breakerFailures.length -
    creditedCount settings c.breakerFailures c.breakerCredits) hpos
  unfold allCredited openGroups
  omega

/-- The breaker when its time is over: all groups are credited, and used up without unresolved
attempts. -/
theorem expire_cases (h : Current settings c) (now : ℕ) :
    c.expireBreakerLocked settings now = c ∧ (c.openUntil = 0 ∨ now < c.openUntil) ∨
    c.openUntil ≠ 0 ∧ c.openUntil ≤ now ∧ 0 < openGroups settings c ∧
      ∃ last, c.breakerFailures[allCredited settings c - 1]? = some last ∧
        creditedCount settings c.breakerFailures
            (c.breakerCredits ++ [⟨openGroups settings c, last.order, now⟩]) =
          allCredited settings c ∧
        c.expireBreakerLocked settings now =
          if c.breakerAttempts = ∅ then
            { c with
              openUntil := 0
              breakerFailures := c.breakerFailures.drop (allCredited settings c)
              breakerCredits := [] }
          else
            { c with
              openUntil := 0
              breakerCredits :=
                c.breakerCredits ++ [⟨openGroups settings c, last.order, now⟩] } := by
  by_cases hskip : c.openUntil = 0 ∨ now < c.openUntil
  · refine .inl ⟨?_, hskip⟩
    unfold expireBreakerLocked
    rw [if_pos hskip]
  · rw [not_or, Nat.not_lt] at hskip
    obtain ⟨hopen, hover⟩ := hskip
    have hopening : c.openUntil = opening settings c.breakerFailures c.breakerCredits :=
      h.opened.resolve_left hopen
    have hgroups : 0 < openGroups settings c := by
      rw [hopening] at hopen
      obtain ⟨j, hj, -⟩ := opening_attained hopen
      exact Nat.zero_lt_of_lt hj
    have hle : allCredited settings c ≤ _ := allCredited_le c
    have hpos : 0 < allCredited settings c := by
      have := Nat.mul_pos hgroups settings.failures_pos
      unfold allCredited
      omega
    obtain ⟨last, hlast⟩ : ∃ last, c.breakerFailures[allCredited settings c - 1]? = some last :=
      ⟨_, List.getElem?_eq_getElem (by omega)⟩
    have hcount : creditedCount settings c.breakerFailures (c.breakerCredits ++
        [⟨openGroups settings c, last.order, now⟩]) = allCredited settings c := by
      have hover' : ∀ j < openGroups settings c, candidate settings c.breakerFailures
          (creditedCount settings c.breakerFailures c.breakerCredits + j * settings.failures) ≤
            now := fun j hj => (candidate_le_opening hj).trans (hopening ▸ hover)
      have hall := creditGroups_all h.inOrder hle hlast hover' (openGroups settings c) 0
        (Nat.zero_add _)
      rw [Nat.zero_mul, Nat.add_zero] at hall
      unfold creditedCount at hall ⊢
      rw [List.foldl_append, List.foldl_cons, List.foldl_nil]
      exact hall
    refine .inr ⟨hopen, hover, hgroups, _, hlast, hcount, ?_⟩
    have hsort : sorted c.breakerFailures = c.breakerFailures := sorted_eq h.inOrder
    unfold expireBreakerLocked
    rw [if_neg (by rw [not_or, Nat.not_lt]; exact ⟨hopen, hover⟩)]
    have hsort' : { c with openUntil := 0 }.sortBreakerFailuresLocked =
        { c with openUntil := 0 } := by
      unfold sortBreakerFailuresLocked
      rw [show List.insertionSort NotAfter c.breakerFailures = c.breakerFailures from hsort]
    simp only [hsort', creditedFailureCountLocked_eq]
    have hindex : creditedCount settings c.breakerFailures c.breakerCredits +
        (c.breakerFailures.length - creditedCount settings c.breakerFailures c.breakerCredits) /
          settings.failures * settings.failures - 1 = allCredited settings c - 1 := rfl
    rw [hindex, hlast]
    have hgroups' : 0 < (c.breakerFailures.length -
      creditedCount settings c.breakerFailures c.breakerCredits) / settings.failures := hgroups
    simp only [hgroups', if_true]
    by_cases hattempts : c.breakerAttempts = ∅
    · rw [if_neg (not_not.2 hattempts), if_pos hattempts, settle_recompute, if_pos hattempts]
      simp only [hsort]
      have hcount' := hcount
      unfold openGroups at hcount'
      rw [hcount', opening_eq_zero]
      rw [List.length_drop]
      exact length_sub_allCredited_lt c
    · rw [if_pos hattempts, if_neg hattempts]
      rfl

end Operations

end Atlas.SourceGateway
