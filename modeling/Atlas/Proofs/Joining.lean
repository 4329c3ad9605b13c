import Atlas.Link.Joining

/-!
# What a join service keeps apart

While an attempt's completed record is kept, no handler is on the way to admit its Asset again: a
new challenge, a response and an admission each need that there is none, and each is entered in a
collection that keeps others out for as long as it goes on.
-/

namespace Atlas.Link.Joining

open GatewayJoinService

variable {checks : TextChecks} {rendezvousChannel : ℕ} {s : GatewayJoinService} {id : ℕ}

section Operations

/-- The attempt a handler gets a challenge for. -/
def Operation.challenges : Operation → Option String
  | .challenging beacon _ _ => some beacon.joinAttemptID
  | .proving beacon _ _ _ => some beacon.joinAttemptID
  | _ => none

/-- The attempt a handler processes a response for. -/
def Operation.responds : Operation → Option String
  | .verifying _ joinAttemptID _ _ => some joinAttemptID
  | .admitting _ joinAttemptID _ _ _ => some joinAttemptID
  | .notifying _ joinAttemptID _ _ _ => some joinAttemptID
  | .accepting joinAttemptID => some joinAttemptID
  | _ => none

/-- The attempt of a response whose record is not there yet. -/
def Operation.admits : Operation → Option String
  | .accepting _ => none
  | operation => Operation.responds operation

def countOf (f : Operation → Option String) (joinAttemptID : String)
    (operations : List Operation) : ℕ :=
  operations.countP fun operation => f operation = some joinAttemptID

theorem countOf_append (f : Operation → Option String) (J : String) (operations : List Operation)
    (operation : Operation) :
    countOf f J (operations ++ [operation]) =
      countOf f J operations + (decide (f operation = some J)).toNat := by
  unfold countOf
  rw [List.countP_append]
  by_cases h : f operation = some J <;> simp [h]

theorem countOf_set (f : Operation → Option String) (J : String) {operations : List Operation}
    {operation : Operation} (h : operations[id]? = some operation) (operation' : Operation) :
    countOf f J (operations.set id operation') + (decide (f operation = some J)).toNat =
      countOf f J operations + (decide (f operation' = some J)).toNat := by
  obtain ⟨hlt, heq⟩ := List.getElem?_eq_some_iff.1 h
  have hpos : f operation = some J → 0 < countOf f J operations := by
    intro hf
    unfold countOf
    exact List.countP_pos_iff.2 ⟨operation, List.mem_of_getElem? h, by simpa using hf⟩
  unfold countOf at hpos ⊢
  rw [List.countP_set hlt, heq]
  by_cases hf : f operation = some J
  · have := hpos hf
    by_cases hf' : f operation' = some J
    · simp [hf, hf']
      omega
    · simp [hf, hf']
      omega
  · by_cases hf' : f operation' = some J <;> simp [hf, hf']

theorem countOf_pos {f : Operation → Option String} {J : String} {operations : List Operation}
    {operation : Operation} (h : operations[id]? = some operation) (hf : f operation = some J) :
    0 < countOf f J operations :=
  List.countP_pos_iff.2 ⟨operation, List.mem_of_getElem? h, by simpa using hf⟩

theorem two_le_countOf {f : Operation → Option String} {J : String} {operations : List Operation}
    {a b : Operation} (ha : a ∈ operations) (hb : b ∈ operations) (hne : a ≠ b)
    (hfa : f a = some J) (hfb : f b = some J) : 2 ≤ countOf f J operations := by
  have hsub : [a, b] ⊆ operations.filter fun operation => f operation = some J := by
    intro x hx
    rcases List.mem_cons.1 hx with rfl | hx
    · exact List.mem_filter.2 ⟨ha, by simpa using hfa⟩
    · rw [List.mem_singleton.1 hx]
      exact List.mem_filter.2 ⟨hb, by simpa using hfb⟩
  have hnodup : [a, b].Nodup := by simpa using hne
  have hle := (hnodup.subperm hsub).length_le
  unfold countOf
  rw [List.countP_eq_length_filter]
  exact hle

theorem countOf_admits_le (J : String) (operations : List Operation) :
    countOf Operation.admits J operations ≤ countOf Operation.responds J operations := by
  refine List.countP_mono_left fun operation _ h => ?_
  cases operation <;> simp_all [Operation.admits, Operation.responds]

end Operations

section Keeping

def admissionsOf (s : GatewayJoinService) (joinAttemptID : String) : List Admission :=
  s.admissions.filter fun a => a.joinAttemptID = joinAttemptID

/-- The Asset and its generation of the last admission for an attempt. -/
def lastAdmission (s : GatewayJoinService) (joinAttemptID : String) : Option (String × ℕ) :=
  (admissionsOf s joinAttemptID).getLast?.map fun a => (a.assetID, a.sourceGeneration)

/-- What the collections of an open service say of its handlers. -/
structure Kept (s : GatewayJoinService) : Prop where
  challenging : ∀ J, countOf Operation.challenges J s.operations =
    (s.pendingChallenges.has J).toNat
  responding : ∀ J, countOf Operation.responds J s.operations = (s.processing.has J).toNat
  recorded : ∀ J, s.completed.has J = true → countOf Operation.admits J s.operations = 0 ∧
    s.pendingChallenges.has J = false ∧ (s.pending.has J = true → s.processing.has J = true)
  apart : ∀ J, s.pendingChallenges.has J = true → s.pending.has J = false
  within : ∀ J, s.processing.has J = true → s.pending.has J = true
  room : s.pending.size + s.pendingChallenges.size ≤ maxPendingJoins
  record : ∀ J completed, s.completed.get J = some completed →
    lastAdmission s J = some (completed.beacon.assetID, completed.acceptance.sourceGeneration)
  notified : ∀ join J source receivedAt acceptance,
    .notifying join J source receivedAt acceptance ∈ s.operations →
      lastAdmission s J = some (join.beacon.assetID, acceptance.sourceGeneration)

variable {s' : GatewayJoinService}

theorem Kept.of_eq (h : Kept s) (hpending : s'.pending = s.pending)
    (hcompleted : s'.completed = s.completed) (hprocessing : s'.processing = s.processing)
    (hchallenges : s'.pendingChallenges = s.pendingChallenges)
    (hoperations : s'.operations = s.operations) (hadmissions : s'.admissions = s.admissions) :
    Kept s' := by
  obtain ⟨h₁, h₂, h₃, h₄, h₅, h₆, h₇, h₈⟩ := h
  unfold lastAdmission admissionsOf at h₇ h₈
  constructor
  · rw [hoperations, hchallenges]
    exact h₁
  · rw [hoperations, hprocessing]
    exact h₂
  · rw [hoperations, hcompleted, hchallenges, hpending, hprocessing]
    exact h₃
  · rw [hchallenges, hpending]
    exact h₄
  · rw [hprocessing, hpending]
    exact h₅
  · rw [hpending, hchallenges]
    exact h₆
  · unfold lastAdmission admissionsOf
    rw [hcompleted, hadmissions]
    exact h₇
  · unfold lastAdmission admissionsOf
    rw [hoperations, hadmissions]
    exact h₈

/-- A handler starts that gets no challenge and processes no response. -/
theorem Kept.start (h : Kept s) {operation : Operation}
    (hchallenges : Operation.challenges operation = none)
    (hresponds : Operation.responds operation = none)
    (hadmits : Operation.admits operation = none) : Kept (s.start operation) := by
  refine ⟨fun J => ?_, fun J => ?_, fun J hJ => ?_, h.apart, h.within, h.room, h.record,
    fun join J source receivedAt acceptance hmem => ?_⟩
  · show countOf _ _ (s.operations ++ [operation]) = _
    rw [countOf_append, hchallenges, h.challenging]
    simp
    rfl
  · show countOf _ _ (s.operations ++ [operation]) = _
    rw [countOf_append, hresponds, h.responding]
    simp
    rfl
  · refine ⟨?_, (h.recorded J hJ).2⟩
    show countOf _ _ (s.operations ++ [operation]) = _
    rw [countOf_append, hadmits, (h.recorded J hJ).1]
    simp
  · rcases List.mem_append.1 hmem with hmem | hmem
    · exact h.notified _ _ _ _ _ hmem
    · rw [← List.mem_singleton.1 hmem] at hresponds
      cases hresponds

/-- A handler goes on to wait at another place for the same. -/
theorem Kept.resume (h : Kept s) {operation operation' : Operation}
    (hop : s.operations[id]? = some operation)
    (hchallenges : Operation.challenges operation' = Operation.challenges operation)
    (hresponds : Operation.responds operation' = Operation.responds operation)
    (hadmits : Operation.admits operation' = Operation.admits operation)
    (hnotifies : ∀ join J source receivedAt acceptance,
      operation' = .notifying join J source receivedAt acceptance →
        lastAdmission s J = some (join.beacon.assetID, acceptance.sourceGeneration)) :
    Kept (s.resume id operation') := by
  have hcount : ∀ f : Operation → Option String, f operation' = f operation →
      ∀ J, countOf f J (s.operations.set id operation') = countOf f J s.operations := by
    intro f hf J
    have := countOf_set f J hop operation'
    rw [hf] at this
    omega
  refine ⟨fun J => ?_, fun J => ?_, fun J hJ => ?_, h.apart, h.within, h.room, h.record,
    fun join J source receivedAt acceptance hmem => ?_⟩
  · exact (hcount _ hchallenges J).trans (h.challenging J)
  · exact (hcount _ hresponds J).trans (h.responding J)
  · exact ⟨(hcount _ hadmits J).trans (h.recorded J hJ).1, (h.recorded J hJ).2⟩
  · rcases List.mem_or_eq_of_mem_set hmem with hmem | heq
    · exact h.notified _ _ _ _ _ hmem
    · exact hnotifies _ _ _ _ _ heq.symm

/-- The challenge for an attempt ends. -/
theorem Kept.endChallenge (h : Kept s) {operation : Operation} {J₀ : String}
    (hop : s.operations[id]? = some operation)
    (hchallenges : Operation.challenges operation = some J₀)
    (hresponds : Operation.responds operation = none)
    (hadmits : Operation.admits operation = none) : Kept (s.endChallenge J₀ id) := by
  have hsize := OrderedMap.size_delete_le (m := s.pendingChallenges) (k := J₀)
  have hroom := h.room
  refine ⟨fun J => ?_, fun J => ?_, fun J hJ => ⟨?_, ?_, (h.recorded J hJ).2.2⟩, fun J hJ => ?_,
    h.within, ?_, h.record, fun join J source receivedAt acceptance hmem => ?_⟩
  · show countOf _ _ (s.operations.set id .done) = ((s.pendingChallenges.delete J₀).has J).toNat
    have hset := countOf_set Operation.challenges J hop .done
    have hpos := countOf_pos (J := J) hop (f := Operation.challenges)
    rw [hchallenges, h.challenging] at hset
    rw [hchallenges, h.challenging] at hpos
    rw [OrderedMap.has_delete]
    by_cases hJ : J = J₀
    · subst hJ
      have := hpos rfl
      have hle := Bool.toNat_le (s.pendingChallenges.has J)
      simp [Operation.challenges] at hset ⊢
      omega
    · simp [Operation.challenges, hJ, Ne.symm hJ] at hset ⊢
      exact hset
  · show countOf _ _ (s.operations.set id .done) = (s.processing.has J).toNat
    have hset := countOf_set Operation.responds J hop .done
    rw [hresponds, h.responding] at hset
    simpa [Operation.responds] using hset
  · show countOf _ _ (s.operations.set id .done) = _
    have hset := countOf_set Operation.admits J hop .done
    rw [hadmits, (h.recorded J hJ).1] at hset
    simpa [Operation.admits, Operation.responds] using hset
  · show (s.pendingChallenges.delete J₀).has J = false
    rw [OrderedMap.has_delete, (h.recorded J hJ).2.1, Bool.and_false]
  · have hJ' : (s.pendingChallenges.delete J₀).has J = true := hJ
    rw [OrderedMap.has_delete, Bool.and_eq_true] at hJ'
    exact h.apart J hJ'.2
  · show s.pending.size + (s.pendingChallenges.delete J₀).size ≤ _
    omega
  · rcases List.mem_or_eq_of_mem_set hmem with hmem | heq
    · exact h.notified _ _ _ _ _ hmem
    · cases heq

/-- The handler of a response ends, whichever way. -/
theorem Kept.endResponse (h : Kept s) {operation : Operation} {J₀ : String}
    (hop : s.operations[id]? = some operation)
    (hchallenges : Operation.challenges operation = none)
    (hresponds : Operation.responds operation = some J₀) : Kept (s.endResponse J₀ id) := by
  have hsize := OrderedMap.size_delete_le (m := s.pending) (k := J₀)
  have hroom := h.room
  have hresponding : ∀ J, countOf Operation.responds J (s.operations.set id .done) =
      ((s.processing.delete J₀).has J).toNat := by
    intro J
    have hset := countOf_set Operation.responds J hop .done
    have hpos := countOf_pos (J := J) hop (f := Operation.responds)
    rw [hresponds, h.responding] at hset
    rw [hresponds, h.responding] at hpos
    rw [OrderedMap.has_delete]
    by_cases hJ : J = J₀
    · subst hJ
      have := hpos rfl
      have hle := Bool.toNat_le (s.processing.has J)
      simp [Operation.responds] at hset ⊢
      omega
    · simp [Operation.responds, hJ, Ne.symm hJ] at hset ⊢
      exact hset
  refine ⟨fun J => ?_, hresponding, fun J hJ => ⟨?_, (h.recorded J hJ).2.1, fun hpending => ?_⟩,
    fun J hJ => ?_, fun J hJ => ?_, ?_, h.record,
    fun join J source receivedAt acceptance hmem => ?_⟩
  · show countOf _ _ (s.operations.set id .done) = (s.pendingChallenges.has J).toNat
    have hset := countOf_set Operation.challenges J hop .done
    rw [hchallenges, h.challenging] at hset
    simpa [Operation.challenges] using hset
  · have hset := countOf_set Operation.admits J hop .done
    rw [(h.recorded J hJ).1] at hset
    have hdone : (decide (Operation.admits .done = some J)).toNat = 0 := by
      simp [Operation.admits, Operation.responds]
    show countOf _ _ (s.operations.set id .done) = 0
    omega
  · have hpending' : (s.pending.delete J₀).has J = true := hpending
    rw [OrderedMap.has_delete, Bool.and_eq_true] at hpending'
    show (s.processing.delete J₀).has J = true
    rw [OrderedMap.has_delete, hpending'.1, (h.recorded J hJ).2.2 hpending'.2]
    rfl
  · show (s.pending.delete J₀).has J = false
    rw [OrderedMap.has_delete, h.apart J hJ, Bool.and_false]
  · have hJ' : (s.processing.delete J₀).has J = true := hJ
    rw [OrderedMap.has_delete, Bool.and_eq_true] at hJ'
    show (s.pending.delete J₀).has J = true
    rw [OrderedMap.has_delete, hJ'.1, h.within J hJ'.2]
    rfl
  · show (s.pending.delete J₀).size + s.pendingChallenges.size ≤ _
    omega
  · rcases List.mem_or_eq_of_mem_set hmem with hmem | heq
    · exact h.notified _ _ _ _ _ hmem
    · cases heq

/-- A challenge is asked for, for an attempt of which nothing is known. -/
theorem Kept.startChallenge (h : Kept s) {beacon : DiscoveryBeacon} (source receivedAt : ℕ)
    (hcompleted : s.completed.has beacon.joinAttemptID = false)
    (hpending : s.pending.has beacon.joinAttemptID = false)
    (hchallenge : s.pendingChallenges.has beacon.joinAttemptID = false)
    (hroom : s.pending.size + s.pendingChallenges.size < maxPendingJoins) :
    Kept ({ s with
      pendingChallenges := s.pendingChallenges.set beacon.joinAttemptID () }.start
        (.challenging beacon source receivedAt)) := by
  have hsize := OrderedMap.size_set_le (m := s.pendingChallenges) (k := beacon.joinAttemptID)
    (v := ())
  refine ⟨fun J => ?_, fun J => ?_, fun J hJ => ⟨?_, ?_, (h.recorded J hJ).2.2⟩, fun J hJ => ?_,
    h.within, ?_, h.record, fun join J source receivedAt acceptance hmem => ?_⟩
  · show countOf _ _ (s.operations ++ [_]) = ((s.pendingChallenges.set _ ()).has J).toNat
    rw [countOf_append, h.challenging, OrderedMap.has_set]
    by_cases hJ : J = beacon.joinAttemptID
    · simp [hJ, hchallenge, Operation.challenges]
    · simp [hJ, Ne.symm hJ, Operation.challenges]
  · show countOf _ _ (s.operations ++ [_]) = (s.processing.has J).toNat
    rw [countOf_append, h.responding]
    simp [Operation.responds]
  · show countOf _ _ (s.operations ++ [_]) = 0
    rw [countOf_append, (h.recorded J hJ).1]
    simp [Operation.admits, Operation.responds]
  · have hne : J ≠ beacon.joinAttemptID := by
      rintro rfl
      have hJ' : s.completed.has beacon.joinAttemptID = true := hJ
      rw [hcompleted] at hJ'
      cases hJ'
    show (s.pendingChallenges.set _ ()).has J = false
    rw [OrderedMap.has_set, (h.recorded J hJ).2.1]
    simp [hne]
  · have hJ' : (s.pendingChallenges.set beacon.joinAttemptID ()).has J = true := hJ
    rw [OrderedMap.has_set, Bool.or_eq_true, decide_eq_true_eq] at hJ'
    rcases hJ' with rfl | hJ'
    · exact hpending
    · exact h.apart J hJ'
  · show s.pending.size + (s.pendingChallenges.set beacon.joinAttemptID ()).size ≤ _
    omega
  · rcases List.mem_append.1 hmem with hmem | hmem
    · exact h.notified _ _ _ _ _ hmem
    · cases List.mem_singleton.1 hmem

/-- A response is processed, of a pending join for which none is. -/
theorem Kept.startResponse (h : Kept s) {join : PendingJoin} {J₀ : String}
    (hpending : s.pending.get J₀ = some join) (hprocessing : s.processing.has J₀ = false)
    (source receivedAt : ℕ) (honoured : List (PendingJoin × String × ℕ)) :
    Kept ({ s with
      processing := s.processing.set J₀ ()
      honoured := honoured }.start (.verifying join J₀ source receivedAt)) := by
  have hhas : s.pending.has J₀ = true := OrderedMap.has_eq_true_iff.2 ⟨join, hpending⟩
  have hcompleted : s.completed.has J₀ = false := by
    by_contra hrecord
    rw [Bool.not_eq_false] at hrecord
    have := (h.recorded J₀ hrecord).2.2 hhas
    rw [hprocessing] at this
    cases this
  refine ⟨fun J => ?_, fun J => ?_, fun J hJ => ⟨?_, (h.recorded J hJ).2.1, fun hp => ?_⟩, h.apart,
    fun J hJ => ?_, h.room, h.record, fun join J source receivedAt acceptance hmem => ?_⟩
  · show countOf _ _ (s.operations ++ [_]) = (s.pendingChallenges.has J).toNat
    rw [countOf_append, h.challenging]
    simp [Operation.challenges]
  · show countOf _ _ (s.operations ++ [_]) = ((s.processing.set J₀ ()).has J).toNat
    rw [countOf_append, h.responding, OrderedMap.has_set]
    by_cases hJ : J = J₀
    · simp [hJ, hprocessing, Operation.responds]
    · simp [hJ, Ne.symm hJ, Operation.responds]
  · have hne : J₀ ≠ J := by
      rintro rfl
      have hJ' : s.completed.has J₀ = true := hJ
      rw [hcompleted] at hJ'
      cases hJ'
    show countOf _ _ (s.operations ++ [_]) = 0
    rw [countOf_append, (h.recorded J hJ).1]
    simp [Operation.admits, Operation.responds, hne]
  · show (s.processing.set J₀ ()).has J = true
    rw [OrderedMap.has_set, (h.recorded J hJ).2.2 hp, Bool.or_true]
  · have hJ' : (s.processing.set J₀ ()).has J = true := hJ
    rw [OrderedMap.has_set, Bool.or_eq_true, decide_eq_true_eq] at hJ'
    rcases hJ' with rfl | hJ'
    · exact hhas
    · exact h.within J hJ'
  · rcases List.mem_append.1 hmem with hmem | hmem
    · exact h.notified _ _ _ _ _ hmem
    · cases List.mem_singleton.1 hmem

/-- Pending joins that no response is processed for may go, and so may completed records. -/
theorem Kept.prune (h : Kept s) {pending : OrderedMap String PendingJoin}
    {completed : OrderedMap String CompletedJoin}
    (hpending : ∀ J, pending.has J = true → s.pending.has J = true)
    (hprocessing : ∀ J, s.processing.has J = true → pending.has J = true)
    (hsize : pending.size ≤ s.pending.size)
    (hcompleted : ∀ J record, completed.get J = some record → s.completed.get J = some record) :
    Kept { s with pending := pending, completed := completed } := by
  have hhas : ∀ J, completed.has J = true → s.completed.has J = true := by
    intro J hJ
    obtain ⟨record, hrecord⟩ := OrderedMap.has_eq_true_iff.1 hJ
    exact OrderedMap.has_eq_true_iff.2 ⟨record, hcompleted J record hrecord⟩
  refine ⟨h.challenging, h.responding, fun J hJ => ?_, fun J hJ => ?_, hprocessing, ?_,
    fun J record hrecord => h.record J record (hcompleted J record hrecord), h.notified⟩
  · obtain ⟨hadmits, hchallenge, hprocess⟩ := h.recorded J (hhas J hJ)
    exact ⟨hadmits, hchallenge, fun hp => hprocess (hpending J hp)⟩
  · by_contra hhas'
    rw [Bool.not_eq_false] at hhas'
    have hapart := h.apart J hJ
    rw [hpending J hhas'] at hapart
    cases hapart
  · exact (Nat.add_le_add_right hsize _).trans h.room

/-- A handler goes on elsewhere after sending. -/
theorem Kept.send_resume {message : JoinWireMessage} {destination : ℕ} {operation : Operation}
    (h : Kept (s.resume id operation)) :
    Kept ((s.send message destination).resume id operation) := by
  refine h.of_eq ?_ ?_ ?_ ?_ ?_ ?_ <;> unfold GatewayJoinService.send <;> split_ifs <;> rfl

theorem Kept.send (h : Kept s) (message : JoinWireMessage) (destination : ℕ) :
    Kept (s.send message destination) := by
  refine h.of_eq ?_ ?_ ?_ ?_ ?_ ?_ <;> unfold GatewayJoinService.send <;> split_ifs <;> rfl

theorem Kept.prunePending (h : Kept s) (now : ℕ) : Kept (s.prunePending now) := by
  refine h.prune (fun J hJ => ?_) (fun J hJ => ?_) OrderedMap.size_filter_le fun _ _ hr => hr
  · obtain ⟨join, hjoin⟩ := OrderedMap.has_eq_true_iff.1 hJ
    rw [OrderedMap.get_filter, Option.filter_eq_some_iff] at hjoin
    exact OrderedMap.has_eq_true_iff.2 ⟨join, hjoin.1⟩
  · obtain ⟨join, hjoin⟩ := OrderedMap.has_eq_true_iff.1 (h.within J hJ)
    refine OrderedMap.has_eq_true_iff.2 ⟨join, ?_⟩
    rw [OrderedMap.get_filter, Option.filter_eq_some_iff]
    exact ⟨hjoin, by simp [hJ]⟩

theorem completed_of_pruneCompleted {now : ℕ} {J : String} {record : CompletedJoin}
    (h : (s.pruneCompleted now).completed.get J = some record) :
    s.completed.get J = some record := by
  have hlive := OrderedMap.get_of_get_drop h
  rw [OrderedMap.get_filter, Option.filter_eq_some_iff] at hlive
  exact hlive.1

theorem Kept.pruneCompleted (h : Kept s) (now : ℕ) : Kept (s.pruneCompleted now) :=
  h.prune (fun _ hJ => hJ) h.within le_rfl fun _ _ hr => completed_of_pruneCompleted hr

theorem trimPending_eq (h : s.pending.size ≤ maxPendingJoins) : s.trimPending = s := by
  unfold trimPending
  rw [Nat.sub_eq_zero_of_le h]
  rfl

/-- A join is pending, for an attempt of which nothing is known. -/
theorem Kept.pend (h : Kept s) {J₀ : String} (join : PendingJoin)
    (hcompleted : s.completed.has J₀ = false) (hchallenge : s.pendingChallenges.has J₀ = false)
    (hroom : s.pending.size + s.pendingChallenges.size < maxPendingJoins) :
    Kept { s with pending := s.pending.set J₀ join } := by
  have hsize := OrderedMap.size_set_le (m := s.pending) (k := J₀) (v := join)
  refine ⟨h.challenging, h.responding, fun J hJ => ⟨(h.recorded J hJ).1, (h.recorded J hJ).2.1,
    fun hp => ?_⟩, fun J hJ => ?_, fun J hJ => ?_, ?_, h.record, h.notified⟩
  · have hp' : (s.pending.set J₀ join).has J = true := hp
    rw [OrderedMap.has_set, Bool.or_eq_true, decide_eq_true_eq] at hp'
    rcases hp' with rfl | hp'
    · rw [show s.completed.has J = true from hJ] at hcompleted
      cases hcompleted
    · exact (h.recorded J hJ).2.2 hp'
  · have hne : J ≠ J₀ := by
      rintro rfl
      rw [show s.pendingChallenges.has J = true from hJ] at hchallenge
      cases hchallenge
    show (s.pending.set J₀ join).has J = false
    rw [OrderedMap.has_set, h.apart J hJ]
    simp [hne]
  · show (s.pending.set J₀ join).has J = true
    rw [OrderedMap.has_set, h.within J hJ, Bool.or_true]
  · show (s.pending.set J₀ join).size + s.pendingChallenges.size ≤ _
    omega

theorem Kept.discover (h : Kept s) (beacon : DiscoveryBeacon) (source receivedAt : ℕ) :
    Kept (s.discover beacon source receivedAt) := by
  unfold GatewayJoinService.discover
  split
  · split_ifs
    · exact (h.send _ _).start rfl rfl rfl
    · exact h
  · rename_i hcompleted
    split
    · split_ifs
      · exact (h.send _ _).start rfl rfl rfl
      · exact h
    · rename_i hpending
      split_ifs with hchallenge hroom
      · exact h
      · exact h
      · exact h.startChallenge source receivedAt (OrderedMap.has_eq_false_iff.2 hcompleted)
          (OrderedMap.has_eq_false_iff.2 hpending) (Bool.not_eq_true _ ▸ hchallenge)
          (Nat.lt_of_not_le hroom)

theorem Kept.respond (h : Kept s) (joinAttemptID : String) (source receivedAt : ℕ) :
    Kept (s.respond joinAttemptID source receivedAt) := by
  unfold GatewayJoinService.respond
  split
  · exact h
  · rename_i join hjoin
    split_ifs with hrefused
    · exact h
    · simp only [Bool.or_eq_true, not_or, Bool.not_eq_true] at hrefused
      exact h.startResponse hjoin hrefused.2 source receivedAt _

theorem Kept.receive (h : Kept s) (packet : JoinPacket) :
    Kept (s.receive checks rendezvousChannel packet) := by
  unfold GatewayJoinService.receive
  split
  · exact h
  · have hpruned := h.prunePending packet.receivedAt
    split
    · simp only
      split_ifs
      · exact hpruned
      · exact hpruned.pruneCompleted _
      · refine Kept.discover ?_ _ _ _
        exact (hpruned.pruneCompleted packet.receivedAt).of_eq rfl rfl rfl rfl rfl rfl
    · simp only
      split_ifs
      · exact hpruned.respond _ _ _
      · exact hpruned
    · exact hpruned
    · exact h

theorem getElem?_resume {operation operation' : Operation}
    (hop : s.operations[id]? = some operation) :
    (s.resume id operation').operations[id]? = some operation' :=
  List.getElem?_set_self (List.getElem?_eq_some_iff.1 hop).1

/-- A handler that gets a challenge for an attempt has it entered as such. -/
theorem Kept.has_challenge (h : Kept s) {operation : Operation} {J : String}
    (hop : s.operations[id]? = some operation)
    (hchallenges : Operation.challenges operation = some J) :
    s.pendingChallenges.has J = true := by
  have hpos := countOf_pos hop hchallenges
  rw [h.challenging] at hpos
  by_contra hnot
  rw [Bool.not_eq_true] at hnot
  rw [hnot] at hpos
  cases hpos

/-- A handler that processes a response for an attempt has it entered as such. -/
theorem Kept.has_response (h : Kept s) {operation : Operation} {J : String}
    (hop : s.operations[id]? = some operation)
    (hresponds : Operation.responds operation = some J) : s.processing.has J = true := by
  have hpos := countOf_pos hop hresponds
  rw [h.responding] at hpos
  by_contra hnot
  rw [Bool.not_eq_true] at hnot
  rw [hnot] at hpos
  cases hpos

theorem Kept.challenged (h : Kept s) (id : ℕ) (challenge : Option String) :
    Kept (s.challenged id challenge) := by
  unfold GatewayJoinService.challenged
  split
  · rename_i beacon source receivedAt hop
    split
    · split_ifs
      · exact h.endChallenge hop rfl rfl rfl
      · exact h.resume hop rfl rfl rfl nofun
    · exact h.endChallenge hop rfl rfl rfl
  · exact h

theorem Kept.proved (h : Kept s) (id : ℕ) (proof : Option String) : Kept (s.proved id proof) := by
  unfold GatewayJoinService.proved
  split
  · rename_i beacon source receivedAt challenge hop
    split
    · rename_i gatewayProof
      split_ifs
      · exact h.endChallenge hop rfl rfl rfl
      · simp only
        have hchallenge := h.has_challenge hop rfl
        have hended := h.endChallenge hop rfl rfl rfl
        have hless := OrderedMap.size_delete_lt hchallenge
        have hroom := h.room
        have hcompleted : s.completed.has beacon.joinAttemptID = false := by
          by_contra hrecord
          rw [Bool.not_eq_false] at hrecord
          have := (h.recorded _ hrecord).2.1
          rw [hchallenge] at this
          cases this
        have hpended := hended.pend
          ⟨beacon, challenge, gatewayProof, source, receivedAt + pendingJoinRetentionMs⟩ hcompleted
          (by
            show (s.pendingChallenges.delete _).has _ = false
            rw [OrderedMap.has_delete]
            simp)
          (by
            show s.pending.size + (s.pendingChallenges.delete _).size < _
            omega)
        have hsize : (s.pending.set beacon.joinAttemptID
            ⟨beacon, challenge, gatewayProof, source, receivedAt + pendingJoinRetentionMs⟩).size ≤
            maxPendingJoins := (Nat.le_add_right _ _).trans hpended.room
        rw [trimPending_eq hsize]
        exact Kept.send_resume (hpended.resume (getElem?_resume hop) rfl rfl rfl
          fun _ _ _ _ _ heq => by cases heq)
    · exact h.endChallenge hop rfl rfl rfl
  · exact h

theorem Kept.verified (h : Kept s) (id : ℕ) (accepted : Option Bool) :
    Kept (s.verified checks id accepted) := by
  unfold GatewayJoinService.verified
  split
  · rename_i join J source receivedAt hop
    split_ifs
    · split
      · rename_i store mutation _
        have hstore : Kept { s with store := store } := h.of_eq rfl rfl rfl rfl rfl rfl
        exact hstore.resume hop rfl rfl rfl nofun
      · exact h.endResponse hop rfl rfl
    · exact h.endResponse hop rfl rfl
  · exact h

theorem lastAdmission_append {s s' : GatewayJoinService} {J₀ assetID : String} {g : ℕ}
    (h : s'.admissions = s.admissions ++ [⟨J₀, assetID, g⟩]) (J : String) :
    lastAdmission s' J = if J = J₀ then some (assetID, g) else lastAdmission s J := by
  unfold lastAdmission admissionsOf
  rw [h, List.filter_append]
  by_cases hJ : J = J₀
  · simp [hJ]
  · simp [hJ, Ne.symm hJ]

/-- The Asset of an attempt is admitted. -/
theorem Kept.admit (h : Kept s) {join : PendingJoin} {J₀ : String} {source receivedAt mutation : ℕ}
    (hop : s.operations[id]? = some (.admitting join J₀ source receivedAt mutation))
    (acceptance : JoinAcceptance) :
    Kept ({ s with
      admissions := s.admissions ++
        [(⟨J₀, join.beacon.assetID, acceptance.sourceGeneration⟩ : Admission)] }.resume id
          (.notifying join J₀ source receivedAt acceptance)) := by
  have hcount : ∀ f : Operation → Option String,
      f (.notifying join J₀ source receivedAt acceptance) =
        f (.admitting join J₀ source receivedAt mutation) →
      ∀ J, countOf f J (s.operations.set id (.notifying join J₀ source receivedAt acceptance)) =
        countOf f J s.operations := by
    intro f hf J
    have := countOf_set f J hop (.notifying join J₀ source receivedAt acceptance)
    rw [hf] at this
    omega
  refine ⟨fun J => (hcount _ rfl J).trans (h.challenging J),
    fun J => (hcount _ rfl J).trans (h.responding J),
    fun J hJ => ⟨(hcount _ rfl J).trans (h.recorded J hJ).1, (h.recorded J hJ).2⟩, h.apart,
    h.within, h.room, fun J record hrecord => ?_,
    fun join' J source' receivedAt' acceptance' hmem => ?_⟩
  · rw [lastAdmission_append rfl, if_neg]
    · exact h.record J record hrecord
    · intro heq
      have hnone := (h.recorded J (OrderedMap.has_eq_true_iff.2 ⟨record, hrecord⟩)).1
      have hpos := countOf_pos (f := Operation.admits) (J := J) hop (by rw [heq]; rfl)
      omega
  · rw [lastAdmission_append rfl]
    rcases List.mem_or_eq_of_mem_set hmem with hmem | heq
    · rw [if_neg]
      · exact h.notified _ _ _ _ _ hmem
      · -- a second handler of this attempt's response would be one too many
        intro heq
        rw [← heq] at hop
        have htwo := two_le_countOf (f := Operation.responds) (J := J) hmem
          (List.mem_of_getElem? hop) nofun rfl rfl
        rw [h.responding] at htwo
        have := Bool.toNat_le (s.processing.has J)
        omega
    · rw [Operation.notifying.injEq] at heq
      obtain ⟨rfl, rfl, -, -, rfl⟩ := heq
      rw [if_pos rfl]

theorem endResponse_resume (operation : Operation) (joinAttemptID : String) :
    (s.resume id operation).endResponse joinAttemptID id = s.endResponse joinAttemptID id := by
  unfold GatewayJoinService.endResponse GatewayJoinService.resume
  simp only [List.set_set]

theorem Kept.admitted (h : Kept s) (id : ℕ) : Kept (s.admitted id) := by
  unfold GatewayJoinService.admitted
  split
  · rename_i join J source receivedAt mutation hop
    split
    · rename_i m g _
      have hadmit := h.admit hop (acceptanceOf J m g)
      simp only
      split_ifs
      · rw [← endResponse_resume (.notifying join J source receivedAt (acceptanceOf J m g))]
        exact hadmit.endResponse (getElem?_resume hop) rfl rfl
      · exact hadmit
    · exact h.endResponse hop rfl rfl
    · exact h
  · exact h

/-- The record of an attempt is made, of the only handler of a response for it. -/
theorem Kept.complete (h : Kept s) {join : PendingJoin} {J₀ : String} {source receivedAt : ℕ}
    {acceptance : JoinAcceptance}
    (hop : s.operations[id]? = some (.notifying join J₀ source receivedAt acceptance))
    (expiresAt : ℕ) :
    Kept ({ s with
      completed := s.completed.set J₀ ⟨join.beacon, join.radioNodeID, acceptance, expiresAt⟩
      }.resume id (.accepting J₀)) := by
  have hset := fun f J => countOf_set f J hop (.accepting J₀)
  have hprocessing := h.has_response hop rfl
  have hpending := h.within J₀ hprocessing
  have hone := (countOf_admits_le J₀ s.operations).trans
    ((h.responding J₀).trans_le (Bool.toNat_le _))
  refine ⟨fun J => ?_, fun J => ?_, fun J hJ => ?_, h.apart, h.within, h.room,
    fun J record hrecord => ?_, fun join' J source' receivedAt' acceptance' hmem => ?_⟩
  · show countOf _ _ (s.operations.set id (.accepting J₀)) = (s.pendingChallenges.has J).toNat
    rw [← h.challenging J]
    simpa [Operation.challenges] using hset Operation.challenges J
  · show countOf _ _ (s.operations.set id (.accepting J₀)) = (s.processing.has J).toNat
    rw [← h.responding J]
    simpa [Operation.responds] using hset Operation.responds J
  · have hadmits := hset Operation.admits J
    simp only [Operation.admits, Operation.responds, Option.some.injEq, reduceCtorEq, decide_false,
      Bool.toNat_false, Nat.add_zero] at hadmits
    show countOf Operation.admits J (s.operations.set id (.accepting J₀)) = 0 ∧ _
    by_cases hJ₀ : J = J₀
    · subst hJ₀
      simp only [decide_true, Bool.toNat_true] at hadmits
      refine ⟨by omega, ?_, fun _ => hprocessing⟩
      by_contra hchallenge
      rw [Bool.not_eq_false] at hchallenge
      rw [h.apart J hchallenge] at hpending
      cases hpending
    · have hJ' : (s.completed.set J₀ _).has J = true := hJ
      rw [OrderedMap.has_set, Bool.or_eq_true, decide_eq_true_eq, or_iff_right hJ₀] at hJ'
      rw [(h.recorded J hJ').1] at hadmits
      exact ⟨by omega, (h.recorded J hJ').2⟩
  · have hrecord' : (s.completed.set J₀ _).get J = some record := hrecord
    rw [OrderedMap.get_set] at hrecord'
    split_ifs at hrecord' with hJ₀
    · rw [← Option.some.inj hrecord', hJ₀]
      exact h.notified _ _ _ _ _ (List.mem_of_getElem? hop)
    · exact h.record J record hrecord'
  · rcases List.mem_or_eq_of_mem_set hmem with hmem | heq
    · exact h.notified _ _ _ _ _ hmem
    · cases heq

theorem Kept.notify (h : Kept s) (id : ℕ) (told : Bool) : Kept (s.notified id told) := by
  unfold GatewayJoinService.notified
  split
  · rename_i join J source receivedAt acceptance hop
    split_ifs
    · refine Kept.send_resume ?_
      exact (h.complete hop (receivedAt + completedJoinRetentionMs)).pruneCompleted receivedAt
    · exact h.endResponse hop rfl rfl
  · exact h

theorem Kept.settledSend (h : Kept s) (id : ℕ) : Kept (s.settledSend id) := by
  unfold GatewayJoinService.settledSend
  split
  · rename_i hop
    exact h.resume hop rfl rfl rfl nofun
  · rename_i J hop
    exact h.endResponse hop rfl rfl
  · exact h

theorem Kept.step (h : Kept s) {event : JoinEvent} (hevent : event ≠ .close) :
    Kept (s.step checks rendezvousChannel event) := by
  cases event with
  | packet packet => exact h.receive packet
  | challenged id challenge => exact h.challenged id challenge
  | proved id proof => exact h.proved id proof
  | verified id accepted => exact h.verified id accepted
  | admitted id => exact h.admitted id
  | notified id told => exact h.notify id told
  | settledSend id => exact h.settledSend id
  | store event => exact h.of_eq rfl rfl rfl rfl rfl rfl
  | close => exact absurd rfl hevent

theorem kept_new (file : GatewayMembership) : Kept (.new file) where
  challenging _ := rfl
  responding _ := rfl
  recorded _ hJ := by cases hJ
  apart _ hJ := by cases hJ
  within _ hJ := by cases hJ
  room := Nat.zero_le _
  record _ _ hrecord := by cases hrecord
  notified _ _ _ _ _ hmem := by cases hmem

end Keeping

section Closing

/-- A service that is closed keeps nothing. -/
structure Emptied (s : GatewayJoinService) : Prop where
  closed : s.closed = true
  completed : s.completed.size = 0
  pending : s.pending.size = 0
  pendingChallenges : s.pendingChallenges.size = 0

theorem Emptied.endChallenge (h : Emptied s) (joinAttemptID : String) :
    Emptied (s.endChallenge joinAttemptID id) :=
  ⟨h.closed, h.completed, h.pending,
    Nat.le_zero.1 (OrderedMap.size_delete_le.trans h.pendingChallenges.le)⟩

theorem Emptied.endResponse (h : Emptied s) (joinAttemptID : String) :
    Emptied (s.endResponse joinAttemptID id) :=
  ⟨h.closed, h.completed, Nat.le_zero.1 (OrderedMap.size_delete_le.trans h.pending.le),
    h.pendingChallenges⟩

theorem Emptied.resume (h : Emptied s) (operation : Operation) : Emptied (s.resume id operation) :=
  ⟨h.closed, h.completed, h.pending, h.pendingChallenges⟩

/-- Whatever comes to a closed service, nothing is kept. -/
theorem Emptied.step (h : Emptied s) (event : JoinEvent) :
    Emptied (s.step checks rendezvousChannel event) := by
  cases event with
  | packet packet =>
    have hrefused : (s.closed || packet.channel ≠ rendezvousChannel) = true := by simp [h.closed]
    simp only [GatewayJoinService.step, GatewayJoinService.receive]
    rw [if_pos hrefused]
    exact h
  | challenged id challenge =>
    simp only [GatewayJoinService.step, GatewayJoinService.challenged, h.closed, if_true]
    split
    · split <;> exact h.endChallenge _
    · exact h
  | proved id proof =>
    simp only [GatewayJoinService.step, GatewayJoinService.proved, h.closed, if_true]
    split
    · split <;> exact h.endChallenge _
    · exact h
  | verified id accepted =>
    simp only [GatewayJoinService.step, GatewayJoinService.verified, h.closed]
    split
    · rw [if_neg (by simp)]
      exact h.endResponse _
    · exact h
  | admitted id =>
    simp only [GatewayJoinService.step, GatewayJoinService.admitted, h.closed, if_true]
    split
    · split
      · refine Emptied.endResponse ?_ _
        exact ⟨rfl, h.completed, h.pending, h.pendingChallenges⟩
      · exact h.endResponse _
      · exact h
    · exact h
  | notified id told =>
    simp only [GatewayJoinService.step, GatewayJoinService.notified, h.closed]
    split
    · rw [if_neg (by simp)]
      exact h.endResponse _
    · exact h
  | settledSend id =>
    simp only [GatewayJoinService.step, GatewayJoinService.settledSend]
    split
    · exact h.resume _
    · exact h.endResponse _
    · exact h
  | store event => exact ⟨h.closed, h.completed, h.pending, h.pendingChallenges⟩
  | close => exact ⟨rfl, rfl, rfl, rfl⟩

/-- A service keeps what it must, or it is closed. -/
theorem kept_of_reachable (h : JoinReachable checks rendezvousChannel s) : Kept s ∨ Emptied s := by
  induction h with
  | new file => exact .inl (kept_new file)
  | step event _ ih =>
    rcases ih with hkept | hemptied
    · by_cases hevent : event = .close
      · subst hevent
        exact .inr ⟨rfl, rfl, rfl, rfl⟩
      · exact .inl (hkept.step hevent)
    · exact .inr (hemptied.step event)

end Closing

end Atlas.Link.Joining
