import Atlas.Proofs.Inward

/-!
# Refused submissions

A submission under an operation ID that is still fenced queues nothing. Looked up in time it finds
the result recorded for the operation and returns it; but a submission that is turned down before
the lookup, or whose operation has no result any more, has a failure recorded and told under the ID.
-/

namespace Atlas.Link

open Handlers

variable {P : Parts}

section Rotation

/-- A result that the table may forget. -/
def Outgoing.removable (o : Outgoing P) (e : String × LinkOperationResult) : Bool :=
  e.2.status ≠ .queued && !o.operationIsPending e.1

/-- The results that have to go for the table to be within its limit. -/
def Outgoing.rotating (o : Outgoing P) : List (String × LinkOperationResult) :=
  (o.operationResults.entries.filter o.removable).take
    (o.operationResults.size - operationResultLimit)

/-- The results without the first that may be forgotten. -/
def Outgoing.forget (operationID : String) (o : Outgoing P) : Outgoing P :=
  { o with
    operationResults := o.operationResults.delete operationID
    intermediateResponseConfirmations :=
      o.intermediateResponseConfirmations.filter (· ≠ operationID)
    responseOperations := o.responseOperations.delete operationID }

theorem trimResults_succ (n : ℕ) (o : Outgoing P) : o.trimResults (n + 1) =
    if o.operationResults.size ≤ operationResultLimit then o
    else
      match o.operationResults.entries.find? o.removable with
      | none => o
      | some (operationID, _) => (o.forget operationID).trimResults n := rfl

theorem responseOperations_has {o : Outgoing P} {e : String × LinkOperationResult}
    (h : o.removable e = true) : o.responseOperations.has e.1 = false := by
  simp only [Outgoing.removable, Outgoing.operationIsPending, Bool.and_eq_true,
    Bool.not_eq_true', Bool.or_eq_false_iff] at h
  exact h.2.1.2

/-- Forgetting a result that nothing waits for changes nothing that something waits for. -/
theorem forget_responses {o : Outgoing P} {e : String × LinkOperationResult}
    (h : o.removable e = true) :
    (o.forget e.1).responseOperations.get = o.responseOperations.get :=
  OrderedMap.get_delete_of_not_has (responseOperations_has h)

theorem forget_removable {o : Outgoing P} {e : String × LinkOperationResult}
    (h : o.removable e = true) : (o.forget e.1).removable = o.removable := by
  funext e'
  have hhas := OrderedMap.has_eq_of_get_eq (forget_responses h) e'.1
  unfold Outgoing.removable Outgoing.operationIsPending
  rw [hhas]
  rfl

theorem length_filter_ne {l : List (String × LinkOperationResult)}
    (hnodup : (l.map Prod.fst).Nodup) {e : String × LinkOperationResult} (he : e ∈ l) :
    (l.filter fun e' => e'.1 ≠ e.1).length + 1 = l.length := by
  induction l with
  | nil => cases he
  | cons a l ih =>
    rw [List.map_cons, List.nodup_cons] at hnodup
    by_cases ha : a.1 = e.1
    · have hrest : l.filter (fun e' => e'.1 ≠ e.1) = l := by
        rw [List.filter_eq_self]
        intro e' he'
        have hne : e'.1 ≠ e.1 := by
          rintro heq
          exact hnodup.1 (List.mem_map.2 ⟨e', he', by rw [heq, ha]⟩)
        simpa using hne
      rw [List.filter_cons_of_neg (by simpa using ha), hrest, List.length_cons]
    · have hmem : e ∈ l := by
        rcases List.mem_cons.1 he with rfl | h
        · exact absurd rfl ha
        · exact h
      rw [List.filter_cons_of_pos (by simpa using ha), List.length_cons, List.length_cons,
        ih hnodup.2 hmem]

/-- The first of the results that have to go is forgotten, the others are left to go. -/
theorem forget_rotating {o : Outgoing P} {e : String × LinkOperationResult}
    (hfind : o.operationResults.entries.find? o.removable = some e)
    (hsize : operationResultLimit < o.operationResults.size) :
    o.rotating = e :: (o.forget e.1).rotating := by
  have hremovable : o.removable e = true := List.find?_some hfind
  have hmem : e ∈ o.operationResults.entries := List.mem_of_find?_eq_some hfind
  have hhead : (o.operationResults.entries.filter o.removable).head? = some e := by
    rw [List.head?_filter, hfind]
  obtain ⟨rest, hrest⟩ : ∃ rest, o.operationResults.entries.filter o.removable = e :: rest := by
    cases hl : o.operationResults.entries.filter o.removable with
    | nil => simp [hl] at hhead
    | cons a rest =>
      rw [hl, List.head?_cons, Option.some.injEq] at hhead
      exact ⟨rest, by rw [hhead]⟩
  have hnodup := o.operationResults.nodup
  have hrestne : ∀ e' ∈ rest, e'.1 ≠ e.1 := by
    have hsub : (e :: rest).Sublist o.operationResults.entries := hrest ▸ List.filter_sublist
    have hkeys := (hsub.map Prod.fst).nodup hnodup
    rw [List.map_cons, List.nodup_cons] at hkeys
    intro e' he' heq
    exact hkeys.1 (List.mem_map.2 ⟨e', he', heq⟩)
  have hentries : (o.forget e.1).operationResults.entries.filter (o.forget e.1).removable =
      rest := by
    rw [forget_removable hremovable]
    show (o.operationResults.entries.filter fun e' => e'.1 ≠ e.1).filter o.removable = rest
    rw [List.filter_filter, @List.filter_congr _ _ (fun e' => decide (e'.1 ≠ e.1) && o.removable e') o.operationResults.entries
      (fun e' _ => Bool.and_comm _ _), ← List.filter_filter, hrest,
      List.filter_cons_of_neg (by simp), List.filter_eq_self]
    intro e' he'
    simpa using hrestne e' he'
  have hlength : (o.forget e.1).operationResults.size + 1 = o.operationResults.size :=
    length_filter_ne hnodup hmem
  unfold Outgoing.rotating
  rw [hrest, hentries, ← hlength]
  rw [← hlength] at hsize
  have hcount : (o.forget e.1).operationResults.size + 1 - operationResultLimit =
      (o.forget e.1).operationResults.size - operationResultLimit + 1 := by omega
  rw [hcount, List.take_succ_cons]

/-- Trimming forgets the results that have to go and no others. -/
theorem get_trimResults (operationID : String) (n : ℕ) (o : Outgoing P)
    (hn : o.operationResults.size - operationResultLimit ≤ n) :
    (o.trimResults n).operationResults.get operationID =
      if operationID ∈ o.rotating.map Prod.fst then none
      else o.operationResults.get operationID := by
  have hdone : ∀ o : Outgoing P, o.operationResults.size ≤ operationResultLimit →
      o.operationResults.get operationID = if operationID ∈ o.rotating.map Prod.fst then none
        else o.operationResults.get operationID := by
    intro o hsize
    unfold Outgoing.rotating
    rw [Nat.sub_eq_zero_of_le hsize, List.take_zero, List.map_nil, if_neg List.not_mem_nil]
  induction n generalizing o with
  | zero =>
    exact hdone o (Nat.sub_eq_zero_iff_le.1 (Nat.le_zero.1 hn))
  | succ n ih =>
    rw [trimResults_succ]
    by_cases hsize : o.operationResults.size ≤ operationResultLimit
    · rw [if_pos hsize]
      exact hdone o hsize
    · rw [if_neg hsize]
      rw [not_le] at hsize
      rcases hfind : o.operationResults.entries.find? o.removable with _ | e
      · have hnone : o.rotating = [] := by
          unfold Outgoing.rotating
          rw [List.filter_eq_nil_iff.2 (List.find?_eq_none.1 hfind), List.take_nil]
        rw [hnone, List.map_nil, if_neg List.not_mem_nil]
      · have hmem := List.mem_of_find?_eq_some hfind
        have hlength : (o.forget e.1).operationResults.size + 1 = o.operationResults.size :=
          length_filter_ne o.operationResults.nodup hmem
        have hget : (o.forget e.1).operationResults.get operationID =
            if operationID = e.1 then none else o.operationResults.get operationID :=
          OrderedMap.get_delete
        show ((o.forget e.1).trimResults n).operationResults.get operationID = _
        rw [ih (o.forget e.1) (by omega), hget, forget_rotating hfind hsize, List.map_cons]
        simp only [List.mem_cons]
        split_ifs <;> simp_all

/-- Trimming leaves what is pending alone. -/
theorem trimResults_frame (n : ℕ) (o : Outgoing P) :
    (o.trimResults n).heap = o.heap ∧ (o.trimResults n).queue = o.queue ∧
      (o.trimResults n).outboundByOperation = o.outboundByOperation ∧
      (o.trimResults n).pendingDataRequests = o.pendingDataRequests ∧
      (o.trimResults n).responseOperations.get = o.responseOperations.get := by
  induction n generalizing o with
  | zero => exact ⟨rfl, rfl, rfl, rfl, rfl⟩
  | succ n ih =>
    rw [trimResults_succ]
    split_ifs
    · exact ⟨rfl, rfl, rfl, rfl, rfl⟩
    · rcases hfind : o.operationResults.entries.find? o.removable with _ | e
      · exact ⟨rfl, rfl, rfl, rfl, rfl⟩
      · obtain ⟨hheap, hqueue, hoperations, hrequests, hresponses⟩ := ih (o.forget e.1)
        exact ⟨hheap, hqueue, hoperations, hrequests,
          hresponses.trans (forget_responses (List.find?_some hfind))⟩

/-- A failure under an operation whose result is a failure already changes no other result, and the
same results have to go. -/
theorem rotating_set_failed {o : Outgoing P} {operationID : String}
    {earlier result : LinkOperationResult} (hget : o.operationResults.get operationID = some earlier)
    (hearlier : earlier.status = .failed) (hresult : result.status = .failed) :
    ({ o with operationResults := o.operationResults.set operationID result }.rotating).map
        Prod.fst = o.rotating.map Prod.fst := by
  have hhas : o.operationResults.has operationID = true :=
    OrderedMap.has_eq_true_iff.2 ⟨earlier, hget⟩
  have hentries : (o.operationResults.set operationID result).entries =
      o.operationResults.entries.map fun e =>
        if e.1 = operationID then (operationID, result) else e := by
    unfold OrderedMap.set
    rw [dif_pos hhas]
  have hremovable : ∀ e ∈ o.operationResults.entries,
      o.removable (if e.1 = operationID then (operationID, result) else e) = o.removable e := by
    rintro ⟨key, value⟩ he
    by_cases hkey : key = operationID
    · subst hkey
      have hvalue : value = earlier :=
        Option.some.inj ((OrderedMap.get_eq_some_iff.2 he).symm.trans hget)
      rw [if_pos rfl, hvalue]
      unfold Outgoing.removable
      rw [hearlier, hresult]
    · rw [if_neg hkey]
  have hkeys : ∀ l : List (String × LinkOperationResult),
      (∀ e ∈ l, o.removable (if e.1 = operationID then (operationID, result) else e) =
        o.removable e) →
      ((l.map fun e => if e.1 = operationID then (operationID, result) else e).filter
        o.removable).map Prod.fst = (l.filter o.removable).map Prod.fst := by
    intro l hl
    induction l with
    | nil => rfl
    | cons e l ih =>
      have he := hl e List.mem_cons_self
      have hrest := ih fun e' he' => hl e' (List.mem_cons_of_mem _ he')
      rw [List.map_cons, List.filter_cons, List.filter_cons, he]
      cases o.removable e with
      | false => exact hrest
      | true =>
        have hfst : (if e.1 = operationID then (operationID, result) else e).1 = e.1 := by
          split_ifs with h
          · exact h.symm
          · rfl
        simp only [if_true, List.map_cons, hrest, hfst]
  unfold Outgoing.rotating
  rw [List.map_take, List.map_take]
  show List.take ((o.operationResults.set operationID result).size - operationResultLimit)
    (((o.operationResults.set operationID result).entries.filter o.removable).map Prod.fst) = _
  rw [OrderedMap.size_set_of_has hhas, hentries, hkeys _ hremovable]

/-- The table with a result entered, before the results that have to go are forgotten. -/
def Outgoing.entered (result : LinkOperationResult) (trackingKey : String) (marks : List String)
    (o : Outgoing P) : Outgoing P :=
  { o with
    intermediateResponseConfirmations := marks
    operationResults := o.operationResults.set trackingKey result }

theorem recordOperation_eq (result : LinkOperationResult) (trackingKey : String)
    (o : Outgoing P) : ∃ marks, o.recordOperation result trackingKey =
      (o.entered result trackingKey marks).trimResults
        (o.entered result trackingKey marks).operationResults.size := by
  unfold Outgoing.recordOperation
  dsimp only
  split_ifs
  · exact ⟨_, rfl⟩
  · exact ⟨_, rfl⟩

theorem get_recordOperation (result : LinkOperationResult) (trackingKey : String)
    (o : Outgoing P) : (o.recordOperation result trackingKey).operationResults.get trackingKey =
      if trackingKey ∈ ({ o with
          operationResults := o.operationResults.set trackingKey result }.rotating).map Prod.fst
      then none else some result := by
  obtain ⟨marks, heq⟩ := recordOperation_eq result trackingKey o
  have hget : (o.entered result trackingKey marks).operationResults.get trackingKey = some result :=
    OrderedMap.get_set_self
  rw [heq, get_trimResults _ _ _ (Nat.sub_le _ _), hget]
  rfl

theorem recordOperation_frame (result : LinkOperationResult) (trackingKey : String)
    (o : Outgoing P) :
    (o.recordOperation result trackingKey).heap = o.heap ∧
      (o.recordOperation result trackingKey).queue = o.queue ∧
      (o.recordOperation result trackingKey).outboundByOperation = o.outboundByOperation ∧
      (o.recordOperation result trackingKey).pendingDataRequests = o.pendingDataRequests ∧
      (o.recordOperation result trackingKey).responseOperations.get =
        o.responseOperations.get := by
  obtain ⟨marks, heq⟩ := recordOperation_eq result trackingKey o
  rw [heq]
  exact trimResults_frame _ (o.entered result trackingKey marks)

end Rotation

section Recording

def State.recordedStatus (s : State P) (operationID : String) : Option LinkOperationStatus :=
  (s.outgoing.operationResults.get operationID).map (·.status)

/-- An operation was committed under the ID, and is pending or has not been completed too long. -/
def State.fenced (s : State P) (operationID : String) : Bool :=
  (s.outgoing.pruneCommittedOperationIDs s.clock.now).committedOperationIDs.has operationID

/-- The recorded status of the operation, its pending message and all timers are the same. -/
structure SameOperation (operationID : String) (s s' : State P) : Prop where
  status : s'.recordedStatus operationID = s.recordedStatus operationID
  outbound : s'.outgoing.outboundByOperation = s.outgoing.outboundByOperation
  requests : s'.outgoing.pendingDataRequests = s.outgoing.pendingDataRequests
  responses : s'.outgoing.responseOperations.get = s.outgoing.responseOperations.get
  heap : s'.outgoing.heap = s.outgoing.heap
  queue : s'.outgoing.queue = s.outgoing.queue
  clock : s'.clock = s.clock

/-- The failure that a submission under an operation ID ends with. -/
def failure (operationID reason : String) (now : ℕ) : LinkOperationResult :=
  { operationID := operationID, status := .failed, reason := some reason, completedAt := some now }

def State.failed (s : State P) (operationID reason : String) : State P :=
  { s with
    outgoing := s.outgoing.recordOperation (failure operationID reason s.clock.now) operationID }

/-- The recorded status of the operation is a failure before and after if and only if it was one
before and the table does not forget it. -/
theorem failed_status_iff (s : State P) (operationID reason : String) :
    ((s.failed operationID reason).recordedStatus operationID = s.recordedStatus operationID ∧
        s.recordedStatus operationID = some .failed) ↔
      s.recordedStatus operationID = some .failed ∧
        operationID ∉ s.outgoing.rotating.map Prod.fst := by
  rw [and_comm]
  refine and_congr_right fun hstatus => ?_
  obtain ⟨earlier, hget, hearlier⟩ := Option.map_eq_some_iff.1 hstatus
  rw [hstatus]
  unfold State.recordedStatus State.failed
  rw [get_recordOperation, rotating_set_failed hget hearlier rfl]
  split_ifs with hforget
  · simp [hforget]
  · simp [hforget, failure]

theorem failed_sameOperation {s : State P} {operationID : String} (reason : String)
    (hstatus : s.recordedStatus operationID = some .failed)
    (hkept : operationID ∉ s.outgoing.rotating.map Prod.fst) :
    SameOperation operationID s (s.failed operationID reason) := by
  obtain ⟨hheap, hqueue, houtbound, hrequests, hresponses⟩ :=
    recordOperation_frame (failure operationID reason s.clock.now) operationID s.outgoing
  exact ⟨((failed_status_iff s operationID reason).2 ⟨hstatus, hkept⟩).1, houtbound, hrequests,
    hresponses, hheap, hqueue, rfl⟩

end Recording

section Submission

variable (w : Wiring P)

/-- The submission is turned down before the operation's result is looked up, or there is no result
of it any more. -/
def RefusedFirst (message : LinkMessage) (destination : Option LinkNode) (operationID : String)
    (s : State P) : Prop :=
  s.stopped = true ∨ validStateSource message w.node = false ∨
    (deliveryClass message = .confirmed ∧ destination = none) ∨
    isBlank operationID = false ∧
      ((∃ request, message = .dataRequest request ∧ operationID ≠ request.requestID) ∨
        s.outgoing.reservedTaskIDs.has operationID = true ∨
        s.recordedStatus operationID = none)

/-- What a submission through the public method asks for. -/
def submission (message : LinkMessage) (destination : Option LinkNode) (operationID : String)
    (sourceSequence : ℕ) : OutboundRequest :=
  { message := message, destination := destination, operationID := operationID,
    useInboundReservation := false, radioRequestID := none,
    capacity := .default message, sourceSequence := sourceSequence, reservation := none }

def State.pruned (s : State P) : State P :=
  { s with outgoing := s.outgoing.pruneCommittedOperationIDs s.clock.now }

variable {w} {q : OutboundRequest} {s : State P}

/-- Under a fenced operation ID nothing is prepared: the submission fails if it is refused first,
and otherwise is answered with the result of the operation, or is invalid. -/
theorem admitOutbound_fenced (hq : q.reservation = none) (hfenced : s.fenced q.operationID = true) :
    (RefusedFirst w q.message q.destination q.operationID s ∧ ∃ reason s',
      (s' = s ∨ s' = s.pruned) ∧ admitOutbound w q s = (.error (.failed reason), s')) ∨
    ¬RefusedFirst w q.message q.destination q.operationID s ∧
      (admitOutbound w q s = (.error .invalid, s) ∨
        ∃ result, admitOutbound w q s = (.error (.existing result), s.pruned)) := by
  generalize hr : admitOutbound w q s = r
  unfold admitOutbound at hr
  change (ite (s.stopped = true) _ _ : Handler P _) s = r at hr
  by_cases hstopped : s.stopped = true
  · rw [if_pos hstopped] at hr
    exact .inl ⟨.inl hstopped, _, s, .inl rfl, hr.symm⟩
  rw [if_neg hstopped] at hr
  by_cases hsource : validStateSource q.message w.node = false
  · rw [if_pos (by rw [hsource]; rfl)] at hr
    exact .inl ⟨.inr (.inl hsource), _, s, .inl rfl, hr.symm⟩
  rw [if_neg (by simpa using hsource)] at hr
  by_cases hdestination : deliveryClass q.message = .confirmed ∧ q.destination = none
  · rw [if_pos hdestination] at hr
    exact .inl ⟨.inr (.inr (.inl hdestination)), _, s, .inl rfl, hr.symm⟩
  rw [if_neg hdestination] at hr
  by_cases hblank : isBlank q.operationID = true
  · rw [if_pos hblank] at hr
    refine .inr ⟨?_, .inl hr.symm⟩
    rintro (h | h | h | ⟨h, -⟩)
    · exact hstopped h
    · exact hsource h
    · exact hdestination h
    · rw [hblank] at h
      cases h
  rw [if_neg hblank] at hr
  have hnamed : isBlank q.operationID = false := by simpa using hblank
  by_cases hmismatch : q.mismatchesRequest = true
  · rw [if_pos hmismatch] at hr
    refine .inl ⟨.inr (.inr (.inr ⟨hnamed, .inl ?_⟩)), _, s, .inl rfl, hr.symm⟩
    unfold OutboundRequest.mismatchesRequest at hmismatch
    split at hmismatch
    · rename_i request hrequest
      exact ⟨request, hrequest, by simpa using hmismatch⟩
    · cases hmismatch
  rw [if_neg hmismatch] at hr
  change (ite ((s.outgoing.reservedTaskIDs.get q.operationID).any _ = true) _ _ : Handler P _)
    s.pruned = r at hr
  have hreserved : (s.outgoing.reservedTaskIDs.get q.operationID).any
      (fun n => decide (some n ≠ q.reservation.map Prod.fst)) =
        s.outgoing.reservedTaskIDs.has q.operationID := by
    rw [hq]
    rcases hget : s.outgoing.reservedTaskIDs.get q.operationID with _ | n
    · exact (OrderedMap.has_eq_false_iff.2 hget).symm
    · exact (OrderedMap.has_eq_true_iff.2 ⟨n, hget⟩).symm
  rw [hreserved] at hr
  by_cases hheld : s.outgoing.reservedTaskIDs.has q.operationID = true
  · rw [if_pos hheld] at hr
    exact .inl ⟨.inr (.inr (.inr ⟨hnamed, .inr (.inl hheld)⟩)), _, s.pruned, .inr rfl, hr.symm⟩
  rw [if_neg hheld] at hr
  have hfence : (s.outgoing.pruneCommittedOperationIDs s.clock.now).committedOperationIDs.has
    q.operationID = true := hfenced
  dsimp only at hr
  rcases hget : (s.outgoing.pruneCommittedOperationIDs s.clock.now).operationResults.get
    q.operationID with _ | result
  · have hnone : s.recordedStatus q.operationID = none := congrArg (Option.map LinkOperationResult.status) hget
    rw [hget, Option.filter_none] at hr
    dsimp only at hr
    rw [if_pos hfence] at hr
    exact .inl ⟨.inr (.inr (.inr ⟨hnamed, .inr (.inr hnone)⟩)), _, s.pruned, .inr rfl, hr.symm⟩
  · have hsome : s.recordedStatus q.operationID = some result.status :=
      congrArg (Option.map LinkOperationResult.status) hget
    rw [hget, Option.filter_some_pos (by rw [hfence, Bool.or_true])] at hr
    refine .inr ⟨?_, .inr ⟨result, hr.symm⟩⟩
    rintro (h | h | h | ⟨-, ⟨request, h, hne⟩ | h | h⟩)
    · exact hstopped h
    · exact hsource h
    · exact hdestination h
    · exact hmismatch (by
        unfold OutboundRequest.mismatchesRequest
        rw [h]
        simpa using hne)
    · exact hheld h
    · rw [hsome] at h
      cases h

variable (w)

/-- Whatever the listeners make of it, the handler tells of the result once it has led to the state,
and of nothing else. -/
def Leads {α : Type} (m : Wiring P → Handler P α) (s s' : State P)
    (told : Option LinkOperationResult) : Prop :=
  ∀ react, (m { w with react := react } s).2 =
    match told with
    | none => s'
    | some result => react (.operation result) s'

/-- The operation ID that a submission is made under. -/
def submittedID (message : LinkMessage) (destination : Option LinkNode)
    (operationID : Option String) (s : State P) : String :=
  (operationIDOr w operationID message destination s).1

/-- The submission leaves the operation of its ID as it was, and tells of no other status of it. -/
def Undisturbed (message : LinkMessage) (destination : Option LinkNode)
    (operationID : Option String) (s : State P) : Prop :=
  ∃ s' told, Leads w (fun w => submit w message destination operationID) s s' told ∧
    SameOperation (submittedID w message destination operationID s) s s' ∧
    ∀ result, told = some result →
      result.operationID = submittedID w message destination operationID s →
      s.recordedStatus (submittedID w message destination operationID s) = some result.status

variable {message : LinkMessage} {destination : Option LinkNode} {operationID : Option String}

/-- The state with an identifier made where the submission names none. -/
def named (w : Wiring P) (message : LinkMessage) (destination : Option LinkNode)
    (operationID : Option String) (s : State P) : State P :=
  (operationIDOr w operationID message destination s).2

theorem operationIDOr_react (react : Event → State P → State P) :
    operationIDOr { w with react := react } operationID message destination =
      operationIDOr w operationID message destination := by
  cases operationID with
  | some operationID => rfl
  | none => cases message <;> rfl

theorem named_eq : ∃ issued, named w message destination operationID s =
    { s with outgoing := { s.outgoing with issuedIDs := issued } } := by
  have hsame : ∃ issued, s = { s with outgoing := { s.outgoing with issuedIDs := issued } } :=
    ⟨s.outgoing.issuedIDs, rfl⟩
  have hmade : ∃ issued, (createID w s).2 =
      { s with outgoing := { s.outgoing with issuedIDs := issued } } :=
    ⟨s.outgoing.issuedIDs + 1, rfl⟩
  unfold named operationIDOr
  cases operationID with
  | some operationID => exact hsame
  | none =>
    unfold operationIDFor
    cases message with
    | state publication =>
      dsimp only
      cases publication.operationID with
      | none => exact hmade
      | some operationID =>
        dsimp only
        split_ifs
        · exact hmade
        · exact hsame
    | dataRequest request => exact hsame
    | dataResponse response => exact hsame
    | objectContent content => exact hsame
    | control control => exact hsame
    | _ => exact hmade

theorem prepareOutbound_of_error {preparation : OutboundPreparation P} {s' : State P}
    (h : admitOutbound w q s = (.error preparation, s')) :
    prepareOutbound w q s = (preparation, s') := by
  unfold prepareOutbound
  rw [bind_of_eq h]
  rfl

/-- A submission under a fenced operation ID has a failure recorded and told if it is refused first,
and changes nothing else; any other changes nothing. -/
theorem submit_leads
    (hfenced : s.fenced (submittedID w message destination operationID s) = true) :
    let s₀ := named w message destination operationID s
    (RefusedFirst w message destination (submittedID w message destination operationID s) s ∧
      ∃ reason s', (s' = s₀ ∨ s' = s₀.pruned) ∧
        Leads w (fun w => submit w message destination operationID) s
          (s'.failed (submittedID w message destination operationID s) reason)
          (some (failure (submittedID w message destination operationID s) reason s'.clock.now))) ∨
    ¬RefusedFirst w message destination (submittedID w message destination operationID s) s ∧
      ∃ s', (s' = s₀ ∨ s' = s₀.pruned) ∧
        Leads w (fun w => submit w message destination operationID) s s' none := by
  intro s₀
  obtain ⟨issued, hnamed⟩ : ∃ issued, named w message destination operationID s =
    { s with outgoing := { s.outgoing with issuedIDs := issued } } := named_eq w
  generalize hX : submittedID w message destination operationID s = X at hfenced ⊢
  have hfenced₀ : s₀.fenced X = true := by
    show (named w message destination operationID s).fenced X = true
    rw [hnamed]
    exact hfenced
  have hrefused : RefusedFirst w message destination X s₀ ↔ RefusedFirst w message destination X s := by
    show RefusedFirst w message destination X (named w message destination operationID s) ↔ _
    rw [hnamed]
    rfl
  have hrun : ∀ react, (submit { w with react := react } message destination operationID s).2 =
      (submitWithCapacity { w with react := react }
        (submission message destination X (s₀.outgoing.sourceSequence + 1)) s₀).2 := by
    intro react
    unfold submit
    rw [operationIDOr_react]
    subst hX
    rfl
  rcases @admitOutbound_fenced P w (submission message destination X
    (s₀.outgoing.sourceSequence + 1)) s₀ rfl hfenced₀ with ⟨h, reason, s', hs', hadmit⟩ |
      ⟨h, hadmit⟩
  · refine .inl ⟨hrefused.1 h, reason, s', hs', fun react => ?_⟩
    rw [hrun]
    unfold submitWithCapacity
    rw [bind_of_eq (prepareOutbound_of_error { w with react := react } hadmit)]
    rfl
  · refine .inr ⟨fun h' => h (hrefused.2 h'), ?_⟩
    rcases hadmit with hadmit | ⟨result, hadmit⟩
    · refine ⟨s₀, .inl rfl, fun react => ?_⟩
      rw [hrun]
      unfold submitWithCapacity
      rw [bind_of_eq (prepareOutbound_of_error { w with react := react } hadmit)]
      rfl
    · refine ⟨s₀.pruned, .inr rfl, fun react => ?_⟩
      rw [hrun]
      unfold submitWithCapacity
      rw [bind_of_eq (prepareOutbound_of_error { w with react := react } hadmit)]
      rfl

variable {w}

theorem Leads.unique {α : Type} {m : Wiring P → Handler P α} {s s₁ s₂ : State P}
    {told₁ told₂ : Option LinkOperationResult} (h₁ : Leads w m s s₁ told₁)
    (h₂ : Leads w m s s₂ told₂) : s₁ = s₂ ∧ told₁ = told₂ := by
  have hsame : s₁ = s₂ := by
    have h := (h₁ fun _ s => s).symm.trans (h₂ fun _ s => s)
    cases told₁ <;> cases told₂ <;> exact h
  refine ⟨hsame, ?_⟩
  subst hsame
  -- a listener that stops or restarts the transport on some events tells these from the others
  have hflip : ∀ s : State P, { s with stopped := !s.stopped } ≠ s := by
    intro s h
    have := congrArg State.stopped h
    cases hs : s.stopped <;> simp [hs] at this
  have htell : ∀ tells : LinkOperationResult → Bool, told₁.any tells = told₂.any tells := by
    intro tells
    have h := (h₁ fun event s => match event with
      | .operation result => if tells result then { s with stopped := !s.stopped } else s
      | _ => s).symm.trans (h₂ fun event s => match event with
      | .operation result => if tells result then { s with stopped := !s.stopped } else s
      | _ => s)
    have heffect : ∀ told : Option LinkOperationResult, (match told with
        | none => s₁
        | some result => if tells result then { s₁ with stopped := !s₁.stopped } else s₁) =
          if told.any tells then { s₁ with stopped := !s₁.stopped } else s₁ := by
      intro told
      cases told <;> rfl
    have h' := (heffect told₁).symm.trans (Eq.trans (by cases told₁ <;> cases told₂ <;> exact h)
      (heffect told₂))
    cases ha : told₁.any tells <;> cases hb : told₂.any tells
    · rfl
    · rw [ha, hb] at h'
      exact absurd h'.symm (hflip s₁)
    · rw [ha, hb] at h'
      exact absurd h' (hflip s₁)
    · rfl
  cases told₁ with
  | none =>
    cases told₂ with
    | none => rfl
    | some result₂ => exact absurd (htell fun _ => true) (by simp)
  | some result₁ =>
    have h := htell fun result => result = result₁
    cases told₂ with
    | none => simp at h
    | some result₂ =>
      have : result₂ = result₁ := by simpa using h
      rw [this]

/-- A state that agrees with another on all that an operation's result depends on. -/
theorem led_same {X : String} {s' : State P}
    (hs' : s' = named w message destination operationID s ∨
      s' = (named w message destination operationID s).pruned) :
    SameOperation X s s' ∧ s'.outgoing.rotating = s.outgoing.rotating := by
  obtain ⟨issued, hnamed⟩ : ∃ issued, named w message destination operationID s =
    { s with outgoing := { s.outgoing with issuedIDs := issued } } := named_eq w
  rw [hnamed] at hs'
  rcases hs' with rfl | rfl
  · exact ⟨⟨rfl, rfl, rfl, rfl, rfl, rfl, rfl⟩, rfl⟩
  · exact ⟨⟨rfl, rfl, rfl, rfl, rfl, rfl, rfl⟩, rfl⟩

theorem SameOperation.trans {X : String} {s₁ s₂ s₃ : State P} (h : SameOperation X s₁ s₂)
    (h' : SameOperation X s₂ s₃) : SameOperation X s₁ s₃ :=
  ⟨h'.status.trans h.status, h'.outbound.trans h.outbound, h'.requests.trans h.requests,
    h'.responses.trans h.responses, h'.heap.trans h.heap, h'.queue.trans h.queue,
    h'.clock.trans h.clock⟩

/-- A submission under a fenced operation ID leaves the operation alone if and only if it is not
refused before the operation's result is looked up, or that result is a failure already and stays
in the table. -/
theorem submission_undisturbed
    (hfenced : s.fenced (submittedID w message destination operationID s) = true) :
    Undisturbed w message destination operationID s ↔
      (RefusedFirst w message destination (submittedID w message destination operationID s) s →
        s.recordedStatus (submittedID w message destination operationID s) = some .failed ∧
          submittedID w message destination operationID s ∉ s.outgoing.rotating.map Prod.fst) := by
  have hlead := submit_leads w hfenced
  unfold Undisturbed
  generalize submittedID w message destination operationID s = X at hlead hfenced ⊢
  rcases hlead with ⟨hrefused, reason, s', hs', hlead⟩ | ⟨hrefused, s', hs', hlead⟩
  · obtain ⟨hsame, hrotating⟩ := @led_same P w s message destination operationID X s' hs'
    constructor
    · rintro ⟨s'', told, hlead', hsame', htold⟩ -
      obtain ⟨rfl, rfl⟩ := hlead'.unique hlead
      have hstatus := htold _ rfl rfl
      have hkept := (failed_status_iff s' X reason).1
        ⟨hsame'.status.trans hsame.status.symm, hsame.status.trans hstatus⟩
      rw [hrotating] at hkept
      exact ⟨hstatus, hkept.2⟩
    · intro h
      obtain ⟨hstatus, hkept⟩ := h hrefused
      rw [← hrotating] at hkept
      refine ⟨_, _, hlead, hsame.trans (failed_sameOperation reason
        (hsame.status.trans hstatus) hkept), ?_⟩
      rintro result hresult -
      obtain rfl := Option.some.inj hresult
      exact hstatus
  · constructor
    · intro _ h
      exact absurd h hrefused
    · intro _
      refine ⟨s', none, hlead, (@led_same P w s message destination operationID X s' hs').1, ?_⟩
      rintro result hresult
      cases hresult

end Submission

section Resubmitted

def reportingWiring : Wiring plainParts := (plainEnv ⟨.asset, "uav-1"⟩ [] [] []).wired (fun _ _ _ => []) 0

def progress : LinkMessage := .taskReport ⟨"task-1", false, "\x7b\"action\":\"start\"\x7d"⟩

/-- An Asset that has queued a report for its Gateway. -/
def reported : State plainParts :=
  runSteps reportingWiring [.call (.submit progress (some ⟨.gateway, "gw"⟩) (some "op-1"))]
    plainBeginning.state

/-- Submitting the report again under its operation ID changes nothing. -/
theorem submission_undisturbed_again :
    Undisturbed reportingWiring progress (some ⟨.gateway, "gw"⟩) (some "op-1") reported := by
  refine (@submission_undisturbed plainParts reportingWiring reported progress
    (some ⟨.gateway, "gw"⟩) (some "op-1") (by decide +kernel)).2 ?_
  rintro (h | h | h | ⟨-, ⟨request, h, -⟩ | h | h⟩)
  · exact absurd h (by decide +kernel)
  · exact absurd h (by decide +kernel)
  · exact absurd h.2 (by decide)
  · cases h
  · exact absurd h (by decide +kernel)
  · exact absurd h (by decide +kernel)

/-- A submission without a destination fails, and the pending operation of its ID with it. -/
theorem submission_disturbs :
    Run reportingWiring (fun _ _ => True) reported ∧ reported.fenced "op-1" = true ∧
      reported.outgoing.outboundByOperation.get "op-1" = some 0 ∧
      reported.recordedStatus "op-1" = some .queued ∧
      (submit reportingWiring progress none (some "op-1") reported).2.recordedStatus "op-1" =
        some .failed ∧
      ¬Undisturbed reportingWiring progress none (some "op-1") reported := by
  have hqueued : reported.recordedStatus "op-1" = some .queued := by decide +kernel
  have hfailed : (submit reportingWiring progress none (some "op-1") reported).2.recordedStatus
      "op-1" = some .failed := by decide +kernel
  refine ⟨Run.steps _ (.begin plainBeginning) fun _ _ _ _ => trivial, by decide +kernel,
    by decide +kernel, hqueued, hfailed, ?_⟩
  rintro ⟨s', told, hlead, hsame, -⟩
  have hended : (submit reportingWiring progress none (some "op-1") reported).2 = s' := by
    refine (hlead reportingWiring.react).trans ?_
    cases told <;> rfl
  have hstatus : s'.recordedStatus "op-1" = reported.recordedStatus "op-1" := hsame.status
  rw [← hended, hqueued, hfailed] at hstatus
  cases hstatus

end Resubmitted

end Atlas.Link
