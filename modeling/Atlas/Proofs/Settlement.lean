import Atlas.Proofs.Inward

/-!
# Settling a Task together with its report

`settleInboundWithTaskReport` prepares the receipt and the report before it queues either. Preparing
changes nothing that lasts: it forgets what has expired, and counts. So a settlement that is refused
leaves the transport as it was, and one that is accepted has queued both.
-/

namespace Atlas.Link

open Handlers

variable {P : Parts}

section Lasting

/-- What is left of a state once expired entries are forgotten, and the counters of IDs and orders,
the wake-up for freed operation IDs and the timers are disregarded. -/
def State.lasting (s : State P) : State P :=
  { s with
    inbound :=
      { s.inbound with
        settledInbound := s.inbound.settledInbound.dropWhile (·.2.expired s.clock.now) }
    outgoing :=
      { s.outgoing.pruneCommittedOperationIDs s.clock.now with
        issuedIDs := 0
        nextOrder := 0
        committedOperationCapacityBlocked := false
        committedOperationExpiryTimer := none
        committedOperationExpiryAt := none }
    clock := ⟨s.clock.now, 0, []⟩
    notes := [] }

theorem takeWhile_dropWhile {α : Type} (p : α → Bool) :
    ∀ l : List α, (l.dropWhile p).takeWhile p = []
  | [] => rfl
  | a :: l => by
    by_cases h : p a = true
    · rw [List.dropWhile_cons_of_pos h]
      exact takeWhile_dropWhile p l
    · rw [List.dropWhile_cons_of_neg h, List.takeWhile_cons_of_neg h]

theorem dropWhile_dropWhile {α : Type} (p : α → Bool) :
    ∀ l : List α, (l.dropWhile p).dropWhile p = l.dropWhile p
  | [] => rfl
  | a :: l => by
    by_cases h : p a = true
    · rw [List.dropWhile_cons_of_pos h]
      exact dropWhile_dropWhile p l
    · rw [List.dropWhile_cons_of_neg h, List.dropWhile_cons_of_neg h]

/-- Pruning once is enough. -/
theorem Outgoing.prune_prune (now : ℕ) (o : Outgoing P) :
    (o.pruneCommittedOperationIDs now).pruneCommittedOperationIDs now =
      o.pruneCommittedOperationIDs now := by
  unfold Outgoing.pruneCommittedOperationIDs
  simp only [takeWhile_dropWhile, dropWhile_dropWhile, List.foldl_nil]

/-- An update of the outbound side is silent where it keeps what is left after pruning. -/
theorem modifyOutgoing_lasting {f : Outgoing P → Outgoing P}
    (h : ∀ (s : State P), State.lasting { s with outgoing := f s.outgoing } = s.lasting) :
    Silent State.lasting (modifyOutgoing f : Handler P Unit) := ⟨h⟩

instance : Silent State.lasting (getOutgoing : Handler P (Outgoing P)) := ⟨fun _ => rfl⟩

instance : Silent State.lasting (clockNow : Handler P ℕ) := ⟨fun _ => rfl⟩

instance : Silent State.lasting (isStopped : Handler P Bool) := ⟨fun _ => rfl⟩

instance (delayMs : ℕ) (task : TimerTask) :
    Silent State.lasting (schedule delayMs task : Handler P ℕ) := ⟨fun _ => rfl⟩

instance (handle : Option ℕ) : Silent State.lasting (cancelTimer? handle : Handler P Unit) := by
  unfold cancelTimer?
  split
  · infer_instance
  · exact ⟨fun _ => rfl⟩

instance (w : Wiring P) : Silent State.lasting (createID w) := ⟨fun _ => rfl⟩

instance : Silent State.lasting (pruneSettledInbound : Handler P Unit) where
  silent s := by
    show State.lasting s.pruneSettledInbound = s.lasting
    unfold State.lasting State.pruneSettledInbound OrderedMap.dropWhile
    simp only [dropWhile_dropWhile]

instance : Silent State.lasting (pruneCommittedOperationIDs : Handler P Unit) where
  silent s := by
    show State.lasting { s with outgoing := s.outgoing.pruneCommittedOperationIDs s.clock.now } = _
    unfold State.lasting
    simp only [Outgoing.prune_prune]

instance : Silent State.lasting (scheduleCommittedOperationExpiryWakeup : Handler P Unit) := by
  unfold scheduleCommittedOperationExpiryWakeup
  refine .past fun o => .past fun stopped => ?_
  split
  · infer_instance
  · split
    · infer_instance
    · split
      · infer_instance
      · refine .past fun _ => .past fun now => .past fun timer => ?_
        exact modifyOutgoing_lasting fun _ => rfl

variable (w : Wiring P)

instance (message : LinkMessage) (destination : Option LinkNode) :
    Silent State.lasting (operationIDFor w message destination) := by
  unfold operationIDFor
  split <;> first | infer_instance | (split <;> infer_instance)

instance (operationID : Option String) (message : LinkMessage) (destination : Option LinkNode) :
    Silent State.lasting (operationIDOr w operationID message destination) := by
  unfold operationIDOr
  split <;> infer_instance

instance (q : OutboundRequest) : Silent State.lasting (admitOutbound w q) := by
  have hblocked : Silent State.lasting (modifyOutgoing fun o : Outgoing P =>
      { o with committedOperationCapacityBlocked := true }) :=
    modifyOutgoing_lasting fun _ => rfl
  exact admitOutbound_silent w q

instance (q : OutboundRequest) : Silent State.lasting (identityFor w q) := by
  unfold identityFor
  split
  · infer_instance
  · unfold outboundIdentity
    infer_instance

instance (q : OutboundRequest) : Silent State.lasting (hasRoom w q) := by
  unfold hasRoom
  infer_instance

/-- Only the framing of state uses the encoder of state deltas. -/
theorem frameMessage_lasting {message : LinkMessage} (h : message.type ≠ .state) (payload : Bytes)
    (identity : FrameIdentity) (sendOptions : RadioSendOptions) :
    Silent State.lasting (frameMessage w message payload identity sendOptions) := by
  unfold frameMessage
  dsimp only
  split
  · infer_instance
  · refine .past fun o => ?_
    split
    · exact absurd rfl h
    · infer_instance

theorem prepareOutbound_lasting {q : OutboundRequest} (h : q.message.type ≠ .state) :
    Silent State.lasting (prepareOutbound w q) := by
  have hframe := frameMessage_lasting w h
  have hcount : Silent State.lasting (modifyOutgoing fun o : Outgoing P =>
      { o with nextOrder := o.nextOrder + 1 }) := modifyOutgoing_lasting fun _ => rfl
  unfold prepareOutbound
  refine .past fun admitted => ?_
  split
  · infer_instance
  split
  · infer_instance
  refine .past fun identity => ?_
  dsimp only
  refine .past fun framed => ?_
  split
  · infer_instance
  · infer_instance

end Lasting

section Preparing

variable (w : Wiring P)

/-- An outbound message made for a request. -/
structure Fits (q : OutboundRequest) (outbound : Outbound P) : Prop where
  message : outbound.message = q.message
  operationID : outbound.operationID = q.operationID
  sequence : outbound.identity.sourceSequence = q.sourceSequence
  destination : outbound.identity.destination = q.destination
  delivery : outbound.delivery = deliveryClass q.message
  coalescingKey : outbound.coalescingKey = Atlas.Link.coalescingKey q.message
  deadlineTimer : outbound.deadlineTimer = none

def OutboundPreparation.isReady : OutboundPreparation P → Bool
  | .ready _ => true
  | _ => false

variable {w} {v : State P} {q : OutboundRequest}

/-- The admission of a message does not prepare it. -/
theorem admitOutbound_ends : Ends State.lasting v (admitOutbound w q) fun r _ =>
    ∀ p, r = .error p → p.isReady = false := by
  have herror : ∀ {p : OutboundPreparation P}, p.isReady = false →
      Ends State.lasting v (pure (.error p) : Handler P (Except (OutboundPreparation P) Bool))
        fun r _ => ∀ p, r = .error p → p.isReady = false := by
    intro p hp
    exact .pure fun s _ p' h => Except.error.inj h ▸ hp
  have hblocked : Silent State.lasting (modifyOutgoing fun o : Outgoing P =>
      { o with committedOperationCapacityBlocked := true }) :=
    modifyOutgoing_lasting fun _ => rfl
  have hfailed : ∀ reason : String, Ends State.lasting v
      (pure (.error (.failed reason)) : Handler P (Except (OutboundPreparation P) Bool))
        fun r _ => ∀ p, r = .error p → p.isReady = false := fun _ => herror rfl
  unfold admitOutbound
  refine .past fun stopped => ?_
  refine .choose (hfailed _) (.choose (hfailed _) (.choose (hfailed _) ?_))
  refine .choose (herror rfl) (.choose (hfailed _) ?_)
  refine .past fun _ => .past fun o => ?_
  refine .choose (hfailed _) ?_
  split
  · exact herror rfl
  · refine .choose (hfailed _) (.choose ?_ (.choose (hfailed _) (.choose (hfailed _) ?_)))
    · exact .past fun _ => .past fun _ => hfailed _
    · exact .pure fun s _ p h => nomatch h

theorem identityFor_ends (hq : q.reservation = none) :
    Ends State.lasting v (identityFor w q) fun identity s => s.lasting = v ∧
      identity.sourceSequence = q.sourceSequence ∧ identity.destination = q.destination := by
  unfold identityFor
  rw [hq]
  unfold outboundIdentity
  refine .past fun messageID => .pure fun s hs => ⟨hs, rfl, rfl⟩

/-- What is prepared fits what was asked for. -/
theorem prepareOutbound_ends (hmessage : q.message.type ≠ .state) (hq : q.reservation = none) :
    Ends State.lasting v (prepareOutbound w q) fun preparation s => s.lasting = v ∧
      ∀ prepared, preparation = .ready prepared → Fits q prepared.outbound := by
  have := prepareOutbound_lasting w hmessage
  have hframe := frameMessage_lasting w hmessage
  have hcount : Silent State.lasting (modifyOutgoing fun o : Outgoing P =>
      { o with nextOrder := o.nextOrder + 1 }) := modifyOutgoing_lasting fun _ => rfl
  refine Ends.and_silent ?_
  unfold prepareOutbound
  refine .bind admitOutbound_ends.and_silent fun admitted hadmitted => ?_
  split
  · rename_i preparation
    refine .pure fun s _ prepared h => ?_
    have hready := hadmitted preparation rfl
    rw [h] at hready
    cases hready
  split
  · exact .pure fun s _ prepared h => by cases h
  refine .bind (identityFor_ends hq) fun identity hidentity => ?_
  dsimp only
  refine .past fun framed => ?_
  split
  · exact .pure fun s _ prepared h => by cases h
  · refine .past fun room => ?_
    split
    · refine .past fun now => .past fun o => .past fun _ => .pure fun s _ prepared h => ?_
      obtain rfl := OutboundPreparation.ready.inj h
      exact ⟨rfl, rfl, hidentity.1, hidentity.2, rfl, rfl, rfl⟩
    · exact .pure fun s _ prepared h => by cases h

/-- The receipt of an atomic settlement. -/
def receiptRequest (pending : PendingInbound) (receiptOperationID : String) (sequence : ℕ) :
    OutboundRequest where
  message := .control (.settled .confirmed pending.operationID pending.messageID none)
  destination := some pending.source
  operationID := receiptOperationID
  useInboundReservation := false
  radioRequestID := pending.radioPacketID
  capacity := ⟨0, 1, 0⟩
  sourceSequence := sequence
  reservation := none

/-- The report of an atomic settlement. -/
def reportRequest (report : TaskReport) (destination : LinkNode) (reportOperationID : String)
    (sequence : ℕ) : OutboundRequest where
  message := .taskReport report
  destination := some destination
  operationID := reportOperationID
  useInboundReservation := false
  radioRequestID := none
  capacity := ⟨2, 1, 1⟩
  sourceSequence := sequence
  reservation := none

theorem prepareAtomic_ends (pending : PendingInbound) (report : TaskReport)
    (destination : LinkNode) (receiptOperationID reportOperationID : String) :
    Ends State.lasting v
      (prepareAtomic w pending report destination receiptOperationID reportOperationID) fun r s =>
        s.lasting = v ∧ ∀ receipt prepared, r = .ok (receipt, prepared) →
          Fits (receiptRequest pending receiptOperationID (v.outgoing.sourceSequence + 1))
              receipt.outbound ∧
            Fits (reportRequest report destination reportOperationID
              (v.outgoing.sourceSequence + 2)) prepared.outbound := by
  have hsequence : Ends State.lasting v (getOutgoing : Handler P (Outgoing P)) fun o s =>
      s.lasting = v ∧ o.sourceSequence = v.outgoing.sourceSequence := by
    rintro s rfl
    exact ⟨rfl, rfl⟩
  unfold prepareAtomic
  refine .bind hsequence fun o ho => ?_
  rw [ho]
  refine .bind (prepareOutbound_ends (q := receiptRequest pending receiptOperationID
    (v.outgoing.sourceSequence + 1)) LinkMessageType.noConfusion rfl) fun receipt hreceipt => ?_
  split
  · exact .pure fun s hs => ⟨hs, fun _ _ h => by cases h⟩
  · exact .pure fun s hs => ⟨hs, fun _ _ h => by cases h⟩
  · exact .pure fun s hs => ⟨hs, fun _ _ h => by cases h⟩
  · rename_i receipt
    refine .bind (prepareOutbound_ends (q := reportRequest report destination reportOperationID
      (v.outgoing.sourceSequence + 2)) LinkMessageType.noConfusion rfl) fun prepared hprepared => ?_
    split
    · exact .pure fun s hs => ⟨hs, fun _ _ h => by cases h⟩
    · exact .pure fun s hs => ⟨hs, fun _ _ h => by cases h⟩
    · exact .pure fun s hs => ⟨hs, fun _ _ h => by cases h⟩
    · rename_i prepared
      refine .pure fun s hs => ⟨hs, fun receipt' prepared' h => ?_⟩
      cases h
      exact ⟨hreceipt receipt rfl, hprepared prepared rfl⟩

theorem taskSettlement_ends (settlementID : String) (report : TaskReport)
    (destination : LinkNode) :
    Ends State.lasting v (taskSettlement w settlementID report destination) fun r s =>
      s.lasting = v ∧ ∀ pending, r = .ok pending →
        v.inbound.pendingInbound.get settlementID = some pending := by
  have hpending : Ends State.lasting v (getInbound : Handler P (Inbound P)) fun i s =>
      s.lasting = v ∧ i.pendingInbound = v.inbound.pendingInbound := by
    rintro s rfl
    exact ⟨rfl, rfl⟩
  unfold taskSettlement
  refine .bind hpending fun i hi => ?_
  rw [hi]
  split
  · exact .pure fun s hs => ⟨hs, fun _ h => by cases h⟩
  · rename_i pending hget
    split
    · exact .pure fun s hs => ⟨hs, fun _ h => by cases h⟩
    split
    · exact .pure fun s hs => ⟨hs, fun _ h => by cases h⟩
    split
    · exact .pure fun s hs => ⟨hs, fun _ h => by cases h⟩
    · refine .pure fun s hs => ⟨hs, fun pending' h => ?_⟩
      cases h
      exact hget

end Preparing

section Committing

variable (w : Wiring P)

/-- A message has entered the queue, and nothing has changed on the inbound side. -/
structure Enqueued (outbound : Outbound P) (s s' : State P) : Prop where
  view : s'.view = s.view
  queue : s'.outgoing.queue = s.outgoing.queue ++ [s.outgoing.heap.length]
  heap : ∃ timer,
    s'.outgoing.heap = s.outgoing.heap ++ [{ outbound with deadlineTimer := timer }]
  sequence : s'.outgoing.sourceSequence =
    max s.outgoing.sourceSequence outbound.identity.sourceSequence

theorem modify_concat {α : Type} (f : α → α) (a : α) :
    ∀ l : List α, (l ++ [a]).modify l.length f = l ++ [f a]
  | [] => rfl
  | b :: l => by
    rw [List.cons_append, List.length_cons, List.modify_succ_cons, modify_concat f a l]
    rfl

/-- A message that replaces no other enters the queue and calls nobody. -/
theorem commitOutbound_enqueued {prepared : PreparedOutbound P}
    (hkey : prepared.outbound.coalescingKey = none)
    (htimer : prepared.outbound.deadlineTimer = none) (s : State P) :
    (commitOutbound w prepared false false s).1 =
        { operationID := prepared.outbound.operationID, status := .queued } ∧
      Enqueued prepared.outbound s (commitOutbound w prepared false false s).2 := by
  have hreplace : replaceOlder w prepared.outbound = pure () := by
    unfold replaceOlder
    rw [hkey]
    split
    · rename_i hnone
      cases hnone
    · rfl
  unfold commitOutbound
  rw [hreplace]
  by_cases hdelivery : prepared.outbound.delivery = .confirmed
  · simp only [hdelivery, if_true]
    refine ⟨rfl, rfl, rfl, ⟨_, modify_concat _ _ _⟩, rfl⟩
  · simp only [hdelivery, if_false]
    exact ⟨rfl, rfl, rfl, ⟨none, by rw [← htimer]; rfl⟩, rfl⟩

/-- What is queued, the last source sequence used, and the time. -/
def State.sending (s : State P) : List ℕ × List (Outbound P) × ℕ × ℕ :=
  (s.outgoing.queue, s.outgoing.heap, s.outgoing.sourceSequence, s.clock.now)

theorem trimResults_sending : ∀ (n : ℕ) (o : Outgoing P),
    (o.trimResults n).queue = o.queue ∧ (o.trimResults n).heap = o.heap ∧
      (o.trimResults n).sourceSequence = o.sourceSequence
  | 0, o => ⟨rfl, rfl, rfl⟩
  | n + 1, o => by
    unfold Outgoing.trimResults
    split_ifs
    · exact ⟨rfl, rfl, rfl⟩
    · split
      · exact ⟨rfl, rfl, rfl⟩
      · exact trimResults_sending n _

instance (result : LinkOperationResult) (key : String) :
    Silent State.sending (recordOperation result key : Handler P Unit) where
  silent s := by
    show State.sending { s with outgoing := s.outgoing.recordOperation result key } = s.sending
    unfold State.sending Outgoing.recordOperation
    dsimp only
    obtain ⟨hqueue, hheap, hsequence⟩ := trimResults_sending (P := P) _ _
    rw [hqueue, hheap, hsequence]
    split_ifs <;> rfl

instance (f : Inbound P → Inbound P) : Silent State.sending (modifyInbound f) := ⟨fun _ => rfl⟩

instance (handle : ℕ) : Silent State.sending (cancelTimer handle : Handler P Unit) :=
  ⟨fun _ => rfl⟩

instance (settlementID : String) :
    Silent State.sending (releasePending settlementID : Handler P Unit) := ⟨fun _ => rfl⟩

instance (settlementID : String) (outcome : SettlementOutcome) :
    Silent State.sending (recordSettledInbound settlementID outcome : Handler P Unit) where
  silent s := by
    show State.sending (s.pruneSettledInbound.recordSettledInbound settlementID outcome) = _
    unfold State.recordSettledInbound
    dsimp only
    split_ifs <;> rfl

instance : Silent State.sending (requestPump 0 : Handler P Unit) := by
  have hget : Silent State.sending (getOutgoing : Handler P (Outgoing P)) := ⟨fun _ => rfl⟩
  have hstopped : Silent State.sending (isStopped : Handler P Bool) := ⟨fun _ => rfl⟩
  have htimer : Silent State.sending (schedule 0 .pump : Handler P ℕ) := ⟨fun _ => rfl⟩
  have hrequested : ∀ timer, Silent State.sending (modifyOutgoing fun o : Outgoing P =>
      { o with pumpRequested := true, pumpTimer := some timer }) := fun _ => ⟨fun _ => rfl⟩
  unfold requestPump
  infer_instance

/-- The settlement of a Task whose receipt and report are queued. -/
def closeAtomic (settlementID fingerprint : String) (pending : PendingInbound)
    (receiptResult reportResult : LinkOperationResult) :
    Handler P AtomicTaskSettlementResult := do
  recordSettledInbound settlementID .confirmed
  releasePending settlementID
  cancelTimer pending.timer
  recordOperation receiptResult receiptResult.operationID
  recordOperation reportResult reportResult.operationID
  let outcome : AtomicTaskSettlementResult := ⟨true, receiptResult, reportResult⟩
  modifyInbound fun i =>
    { i with
      settledInbound := i.settledInbound.modify settlementID fun settled =>
        { settled with atomicTask := some ⟨fingerprint, outcome⟩ } }
  requestPump 0
  return outcome

instance (settlementID fingerprint : String) (pending : PendingInbound)
    (receiptResult reportResult : LinkOperationResult) : Silent State.sending
      (closeAtomic (P := P) settlementID fingerprint pending receiptResult reportResult) := by
  unfold closeAtomic
  dsimp only
  refine .past fun _ => .past fun _ => .past fun _ => .past fun _ => .past fun _ => ?_
  refine .past fun _ => .past fun _ => ?_
  exact .pure _

/-- The settlement leaves the pending ones, and its record keeps the outcome. -/
theorem closeAtomic_inbound (settlementID fingerprint : String) (pending : PendingInbound)
    (receiptResult reportResult : LinkOperationResult) (s : State P) :
    (closeAtomic settlementID fingerprint pending receiptResult reportResult s).1 =
        ⟨true, receiptResult, reportResult⟩ ∧
      (closeAtomic settlementID fingerprint pending receiptResult reportResult s).2.inbound =
        { s.inbound with
          pendingInbound := s.inbound.pendingInbound.delete settlementID
          settledInbound :=
            (s.pruneSettledInbound.recordSettledInbound settlementID
              .confirmed).inbound.settledInbound.modify settlementID fun settled =>
                { settled with atomicTask := some ⟨fingerprint, true, receiptResult, reportResult⟩ } } := by
  refine ⟨rfl, ?_⟩
  set s₁ := s.pruneSettledInbound.recordSettledInbound settlementID .confirmed with hs₁
  have hinbound : s₁.inbound =
      { s.inbound with settledInbound := s₁.inbound.settledInbound } := by
    rw [hs₁]
    unfold State.recordSettledInbound
    dsimp only
    split_ifs <;> rfl
  set s₂ := (do releasePending settlementID; cancelTimer pending.timer : Handler P Unit) s₁ |>.2
    with hs₂
  have hrecorded : Silent State.view (do
      recordOperation receiptResult receiptResult.operationID
      recordOperation reportResult reportResult.operationID : Handler P Unit) := inferInstance
  have hpump : Silent State.view (requestPump 0 : Handler P Unit) := inferInstance
  have hlast := fun s => congrArg View.inbound (hpump.silent s)
  have hkept : ((do
      recordOperation receiptResult receiptResult.operationID
      recordOperation reportResult reportResult.operationID : Handler P Unit) s₂).2.inbound =
        s₂.inbound := congrArg View.inbound (hrecorded.silent s₂)
  refine (hlast _).trans ?_
  show ({ State.inbound ((do
      recordOperation receiptResult receiptResult.operationID
      recordOperation reportResult reportResult.operationID : Handler P Unit) s₂).2 with
        settledInbound := _ } : Inbound P) = _
  rw [hkept]
  show ({ s₁.inbound with
    pendingInbound := s₁.inbound.pendingInbound.delete settlementID
    settledInbound := _ } : Inbound P) = _
  rw [hinbound]

/-- Both messages of an atomic settlement have entered the queue. -/
structure Settled (settlementID fingerprint : String) (receipt report : Outbound P)
    (s s' : State P) (outcome : AtomicTaskSettlementResult) : Prop where
  outcome_eq : outcome = ⟨true, { operationID := receipt.operationID, status := .queued },
    { operationID := report.operationID, status := .queued }⟩
  queue : s'.outgoing.queue =
    s.outgoing.queue ++ [s.outgoing.heap.length, s.outgoing.heap.length + 1]
  heap : ∃ receiptTimer reportTimer, s'.outgoing.heap = s.outgoing.heap ++
    [{ receipt with deadlineTimer := receiptTimer }, { report with deadlineTimer := reportTimer }]
  sequence : s'.outgoing.sourceSequence = max (max s.outgoing.sourceSequence
    receipt.identity.sourceSequence) report.identity.sourceSequence
  now : s'.clock.now = s.clock.now
  pending : s'.inbound.pendingInbound = s.inbound.pendingInbound.delete settlementID
  settled : s'.inbound.settledInbound =
    (s.pruneSettledInbound.recordSettledInbound settlementID
      .confirmed).inbound.settledInbound.modify settlementID fun settled =>
        { settled with atomicTask := some ⟨fingerprint, outcome⟩ }

/-- What is recorded as settled depends on the inbound side and the time only. -/
theorem recordSettled_congr {s s' : State P} (hinbound : s'.inbound = s.inbound)
    (hnow : s'.clock.now = s.clock.now) (settlementID : String) (outcome : SettlementOutcome) :
    (s'.pruneSettledInbound.recordSettledInbound settlementID outcome).inbound =
      (s.pruneSettledInbound.recordSettledInbound settlementID outcome).inbound := by
  unfold State.recordSettledInbound State.pruneSettledInbound
  dsimp only
  rw [hinbound, hnow]
  split_ifs <;> rfl

theorem closeAtomic_settled (settlementID fingerprint : String) (pending : PendingInbound)
    {receipt report : Outbound P} {s s₁ s₂ s₃ : State P} (h₁ : Enqueued receipt s s₁)
    (hnote : s₂ = { s₁ with notes := s₂.notes }) (h₂ : Enqueued report s₂ s₃) :
    Settled settlementID fingerprint receipt report s
      (closeAtomic settlementID fingerprint pending
        { operationID := receipt.operationID, status := .queued }
        { operationID := report.operationID, status := .queued } s₃).2
      ⟨true, { operationID := receipt.operationID, status := .queued },
        { operationID := report.operationID, status := .queued }⟩ := by
  have houtgoing : s₂.outgoing = s₁.outgoing := by rw [hnote]
  have hinbound : s₃.inbound = s.inbound := by
    have h₃ : s₃.inbound = s₂.inbound := congrArg View.inbound h₂.view
    rw [h₃, hnote]
    exact congrArg View.inbound h₁.view
  have hnow : s₃.clock.now = s.clock.now := by
    have h₃ : s₃.clock.now = s₂.clock.now := congrArg View.now h₂.view
    rw [h₃, hnote]
    exact congrArg View.now h₁.view
  obtain ⟨-, hclosed⟩ := closeAtomic_inbound settlementID fingerprint pending
    { operationID := receipt.operationID, status := .queued }
    { operationID := report.operationID, status := .queued } s₃
  have hsending : Silent State.sending (closeAtomic (P := P) settlementID fingerprint pending
      { operationID := receipt.operationID, status := .queued }
      { operationID := report.operationID, status := .queued }) := inferInstance
  have hsent := hsending.silent s₃
  revert hclosed hsent
  generalize (closeAtomic settlementID fingerprint pending
    { operationID := receipt.operationID, status := .queued }
    { operationID := report.operationID, status := .queued } s₃).2 = s₄
  intro hclosed hsent
  have hqueue : s₄.outgoing.queue = s₃.outgoing.queue := congrArg Prod.fst hsent
  have hheap : s₄.outgoing.heap = s₃.outgoing.heap := congrArg (fun p => p.2.1) hsent
  have hsequence : s₄.outgoing.sourceSequence = s₃.outgoing.sourceSequence :=
    congrArg (fun p => p.2.2.1) hsent
  have hnow₄ : s₄.clock.now = s₃.clock.now := congrArg (fun p => p.2.2.2) hsent
  obtain ⟨receiptTimer, hheap₁⟩ := h₁.heap
  obtain ⟨reportTimer, hheap₂⟩ := h₂.heap
  rw [houtgoing] at hheap₂
  refine ⟨rfl, ?_, ⟨receiptTimer, reportTimer, ?_⟩, ?_, hnow₄.trans hnow, ?_, ?_⟩
  · rw [hqueue, h₂.queue, houtgoing, h₁.queue, hheap₁]
    simp
  · rw [hheap, hheap₂, hheap₁]
    simp
  · rw [hsequence, h₂.sequence, houtgoing, h₁.sequence]
  · rw [hclosed, hinbound]
  · rw [hclosed]
    dsimp only
    rw [recordSettled_congr hinbound hnow]

/-- The state between the two messages. -/
def answeredConfirmed (settlementID : String) (s : State P) : State P :=
  { s with notes := .answered settlementID .confirmed (s.inbound.holds settlementID) :: s.notes }

theorem commitAtomic_eq (settlementID fingerprint : String) (pending : PendingInbound)
    (receipt report : PreparedOutbound P) (s : State P) :
    commitAtomic w settlementID fingerprint pending receipt report s =
      closeAtomic settlementID fingerprint pending (commitOutbound w receipt false false s).1
        (commitOutbound w report false false
          (answeredConfirmed settlementID (commitOutbound w receipt false false s).2)).1
        (commitOutbound w report false false
          (answeredConfirmed settlementID (commitOutbound w receipt false false s).2)).2 := rfl

theorem commitAtomic_settled (settlementID fingerprint : String) (pending : PendingInbound)
    {receipt report : PreparedOutbound P} (hreceipt : receipt.outbound.coalescingKey = none)
    (hreceipt' : receipt.outbound.deadlineTimer = none)
    (hreport : report.outbound.coalescingKey = none)
    (hreport' : report.outbound.deadlineTimer = none) (s : State P) :
    Settled settlementID fingerprint receipt.outbound report.outbound s
      (commitAtomic w settlementID fingerprint pending receipt report s).2
      (commitAtomic w settlementID fingerprint pending receipt report s).1 := by
  obtain ⟨hresult₁, h₁⟩ := commitOutbound_enqueued w hreceipt hreceipt' s
  rw [commitAtomic_eq]
  revert hresult₁ h₁
  generalize commitOutbound w receipt false false s = c₁
  intro hresult₁ h₁
  obtain ⟨hresult₂, h₂⟩ := commitOutbound_enqueued w hreport hreport'
    (answeredConfirmed settlementID c₁.2)
  revert hresult₂ h₂
  generalize commitOutbound w report false false (answeredConfirmed settlementID c₁.2) = c₂
  intro hresult₂ h₂
  rw [hresult₁, hresult₂]
  exact closeAtomic_settled settlementID fingerprint pending h₁ rfl h₂

end Committing

section Settling

variable (w : Wiring P)

/-- The outcome that a retained settlement keeps, in what is left of a state. -/
def State.retained (v : State P) (settlementID : String) : Option AtomicTask :=
  (v.inbound.settledInbound.get settlementID).bind (·.atomicTask)

/-- The arguments of a settlement that is accepted. -/
structure Valid (w : Env P) (report : TaskReport) (destination : LinkNode) (fingerprint : String) : Prop where
  message : w.isLinkMessage (.taskReport report) = true
  named : isBlank destination.id = false
  encoded : w.taskReportFingerprint report destination = some fingerprint

/-- What a call does that finds no retained outcome and accepts. -/
structure Accepts (settlementID : String) (report : TaskReport) (destination : LinkNode)
    (v s' : State P) (outcome : AtomicTaskSettlementResult) : Prop where
  fresh : v.retained settlementID = none
  accepted : ∃ fingerprint pending receiptOperationID reportOperationID receipt prepared s,
    Valid w.toEnv report destination fingerprint ∧
      v.inbound.pendingInbound.get settlementID = some pending ∧
      isBlank reportOperationID = false ∧ s.lasting = v ∧
      Fits (receiptRequest pending receiptOperationID (v.outgoing.sourceSequence + 1)) receipt ∧
      Fits (reportRequest report destination reportOperationID (v.outgoing.sourceSequence + 2))
        prepared ∧
      Settled settlementID fingerprint receipt prepared s s' outcome

/-- What a call does that finds a retained outcome of the same report and destination. -/
structure Replays (settlementID : String) (report : TaskReport) (destination : LinkNode)
    (operationID : Option String) (v s' : State P) (outcome : AtomicTaskSettlementResult) :
    Prop where
  same : ∃ prior, v.retained settlementID = some prior ∧ outcome = prior.outcome ∧
    w.taskReportFingerprint report destination = some prior.fingerprint ∧
    (operationID = none ∨ operationID = some prior.outcome.report.operationID)
  lasting : s'.lasting = v

variable {w} {v : State P} {settlementID : String} {report : TaskReport} {destination : LinkNode}
  {operationID : Option String}

theorem failedAtomic_ends (receiptOperationID reportOperationID reason : String) :
    Ends State.lasting v (failedAtomicTaskSettlement (P := P) receiptOperationID reportOperationID
      reason) fun outcome s' => outcome.accepted = false ∧ s'.lasting = v := by
  unfold failedAtomicTaskSettlement
  exact .past fun now => .pure fun s hs => ⟨rfl, hs⟩

/-- After the history is pruned it reads as what is left of the state. -/
theorem pruned_ends {α : Type} {f : Inbound P → Handler P α} {Q : α → State P → Prop}
    (hf : ∀ i, i.settledInbound = v.inbound.settledInbound → Ends State.lasting v (f i) Q) :
    Ends State.lasting v (do
      pruneSettledInbound
      f (← getInbound)) Q := by
  rintro s rfl
  have hpruned : Silent State.lasting (pruneSettledInbound : Handler P Unit) := inferInstance
  exact hf s.pruneSettledInbound.inbound rfl s.pruneSettledInbound (hpruned.silent s)

/-- The three ways a call can end. -/
theorem settle_ends :
    Ends State.lasting v
      (settleInboundWithTaskReport w settlementID report destination operationID) fun outcome s' =>
        (outcome.accepted = false ∧ s'.lasting = v) ∨
          Replays w settlementID report destination operationID v s' outcome ∨
          Accepts w settlementID report destination v s' outcome := by
  unfold settleInboundWithTaskReport
  refine .past fun reportOperationID => .past fun id => ?_
  dsimp only
  have hfailed : ∀ reason, Ends State.lasting v (failedAtomicTaskSettlement (P := P)
      ("control_" ++ id) reportOperationID reason) fun outcome s' =>
        (outcome.accepted = false ∧ s'.lasting = v) ∨
          Replays w settlementID report destination operationID v s' outcome ∨
          Accepts w settlementID report destination v s' outcome :=
    fun reason => (failedAtomic_ends _ _ reason).mono fun _ _ h => .inl h
  refine .past fun stopped => ?_
  split
  · exact hfailed _
  split
  · exact hfailed _
  rename_i hmessage
  split
  · exact hfailed _
  rename_i hblank
  split
  · exact hfailed _
  rename_i hdestination
  split
  · exact hfailed _
  rename_i fingerprint hfingerprint
  refine pruned_ends fun i hi => ?_
  rw [hi]
  split
  · rename_i prior hprior
    split
    · exact hfailed _
    · rename_i hsame
      simp only [not_or, not_and_or, ne_eq, not_not] at hsame
      refine .pure fun s hs => .inr (.inl ⟨⟨prior, hprior, rfl, ?_, ?_⟩, hs⟩)
      · rw [hfingerprint, hsame.1]
      · rcases hsame.2 with h | h
        · exact .inl (by simpa using h)
        · exact .inr h.symm
  · rename_i hfresh
    refine .bind (taskSettlement_ends settlementID report destination) fun settlement hpending => ?_
    split
    · exact hfailed _
    · rename_i pending
      refine .bind (prepareAtomic_ends pending report destination _ _) fun preparation hfits => ?_
      split
      · exact hfailed _
      · rename_i receipt prepared
        obtain ⟨hreceipt, hprepared⟩ := hfits receipt prepared rfl
        intro s hs
        have hsettled := commitAtomic_settled w settlementID fingerprint pending
          hreceipt.coalescingKey hreceipt.deadlineTimer hprepared.coalescingKey
          hprepared.deadlineTimer s
        refine .inr (.inr ⟨hfresh, fingerprint, pending, _, reportOperationID, _, _, s, ?_,
          hpending pending rfl, by simpa using hblank, hs, hreceipt, hprepared, hsettled⟩)
        exact ⟨by simpa using hmessage, by simpa using hdestination, hfingerprint⟩

/-- The same report to the same destination is answered as before. -/
theorem settle_replays {prior : AtomicTask} (hstopped : v.stopped = false)
    (hvalid : Valid w.toEnv report destination prior.fingerprint)
    (hcreate : ∀ n, isBlank (w.createID n) = false)
    (hprior : v.retained settlementID = some prior)
    (hreport : isBlank prior.outcome.report.operationID = false)
    (hoperation : operationID = none ∨ operationID = some prior.outcome.report.operationID) :
    Ends State.lasting v
      (settleInboundWithTaskReport w settlementID report destination operationID)
        fun outcome s' => outcome = prior.outcome ∧ s'.lasting = v := by
  have hnamed : Ends State.lasting v (operationIDOr w operationID (.taskReport report) none)
      fun id s => s.lasting = v ∧ isBlank id = false := by
    rcases hoperation with rfl | rfl
    · rintro s rfl
      exact ⟨rfl, hcreate _⟩
    · exact .pure fun s hs => ⟨hs, hreport⟩
  have hrunning : Ends State.lasting v (isStopped : Handler P Bool) fun stopped s =>
      s.lasting = v ∧ stopped = false := by
    rintro s rfl
    exact ⟨rfl, hstopped⟩
  unfold settleInboundWithTaskReport
  refine .bind hnamed fun reportOperationID hblank => .past fun id => ?_
  dsimp only
  refine .bind hrunning fun stopped hrunning => ?_
  rw [hrunning, hvalid.message, hblank, hvalid.named, hvalid.encoded]
  simp only [Bool.false_eq_true, Bool.not_true, if_false]
  refine pruned_ends fun i hi => ?_
  unfold State.retained at hprior
  rw [hi, hprior]
  have hsame : ¬ (prior.fingerprint ≠ prior.fingerprint ∨
      (operationID.isSome = true ∧ some prior.outcome.report.operationID ≠ operationID)) := by
    rcases hoperation with rfl | rfl <;> simp
  dsimp only
  rw [if_neg hsame]
  exact .pure fun s hs => ⟨rfl, hs⟩

end Settling

end Atlas.Link
