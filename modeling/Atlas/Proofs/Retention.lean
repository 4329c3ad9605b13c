import Atlas.Proofs.Settlement

/-!
# A settlement is answered the same way while it is retained

The history of settlements forgets an entry only once it has expired, and never changes one that
keeps the outcome of an atomic settlement. So the outcome is there for every later call until its
retention time has passed, whatever happens in between.
-/

namespace Atlas.Link

open Handlers

variable {P : Parts}

/-- Time goes on, and an outcome that is kept stays until it expires. -/
def retention : Contract Intake where
  Inv _ := True
  Rel v v' := v.now ≤ v'.now ∧ ∀ settlementID settled,
    v.settledInbound.get settlementID = some settled → settled.atomicTask.isSome = true →
      v'.now < settled.expiresAt → v'.settledInbound.get settlementID = some settled
  refl _ := ⟨le_rfl, fun _ _ h _ _ => h⟩
  trans h h' := ⟨h.1.trans h'.1, fun id settled hget hatomic hnow =>
    h'.2 id settled (h.2 id settled hget hatomic (h'.1.trans_lt hnow)) hatomic hnow⟩

section Settlements

/-- A handler that leaves the history and the time alone. -/
theorem retention_of_same {α : Type} {m : Handler P α}
    (h : ∀ s, (m s).2.inbound.settledInbound = s.inbound.settledInbound ∧
      (m s).2.clock.now = s.clock.now) : Keeps State.intake retention m where
  keeps s _ := by
    obtain ⟨hsettled, hnow⟩ := h s
    refine ⟨trivial, hnow.ge, fun id settled hget _ _ => ?_⟩
    show (m s).2.inbound.settledInbound.get id = some settled
    rw [hsettled]
    exact hget

instance (n : Note) : Keeps State.intake retention (note n : Handler P Unit) :=
  retention_of_same fun _ => ⟨rfl, rfl⟩

theorem modifyInbound_retention {f : Inbound P → Inbound P}
    (h : ∀ i, (f i).settledInbound = i.settledInbound) :
    Keeps State.intake retention (modifyInbound f) :=
  retention_of_same fun s => ⟨h s.inbound, rfl⟩

/-- What has not expired is not forgotten. -/
theorem pruneSettledInbound_get {s : State P} {settlementID : String} {settled : SettledInbound}
    (hget : s.inbound.settledInbound.get settlementID = some settled)
    (hnow : s.clock.now < settled.expiresAt) :
    s.pruneSettledInbound.inbound.settledInbound.get settlementID = some settled := by
  rcases OrderedMap.get_dropWhile (p := (·.2.expired s.clock.now)) hget with h | ⟨-, hexpired⟩
  · exact h
  · simp only [SettledInbound.expired, decide_eq_true_eq] at hexpired
    omega

instance : Keeps State.intake retention (pruneSettledInbound : Handler P Unit) where
  keeps _ _ := ⟨trivial, le_rfl, fun _ _ hget _ hnow => pruneSettledInbound_get hget hnow⟩

/-- A record that is there is kept. -/
theorem recordSettledInbound_get {s : State P} {settlementID id : String}
    {outcome : SettlementOutcome} {settled : SettledInbound}
    (hget : s.inbound.settledInbound.get id = some settled) :
    (s.recordSettledInbound settlementID outcome).inbound.settledInbound.get id = some settled := by
  unfold State.recordSettledInbound
  dsimp only
  split_ifs with hhas
  · exact hget
  · exact hget
  · have hne : id ≠ settlementID := by
      rintro rfl
      exact hhas (OrderedMap.has_eq_true_iff.2 ⟨settled, hget⟩)
    rw [OrderedMap.get_set_of_ne hne]
    exact hget

theorem recordSettledInbound_now (s : State P) (settlementID : String)
    (outcome : SettlementOutcome) :
    (s.recordSettledInbound settlementID outcome).clock.now = s.clock.now := by
  unfold State.recordSettledInbound
  dsimp only
  split_ifs <;> rfl

instance (settlementID : String) (outcome : SettlementOutcome) :
    Keeps State.intake retention (recordSettledInbound settlementID outcome : Handler P Unit) where
  keeps s _ := by
    have hnow : (s.pruneSettledInbound.recordSettledInbound settlementID outcome).clock.now =
        s.clock.now := recordSettledInbound_now _ _ _
    refine ⟨trivial, hnow.ge, fun id settled hget _ hlt => ?_⟩
    exact recordSettledInbound_get (pruneSettledInbound_get hget (hnow.ge.trans_lt hlt))

instance (settlementID : String) :
    Keeps State.intake retention (releasePending settlementID : Handler P Unit) :=
  modifyInbound_retention fun _ => rfl

variable (w : Wiring P) [hemit : ∀ event, Keeps State.intake retention (emit w event)]

instance (settlementID : String) (destination : LinkNode) (outcome : SettlementOutcome)
    (operationID messageID : String) (reason : Option String) (radioPacketID : Option ℕ) :
    Keeps State.intake retention
      (answer w settlementID destination outcome operationID messageID reason radioPacketID) := by
  unfold answer
  refine .past fun sent => ?_
  infer_instance

instance (settlementID : String) (accepted : Bool) (reason : Option String) :
    Keeps State.intake retention (settleInbound w settlementID accepted reason) := by
  unfold settleInbound
  refine .past fun i => ?_
  split
  · infer_instance
  · dsimp only
    infer_instance

instance (settlementID : String) :
    Keeps State.intake retention (expirePendingInbound w settlementID) := by
  unfold expirePendingInbound
  refine .past fun i => ?_
  split <;> infer_instance

instance (identity : FrameIdentity) (reason : String) (radioPacketID : Option ℕ) :
    Keeps State.intake retention (rejectInbound w identity reason radioPacketID) := by
  unfold rejectInbound
  infer_instance

instance (message : LinkMessage) (identity : FrameIdentity) (radioPacketID : Option ℕ) :
    Keeps State.intake retention (admitPending w message identity radioPacketID) := by
  unfold admitPending
  have h : ∀ f : Inbound P → OrderedMap String PendingInbound, Keeps State.intake retention
      (modifyInbound fun i : Inbound P => { i with pendingInbound := f i }) :=
    fun f => modifyInbound_retention fun _ => rfl
  infer_instance

instance (message : LinkMessage) (identity : FrameIdentity) (order : Option TaskDeliveryOrder)
    (requiresSettlement : Bool) :
    Keeps State.intake retention
      (deliver w message identity order requiresSettlement) := by
  unfold deliver emitMessage
  infer_instance

instance (message : LinkMessage) (identity : FrameIdentity) (order : Option TaskDeliveryOrder)
    (radioPacketID : Option ℕ) :
    Keeps State.intake retention
      (admitConfirmed w message identity order radioPacketID) := by
  unfold admitConfirmed rejectInboundCapacity
  refine .past fun s => ?_
  dsimp only
  infer_instance

instance (message : LinkMessage) (identity : FrameIdentity) (order : Option TaskDeliveryOrder)
    (radioPacketID : Option ℕ) :
    Keeps State.intake retention
      (settleOrDeliver w message identity order radioPacketID) := by
  unfold settleOrDeliver
  split
  · refine .past fun _ => .past fun i => ?_
    split <;> infer_instance
  · infer_instance

instance (message : LinkMessage) (identity : FrameIdentity) (radioPacketID : Option ℕ) :
    Keeps State.intake retention (acceptMessage w message identity radioPacketID) := by
  unfold acceptMessage rejectAddressedMessage
  dsimp only
  split
  · infer_instance
  · refine .past fun i => ?_
    split <;> infer_instance

omit hemit in
/-- A call that settles a Task changes no outcome that is kept already. -/
instance (settlementID : String) (report : TaskReport) (destination : LinkNode)
    (operationID : Option String) :
    Keeps State.intake retention
      (settleInboundWithTaskReport w settlementID report destination operationID) where
  keeps s _ := by
    have hends := @settle_ends P w s.lasting settlementID report destination operationID s rfl
    set s' := (settleInboundWithTaskReport w settlementID report destination operationID s).2
    have hlasting : s'.lasting = s.lasting → retention.Rel s.intake s'.intake := by
      intro heq
      have hnow : s'.clock.now = s.clock.now := congrArg (fun v => v.clock.now) heq
      refine ⟨hnow.ge, fun id settled hget _ hlt => ?_⟩
      have hkept := pruneSettledInbound_get hget (hnow.ge.trans_lt hlt)
      have hsettled : s'.pruneSettledInbound.inbound.settledInbound =
          s.pruneSettledInbound.inbound.settledInbound :=
        congrArg (fun v => v.inbound.settledInbound) heq
      rw [← hsettled] at hkept
      exact OrderedMap.get_of_get_dropWhile hkept
    refine ⟨trivial, ?_⟩
    rcases hends with ⟨-, heq⟩ | hreplays | haccepts
    · exact hlasting heq
    · exact hlasting hreplays.lasting
    · obtain ⟨fingerprint, pending, _, _, receipt, prepared, s₁, -, -, -, hs₁, -, -, hsettled⟩ :=
        haccepts.accepted
      have hnow₁ : s₁.clock.now = s.clock.now := congrArg (fun v => v.clock.now) hs₁
      have hnow : s'.clock.now = s.clock.now := hsettled.now.trans hnow₁
      refine ⟨hnow.ge, fun id settled hget hatomic hlt => ?_⟩
      have hkept := pruneSettledInbound_get hget (hnow.ge.trans_lt hlt)
      have hsame : s₁.pruneSettledInbound.inbound.settledInbound =
          s.pruneSettledInbound.inbound.settledInbound :=
        congrArg (fun v => v.inbound.settledInbound) hs₁
      have hne : id ≠ settlementID := by
        rintro rfl
        have hfresh := haccepts.fresh
        unfold State.retained at hfresh
        have hget' : s.lasting.inbound.settledInbound.get id = some settled := hkept
        rw [hget', Option.bind_some] at hfresh
        rw [hfresh] at hatomic
        cases hatomic
      rw [← hsame] at hkept
      show s'.inbound.settledInbound.get id = some settled
      rw [hsettled.settled, OrderedMap.get_modify, if_neg hne]
      exact recordSettledInbound_get hkept

end Settlements

section Packets

instance (key : String) :
    Keeps State.intake retention (deleteReassembly key : Handler P Unit) :=
  modifyInbound_retention fun _ => rfl

instance (key : String) (r : Reassembly) :
    Keeps State.intake retention (setReassembly key r : Handler P Unit) :=
  modifyInbound_retention fun _ => rfl

instance : Discards P retention where
  discard _ := modifyInbound_retention fun _ => rfl

variable (w : Wiring P)

instance : Keeps State.intake retention (makeReassemblyRoom w) := by
  unfold makeReassemblyRoom
  refine .past fun i => ?_
  split
  · infer_instance
  · split <;> infer_instance

instance (frame : LinkFrame) (packet : RadioPacket) :
    Keeps State.intake retention (openReassembly w frame packet) := by
  unfold openReassembly
  refine .past fun i => ?_
  split
  · infer_instance
  · dsimp only
    refine .past fun _ => .past fun timer => .past fun now => .past fun _ => ?_
    infer_instance

instance (r : Reassembly) (frame : LinkFrame) (packet : RadioPacket) :
    Keeps State.intake retention (addChunk w r frame packet) := by
  unfold addChunk
  dsimp only
  infer_instance

instance (frame : LinkFrame) : Keeps State.intake retention (expectsObjectContent w frame) := by
  unfold expectsObjectContent
  dsimp only
  infer_instance

instance (frame : LinkFrame) : Keeps State.intake retention (admitsFrame w frame) := by
  unfold admitsFrame
  infer_instance

instance (packet : RadioPacket) : Keeps State.intake retention (receiveFrame w packet) := by
  unfold receiveFrame
  refine .past fun stopped => ?_
  split
  · infer_instance
  · split
    · infer_instance
    · infer_instance

variable [hemit : ∀ event, Keeps State.intake retention (emit w event)]

instance (identity : FrameIdentity) (bytes : Bytes) (radioPacketID : Option ℕ) :
    Keeps State.intake retention (handleCompleteMessage w identity bytes radioPacketID) := by
  unfold handleCompleteMessage openComplete
  have hopen : Keeps State.intake retention (do
      note (.completed identity bytes)
      let message ← openMessage w identity bytes
      interceptControl w identity message) := inferInstance
  refine .past fun message => ?_
  split <;> infer_instance

instance (packet : RadioPacket) : Keeps State.intake retention (receive w packet) := by
  unfold receive
  refine .past fun complete => ?_
  split <;> infer_instance

instance (key : String) : Keeps State.intake retention (expireReassembly w key) := by
  unfold expireReassembly
  refine .past fun i => ?_
  split
  · infer_instance
  · refine .past fun now => ?_
    dsimp only
    split
    · refine .past fun _ => .past fun timer => .past fun i => ?_
      split <;> infer_instance
    · infer_instance

omit hemit in
instance : Keeps State.intake retention (beginStop : Handler P Unit) := by
  have hstop : Keeps State.intake retention
      (modify fun s : State P => { s with stopped := true } : Handler P Unit) :=
    retention_of_same fun _ => ⟨rfl, rfl⟩
  have hempty : Keeps State.intake retention
      (modifyInbound fun i : Inbound P => { i with reassemblies := .empty }) :=
    modifyInbound_retention fun _ => rfl
  have hcancel : ∀ rs : List Reassembly,
      Silent State.view (rs.forM fun r => (cancelTimer r.timer : Handler P Unit)) :=
    fun rs => .forM (fun r => inferInstance) _
  unfold beginStop
  refine .past fun _ => .past fun s => .past fun _ => .past fun _ => .past fun _ => ?_
  infer_instance

instance (reason : String) : Keeps State.intake retention (stop w reason) := by
  have hfail : ∀ rs : List ℕ,
      Keeps State.intake retention (rs.forM fun r => failForStop w reason r) :=
    fun rs => .forM (fun r => inferInstance) _
  have hcancel : ∀ ps : List PendingInbound,
      Silent State.view (ps.forM fun p => (cancelTimer p.timer : Handler P Unit)) :=
    fun ps => .forM (fun p => inferInstance) _
  have hempty : Keeps State.intake retention
      (modifyInbound fun i : Inbound P => { i with pendingInbound := .empty }) :=
    modifyInbound_retention fun _ => rfl
  unfold stop
  refine .past fun stopped => ?_
  split
  · infer_instance
  · refine .past fun _ => .past fun o => .past fun _ => .past fun _ => .past fun i => ?_
    infer_instance

instance : Upheld w retention where
  expireReassembly _ := inferInstance
  settleInbound _ _ _ := inferInstance
  settleInboundWithTaskReport _ _ _ _ := inferInstance
  expirePendingInbound _ := inferInstance
  stop _ := inferInstance

instance (step : Step P) : Keeps State.intake retention (step.run w) := by
  cases step with
  | call call =>
    have h : Keeps State.intake retention (call.run w) := inferInstance
    exact h
  | packet packet =>
    have h : Keeps State.intake retention (receive w packet) := inferInstance
    exact h
  | timer handle =>
    have h : Keeps State.intake retention (fireTimer w handle) := inferInstance
    exact h
  | radioDone result =>
    have h : Keeps State.intake retention (resumePump w result) := inferInstance
    exact h
  | disconnect reason =>
    have h : Keeps State.intake retention (handleRadioDisconnect w reason) := inferInstance
    exact h
  | elapse ms =>
    refine ⟨fun s _ => ⟨trivial, ?_, fun id settled hget _ _ => hget⟩⟩
    exact Nat.le_add_right s.clock.now ms

end Packets

section Later

variable (env : Env P) (listeners : Listeners P) (depth : ℕ)

theorem emit_retention (event : Event) :
    Keeps State.intake retention (emit (env.wired listeners depth) event) := by
  refine emit_wired (fun w hw hemit call => ?_) listeners depth event
  subst hw
  exact call_keeps w retention call

/-- A settlement whose outcome is kept is the same until it expires. -/
theorem retained_later : ∀ (steps : List (Step P)) (s : State P),
    retention.Rel s.intake (runSteps (env.wired listeners depth) steps s).intake
  | [], s => retention.refl _
  | step :: rest, s => by
    have := emit_retention env listeners depth
    have hstep : Keeps State.intake retention (step.run (env.wired listeners depth)) :=
      inferInstance
    exact retention.trans (hstep.keeps s trivial).2 (retained_later rest _)

end Later

section Atomic

/-- The receipt and the report are queued, with the next two source sequences, and the settlement is
no longer pending but recorded, with its outcome. -/
structure Accepted (env : Env P) (settlementID : String) (report : TaskReport)
    (destination : LinkNode) (s s' : State P) (outcome : AtomicTaskSettlementResult) : Prop where
  accepted : outcome.accepted = true
  queue : s'.outgoing.queue =
    s.outgoing.queue ++ [s.outgoing.heap.length, s.outgoing.heap.length + 1]
  messages : ∃ pending receipt prepared,
    s'.outgoing.heap = s.outgoing.heap ++ [receipt, prepared] ∧
      s.inbound.pendingInbound.get settlementID = some pending ∧
      receipt.message = .control (.settled .confirmed pending.operationID pending.messageID none) ∧
      receipt.identity.destination = some pending.source ∧
      receipt.identity.sourceSequence = s.outgoing.sourceSequence + 1 ∧
      prepared.message = .taskReport report ∧
      prepared.identity.destination = some destination ∧
      prepared.identity.sourceSequence = s.outgoing.sourceSequence + 2
  sequence : s'.outgoing.sourceSequence = s.outgoing.sourceSequence + 2
  pending : s'.inbound.pendingInbound = s.inbound.pendingInbound.delete settlementID
  recorded : s.lasting.inbound.settledInbound.has settlementID = false →
    ∃ settled, s'.inbound.settledInbound.get settlementID = some settled ∧
      settled.result = .confirmed ∧
      settled.expiresAt = s.clock.now + committedOperationIDRetentionMs
  outcome_kept : ∀ settled, s'.inbound.settledInbound.get settlementID = some settled →
    ∃ fingerprint, settled.atomicTask = some ⟨fingerprint, outcome⟩ ∧
      Valid env report destination fingerprint
  named : isBlank outcome.report.operationID = false

/-- While the record of a settlement has not expired, calls for it change nothing that lasts. The
same report and destination get the same outcome unless the service has stopped, and another report,
destination or operation ID is refused. -/
structure Replayed (env : Env P) (listeners : Listeners P) (depth : ℕ) (settlementID : String)
    (report : TaskReport) (destination : LinkNode) (s₁ : State P)
    (outcome : AtomicTaskSettlementResult) : Prop where
  again : ∀ steps settled operationID,
    s₁.inbound.settledInbound.get settlementID = some settled →
    (runSteps (env.wired listeners depth) steps s₁).clock.now < settled.expiresAt →
    (runSteps (env.wired listeners depth) steps s₁).stopped = false →
    operationID = none ∨ operationID = some outcome.report.operationID →
    (settleInboundWithTaskReport (env.wired listeners depth) settlementID report destination
        operationID (runSteps (env.wired listeners depth) steps s₁)).1 = outcome ∧
      (settleInboundWithTaskReport (env.wired listeners depth) settlementID report destination
        operationID (runSteps (env.wired listeners depth) steps s₁)).2.lasting =
          (runSteps (env.wired listeners depth) steps s₁).lasting
  other : ∀ steps settled report' destination' operationID,
    s₁.inbound.settledInbound.get settlementID = some settled →
    (runSteps (env.wired listeners depth) steps s₁).clock.now < settled.expiresAt →
    report' ≠ report ∨ destination' ≠ destination ∨
      (operationID ≠ none ∧ operationID ≠ some outcome.report.operationID) →
    (settleInboundWithTaskReport (env.wired listeners depth) settlementID report' destination'
        operationID (runSteps (env.wired listeners depth) steps s₁)).1.accepted = false ∧
      (settleInboundWithTaskReport (env.wired listeners depth) settlementID report' destination'
        operationID (runSteps (env.wired listeners depth) steps s₁)).2.lasting =
          (runSteps (env.wired listeners depth) steps s₁).lasting

variable {w : Wiring P} {settlementID : String} {report : TaskReport} {destination : LinkNode}
  {s s' : State P} {outcome : AtomicTaskSettlementResult}

/-- A settlement that was pending and has no record is recorded. -/
theorem recordSettledInbound_new {pending : PendingInbound} (result : SettlementOutcome)
    (hpending : s.inbound.pendingInbound.get settlementID = some pending)
    (hnew : s.inbound.settledInbound.has settlementID = false) :
    (s.recordSettledInbound settlementID result).inbound.settledInbound.get settlementID =
      some ⟨result, s.clock.now + committedOperationIDRetentionMs, none⟩ := by
  have hhas : s.inbound.pendingInbound.has settlementID = true :=
    OrderedMap.has_eq_true_iff.2 ⟨pending, hpending⟩
  unfold State.recordSettledInbound
  simp only [hnew, hhas, Bool.false_eq_true, Bool.not_true, Bool.false_and, if_false]
  exact OrderedMap.get_set_self

theorem Accepts.accepts (h : Accepts w settlementID report destination s.lasting s' outcome) :
    Accepted w.toEnv settlementID report destination s s' outcome := by
  obtain ⟨fingerprint, pending, receiptOperationID, reportOperationID, receipt, prepared, s₀, hvalid,
    hpending, hblank, hs₀, hreceipt, hprepared, hsettled⟩ := h.accepted
  have hqueue : s₀.outgoing.queue = s.outgoing.queue := congrArg (fun v => v.outgoing.queue) hs₀
  have hheap : s₀.outgoing.heap = s.outgoing.heap := congrArg (fun v => v.outgoing.heap) hs₀
  have hsequence : s₀.outgoing.sourceSequence = s.outgoing.sourceSequence :=
    congrArg (fun v => v.outgoing.sourceSequence) hs₀
  have hnow : s₀.clock.now = s.clock.now := congrArg (fun v => v.clock.now) hs₀
  have hpending₀ : s₀.inbound.pendingInbound = s.inbound.pendingInbound :=
    congrArg (fun v => v.inbound.pendingInbound) hs₀
  have hhistory : s₀.pruneSettledInbound.inbound.settledInbound =
      s.lasting.inbound.settledInbound := congrArg (fun v => v.inbound.settledInbound) hs₀
  obtain ⟨receiptTimer, reportTimer, hmessages⟩ := hsettled.heap
  refine ⟨by rw [hsettled.outcome_eq], ?_, ?_, ?_, ?_, ?_, ?_, ?_⟩
  · rw [hsettled.queue, hqueue, hheap]
  · rw [hheap] at hmessages
    exact ⟨pending, { receipt with deadlineTimer := receiptTimer },
      { prepared with deadlineTimer := reportTimer }, hmessages, hpending, hreceipt.message,
      hreceipt.destination, hreceipt.sequence, hprepared.message, hprepared.destination,
      hprepared.sequence⟩
  · have h₁ : receipt.identity.sourceSequence = s.outgoing.sourceSequence + 1 := hreceipt.sequence
    have h₂ : prepared.identity.sourceSequence = s.outgoing.sourceSequence + 2 :=
      hprepared.sequence
    rw [hsettled.sequence, hsequence, h₁, h₂]
    omega
  · rw [hsettled.pending, hpending₀]
  · intro hnew
    rw [← hhistory] at hnew
    have hrecord := recordSettledInbound_new (s := s₀.pruneSettledInbound) .confirmed
      (show s₀.inbound.pendingInbound.get settlementID = some pending by rw [hpending₀]; exact hpending)
      hnew
    rw [hsettled.settled, OrderedMap.get_modify, if_pos rfl, hrecord]
    exact ⟨_, rfl, rfl, congrArg (· + committedOperationIDRetentionMs) hnow⟩
  · intro settled hget
    rw [hsettled.settled, OrderedMap.get_modify, if_pos rfl, Option.map_eq_some_iff] at hget
    obtain ⟨record, -, rfl⟩ := hget
    exact ⟨fingerprint, rfl, hvalid⟩
  · rw [hsettled.outcome_eq]
    show isBlank prepared.operationID = false
    rw [hprepared.operationID]
    exact hblank

variable {env : Env P} {listeners : Listeners P} {depth : ℕ}

/-- What an unexpired record keeps is still retained later. -/
theorem retained_of_record {s₁ : State P} {settled : SettledInbound} {prior : AtomicTask}
    (hget : s₁.inbound.settledInbound.get settlementID = some settled)
    (hprior : settled.atomicTask = some prior) (steps : List (Step P))
    (hnow : (runSteps (env.wired listeners depth) steps s₁).clock.now < settled.expiresAt) :
    (runSteps (env.wired listeners depth) steps s₁).lasting.retained settlementID = some prior := by
  have hlater := (retained_later env listeners depth steps s₁).2 settlementID settled hget
    (by rw [hprior]; rfl) hnow
  have hkept := pruneSettledInbound_get hlater hnow
  unfold State.retained
  have hget' : (runSteps (env.wired listeners depth) steps s₁).lasting.inbound.settledInbound.get
      settlementID = some settled := hkept
  rw [hget', Option.bind_some, hprior]

theorem Accepted.replayed {s₁ : State P}
    (h : Accepted env settlementID report destination s s₁ outcome)
    (hcreate : ∀ n, isBlank (env.createID n) = false)
    (hdigest : ∀ report' destination', env.taskReportFingerprint report' destination' =
      env.taskReportFingerprint report destination → report' = report ∧ destination' = destination) :
    Replayed env listeners depth settlementID report destination s₁ outcome := by
  have hw : (env.wired listeners depth).toEnv = env := by cases depth <;> rfl
  constructor
  · intro steps settled operationID hget hnow hstopped hoperation
    obtain ⟨fingerprint, hkept, hvalid⟩ := h.outcome_kept settled hget
    have hretained := retained_of_record hget hkept steps hnow
    refine @settle_replays P (env.wired listeners depth)
      (runSteps (env.wired listeners depth) steps s₁).lasting settlementID report destination
      operationID ⟨fingerprint, outcome⟩ hstopped ?_ ?_ hretained h.named hoperation _ rfl
    · rw [hw]
      exact hvalid
    · rw [hw]
      exact hcreate
  · intro steps settled report' destination' operationID hget hnow hother
    obtain ⟨fingerprint, hkept, hvalid⟩ := h.outcome_kept settled hget
    have hretained := retained_of_record hget hkept steps hnow
    rcases @settle_ends P (env.wired listeners depth) _ settlementID report' destination'
      operationID _ rfl with hrefused | hreplays | haccepts
    · exact hrefused
    · obtain ⟨prior, hprior, -, hencoded, hoperation⟩ := hreplays.same
      obtain rfl := Option.some.inj (hretained.symm.trans hprior)
      rw [hw] at hencoded
      obtain ⟨hreport, hdestination⟩ := hdigest report' destination' (hencoded.trans hvalid.encoded.symm)
      rcases hother with hother | hother | ⟨hother, hother'⟩
      · exact absurd hreport hother
      · exact absurd hdestination hother
      · rcases hoperation with hoperation | hoperation
        · exact absurd hoperation hother
        · exact absurd hoperation hother'
    · rw [haccepts.fresh] at hretained
      cases hretained

/-- A settlement with a report is accepted as a whole or changes nothing that lasts, and what was
accepted is answered the same way while it is retained. -/
theorem atomic_settlement (s : State P) (settlementID : String) (report : TaskReport)
    (destination : LinkNode) (operationID : Option String)
    (hcreate : ∀ n, isBlank (env.createID n) = false)
    (hdigest : ∀ report' destination', env.taskReportFingerprint report' destination' =
      env.taskReportFingerprint report destination → report' = report ∧ destination' = destination) :
    let w := env.wired listeners depth
    let r := settleInboundWithTaskReport w settlementID report destination operationID s
    (r.1.accepted = false ∧ r.2.lasting = s.lasting) ∨
      (∃ prior, s.lasting.retained settlementID = some prior ∧ r.1 = prior.outcome ∧
        r.2.lasting = s.lasting) ∨
      s.lasting.retained settlementID = none ∧
        Accepted env settlementID report destination s r.2 r.1 ∧
        Replayed env listeners depth settlementID report destination r.2 r.1 := by
  have hw : (env.wired listeners depth).toEnv = env := by cases depth <;> rfl
  rcases @settle_ends P (env.wired listeners depth) _ settlementID report destination operationID s
    rfl with hrefused | hreplays | haccepts
  · exact .inl hrefused
  · obtain ⟨prior, hprior, houtcome, -, -⟩ := hreplays.same
    exact .inr (.inl ⟨prior, hprior, houtcome, hreplays.lasting⟩)
  · have haccepted := haccepts.accepts
    rw [hw] at haccepted
    exact .inr (.inr ⟨haccepts.fresh, haccepted, haccepted.replayed hcreate hdigest⟩)

end Atomic

section Stopped

def taskIdentity : FrameIdentity where
  messageType := .taskDelivery
  source := ⟨.gateway, "gw"⟩
  destination := some ⟨.asset, "uav-1"⟩
  sourceGeneration := 1
  serviceSession := "boot-1"
  sourceSequence := 4
  operationID := "op-4"
  messageID := "m-4"
  receipt := none
  priority := .task

/-- A Task that the Gateway delivers, as it is sent. -/
def taskText : String :=
  "\x7b\"delivery\":\"assignment\",\"task\":\x7b\"asset_id\":\"uav-1\",\"command\":\"atlas.survey\",\"created_at\":\"2026-09-02T12:00:00Z\",\"input\":\x7b\x7d,\"status\":\"pending\",\"task_id\":\"task-1\",\"updated_at\":\"2026-09-02T12:00:00Z\"\x7d,\"type\":\"task_delivery\"\x7d"

def taskMessage : LinkMessage :=
  .taskDelivery false ⟨"task-1", "uav-1",
    "\x7b\"command\":\"atlas.survey\",\"created_at\":\"2026-09-02T12:00:00Z\",\"input\":\x7b\x7d,\"status\":\"pending\",\"updated_at\":\"2026-09-02T12:00:00Z\"\x7d"⟩

def taskChunk (index : ℕ) : Bytes := (taskText.toUTF8.toList.drop (index * 84)).take 84

def taskFrames : List (String × LinkFrame) :=
  [("\x7b\"d\":\"a:uav-1\",\"g\":1,\"i\":0,\"k\":\"t\",\"m\":\"m-4\",\"n\":3,\"o\":\"op-4\",\"p\":\"eyJkZWxpdmVyeSI6ImFzc2lnbm1lbnQiLCJ0YXNrIjp7ImFzc2V0X2lkIjoidWF2LTEiLCJjb21tYW5kIjoiYXRsYXMuc3VydmV5IiwiY3JlYXRl\",\"q\":4,\"s\":\"g:gw\",\"v\":1,\"x\":\"boot-1\",\"y\":\"t\"\x7d",
    ⟨taskIdentity, 0, 3, taskChunk 0, by decide, by decide⟩),
   ("\x7b\"d\":\"a:uav-1\",\"g\":1,\"i\":1,\"k\":\"t\",\"m\":\"m-4\",\"n\":3,\"o\":\"op-4\",\"p\":\"ZF9hdCI6IjIwMjYtMDktMDJUMTI6MDA6MDBaIiwiaW5wdXQiOnt9LCJzdGF0dXMiOiJwZW5kaW5nIiwidGFza19pZCI6InRhc2stMSIsInVwZGF0\",\"q\":4,\"s\":\"g:gw\",\"v\":1,\"x\":\"boot-1\",\"y\":\"t\"\x7d",
    ⟨taskIdentity, 1, 3, taskChunk 1, by decide, by decide⟩),
   ("\x7b\"d\":\"a:uav-1\",\"g\":1,\"i\":2,\"k\":\"t\",\"m\":\"m-4\",\"n\":3,\"o\":\"op-4\",\"p\":\"ZWRfYXQiOiIyMDI2LTA5LTAyVDEyOjAwOjAwWiJ9LCJ0eXBlIjoidGFza19kZWxpdmVyeSJ9\",\"q\":4,\"s\":\"g:gw\",\"v\":1,\"x\":\"boot-1\",\"y\":\"t\"\x7d",
    ⟨taskIdentity, 2, 3, taskChunk 2, by decide, by decide⟩)]

def taskReport : TaskReport :=
  ⟨"task-1", false,
    "\x7b\"action\":\"complete\",\"body\":\x7b\"output\":\x7b\"complete\":true\x7d\x7d,\"observation_time\":\"2026-09-02T12:00:00Z\",\"runtime_id\":\"runtime-1\"\x7d"⟩

def taskGateway : LinkNode := ⟨.gateway, "gw"⟩

/-- An Asset that is sent this Task; of digests it only matters that this report's is its own. -/
def taskEnv : Env plainParts :=
  { plainEnv ⟨.asset, "uav-1"⟩ taskFrames [(taskText, taskMessage)] [] with
    taskReportFingerprint := fun report destination =>
      some (if report = taskReport ∧ destination = taskGateway then "own" else "other") }

def taskWiring : Wiring plainParts := taskEnv.wired (fun _ _ _ => []) 0

/-- The Asset once it has the Task. -/
def taskPending : State plainParts :=
  runSteps taskWiring
    (taskFrames.map fun f => .packet ⟨f.1.toUTF8.toList, 0, none, 1⟩) plainBeginning.state

def taskSettled : AtomicTaskSettlementResult × State plainParts :=
  settleInboundWithTaskReport taskWiring "" taskReport taskGateway none taskPending

/-- The same call once the service has stopped. -/
def taskSettledStopped : AtomicTaskSettlementResult × State plainParts :=
  settleInboundWithTaskReport taskWiring "" taskReport taskGateway none
    (stop taskWiring "shutdown" taskSettled.2).2

theorem taskSettled_eq :
    (taskPending.lasting.retained "").isNone = true ∧ taskSettled.1.accepted = true ∧
      ((stop taskWiring "shutdown" taskSettled.2).2.lasting.retained "").map (·.outcome) =
        some taskSettled.1 ∧
      taskSettledStopped.1.accepted = false := by
  rw [taskSettledStopped, taskSettled, taskPending, taskWiring, taskEnv, plainEnv_byBytes, taskFrames]
  simp only [byBytes, List.map_cons, List.map_nil, taskChunk, taskText]
  rw [toUTF8_ofList, toUTF8_ofList, toUTF8_ofList, toUTF8_ofList]
  decide +kernel

/-- A service that has stopped refuses what it accepted, though the settlement is retained. -/
theorem atomic_settlement_stopped :
    Run taskWiring (fun _ _ => True) taskPending ∧ taskSettled.1.accepted = true ∧
      ((stop taskWiring "shutdown" taskSettled.2).2.lasting.retained "").map (·.outcome) =
        some taskSettled.1 ∧
      taskSettledStopped.1.accepted = false :=
  ⟨Run.steps _ (.begin plainBeginning) fun _ _ _ _ => trivial, taskSettled_eq.2⟩

theorem atomic_settlement_accepted :
    Accepted taskEnv "" taskReport taskGateway taskPending taskSettled.2 taskSettled.1 ∧
      Replayed taskEnv (fun _ _ _ => []) 0 "" taskReport taskGateway taskSettled.2
        taskSettled.1 := by
  have hcreate : ∀ n, isBlank (taskEnv.createID n) = false := by
    intro n
    show isBlank ("id-" ++ toString n) = false
    unfold isBlank
    rw [String.toList_append, List.all_append]
    rfl
  have hdigest : ∀ report destination, taskEnv.taskReportFingerprint report destination =
      taskEnv.taskReportFingerprint taskReport taskGateway →
        report = taskReport ∧ destination = taskGateway := by
    intro report destination h
    by_contra hne
    simp [taskEnv, hne] at h
  obtain ⟨hfresh, haccepted, -⟩ := taskSettled_eq
  rcases @atomic_settlement plainParts taskEnv (fun _ _ _ => []) 0 taskPending "" taskReport
    taskGateway none hcreate hdigest with ⟨hrefused, -⟩ | ⟨prior, hprior, -⟩ | ⟨-, h⟩
  · exact absurd (haccepted.symm.trans hrefused) (by decide)
  · rw [hprior] at hfresh
    cases hfresh
  · exact h

end Stopped

end Atlas.Link
