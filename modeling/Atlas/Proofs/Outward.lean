import Atlas.Lib.Handlers
import Atlas.Link.System

/-!
# The outbound half and the inbound view

The outbound half of a transport touches what it received only through the listeners it calls.
So a handler of that half that emits nothing leaves the inbound view as it is, and one that emits
keeps every contract that the listeners keep.
-/

namespace Atlas.Link

open Handlers

variable {P : Parts}

/-- The inbound side of a state: what the transport keeps of what it received, what was noted of
it, and what decides whether it goes on. -/
structure View (P : Parts) where
  inbound : Inbound P
  notes : List Note
  fenceNotes : List FenceNote
  stopped : Bool
  now : ℕ

def State.view (s : State P) : View P :=
  ⟨s.inbound, s.notes, s.fenceNotes, s.stopped, s.clock.now⟩

/-- A view that shows no more than the inbound side. -/
class OfView {ν : Type} (view : State P → ν) : Prop where
  ofView : ∃ g : View P → ν, ∀ s, view s = g s.view

instance (priority := low) silent_ofView {ν α : Type} {view : State P → ν} {m : Handler P α}
    [h : OfView view] [hm : Silent State.view m] : Silent view m where
  silent s := by
    obtain ⟨g, hg⟩ := h.ofView
    rw [hg, hg, hm.silent]

section Silent

instance (f : Outgoing P → Outgoing P) : Silent State.view (modifyOutgoing f) := ⟨fun _ => rfl⟩

instance : Silent State.view (getOutgoing : Handler P (Outgoing P)) := ⟨fun _ => rfl⟩

instance : Silent State.view (getInbound : Handler P (Inbound P)) := ⟨fun _ => rfl⟩

instance : Silent State.view (clockNow : Handler P ℕ) := ⟨fun _ => rfl⟩

instance : Silent State.view (isStopped : Handler P Bool) := ⟨fun _ => rfl⟩

instance (delayMs : ℕ) (task : TimerTask) :
    Silent State.view (schedule delayMs task : Handler P ℕ) := ⟨fun _ => rfl⟩

instance (handle : ℕ) : Silent State.view (cancelTimer handle : Handler P Unit) := ⟨fun _ => rfl⟩

instance (handle : Option ℕ) : Silent State.view (cancelTimer? handle : Handler P Unit) := by
  unfold cancelTimer?
  split <;> infer_instance

instance (w : Wiring P) : Silent State.view (createID w) := by
  unfold createID
  infer_instance

instance withOutbound_silent {α : Type} (r : ℕ) (a : α) (f : Outbound P → Handler P α)
    [h : ∀ outbound, Silent State.view (f outbound)] : Silent State.view (withOutbound r a f) := by
  unfold withOutbound
  refine .past fun o => ?_
  split
  · infer_instance
  · exact h _

instance (r : ℕ) (f : Outbound P → Outbound P) : Silent State.view (modifyOutbound r f) := by
  unfold modifyOutbound
  infer_instance

instance (r : ℕ) : Silent State.view (removeAll r : Handler P Unit) := by
  unfold removeAll
  infer_instance

instance (result : LinkOperationResult) (key : String) :
    Silent State.view (recordOperation result key : Handler P Unit) := by
  unfold recordOperation
  infer_instance

instance : Silent State.view (pruneCommittedOperationIDs : Handler P Unit) := by
  unfold pruneCommittedOperationIDs
  infer_instance

instance : Silent State.view (scheduleCommittedOperationExpiryWakeup : Handler P Unit) := by
  unfold scheduleCommittedOperationExpiryWakeup
  refine .past fun o => .past fun stopped => ?_
  split
  · infer_instance
  · split <;> infer_instance

instance (operationID : String) :
    Silent State.view (retainCompletedOperation operationID : Handler P Unit) := by
  unfold retainCompletedOperation
  infer_instance

instance (delayMs : ℕ) : Silent State.view (requestPump delayMs : Handler P Unit) := by
  unfold requestPump
  infer_instance

instance (outbound : Outbound P) : Silent State.view (releaseObject outbound) := by
  unfold releaseObject
  infer_instance

variable (w : Wiring P)

instance (message : LinkMessage) (destination : Option LinkNode) :
    Silent State.view (operationIDFor w message destination) := by
  unfold operationIDFor
  split <;> first | infer_instance | (split <;> infer_instance)

instance (operationID : Option String) (message : LinkMessage) (destination : Option LinkNode) :
    Silent State.view (operationIDOr w operationID message destination) := by
  unfold operationIDOr
  split <;> infer_instance

instance (message : LinkMessage) (destination : Option LinkNode) (operationID : String)
    (sequence : ℕ) :
    Silent State.view (outboundIdentity w message destination operationID sequence) := by
  unfold outboundIdentity
  infer_instance

instance (message : LinkMessage) (payload : Bytes) (identity : FrameIdentity)
    (sendOptions : RadioSendOptions) :
    Silent State.view (frameMessage w message payload identity sendOptions) := by
  unfold frameMessage
  dsimp only
  split
  · infer_instance
  · refine .past fun o => ?_
    split
    · refine .past fun now => .past fun _ => ?_
      split <;> infer_instance
    · infer_instance

/-- The admission is silent for a view that shows neither what is pruned nor what is put off. -/
theorem admitOutbound_silent {ν : Type} {view : State P → ν}
    [Silent view (isStopped : Handler P Bool)]
    [Silent view (pruneCommittedOperationIDs : Handler P Unit)]
    [Silent view (getOutgoing : Handler P (Outgoing P))]
    [Silent view (modifyOutgoing fun o : Outgoing P =>
      { o with committedOperationCapacityBlocked := true })]
    [Silent view (scheduleCommittedOperationExpiryWakeup : Handler P Unit)] (q : OutboundRequest) :
    Silent view (admitOutbound w q) := by
  unfold admitOutbound
  refine .past fun stopped => ?_
  refine .choose (.pure _) (.choose (.pure _) (.choose (.pure _) ?_))
  refine .choose (.pure _) (.choose (.pure _) ?_)
  refine .past fun _ => .past fun o => ?_
  refine .choose (.pure _) ?_
  split
  · exact .pure _
  · refine .choose (.pure _) (.choose ?_ (.choose (.pure _) (.choose (.pure _) (.pure _))))
    exact .past fun _ => .past fun _ => .pure _

instance (q : OutboundRequest) : Silent State.view (admitOutbound w q) := admitOutbound_silent w q

instance (q : OutboundRequest) : Silent State.view (hasRoom w q) := by
  unfold hasRoom
  infer_instance

instance (q : OutboundRequest) : Silent State.view (identityFor w q) := by
  unfold identityFor
  split <;> infer_instance

instance (q : OutboundRequest) : Silent State.view (prepareOutbound w q) := by
  unfold prepareOutbound
  refine .past fun admitted => ?_
  split
  · infer_instance
  split
  · infer_instance
  refine .past fun identity => ?_
  dsimp only
  refine .past fun framed => ?_
  split <;> infer_instance

instance (r : ℕ) (outbound : Outbound P) : Silent State.view (trackConfirmed r outbound) := by
  unfold trackConfirmed
  infer_instance

instance (outbound : Outbound P) : Silent State.view (retryBase w outbound) := by
  unfold retryBase
  split <;> infer_instance

instance (r : ℕ) (outbound : Outbound P) : Silent State.view (retryDelay w r outbound) := by
  unfold retryDelay
  infer_instance

instance (r : ℕ) (task : TimerTask) : Silent State.view (armRetry w r task) := by
  unfold armRetry
  infer_instance

instance (r : ℕ) : Silent State.view (scheduleRetry w r) := by
  unfold scheduleRetry
  infer_instance

instance (r : ℕ) : Silent State.view (deferRadioSendRetry w r) := by
  unfold deferRadioSendRetry
  infer_instance

instance (r : ℕ) : Silent State.view (requeue r : Handler P Unit) := by
  unfold requeue
  infer_instance

instance (r : ℕ) : Silent State.view (renewOrder r : Handler P Unit) := by
  unfold renewOrder
  infer_instance

instance (r : ℕ) : Silent State.view (retryOutbound r : Handler P Unit) := by
  unfold retryOutbound
  infer_instance

instance (r : ℕ) : Silent State.view (radioSendRetry r : Handler P Unit) := by
  unfold radioSendRetry
  infer_instance

instance (outbound : Outbound P) : Silent State.view (objectEligible outbound) := by
  unfold objectEligible
  infer_instance

theorem scanQueue_silent :
    ∀ (queue : List ℕ) (index : ℕ) (best : Option (ℕ × Outbound P)),
      Silent State.view (scanQueue queue index best)
  | [], _, best => by
    unfold scanQueue
    infer_instance
  | r :: rest, index, best => by
    have ih := scanQueue_silent rest (index + 1)
    unfold scanQueue
    refine .past fun o => ?_
    split
    · exact ih best
    · infer_instance

instance : Silent State.view (takeNextOutbound : Handler P (Option ℕ)) := by
  have := fun queue index => scanQueue_silent (P := P) queue index none
  unfold takeNextOutbound
  refine .past fun o => .past fun index => ?_
  split <;> infer_instance

instance (r : ℕ) (receipt : Outbound P) : Silent State.view (compoundReceiptPair w r receipt) := by
  unfold compoundReceiptPair
  split
  · split
    · refine .past fun o => ?_
      dsimp only
      split <;> infer_instance
    · infer_instance
  · infer_instance

instance (r : ℕ) : Silent State.view (markOutboundStarted r : Handler P Unit) := by
  unfold markOutboundStarted
  infer_instance

instance (pair : CompoundReceiptPair) :
    Silent State.view (handleCompoundReceiptFailure w pair) := by
  unfold handleCompoundReceiptFailure
  infer_instance

instance (outbound : Outbound P) : Silent State.view (abandoned outbound) := by
  unfold abandoned
  infer_instance

instance (r : ℕ) (chunks : List ℕ) : Silent State.view (repairChunks w r chunks) := by
  unfold repairChunks
  infer_instance

instance (outbound : Outbound P) (source : LinkNode) :
    Silent State.view (observeRoundTrip w outbound source) := by
  unfold observeRoundTrip
  split <;> infer_instance

instance (message : LinkMessage) (destination : LinkNode) (operationID : String) :
    Silent State.view (reserveTaskDelivery w message destination operationID) := by
  unfold reserveTaskDelivery
  refine .past fun stopped => ?_
  split
  · infer_instance
  refine .past fun o => .past fun identity => ?_
  dsimp only
  split
  · infer_instance
  split <;> infer_instance

instance (n : ℕ) : Silent State.view (cancelReservation n : Handler P Unit) := by
  unfold cancelReservation
  refine .past fun o => ?_
  split <;> infer_instance

instance : Silent State.view (pause : Handler P Unit) := by
  unfold pause
  refine .past fun stopped => ?_
  split
  · infer_instance
  refine .past fun o => .past fun _ => ?_
  split <;> infer_instance

instance : Silent State.view (resume : Handler P Unit) := by
  unfold resume
  infer_instance

instance (receiptOperationID reportOperationID reason : String) :
    Silent State.view (failedAtomicTaskSettlement (P := P) receiptOperationID reportOperationID
      reason) := by
  unfold failedAtomicTaskSettlement
  infer_instance

instance (settlementID : String) (report : TaskReport) (destination : LinkNode) :
    Silent State.view (taskSettlement w settlementID report destination) := by
  unfold taskSettlement
  refine .past fun i => ?_
  split <;> infer_instance

instance (pending : PendingInbound) (report : TaskReport) (destination : LinkNode)
    (receiptOperationID reportOperationID : String) :
    Silent State.view
      (prepareAtomic w pending report destination receiptOperationID reportOperationID) := by
  unfold prepareAtomic
  refine .past fun o => .past fun receipt => ?_
  split
  · infer_instance
  · infer_instance
  · infer_instance
  · refine .past fun prepared => ?_
    split <;> infer_instance

end Silent

section Emitting

variable {ν : Type} {view : State P → ν} [OfView view] (w : Wiring P) (C : Contract ν)
  [hemit : ∀ event, Keeps view C (emit w event)]

instance withOutbound_keeps {α : Type} (r : ℕ) (a : α) (f : Outbound P → Handler P α)
    [h : ∀ outbound, Keeps view C (f outbound)] : Keeps view C (withOutbound r a f) := by
  unfold withOutbound
  refine .past fun o => ?_
  split
  · infer_instance
  · exact h _

instance : Keeps view C (emitCapacityAvailable w) := by
  unfold emitCapacityAvailable
  infer_instance

instance (operationID reason : String) :
    Keeps view C (failedResult w operationID reason) := by
  unfold failedResult
  dsimp only
  infer_instance

instance (r : ℕ) (status : LinkOperationStatus) (reason : Option String) :
    Keeps view C (completeOutbound w r status reason) := by
  unfold completeOutbound
  refine withOutbound_keeps C _ _ _ (h := fun outbound => ?_)
  refine .past fun _ => .past fun _ => .past fun _ => .past fun _ => .past fun released => ?_
  refine .past fun now => ?_
  dsimp only
  refine .past fun _ => .past fun _ => .past fun _ => .past fun o => ?_
  infer_instance

instance (r : ℕ) : Keeps view C (confirmAwaitingResponseTransport w r) := by
  unfold confirmAwaitingResponseTransport
  refine withOutbound_keeps C _ _ _ (h := fun outbound => ?_)
  refine .past fun _ => .past fun _ => .past fun _ => .past fun _ => ?_
  dsimp only
  infer_instance

instance (r : ℕ) (reason : String) : Keeps view C (failBestEffort w r reason) := by
  unfold failBestEffort
  dsimp only
  infer_instance

instance (key : String) : Keeps view C (replaceQueuedBestEffort w key) := by
  unfold replaceQueuedBestEffort
  refine .past fun o => ?_
  dsimp only
  split <;> infer_instance

instance (outbound : Outbound P) : Keeps view C (replaceOlder w outbound) := by
  unfold replaceOlder
  split <;> infer_instance

instance (prepared : PreparedOutbound P) (pump recordQueued : Bool) :
    Keeps view C (commitOutbound w prepared pump recordQueued) := by
  unfold commitOutbound
  dsimp only
  refine .past fun _ => .past fun _ => .past fun o => ?_
  infer_instance

instance (q : OutboundRequest) : Keeps view C (submitWithCapacity w q) := by
  unfold submitWithCapacity
  refine .past fun prepared => ?_
  split <;> infer_instance

instance (message : LinkMessage) (destination : Option LinkNode) (operationID : Option String) :
    Keeps view C (submit w message destination operationID) := by
  unfold submit
  infer_instance

instance (destination : LinkNode) (message : ControlMessage) (useInboundReservation : Bool)
    (radioRequestID : Option ℕ) :
    Keeps view C (sendControl w destination message useInboundReservation radioRequestID) := by
  unfold sendControl
  infer_instance

instance (r : ℕ) : Keeps view C (outboundDeadline w r) := by
  unfold outboundDeadline
  infer_instance

instance (nextDelayMs : ℕ) : Keeps view C (finishPump w nextDelayMs) := by
  unfold finishPump
  refine .past fun _ => .past fun s => ?_
  infer_instance

instance : Keeps view C (pump w) := by
  unfold pump
  refine .past fun o => ?_
  refine .past fun stopped => ?_
  split
  · infer_instance
  refine .past fun _ => .past fun next => ?_
  split
  · infer_instance
  · refine .past fun _ => withOutbound_keeps C _ _ _ (h := fun outbound => ?_)
    split
    · infer_instance
    · refine .past fun _ => ?_
      split
      · infer_instance
      · refine .past fun pair => .past fun _ => ?_
        split <;> infer_instance

instance : Keeps view C (pumpTimer w) := by
  unfold pumpTimer
  infer_instance

instance (r : ℕ) (frame : Bytes) (chunkIndex : ℕ) :
    Keeps view C (recordPhysicalSend w r frame chunkIndex) := by
  unfold recordPhysicalSend
  infer_instance

instance (r : ℕ) : Keeps view C (afterAllChunksSent w r) := by
  unfold afterAllChunksSent
  refine withOutbound_keeps C _ _ _ (h := fun outbound => .past fun now => ?_)
  refine .past fun _ => .past fun _ => ?_
  dsimp only
  infer_instance

instance (pair : CompoundReceiptPair) : Keeps view C (finishCompoundReceiptPair w pair) := by
  unfold finishCompoundReceiptPair
  infer_instance

instance (flight : InFlight) (reason : String) :
    Keeps view C (sendFailed w flight reason) := by
  unfold sendFailed
  refine withOutbound_keeps C _ _ _ (h := fun outbound => .past fun _ => ?_)
  split <;> infer_instance

instance (flight : InFlight) : Keeps view C (sendSucceeded w flight) := by
  unfold sendSucceeded
  refine withOutbound_keeps C _ _ _ (h := fun outbound => ?_)
  split
  · infer_instance
  · refine .past fun gone => ?_
    split
    · infer_instance
    · refine .past fun _ => .past fun stopped => .past fun gone => ?_
      infer_instance

instance (result : Except String Unit) : Keeps view C (resumePump w result) := by
  unfold resumePump
  refine .past fun o => ?_
  split
  · infer_instance
  refine .past fun _ => .past fun stopped => ?_
  split
  · infer_instance
  split <;> infer_instance

instance (r : ℕ) (outcome : SettlementOutcome) (reason : Option String) (source : LinkNode) :
    Keeps view C (settleOutbound w r outcome reason source) := by
  unfold settleOutbound
  refine withOutbound_keeps C _ _ _ (h := fun outbound => ?_)
  split <;> infer_instance

instance (message : LinkMessage) (identity : FrameIdentity) :
    Keeps view C (completeDataRequest w message identity) := by
  unfold completeDataRequest
  refine .past fun o => ?_
  split
  · refine .past fun _ => .past fun _ => .past fun _ => .past fun _ => .past fun now => ?_
    dsimp only
    infer_instance
  · infer_instance

instance (n : ℕ) : Keeps view C (dispatchReservation w n) := by
  unfold dispatchReservation
  refine .past fun o => ?_
  split <;> infer_instance

instance (operationID reason : String) : Keeps view C (cancel w operationID reason) := by
  unfold cancel
  refine .past fun o => ?_
  dsimp only
  split <;> infer_instance

instance (reason : String) (r : ℕ) : Keeps view C (failForStop w reason r) := by
  unfold failForStop
  infer_instance

instance : Keeps view C (committedOperationExpiry w) := by
  unfold committedOperationExpiry
  infer_instance

end Emitting

end Atlas.Link
