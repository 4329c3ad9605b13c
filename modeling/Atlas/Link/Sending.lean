import Atlas.Link.Transport

/-!
# Sending

The outbound half of a transport: how an operation is admitted, queued, sent chunk by chunk,
retried and completed.
-/

namespace Atlas.Link

variable {P : Parts} (w : Wiring P)

def priorityOrder : MessagePriority → ℕ
  | .safety => 0
  | .task => 1
  | .request => 2
  | .liveState => 3
  | .resource => 4
  | .objectContent => 5

def deadlineMs : MessagePriority → ℕ
  | .safety => 15000
  | .task => 15000
  | .request => 30000
  | .liveState => 30000
  | .resource => 30000
  | .objectContent => 5 * 60000

def retryMs : MessagePriority → ℕ
  | .safety => 5000
  | .task => 5000
  | .request => 10000
  | .liveState => 10000
  | .resource => 10000
  | .objectContent => 15000

def operationResultLimit : ℕ := 4096
def committedOperationIDLimit : ℕ := 4096
def taskReservationLimit : ℕ := 8192
def committedOperationIDRetentionMs : ℕ := 10 * 60000

/-- The characters `String.prototype.trim` removes. -/
def isSpace (c : Char) : Bool :=
  c ∈ ['\t', '\n', '\x0b', '\x0c', '\r', ' ', '\u00a0', '\u1680', '\u2028', '\u2029', '\u202f',
    '\u205f', '\u3000', '\ufeff'] || ('\u2000' ≤ c && c ≤ '\u200a')

def isBlank (text : String) : Bool := text.toList.all isSpace

section Heap

/-- Read an outbound message and go on with it. -/
def withOutbound {α : Type} (r : ℕ) (default : α) (f : Outbound P → Handler P α) :
    Handler P α := do
  match (← getOutgoing).heap[r]? with
  | none => return default
  | some outbound => f outbound

def modifyOutbound (r : ℕ) (f : Outbound P → Outbound P) : Handler P Unit :=
  modifyOutgoing fun o => { o with heap := o.heap.modify r f }

def removeAll (r : ℕ) : Handler P Unit :=
  modifyOutgoing fun o => { o with queue := o.queue.filter (· ≠ r) }

/-- The operations that await a confirmation or a response. -/
def Outgoing.confirmedCount (o : Outgoing P) : ℕ :=
  (o.outboundByOperation.values ++ o.pendingDataRequests.values ++
    o.responseOperations.values).dedup.length

def Outgoing.occupancy (o : Outgoing P) : ℕ :=
  (o.queue ++ o.outboundByOperation.values ++ o.activeOutbound.toList).dedup.length

def Outgoing.operationIsPending (o : Outgoing P) (operationID : String) : Bool :=
  o.outboundByOperation.has operationID || o.responseOperations.has operationID ||
    o.pendingDataRequests.values.any fun r =>
      (o.heap[r]?).any fun outbound => outbound.operationID = operationID

def Outgoing.isObjectContent (o : Outgoing P) (r : ℕ) : Bool :=
  (o.heap[r]?).any fun outbound => outbound.message.type = .objectContent

def Outgoing.hasEligibleOutbound (o : Outgoing P) : Bool :=
  o.queue.any fun r =>
    !o.isObjectContent r || o.activeObjectMessageID.isNone ||
      (o.heap[r]?).map (·.identity.messageID) = o.activeObjectMessageID

end Heap

section Operations

def isCountedOutcome : LinkOperationStatus → Bool
  | .queued => false
  | .sent | .confirmed | .responded | .rejected | .failed => true

/-- Forget the oldest results that nothing waits for, until the table is within its limit. -/
def Outgoing.trimResults : ℕ → Outgoing P → Outgoing P
  | 0, o => o
  | n + 1, o =>
    if o.operationResults.size ≤ operationResultLimit then o
    else
      match o.operationResults.entries.find? fun e =>
        e.2.status ≠ .queued && !o.operationIsPending e.1 with
      | none => o
      | some (operationID, _) =>
        trimResults n
          { o with
            operationResults := o.operationResults.delete operationID
            intermediateResponseConfirmations :=
              o.intermediateResponseConfirmations.filter (· ≠ operationID)
            responseOperations := o.responseOperations.delete operationID }

def Outgoing.recordOperation (result : LinkOperationResult) (trackingKey : String)
    (o : Outgoing P) : Outgoing P :=
  let previous := o.operationResults.get trackingKey
  let uncounted := previous.all fun p =>
    !isCountedOutcome p.status ||
      (p.status = .confirmed && trackingKey ∈ o.intermediateResponseConfirmations)
  let o :=
    if isCountedOutcome result.status ∧ result.status ≠ .confirmed ∧ uncounted = true then
      { o with
        intermediateResponseConfirmations :=
          o.intermediateResponseConfirmations.filter (· ≠ trackingKey) }
    else o
  let o := { o with operationResults := o.operationResults.set trackingKey result }
  o.trimResults o.operationResults.size

def recordOperation (result : LinkOperationResult) (trackingKey : String) : Handler P Unit :=
  modifyOutgoing (Outgoing.recordOperation result trackingKey)

def failedResult (operationID reason : String) : Handler P LinkOperationResult := do
  let now ← clockNow
  let result : LinkOperationResult :=
    { operationID := operationID, status := .failed, reason := some reason, completedAt := some now }
  recordOperation result operationID
  emit w (.operation result)
  return result

def Outgoing.pruneCommittedOperationIDs (now : ℕ) (o : Outgoing P) : Outgoing P :=
  let expired := o.committedOperationExpiryQueue.takeWhile (·.2 ≤ now)
  { o with
    committedOperationExpiryQueue := o.committedOperationExpiryQueue.dropWhile (·.2 ≤ now)
    committedOperationIDs :=
      expired.foldl (fun ids expiry =>
        if ids.get expiry.1 = some (some expiry.2) then ids.delete expiry.1 else ids)
        o.committedOperationIDs }

def pruneCommittedOperationIDs : Handler P Unit := do
  let now ← clockNow
  modifyOutgoing (Outgoing.pruneCommittedOperationIDs now)

def scheduleCommittedOperationExpiryWakeup : Handler P Unit := do
  let o ← getOutgoing
  if !o.committedOperationCapacityBlocked || (← isStopped) then pure ()
  else
    match o.committedOperationExpiryQueue.head? with
    | none => pure ()
    | some (_, earliestExpiry) =>
      if o.committedOperationExpiryAt.any (· ≤ earliestExpiry) then pure ()
      else
        cancelTimer? o.committedOperationExpiryTimer
        let now ← clockNow
        let timer ← schedule (earliestExpiry - now) .committedOperationExpiry
        modifyOutgoing fun o =>
          { o with
            committedOperationExpiryAt := some earliestExpiry
            committedOperationExpiryTimer := some timer }

def retainCompletedOperation (operationID : String) : Handler P Unit := do
  let now ← clockNow
  let o ← getOutgoing
  if o.committedOperationIDs.has operationID then
    let expiresAt := now + committedOperationIDRetentionMs
    modifyOutgoing fun o =>
      { o with
        committedOperationIDs := o.committedOperationIDs.set operationID (some expiresAt)
        committedOperationExpiryQueue :=
          o.committedOperationExpiryQueue ++ [(operationID, expiresAt)] }
    if o.committedOperationCapacityBlocked then scheduleCommittedOperationExpiryWakeup else pure ()
  else pure ()

def requestPump (delayMs : ℕ) : Handler P Unit := do
  let o ← getOutgoing
  if o.pumping || o.pumpRequested || (← isStopped) || o.paused then pure ()
  else
    let timer ← schedule delayMs .pump
    modifyOutgoing fun o => { o with pumpRequested := true, pumpTimer := some timer }

def dataRequestID (outbound : Outbound P) : Option String :=
  match outbound.message with
  | .dataRequest request => some request.requestID
  | _ => none

/-- Drop an object transfer's hold on the radio; whether it held it. -/
def releaseObject (outbound : Outbound P) : Handler P Bool := do
  let o ← getOutgoing
  if o.activeObjectMessageID = some outbound.identity.messageID then
    modifyOutgoing fun o => { o with activeObjectMessageID := none }
    return true
  else return false

def completeOutbound (r : ℕ) (status : LinkOperationStatus) (reason : Option String) :
    Handler P Unit :=
  withOutbound r () fun outbound => do
    cancelTimer? outbound.retryTimer
    cancelTimer? outbound.deadlineTimer
    modifyOutgoing fun o =>
      { o with
        outboundByOperation := o.outboundByOperation.delete outbound.operationID
        pendingDataRequests :=
          match dataRequestID outbound with
          | some requestID =>
            if o.pendingDataRequests.get requestID = some r then
              o.pendingDataRequests.delete requestID
            else o.pendingDataRequests
          | none => o.pendingDataRequests
        responseOperations :=
          if status ≠ .confirmed then o.responseOperations.delete outbound.operationID
          else o.responseOperations }
    removeAll r
    let releasedObject ← releaseObject outbound
    let now ← clockNow
    let result : LinkOperationResult :=
      { operationID := outbound.operationID, status := status, reason := reason,
        completedAt := some now }
    retainCompletedOperation outbound.operationID
    recordOperation result outbound.operationID
    emit w (.operation result)
    if releasedObject && (← getOutgoing).hasEligibleOutbound then requestPump 0 else pure ()

def confirmAwaitingResponseTransport (r : ℕ) : Handler P Unit :=
  withOutbound r () fun outbound => do
    cancelTimer? outbound.retryTimer
    modifyOutbound r fun outbound => { outbound with retryTimer := none }
    modifyOutgoing fun o =>
      { o with outboundByOperation := o.outboundByOperation.delete outbound.operationID }
    removeAll r
    let result : LinkOperationResult :=
      { operationID := outbound.operationID, status := .confirmed }
    modifyOutgoing fun o =>
      { o with
        intermediateResponseConfirmations :=
          o.intermediateResponseConfirmations.insert outbound.operationID }
    recordOperation result outbound.operationID
    emit w (.operation result)

def failBestEffort (r : ℕ) (reason : String) : Handler P Unit :=
  withOutbound r () fun outbound => do
    removeAll r
    let _ ← releaseObject outbound
    let now ← clockNow
    let result : LinkOperationResult :=
      { operationID := outbound.operationID, status := .failed, reason := some reason,
        completedAt := some now }
    recordOperation result outbound.operationID
    emit w (.operation result)

def Outgoing.queuedBestEffort (o : Outgoing P) (key : String) : Option ℕ :=
  o.queue.find? fun r =>
    (o.heap[r]?).any fun outbound =>
      !outbound.started && outbound.delivery = .bestEffort && outbound.coalescingKey = some key

def replaceQueuedBestEffort (key : String) : Handler P Unit := do
  match (← getOutgoing).queuedBestEffort key with
  | none => pure ()
  | some r =>
    withOutbound r () fun previous => do
      removeAll r
      let now ← clockNow
      let result : LinkOperationResult :=
        { operationID := previous.operationID, status := .failed,
          reason := some "replaced by newer unsent state", completedAt := some now }
      recordOperation result previous.operationID
      emit w (.operation result)

def emitCapacityAvailable : Handler P Unit := emit w .capacityAvailable

end Operations

section Admission

/-- A response is tracked by the node it goes to and the request it answers. -/
def responseOperationID (destination : Option LinkNode) (requestID : String) : String :=
  match destination with
  | none => requestID
  | some node => node.role.text ++ ":" ++ node.id ++ ":" ++ requestID

def operationIDFor (message : LinkMessage) (destination : Option LinkNode) : Handler P String :=
  match message with
  | .dataResponse response => pure (responseOperationID destination response.requestID)
  | .objectContent content => pure (responseOperationID destination content.requestID)
  | .dataRequest request => pure request.requestID
  | .control control => pure control.operationID
  | .state publication =>
    match publication.operationID with
    | some operationID => if operationID = "" then createID w else pure operationID
    | none => createID w
  | _ => createID w

def wireOperationIDFor (message : LinkMessage) (operationID : String) : String :=
  match message with
  | .dataResponse response => response.requestID
  | .objectContent content => content.requestID
  | _ => operationID

def outboundIdentity (message : LinkMessage) (destination : Option LinkNode)
    (operationID : String) (sourceSequence : ℕ) : Handler P FrameIdentity := do
  let messageID ← createID w
  return {
    messageType := message.type
    source := w.node
    destination := destination
    sourceGeneration := w.sourceGeneration
    serviceSession := w.serviceSession
    sourceSequence := sourceSequence
    operationID := wireOperationIDFor message operationID
    messageID := messageID
    receipt := none
    priority := messagePriority message }

structure CapacityReservation where
  additionalOutbound : ℕ
  releasedInbound : ℕ
  additionalConfirmed : ℕ

def CapacityReservation.default (message : LinkMessage) : CapacityReservation where
  additionalOutbound := 1
  releasedInbound := 0
  additionalConfirmed := if deliveryClass message = .confirmed then 1 else 0

structure OutboundRequest where
  message : LinkMessage
  destination : Option LinkNode
  operationID : String
  useInboundReservation : Bool
  radioRequestID : Option ℕ
  capacity : CapacityReservation
  sourceSequence : ℕ
  /-- The reservation this request redeems, with its identity. -/
  reservation : Option (ℕ × FrameIdentity)

structure PreparedOutbound (P : Parts) where
  outbound : Outbound P
  replacesFailedResult : Bool

inductive OutboundPreparation (P : Parts)
  | ready (prepared : PreparedOutbound P)
  | existing (result : LinkOperationResult)
  | failed (reason : String)
  /-- The operation ID is blank: the source throws. -/
  | invalid

/-- Ordinary frames keep the smaller header of the second version. -/
def plainEncoding : FrameEncoding :=
  if w.frameEncoding = .deflateV3 then .deflateV2 else w.frameEncoding

def totalLength (frames : List Bytes) : ℕ := (frames.map List.length).sum

/-- The frames of a message, those of a state delta where they are fewer bytes; with the baseline
that a complete send of full state commits. -/
def frameMessage (message : LinkMessage) (payload : Bytes) (identity : FrameIdentity)
    (sendOptions : RadioSendOptions) :
    Handler P (Except String (List Bytes × Option P.Baseline)) := do
  let limit := w.maxPayloadBytes sendOptions
  match w.fragmentPayload payload identity limit (plainEncoding w) with
  | .error reason => return .error reason
  | .ok frames =>
    match message, (← getOutgoing).stateEncoder with
    | .state publication, some encoder =>
      let now ← clockNow
      let (encoder, delta, baseline) := w.prepareState encoder publication identity now
      modifyOutgoing fun o => { o with stateEncoder := some encoder }
      match delta.map fun delta => w.fragmentPayload delta identity limit (plainEncoding w) with
      | some (.ok deltaFrames) =>
        if deltaFrames.length ≤ frames.length ∧ totalLength deltaFrames < totalLength frames then
          return .ok (deltaFrames, none)
        else return .ok (frames, some baseline)
      | _ => return .ok (frames, some baseline)
    | _, _ => return .ok (frames, none)

/-- A Data request under another operation ID than its request ID. -/
def OutboundRequest.mismatchesRequest (q : OutboundRequest) : Bool :=
  match q.message with
  | .dataRequest request => q.operationID ≠ request.requestID
  | _ => false

def Outgoing.requestIsPending (o : Outgoing P) (message : LinkMessage) : Bool :=
  match message with
  | .dataRequest request => o.pendingDataRequests.has request.requestID
  | _ => false

def invalidStateReason (message : LinkMessage) : String :=
  match message with
  | .state publication =>
    if publication.resourceType = .task then
      "Assets must publish Task lifecycle reports instead of Task state"
    else "Asset state must use the field path without claiming Core authority"
  | _ => "Asset state must use the field path without claiming Core authority"

/-- The checks of `prepareOutbound` that need no framing: a result at once, or what an earlier
failed result under the same operation ID leaves to be replaced. -/
def admitOutbound (q : OutboundRequest) : Handler P (Except (OutboundPreparation P) Bool) := do
  if ← isStopped then return .error (.failed "link service is stopped")
  else if !validStateSource q.message w.node then
    return .error (.failed (invalidStateReason q.message))
  else if deliveryClass q.message = .confirmed ∧ q.destination = none then
    return .error (.failed "confirmed operations require a destination")
  else if isBlank q.operationID then return .error .invalid
  else if q.mismatchesRequest then
    return .error (.failed "Data request operation ID must match its request ID")
  else
    pruneCommittedOperationIDs
    let o ← getOutgoing
    let existing := o.operationResults.get q.operationID
    if (o.reservedTaskIDs.get q.operationID).any (some · ≠ q.reservation.map Prod.fst) then
      return .error (.failed "operation ID is reserved for queued Task delivery")
    else
      match existing.filter fun e =>
        e.status ≠ .failed || o.committedOperationIDs.has q.operationID with
      | some result => return .error (.existing result)
      | none =>
        if o.committedOperationIDs.has q.operationID then
          return .error (.failed "operation ID was already committed in this Link service session")
        else if deliveryClass q.message = .confirmed ∧
            committedOperationIDLimit < o.committedOperationIDs.size + q.capacity.additionalConfirmed
        then
          modifyOutgoing fun o => { o with committedOperationCapacityBlocked := true }
          scheduleCommittedOperationExpiryWakeup
          return .error (.failed "confirmed operation identity capacity is exhausted")
        else if o.requestIsPending q.message then
          return .error (.failed "data request ID is already pending")
        else if deliveryClass q.message = .confirmed ∧
            w.confirmedLimit < o.confirmedCount + q.capacity.additionalConfirmed then
          return .error (.failed "confirmed operation capacity is exhausted")
        else return .ok (existing.any (·.status = .failed))

/-- Whether the queue has room for the message, counting what is pending inbound. -/
def hasRoom (q : OutboundRequest) : Handler P Bool := do
  let s ← get
  let o := s.outgoing
  let replaces :=
    deliveryClass q.message = .bestEffort &&
      (coalescingKey q.message).any fun key => (o.queuedBestEffort key).isSome
  if q.useInboundReservation then return o.occupancy < w.queueLimit + w.confirmedLimit
  else
    let finalOccupancy := o.occupancy + q.capacity.additionalOutbound - (if replaces then 1 else 0)
    let finalPendingInbound := s.inbound.pendingInbound.size - q.capacity.releasedInbound
    return finalOccupancy + finalPendingInbound ≤ w.queueLimit

/-- The reserved identity, or a new one. -/
def identityFor (q : OutboundRequest) : Handler P FrameIdentity :=
  match q.reservation with
  | some (_, identity) => pure identity
  | none => outboundIdentity w q.message q.destination q.operationID q.sourceSequence

def prepareOutbound (q : OutboundRequest) : Handler P (OutboundPreparation P) := do
  match ← admitOutbound w q with
  | .error preparation => return preparation
  | .ok replacesFailedResult =>
    match w.serializeLinkMessage q.message with
    | .error reason => return .failed ("Radio contract encoding failed: " ++ reason)
    | .ok payload =>
      let identity ← identityFor w q
      let sendOptions : RadioSendOptions := ⟨w.privateChannel, identity.priority, q.radioRequestID⟩
      match ← frameMessage w q.message payload identity sendOptions with
      | .error reason => return .failed ("Link framing failed: " ++ reason)
      | .ok (frames, baseline) =>
        if ← hasRoom w q then
          let now ← clockNow
          let o ← getOutgoing
          modifyOutgoing fun o => { o with nextOrder := o.nextOrder + 1 }
          return .ready
            { outbound :=
                { message := q.message
                  operationID := q.operationID
                  identity := identity
                  frames := frames
                  pendingChunks := List.range frames.length
                  delivery := deliveryClass q.message
                  coalescingKey := coalescingKey q.message
                  order := o.nextOrder
                  queuedAt := now
                  chunkSendCounts := frames.map fun _ => 0
                  sendOptions := sendOptions
                  commitStateBaseline := baseline }
              replacesFailedResult := replacesFailedResult }
        else return .failed "outbound queue capacity is exhausted"

def outboundDeadlineMs (message : LinkMessage) (priority : MessagePriority) : ℕ :=
  match message with
  | .dataRequest request =>
    if request.operation = "object.content" then deadlineMs .objectContent else deadlineMs priority
  | _ => deadlineMs priority

/-- Enter a confirmed operation into the tables of pending ones. -/
def trackConfirmed (r : ℕ) (outbound : Outbound P) : Handler P Unit := do
  modifyOutgoing fun o =>
    { o with
      committedOperationIDs := o.committedOperationIDs.set outbound.operationID none
      outboundByOperation := o.outboundByOperation.set outbound.operationID r
      pendingDataRequests :=
        match outbound.message with
        | .dataRequest request => o.pendingDataRequests.set request.requestID r
        | _ => o.pendingDataRequests
      responseOperations :=
        match outbound.message with
        | .resourceOperation _ => o.responseOperations.set outbound.operationID r
        | _ => o.responseOperations }
  let timer ← schedule (outboundDeadlineMs outbound.message outbound.identity.priority)
    (.outboundDeadline r)
  modifyOutbound r fun outbound => { outbound with deadlineTimer := some timer }

/-- State that was not sent yet gives way to newer state of the same resource. -/
def replaceOlder (outbound : Outbound P) : Handler P Unit :=
  match outbound.delivery, outbound.coalescingKey with
  | .bestEffort, some key => replaceQueuedBestEffort w key
  | _, _ => pure ()

def commitOutbound (prepared : PreparedOutbound P) (pump recordQueued : Bool) :
    Handler P LinkOperationResult := do
  let outbound := prepared.outbound
  modifyOutgoing fun o =>
    { o with
      operationResults :=
        if prepared.replacesFailedResult then o.operationResults.delete outbound.operationID
        else o.operationResults
      sourceSequence := max o.sourceSequence outbound.identity.sourceSequence }
  replaceOlder w outbound
  let r := (← getOutgoing).heap.length
  modifyOutgoing fun o =>
    { o with
      reservedTaskIDs := o.reservedTaskIDs.delete outbound.operationID
      heap := o.heap ++ [outbound]
      queue := o.queue ++ [r] }
  if outbound.delivery = .confirmed then trackConfirmed r outbound else pure ()
  let result : LinkOperationResult := { operationID := outbound.operationID, status := .queued }
  if recordQueued then recordOperation result outbound.operationID else pure ()
  if pump then requestPump 0 else pure ()
  return result

/-- The result of a submission, and whether it queued a message; `none` where the source throws. -/
def submitWithCapacity (q : OutboundRequest) : Handler P (Option (LinkOperationResult × Bool)) := do
  match ← prepareOutbound w q with
  | .existing result => return some (result, false)
  | .failed reason => return some (← failedResult w q.operationID reason, false)
  | .invalid => return none
  | .ready prepared => return some (← commitOutbound w prepared true true, true)

/-- The operation ID a caller gives, or one made for the message. -/
def operationIDOr (operationID : Option String) (message : LinkMessage)
    (destination : Option LinkNode) : Handler P String :=
  match operationID with
  | some operationID => pure operationID
  | none => operationIDFor w message destination

def submit (message : LinkMessage) (destination : Option LinkNode) (operationID : Option String) :
    Handler P (Option LinkOperationResult) := do
  let operationID ← operationIDOr w operationID message destination
  let sourceSequence := (← getOutgoing).sourceSequence + 1
  let submitted ← submitWithCapacity w
    { message := message, destination := destination, operationID := operationID,
      useInboundReservation := false, radioRequestID := none,
      capacity := .default message, sourceSequence := sourceSequence, reservation := none }
  return submitted.map Prod.fst

def sendControl (destination : LinkNode) (message : ControlMessage) (useInboundReservation : Bool)
    (radioRequestID : Option ℕ) : Handler P (LinkOperationResult × Bool) := do
  let operationID := "control_" ++ (← createID w)
  let sourceSequence := (← getOutgoing).sourceSequence + 1
  let submitted ← submitWithCapacity w
    { message := .control message, destination := some destination, operationID := operationID,
      useInboundReservation := useInboundReservation, radioRequestID := radioRequestID,
      capacity := .default (.control message), sourceSequence := sourceSequence,
      reservation := none }
  return submitted.getD ({ operationID := operationID, status := .failed }, false)

end Admission

end Atlas.Link
