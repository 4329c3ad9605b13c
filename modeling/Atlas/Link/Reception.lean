import Atlas.Link.Pump

/-!
# Receiving

The inbound half of a transport: frames are reassembled into messages, and a confirmed message
addressed to this node is handed to the application once and answered once it is settled. A
settlement is remembered for ten minutes, so that a message sent again is answered again and not
handed over again.
-/

namespace Atlas.Link

variable {P : Parts} (w : Wiring P)

def settledInboundLimit : ℕ := 4096
def taskDeliveryFenceLimit : ℕ := 4096
def linkSourceIdentityLimit : ℕ := 4096

section Settlements

def inboundSettlementID (identity : FrameIdentity) : String :=
  w.sha256 (identity.source.role.text ++ "\x00" ++ identity.source.id ++ "\x00" ++
    toString identity.sourceGeneration ++ "\x00" ++ identity.serviceSession ++ "\x00" ++
    identity.operationID)

/-- A settlement whose retention time has passed. -/
def SettledInbound.expired (now : ℕ) (settled : SettledInbound) : Bool := settled.expiresAt ≤ now

/-- Forget the oldest settlements, up to the first that is still retained. -/
def State.pruneSettledInbound (s : State P) : State P :=
  let expired := s.inbound.settledInbound.entries.takeWhile (·.2.expired s.clock.now)
  { s with
    inbound :=
      { s.inbound with
        settledInbound := s.inbound.settledInbound.dropWhile (·.2.expired s.clock.now) }
    notes := expired.foldl (fun notes e => .pruned e.1 s.clock.now :: notes) s.notes }

def pruneSettledInbound : Handler P Unit := modify State.pruneSettledInbound

/-- A settlement enters the history, or finds it full; one that was pending has a place reserved. -/
def State.recordSettledInbound (settlementID : String) (result : SettlementOutcome) (s : State P) :
    State P :=
  let i := s.inbound
  if i.settledInbound.has settlementID then s
  else if !i.pendingInbound.has settlementID &&
      settledInboundLimit ≤ i.settledInbound.size + i.pendingInbound.size then s
  else
    { s with
      inbound :=
        { i with
          settledInbound := i.settledInbound.set settlementID
            ⟨result, s.clock.now + committedOperationIDRetentionMs, none⟩ }
      notes := .recorded settlementID result s.clock.now :: s.notes }

def recordSettledInbound (settlementID : String) (result : SettlementOutcome) : Handler P Unit := do
  pruneSettledInbound
  modify (State.recordSettledInbound settlementID result)

/-- Whether the transport still knows a settlement ID. -/
def Inbound.holds (i : Inbound P) (settlementID : String) : Bool :=
  i.pendingInbound.has settlementID || i.settledInbound.has settlementID

/-- Send the answer to a settlement, and note it if it is queued. -/
def answer (settlementID : String) (destination : LinkNode) (outcome : SettlementOutcome)
    (operationID messageID : String) (reason : Option String) (radioPacketID : Option ℕ) :
    Handler P LinkOperationResult := do
  let (result, queued) ← sendControl w destination (.settled outcome operationID messageID reason)
    true radioPacketID
  if queued then
    note (.answered settlementID outcome ((← getInbound).holds settlementID))
  else pure ()
  return result

def releasePending (settlementID : String) : Handler P Unit :=
  modifyInbound fun i => { i with pendingInbound := i.pendingInbound.delete settlementID }

def settleInbound (settlementID : String) (accepted : Bool) (reason : Option String) :
    Handler P Bool := do
  match (← getInbound).pendingInbound.get settlementID with
  | none => return false
  | some pending =>
    let control := if accepted then SettlementOutcome.confirmed else .rejected
    let result ← answer w settlementID pending.source control pending.operationID
      pending.messageID reason pending.radioPacketID
    if result.status = .failed then return false
    else
      recordSettledInbound settlementID control
      releasePending settlementID
      cancelTimer pending.timer
      return true

def failedAtomicTaskSettlement (receiptOperationID reportOperationID reason : String) :
    Handler P AtomicTaskSettlementResult := do
  let now ← clockNow
  return {
    accepted := false
    receipt := { operationID := receiptOperationID, status := .failed, reason := some reason,
                 completedAt := some now }
    report := { operationID := reportOperationID, status := .failed, reason := some reason,
                completedAt := some now } }

/-- The pending Task delivery a report may settle, or why it may not. -/
def taskSettlement (settlementID : String) (report : TaskReport) (destination : LinkNode) :
    Handler P (Except String PendingInbound) := do
  match (← getInbound).pendingInbound.get settlementID with
  | none => return .error "settlement does not belong to the reported Task"
  | some pending =>
    if pending.messageType ≠ .taskDelivery ∨ pending.taskID ≠ some report.taskID then
      return .error "settlement does not belong to the reported Task"
    else if w.node.role ≠ .asset ∨ pending.source.role ≠ .gateway then
      return .error "atomic Task settlement is only valid for an Asset Task delivery"
    else if destination ≠ pending.source then
      return .error "Task report destination must match the pending Task source"
    else return .ok pending

/-- Both messages of an atomic settlement, prepared before either is queued. -/
def prepareAtomic (pending : PendingInbound) (report : TaskReport) (destination : LinkNode)
    (receiptOperationID reportOperationID : String) :
    Handler P (Except String (PreparedOutbound P × PreparedOutbound P)) := do
  let sequence := (← getOutgoing).sourceSequence
  match ← prepareOutbound w
    { message := .control (.settled .confirmed pending.operationID pending.messageID none)
      destination := some pending.source
      operationID := receiptOperationID
      useInboundReservation := false
      radioRequestID := pending.radioPacketID
      capacity := ⟨0, 1, 0⟩
      sourceSequence := sequence + 1
      reservation := none } with
  | .existing _ => return .error "receipt operation identity is already tracked"
  | .failed reason => return .error reason
  | .invalid => return .error "operation ID must not be blank"
  | .ready receipt =>
    match ← prepareOutbound w
      { message := .taskReport report
        destination := some destination
        operationID := reportOperationID
        useInboundReservation := false
        radioRequestID := none
        capacity := ⟨2, 1, 1⟩
        sourceSequence := sequence + 2
        reservation := none } with
    | .existing _ => return .error "Task report operation identity is already tracked"
    | .failed reason => return .error reason
    | .invalid => return .error "operation ID must not be blank"
    | .ready prepared => return .ok (receipt, prepared)

/-- Queue both messages of an atomic settlement and move it to the history. -/
def commitAtomic (settlementID fingerprint : String) (pending : PendingInbound)
    (receipt report : PreparedOutbound P) : Handler P AtomicTaskSettlementResult := do
  let receiptResult ← commitOutbound w receipt false false
  note (.answered settlementID .confirmed ((← getInbound).holds settlementID))
  let reportResult ← commitOutbound w report false false
  recordSettledInbound settlementID .confirmed
  releasePending settlementID
  cancelTimer pending.timer
  recordOperation receiptResult receiptResult.operationID
  recordOperation reportResult reportResult.operationID
  let outcome : AtomicTaskSettlementResult := ⟨true, receiptResult, reportResult⟩
  modifyInbound fun i =>
    { i with
      settledInbound := i.settledInbound.modify settlementID fun settled =>
        { settled with atomicTask := some ⟨fingerprint, outcome⟩ } }
  requestPump 0
  return outcome

def settleInboundWithTaskReport (settlementID : String) (report : TaskReport)
    (destination : LinkNode) (operationIDValue : Option String) :
    Handler P AtomicTaskSettlementResult := do
  let reportOperationID ← operationIDOr w operationIDValue (.taskReport report) none
  let receiptOperationID := "control_" ++ (← createID w)
  let failed := failedAtomicTaskSettlement (P := P) receiptOperationID reportOperationID
  if ← isStopped then failed "link service is stopped"
  else if !w.isLinkMessage (.taskReport report) then
    failed "atomic settlement requires a Task report"
  else if isBlank reportOperationID then failed "operation ID must not be blank"
  else if isBlank destination.id then failed "Task report destination is invalid"
  else
    match w.taskReportFingerprint report destination with
    | none => failed "invalid Task report encoding"
    | some fingerprint =>
      pruneSettledInbound
      match ((← getInbound).settledInbound.get settlementID).bind (·.atomicTask) with
      | some prior =>
        if prior.fingerprint ≠ fingerprint ∨
            (operationIDValue.isSome ∧ some prior.outcome.report.operationID ≠ operationIDValue) then
          failed "settlement was already accepted with a different Task report"
        else return prior.outcome
      | none =>
        match ← taskSettlement w settlementID report destination with
        | .error reason => failed reason
        | .ok pending =>
          match ← prepareAtomic w pending report destination receiptOperationID
            reportOperationID with
          | .error reason => failed reason
          | .ok (receipt, prepared) =>
            commitAtomic w settlementID fingerprint pending receipt prepared

def expirePendingInbound (settlementID : String) : Handler P Unit := do
  match (← getInbound).pendingInbound.get settlementID with
  | none => pure ()
  | some pending =>
    let _ ← answer w settlementID pending.source .rejected pending.operationID pending.messageID
      (some "application settlement deadline expired") pending.radioPacketID
    recordSettledInbound settlementID .rejected
    releasePending settlementID

/-- Record a message's settlement as rejected, and answer it so. -/
def rejectInbound (identity : FrameIdentity) (reason : String) (radioPacketID : Option ℕ) :
    Handler P Unit := do
  let settlementID := inboundSettlementID w identity
  recordSettledInbound settlementID .rejected
  let _ ← answer w settlementID identity.source .rejected identity.operationID identity.messageID
    (some reason) radioPacketID

def rejectAddressedMessage := @rejectInbound
def rejectInboundCapacity := @rejectInbound

end Settlements

section Sources

inductive SourceAdmissionFailure
  | capacity
  | staleSource
  | pictureRejected
  deriving DecidableEq, Repr

def checkSourceFence (i : Inbound P) (source : LinkNode) (generation : ℕ) (session : String) :
    Option SourceAdmissionFailure :=
  match i.sourceFences.get (nodeKey source) with
  | some current =>
    if generation < current.generation ∨
        (generation = current.generation ∧ session ≠ current.session) then some .staleSource
    else none
  | none => if linkSourceIdentityLimit ≤ i.sourceFences.size then some .capacity else none

/-- A reassembly that a source's new generation or session leaves behind. -/
def supersededBy (source : LinkNode) (generation : ℕ) (session : String) (r : Reassembly) : Bool :=
  r.identity.source = source && r.identity.sourceGeneration ≤ generation &&
    !(r.identity.sourceGeneration = generation && r.identity.serviceSession = session)

/-- Tell the picture of a source's new generation; whether it takes it. -/
def activateInPicture (source : LinkNode) (generation : ℕ) (session : String) :
    Handler P Bool := do
  match (← getInbound).picture with
  | none => return true
  | some picture =>
    let (picture, accepted) := w.activateSource picture source generation session
    modifyInbound fun i => { i with picture := some picture }
    emit w .pictureChanged
    return accepted

def activateSourceFence (source : LinkNode) (generation : ℕ) (session : String) :
    Handler P (Option SourceAdmissionFailure) := do
  let i ← getInbound
  match checkSourceFence i source generation session with
  | some rejection => return some rejection
  | none =>
    if (i.sourceFences.get (nodeKey source)).all (·.generation < generation) then
      if ← activateInPicture w source generation session then
        noteFence .fenced source ⟨generation, session⟩
        modifyInbound fun i =>
          { i with sourceFences := i.sourceFences.set (nodeKey source) ⟨generation, session⟩ }
        let i ← getInbound
        i.reassemblies.values.forM fun r =>
          if supersededBy source generation session r then cancelTimer r.timer else pure ()
        modifyInbound fun i =>
          { i with
            reassemblies := i.reassemblies.filter
              fun e => !supersededBy source generation session e.2 }
        return none
      else return some .pictureRejected
    else
      noteFence .fenced source ⟨generation, session⟩
      modifyInbound fun i =>
        { i with sourceFences := i.sourceFences.set (nodeKey source) ⟨generation, session⟩ }
      return none

end Sources

section Controls

/-- The pending operation that a control message answers. -/
def Outgoing.answeredOutbound (o : Outgoing P) (operationID messageID : String)
    (source : LinkNode) : Option ℕ :=
  o.outboundByOperation.values.find? fun r =>
    (o.heap[r]?).any fun candidate =>
      candidate.identity.operationID = operationID &&
        candidate.identity.destination = some source && candidate.identity.messageID = messageID

def repairChunks (r : ℕ) (chunks : List ℕ) : Handler P Unit :=
  withOutbound r () fun outbound => do
    let pendingChunks := chunks.filter (· < outbound.frames.length)
    modifyOutbound r fun outbound => { outbound with pendingChunks := pendingChunks }
    cancelTimer? outbound.retryTimer
    if pendingChunks = [] then scheduleRetry w r else requeue r

def observeRoundTrip (outbound : Outbound P) (source : LinkNode) : Handler P Unit := do
  match outbound.firstSentAt with
  | none => pure ()
  | some firstSentAt =>
    if w.adaptiveRetries ∧ w.retryIntervalMs = none ∧ outbound.frames.length = 1 then
      let s ← get
      modifyOutgoing fun o =>
        { o with
          retryTimings := w.observeRetry o.retryTimings outbound.identity.priority source
            (s.inbound.sourceFences.get (nodeKey source)) (s.clock.now - firstSentAt) s.clock.now
            (outbound.rttAmbiguous || outbound.chunkSendCounts.head? ≠ some 1) }
    else pure ()

def settleOutbound (r : ℕ) (outcome : SettlementOutcome) (reason : Option String)
    (source : LinkNode) : Handler P Unit :=
  withOutbound r () fun outbound => do
    match outcome with
    | .confirmed =>
      observeRoundTrip w outbound source
      if outbound.message.type = .dataRequest ∨ outbound.message.type = .resourceOperation then
        confirmAwaitingResponseTransport w r
      else completeOutbound w r .confirmed reason
    | .rejected => completeOutbound w r .rejected reason

def handleControl (message : ControlMessage) (identity : FrameIdentity) : Handler P Unit := do
  match message with
  | .sourceActive _ source generation session =>
    if identity.source.role = .gateway then
      let _ ← activateSourceFence w source generation session
    else pure ()
  | .missingChunks operationID messageID chunks =>
    if identity.destination = some w.node then
      match (← getOutgoing).answeredOutbound operationID messageID identity.source with
      | none => pure ()
      | some r => repairChunks w r chunks
    else pure ()
  | .settled outcome operationID messageID reason =>
    if identity.destination = some w.node then
      match (← getOutgoing).answeredOutbound operationID messageID identity.source with
      | none => pure ()
      | some r => settleOutbound w r outcome reason identity.source
    else pure ()

def handleCompoundReceipt (identity : FrameIdentity) : Handler P Unit := do
  match identity.receipt with
  | none => pure ()
  | some receipt =>
    if identity.source.role = .asset ∧ identity.destination = some w.node then
      handleControl w (.settled .confirmed receipt.operationID receipt.messageID none) identity
    else pure ()

def responseMatchesRequest (request : DataRequest) (message : LinkMessage) : Bool :=
  match message with
  | .objectContent content =>
    request.operation = "object.content" && some content.objectID = request.targetID
  | .dataResponse response =>
    response.operation = request.operation && request.operation ≠ "object.content" &&
      w.requestOutputValid request response.output
  | _ => false

def responseMatchesMutation (request : ResourceOperation) (message : LinkMessage) : Bool :=
  match message with
  | .dataResponse response =>
    response.operation = request.operation && w.mutationOutputValid request response.output
  | _ => false

def responseRequestID : LinkMessage → Option String
  | .dataResponse response => some response.requestID
  | .objectContent content => some content.requestID
  | _ => none

def Outgoing.matchingResponseOperation (o : Outgoing P) (message : LinkMessage)
    (identity : FrameIdentity) : Option (ℕ × Outbound P) := do
  let requestID ← responseRequestID message
  let r ← o.pendingDataRequests.get requestID <|>
    (if message.type = .dataResponse then o.responseOperations.get requestID else none)
  let outbound ← o.heap[r]?
  guard (outbound.identity.destination = some identity.source)
  match outbound.message with
  | .dataRequest request => guard (responseMatchesRequest w request message)
  | .resourceOperation operation => guard (responseMatchesMutation w operation message)
  | _ => none
  return (r, outbound)

/-- The result a response carries for the operation it completes. -/
def respondedResult (operationID : String) (message : LinkMessage) (now : ℕ) :
    LinkOperationResult :=
  match message with
  | .dataResponse response =>
    { operationID := operationID, status := .responded, output := response.output,
      nextCursor := response.nextCursor, completedAt := some now }
  | .objectContent content =>
    { operationID := operationID, status := .responded,
      output := some (content.objectID ++ content.contentBase64 ++ content.sha256),
      completedAt := some now }
  | _ => { operationID := operationID, status := .responded, completedAt := some now }

def completeDataRequest (message : LinkMessage) (identity : FrameIdentity) : Handler P Unit := do
  match responseRequestID message,
    (← getOutgoing).matchingResponseOperation w message identity with
  | some requestID, some (r, outbound) =>
    cancelTimer? outbound.retryTimer
    cancelTimer? outbound.deadlineTimer
    modifyOutgoing fun o =>
      { o with
        pendingDataRequests := o.pendingDataRequests.delete requestID
        responseOperations := o.responseOperations.delete outbound.operationID
        outboundByOperation := o.outboundByOperation.delete outbound.operationID }
    removeAll r
    let now ← clockNow
    let result := respondedResult outbound.operationID message now
    retainCompletedOperation outbound.operationID
    recordOperation result outbound.operationID
    emit w (.operation result)
  | _, _ => pure ()

end Controls

section Messages

inductive TaskDeliveryOrder
  | new
  | duplicate
  | stale
  deriving DecidableEq, Repr

def taskDeliveryKey (identity : FrameIdentity) (taskID : String) : String :=
  nodeKey identity.source ++ ":" ++ toString identity.sourceGeneration ++ ":" ++
    identity.serviceSession ++ ":" ++ taskID

def Inbound.taskDeliveryOrder (i : Inbound P) (identity : FrameIdentity) (taskID : String) :
    TaskDeliveryOrder :=
  match i.taskDeliverySequences.get (taskDeliveryKey identity taskID) with
  | none => .new
  | some current =>
    if identity.sourceSequence < current then .stale
    else if identity.sourceSequence = current then .duplicate
    else .new

/-- The order of a Task delivery; a new one moves the Task's sequence fence. -/
def acceptTaskDeliverySequence (message : LinkMessage) (identity : FrameIdentity) :
    Handler P (Option TaskDeliveryOrder) := do
  match message with
  | .taskDelivery _ task =>
    let i ← getInbound
    let order := i.taskDeliveryOrder identity task.taskID
    if order = .new then
      let key := taskDeliveryKey identity task.taskID
      let sequences := i.taskDeliverySequences.set key identity.sourceSequence
      let trimmed : OrderedMap String ℕ :=
        if taskDeliveryFenceLimit < sequences.size then
          match sequences.keys.head? with
          | some oldest => sequences.delete oldest
          | none => sequences
        else sequences
      modifyInbound fun i => { i with taskDeliverySequences := trimmed }
      return some .new
    else return some order
  | _ => return none

def updatePicture (message : LinkMessage) (identity : FrameIdentity) : Handler P Unit := do
  let now ← clockNow
  match (← getInbound).picture with
  | none => pure ()
  | some picture =>
    (w.messagePublications picture message identity now).forM fun publication => do
      noteFence .applied identity.source ⟨identity.sourceGeneration, identity.serviceSession⟩
      modifyInbound fun i =>
        { i with
          picture := i.picture.map fun picture =>
            w.applyPublication picture publication identity now }
      emit w .pictureChanged

/-- Why a message is turned down before its settlement is looked up: a Task that does not come from
the Gateway or is another Asset's, a report that does not come from the Task's Asset, a Task
delivery overtaken by a later one. The answer is sent if the message is addressed to this node. -/
def earlyRejection (i : Inbound P) (message : LinkMessage) (identity : FrameIdentity) :
    Option String :=
  match message with
  | .taskDelivery _ task =>
    if identity.source.role ≠ .gateway then some "Task delivery source is not the Gateway"
    else if identity.destination = some w.node ∧ task.assetID ≠ w.node.id then
      some "Task is assigned to a different Asset"
    else if i.taskDeliveryOrder identity task.taskID = .stale then
      some "Task delivery source sequence is stale"
    else none
  | .taskReport report =>
    if identity.source.role ≠ .asset then some "Task reports must originate from an Asset"
    else if (i.picture.bind fun picture => w.assignedAsset picture report.taskID).any
        (· ≠ identity.source.id) then
      some "Task report source is not the assigned Asset"
    else none
  | _ => none

/-- Enter a message into the pending settlements. -/
def admitPending (message : LinkMessage) (identity : FrameIdentity) (radioPacketID : Option ℕ) :
    Handler P Unit := do
  let settlementID := inboundSettlementID w identity
  let timer ← schedule (deadlineMs identity.priority) (.expirePendingInbound settlementID)
  modifyInbound fun i =>
    { i with
      pendingInbound := i.pendingInbound.set settlementID
        { source := identity.source
          messageType := message.type
          taskID :=
            match message with
            | .taskDelivery _ task => some task.taskID
            | _ => none
          operationID := identity.operationID
          messageID := identity.messageID
          radioPacketID := radioPacketID
          timer := timer } }

/-- Hand a message over: the picture takes it, the request it answers is completed, and the
application gets it. -/
def deliver (message : LinkMessage) (identity : FrameIdentity)
    (order : Option TaskDeliveryOrder) (requiresSettlement : Bool) : Handler P Unit := do
  let addressed := identity.destination = some w.node
  if order = some .duplicate then pure () else updatePicture w message identity
  if addressed ∧ (responseRequestID message).isSome then completeDataRequest w message identity
  else pure ()
  let now ← clockNow
  emitMessage w
    { message := message
      operationID := identity.operationID
      settlementID := inboundSettlementID w identity
      source := identity.source
      destination := identity.destination
      sourceGeneration := identity.sourceGeneration
      serviceSession := identity.serviceSession
      sourceSequence := identity.sourceSequence
      receivedAt := now
      addressedToLocal := addressed
      requiresSettlement := requiresSettlement }

/-- A message that the application has to settle, known neither as settled nor as pending. -/
def admitConfirmed (message : LinkMessage) (identity : FrameIdentity)
    (order : Option TaskDeliveryOrder) (radioPacketID : Option ℕ) : Handler P Unit := do
  let s ← get
  let i := s.inbound
  if order = some .duplicate then pure ()
  else if w.confirmedLimit ≤ i.pendingInbound.size ∨
      w.queueLimit ≤ s.outgoing.occupancy + i.pendingInbound.size then
    rejectInboundCapacity w identity "inbound confirmed operation capacity is exhausted"
      radioPacketID
  else if settledInboundLimit ≤ i.settledInbound.size + i.pendingInbound.size then
    -- A pending settlement reserves its eventual retained settlement identity.
    rejectInboundCapacity w identity "inbound settlement identity capacity is exhausted"
      radioPacketID
  else
    admitPending w message identity radioPacketID
    deliver w message identity order true

/-- An addressed response that no pending operation asked for. -/
def unexpectedResponse (o : Outgoing P) (message : LinkMessage) (identity : FrameIdentity) : Bool :=
  (responseRequestID message).isSome && identity.destination = some w.node &&
    (o.matchingResponseOperation w message identity).isNone

/-- The part of `handleCompleteMessage` after the early rejections. -/
def settleOrDeliver (message : LinkMessage) (identity : FrameIdentity)
    (order : Option TaskDeliveryOrder) (radioPacketID : Option ℕ) : Handler P Unit := do
  if deliveryClass message = .confirmed ∧ identity.destination = some w.node then
    let settlementID := inboundSettlementID w identity
    pruneSettledInbound
    let i ← getInbound
    match i.settledInbound.get settlementID with
    | some settled =>
      let _ ← answer w settlementID identity.source settled.result identity.operationID
        identity.messageID none radioPacketID
    | none =>
      if i.pendingInbound.has settlementID then pure ()
      else if unexpectedResponse w (← getOutgoing) message identity then pure ()
      else admitConfirmed w message identity order radioPacketID
  else if unexpectedResponse w (← getOutgoing) message identity then pure ()
  else deliver w message identity order false

/-- The part of `handleCompleteMessage` after the controls. -/
def acceptMessage (message : LinkMessage) (identity : FrameIdentity) (radioPacketID : Option ℕ) :
    Handler P Unit := do
  let addressed := identity.destination = some w.node
  if deliveryClass message = .confirmed ∧ identity.destination = none then pure ()
  else
    match earlyRejection w (← getInbound) message identity with
    | some reason =>
      if addressed then rejectAddressedMessage w identity reason radioPacketID else pure ()
    | none =>
      let order ← acceptTaskDeliverySequence message identity
      if order = some .duplicate ∧ ¬ addressed then pure ()
      else settleOrDeliver w message identity order radioPacketID

/-- The message in the bytes of a complete reassembly; full state goes through the decoder only
once its source is accepted. -/
def decodeComplete (identity : FrameIdentity) (bytes : Bytes) :
    Handler P (Option (LinkMessage × Option Bytes)) := do
  match w.decodeMessagePayload bytes with
  | none => return none
  | some bytes =>
    if identity.messageType = .state ∧ w.isStateDeltaPayload bytes = true then
      let i ← getInbound
      let (decoder, message) := w.decodeState i.stateDecoder bytes identity
      modifyInbound fun i => { i with stateDecoder := decoder }
      return message.map (·, none)
    else
      return (w.deserializeLinkMessage bytes).map fun message =>
        (message, if message.type = .state then some bytes else none)

/-- The part of `handleCompleteMessage` up to the controls: the message to go on with, if any. -/
def openMessage (identity : FrameIdentity) (bytes : Bytes) : Handler P (Option LinkMessage) := do
  match ← decodeComplete w identity bytes with
  | none => return none
  | some (message, fullState) =>
    if message.type ≠ identity.messageType ∨ messagePriority message ≠ identity.priority then
      return none
    else if !validStateSource message identity.source then return none
    else
      match ← activateSourceFence w identity.source identity.sourceGeneration
        identity.serviceSession with
      | some _ => return none
      | none =>
        match fullState with
        | some bytes =>
          modifyInbound fun i =>
            { i with stateDecoder := (w.decodeState i.stateDecoder bytes identity).1 }
        | none => pure ()
        if message.type = .taskReport then handleCompoundReceipt w identity else pure ()
        if message.type = .taskReport ∧ identity.receipt.isSome ∧ (← isStopped) = true then
          return none
        else return some message

/-- Controls are handled at once; what is left is the message that is none. -/
def interceptControl (identity : FrameIdentity) (message : Option LinkMessage) :
    Handler P (Option LinkMessage) := do
  match message with
  | none => return none
  | some (.control message) =>
    if identity.destination.all (· = w.node) then handleControl w message identity else pure ()
    return none
  | some message => return some message

/-- `handleCompleteMessage` up to the early rejections: the message to go on with, if any. -/
def openComplete (identity : FrameIdentity) (bytes : Bytes) : Handler P (Option LinkMessage) := do
  note (.completed identity bytes)
  let message ← openMessage w identity bytes
  interceptControl w identity message

def handleCompleteMessage (identity : FrameIdentity) (bytes : Bytes) (radioPacketID : Option ℕ) :
    Handler P Unit := do
  match ← openComplete w identity bytes with
  | none => pure ()
  | some message => acceptMessage w message identity radioPacketID

end Messages

section Packets

def reassemblyKey (identity : FrameIdentity) : String :=
  nodeKey identity.source ++ ":" ++ toString identity.sourceGeneration ++ ":" ++
    identity.serviceSession ++ ":" ++ identity.messageID

def sameFrameSet (r : Reassembly) (frame : LinkFrame) : Bool :=
  r.chunkCount = frame.chunkCount &&
    r.identity.messageType = frame.identity.messageType &&
    r.identity.source = frame.identity.source &&
    r.identity.destination = frame.identity.destination &&
    r.identity.sourceGeneration = frame.identity.sourceGeneration &&
    r.identity.serviceSession = frame.identity.serviceSession &&
    r.identity.sourceSequence = frame.identity.sourceSequence &&
    r.identity.operationID = frame.identity.operationID &&
    r.identity.priority = frame.identity.priority

/-- The chunks in the order of their indices. -/
def joinChunks (r : Reassembly) : Bytes :=
  (List.range r.chunkCount).flatMap fun index => (r.chunks.get index).getD []

/-- The first of the entries received longest ago. -/
def oldestReassembly : List (String × Reassembly) → Option (String × Reassembly)
  | [] => none
  | e :: rest =>
    match oldestReassembly rest with
    | none => some e
    | some oldest => if oldest.2.lastReceivedAt < e.2.lastReceivedAt then some oldest else some e

def deleteReassembly (key : String) : Handler P Unit :=
  modifyInbound fun i => { i with reassemblies := i.reassemblies.delete key }

def setReassembly (key : String) (r : Reassembly) : Handler P Unit :=
  modifyInbound fun i => { i with reassemblies := i.reassemblies.set key r }

def makeReassemblyRoom : Handler P Unit := do
  let i ← getInbound
  if i.reassemblies.size < w.reassemblyLimit then pure ()
  else
    match oldestReassembly i.reassemblies.entries with
    | none => pure ()
    | some (key, r) =>
      cancelTimer r.timer
      deleteReassembly key

def reassemblyInterval (r : Reassembly) : ℕ :=
  if r.identity.messageType = .state ∨ r.identity.messageType = .control ∨
      r.identity.destination ≠ some w.node ∨ !r.chunks.has (r.chunkCount - 1) then
    w.reassemblyTimeoutMs
  else if r.identity.priority = .task ∨ r.identity.priority = .safety then
    min w.reassemblyTimeoutMs 1000
  else w.reassemblyTimeoutMs

def expireReassembly (key : String) : Handler P Unit := do
  match (← getInbound).reassemblies.get key with
  | none => pure ()
  | some r =>
    let now ← clockNow
    if r.identity.messageType ≠ .state ∧ r.identity.destination = some w.node ∧
        now + reassemblyInterval w r < r.expiresAt then
      let missing := (List.range r.chunkCount).filter fun index => !r.chunks.has index
      let _ ← sendControl w r.identity.source
        (.missingChunks r.identity.operationID r.identity.messageID missing) false r.radioPacketID
      -- The request may have called a listener, so the entry is read again.
      let timer ← schedule w.reassemblyTimeoutMs (.expireReassembly key)
      match (← getInbound).reassemblies.get key with
      | none => pure ()
      | some r => setReassembly key { r with timer := timer }
    else deleteReassembly key

def expectsObjectContent (frame : LinkFrame) : Handler P Bool := do
  if frame.identity.destination ≠ some w.node then return false
  else
    let settlementID := inboundSettlementID w frame.identity
    pruneSettledInbound
    let s ← get
    if s.inbound.holds settlementID then return true
    else
      let o := s.outgoing
      return ((o.pendingDataRequests.get frame.identity.operationID).bind fun r => o.heap[r]?).any
        fun request =>
          (match request.message with
            | .dataRequest r =>
              r.operation = "object.content" && r.requestID = frame.identity.operationID
            | _ => false) &&
          request.identity.destination = some frame.identity.source

/-- The reassembly a frame belongs to, begun if there is none. -/
def openReassembly (frame : LinkFrame) (packet : RadioPacket) : Handler P Reassembly := do
  let key := reassemblyKey frame.identity
  match (← getInbound).reassemblies.get key with
  | some r => return r
  | none =>
    makeReassemblyRoom w
    let timer ← schedule w.reassemblyTimeoutMs (.expireReassembly key)
    let now ← clockNow
    let r : Reassembly :=
      { identity := frame.identity
        chunks := .empty
        chunkCount := frame.chunkCount
        byteLength := 0
        expiresAt := now + deadlineMs frame.identity.priority
        lastReceivedAt := packet.receivedAt
        radioPacketID := packet.radioPacketID
        timer := timer }
    setReassembly key r
    return r

/-- The identity and bytes of a message whose last chunk has come. -/
structure Complete where
  identity : FrameIdentity
  bytes : Bytes
  radioPacketID : Option ℕ

/-- Add a frame's chunk to its reassembly; the message it completes, if any. -/
def addChunk (r : Reassembly) (frame : LinkFrame) (packet : RadioPacket) :
    Handler P (Option Complete) := do
  let key := reassemblyKey frame.identity
  if !sameFrameSet r frame then return none
  else if r.chunks.has frame.chunkIndex then return none
  else if maxLinkMessageBytes < r.byteLength + frame.payload.length then
    cancelTimer r.timer
    deleteReassembly key
    return none
  else
    let r : Reassembly :=
      { r with
        chunks := r.chunks.set frame.chunkIndex frame.payload
        byteLength := r.byteLength + frame.payload.length
        lastReceivedAt := packet.receivedAt
        radioPacketID := packet.radioPacketID <|> r.radioPacketID }
    cancelTimer r.timer
    if r.chunks.size ≠ r.chunkCount then
      let timer ← schedule (reassemblyInterval w r) (.expireReassembly key)
      setReassembly key { r with timer := timer }
      return none
    else
      deleteReassembly key
      return some ⟨r.identity, joinChunks r, r.radioPacketID⟩

/-- Whether a decoded frame goes to reassembly. -/
def admitsFrame (frame : LinkFrame) : Handler P Bool := do
  if frame.identity.source = w.node then return false
  else if (checkSourceFence (← getInbound) frame.identity.source frame.identity.sourceGeneration
      frame.identity.serviceSession).isSome then return false
  else if frame.identity.messageType = .objectContent then expectsObjectContent w frame
  else return true

/-- `receive` up to the handling of the message that the packet completes. -/
def receiveFrame (packet : RadioPacket) : Handler P (Option Complete) := do
  if (← isStopped) = true ∨ packet.channel ≠ w.privateChannel then return none
  else
    match w.decodeFrame packet.payload with
    | none => return none
    | some frame =>
      note (.received frame)
      if ← admitsFrame w frame then
        let r ← openReassembly w frame packet
        addChunk w r frame packet
      else return none

def receive (packet : RadioPacket) : Handler P Unit := do
  match ← receiveFrame w packet with
  | none => pure ()
  | some complete =>
    handleCompleteMessage w complete.identity complete.bytes complete.radioPacketID

end Packets

end Atlas.Link
