import Atlas.Link.Sending

/-!
# The pump

The pump sends one chunk at a time: it takes the most urgent queued message, awaits the radio, and
goes on when the radio is done. Confirmed messages are sent again until they are answered or their
deadline passes.
-/

namespace Atlas.Link

variable {P : Parts} (w : Wiring P)

section Retries

/-- The delay before the first jitter: fixed, measured, or by priority. -/
def retryBase (outbound : Outbound P) : Handler P ℕ := do
  match w.retryIntervalMs, outbound.identity.destination with
  | some interval, _ => return interval
  | none, some destination =>
    if w.adaptiveRetries then
      let s ← get
      let fence := s.inbound.sourceFences.get (nodeKey destination)
      let (timings, delay) :=
        w.estimateRetry s.outgoing.retryTimings outbound.identity.priority destination fence
          s.clock.now
      modifyOutgoing fun o => { o with retryTimings := timings }
      return delay
    else return retryMs outbound.identity.priority
  | none, none => return retryMs outbound.identity.priority

def retryDelay (r : ℕ) (outbound : Outbound P) : Handler P ℕ := do
  let base ← retryBase w outbound
  if w.retryJitterMs = 0 then return base
  else
    let sample := w.retrySample
      (nodeKey outbound.identity.source ++ ":" ++ outbound.operationID ++ ":" ++
        toString outbound.retrySequence)
    modifyOutbound r fun outbound => { outbound with retrySequence := outbound.retrySequence + 1 }
    return max 1 (base - sample % (w.retryJitterMs + 1))

/-- Arm an outbound message's retry timer afresh. -/
def armRetry (r : ℕ) (task : TimerTask) : Handler P Unit :=
  withOutbound r () fun outbound => do
    cancelTimer? outbound.retryTimer
    let delay ← retryDelay w r outbound
    let timer ← schedule delay task
    modifyOutbound r fun outbound => { outbound with retryTimer := some timer }

def scheduleRetry (r : ℕ) : Handler P Unit := armRetry w r (.retryOutbound r)

def deferRadioSendRetry (r : ℕ) : Handler P Unit := armRetry w r (.radioSendRetry r)

/-- Put an outbound message at the end of the queue, unless it is being sent. -/
def requeue (r : ℕ) : Handler P Unit := do
  removeAll r
  if (← getOutgoing).activeOutbound = some r then pure ()
  else
    modifyOutgoing fun o => { o with queue := o.queue ++ [r] }
    requestPump 0

def renewOrder (r : ℕ) : Handler P Unit := do
  let o ← getOutgoing
  modifyOutbound r fun outbound => { outbound with order := o.nextOrder }
  modifyOutgoing fun o => { o with nextOrder := o.nextOrder + 1 }

def retryOutbound (r : ℕ) : Handler P Unit :=
  withOutbound r () fun outbound => do
    if !(← getOutgoing).outboundByOperation.has outbound.operationID || (← isStopped) then pure ()
    else
      modifyOutbound r fun outbound =>
        { outbound with pendingChunks := List.range outbound.frames.length }
      renewOrder r
      requeue r

/-- The timer that `deferRadioSendRetry` arms. -/
def radioSendRetry (r : ℕ) : Handler P Unit :=
  withOutbound r () fun outbound => do
    modifyOutbound r fun outbound => { outbound with retryTimer := none }
    if !(← getOutgoing).outboundByOperation.has outbound.operationID || (← isStopped) then pure ()
    else
      renewOrder r
      requeue r

/-- The timer that a confirmed operation's deadline arms. -/
def outboundDeadline (r : ℕ) : Handler P Unit :=
  withOutbound r () fun outbound => do
    let o ← getOutgoing
    let awaitingConfirmation := o.outboundByOperation.has outbound.operationID
    let awaitingResponse :=
      ((dataRequestID outbound).any fun requestID => o.pendingDataRequests.get requestID = some r) ||
        o.responseOperations.get outbound.operationID = some r
    if awaitingConfirmation || awaitingResponse then
      completeOutbound w r .failed (some
        (if awaitingConfirmation then "confirmation deadline expired"
          else "response deadline expired"))
    else pure ()

end Retries

section Pumping

/-- An object transfer takes hold of the radio when it is first looked at, and keeps it. -/
def objectEligible (outbound : Outbound P) : Handler P Bool := do
  if outbound.message.type ≠ .objectContent then return true
  else
    if (← getOutgoing).activeObjectMessageID.isNone then
      modifyOutgoing fun o =>
        { o with activeObjectMessageID := some outbound.identity.messageID }
    else pure ()
    return (← getOutgoing).activeObjectMessageID = some outbound.identity.messageID

def moreUrgent (candidate best : Outbound P) : Bool :=
  priorityOrder candidate.identity.priority < priorityOrder best.identity.priority ||
    (candidate.identity.priority = best.identity.priority && candidate.order < best.order)

def scanQueue : List ℕ → ℕ → Option (ℕ × Outbound P) → Handler P (Option ℕ)
  | [], _, best => return best.map Prod.fst
  | r :: rest, index, best => do
    match (← getOutgoing).heap[r]? with
    | none => scanQueue rest (index + 1) best
    | some candidate =>
      if ← objectEligible candidate then
        if best.all fun b => moreUrgent candidate b.2 then
          scanQueue rest (index + 1) (some (index, candidate))
        else scanQueue rest (index + 1) best
      else scanQueue rest (index + 1) best

def takeNextOutbound : Handler P (Option ℕ) := do
  let o ← getOutgoing
  match ← scanQueue o.queue 0 none with
  | none => return none
  | some index =>
    modifyOutgoing fun o => { o with queue := o.queue.eraseIdx index }
    return o.queue[index]?

def combinesReceipts : Bool :=
  w.frameEncoding = .deflateV3 || w.frameEncoding = .binaryV1 || w.frameEncoding = .messageV1 ||
    w.frameEncoding = .messageV2

/-- The pair a queued Task report makes with a receipt to the same node, if both fit one frame. -/
def combineWith (o : Outgoing P) (receiptRef : ℕ) (receipt : Outbound P) (destination : LinkNode)
    (receiptIdentity : ReceiptIdentity) (reportRef : ℕ) : Option CompoundReceiptPair := do
  let report ← o.heap[reportRef]?
  guard (report.started = false ∧ report.delivery = .confirmed ∧
    report.message.type = .taskReport ∧ report.frames.length = 1 ∧
    report.identity.destination = some destination)
  let originalFrame ← report.frames.head?
  let original ← w.decodeFrame originalFrame
  guard (original.identity.messageType = .taskReport ∧ original.identity.receipt = none ∧
    original.identity.destination = some destination)
  let payload ← w.decodeMessagePayload original.payload
  let identity := { original.identity with receipt := some receiptIdentity }
  match w.fragmentPayload payload identity (w.maxPayloadBytes receipt.sendOptions)
    w.frameEncoding with
  | .ok [combinedFrame] =>
    some
      { receipt := receiptRef
        report := reportRef
        combinedFrame := combinedFrame
        originalFrame := originalFrame
        originalIdentity := report.identity
        originalSendOptions := report.sendOptions
        receiptIdentity := receiptIdentity }
  | _ => none

def compoundReceiptPair (receiptRef : ℕ) (receipt : Outbound P) :
    Handler P (Option CompoundReceiptPair) := do
  match receipt.message, receipt.identity.destination with
  | .control (.settled .confirmed operationID messageID _), some destination =>
    if combinesReceipts w && receipt.frames.length = 1 then
      let o ← getOutgoing
      let pairs := o.queue.zipIdx.filterMap fun entry =>
        (combineWith w o receiptRef receipt destination ⟨operationID, messageID⟩ entry.1).map
          (·, entry.2)
      match pairs.head? with
      | none => return none
      | some (pair, index) =>
        modifyOutgoing fun o => { o with queue := o.queue.eraseIdx index }
        return some pair
    else return none
  | _, _ => return none

def markOutboundStarted (r : ℕ) : Handler P Unit := do
  let now ← clockNow
  modifyOutbound r fun outbound =>
    { outbound with started := true, firstSentAt := some (outbound.firstSentAt.getD now) }

/-- The `finally` block of `pump`. -/
def finishPump (nextDelayMs : ℕ) : Handler P Unit := do
  modifyOutgoing fun o => { o with activeOutbound := none, pumping := false }
  let s ← get
  if s.outgoing.occupancy + s.inbound.pendingInbound.size < w.queueLimit then
    emitCapacityAvailable w
  else pure ()
  let o ← getOutgoing
  if !o.paused && o.hasEligibleOutbound then requestPump nextDelayMs else pure ()

/-- The part of `pump` up to the radio send it awaits. -/
def pump : Handler P Unit := do
  let o ← getOutgoing
  if o.pumping || (← isStopped) || o.paused then pure ()
  else
    modifyOutgoing fun o => { o with pumping := true }
    match ← takeNextOutbound with
    | none => finishPump w 0
    | some r =>
      modifyOutgoing fun o => { o with activeOutbound := some r }
      withOutbound r () fun outbound =>
        match outbound.pendingChunks with
        | [] => do
          -- A stale queue reference must not retain the Object-transfer lock.
          removeAll r
          let _ ← releaseObject outbound
          finishPump w 0
        | chunkIndex :: pendingChunks => do
          modifyOutbound r fun outbound => { outbound with pendingChunks := pendingChunks }
          match outbound.frames[chunkIndex]? with
          | none => finishPump w 0
          | some frame => do
            let pair ← compoundReceiptPair w r outbound
            markOutboundStarted r
            match pair with
            | none => pure ()
            | some pair =>
              modifyOutbound pair.report fun report =>
                { report with started := true, pendingChunks := [] }
              markOutboundStarted pair.report
            modifyOutgoing fun o => { o with inFlight := some ⟨r, chunkIndex, frame, pair⟩ }

/-- The timer of a requested pump. -/
def pumpTimer : Handler P Unit := do
  modifyOutgoing fun o => { o with pumpTimer := none, pumpRequested := false }
  if (← getOutgoing).paused || (← isStopped) then pure ()
  else pump w

def recordPhysicalSend (r : ℕ) (frame : Bytes) (chunkIndex : ℕ) : Handler P Unit := do
  modifyOutbound r fun outbound =>
    { outbound with chunkSendCounts := outbound.chunkSendCounts.modify chunkIndex (· + 1) }
  withOutbound r () fun outbound => do
    let now ← clockNow
    emit w (.packetSent outbound.identity.messageID outbound.operationID frame.length now)

def afterAllChunksSent (r : ℕ) : Handler P Unit :=
  withOutbound r () fun outbound => do
    let now ← clockNow
    -- Only a complete full send may become a baseline for later current-state updates.
    modifyOutgoing fun o =>
      match o.stateEncoder, outbound.commitStateBaseline with
      | some encoder, some baseline =>
        { o with stateEncoder := some (w.commitFull encoder baseline now) }
      | _, _ => o
    modifyOutbound r fun outbound => { outbound with commitStateBaseline := none }
    if outbound.message.type = .objectContent then
      let _ ← releaseObject outbound
    else pure ()
    if outbound.delivery = .bestEffort then
      let result : LinkOperationResult :=
        { operationID := outbound.operationID, status := .sent, completedAt := some now }
      recordOperation result outbound.operationID
      emit w (.operation result)
    else scheduleRetry w r

def finishCompoundReceiptPair (pair : CompoundReceiptPair) : Handler P Unit := do
  afterAllChunksSent w pair.receipt
  withOutbound pair.report () fun report => do
    let o ← getOutgoing
    if o.outboundByOperation.has report.operationID then
      modifyOutbound pair.report fun report =>
        { report with
          identity := { report.identity with receipt := some pair.receiptIdentity }
          frames := [pair.combinedFrame]
          sendOptions :=
            ((o.heap[pair.receipt]?).map (·.sendOptions)).getD report.sendOptions }
      afterAllChunksSent w pair.report
    else pure ()

def handleCompoundReceiptFailure (pair : CompoundReceiptPair) : Handler P Unit := do
  withOutbound pair.report () fun report => do
    if (← getOutgoing).outboundByOperation.has report.operationID then
      modifyOutbound pair.report fun report =>
        { report with
          identity := pair.originalIdentity
          frames := [pair.originalFrame]
          sendOptions := pair.originalSendOptions
          pendingChunks := [0] }
      deferRadioSendRetry w pair.report
    else pure ()
  modifyOutbound pair.receipt fun receipt => { receipt with pendingChunks := [0] }
  renewOrder pair.receipt
  modifyOutgoing fun o => { o with queue := o.queue ++ [pair.receipt] }
  requestPump 0

/-- Whether a confirmed operation is no longer awaited. -/
def abandoned (outbound : Outbound P) : Handler P Bool := do
  return outbound.delivery = .confirmed &&
    !(← getOutgoing).outboundByOperation.has outbound.operationID

/-- What `pump` does with a send the radio refused. -/
def sendFailed (flight : InFlight) (reason : String) : Handler P Unit :=
  withOutbound flight.outbound () fun outbound => do
    modifyOutbound flight.outbound fun outbound => { outbound with rttAmbiguous := true }
    match flight.pair with
    | some pair =>
      modifyOutbound pair.report fun report => { report with rttAmbiguous := true }
      handleCompoundReceiptFailure w pair
    | none =>
      if outbound.delivery = .confirmed then
        if ← abandoned outbound then pure ()
        else
          modifyOutbound flight.outbound fun outbound =>
            { outbound with pendingChunks := flight.chunkIndex :: outbound.pendingChunks }
          deferRadioSendRetry w flight.outbound
      else failBestEffort w flight.outbound ("radio send failed: " ++ reason)

/-- What `pump` does with a send the radio took; the pacing delay before the next one. -/
def sendSucceeded (flight : InFlight) : Handler P ℕ :=
  withOutbound flight.outbound 0 fun outbound => do
    match flight.pair with
    | some pair =>
      recordPhysicalSend w pair.report pair.combinedFrame 0
      if ← isStopped then pure () else finishCompoundReceiptPair w pair
      return w.pacingDelayMs pair.combinedFrame
    | none =>
      if ← abandoned outbound then return 0
      else
        recordPhysicalSend w flight.outbound flight.frame flight.chunkIndex
        if (← isStopped) || (← abandoned outbound) then pure ()
        else
          withOutbound flight.outbound () fun outbound =>
            if outbound.pendingChunks = [] then afterAllChunksSent w flight.outbound
            else modifyOutgoing fun o => { o with queue := o.queue ++ [flight.outbound] }
        return w.pacingDelayMs flight.frame

/-- The part of `pump` after the radio send it awaited. -/
def resumePump (result : Except String Unit) : Handler P Unit := do
  match (← getOutgoing).inFlight with
  | none => pure ()
  | some flight =>
    modifyOutgoing fun o => { o with inFlight := none }
    if ← isStopped then finishPump w 0
    else
      match result with
      | .error reason =>
        sendFailed w flight reason
        finishPump w 0
      | .ok () =>
        let nextDelayMs ← sendSucceeded w flight
        finishPump w nextDelayMs

end Pumping

end Atlas.Link
