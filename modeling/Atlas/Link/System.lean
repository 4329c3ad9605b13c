import Atlas.Link.Reception

/-!
# Runs of a transport

What the outside does to a transport: it calls its methods, delivers packets, lets timers fire,
finishes the send the pump awaits, and lets time pass. A listener may call the methods too, from
inside a handler, and so may the listeners of the events that those calls emit; a JavaScript run
that ends is nested to some depth.
-/

namespace Atlas.Link

variable {P : Parts}

section Methods

variable (w : Wiring P)

/-- Reserve a validated Task identity without occupying the outbound radio queue; the number of the
reservation, or nothing where the source throws. -/
def reserveTaskDelivery (message : LinkMessage) (destination : LinkNode) (operationID : String) :
    Handler P (Option ℕ) := do
  if ← isStopped then return none
  else
    let sequence := (← getOutgoing).sourceSequence + 1
    let identity ← outboundIdentity w message (some destination) operationID sequence
    let limit := w.maxPayloadBytes ⟨w.privateChannel, identity.priority, none⟩
    match w.serializeLinkMessage message with
    | .error _ => return none
    | .ok payload =>
      match w.fragmentPayload payload identity limit (plainEncoding w) with
      | .error _ => return none
      | .ok _ =>
        pruneCommittedOperationIDs
        let o ← getOutgoing
        if o.reservedTaskIDs.has operationID || o.committedOperationIDs.has operationID ||
            (o.operationResults.get operationID).any (·.status ≠ .failed) ||
            taskReservationLimit ≤ o.reservedTaskIDs.size then
          return none
        else
          modifyOutgoing fun o =>
            { o with
              sourceSequence := identity.sourceSequence
              reservations :=
                o.reservations ++ [⟨message, destination, operationID, identity, false⟩]
              reservedTaskIDs := o.reservedTaskIDs.set operationID o.reservations.length }
          return some o.reservations.length

def dispatchReservation (n : ℕ) : Handler P Unit := do
  match (← getOutgoing).reservations[n]? with
  | none => pure ()
  | some reservation =>
    if reservation.cancelled then pure ()
    else
      let _ ← submitWithCapacity w
        { message := reservation.message
          destination := some reservation.destination
          operationID := reservation.operationID
          useInboundReservation := false
          radioRequestID := none
          capacity := .default reservation.message
          sourceSequence := reservation.identity.sourceSequence
          reservation := some (n, reservation.identity) }

def cancelReservation (n : ℕ) : Handler P Unit := do
  match (← getOutgoing).reservations[n]? with
  | none => pure ()
  | some reservation =>
    if (← getOutgoing).reservedTaskIDs.get reservation.operationID = some n then
      modifyOutgoing fun o =>
        { o with
          reservedTaskIDs := o.reservedTaskIDs.delete reservation.operationID
          reservations := o.reservations.modify n fun r => { r with cancelled := true } }
    else pure ()

def cancel (operationID reason : String) : Handler P Unit := do
  let o ← getOutgoing
  let named := o.outboundByOperation.get operationID <|> o.responseOperations.get operationID <|>
    (o.outboundByOperation.values ++ o.pendingDataRequests.values).find? fun r =>
      (o.heap[r]?).any fun candidate => candidate.operationID = operationID
  match named with
  | none => pure ()
  | some r => completeOutbound w r .failed (some reason)

def isValidLinkNode (node : LinkNode) : Bool := !isBlank node.id && ':' ∉ node.id.toList

def announceSourceActivation (source : LinkNode) (generation : ℕ) (session : String) :
    Handler P Unit := do
  if w.node.role ≠ .gateway ∨ source.role ≠ .asset ∨ !isValidLinkNode source ∨ generation = 0 ∨
      isBlank session then pure ()
  else
    match ← activateSourceFence w source generation session with
    | some _ => pure ()
    | none =>
      let operationID := "source_active_" ++ source.id ++ "_" ++ toString generation
      let _ ← submit w (.control (.sourceActive operationID source generation session)) none none

def pause : Handler P Unit := do
  if ← isStopped then pure ()
  else
    let o ← getOutgoing
    modifyOutgoing fun o => { o with paused := true }
    match o.pumpRequested, o.pumpTimer with
    | true, some timer =>
      cancelTimer timer
      modifyOutgoing fun o => { o with pumpTimer := none, pumpRequested := false }
    | _, _ => pure ()

def resume : Handler P Unit := do
  if ← isStopped then pure ()
  else
    modifyOutgoing fun o => { o with paused := false }
    if (← getOutgoing).hasEligibleOutbound then requestPump 0 else pure ()

/-- Fail an operation because the service stops. -/
def failForStop (reason : String) (r : ℕ) : Handler P Unit :=
  withOutbound r () fun outbound =>
    if outbound.delivery = .confirmed then completeOutbound w r .failed (some reason)
    else failBestEffort w r reason

/-- The part of `stop` before the pending operations are failed. -/
def beginStop : Handler P Unit := do
  modify fun s => { s with stopped := true }
  let s ← get
  cancelTimer? s.outgoing.pumpTimer
  s.inbound.reassemblies.values.forM fun r => cancelTimer r.timer
  modifyInbound fun i => { i with reassemblies := .empty }
  cancelTimer? s.outgoing.committedOperationExpiryTimer
  modifyOutgoing fun o =>
    { o with
      paused := true
      pumpTimer := none
      pumpRequested := false
      reservedTaskIDs := .empty
      committedOperationExpiryTimer := none
      committedOperationExpiryAt := none
      committedOperationCapacityBlocked := false }

def stop (reason : String) : Handler P Unit := do
  if ← isStopped then pure ()
  else
    beginStop
    let o ← getOutgoing
    let pending := (o.queue ++ o.outboundByOperation.values ++ o.pendingDataRequests.values ++
      o.responseOperations.values ++ o.activeOutbound.toList).reverse.dedup.reverse
    pending.forM fun r => failForStop w reason r
    modifyOutgoing fun o => { o with queue := [], responseOperations := .empty }
    let i ← getInbound
    i.pendingInbound.values.forM fun p => cancelTimer p.timer
    modifyInbound fun i => { i with pendingInbound := .empty }
    note .stopped

def handleRadioDisconnect (reason : String) : Handler P Unit := do
  if ← isStopped then pure ()
  else
    stop w reason
    emit w (.linkError reason)

/-- The timer of the committed operations' expiry. -/
def committedOperationExpiry : Handler P Unit := do
  modifyOutgoing fun o =>
    { o with committedOperationExpiryTimer := none, committedOperationExpiryAt := none }
  pruneCommittedOperationIDs
  modifyOutgoing fun o => { o with committedOperationCapacityBlocked := false }
  emitCapacityAvailable w

def fire (task : TimerTask) : Handler P Unit :=
  match task with
  | .pump => pumpTimer w
  | .outboundDeadline r => outboundDeadline w r
  | .retryOutbound r => retryOutbound r
  | .radioSendRetry r => radioSendRetry r
  | .expireReassembly key => expireReassembly w key
  | .expirePendingInbound settlementID => expirePendingInbound w settlementID
  | .committedOperationExpiry => committedOperationExpiry w

/-- A timer that is due fires and is gone. -/
def fireTimer (handle : ℕ) : Handler P Unit := do
  let s ← get
  match s.clock.scheduled.find? fun t => t.handle = handle with
  | none => pure ()
  | some timer =>
    if timer.at_ ≤ s.clock.now then
      cancelTimer handle
      fire w timer.task
    else pure ()

end Methods

/-- The methods that an application calls, also from a listener; and what it does to the picture it
shares with the transport. -/
inductive Call (P : Parts)
  | submit (message : LinkMessage) (destination : Option LinkNode) (operationID : Option String)
  | reserveTaskDelivery (message : LinkMessage) (destination : LinkNode) (operationID : String)
  | dispatchReservation (n : ℕ)
  | cancelReservation (n : ℕ)
  | settleInbound (settlementID : String) (accepted : Bool) (reason : Option String)
  | settleInboundWithTaskReport (settlementID : String) (report : TaskReport)
      (destination : LinkNode) (operationID : Option String)
  | cancel (operationID reason : String)
  | announceSourceActivation (source : LinkNode) (generation : ℕ) (session : String)
  | pause
  | resume
  | stop (reason : String)
  | updatePicture (picture : P.Picture)

def Call.run (w : Wiring P) : Call P → Handler P Unit
  | .submit message destination operationID => do
    let _ ← Atlas.Link.submit w message destination operationID
  | .reserveTaskDelivery message destination operationID => do
    let _ ← Atlas.Link.reserveTaskDelivery w message destination operationID
  | .dispatchReservation n => Atlas.Link.dispatchReservation w n
  | .cancelReservation n => Atlas.Link.cancelReservation n
  | .settleInbound settlementID accepted reason => do
    let _ ← Atlas.Link.settleInbound w settlementID accepted reason
  | .settleInboundWithTaskReport settlementID report destination operationID => do
    let _ ← Atlas.Link.settleInboundWithTaskReport w settlementID report destination operationID
  | .cancel operationID reason => Atlas.Link.cancel w operationID reason
  | .announceSourceActivation source generation session =>
    Atlas.Link.announceSourceActivation w source generation session
  | .pause => Atlas.Link.pause
  | .resume => Atlas.Link.resume
  | .stop reason => Atlas.Link.stop w reason
  | .updatePicture picture =>
    modifyInbound fun i => { i with picture := i.picture.map fun _ => picture }

/-- What the outside does to a transport. -/
inductive Step (P : Parts)
  | call (call : Call P)
  | packet (packet : RadioPacket)
  | timer (handle : ℕ)
  | radioDone (result : Except String Unit)
  | disconnect (reason : String)
  | elapse (ms : ℕ)

def Step.run (w : Wiring P) : Step P → Handler P Unit
  | .call c => c.run w
  | .packet p => receive w p
  | .timer handle => fireTimer w handle
  | .radioDone result => resumePump w result
  | .disconnect reason => handleRadioDisconnect w reason
  | .elapse ms => modify fun s => { s with clock := { s.clock with now := s.clock.now + ms } }

/-- What the listeners call when they see an event in a state, at each depth of nesting. -/
abbrev Listeners (P : Parts) := ℕ → Event → State P → List (Call P)

/-- The transport with its listeners, whose calls nest at most so deep. -/
def Env.wired (env : Env P) (listeners : Listeners P) : ℕ → Wiring P
  | 0 => { env with react := fun _ s => s }
  | depth + 1 =>
    { env with
      react := fun event s =>
        (listeners depth event s).foldl
          (fun s call => (call.run (env.wired listeners depth) s).2) s }

/-- A transport that has just been constructed. -/
structure Beginning (P : Parts) where
  now : ℕ
  stateDecoder : P.Decoder
  picture : Option P.Picture
  stateEncoder : Option P.Encoder
  retryTimings : P.Timing

def Beginning.state (b : Beginning P) : State P where
  inbound :=
    { reassemblies := .empty, sourceFences := .empty, pendingInbound := .empty,
      settledInbound := .empty, taskDeliverySequences := .empty,
      stateDecoder := b.stateDecoder, picture := b.picture }
  outgoing :=
    { heap := [], queue := [], outboundByOperation := .empty, pendingDataRequests := .empty,
      responseOperations := .empty, reservations := [], reservedTaskIDs := .empty,
      operationResults := .empty, committedOperationIDs := .empty,
      committedOperationExpiryQueue := [], intermediateResponseConfirmations := [],
      sourceSequence := 0, nextOrder := 0, pumping := false, pumpRequested := false,
      pumpTimer := none, paused := false, activeOutbound := none, activeObjectMessageID := none,
      committedOperationExpiryTimer := none, committedOperationExpiryAt := none,
      committedOperationCapacityBlocked := false, inFlight := none,
      stateEncoder := b.stateEncoder, retryTimings := b.retryTimings, issuedIDs := 0 }
  clock := { now := b.now, nextHandle := 0, scheduled := [] }
  stopped := false
  notes := []
  fenceNotes := []

/-- The states a transport reaches, each step of the run meeting `Guard` in the state it is taken
in. -/
inductive Run (w : Wiring P) (Guard : State P → Step P → Prop) : State P → Prop
  | begin (b : Beginning P) : Run w Guard b.state
  | step {s : State P} (step : Step P) : Run w Guard s → Guard s step →
      Run w Guard (step.run w s).2

section Plain

/-- Components without a state of their own. -/
def plainParts : Parts where
  Picture := Unit
  Publication := Unit
  Encoder := Unit
  Decoder := Unit
  Baseline := Unit
  Timing := Unit

/-- An environment without Shared Picture and state deltas, whose codecs are tables of the frames
and messages that occur, and whose hash is a table of the settlement IDs that occur. -/
def plainEnv (node : LinkNode) (frames : List (String × LinkFrame))
    (messages : List (String × LinkMessage)) (digests : List (String × String)) : Env plainParts where
  node := node
  sourceGeneration := 1
  serviceSession := "s"
  privateChannel := 1
  frameEncoding := .canonicalJSON
  queueLimit := 256
  confirmedLimit := 64
  reassemblyLimit := 64
  reassemblyTimeoutMs := 5000
  retryJitterMs := 0
  retryIntervalMs := none
  adaptiveRetries := false
  queueLimit_pos := by decide
  confirmedLimit_pos := by decide
  reassemblyLimit_pos := by decide
  createID n := "id-" ++ toString n
  sha256 text := ((digests.find? (·.1 = text)).map (·.2)).getD ""
  retrySample _ := 0
  taskReportFingerprint report _ := some report.content
  maxPayloadBytes _ := 233
  pacingDelayMs _ := 0
  isLinkMessage _ := true
  serializeLinkMessage message :=
    match messages.find? (·.2 = message) with
    | some (text, _) => .ok text.toUTF8.toList
    | none => .ok ("{}".toUTF8.toList)
  deserializeLinkMessage bytes := (messages.find? (·.1.toUTF8.toList = bytes)).map (·.2)
  fragmentPayload payload _ _ _ := .ok [payload]
  decodeFrame bytes := (frames.find? (·.1.toUTF8.toList = bytes)).map (·.2)
  decodeMessagePayload bytes := some bytes
  isStateDeltaPayload _ := false
  requestOutputValid _ _ := true
  mutationOutputValid _ _ := true
  prepareState encoder _ _ _ := (encoder, none, ())
  commitFull encoder _ _ := encoder
  decodeState decoder _ _ := (decoder, none)
  activateSource picture _ _ _ := (picture, true)
  assignedAsset _ _ := none
  messagePublications _ _ _ _ := []
  applyPublication picture _ _ _ := picture
  estimateRetry timing _ _ _ _ := (timing, 5000)
  observeRetry timing _ _ _ _ _ _ := timing

/-! The bytes of a text are known from its characters, and a table is searched by them. -/

theorem byteArray_toList_loop (bytes : ByteArray) : ∀ (n i : ℕ) (read : Bytes),
    bytes.size - i = n →
      ByteArray.toList.loop bytes i read = read.reverse ++ bytes.data.toList.drop i
  | 0, i, read, hn => by
    have hlength : bytes.data.toList.length ≤ i := by
      have : bytes.data.toList.length = bytes.size := rfl
      omega
    unfold ByteArray.toList.loop
    rw [if_neg (by omega), List.drop_eq_nil_of_le hlength, List.append_nil]
  | n + 1, i, read, hn => by
    have hi : i < bytes.data.size := by
      have : bytes.data.size = bytes.size := rfl
      omega
    have hget : bytes.get! i = bytes.data.toList[i] := getElem!_pos bytes.data i hi
    unfold ByteArray.toList.loop
    rw [if_pos (by omega), byteArray_toList_loop bytes n (i + 1) _ (by omega), hget,
      List.drop_eq_getElem_cons (i := i) hi, List.reverse_cons, List.append_assoc]
    rfl

theorem toUTF8_ofList (text : List Char) :
    (String.ofList text).toUTF8.toList = text.flatMap String.utf8EncodeChar := by
  show ByteArray.toList.loop _ 0 [] = _
  rw [byteArray_toList_loop _ _ 0 [] rfl]
  show (List.utf8Encode text).data.toList = _
  rw [List.utf8Encode, List.toList_data_toByteArray]

/-- The bytes of the texts of a table. -/
def byBytes {α : Type} (table : List (String × α)) : List (Bytes × α) :=
  table.map fun e => (e.1.toUTF8.toList, e.2)

theorem find_byBytes {α : Type} (bytes : Bytes) : ∀ table : List (String × α),
    (table.find? (·.1.toUTF8.toList = bytes)).map (·.2) =
      ((byBytes table).find? (·.1 = bytes)).map (·.2)
  | [] => rfl
  | e :: table => by
    show _ = (((e.1.toUTF8.toList, e.2) :: byBytes table).find? (·.1 = bytes)).map (·.2)
    rw [List.find?_cons, List.find?_cons]
    cases decide (e.1.toUTF8.toList = bytes) with
    | true => rfl
    | false => exact find_byBytes bytes table

/-- The same environment, its tables read by the bytes. -/
theorem plainEnv_byBytes (node : LinkNode) (frames : List (String × LinkFrame))
    (messages : List (String × LinkMessage)) (digests : List (String × String)) :
    plainEnv node frames messages digests =
      { plainEnv node frames messages digests with
        decodeFrame := fun bytes => ((byBytes frames).find? (·.1 = bytes)).map (·.2)
        deserializeLinkMessage := fun bytes =>
          ((byBytes messages).find? (·.1 = bytes)).map (·.2) } := by
  have hframes : (plainEnv node frames messages digests).decodeFrame =
      fun bytes => ((byBytes frames).find? (·.1 = bytes)).map (·.2) :=
    funext fun bytes => find_byBytes bytes frames
  have hmessages : (plainEnv node frames messages digests).deserializeLinkMessage =
      fun bytes => ((byBytes messages).find? (·.1 = bytes)).map (·.2) :=
    funext fun bytes => find_byBytes bytes messages
  rw [← hframes, ← hmessages]

def plainBeginning : Beginning plainParts where
  now := 0
  stateDecoder := ()
  picture := none
  stateEncoder := none
  retryTimings := ()

/-- The state that steps lead to from another. -/
def runSteps (w : Wiring P) (steps : List (Step P)) (s : State P) : State P :=
  steps.foldl (fun s step => (step.run w s).2) s

theorem Run.steps {w : Wiring P} {Guard : State P → Step P → Prop} :
    ∀ (taken : List (Step P)) {s : State P}, Run w Guard s →
      (∀ earlier a later, taken = earlier ++ a :: later → Guard (runSteps w earlier s) a) →
      Run w Guard (runSteps w taken s)
  | [], _, h, _ => h
  | a :: rest, _, h, hguard =>
    Run.steps rest (h.step a (hguard [] a rest rfl)) fun earlier b later heq =>
      hguard (a :: earlier) b later (by rw [heq]; rfl)

end Plain

end Atlas.Link
