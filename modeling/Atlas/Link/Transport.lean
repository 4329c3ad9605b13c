import Atlas.Lib.OrderedMap
import Atlas.Link.Messages

/-!
# The state of a Link transport

A transport runs on one thread: a packet, a timer, a call or a finished radio send is handled to
its end before the next. While a handler runs it may emit events, and a listener may call the
transport back from inside the handler; `Wiring.react` is what the listeners do with an event.

Outbound messages are shared by reference between the queue and the tables of pending operations,
so they live in a heap and are named by their place in it. Timers are named by their handles, and
what a timer does when it fires is data.
-/

namespace Atlas.Link

/-- The components a transport works with, whose own state it does not look into. -/
structure Parts where
  Picture : Type
  Publication : Type
  Encoder : Type
  Decoder : Type
  Baseline : Type
  Timing : Type

def nodeKey (node : LinkNode) : String := node.role.text ++ ":" ++ node.id

structure SourceFence where
  generation : ℕ
  session : String
  deriving DecidableEq, Repr

structure Reassembly where
  identity : FrameIdentity
  chunks : OrderedMap ℕ Bytes
  chunkCount : ℕ
  byteLength : ℕ
  expiresAt : ℕ
  lastReceivedAt : ℕ
  radioPacketID : Option ℕ
  timer : ℕ

structure PendingInbound where
  source : LinkNode
  messageType : LinkMessageType
  taskID : Option String
  operationID : String
  messageID : String
  radioPacketID : Option ℕ
  timer : ℕ

structure AtomicTaskSettlementResult where
  accepted : Bool
  receipt : LinkOperationResult
  report : LinkOperationResult
  deriving DecidableEq, Repr

structure AtomicTask where
  fingerprint : String
  outcome : AtomicTaskSettlementResult

structure SettledInbound where
  result : SettlementOutcome
  expiresAt : ℕ
  atomicTask : Option AtomicTask

/-- A message event, as far as the application tells two of them apart. -/
structure MessageEvent where
  message : LinkMessage
  operationID : String
  settlementID : String
  source : LinkNode
  destination : Option LinkNode
  sourceGeneration : ℕ
  serviceSession : String
  sourceSequence : ℕ
  receivedAt : ℕ
  addressedToLocal : Bool
  requiresSettlement : Bool

inductive Event
  | message (event : MessageEvent)
  | operation (result : LinkOperationResult)
  | linkError (reason : String)
  | packetSent (messageID operationID : String) (bytes sentAt : ℕ)
  | capacityAvailable
  | pictureChanged

structure Outbound (P : Parts) where
  message : LinkMessage
  operationID : String
  identity : FrameIdentity
  frames : List Bytes
  pendingChunks : List ℕ
  delivery : DeliveryClass
  coalescingKey : Option String
  retryTimer : Option ℕ := none
  deadlineTimer : Option ℕ := none
  started : Bool := false
  order : ℕ
  queuedAt : ℕ
  firstSentAt : Option ℕ := none
  rttAmbiguous : Bool := false
  chunkSendCounts : List ℕ
  retrySequence : ℕ := 0
  sendOptions : RadioSendOptions
  commitStateBaseline : Option P.Baseline

/-- The identity and message of a reserved Task delivery, with the flag its `cancel` sets. -/
structure Reservation where
  message : LinkMessage
  destination : LinkNode
  operationID : String
  identity : FrameIdentity
  cancelled : Bool

structure CompoundReceiptPair where
  receipt : ℕ
  report : ℕ
  combinedFrame : Bytes
  originalFrame : Bytes
  originalIdentity : FrameIdentity
  originalSendOptions : RadioSendOptions
  receiptIdentity : ReceiptIdentity

/-- The radio send that `pump` awaits. -/
structure InFlight where
  outbound : ℕ
  chunkIndex : ℕ
  frame : Bytes
  pair : Option CompoundReceiptPair

inductive TimerTask
  | pump
  | outboundDeadline (outbound : ℕ)
  | retryOutbound (outbound : ℕ)
  | radioSendRetry (outbound : ℕ)
  | expireReassembly (key : String)
  | expirePendingInbound (settlementID : String)
  | committedOperationExpiry
  deriving DecidableEq, Repr

structure Scheduled where
  handle : ℕ
  at_ : ℕ
  task : TimerTask

structure Clock where
  now : ℕ
  nextHandle : ℕ
  scheduled : List Scheduled

/-- What the transport keeps of what it receives. -/
structure Inbound (P : Parts) where
  reassemblies : OrderedMap String Reassembly
  sourceFences : OrderedMap String SourceFence
  pendingInbound : OrderedMap String PendingInbound
  settledInbound : OrderedMap String SettledInbound
  taskDeliverySequences : OrderedMap String ℕ
  stateDecoder : P.Decoder
  picture : Option P.Picture

/-- What the transport keeps of what it sends. -/
structure Outgoing (P : Parts) where
  heap : List (Outbound P)
  queue : List ℕ
  outboundByOperation : OrderedMap String ℕ
  pendingDataRequests : OrderedMap String ℕ
  responseOperations : OrderedMap String ℕ
  reservations : List Reservation
  reservedTaskIDs : OrderedMap String ℕ
  operationResults : OrderedMap String LinkOperationResult
  committedOperationIDs : OrderedMap String (Option ℕ)
  committedOperationExpiryQueue : List (String × ℕ)
  intermediateResponseConfirmations : List String
  sourceSequence : ℕ
  nextOrder : ℕ
  pumping : Bool
  pumpRequested : Bool
  pumpTimer : Option ℕ
  paused : Bool
  activeOutbound : Option ℕ
  activeObjectMessageID : Option String
  committedOperationExpiryTimer : Option ℕ
  committedOperationExpiryAt : Option ℕ
  committedOperationCapacityBlocked : Bool
  inFlight : Option InFlight
  stateEncoder : Option P.Encoder
  retryTimings : P.Timing
  issuedIDs : ℕ

/-- What happened on the inbound side, for statements about whole runs. -/
inductive Note
  | received (frame : LinkFrame)
  | completed (identity : FrameIdentity) (bytes : Bytes)
  | delivered (settlementID : String)
  | answered (settlementID : String) (outcome : SettlementOutcome) (held : Bool)
  | recorded (settlementID : String) (outcome : SettlementOutcome) (at_ : ℕ)
  | pruned (settlementID : String) (at_ : ℕ)
  | stopped

inductive SourceUse
  | fenced
  | delivered
  | applied
  deriving DecidableEq, Repr

/-- What is done under a generation and session of a source: its fence is set, a message of it is
handed over, the picture takes a publication of it; with the fence of the source until then. -/
structure FenceNote where
  use : SourceUse
  source : LinkNode
  under : SourceFence
  fence : Option SourceFence

/-- The fields of a `LinkTransport`, its clock, and the notes of its run, the last one first. -/
structure State (P : Parts) where
  inbound : Inbound P
  outgoing : Outgoing P
  clock : Clock
  stopped : Bool
  notes : List Note
  fenceNotes : List FenceNote

/-- The options of a transport, and the functions and components it is built on. -/
structure Env (P : Parts) where
  node : LinkNode
  sourceGeneration : ℕ
  serviceSession : String
  privateChannel : ℕ
  frameEncoding : FrameEncoding
  queueLimit : ℕ
  confirmedLimit : ℕ
  reassemblyLimit : ℕ
  reassemblyTimeoutMs : ℕ
  retryJitterMs : ℕ
  retryIntervalMs : Option ℕ
  adaptiveRetries : Bool
  queueLimit_pos : 1 ≤ queueLimit
  confirmedLimit_pos : 1 ≤ confirmedLimit
  reassemblyLimit_pos : 1 ≤ reassemblyLimit
  createID : ℕ → String
  sha256 : String → String
  retrySample : String → ℕ
  taskReportFingerprint : TaskReport → LinkNode → Option String
  maxPayloadBytes : RadioSendOptions → ℕ
  pacingDelayMs : Bytes → ℕ
  isLinkMessage : LinkMessage → Bool
  serializeLinkMessage : LinkMessage → Except String Bytes
  deserializeLinkMessage : Bytes → Option LinkMessage
  fragmentPayload : Bytes → FrameIdentity → ℕ → FrameEncoding → Except String (List Bytes)
  decodeFrame : Bytes → Option LinkFrame
  decodeMessagePayload : Bytes → Option Bytes
  isStateDeltaPayload : Bytes → Bool
  requestOutputValid : DataRequest → Option String → Bool
  mutationOutputValid : ResourceOperation → Option String → Bool
  prepareState : P.Encoder → StatePublication → FrameIdentity → ℕ →
    P.Encoder × Option Bytes × P.Baseline
  commitFull : P.Encoder → P.Baseline → ℕ → P.Encoder
  decodeState : P.Decoder → Bytes → FrameIdentity → P.Decoder × Option LinkMessage
  activateSource : P.Picture → LinkNode → ℕ → String → P.Picture × Bool
  assignedAsset : P.Picture → String → Option String
  messagePublications : P.Picture → LinkMessage → FrameIdentity → ℕ → List P.Publication
  applyPublication : P.Picture → P.Publication → FrameIdentity → ℕ → P.Picture
  estimateRetry : P.Timing → MessagePriority → LinkNode → Option SourceFence → ℕ → P.Timing × ℕ
  observeRetry : P.Timing → MessagePriority → LinkNode → Option SourceFence → ℕ → ℕ → Bool →
    P.Timing

/-- A transport together with what its listeners do with an event: whatever they make of the
state by calling the transport back. -/
structure Wiring (P : Parts) extends Env P where
  react : Event → State P → State P

variable {P : Parts}

/-- A piece of a handler. -/
abbrev Handler (P : Parts) := StateM (State P)

def modifyInbound (f : Inbound P → Inbound P) : Handler P Unit :=
  modify fun s => { s with inbound := f s.inbound }

def modifyOutgoing (f : Outgoing P → Outgoing P) : Handler P Unit :=
  modify fun s => { s with outgoing := f s.outgoing }

def getInbound : Handler P (Inbound P) := do return (← get).inbound

def getOutgoing : Handler P (Outgoing P) := do return (← get).outgoing

def clockNow : Handler P ℕ := do return (← get).clock.now

def isStopped : Handler P Bool := do return (← get).stopped

def note (n : Note) : Handler P Unit := modify fun s => { s with notes := n :: s.notes }

def noteFence (use : SourceUse) (source : LinkNode) (under : SourceFence) : Handler P Unit :=
  modify fun s =>
    { s with
      fenceNotes :=
        ⟨use, source, under, s.inbound.sourceFences.get (nodeKey source)⟩ :: s.fenceNotes }

def Clock.schedule (c : Clock) (delayMs : ℕ) (task : TimerTask) : Clock :=
  { c with
    nextHandle := c.nextHandle + 1
    scheduled := c.scheduled ++ [⟨c.nextHandle, c.now + delayMs, task⟩] }

def Clock.cancel (c : Clock) (handle : ℕ) : Clock :=
  { c with scheduled := c.scheduled.filter (·.handle ≠ handle) }

/-- Schedule a timer and return its handle. -/
def schedule (delayMs : ℕ) (task : TimerTask) : Handler P ℕ := do
  let s ← get
  modify fun s => { s with clock := s.clock.schedule delayMs task }
  return s.clock.nextHandle

def cancelTimer (handle : ℕ) : Handler P Unit :=
  modify fun s => { s with clock := s.clock.cancel handle }

def cancelTimer? (handle : Option ℕ) : Handler P Unit :=
  match handle with
  | none => pure ()
  | some handle => cancelTimer handle

section Emitting

variable (w : Wiring P)

/-- Hand an event to the listeners, who may call the transport back before it goes on. -/
def emit (event : Event) : Handler P Unit := modify (w.react event)

/-- The application is handed a message; one that it has to settle is noted. -/
def emitMessage (event : MessageEvent) : Handler P Unit := do
  if event.requiresSettlement then note (.delivered event.settlementID) else pure ()
  noteFence .delivered event.source ⟨event.sourceGeneration, event.serviceSession⟩
  emit w (.message event)

def createID : Handler P String := do
  let o ← getOutgoing
  modifyOutgoing fun o => { o with issuedIDs := o.issuedIDs + 1 }
  return w.createID o.issuedIDs

end Emitting

end Atlas.Link
