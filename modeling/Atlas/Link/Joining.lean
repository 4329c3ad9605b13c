import Atlas.Link.Membership

/-!
# Joining at the Gateway

An Asset makes itself known by a discovery, answers the Gateway's challenge, and is admitted with
the next generation of its own. The handlers of packets wait at many places, and packets for the
same attempt may come in meanwhile; four collections keep what goes on for which attempt.
-/

namespace Atlas.Link

def maxPendingJoins : ℕ := 256
def pendingJoinRetentionMs : ℕ := 2 * 60000
def maxCompletedJoins : ℕ := 256
def completedJoinRetentionMs : ℕ := 5 * 60000

structure DiscoveryBeacon where
  joinAttemptID : String
  radioNodeID : ℕ
  assetID : String
  serviceSession : String
  deriving DecidableEq, Repr

structure JoinAcceptance where
  joinAttemptID : String
  gatewayNodeID : String
  sourceGeneration : ℕ
  channelIndex : ℕ
  channelName : String
  channelKeyBase64 : String
  deriving DecidableEq, Repr

inductive JoinWireMessage
  | discovery (beacon : DiscoveryBeacon)
  | challenge (joinAttemptID challenge gatewayProof : String)
  | response (joinAttemptID response : String)
  | accept (acceptance : JoinAcceptance)
  deriving DecidableEq, Repr

/-- A radio packet, with the join message that its payload decodes to. -/
structure JoinPacket where
  message : Option JoinWireMessage
  receivedAt : ℕ
  radioSource : Option ℕ
  channel : ℕ
  publicKeyEncrypted : Bool

structure PendingJoin where
  beacon : DiscoveryBeacon
  challenge : String
  gatewayProof : String
  radioNodeID : ℕ
  expiresAt : ℕ
  deriving DecidableEq, Repr

structure CompletedJoin where
  beacon : DiscoveryBeacon
  radioNodeID : ℕ
  acceptance : JoinAcceptance
  expiresAt : ℕ
  deriving DecidableEq, Repr

/-- Where the handler of a packet waits. -/
inductive Operation
  | challenging (beacon : DiscoveryBeacon) (source receivedAt : ℕ)
  | proving (beacon : DiscoveryBeacon) (source receivedAt : ℕ) (challenge : String)
  | sending
  | verifying (join : PendingJoin) (joinAttemptID : String) (source receivedAt : ℕ)
  | admitting (join : PendingJoin) (joinAttemptID : String) (source receivedAt mutation : ℕ)
  | notifying (join : PendingJoin) (joinAttemptID : String) (source receivedAt : ℕ)
      (acceptance : JoinAcceptance)
  | accepting (joinAttemptID : String)
  | done
  deriving DecidableEq, Repr

/-- An admission that has succeeded for a join attempt. -/
structure Admission where
  joinAttemptID : String
  assetID : String
  sourceGeneration : ℕ
  deriving DecidableEq, Repr

/-- The fields of a `GatewayJoinService` with its handlers and its membership store, what it has
sent, and three ghost records: the discoveries heard, the responses honoured, each with the radio
node it came from, and the admissions. -/
structure GatewayJoinService where
  closed : Bool
  pending : OrderedMap String PendingJoin
  completed : OrderedMap String CompletedJoin
  processing : OrderedMap String Unit
  pendingChallenges : OrderedMap String Unit
  operations : List Operation
  store : MembershipStore
  sent : List (JoinWireMessage × ℕ)
  heard : List (DiscoveryBeacon × ℕ)
  honoured : List (PendingJoin × String × ℕ)
  admissions : List Admission

def sameJoin (left right : DiscoveryBeacon) (leftRadioNodeID rightRadioNodeID : ℕ) : Bool :=
  left.joinAttemptID = right.joinAttemptID && left.assetID = right.assetID &&
    left.serviceSession = right.serviceSession && left.radioNodeID = right.radioNodeID &&
    leftRadioNodeID = rightRadioNodeID

namespace GatewayJoinService

variable (checks : TextChecks) (rendezvousChannel : ℕ)

def start (operation : Operation) (s : GatewayJoinService) : GatewayJoinService :=
  { s with operations := s.operations ++ [operation] }

def resume (id : ℕ) (operation : Operation) (s : GatewayJoinService) : GatewayJoinService :=
  { s with operations := s.operations.set id operation }

def send (message : JoinWireMessage) (destination : ℕ) (s : GatewayJoinService) :
    GatewayJoinService :=
  if s.closed then s else { s with sent := s.sent ++ [(message, destination)] }

def prunePending (now : ℕ) (s : GatewayJoinService) : GatewayJoinService :=
  { s with
    pending := s.pending.filter fun e => !(decide (e.2.expiresAt ≤ now) && !s.processing.has e.1) }

def pruneCompleted (now : ℕ) (s : GatewayJoinService) : GatewayJoinService :=
  let live := s.completed.filter fun e => now < e.2.expiresAt
  { s with completed := live.drop (live.size - maxCompletedJoins) }

/-- The oldest pending joins go until there are no more than there may be. -/
def trimPending (s : GatewayJoinService) : GatewayJoinService :=
  { s with pending := s.pending.drop (s.pending.size - maxPendingJoins) }

/-- A discovery, once what is over is pruned: known attempts are answered again, and for a new one
a challenge is asked for if there is room. -/
def discover (beacon : DiscoveryBeacon) (source receivedAt : ℕ) (s : GatewayJoinService) :
    GatewayJoinService :=
  match s.completed.get beacon.joinAttemptID with
  | some completed =>
    if sameJoin completed.beacon beacon completed.radioNodeID source then
      (s.send (.accept completed.acceptance) source).start .sending
    else s
  | none =>
    match s.pending.get beacon.joinAttemptID with
    | some existing =>
      if sameJoin existing.beacon beacon existing.radioNodeID source then
        (s.send (.challenge beacon.joinAttemptID existing.challenge existing.gatewayProof)
          source).start .sending
      else s
    | none =>
      if s.pendingChallenges.has beacon.joinAttemptID then s
      else if maxPendingJoins ≤ s.pending.size + s.pendingChallenges.size then s
      else
        { s with
          pendingChallenges := s.pendingChallenges.set beacon.joinAttemptID () }.start
            (.challenging beacon source receivedAt)

/-- A response is honoured from the node of the pending join, if none is processed already. -/
def respond (joinAttemptID : String) (source receivedAt : ℕ) (s : GatewayJoinService) :
    GatewayJoinService :=
  match s.pending.get joinAttemptID with
  | none => s
  | some join =>
    if join.radioNodeID ≠ source || s.processing.has joinAttemptID then s
    else
      { s with
        processing := s.processing.set joinAttemptID ()
        honoured := s.honoured ++ [(join, joinAttemptID, source)] }.start
          (.verifying join joinAttemptID source receivedAt)

def receive (packet : JoinPacket) (s : GatewayJoinService) : GatewayJoinService :=
  if s.closed || packet.channel ≠ rendezvousChannel then s
  else
    match packet.radioSource, packet.message with
    | some source, some (.discovery beacon) =>
      let s := s.prunePending packet.receivedAt
      if !validLinkNodeID checks beacon.assetID then s
      else
        let s := s.pruneCompleted packet.receivedAt
        if beacon.radioNodeID ≠ source then s
        else
          { s with heard := s.heard ++ [(beacon, source)] }.discover beacon source
            packet.receivedAt
    | some source, some (.response joinAttemptID _) =>
      let s := s.prunePending packet.receivedAt
      if packet.publicKeyEncrypted then s.respond joinAttemptID source packet.receivedAt else s
    | some _, some _ => s.prunePending packet.receivedAt
    | _, _ => s

/-- The challenge for an attempt is in, or has not come about. -/
def endChallenge (joinAttemptID : String) (id : ℕ) (s : GatewayJoinService) : GatewayJoinService :=
  { s with pendingChallenges := s.pendingChallenges.delete joinAttemptID }.resume id .done

def challenged (id : ℕ) (challenge : Option String) (s : GatewayJoinService) :
    GatewayJoinService :=
  match s.operations[id]? with
  | some (.challenging beacon source receivedAt) =>
    match challenge with
    | some challenge =>
      if s.closed then s.endChallenge beacon.joinAttemptID id
      else s.resume id (.proving beacon source receivedAt challenge)
    | none => s.endChallenge beacon.joinAttemptID id
  | _ => s

def proved (id : ℕ) (proof : Option String) (s : GatewayJoinService) : GatewayJoinService :=
  match s.operations[id]? with
  | some (.proving beacon source receivedAt challenge) =>
    match proof with
    | some proof =>
      if s.closed then s.endChallenge beacon.joinAttemptID id
      else
        let join : PendingJoin :=
          ⟨beacon, challenge, proof, source, receivedAt + pendingJoinRetentionMs⟩
        let s := { s with pending := s.pending.set beacon.joinAttemptID join }
        let s := (s.endChallenge beacon.joinAttemptID id).trimPending
        (s.send (.challenge beacon.joinAttemptID challenge proof) source).resume id .sending
    | none => s.endChallenge beacon.joinAttemptID id
  | _ => s

/-- The handler of a response ends, whichever way. -/
def endResponse (joinAttemptID : String) (id : ℕ) (s : GatewayJoinService) : GatewayJoinService :=
  { s with
    pending := s.pending.delete joinAttemptID
    processing := s.processing.delete joinAttemptID }.resume id .done

/-- The answer to the challenge is accepted or not, or verifying it has thrown. -/
def verified (id : ℕ) (accepted : Option Bool) (s : GatewayJoinService) : GatewayJoinService :=
  match s.operations[id]? with
  | some (.verifying join joinAttemptID source receivedAt) =>
    if accepted = some true ∧ s.closed = false then
      match s.store.admitAsset checks join.beacon.assetID with
      | (store, some mutation) =>
        { s with store := store }.resume id
          (.admitting join joinAttemptID source receivedAt mutation)
      | (_, none) => s.endResponse joinAttemptID id
    else s.endResponse joinAttemptID id
  | _ => s

def acceptanceOf (joinAttemptID : String) (m : GatewayMembership) (sourceGeneration : ℕ) :
    JoinAcceptance where
  joinAttemptID := joinAttemptID
  gatewayNodeID := m.gatewayNodeID
  sourceGeneration := sourceGeneration
  channelIndex := m.channelIndex
  channelName := m.channelName
  channelKeyBase64 := m.channelKeyBase64

/-- The change of the membership has settled. -/
def admitted (id : ℕ) (s : GatewayJoinService) : GatewayJoinService :=
  match s.operations[id]? with
  | some (.admitting join joinAttemptID source receivedAt mutation) =>
    match s.store.mutations[mutation]? with
    | some ⟨_, _, .succeeded m sourceGeneration⟩ =>
      let s : GatewayJoinService := { s with
        admissions := s.admissions ++ [⟨joinAttemptID, join.beacon.assetID, sourceGeneration⟩] }
      if s.closed then s.endResponse joinAttemptID id
      else
        s.resume id (.notifying join joinAttemptID source receivedAt
          (acceptanceOf joinAttemptID m sourceGeneration))
    | some ⟨_, _, .failed⟩ => s.endResponse joinAttemptID id
    | _ => s
  | _ => s

/-- The new source has been told of, or that has thrown. -/
def notified (id : ℕ) (told : Bool) (s : GatewayJoinService) : GatewayJoinService :=
  match s.operations[id]? with
  | some (.notifying join joinAttemptID source receivedAt acceptance) =>
    if told && !s.closed then
      let completed : CompletedJoin :=
        ⟨join.beacon, join.radioNodeID, acceptance, receivedAt + completedJoinRetentionMs⟩
      let s := { s with completed := s.completed.set joinAttemptID completed }
      ((s.pruneCompleted receivedAt).send (.accept acceptance) source).resume id
        (.accepting joinAttemptID)
    else s.endResponse joinAttemptID id
  | _ => s

/-- A packet is on its way, or sending it has failed. -/
def settledSend (id : ℕ) (s : GatewayJoinService) : GatewayJoinService :=
  match s.operations[id]? with
  | some .sending => s.resume id .done
  | some (.accepting joinAttemptID) => s.endResponse joinAttemptID id
  | _ => s

def close (s : GatewayJoinService) : GatewayJoinService :=
  { s with closed := true, pending := .empty, completed := .empty, pendingChallenges := .empty }

end GatewayJoinService

inductive JoinEvent
  | packet (packet : JoinPacket)
  | challenged (id : ℕ) (challenge : Option String)
  | proved (id : ℕ) (proof : Option String)
  | verified (id : ℕ) (accepted : Option Bool)
  | admitted (id : ℕ)
  | notified (id : ℕ) (told : Bool)
  | settledSend (id : ℕ)
  | store (event : StoreEvent)
  | close

def GatewayJoinService.step (checks : TextChecks) (rendezvousChannel : ℕ)
    (s : GatewayJoinService) : JoinEvent → GatewayJoinService
  | .packet packet => s.receive checks rendezvousChannel packet
  | .challenged id challenge => s.challenged id challenge
  | .proved id proof => s.proved id proof
  | .verified id accepted => s.verified checks id accepted
  | .admitted id => s.admitted id
  | .notified id told => s.notified id told
  | .settledSend id => s.settledSend id
  | .store event => { s with store := s.store.step checks event }
  | .close => s.close

/-- A service over a membership file, before anything has happened. -/
def GatewayJoinService.new (file : GatewayMembership) : GatewayJoinService where
  closed := false
  pending := .empty
  completed := .empty
  processing := .empty
  pendingChallenges := .empty
  operations := []
  store := ⟨file, [], none, []⟩
  sent := []
  heard := []
  honoured := []
  admissions := []

inductive JoinReachable (checks : TextChecks) (rendezvousChannel : ℕ) :
    GatewayJoinService → Prop
  | new (file : GatewayMembership) : JoinReachable checks rendezvousChannel (.new file)
  | step {s : GatewayJoinService} (event : JoinEvent) : JoinReachable checks rendezvousChannel s →
    JoinReachable checks rendezvousChannel (s.step checks rendezvousChannel event)

end Atlas.Link
