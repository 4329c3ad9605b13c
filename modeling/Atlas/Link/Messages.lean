import Mathlib

/-!
# Link messages and frames

The messages a Link carries, as far as the transport looks into them, and the frames they are cut
into. What the transport only passes on (a resource body, a Task report's body, a request's
parameters) is kept as text.
-/

namespace Atlas.Link

abbrev Bytes := List UInt8

inductive LinkRole
  | asset
  | gateway
  deriving DecidableEq, Repr

def LinkRole.text : LinkRole → String
  | .asset => "asset"
  | .gateway => "gateway"

structure LinkNode where
  role : LinkRole
  id : String
  deriving DecidableEq, Repr

inductive MessagePriority
  | safety
  | task
  | request
  | liveState
  | resource
  | objectContent
  deriving DecidableEq, Repr

inductive DeliveryClass
  | bestEffort
  | confirmed
  deriving DecidableEq, Repr

inductive ResourceType
  | entity
  | task
  | object
  deriving DecidableEq, Repr

def ResourceType.text : ResourceType → String
  | .entity => "entity"
  | .task => "task"
  | .object => "object"

inductive PublicationPath
  | field
  | gatewayFeed
  deriving DecidableEq, Repr

inductive ConfirmationState
  | notRequired
  | awaitingCore
  | coreConfirmed
  | coreRejected
  deriving DecidableEq, Repr

/-- A state publication; `resourceID` is the id of its resource, or of the one it deletes, and
`entityType` that of an Entity resource. -/
structure StatePublication where
  resourceType : ResourceType
  resourceID : String
  deleted : Bool
  entityType : Option String
  path : PublicationPath
  confirmation : ConfirmationState
  operationID : Option String
  content : String
  deriving DecidableEq, Repr

structure TaskResource where
  taskID : String
  assetID : String
  content : String
  deriving DecidableEq, Repr

structure TaskReport where
  taskID : String
  cancel : Bool
  content : String
  deriving DecidableEq, Repr

structure DataRequest where
  requestID : String
  operation : String
  targetID : Option String
  content : String
  deriving DecidableEq, Repr

structure DataResponse where
  requestID : String
  operation : String
  output : Option String
  nextCursor : Option String
  deriving DecidableEq, Repr

structure ResourceOperation where
  operation : String
  targetID : Option String
  content : String
  deriving DecidableEq, Repr

inductive SubscriptionAction
  | add
  | renew
  | remove
  deriving DecidableEq, Repr

structure ObjectContent where
  requestID : String
  objectID : String
  contentBase64 : String
  sha256 : String
  deriving DecidableEq, Repr

inductive SettlementOutcome
  | confirmed
  | rejected
  deriving DecidableEq, Repr

inductive ControlMessage
  | settled (outcome : SettlementOutcome) (operationID messageID : String) (reason : Option String)
  | missingChunks (operationID messageID : String) (chunks : List ℕ)
  | sourceActive (operationID : String) (source : LinkNode) (generation : ℕ) (session : String)
  deriving DecidableEq, Repr

def ControlMessage.operationID : ControlMessage → String
  | .settled _ operationID _ _ | .missingChunks operationID _ _ | .sourceActive operationID _ _ _ =>
    operationID

inductive LinkMessageType
  | state
  | taskDelivery
  | taskReport
  | dataRequest
  | dataResponse
  | resourceOperation
  | subscription
  | objectContent
  | control
  deriving DecidableEq, Repr

inductive LinkMessage
  | state (publication : StatePublication)
  | taskDelivery (cancellation : Bool) (task : TaskResource)
  | taskReport (report : TaskReport)
  | dataRequest (request : DataRequest)
  | dataResponse (response : DataResponse)
  | resourceOperation (operation : ResourceOperation)
  | subscription (action : SubscriptionAction) (selector : String)
  | objectContent (content : ObjectContent)
  | control (message : ControlMessage)
  deriving DecidableEq, Repr

def LinkMessage.type : LinkMessage → LinkMessageType
  | .state _ => .state
  | .taskDelivery _ _ => .taskDelivery
  | .taskReport _ => .taskReport
  | .dataRequest _ => .dataRequest
  | .dataResponse _ => .dataResponse
  | .resourceOperation _ => .resourceOperation
  | .subscription _ _ => .subscription
  | .objectContent _ => .objectContent
  | .control _ => .control

def messagePriority : LinkMessage → MessagePriority
  | .control _ => .safety
  | .taskDelivery cancellation _ => if cancellation then .safety else .task
  | .taskReport report => if report.cancel then .safety else .task
  | .dataRequest _ | .dataResponse _ | .subscription _ _ => .request
  | .objectContent _ => .objectContent
  | .resourceOperation operation =>
    if operation.operation = "task.cancel" then .safety
    else if operation.operation.startsWith "task." then .task
    else .resource
  | .state p =>
    if p.deleted = false ∧ p.resourceType = .entity ∧
        (p.entityType = some "asset" ∨ p.entityType = some "track") then .liveState
    else if p.resourceType = .task then .task
    else .resource

def deliveryClass : LinkMessage → DeliveryClass
  | .subscription action _ => if action = .renew then .bestEffort else .confirmed
  | .state _ | .control _ => .bestEffort
  | _ => .confirmed

def coalescingKey : LinkMessage → Option String
  | .state p => some (p.resourceType.text ++ ":" ++ p.resourceID)
  | _ => none

/-- An Asset publishes state on the field path and never as Core's. -/
def validStateSource (message : LinkMessage) (source : LinkNode) : Bool :=
  match message with
  | .state p =>
    source.role ≠ .asset ||
      (p.resourceType ≠ .task && p.path = .field &&
        (p.confirmation = .awaitingCore || p.confirmation = .notRequired))
  | _ => true

structure ReceiptIdentity where
  operationID : String
  messageID : String
  deriving DecidableEq, Repr

structure FrameIdentity where
  messageType : LinkMessageType
  source : LinkNode
  destination : Option LinkNode
  sourceGeneration : ℕ
  serviceSession : String
  sourceSequence : ℕ
  operationID : String
  messageID : String
  receipt : Option ReceiptIdentity
  priority : MessagePriority
  deriving DecidableEq, Repr

def maxLinkFragments : ℕ := 4096
def maxLinkMessageBytes : ℕ := 128 * 1024

/-- One chunk of a message. A frame that decodes has its index below its count. -/
structure LinkFrame where
  identity : FrameIdentity
  chunkIndex : ℕ
  chunkCount : ℕ
  payload : Bytes
  index_lt : chunkIndex < chunkCount
  count_le : chunkCount ≤ maxLinkFragments

inductive FrameEncoding
  | canonicalJSON
  | deflateV1
  | deflateV2
  | deflateV3
  | binaryV1
  | messageV1
  | messageV2
  deriving DecidableEq, Repr

structure RadioPacket where
  payload : Bytes
  receivedAt : ℕ
  radioPacketID : Option ℕ
  channel : ℕ

structure RadioSendOptions where
  channel : ℕ
  priority : MessagePriority
  requestID : Option ℕ
  deriving DecidableEq, Repr

inductive LinkOperationStatus
  | queued
  | sent
  | confirmed
  | responded
  | rejected
  | failed
  deriving DecidableEq, Repr

structure LinkOperationResult where
  operationID : String
  status : LinkOperationStatus
  reason : Option String := none
  output : Option String := none
  nextCursor : Option String := none
  completedAt : Option ℕ := none
  deriving DecidableEq, Repr

end Atlas.Link
