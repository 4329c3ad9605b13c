import Atlas.Lib.OrderedMap

/-!
# The Gateway's membership file

One file holds the Gateway's generation and that of each Asset it has admitted. Every change reads
the file, changes it and writes it anew; the changes of one path run one after the other, each
chained to the promise of the one before, whether that one succeeds or not.
-/

namespace Atlas.Link

def maxSafeInteger : ℕ := 2 ^ 53 - 1
def membershipSourceIdentityLimit : ℕ := 4096

structure GatewayMembership where
  gatewayNodeID : String
  gatewayGeneration : ℕ
  channelIndex : ℕ
  channelName : String
  channelKeyBase64 : String
  assetGenerations : OrderedMap String ℕ

/-- How texts are read: whether one is blank, and whether one is a channel key in base 64. -/
structure TextChecks where
  isBlank : String → Bool
  isChannelKey : String → Bool

def validLinkNodeID (checks : TextChecks) (id : String) : Bool :=
  !checks.isBlank id && !id.toList.contains ':'

def validateMembership (checks : TextChecks) (m : GatewayMembership) : Bool :=
  !checks.isBlank m.gatewayNodeID && m.gatewayGeneration ≤ maxSafeInteger &&
    1 ≤ m.channelIndex && m.channelIndex ≤ 7 && m.channelName = "ATLAS" &&
    checks.isChannelKey m.channelKeyBase64 &&
    m.assetGenerations.entries.all fun e => e.1 ≠ "" && 1 ≤ e.2 && e.2 ≤ maxSafeInteger

inductive MutationKind
  | activateGateway
  | admitAsset (assetID : String)
  deriving DecidableEq, Repr

/-- How far a change has come, at each point where it waits. -/
inductive MutationStage
  | waiting
  | preparing (membership : GatewayMembership) (sourceGeneration : ℕ)
  | writing (membership : GatewayMembership) (sourceGeneration : ℕ)
  | syncing (membership : GatewayMembership) (sourceGeneration : ℕ)
  | failed
  | succeeded (membership : GatewayMembership) (sourceGeneration : ℕ)

def MutationStage.settled : MutationStage → Bool
  | .failed | .succeeded _ _ => true
  | _ => false

/-- A change and the one it is chained to. -/
structure Mutation where
  kind : MutationKind
  previous : Option ℕ
  stage : MutationStage

/-- The file, the changes asked for by now, the last one of the chain, and the Assets' generations
returned, as a ghost record. -/
structure MembershipStore where
  file : GatewayMembership
  mutations : List Mutation
  tail : Option ℕ
  returned : List (String × ℕ)

namespace MembershipStore

variable (checks : TextChecks)

/-- Ask for a change, chained to the last one. -/
def mutate (kind : MutationKind) (s : MembershipStore) : MembershipStore × ℕ :=
  ({ s with
      mutations := s.mutations ++ [⟨kind, s.tail, .waiting⟩]
      tail := some s.mutations.length },
    s.mutations.length)

/-- Ask for an Asset's next generation; nothing is asked for if the Asset's ID is none. -/
def admitAsset (assetID : String) (s : MembershipStore) : MembershipStore × Option ℕ :=
  if validLinkNodeID checks assetID then
    let asked := s.mutate (.admitAsset assetID)
    (asked.1, some asked.2)
  else (s, none)

def setStage (id : ℕ) (stage : MutationStage) (s : MembershipStore) : MembershipStore :=
  { s with mutations := s.mutations.modify id fun m => { m with stage := stage } }

def settled (id : ℕ) (s : MembershipStore) : Bool :=
  (s.mutations[id]?).any fun m => m.stage.settled

/-- The change once the file is read: an Asset's next generation, if there is room for the Asset. -/
def changed (kind : MutationKind) (m : GatewayMembership) : MutationStage :=
  match kind with
  | .activateGateway => .writing { m with gatewayGeneration := m.gatewayGeneration + 1 } 0
  | .admitAsset assetID =>
    if m.assetGenerations.has assetID = false ∧
        membershipSourceIdentityLimit ≤ m.assetGenerations.size then .failed
    else .preparing m ((m.assetGenerations.get assetID).getD 0 + 1)

/-- A change starts once the one it is chained to has settled. It fails where the file cannot be
read or is no membership. -/
def begin (id : ℕ) (readable : Bool) (s : MembershipStore) : MembershipStore :=
  match s.mutations[id]? with
  | some ⟨kind, previous, .waiting⟩ =>
    if previous.any fun p => !s.settled p then s
    else if readable && validateMembership checks s.file then
      s.setStage id (changed kind s.file)
    else s.setStage id .failed
  | _ => s

/-- What the caller prepares for its Asset's generation is done, or has thrown. -/
def prepare (id : ℕ) (prepared : Bool) (s : MembershipStore) : MembershipStore :=
  match s.mutations[id]? with
  | some ⟨.admitAsset assetID, _, .preparing m sourceGeneration⟩ =>
    if prepared then
      s.setStage id (.writing
        { m with assetGenerations := m.assetGenerations.set assetID sourceGeneration }
        sourceGeneration)
    else s.setStage id .failed
  | _ => s

/-- The new file takes the place of the old one, or writing has failed before. -/
def rename (id : ℕ) (written : Bool) (s : MembershipStore) : MembershipStore :=
  match s.mutations[id]? with
  | some ⟨_, _, .writing m sourceGeneration⟩ =>
    if written && validateMembership checks m then
      { s with file := m }.setStage id (.syncing m sourceGeneration)
    else s.setStage id .failed
  | _ => s

def returns (kind : MutationKind) (sourceGeneration : ℕ) : List (String × ℕ) :=
  match kind with
  | .activateGateway => []
  | .admitAsset assetID => [(assetID, sourceGeneration)]

/-- The directory is synced, or that has failed although the file is in place. -/
def sync (id : ℕ) (synced : Bool) (s : MembershipStore) : MembershipStore :=
  match s.mutations[id]? with
  | some ⟨kind, _, .syncing m sourceGeneration⟩ =>
    if synced then
      { s with returned := s.returned ++ returns kind sourceGeneration }.setStage id
        (.succeeded m sourceGeneration)
    else s.setStage id .failed
  | _ => s

/-- The chain is dropped once its last change has settled. -/
def dropTail (s : MembershipStore) : MembershipStore :=
  if s.tail.any s.settled then { s with tail := none } else s

end MembershipStore

/-- What goes on with the changes of a path. -/
inductive StoreEvent
  | activateGateway
  | admitAsset (assetID : String)
  | begin (id : ℕ) (readable : Bool)
  | prepare (id : ℕ) (prepared : Bool)
  | rename (id : ℕ) (written : Bool)
  | sync (id : ℕ) (synced : Bool)
  | dropTail

def MembershipStore.step (checks : TextChecks) (s : MembershipStore) :
    StoreEvent → MembershipStore
  | .activateGateway => (s.mutate .activateGateway).1
  | .admitAsset assetID => (s.admitAsset checks assetID).1
  | .begin id readable => s.begin checks id readable
  | .prepare id prepared => s.prepare id prepared
  | .rename id written => s.rename checks id written
  | .sync id synced => s.sync id synced
  | .dropTail => s.dropTail

end Atlas.Link
