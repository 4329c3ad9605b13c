import Atlas.Lib.Interleaving
import Atlas.Lib.OrderedMap

/-!
# The deployment mutation lock

Processes that share a configuration directory and a Docker engine exclude each other by the lock
file and the lock network. Every operation on a file or on Docker is one operation of a program, and
the programs of the processes run beside each other. A lock file is written under a temporary name
first, so that it appears with its contents. Random numbers do not collide. What depends on more
than the lock is left open: the program asks which way it goes.
-/

namespace Atlas.Cli.Mutation

open Interleaving

section Files

/-- A process, by its number; numbers are not used again. -/
abbrev ProcessId : Type := ℕ

inductive Operation where
  | engineRecovery
  | pluginDisable
  | deployment
  deriving DecidableEq, Repr

inductive PluginDisableTarget where
  | ready
  | stopped
  deriving DecidableEq, Repr

/-- What a lock file holds. The boot and the start of a process identify it (`identity`). -/
structure MutationLockOwner where
  id : ℕ
  pid : ProcessId
  operation : Option Operation
  dockerEngineId : Option String
  pluginDisableTarget : Option PluginDisableTarget
  processGroupId : Option ℕ
  identity : Option ProcessId
  deriving DecidableEq, Repr

/-- The name of a recovery claim. -/
structure Claim where
  pid : ProcessId
  nonce : ℕ
  deriving DecidableEq, Repr

/-- The lock network: its ID, the labels that tell lock and attempt, and who has created it. -/
structure Network where
  id : ℕ
  lockId : ℕ
  attempt : ℕ
  creator : ProcessId
  deriving DecidableEq, Repr

/-- What the processes share. `seen` is a ghost: what each has last read in the lock file. -/
structure World where
  lock : Option MutationLockOwner
  claims : OrderedMap Claim MutationLockOwner
  network : Option Network
  dead : ProcessId → Bool
  groups : ℕ → Bool
  next : ℕ
  acting : ProcessId → Bool
  seen : ProcessId → Option MutationLockOwner

/-- The process with the identity that the owner names has its number. -/
def World.isAlive (w : World) (o : MutationLockOwner) : Bool :=
  !w.dead o.pid && o.identity.all (· = o.pid)

def World.isProcessGroupAlive (w : World) (g : Option ℕ) : Bool := g.any w.groups

def World.isMutationOwnerActive (w : World) (o : MutationLockOwner) : Bool :=
  w.isAlive o || w.isProcessGroupAlive o.processGroupId

end Files

section Operations

/-- The operations of a process, with the type each answers in. -/
inductive Op : Type → Type where
  | random : Op ℕ
  | claimNames : Op (List Claim)
  | createLock (o : MutationLockOwner) : Op Bool
  | lockExists : Op Bool
  | readLock : Op (Option MutationLockOwner)
  | writeLock (o : MutationLockOwner) : Op Unit
  | unlinkLock : Op Bool
  | renameLock (c : Claim) : Op Bool
  | claimExists (c : Claim) : Op Bool
  | readClaim (c : Claim) : Op (Option MutationLockOwner)
  | writeClaim (c : Claim) (o : MutationLockOwner) : Op Unit
  | unlinkClaim (c : Claim) : Op Bool
  | renameClaim (c c' : Claim) : Op Bool
  | linkClaim (c : Claim) : Op (Option Bool)
  | isMutationOwnerActive (o : MutationLockOwner) : Op Bool
  | isProcessGroupAlive (g : Option ℕ) : Op Bool
  | startGroup : Op ℕ
  | endGroup (g : ℕ) : Op Unit
  | createNetwork (lockId attempt : ℕ) : Op (Option ℕ)
  | inspectNetwork : Op (Option Network)
  | removeNetwork (id : ℕ) : Op Bool
  | act (acting : Bool) : Op Unit
  | choose : Op Bool
  | count : Op ℕ

/-- A link of a claim to the lock file: whether it is made, or none where there is no claim. -/
def World.linkClaim (w : World) (c : Claim) : Option Bool × World :=
  match w.claims.get c, w.lock with
  | none, _ => (none, w)
  | some _, some _ => (some false, w)
  | some o, none => (some true, { w with lock := some o })

/-- An operation by a process. What is left open goes one way here. -/
def perform (p : ProcessId) : {β : Type} → Op β → World → β × World
  | _, .random, w => (w.next, { w with next := w.next + 1 })
  | _, .claimNames, w => (w.claims.keys, w)
  | _, .createLock o, w =>
    if w.lock = none then (true, { w with lock := some o }) else (false, w)
  | _, .lockExists, w => (w.lock.isSome, w)
  | _, .readLock, w => (w.lock, { w with seen := Function.update w.seen p w.lock })
  | _, .writeLock o, w => ((), { w with lock := some o })
  | _, .unlinkLock, w => (w.lock.isSome, { w with lock := none })
  | _, .renameLock c, w =>
    match w.lock with
    | none => (false, w)
    | some o => (true, { w with lock := none, claims := w.claims.set c o })
  | _, .claimExists c, w => (w.claims.has c, w)
  | _, .readClaim c, w => (w.claims.get c, w)
  | _, .writeClaim c o, w => ((), { w with claims := w.claims.set c o })
  | _, .unlinkClaim c, w => (w.claims.has c, { w with claims := w.claims.delete c })
  | _, .renameClaim c c', w =>
    match w.claims.get c with
    | none => (false, w)
    | some o => (true, { w with claims := (w.claims.delete c).set c' o })
  | _, .linkClaim c, w => w.linkClaim c
  | _, .isMutationOwnerActive o, w => (w.isMutationOwnerActive o, w)
  | _, .isProcessGroupAlive g, w => (w.isProcessGroupAlive g, w)
  | _, .startGroup, w =>
    (w.next, { w with next := w.next + 1, groups := Function.update w.groups w.next true })
  | _, .endGroup g, w => ((), { w with groups := Function.update w.groups g false })
  | _, .createNetwork lockId attempt, w =>
    if w.network = none then
      (some w.next, { w with next := w.next + 1, network := some ⟨w.next, lockId, attempt, p⟩ })
    else (none, w)
  | _, .inspectNetwork, w => (w.network, w)
  | _, .removeNetwork id, w =>
    if w.network.any (·.id = id) then (true, { w with network := none }) else (false, w)
  | _, .act acting, w => ((), { w with acting := Function.update w.acting p acting })
  | _, .choose, w => (false, w)
  | _, .count, w => (0, w)

/-- What an operation can do: a process may look ambiguous, and what is left open goes any way. -/
inductive Performs (p : ProcessId) : {β : Type} → Op β → World → β → World → Prop
  | performs {β : Type} (op : Op β) (w : World) :
      Performs p op w (perform p op w).1 (perform p op w).2
  | ambiguous (o : MutationLockOwner) (w : World) : Performs p (.isMutationOwnerActive o) w true w
  | chosen (b : Bool) (w : World) : Performs p .choose w b w
  | counted (n : ℕ) (w : World) : Performs p .count w n w

end Operations

section Programs

/-- Why a method throws; a cleanup error leaves something to recover. -/
inductive Fault where
  | failed (message : String)
  | cleanup (message : String)
  deriving DecidableEq, Repr

structure DockerMutationLock where
  networkId : ℕ
  attempt : ℕ
  owner : MutationLockOwner
  deriving DecidableEq, Repr

/-- The private fields of the application, and the variables of `#withMutationLock`. -/
structure Memory where
  activeMutationLock : Option MutationLockOwner
  idleRecoverableMutationLock : Option MutationLockOwner
  activeMutationRecoveryPath : Option Claim
  owner : Option MutationLockOwner
  dockerLock : Option DockerMutationLock
  dockerLockReleased : Bool
  dockerLockAcquisitionNeedsRecovery : Bool
  deriving DecidableEq, Repr

def Memory.empty : Memory := ⟨none, none, none, none, none, false, false⟩

abbrev Proc (α : Type) : Type 1 := ExceptT Fault (StateT Memory (Prog Op)) α

def ask {α : Type} (op : Op α) : Proc α := ExceptT.lift (StateT.lift (Prog.ask op))

def fail {α : Type} (message : String) : Proc α := throw (.failed message)

def failCleanup {α : Type} (message : String) : Proc α := throw (.cleanup message)

def ensure (condition : Bool) (message : String) : Proc Unit :=
  if condition then pure () else fail message

/-- A statement under a condition. -/
def whenever (condition : Bool) (p : Proc Unit) : Proc Unit := if condition then p else pure ()

/-- Whatever may throw here. -/
def mayThrow : Proc Unit := do ensure (!(← ask .choose)) "failed"

def isRecoverableMutationOwner (o : MutationLockOwner) : Bool :=
  match o.operation with
  | some .pluginDisable => true
  | some .engineRecovery => true
  | some .deployment => true
  | none => o.identity.isSome

def sameMutationLockIdentity (left right : MutationLockOwner) : Bool :=
  left.id = right.id && left.pid = right.pid && left.identity = right.identity

def sameMutationLockOwner (left right : MutationLockOwner) : Bool :=
  sameMutationLockIdentity left right && left.dockerEngineId = right.dockerEngineId
    && left.operation = right.operation && left.pluginDisableTarget = right.pluginDisableTarget
    && left.processGroupId = right.processGroupId

/-- `#readMutationLockOwner` of what has been read. -/
def ownerRead (o : Option MutationLockOwner) : Proc MutationLockOwner :=
  match o with
  | some o => return o
  | none => fail "Atlas Core found an invalid deployment mutation lock"

def readLockOwner : Proc MutationLockOwner := do ownerRead (← ask .readLock)

def readClaimOwner (c : Claim) : Proc MutationLockOwner := do ownerRead (← ask (.readClaim c))

def setRecoveryPath (path : Option Claim) : Proc Unit :=
  modify fun m => { m with activeMutationRecoveryPath := path }

end Programs

section Acquiring

variable (p : ProcessId) (engine : String)

/-- The owner that `#acquireMutationLock` makes, with `createOwnerIdentity`. -/
def newOwner (id : ℕ) : MutationLockOwner :=
  ⟨id, p, some .deployment, some engine, none, none, some p⟩

def isIdleRecoverableMutationOwner (o : MutationLockOwner) : Proc Bool := do
  let m ← get
  if m.activeMutationLock = none ∧ o.pid = p then
    let alive ← ask (.isProcessGroupAlive o.processGroupId)
    return !alive && m.idleRecoverableMutationLock.any (sameMutationLockOwner o)
  else return false

/-- The owner may be taken over: it is not active, or it is this process's own idle one. -/
def isReclaimable (o : MutationLockOwner) : Proc Bool := do
  if isRecoverableMutationOwner o then
    if ← ask (.isMutationOwnerActive o) then isIdleRecoverableMutationOwner p o else return true
  else return false

/-- `#claimMutationRecovery` of a source that `rename` renames. -/
def claimMutationRecovery (rename : Claim → Op Bool) : Proc (Option Claim) := do
  let nonce ← ask .random
  if ← ask (rename ⟨p, nonce⟩) then
    setRecoveryPath (some ⟨p, nonce⟩)
    return some ⟨p, nonce⟩
  else return none

/-- `#restoreMutationRecoveryLock` once the claim is linked or the lock file is there. -/
def checkRestored (c : Claim) (linked : Option Bool) : Proc Unit :=
  match linked with
  | some true => return
  | some false => do
    let claimed ← readClaimOwner c
    let current ← readLockOwner
    if sameMutationLockOwner current claimed then return
    else failCleanup "Atlas Core mutation lock changed ownership during recovery cleanup."
  | none => failCleanup "Atlas Core could not restore its mutation lock"

def unlinkRestored (c : Claim) : Proc Unit := do
  ensure (← ask (.unlinkClaim c)) "ENOENT"
  setRecoveryPath none

def restoreMutationRecoveryLock : Proc Unit := do
  match (← get).activeMutationRecoveryPath with
  | none => return
  | some c => do
    if ← ask (.claimExists c) then
      checkRestored c (← ask (.linkClaim c))
      unlinkRestored c
    else setRecoveryPath none

/-- What is left of a lock that this process has, if it still is in the lock file. -/
def unlinkOwned : Proc Unit := do
  if ← ask .unlinkLock then return else failCleanup "Atlas Core could not remove its mutation lock"

def releaseMutationLock (o : MutationLockOwner) : Proc Unit := do
  if ← ask .lockExists then
    match ← ask .readLock with
    | none => failCleanup "Atlas Core could not read its mutation lock"
    | some current =>
      whenever (sameMutationLockIdentity current o && current.processGroupId = none) unlinkOwned
  else return

/-- A lock file beside a claim goes, if its owner does not stand against it. -/
def removeAbandonedLock : Proc Unit := do
  if ← ask .lockExists then
    let current ← readLockOwner
    ensure (!(← ask (.isMutationOwnerActive current)))
      "Atlas Core mutation lock changed ownership during deployment recovery."
    ensure (← ask .unlinkLock) "ENOENT"
  else return

/-- The owner in a claim that has been renamed. -/
def takeClaim (c : Claim) : Proc MutationLockOwner := do
  let o ← readClaimOwner c
  ensure (isRecoverableMutationOwner o)
    "Atlas Core mutation lock changed ownership during deployment recovery."
  ensure (!(← ask (.isMutationOwnerActive o)))
    "Atlas Core mutation lock changed ownership during deployment recovery."
  removeAbandonedLock
  return o

/-- The claim gets the name back that it had. -/
def giveBackClaim (source : Claim) (e : Fault) : Proc MutationLockOwner := do
  match (← get).activeMutationRecoveryPath with
  | none => throw e
  | some c => do
    if ← ask (.claimExists c) then
      if ← ask (.claimExists source) then throw e else
        ensure (← ask (.renameClaim c source)) "ENOENT"
        setRecoveryPath none
        throw e
    else throw e

/-- The recovery of the only claim. -/
def claimAbandoned (source : Claim) : Proc (Option MutationLockOwner) := do
  let o ← readClaimOwner source
  ensure (isRecoverableMutationOwner o) "Atlas Core found an invalid deployment recovery claim"
  ensure (!(← ask (.isMutationOwnerActive o))) "Atlas Core deployment mutation is locked"
  match ← claimMutationRecovery p (.renameClaim source) with
  | none => return none
  | some c => some <$> tryCatch (takeClaim c) (giveBackClaim source)

def claimAbandonedMutationRecovery : Proc (Option MutationLockOwner) := do
  match ← ask .claimNames with
  | [] => return none
  | [source] => claimAbandoned p source
  | _ => fail "Atlas Core found multiple deployment recovery claims"

structure Acquired where
  owner : MutationLockOwner
  recovered : Bool
  deriving DecidableEq, Repr

/-- A lock file that has been renamed, if its owner is still the one to take over. -/
def checkTaken (c : Claim) : Proc (Option Acquired) := do
  let o ← readClaimOwner c
  if ← isReclaimable p o then return some ⟨o, true⟩ else return none

/-- A throw gives the claim back first. -/
def restoreAndThrow (e : Fault) : Proc (Option Acquired) := do
  restoreMutationRecoveryLock
  throw e

/-- The lock file of an owner that may be taken over becomes a claim. -/
def takeLock : Proc (Option Acquired) := do
  match ← claimMutationRecovery p .renameLock with
  | none => return none
  | some c => do
    match ← tryCatch (checkTaken p c) restoreAndThrow with
    | some acquired => return some acquired
    | none => do
      restoreMutationRecoveryLock
      return none

/-- The lock file that stands in the way. -/
def contendLock : Proc (Option Acquired) := do
  ensure (← ask .lockExists) "ENOENT"
  match ← ask .readLock with
  | none => fail "Atlas Core deployment mutation is locked"
  | some existing => do
    if ← isReclaimable p existing then takeLock p
    else fail "Atlas Core deployment mutation is locked"

/-- A new lock file counts only where there is no claim. -/
def keepCreated (o : MutationLockOwner) : Proc (Option Acquired) := do
  if (← ask .claimNames) = [] then return some ⟨o, false⟩ else
    releaseMutationLock o
    return none

/-- One pass of the loop of `#acquireMutationLock`; none is `continue`. -/
def acquireMutationLock (o : MutationLockOwner) : Proc (Option Acquired) := do
  match ← claimAbandonedMutationRecovery p with
  | some claimed => return some ⟨claimed, true⟩
  | none => do
    if ← ask (.createLock o) then keepCreated o else contendLock p

end Acquiring

section Holding

variable (p : ProcessId) (engine : String)

/-- The owner of a recovered lock once this process has it: its identity is renewed where the lock
names its Docker engine. -/
def recoveredOwner (o : MutationLockOwner) : MutationLockOwner :=
  { o with
    processGroupId := none
    pid := p
    identity := if o.dockerEngineId = none then o.identity else some p }

def releaseMutationRecoveryLock : Proc Unit := do
  match (← get).activeMutationRecoveryPath with
  | none => return
  | some c => do
    if ← ask (.claimExists c) then
      let _ ← ask (.unlinkClaim c)
      setRecoveryPath none
    else return

def setActive (o : MutationLockOwner) : Proc Unit :=
  modify fun m => { m with activeMutationLock := some o, owner := some o }

def activateRecoveredMutationLock (o : MutationLockOwner) : Proc Unit := do
  match (← get).activeMutationRecoveryPath with
  | none => fail "Atlas Core could not activate its recovered deployment mutation lock."
  | some c => do
    ask (.writeClaim c (recoveredOwner p o))
    if (← ask (.linkClaim c)) = some true then
      releaseMutationRecoveryLock
      setActive (recoveredOwner p o)
    else failCleanup "Atlas Core could not activate its recovered mutation lock"

def activeOwner : Proc MutationLockOwner := do
  match (← get).activeMutationLock with
  | some o => return o
  | none => fail "Docker work requires the deployment mutation lock."

/-- The lock file is replaced, and with it the active owner. -/
def replaceLock (o : MutationLockOwner) : Proc Unit := do
  ask (.writeLock o)
  modify fun m => { m with activeMutationLock := some o }

def recordMutationProcessGroup (g : ℕ) : Proc Unit := do
  let active ← activeOwner
  let current ← readLockOwner
  ensure (sameMutationLockIdentity current active && current.processGroupId = none)
    "Atlas Core mutation lock changed ownership before starting Docker work."
  replaceLock { current with processGroupId := some g }

def clearMutationProcessGroup (g : ℕ) : Proc Unit := do
  let active ← activeOwner
  let current ← readLockOwner
  ensure (sameMutationLockIdentity current active && current.processGroupId = some g)
    "Atlas Core mutation lock changed ownership while Docker work was running."
  replaceLock { current with processGroupId := none }

/-- A Docker command in a process group of its own. It may fail where the model does not see it. -/
def docker {α : Type} (op : Op α) : Proc α := do
  let g ← ask .startGroup
  recordMutationProcessGroup g
  let result ← ask op
  ask (.endGroup g)
  clearMutationProcessGroup g
  mayThrow
  return result

def markActivePluginDisableOperation (target : Option PluginDisableTarget) : Proc Unit := do
  let active ← activeOwner
  let current ← readLockOwner
  ensure (current.id = active.id && current.pid = active.pid)
    "Atlas Core mutation lock changed ownership before Plugin disable was prepared."
  replaceLock { active with
    dockerEngineId := none
    operation := some .pluginDisable
    pluginDisableTarget := target <|> active.pluginDisableTarget }

def completeRecoverableMutationLockHandoff : Proc Unit := do
  match (← get).activeMutationLock with
  | none => return
  | some active => do
    if isRecoverableMutationOwner active then
      let current ← readLockOwner
      ensure (sameMutationLockOwner current active && current.processGroupId = none)
        "Atlas Core mutation lock changed ownership after deployment recovery."
      replaceLock { current with operation := none, pluginDisableTarget := none }
    else return

/-- `#removeAmbiguousDockerMutationLock`. -/
def removeAmbiguousDockerMutationLock (attempt : ℕ) : Proc Bool := do
  match ← docker .inspectNetwork with
  | none => return true
  | some n => do
    if n.attempt = attempt then
      let _ ← docker (.removeNetwork n.id)
      return true
    else return false

def removeRecoveredDockerMutationLock (lockId : ℕ) : Proc Unit := do
  match ← docker .inspectNetwork with
  | none => return
  | some n => do
    ensure (n.lockId = lockId) "deployment mutation lock has unexpected labels"
    let _ ← docker (.removeNetwork n.id)

/-- What becomes of the creation: it may be cancelled, and its answer may be lost. -/
def networkCreated (attempt : ℕ) (networkId : Option ℕ) : Proc ℕ := do
  match networkId with
  | some n => do
    if ← ask .choose then
      let _ ← removeAmbiguousDockerMutationLock attempt
      failCleanup "Docker did not report the deployment mutation lock network ID."
    else return n
  | none => do
    let _ ← removeAmbiguousDockerMutationLock attempt
    fail "Atlas Core deployment mutation is already locked on Docker engine"

def acquireDockerMutationLock (acquired : Acquired) : Proc DockerMutationLock := do
  let held := (← get).owner.getD acquired.owner
  whenever acquired.recovered (removeRecoveredDockerMutationLock held.id)
  let owner := { held with processGroupId := none, pid := p }
  let attempt ← ask .random
  let networkId ← networkCreated attempt (← docker (.createNetwork owner.id attempt))
  return ⟨networkId, attempt, owner⟩

def releaseDockerMutationLock (lock : DockerMutationLock) : Proc Unit := do
  match ← docker .inspectNetwork with
  | none => return
  | some n => do
    if n.id = lock.networkId ∧ n.attempt = lock.attempt then
      let _ ← docker (.removeNetwork n.id)
    else failCleanup "Atlas Core deployment mutation lock changed ownership before cleanup."

/-- Docker commands of the action, as many as there are. -/
def dockerWork : ℕ → Proc Unit
  | 0 => return
  | n + 1 => do
    let _ ← docker .choose
    dockerWork n

def runAction : Proc Unit := do
  whenever (← ask .choose) completeRecoverableMutationLockHandoff
  dockerWork (← ask .count)
  ask (.act true)
  dockerWork (← ask .count)
  mayThrow

/-- A result with its error, where the error is thrown later. -/
def attempt (x : Proc Unit) : Proc (Option Fault) :=
  tryCatch (do x; return none) fun e => return some e

def rethrow (e : Option Fault) : Proc Unit :=
  match e with
  | none => return
  | some e => throw e

def runDockerMutation (acquired : Acquired) : Proc Unit := do
  let lock ← tryCatch (acquireDockerMutationLock p acquired) fun e => do
    modify fun m => { m with
      dockerLockAcquisitionNeedsRecovery := match e with | .cleanup _ => true | .failed _ => false }
    throw e
  modify fun m => { m with dockerLock := some lock, activeMutationLock := some lock.owner }
  let error ← attempt runAction
  ask (.act false)
  releaseDockerMutationLock lock
  modify fun m => { m with dockerLockReleased := true }
  rethrow error

/-- The marks before the Docker work. -/
def markOperation : Proc Unit := do
  if ← ask .choose then
    markActivePluginDisableOperation (if ← ask .choose then some .ready else none)
    modify fun m => { m with owner := m.activeMutationLock }
  else return

def work (acquired : Acquired) : Proc Unit := do
  mayThrow
  whenever acquired.recovered (activateRecoveredMutationLock p acquired.owner)
  mayThrow
  markOperation
  runDockerMutation p acquired

/-- `#canonicalRecoverableMutationOwner`. -/
def canonicalRecoverableMutationOwner (expected : MutationLockOwner) : Proc MutationLockOwner := do
  let current ← match (← get).activeMutationRecoveryPath with
    | some c => ask (.readClaim c)
    | none => ask .readLock
  match current with
  | none => failCleanup "Atlas Core could not preserve its recoverable mutation lock"
  | some o => do
    if sameMutationLockOwner o expected && isRecoverableMutationOwner o then return o
    else failCleanup "Atlas Core mutation lock changed ownership before recovery could be retained."

/-- What the lock file holds of this process, if it has been marked. -/
def canonicalOwner (localOwner : MutationLockOwner) : Proc MutationLockOwner := do
  if ← ask .lockExists then
    let canonical ← readLockOwner
    if sameMutationLockIdentity canonical localOwner && isRecoverableMutationOwner canonical then
      modify fun m => { m with activeMutationLock := some canonical }
      return canonical
    else return localOwner
  else return localOwner

/-- The release, or what is kept as the idle lock. -/
def settleLock (acquired : Acquired) : Proc (Option MutationLockOwner) := do
  let m ← get
  let held := m.owner.getD acquired.owner
  let localOwner ← canonicalOwner (m.activeMutationLock.getD held)
  let preserve := isRecoverableMutationOwner localOwner
  let shouldPreserve := match m.dockerLock with
    | some _ => !m.dockerLockReleased && preserve
    | none => acquired.recovered || (preserve && m.dockerLockAcquisitionNeedsRecovery)
  if shouldPreserve then
    if preserve then some <$> canonicalRecoverableMutationOwner localOwner else return none
  else
    releaseMutationLock ((m.dockerLock.map (·.owner)).getD held)
    return none

/-- `#withMutationLock` after the lock has been acquired. -/
def withMutationLock (acquired : Acquired) : Proc Unit := do
  modify fun m => { m with
    activeMutationLock := some acquired.owner
    idleRecoverableMutationLock := none
    owner := some acquired.owner
    dockerLock := none
    dockerLockReleased := false
    dockerLockAcquisitionNeedsRecovery := false }
  let error ← attempt (work p acquired)
  let idle ← tryCatch (settleLock acquired) fun _ => return none
  let restoreError ← attempt restoreMutationRecoveryLock
  modify fun m => { m with idleRecoverableMutationLock := idle, activeMutationLock := none }
  rethrow restoreError
  rethrow error

end Holding

section Runs

/-- Where a process is: between two changes of the deployment, in a pass of the acquisition with the
owner it would write, or in the change. -/
inductive Stage where
  | idle (m : Memory)
  | acquiring (o : MutationLockOwner) (rest : Prog Op (Except Fault (Option Acquired) × Memory))
  | holding (rest : Prog Op (Except Fault Unit × Memory))

/-- The world with where each process that has been started is. -/
structure System where
  world : World
  stage : ProcessId → Option Stage

def System.set (s : System) (p : ProcessId) (w : World) (stage : Stage) : System :=
  ⟨w, Function.update s.stage p (some stage)⟩

/-- A pass of the acquisition from its start. -/
def pass (p : ProcessId) (o : MutationLockOwner) (m : Memory) : Stage :=
  .acquiring o ((acquireMutationLock p o).run.run m)

/-- Where a process goes on whose acquisition has ended. -/
def acquired (p : ProcessId) (o : MutationLockOwner) :
    Except Fault (Option Acquired) × Memory → Stage
  | (.ok (some a), m) => .holding ((withMutationLock p a).run.run m)
  | (.ok none, m) => pass p o m
  | (.error _, m) => .idle m

/-- A step of the system. Of an operation it tells the process, and the world before it. -/
inductive Step (engine : String) (meets : {β : Type} → ProcessId → Op β → World → Prop) :
    System → System → Prop
  | start (s : System) (p : ProcessId) (hp : s.stage p = none) :
      Step engine meets s (s.set p s.world (.idle .empty))
  | begin (s : System) (p : ProcessId) (m : Memory) (hp : s.stage p = some (.idle m))
      (hdead : s.world.dead p = false) :
      Step engine meets s (s.set p { s.world with next := s.world.next + 1 }
        (pass p (newOwner p engine s.world.next) m))
  | acquire (s : System) (p : ProcessId) (o : MutationLockOwner) {β : Type} (op : Op β)
      (next : β → Prog Op (Except Fault (Option Acquired) × Memory)) (b : β) (w : World)
      (hp : s.stage p = some (.acquiring o (.call op next))) (hdead : s.world.dead p = false)
      (hw : Performs p op s.world b w) (hmeets : meets p op s.world) :
      Step engine meets s (s.set p w (.acquiring o (next b)))
  | hold (s : System) (p : ProcessId) {β : Type} (op : Op β)
      (next : β → Prog Op (Except Fault Unit × Memory)) (b : β) (w : World)
      (hp : s.stage p = some (.holding (.call op next))) (hdead : s.world.dead p = false)
      (hw : Performs p op s.world b w) (hmeets : meets p op s.world) :
      Step engine meets s (s.set p w (.holding (next b)))
  | acquired (s : System) (p : ProcessId) (o : MutationLockOwner)
      (result : Except Fault (Option Acquired) × Memory)
      (hp : s.stage p = some (.acquiring o (.done result))) :
      Step engine meets s (s.set p s.world (Mutation.acquired p o result))
  | released (s : System) (p : ProcessId) (result : Except Fault Unit × Memory)
      (hp : s.stage p = some (.holding (.done result))) :
      Step engine meets s (s.set p s.world (.idle result.2))
  | crash (s : System) (p : ProcessId) :
      Step engine meets s ⟨{ s.world with dead := Function.update s.world.dead p true }, s.stage⟩
  | endGroup (s : System) (g : ℕ) :
      Step engine meets s
        ⟨{ s.world with groups := Function.update s.world.groups g false }, s.stage⟩

/-- An empty configuration directory, and no process. -/
def System.initial : System :=
  ⟨⟨none, .empty, none, fun _ => false, fun _ => false, 0, fun _ => false, fun _ => none⟩,
    fun _ => none⟩

inductive Reached (engine : String) (meets : {β : Type} → ProcessId → Op β → World → Prop) :
    System → Prop
  | initial : Reached engine meets .initial
  | step {s s' : System} : Reached engine meets s → Step engine meets s s' →
      Reached engine meets s'

end Runs

end Atlas.Cli.Mutation
