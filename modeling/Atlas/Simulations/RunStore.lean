import Atlas.Lib.OrderedMap

/-!
# Runs of the simulation workbench

A scenario creates and deletes resources in Core through clients that remember the instance token of
each ID (`instanceTokens`) and keep the record of the run, whose resources are saved in the durable
cleanup ledger before a request is sent. A request takes effect in Core some time after it is sent,
or is lost; its call goes on some time after that, with an answer or an error. The workbench may
crash at any time, and then recovers the run from the ledger, to be cleaned up. How a write to the
ledger ends, and whether a request fails, comes with the step.
-/

namespace Atlas.Simulations

inductive ResourceType
  | entity
  | object
  deriving DecidableEq, Repr

/-- A resource of Core: its type and its ID without the space around it. -/
structure ResourceKey where
  type : ResourceType
  id : String
  deriving DecidableEq, Repr

/-- An instance token: one that the run has generated, by its number, or another. -/
inductive InstanceToken
  | generated (number : ℕ)
  | other (text : String)
  deriving DecidableEq, Repr

structure CleanupResource where
  key : ResourceKey
  instanceToken : ℕ
  deriving DecidableEq, Repr

def maxCreatedResourcesPerRun : ℕ := 1000

/-- How a write to the ledger ends: it is done, it has failed, or it is reported to have failed
after the file was replaced. -/
inductive WriteOutcome
  | done
  | failed
  | unsure
  deriving DecidableEq, Repr

/-- The ledger's record of the run, where it has one. -/
abbrev Ledger : Type := Option (List CleanupResource)

/-- A save, and whether it says that it is done. -/
def persistRun (resources : List CleanupResource) (outcome : WriteOutcome) (ledger : Ledger) :
    Ledger × Bool :=
  match outcome with
  | .done => (some resources, true)
  | .failed => (ledger, false)
  | .unsure => (some resources, false)

def sameResource (left : Option CleanupResource) (key : ResourceKey) : Bool :=
  left.any fun current => current.key = key

def hasResource (resources : List CleanupResource) (key : ResourceKey) : Bool :=
  resources.any fun current => sameResource (some current) key

/-- The record of a run. `cleanup` is what a cleanup that is under way has yet to delete. -/
structure RunRecord where
  cleanupResources : List CleanupResource
  overflowCleanupResource : Option CleanupResource
  instanceTokens : OrderedMap ResourceKey ℕ
  aborted : Bool
  settled : Bool
  cleanupStarted : Bool
  cleaned : Bool
  cleanup : Option (List CleanupResource)

/-- What `trackCleanupCandidate` and `untrackCleanupCandidate` leave; they have thrown, or not. -/
structure Tracked where
  run : RunRecord
  ledger : Ledger
  returned : Bool

namespace RunRecord

def new : RunRecord := ⟨[], none, .empty, false, false, false, false, none⟩

def cleanupResourcesForRun (run : RunRecord) : List CleanupResource :=
  run.cleanupResources ++ run.overflowCleanupResource.toList

/-- The record of a run that the workbench finds in the ledger when it starts. -/
def recoverRun (resources : List CleanupResource) : RunRecord where
  cleanupResources := resources.take maxCreatedResourcesPerRun
  overflowCleanupResource := resources[maxCreatedResourcesPerRun]?
  instanceTokens := .empty
  aborted := true
  settled := true
  cleanupStarted := false
  cleaned := false
  cleanup := none

/-- Whether the record is no longer changed. -/
def closed (run : RunRecord) : Bool := run.aborted || run.cleanupStarted || run.cleaned

def tracks (run : RunRecord) (key : ResourceKey) : Bool :=
  hasResource run.cleanupResources key || sameResource run.overflowCleanupResource key

/-- The first resource past the limit is kept apart, and refused like those after it. -/
def trackCleanupCandidate (run : RunRecord) (resource : CleanupResource) (outcome : WriteOutcome)
    (ledger : Ledger) : Tracked :=
  if run.closed || run.tracks resource.key then ⟨run, ledger, true⟩
  else if maxCreatedResourcesPerRun ≤ run.cleanupResources.length then
    if run.overflowCleanupResource.isSome then ⟨run, ledger, false⟩
    else
      let next := { run with overflowCleanupResource := some resource }
      let saved := persistRun next.cleanupResourcesForRun outcome ledger
      ⟨if saved.2 then next else run, saved.1, false⟩
  else
    let next := { run with cleanupResources := run.cleanupResources ++ [resource] }
    let saved := persistRun next.cleanupResourcesForRun outcome ledger
    ⟨if saved.2 then next else run, saved.1, saved.2⟩

def untrackCleanupCandidate (run : RunRecord) (key : ResourceKey) (outcome : WriteOutcome)
    (ledger : Ledger) : Tracked :=
  if run.closed || !run.tracks key then ⟨run, ledger, true⟩
  else
    let next :=
      { run with
        cleanupResources := run.cleanupResources.eraseP fun r => sameResource (some r) key
        overflowCleanupResource :=
          if sameResource run.overflowCleanupResource key then none
          else run.overflowCleanupResource }
    let saved := persistRun next.cleanupResourcesForRun outcome ledger
    ⟨if saved.2 then next else run, saved.1, saved.2⟩

/-- The instance token a create of the ID is sent with. -/
def tokenFor (run : RunRecord) (key : ResourceKey) (fresh : ℕ) : ℕ :=
  (run.instanceTokens.get key).getD fresh

end RunRecord

/-- Objects before entities, within a type the newest first. -/
def cleanupOrder (resources : List CleanupResource) : List CleanupResource :=
  let order : ResourceType → ℕ
    | .object => 0
    | .entity => 1
  resources.reverse.mergeSort fun a b => order a.key.type ≤ order b.key.type

/-- A request is under way, has taken effect, or is lost or refused. -/
inductive Request
  | sent
  | done
  | failed
  deriving DecidableEq, Repr

/-- A call of `createTracked` whose request has been sent; it is `waiting` until it goes on. -/
structure CreateCall where
  key : ResourceKey
  token : ℕ
  request : Request
  waiting : Bool
  deriving DecidableEq, Repr

/-- A call of `deleteTracked` whose request has been sent, with the token of the request and the one
that was recorded. -/
structure DeleteCall where
  key : ResourceKey
  token : Option InstanceToken
  recorded : Option ℕ
  request : Request
  waiting : Bool
  deriving DecidableEq, Repr

/-- Core, the ledger and the workbench, which has no record of the run after a crash. Core keeps
the instance token of each resource that was created with one, and the tokens that were used. -/
structure World where
  core : ResourceKey → Option (Option InstanceToken)
  used : List InstanceToken
  ledger : Ledger
  run : Option RunRecord
  creates : List CreateCall
  deletes : List DeleteCall
  generated : ℕ

namespace World

/-- A run begins; what is in Core, and what was there, is not its own. -/
def start (others : ResourceKey → Option (Option String)) (used : List String) : World where
  core := fun key => (others key).map fun token => token.map .other
  used := used.map .other
  ledger := some []
  run := some .new
  creates := []
  deletes := []
  generated := 0

def setCore (key : ResourceKey) (resource : Option (Option InstanceToken)) (w : World) : World :=
  { w with core := Function.update w.core key resource }

section Scenario

/-- The start of `createTracked`, up to where its request is sent. -/
def create (key : ResourceKey) (outcome : WriteOutcome) (w : World) : World :=
  match w.run with
  | none => w
  | some run =>
    if run.aborted then w
    else
      let token := run.tokenFor key w.generated
      let tracked := run.trackCleanupCandidate ⟨key, token⟩ outcome w.ledger
      let w :=
        { w with
          ledger := tracked.ledger
          run := some tracked.run
          generated := if run.instanceTokens.has key then w.generated else w.generated + 1 }
      if tracked.returned then
        { w with
          run := some
            { tracked.run with instanceTokens := tracked.run.instanceTokens.set key token }
          creates := w.creates ++ [⟨key, token, .sent, true⟩] }
      else w

/-- `track`, after a create was answered. -/
def track (key : ResourceKey) (token : ℕ) (outcome : WriteOutcome) (w : World) : World :=
  match w.run with
  | none => w
  | some run =>
    let run := { run with instanceTokens := run.instanceTokens.set key token }
    let tracked := run.trackCleanupCandidate ⟨key, token⟩ outcome w.ledger
    { w with ledger := tracked.ledger, run := some tracked.run }

/-- Core makes a resource where there is none of that ID and the token was never used. -/
def createLands (i : ℕ) (w : World) : World :=
  match w.creates[i]? with
  | none => w
  | some call =>
    if call.request = .sent ∧ w.core call.key = none ∧ .generated call.token ∉ w.used then
      { w.setCore call.key (some (some (.generated call.token))) with
        used := .generated call.token :: w.used
        creates := w.creates.modify i fun call => { call with request := .done } }
    else w

def createFails (i : ℕ) (w : World) : World :=
  { w with
    creates := w.creates.modify i fun call =>
      if call.request = .sent then { call with request := .failed } else call }

/-- A create goes on, with Core's answer that the resource was made, or with an error. -/
def createReturns (i : ℕ) (answered : Bool) (outcome : WriteOutcome) (w : World) : World :=
  match w.creates[i]? with
  | none => w
  | some call =>
    if call.waiting then
      let w := { w with creates := w.creates.modify i fun call => { call with waiting := false } }
      if answered ∧ call.request = .done then w.track call.key call.token outcome else w
    else w

/-- The start of `deleteTracked`, up to where its request is sent. -/
def delete (key : ResourceKey) (instanceToken : Option InstanceToken) (w : World) : World :=
  match w.run with
  | none => w
  | some run =>
    if run.aborted then w
    else
      let recorded := run.instanceTokens.get key
      let token :=
        if recorded = none ∨ instanceToken ≠ none then instanceToken
        else recorded.map .generated
      { w with deletes := w.deletes ++ [⟨key, token, recorded, .sent, true⟩] }

/-- Core deletes a resource, with a token only if it is the resource's own. -/
def deleteLands (i : ℕ) (w : World) : World :=
  match w.deletes[i]? with
  | none => w
  | some call =>
    match w.core call.key with
    | none => w
    | some stored =>
      if call.request = .sent ∧ (call.token = none ∨ call.token = stored) then
        { w.setCore call.key none with
          deletes := w.deletes.modify i fun call => { call with request := .done } }
      else w

def deleteFails (i : ℕ) (w : World) : World :=
  { w with
    deletes := w.deletes.modify i fun call =>
      if call.request = .sent then { call with request := .failed } else call }

/-- A delete goes on, with Core's answer that the resource was deleted, or with an error. -/
def deleteReturns (i : ℕ) (answered : Bool) (outcome : WriteOutcome) (w : World) : World :=
  match w.deletes[i]? with
  | none => w
  | some call =>
    if call.waiting then
      let w := { w with deletes := w.deletes.modify i fun call => { call with waiting := false } }
      match w.run with
      | none => w
      | some run =>
        if answered ∧ call.request = .done ∧ call.recorded ≠ none then
          let run := { run with instanceTokens := run.instanceTokens.delete call.key }
          let tracked := run.untrackCleanupCandidate call.key outcome w.ledger
          { w with ledger := tracked.ledger, run := some tracked.run }
        else w
    else w

/-- The run is stopped. -/
def stop (w : World) : World :=
  { w with run := w.run.map fun run => { run with aborted := true } }

/-- The end of `executeRun`. -/
def settle (w : World) : World :=
  { w with run := w.run.map fun run => { run with aborted := true, settled := true } }

end Scenario

section Cleaning

/-- The start of `cleanupRun`. The factory of its client may throw. -/
def cleanupStarts (factory : Bool) (w : World) : World :=
  match w.run with
  | none => w
  | some run =>
    if run.cleaned = true ∨ run.settled = false ∨ run.cleanup ≠ none then w
    else
      let resources := run.cleanupResourcesForRun
      { w with
        run := some
          { run with
            cleanupStarted := true
            cleanup :=
              if resources.isEmpty || factory then some (cleanupOrder resources) else none } }

/-- How the delete of one resource ends for a cleanup: it is answered, that it is deleted, was gone
or is not the run's; or it has failed, after it took effect or not. -/
inductive CleanupOutcome
  | answered
  | failed (took : Bool)
  deriving DecidableEq, Repr

/-- What a delete with the resource's token does in Core. -/
def deleteOwned (resource : CleanupResource) (w : World) : World :=
  if w.core resource.key = some (some (.generated resource.instanceToken)) then
    w.setCore resource.key none
  else w

def cleanupDeletes (outcome : CleanupOutcome) (w : World) : World :=
  match w.run with
  | none => w
  | some run =>
    match run.cleanup with
    | some (resource :: rest) =>
      match outcome with
      | .answered => { w.deleteOwned resource with run := some { run with cleanup := some rest } }
      | .failed took =>
        let w := if took then w.deleteOwned resource else w
        { w with run := some { run with cleanup := none } }
    | _ => w

/-- The end of `cleanupRun`: its client is stopped, which may throw, and the record of the run is
removed from the ledger. -/
def cleanupFinishes (stopped : Bool) (outcome : WriteOutcome) (w : World) : World :=
  match w.run with
  | none => w
  | some run =>
    match run.cleanup with
    | some [] =>
      if stopped then
        { w with
          ledger := if outcome = .failed then w.ledger else none
          run := some { run with cleanup := none, cleaned := outcome = .done } }
      else { w with run := some { run with cleanup := none } }
    | _ => w

/-- The workbench crashes: its calls are gone, the requests are not. -/
def crash (w : World) : World :=
  { w with
    run := none
    creates := w.creates.map fun call => { call with waiting := false }
    deletes := w.deletes.map fun call => { call with waiting := false } }

def recover (w : World) : World :=
  match w.run with
  | some _ => w
  | none => { w with run := w.ledger.map RunRecord.recoverRun }

end Cleaning

section Others

/-- Somebody else makes a resource. -/
def othersCreate (key : ResourceKey) (token : Option String) (w : World) : World :=
  if w.core key = none ∧ ∀ text ∈ token, .other text ∉ w.used then
    { w.setCore key (some (token.map .other)) with
      used := (token.map .other).toList ++ w.used }
  else w

def othersDelete (key : ResourceKey) (w : World) : World := w.setCore key none

end Others

end World

inductive SimulationStep
  | create (key : ResourceKey) (outcome : WriteOutcome)
  | createLands (call : ℕ)
  | createFails (call : ℕ)
  | createReturns (call : ℕ) (answered : Bool) (outcome : WriteOutcome)
  | delete (key : ResourceKey) (instanceToken : Option InstanceToken)
  | deleteLands (call : ℕ)
  | deleteFails (call : ℕ)
  | deleteReturns (call : ℕ) (answered : Bool) (outcome : WriteOutcome)
  | stop
  | settle
  | cleanupStarts (factory : Bool)
  | cleanupDeletes (outcome : World.CleanupOutcome)
  | cleanupFinishes (stopped : Bool) (outcome : WriteOutcome)
  | crash
  | recover
  | othersCreate (key : ResourceKey) (token : Option String)
  | othersDelete (key : ResourceKey)
  deriving DecidableEq, Repr

def SimulationStep.run (w : World) : SimulationStep → World
  | .create key outcome => w.create key outcome
  | .createLands call => w.createLands call
  | .createFails call => w.createFails call
  | .createReturns call answered outcome => w.createReturns call answered outcome
  | .delete key instanceToken => w.delete key instanceToken
  | .deleteLands call => w.deleteLands call
  | .deleteFails call => w.deleteFails call
  | .deleteReturns call answered outcome => w.deleteReturns call answered outcome
  | .stop => w.stop
  | .settle => w.settle
  | .cleanupStarts factory => w.cleanupStarts factory
  | .cleanupDeletes outcome => w.cleanupDeletes outcome
  | .cleanupFinishes stopped outcome => w.cleanupFinishes stopped outcome
  | .crash => w.crash
  | .recover => w.recover
  | .othersCreate key token => w.othersCreate key token
  | .othersDelete key => w.othersDelete key

end Atlas.Simulations
