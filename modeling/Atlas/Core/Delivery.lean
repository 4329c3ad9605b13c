import Atlas.Core.Runtimes

/-!
# Delivery

What a ready runtime is handed of its pending Tasks: the first immediate one whose start window has
not passed, and the first queued one.
-/

namespace Atlas.Core

/-- The Commands of a runtime's manifest that are immediate. -/
def immediateCommands (env : Env) : CommandManifest → Except ActionError (List String)
  | [] => .ok []
  | entry :: rest =>
    match env.command entry.command with
    | none =>
      .error (.failure ("stored runtime manifest references unknown Command " ++ entry.command))
    | some command =>
      match resolveScheduling command entry with
      | .error e => .error e
      | .ok scheduling =>
        match immediateCommands env rest with
        | .error e => .error e
        | .ok commands =>
          .ok (if scheduling = .immediate then entry.command :: commands else commands)

def deliverableImmediate (assetID runtimeID : String) (immediate : List String) (now : Time)
    (t : Task) : Bool :=
  t.assetID = assetID && t.runtimeID = runtimeID && t.status = .pending && t.command ∈ immediate
    && now - immediateStartWindow < t.createdAt

def deliverableQueued (assetID runtimeID : String) (immediate : List String) (t : Task) : Bool :=
  t.assetID = assetID && t.runtimeID = runtimeID && t.status = .pending && t.command ∉ immediate

def TaskActions.deliverable (env : Env) (assetID runtime : String) : CoreTx (List Task) := do
  let runtimeID := trimSpace runtime
  let db ← getDB
  match findEntity db assetID, findAssetRuntime db assetID with
  | some _, some current =>
    require (current.ready && runtimeID = current.runtimeID)
      (.validation "Atlas-Runtime-ID does not identify the current ready runtime")
    let immediate ← check (immediateCommands env current.manifest)
    let now ← clockTimestamp
    let deliverable :=
      (selectTasks env db (deliverableImmediate assetID runtimeID immediate now)).take 1
        ++ (selectTasks env db (deliverableQueued assetID runtimeID immediate)).take 1
    let deliverable := deliverable.mergeSort (creationOrder env)
    deliverable.forM fun task => do
      let _ ← storedCommandDefinition env task.taskID task.command
    return deliverable
  | _, _ => throw (.validation "Asset has no registered runtime")

end Atlas.Core
