import Atlas.Lib.PosixPath

/-!
# Paths of a deployment transaction

How the store checks the paths it is given, and where it finds them: its files are recorded under
the normalized path, and lie below the configuration directory.
-/

namespace Atlas.Cli.TransactionPaths

open CodeUnits PosixPath

inductive PathError where
  | requiresAbsoluteConfig
  /-- `Invalid transaction path`, with the path quoted. -/
  | invalid (path : Text)
  /-- `Transaction path escapes the configuration directory`. -/
  | escapes (path : Text)
  /-- `durable monotonic state`. -/
  | excluded (path : Text)
  | transactionDirectory
  deriving DecidableEq, Repr

def transactionDirectory : Text := text "transaction"

def excludedPaths : List Text := [text "catalog-state.json", text "run-intent.json"]

def normalizeConfigDirectory (configDir : Text) : Except PathError Text :=
  if configDir = [] ∨ isAbsolute configDir = false then throw .requiresAbsoluteConfig
  else return normalize configDir

def validateRelativePath (path : Text) : Except PathError Text :=
  if path = [] ∨ 0 ∈ path ∨ isAbsolute path = true then throw (.invalid path)
  else
    let normalized := normalize path
    if normalized = here ∨ normalized = above ∨ startsWith normalized (above ++ [slash]) = true
        ∨ [slash, slash] <:+: normalized ∨ [] ∈ PosixPath.split normalized then
      throw (.escapes path)
    else return normalized

def validateRootRelativePath (relativePath : Text) : Except PathError Text := do
  let path ← validateRelativePath relativePath
  if path ∈ excludedPaths then throw (.excluded path)
  else if path = transactionDirectory
      ∨ startsWith path (transactionDirectory ++ [slash]) = true then throw .transactionDirectory
  else return path

def containedPath (root path : Text) : Except PathError Text :=
  let target := join root path
  let escape := relative root target
  if escape = above ∨ startsWith escape (above ++ [slash]) = true ∨ isAbsolute escape = true then
    throw (.escapes path)
  else return target

/-- The name a file is recorded under, and where it is. -/
structure Place where
  record : Text
  target : Text
  deriving DecidableEq, Repr

/-- What `snapshot`, `stage`, `applyStaged` and `remove` make of the path they are given. -/
def placeOf (configDir relativePath : Text) : Except PathError Place := do
  let path ← validateRootRelativePath relativePath
  let target ← containedPath configDir path
  return ⟨path, target⟩

end Atlas.Cli.TransactionPaths
