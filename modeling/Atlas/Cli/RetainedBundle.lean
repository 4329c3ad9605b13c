import Atlas.Cli.DeploymentTransaction

/-!
# Retained bundles

The copy of a package's deployment files that the host keeps: a candidate is built beside it and
checked, then put in its place by renames. Any one of the file operations may fail, and a recursive
removal may fail after it has deleted some of the files.
-/

namespace Atlas.Cli.RetainedBundle

open Effects Deployment

scoped instance : LawfulBEq Path := List.instLawfulBEq

section Files

/-- What a regular file holds, and its mode. -/
abbrev File : Type := Content × ℕ

/-- The files below a directory. -/
abbrev Bundle : Type := OrderedMap Path File

inductive FileOperation where
  | existsSync | lstatSync | mkdirSync | readdirSync | readFileSync | openSync | chmodSync
  | writeFileSync | fsyncSync | closeSync | renameSync | unlinkSync | rmSync
  deriving DecidableEq, Repr

/-- The parts of the copy that work on files. -/
inductive Step where
  | parent
  | existing
  | candidate
  | copy (path : Path)
  | manifest
  | verification
  | replacement
  | finish
  deriving DecidableEq, Repr

/-- A file operation: which of its kind in the step it is, and the entry it is about. -/
structure Site where
  step : Step
  operation : FileOperation
  call : ℕ
  path : Path
  deriving DecidableEq, Repr

/-- What goes wrong: the operation that fails, and the files that are left when it is a removal. -/
structure Plan where
  failing : Option Site
  left : Path → Bool

/-- The package, and the three directories beside each other below the parent of the target, with
the directories that have been made in the candidate. -/
structure Disk where
  source : Tree
  parent : Bool
  target : Option Bundle
  candidate : Option Bundle
  directories : List Path
  retired : Option Bundle

/-- A copy at work: whether the temporary file is there, and whether it is open. -/
structure Machine where
  disk : Disk
  temporary : Bool
  descriptor : Bool

inductive Fault where
  | failed (site : Site)
  | refused (message : String)
  deriving DecidableEq, Repr

abbrev Copying (α : Type) : Type := Eff Machine Fault α

end Files

section Operations

variable (plan : Plan)

def refuse {α : Type} (message : String) : Copying α := throw (.refused message)

def ensure (condition : Bool) (message : String) : Copying Unit :=
  if condition then pure () else refuse message

def Plan.succeeds (site : Site) : Bool := plan.failing ≠ some site

/-- An operation that throws when it fails. -/
def operate (site : Site) (f : Machine → Machine) : Copying Unit :=
  if plan.succeeds site then modify f else throw (.failed site)

/-- `existsSync`, which is false when it fails. -/
def existsSync (step : Step) (call : ℕ) (path : Path) (present : Disk → Bool) : Copying Bool := do
  return plan.succeeds ⟨step, .existsSync, call, path⟩ && present (← get).disk

/-- What a recursive removal leaves of a directory when it fails. -/
def Plan.remnant (b : Bundle) : Bundle := b.filter fun e => plan.left e.1

/-- `rmSync` of one of the directories. -/
def rmSync (site : Site) (get : Disk → Option Bundle) (set : Disk → Option Bundle → Disk) :
    Copying Unit :=
  if plan.succeeds site then modify fun m => { m with disk := set m.disk none }
  else do
    modify fun m => { m with disk := set m.disk ((get m.disk).map plan.remnant) }
    throw (.failed site)

/-- `try`, with what is done in any case. -/
def tryFinally {α : Type} (body : Copying α) (cleanup : Copying Unit) : Copying α := do
  let outcome ← tryCatch (body >>= fun a => return Except.ok a) fun e => return Except.error e
  cleanup
  match outcome with
  | .ok a => return a
  | .error e => throw e

end Operations

section Directories

variable (plan : Plan)

/-- A directory of the candidate. -/
def Disk.isDirectory (d : Disk) (dir : Path) : Bool := dir = [] || dir ∈ d.directories

/-- A directory or a file of the candidate. -/
def Disk.inCandidate (d : Disk) (p : Path) : Bool :=
  d.candidate.any fun b => b.has p || d.isDirectory p

/-- A recursive `mkdir` in the candidate, if no file is in the way. -/
def Disk.mkdir (d : Disk) (dir : Path) : Option Disk :=
  if d.candidate.any fun b => b.keys.any fun q => q.isPrefixOf dir then none
  else some { d with directories := d.directories ++ dir.inits }

def assertRealDirectory (step : Step) (call : ℕ) (path : Path) (present real : Disk → Bool) :
    Copying Unit := do
  ensure (← existsSync plan step call path present) "Missing directory"
  operate plan ⟨step, .lstatSync, call, path⟩ id
  ensure (real (← get).disk) "must be a real directory"

def ensureDirectory (step : Step) (call : ℕ) (path : Path) (present real : Disk → Bool)
    (make : Disk → Option Disk) : Copying Unit := do
  if ← existsSync plan step call path present then
    assertRealDirectory plan step (call + 1) path present real
  else
    match make (← get).disk with
    | none => refuse "ENOTDIR"
    | some d => do
      operate plan ⟨step, .mkdirSync, call, path⟩ fun m => { m with disk := d }
      assertRealDirectory plan step (call + 1) path present real

def syncDirectory (step : Step) (call : ℕ) : Copying Unit := do
  if plan.succeeds ⟨step, .openSync, call, []⟩ then
    -- a failing fsync is passed over, a failing close is not
    operate plan ⟨step, .closeSync, call, []⟩ id
  else return

end Directories

section Copy

variable (plan : Plan)

/-- One pass of `assertNoSymlinkAncestors` in the source. A symbolic link is taken to lead
somewhere; one that does not makes the copy throw a little later. -/
def assertNoSymlinkSource (p a : Path) : Copying Unit := do
  if ← existsSync plan (.copy p) 0 a fun d => !d.source.blocked a && d.source a ≠ none then do
    operate plan ⟨.copy p, .lstatSync, 0, a⟩ id
    ensure ((← get).disk.source a ≠ some .symlink) "contains a symbolic link"
  else return

/-- `assertRegularFile` of a file of the source. -/
def sourceFile (p : Path) : Copying File := do
  operate plan ⟨.copy p, .lstatSync, 1, p⟩ id
  let source := (← get).disk.source
  ensure (!source.blocked p) "ENOTDIR"
  match source p with
  | some (.file content mode) => return (content, mode)
  | some .symlink => refuse "must not be a symbolic link"
  | some _ => refuse "must be a regular file"
  | none => refuse "ENOENT"

/-- The candidate holds no symbolic links. -/
def assertNoSymlinkCandidate (p a : Path) : Copying Unit := do
  if ← existsSync plan (.copy p) 2 a (·.inCandidate a) then
    operate plan ⟨.copy p, .lstatSync, 2, a⟩ id
  else return

def ensureCandidateDirectory (p dir : Path) : Copying Unit :=
  ensureDirectory plan (.copy p) 3 dir (·.inCandidate dir) (·.isDirectory dir) (·.mkdir dir)

/-- The temporary file takes the place of its destination. -/
def renameTemporary (p : Path) (file : File) : Copying Unit := do
  ensure (!(← get).disk.isDirectory p) "EISDIR"
  operate plan ⟨.copy p, .renameSync, 0, p⟩ fun m =>
    { m with
      disk := { m.disk with candidate := m.disk.candidate.map (·.set p file) }
      temporary := false }

def copyFileDurably (p : Path) (file : File) : Copying Unit := do
  operate plan ⟨.copy p, .readFileSync, 0, p⟩ id
  tryFinally
    (do
      operate plan ⟨.copy p, .openSync, 0, p⟩ fun m =>
        { m with temporary := true, descriptor := true }
      operate plan ⟨.copy p, .chmodSync, 0, p⟩ id
      operate plan ⟨.copy p, .writeFileSync, 0, p⟩ id
      operate plan ⟨.copy p, .fsyncSync, 0, p⟩ id
      operate plan ⟨.copy p, .closeSync, 0, p⟩ fun m => { m with descriptor := false }
      renameTemporary plan p file
      syncDirectory plan (.copy p) 1)
    (do
      if (← get).descriptor then
        operate plan ⟨.copy p, .closeSync, 2, p⟩ fun m => { m with descriptor := false }
      let temporary := (← get).temporary
      if ← existsSync plan (.copy p) 5 p fun _ => temporary then
        operate plan ⟨.copy p, .unlinkSync, 0, p⟩ fun m => { m with temporary := false })

/-- One pass of the loop over the files. -/
def copyFile (p : Path) : Copying Unit := do
  (p.inits.drop 1).forM (assertNoSymlinkSource plan p)
  let file ← sourceFile plan p
  (p.inits.drop 1).forM (assertNoSymlinkCandidate plan p)
  ensureCandidateDirectory plan p p.dropLast
  copyFileDurably plan p (file.1, file.2 &&& 0o755)

end Copy

section Manifest

variable (plan : Plan) (hash : Content → String) (hashFiles : List (Path × Content) → String)

structure RetainedBundleFile where
  path : Path
  sha256 : String
  size : ℕ
  mode : ℕ
  deriving DecidableEq, Repr

structure RetainedBundleManifest where
  files : List RetainedBundleFile
  bundleSha256 : String
  deriving DecidableEq, Repr

/-- The files of a directory in the order of their names. -/
def listFiles (b : Bundle) : List (Path × File) :=
  (sortPaths b.keys).filterMap fun p => (b.get p).map (p, ·)

def describe (e : Path × File) : RetainedBundleFile :=
  ⟨e.1, hash e.2.1, e.2.1.length, e.2.2 &&& 0o777⟩

def manifestOf (files : List (Path × File)) : RetainedBundleManifest :=
  ⟨files.map (describe hash), hashFiles (files.map fun e => (e.1, e.2.1))⟩

/-- What is read of the candidate: its directories, then each file, then each file again for the
hash of the bundle. A failing operation on one of the directories is one on all of them. -/
def readBundle (step : Step) : Copying (List (Path × File)) := do
  assertRealDirectory plan step 0 [] (·.candidate.isSome) (·.candidate.isSome)
  operate plan ⟨step, .readdirSync, 0, []⟩ id
  match (← get).disk.candidate with
  | none => refuse "ENOENT"
  | some b => do
    (listFiles b).forM fun e => do
      operate plan ⟨step, .lstatSync, 1, e.1⟩ id
      operate plan ⟨step, .readFileSync, 0, e.1⟩ id
    (listFiles b).forM fun e => operate plan ⟨step, .readFileSync, 1, e.1⟩ id
    return listFiles b

def createRetainedBundleManifest : Copying RetainedBundleManifest := do
  let files ← readBundle plan .manifest
  return manifestOf hash hashFiles files

def verifyRetainedBundle (manifest : RetainedBundleManifest) : Copying Unit := do
  ensure (isSha256 manifest.bundleSha256) "Retained bundle has an invalid bundle hash."
  ensure (manifest.files.all fun f => isSha256 f.sha256 && f.mode ≤ 0o777) "invalid metadata"
  ensure (decide (manifest.files.map (·.path)).Nodup) "duplicate paths"
  let files ← readBundle plan .verification
  ensure (files.map Prod.fst = manifest.files.map (·.path))
    "Retained bundle file set does not match its manifest."
  ensure (files.map (describe hash) = manifest.files) "failed its hash check"
  ensure (hashFiles (files.map fun e => (e.1, e.2.1)) = manifest.bundleSha256)
    "Retained bundle failed its deterministic bundle hash check."

end Manifest

section Replacement

variable (plan : Plan)

/-- A rename to the target, which must be empty if it is there. -/
def renameToTarget (site : Site) (source : Disk → Option Bundle) (moved : Disk → Disk) :
    Copying Unit := do
  let d := (← get).disk
  ensure (source d).isSome "ENOENT"
  ensure (d.target.all fun b => b.size = 0) "ENOTEMPTY"
  operate plan site fun m =>
    { m with disk := { moved m.disk with target := source m.disk } }

/-- The first part of the `try` block: the existing bundle, if there is one, is retired. -/
def retire : Copying Bool := do
  if ← existsSync plan .replacement 0 [] (·.target.isSome) then
    assertRealDirectory plan .replacement 1 [] (·.target.isSome) (·.target.isSome)
    operate plan ⟨.replacement, .renameSync, 0, []⟩ fun m =>
      { m with disk := { m.disk with retired := m.disk.target, target := none } }
    return true
  else return false

def removeRetired (movedExisting : Bool) : Copying Unit :=
  if movedExisting then
    rmSync plan ⟨.replacement, .rmSync, 0, []⟩ (·.retired) fun d b => { d with retired := b }
  else return

/-- The rest of the `try` block. -/
def exchange (movedExisting : Bool) : Copying Unit := do
  renameToTarget plan ⟨.replacement, .renameSync, 1, []⟩ (·.candidate) fun d =>
    { d with candidate := none }
  syncDirectory plan .replacement 0
  removeRetired plan movedExisting
  syncDirectory plan .replacement 1

/-- The first statement of the `catch` block. -/
def removePublished (movedExisting : Bool) : Copying Unit := do
  let published ← existsSync plan .replacement 2 [] (·.target.isSome)
  if published && movedExisting then
    rmSync plan ⟨.replacement, .rmSync, 1, []⟩ (·.target) fun d b => { d with target := b }
  else return

/-- The second. -/
def putBack (movedExisting : Bool) : Copying Unit := do
  if movedExisting then
    if ← existsSync plan .replacement 3 [] (·.retired.isSome) then
      if ← existsSync plan .replacement 4 [] (·.target.isSome) then return
      else renameToTarget plan ⟨.replacement, .renameSync, 2, []⟩ (·.retired) fun d =>
        { d with retired := none }
    else return
  else return

def restore (movedExisting : Bool) (error : Fault) : Copying Unit := do
  removePublished plan movedExisting
  putBack plan movedExisting
  throw error

def replaceDirectory : Copying Unit := do
  let movedExisting ← tryCatch (retire plan) fun error => do
    restore plan false error
    return false
  tryCatch (exchange plan movedExisting) (restore plan movedExisting)

end Replacement

section Whole

variable (plan : Plan) (hash : Content → String) (hashFiles : List (Path × Content) → String)

structure RetainedBundleOptions where
  files : List Path
  requiredFiles : List Path
  /-- What the checks of the Compose files end with, which only read. -/
  references : Except Fault Unit

def normalizedUniquePaths (paths : List Path) : Copying (List Path) := do
  ensure (decide (sortPaths paths).Nodup) "Retained bundle contains duplicate paths."
  return sortPaths paths

/-- The files are copied and the candidate is checked. -/
def buildCandidate (paths : List Path) : Copying RetainedBundleManifest := do
  paths.forM (copyFile plan)
  let manifest ← createRetainedBundleManifest plan hash hashFiles
  ensure (manifest.files.map (·.path) = paths)
    "Retained bundle candidate contains an unexpected file set."
  verifyRetainedBundle plan hash hashFiles manifest
  return manifest

/-- What is checked before anything is written. -/
def checkOptions (options : RetainedBundleOptions) : Copying (List Path) := do
  let paths ← normalizedUniquePaths options.files
  let requiredFiles ← normalizedUniquePaths options.requiredFiles
  ensure (requiredFiles.all (· ∈ paths)) "Retained bundle is missing required file"
  match options.references with
  | .error e => throw e
  | .ok () => return paths

def prepareDirectories : Copying Unit := do
  ensureDirectory plan .parent 0 [] (·.parent) (·.parent) fun d => some { d with parent := true }
  if ← existsSync plan .existing 0 [] (·.target.isSome) then
    assertRealDirectory plan .existing 1 [] (·.target.isSome) (·.target.isSome)
  ensureDirectory plan .candidate 0 [] (·.candidate.isSome) (·.candidate.isSome) fun d =>
    some { d with candidate := some OrderedMap.empty }

/-- The `finally` block. -/
def finish : Copying Unit := do
  if ← existsSync plan .finish 0 [] (·.candidate.isSome) then
    rmSync plan ⟨.finish, .rmSync, 0, []⟩ (·.candidate) fun d b => { d with candidate := b }
  else return

def copyRetainedBundle (options : RetainedBundleOptions) : Copying RetainedBundleManifest := do
  let paths ← checkOptions options
  prepareDirectories plan
  tryFinally
    (do
      let manifest ← buildCandidate plan hash hashFiles paths
      replaceDirectory plan
      return manifest)
    (finish plan)

end Whole

end Atlas.Cli.RetainedBundle
