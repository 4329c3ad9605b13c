import Atlas.Lib.Effects
import Atlas.Lib.OrderedMap

/-!
# Deployment transactions

The store that keeps the files of the configuration directory as they were before a deployment
change. Its methods are programs over a disk. Every file operation that is atomic is a step of its
own and leaves the disk before it among the disks that have been passed, so a crash of a method is
one of those disks. A file is replaced by renaming a temporary file over it; the temporary file has
a random name nothing else uses, and is not kept account of.
-/

namespace Atlas.Cli.Deployment

open Effects

section Files

/-- The components of a normalized relative path. -/
abbrev Path : Type := List String

abbrev Content : Type := List UInt8

/-- What `lstat` tells of an entry, with what a regular file holds. -/
inductive Node where
  | file (content : Content) (mode : ℕ)
  | dir
  | symlink
  | other
  deriving DecidableEq, Repr

/-- The entries below a directory. -/
abbrev Tree : Type := Path → Option Node

namespace Tree

def empty : Tree := fun _ => none

def set (t : Tree) (p : Path) (n : Option Node) : Tree := fun q => if q = p then n else t q

/-- An entry in the way of the path: one above it that is no directory. -/
def blocked (t : Tree) (p : Path) : Bool :=
  p.dropLast.inits.any fun a => a ≠ [] && t a ≠ none && t a ≠ some .dir

end Tree

end Files

section Journal

inductive TransactionPhase where
  | prepared
  | runtimeChanging
  | coreStarted
  | credentialsDurable
  | committed
  | rollbackComplete
  deriving DecidableEq, Repr

inductive TransactionOperation where
  | init | coreUpdate | start | stop | restart | reset | config | repair | engineRecovery
  | pluginInstall | pluginEnable | pluginDisable | pluginUpdate | pluginRollback | pluginUninstall
  | pluginRefresh | pluginKeyRotation | pluginRotateCoreKey
  deriving DecidableEq, Repr

structure TransactionOwnerIdentity where
  pid : ℤ
  bootIdentity : String
  processStartIdentity : String
  dockerEngineId : String
  deriving DecidableEq, Repr

inductive TransactionFileSnapshot where
  | present (sha256 : String) (mode size : ℕ)
  | absent
  deriving DecidableEq, Repr

structure TransactionStagedFile where
  sha256 : String
  mode : ℕ
  size : ℕ
  deriving DecidableEq, Repr

structure TransactionRecoveryMetadata where
  fromPackageVersion : Option String
  targetPackageVersion : Option String
  targetCoreImage : Option String
  priorMigrationLedger : Option String
  priorBackupIdentity : Option String
  targetStatePath : Option String
  priorPluginHealthy : Option Bool
  deriving DecidableEq, Repr

/-- What `journal.json` holds. -/
structure TransactionJournal where
  id : String
  operation : TransactionOperation
  owner : TransactionOwnerIdentity
  previousRunning : Bool
  desiredRunning : Bool
  phase : TransactionPhase
  createdAt : ℕ
  updatedAt : ℕ
  snapshots : OrderedMap Path TransactionFileSnapshot
  staged : OrderedMap Path TransactionStagedFile
  recovery : Option TransactionRecoveryMetadata

def isOwnerIdentity (owner : TransactionOwnerIdentity) : Bool :=
  owner.bootIdentity ≠ "" && owner.processStartIdentity ≠ "" && owner.dockerEngineId ≠ ""

def isHexadecimal (c : Char) : Bool := ('0' ≤ c && c ≤ '9') || ('a' ≤ c && c ≤ 'f')

/-- `SHA256_PATTERN`. -/
def isSha256 (s : String) : Bool :=
  "sha256:".toList.isPrefixOf s.toList && (s.toList.drop 7).length = 64
    && (s.toList.drop 7).all isHexadecimal

def isRecoveryMetadata (recovery : TransactionRecoveryMetadata) : Bool :=
  recovery.priorBackupIdentity.all isSha256

def isSnapshot : TransactionFileSnapshot → Bool
  | .present sha256 _ _ => isSha256 sha256
  | .absent => true

/-- What `parseJournal` accepts of what the store may have written. -/
def parseJournal (j : TransactionJournal) : Bool :=
  j.id ≠ "" && isOwnerIdentity j.owner && j.snapshots.values.all isSnapshot
    && j.staged.values.all (fun s => isSha256 s.sha256) && j.recovery.all isRecoveryMetadata

/-- The transaction directory: the journal, and the directories of the files before the change and
of the staged ones. The tree of the configuration directory when it was published is a ghost. -/
structure TransactionDirectory where
  journal : Option TransactionJournal
  before : Option Tree
  staged : Option Tree
  base : Tree

/-- The configuration directory without the directories of the store, the transaction directory,
and the names of the candidates that `begin` has left. -/
structure Disk where
  root : Tree
  transaction : Option TransactionDirectory
  candidates : List String

/-- A process that uses the store: the disk, the disks passed, and the store it holds. -/
structure Machine where
  disk : Disk
  passed : List Disk
  held : Option TransactionJournal

end Journal

section Programs

inductive Fault where
  | failed (message : String)
  | recoveryRequired (phase : TransactionPhase)
  deriving DecidableEq, Repr

abbrev Tx (α : Type) : Type := Eff Machine Fault α

def fail {α : Type} (message : String) : Tx α := throw (.failed message)

def ensure (condition : Bool) (message : String) : Tx Unit :=
  if condition then pure () else fail message

/-- One atomic file operation. -/
def atomic (f : Disk → Disk) : Tx Unit :=
  modify fun m => { m with disk := f m.disk, passed := m.passed ++ [m.disk] }

def hold (j : TransactionJournal) : Tx Unit := modify fun m => { m with held := some j }

/-- `this.#journal`. -/
def held : Tx TransactionJournal := do
  match (← get).held with
  | some j => return j
  | none => fail "no store"

end Programs

section Places

/-- The three trees files are read and written in. -/
inductive Place where
  | root
  | before
  | staged
  deriving DecidableEq, Repr

def Disk.tree (d : Disk) : Place → Option Tree
  | .root => some d.root
  | .before => d.transaction.bind (·.before)
  | .staged => d.transaction.bind (·.staged)

def Disk.setTree (d : Disk) (t : Tree) : Place → Disk
  | .root => { d with root := t }
  | .before => { d with transaction := d.transaction.map fun x => { x with before := some t } }
  | .staged => { d with transaction := d.transaction.map fun x => { x with staged := some t } }

def Disk.setJournal (d : Disk) (j : TransactionJournal) : Disk :=
  { d with transaction := d.transaction.map fun x => { x with journal := some j } }

def tree (place : Place) : Tx Tree := do
  match (← get).disk.tree place with
  | some t => return t
  | none => fail "ENOENT"

/-- Change one entry of a tree. -/
def setEntry (place : Place) (p : Path) (n : Option Node) : Tx Unit := do
  let t ← tree place
  atomic fun d => d.setTree (t.set p n) place

/-- `lstat`, where ENOENT is no entry; a path below a file is ENOTDIR. -/
def lstat (place : Place) (p : Path) : Tx (Option Node) := do
  let t ← tree place
  ensure (!t.blocked p) "ENOTDIR"
  return t p

/-- One pass of `assertNoSymlinkAncestors`. -/
def assertNoSymlink (place : Place) (a : Path) : Tx Unit := do
  let node ← lstat place a
  ensure (node ≠ some .symlink) "Transaction path contains a symbolic link"

def assertNoSymlinkAncestors (place : Place) (p : Path) : Tx Unit :=
  (p.inits.drop 1).forM (assertNoSymlink place)

/-- The content and the mode of a regular file. -/
def regularFile (node : Option Node) : Tx (Content × ℕ) :=
  match node with
  | some (.file content mode) => return (content, mode)
  | some .symlink => fail "must not be a symbolic link"
  | some _ => fail "must be a regular file"
  | none => fail "ENOENT"

/-- One level of a recursive `mkdir`. -/
def mkdir (place : Place) (a : Path) : Tx Unit := do
  match ← lstat place a with
  | none => setEntry place a (some .dir)
  | some .dir => return
  | some _ => fail "transaction path must be a real directory"

/-- A recursive `mkdir` of what is below a directory that exists. -/
def mkdirBelow (place : Place) : Path → Path → Tx Unit
  | _, [] => return
  | above, c :: rest => do
    mkdir place (above ++ [c])
    mkdirBelow place (above ++ [c]) rest

def mkdirPrivate (place : Place) (p : Path) : Tx Unit := mkdirBelow place [] p

/-- A temporary file, renamed over the path. -/
def writeFileDurably (place : Place) (p : Path) (content : Content) (mode : ℕ) : Tx Unit := do
  let t ← tree place
  ensure (p.dropLast.inits.all fun a => a = [] || t a = some .dir) "ENOENT"
  atomic id
  ensure (t p ≠ some .dir) "EISDIR"
  setEntry place p (some (.file content mode))

end Places

section Store

variable (hash : Content → String)

def excludedPaths : List Path := [["catalog-state.json"], ["run-intent.json"]]

def transactionDirectory : String := "transaction"

def isComponent (c : String) : Bool :=
  c ≠ "" && c ≠ "." && c ≠ ".." && c.toList.all fun ch => ch ≠ '/' && ch ≠ '\x00'

/-- `#validateRootRelativePath` of a path that has been normalized. -/
def isRootRelativePath (p : Path) : Bool :=
  p ≠ [] && p.all isComponent && p ∉ excludedPaths && p.head? ≠ some transactionDirectory

/-- The keys an object has from its prototype. -/
def inheritedKeys : List String :=
  ["constructor", "__defineGetter__", "__defineSetter__", "hasOwnProperty", "__lookupGetter__",
    "__lookupSetter__", "isPrototypeOf", "propertyIsEnumerable", "toString", "valueOf", "__proto__",
    "toLocaleString"]

/-- A path whose key every object has. -/
def isInherited (p : Path) : Bool := inheritedKeys.any fun k => p = [k]

/-- `snapshots[path]` is not undefined. -/
def TransactionJournal.hasSnapshot (j : TransactionJournal) (p : Path) : Bool :=
  j.snapshots.has p || isInherited p

/-- `#persist`. -/
def persist : Tx Unit := do
  let j ← held
  ensure (← get).disk.transaction.isSome "ENOENT"
  atomic id
  atomic fun d => d.setJournal j

/-- A journal that is replaced in the store and then on the disk. -/
def record (j : TransactionJournal) : Tx Unit := do
  hold j
  persist

/-- What a snapshot copies of a file. -/
def keepBefore (p : Path) (content : Content) (mode : ℕ) : Tx Unit := do
  assertNoSymlinkAncestors .before p
  mkdirPrivate .before p.dropLast
  writeFileDurably .before p content mode

/-- The snapshot of an entry, with the copy it leaves. -/
def takeSnapshot (p : Path) (node : Option Node) : Tx TransactionFileSnapshot := do
  match node with
  | none => return .absent
  | some _ => do
    let file ← regularFile node
    keepBefore p file.1 file.2
    return .present (hash file.1) file.2 file.1.length

def snapshot (p : Path) : Tx Unit := do
  ensure (isRootRelativePath p) "Invalid transaction path"
  let j ← held
  if j.hasSnapshot p then return else
    assertNoSymlinkAncestors .root p
    let node ← lstat .root p
    let snapshot ← takeSnapshot hash p node
    record { j with snapshots := j.snapshots.set p snapshot }

/-- `snapshotTree`, given the regular files of the directory in the order they are listed in. -/
def snapshotTree (files : List Path) : Tx Unit := files.forM (snapshot hash)

def stage (p : Path) (content : Content) (mode : ℕ) : Tx Unit := do
  ensure (isRootRelativePath p) "Invalid transaction path"
  snapshot hash p
  ensure (mode ≤ 0o777) "Invalid staged file mode"
  assertNoSymlinkAncestors .staged p
  mkdirPrivate .staged p.dropLast
  writeFileDurably .staged p content mode
  let j ← held
  record { j with staged := j.staged.set p ⟨hash content, mode, content.length⟩ }

/-- `stagedPath` with what is read there. -/
def readStaged (p : Path) : Tx (Content × ℕ) := do
  let j ← held
  match j.staged.get p with
  | none => fail "Deployment transaction has no staged file"
  | some metadata => do
    assertNoSymlinkAncestors .staged p
    let node ← lstat .staged p
    let file ← regularFile node
    ensure (hash file.1 = metadata.sha256 && file.1.length = metadata.size)
      "Staged file failed its transaction hash check"
    ensure (file.2 = metadata.mode) "Staged file has an unexpected mode"
    return (file.1, metadata.mode)

def applyStaged (p : Path) : Tx Unit := do
  ensure (isRootRelativePath p) "Invalid transaction path"
  snapshot hash p
  let file ← readStaged hash p
  mkdirPrivate .root p.dropLast
  writeFileDurably .root p file.1 file.2

/-- The unlinking of a file that exists. -/
def unlinkExisting (p : Path) : Tx Unit := do
  let node ← lstat .root p
  if node = none then return else
    let _ ← regularFile node
    setEntry .root p none

def remove (p : Path) : Tx Unit := do
  ensure (isRootRelativePath p) "Invalid transaction path"
  snapshot hash p
  unlinkExisting p

def phaseIndex : TransactionPhase → ℤ
  | .prepared => 0
  | .runtimeChanging => 1
  | .coreStarted => 2
  | .credentialsDurable => 3
  | .committed => 4
  | .rollbackComplete => -1

/-- What `assertPhaseTransition` lets pass. -/
def allowsTransition (source target : TransactionPhase) : Bool :=
  source ≠ .rollbackComplete && source ≠ .committed
    && (target = .rollbackComplete || phaseIndex source ≤ phaseIndex target)

/-- `{ ...recovery, ...update }`. -/
def mergeRecovery (recovery : Option TransactionRecoveryMetadata)
    (update : TransactionRecoveryMetadata) : TransactionRecoveryMetadata :=
  match recovery with
  | none => update
  | some r =>
    ⟨update.fromPackageVersion <|> r.fromPackageVersion,
      update.targetPackageVersion <|> r.targetPackageVersion,
      update.targetCoreImage <|> r.targetCoreImage,
      update.priorMigrationLedger <|> r.priorMigrationLedger,
      update.priorBackupIdentity <|> r.priorBackupIdentity,
      update.targetStatePath <|> r.targetStatePath,
      update.priorPluginHealthy <|> r.priorPluginHealthy⟩

/-- The journal after an advance. -/
def advanced (j : TransactionJournal) (phase : TransactionPhase)
    (recovery : Option TransactionRecoveryMetadata) (now : ℕ) : TransactionJournal :=
  match recovery with
  | none => { j with phase, updatedAt := now }
  | some update =>
    { j with phase, updatedAt := now, recovery := some (mergeRecovery j.recovery update) }

def advance (phase : TransactionPhase) (recovery : Option TransactionRecoveryMetadata) (now : ℕ) :
    Tx Unit := do
  let j ← held
  ensure (allowsTransition j.phase phase) "Deployment transaction phase cannot change"
  record (advanced j phase recovery now)

/-- `read`: the journal anew from the disk. -/
def read : Tx TransactionJournal := do
  let j ← held
  match (← get).disk.transaction.bind (·.journal) with
  | none => fail "ENOENT"
  | some current => do
    ensure (parseJournal current) "Atlas Core deployment transaction journal is invalid"
    ensure (current.id = j.id) "Deployment transaction journal changed ownership"
    hold current
    ensure ((current.snapshots.keys ++ current.staged.keys).all isRootRelativePath)
      "Invalid transaction path"
    return current

/-- One pass of `#restoreSnapshots`. -/
def restoreSnapshot (p : Path) (snapshot : TransactionFileSnapshot) : Tx Unit := do
  assertNoSymlinkAncestors .root p
  match snapshot with
  | .absent => unlinkExisting p
  | .present sha256 mode _ => do
    assertNoSymlinkAncestors .before p
    let node ← lstat .before p
    let file ← regularFile node
    ensure (hash file.1 = sha256) "Transaction before file failed its hash check"
    mkdirPrivate .root p.dropLast
    writeFileDurably .root p file.1 mode

def restorePath (j : TransactionJournal) (p : Path) : Tx Unit :=
  match j.snapshots.get p with
  | none => return
  | some snapshot => restoreSnapshot hash p snapshot

/-- The paths in the order of their names. -/
def sortPaths (paths : List Path) : List Path :=
  paths.mergeSort fun p q => decide ("/".intercalate p ≤ "/".intercalate q)

def restoreSnapshots (current : TransactionJournal) (now : ℕ) : Tx Unit := do
  (sortPaths current.snapshots.keys).forM (restorePath hash current)
  let j ← held
  record { j with phase := .rollbackComplete, updatedAt := now }

def rollback (now : ℕ) : Tx Unit := do
  let current ← read
  if current.phase = .coreStarted ∨ current.phase = .credentialsDurable
      ∨ current.phase = .committed then
    throw (.recoveryRequired current.phase)
  else restoreSnapshots hash current now

structure BeginTransactionOptions where
  operation : TransactionOperation
  dockerEngineId : String
  previousRunning : Bool
  desiredRunning : Bool
  owner : TransactionOwnerIdentity
  id : String
  now : ℕ
  recovery : Option TransactionRecoveryMetadata

/-- The journal a transaction begins with. -/
def BeginTransactionOptions.journal (options : BeginTransactionOptions) : TransactionJournal where
  id := options.id
  operation := options.operation
  owner := options.owner
  previousRunning := options.previousRunning
  desiredRunning := options.desiredRunning
  phase := .prepared
  createdAt := options.now
  updatedAt := options.now
  snapshots := OrderedMap.empty
  staged := OrderedMap.empty
  recovery := options.recovery

/-- The removal of one abandoned candidate; nothing reads what is left of it. -/
def removeCandidate (name : String) : Tx Unit := do
  atomic id
  atomic fun d => { d with candidates := d.candidates.filter (· ≠ name) }

/-- What `begin` renames its candidate to. -/
def Disk.publish (d : Disk) (j : TransactionJournal) : Disk :=
  { d with
    transaction := some ⟨some j, some Tree.empty, some Tree.empty, d.root⟩
    candidates := d.candidates.filter (· ≠ j.id) }

def begin (options : BeginTransactionOptions) : Tx Unit := do
  ensure (options.dockerEngineId ≠ "") "Deployment transaction requires a Docker engine ID."
  ensure (← get).disk.transaction.isNone
    "Atlas Core already has a pending deployment transaction"
  (← get).disk.candidates.forM removeCandidate
  ensure (options.owner.dockerEngineId = options.dockerEngineId)
    "Deployment transaction owner Docker engine does not match the requested engine."
  -- the candidate, its two directories, and its journal, first as a temporary file
  atomic fun d => { d with candidates := options.id :: d.candidates }
  atomic id
  atomic id
  atomic id
  atomic id
  atomic fun d => d.publish options.journal
  hold options.journal

def «open» : Tx Unit := do
  match (← get).disk.transaction with
  | none => fail "Missing transaction directory"
  | some t => do
    match t.journal with
    | none => fail "ENOENT"
    | some j => do
      ensure (parseJournal j) "Atlas Core deployment transaction journal is invalid"
      ensure t.before.isSome "Missing transaction before directory"
      ensure t.staged.isSome "Missing transaction staged directory"
      ensure ((j.snapshots.keys ++ j.staged.keys).all isRootRelativePath)
        "Invalid transaction path"
      hold j

/-- An entry of the transaction directory that a recursive removal deletes. -/
inductive Removal where
  | journal
  | entry (place : Place) (p : Path)
  | directory (place : Place)
  | stray
  deriving DecidableEq, Repr

def Removal.apply (r : Removal) (t : TransactionDirectory) : TransactionDirectory :=
  match r with
  | .journal => { t with journal := none }
  | .entry .before p => { t with before := t.before.map (·.set p none) }
  | .entry .staged p => { t with staged := t.staged.map (·.set p none) }
  | .directory .before => { t with before := none }
  | .directory .staged => { t with staged := none }
  | _ => t

def removeEntry (r : Removal) : Tx Unit :=
  atomic fun d => { d with transaction := d.transaction.map r.apply }

/-- `cleanup`, given the order in which the entries are deleted. -/
def cleanup (order : List Removal) : Tx Unit := do
  let current ← read
  ensure (current.phase = .committed || current.phase = .rollbackComplete)
    "Cannot clean up deployment transaction"
  order.forM removeEntry
  atomic fun d => { d with transaction := none }

end Store

section Runs

/-- The methods of the store, with their arguments. -/
inductive Op where
  | begin (options : BeginTransactionOptions)
  | open
  | snapshot (p : Path)
  | snapshotTree (files : List Path)
  | stage (p : Path) (content : Content) (mode : ℕ)
  | applyStaged (p : Path)
  | remove (p : Path)
  | advance (phase : TransactionPhase) (recovery : Option TransactionRecoveryMetadata) (now : ℕ)
  | rollback (now : ℕ)
  | cleanup (order : List Removal)

def Op.program (hash : Content → String) : Op → Tx Unit
  | .begin options => Deployment.begin options
  | .open => Deployment.open
  | .snapshot p => Deployment.snapshot hash p
  | .snapshotTree files => Deployment.snapshotTree hash files
  | .stage p content mode => Deployment.stage hash p content mode
  | .applyStaged p => Deployment.applyStaged hash p
  | .remove p => Deployment.remove hash p
  | .advance phase recovery now => Deployment.advance phase recovery now
  | .rollback now => Deployment.rollback hash now
  | .cleanup order => Deployment.cleanup order

/-- The process alone with a disk. -/
def Machine.fresh (d : Disk) : Machine := ⟨d, [], none⟩

/-- A method that is called, to its end or up to a crash on one of the disks it passes, after
which there is no store. -/
inductive Step (hash : Content → String) : Op → Machine → Machine → Prop
  | ends (op : Op) (m : Machine) :
      Step hash op m { (exec (op.program hash) { m with passed := [] }).2 with passed := [] }
  | crashes (op : Op) (m m' : Machine) (d : Disk)
      (hm' : m' = (exec (op.program hash) { m with passed := [] }).2)
      (hd : d ∈ m'.disk :: m'.passed) : Step hash op m (.fresh d)

/-- The machines a run leads to, every call of which meets the condition. -/
inductive Reached (hash : Content → String) (meets : Machine → Op → Machine → Prop)
    (start : Machine) : Machine → Prop
  | start : Reached hash meets start start
  | step {m m' : Machine} {op : Op} : Reached hash meets start m → Step hash op m m' →
      meets m op m' → Reached hash meets start m'

end Runs

end Atlas.Cli.Deployment
