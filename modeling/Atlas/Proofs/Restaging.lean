import Atlas.Proofs.DeploymentLockout

/-!
# Staging a file again

A staged file and the journal that tells its hash are renamed into place one after the other, so a
crash between the two leaves the new file under the hash of the old one. Staging a path again is
safe from crashes only if the two cannot be told apart by what the journal says of them.
-/

namespace Atlas.Cli.Deployment

open Effects

section Holding

/-- A path is staged after its snapshot. -/
def Snapshotted (j : TransactionJournal) : Prop :=
  ∀ p, j.staged.get p ≠ none → j.hasSnapshot p = true

structure Proper (j : TransactionJournal) : Prop where
  readable : Readable j
  snapshotted : Snapshotted j

def Covered (d : Disk) : Prop := ∀ t j, d.transaction = some t → t.journal = some j → Snapshotted j

/-- What the store holds is what `open` would read. -/
def Mirrors (d : Disk) (j : TransactionJournal) : Prop :=
  ∀ t, d.transaction = some t → t.journal = some j ∧ t.before.isSome = true ∧ t.staged.isSome = true

/-- A process with a store, whose journal satisfies `P`. -/
structure Holding (P : TransactionJournal → Prop) (m : Machine) : Prop where
  disk : Covered m.disk
  passed : ∀ d ∈ m.passed, Covered d
  held : ∃ j, m.held = some j ∧ P j ∧ Mirrors m.disk j

variable {P Q : TransactionJournal → Prop} {m : Machine}

theorem Holding.imp (h : Holding P m) (himp : ∀ j, P j → Q j) : Holding Q m := by
  obtain ⟨j, hj, hP, hmirrors⟩ := h.held
  exact ⟨h.disk, h.passed, j, hj, himp j hP, hmirrors⟩

theorem Covered.keeps {d : Disk} (h : Covered d) {f : Disk → Disk} (hf : Disk.Keeps f) :
    Covered (f d) := by
  intro t' j ht' hj
  obtain ⟨t, ht, hjournal, -⟩ := hf d t' ht'
  exact h t j ht (hjournal ▸ hj)

theorem passed_after {m : Machine} {f : Disk → Disk} (hdisk : Covered m.disk)
    (hpassed : ∀ d ∈ m.passed, Covered d) : ∀ d ∈ (m.after f).passed, Covered d := by
  intro d hd
  rcases List.mem_append.1 hd with hd | hd
  · exact hpassed d hd
  · rw [List.mem_singleton.1 hd]
    exact hdisk

theorem holding_edited : Edited (Holding P) := by
  intro f hf m hm
  rw [wp_atomic]
  obtain ⟨j, hj, hP, hmirrors⟩ := hm.held
  refine ⟨⟨hm.disk.keeps hf, passed_after hm.disk hm.passed, j, hj, hP, fun t' ht' => ?_⟩, trivial⟩
  obtain ⟨t, ht, hjournal, hbefore, hstaged⟩ := hf m.disk t' ht'
  obtain ⟨hj', hbefore', hstaged'⟩ := hmirrors t ht
  exact ⟨hjournal.trans hj', hbefore hbefore', hstaged hstaged'⟩

theorem holding_held : Yields (Holding P) P held := by
  refine .bind Yields.get fun m hm => ?_
  obtain ⟨j, hj, hP, -⟩ := hm.held
  rw [hj]
  exact .pure hP

/-- A journal that is recorded is the one held, whether there is a directory for it or not. -/
theorem wp_record_holding {j : TransactionJournal} (hj : Snapshotted j) (h : Holding P m) :
    wp (record j) (fun _ => Holding (· = j)) (fun _ => Holding (· = j)) m := by
  obtain ⟨j', hj', -, hmirrors⟩ := h.held
  unfold record persist
  rw [wp_bind, wp_hold, wp_bind]
  refine wp_held rfl ?_
  rw [wp_bind, wp_get, wp_bind]
  refine wp_ensure (fun hsome => ?_) fun hnone => ?_
  · rw [wp_bind, wp_atomic, wp_atomic]
    refine ⟨fun t'' j'' ht'' hj'' => ?_, passed_after h.disk (passed_after h.disk h.passed), j, rfl,
      rfl, fun t'' ht'' => ?_⟩
    all_goals
      obtain ⟨t, ht, rfl⟩ := Option.map_eq_some_iff.1 ht''
      obtain ⟨-, hbefore, hstaged⟩ := hmirrors t ht
    · rw [← Option.some.inj hj'']
      exact hj
    · exact ⟨rfl, hbefore, hstaged⟩
  · refine ⟨h.disk, h.passed, j, rfl, rfl, fun t ht => ?_⟩
    replace ht : m.disk.transaction = some t := ht
    simp [ht] at hnone

theorem leaves_record {j : TransactionJournal} (hj : Proper j) :
    Leaves (Holding Proper) (record j) :=
  fun _ hm => wp_mono (wp_record_holding hj.snapshotted hm)
    (fun _ _ h => ⟨h.imp fun _ heq => heq ▸ hj, trivial⟩) fun _ _ h => h.imp fun _ heq => heq ▸ hj

end Holding

section Methods

variable {hash : Content → String} (hhash : ∀ content, isSha256 (hash content) = true)
  {m : Machine}

/-- A journal with a snapshot of the path, which is one of the configuration directory. -/
structure Covers (p : Path) (j : TransactionJournal) : Prop extends Proper j where
  root : isRootRelativePath p = true
  hasSnapshot : j.hasSnapshot p = true

theorem Proper.snapshot {j : TransactionJournal} (h : Proper j) {p : Path}
    {s : TransactionFileSnapshot} (hp : isRootRelativePath p = true) (hs : isSnapshot s = true) :
    Covers p { j with snapshots := j.snapshots.set p s } where
  readable := { h.readable with
    snapshots := fun q s' hs' => by
      simp only [OrderedMap.get_set] at hs'
      split_ifs at hs' with hqp
      · rw [hqp, ← Option.some.inj hs']
        exact ⟨hs, hp⟩
      · exact h.readable.snapshots q s' hs' }
  snapshotted q hq := by
    have hhas := h.snapshotted q hq
    simp only [TransactionJournal.hasSnapshot, OrderedMap.has_set, Bool.or_eq_true] at hhas ⊢
    exact hhas.imp_left .inr
  root := hp
  hasSnapshot := by simp [TransactionJournal.hasSnapshot, OrderedMap.has_set]

theorem Covers.stage {j : TransactionJournal} {p : Path} (h : Covers p j)
    {s : TransactionStagedFile} (hs : isSha256 s.sha256 = true) :
    Proper { j with staged := j.staged.set p s } where
  readable := { h.readable with
    staged := fun q s' hs' => by
      simp only [OrderedMap.get_set] at hs'
      split_ifs at hs' with hqp
      · rw [hqp, ← Option.some.inj hs']
        exact ⟨hs, h.root⟩
      · exact h.readable.staged q s' hs' }
  snapshotted q hq := by
    simp only [OrderedMap.get_set] at hq
    split_ifs at hq with hqp
    · exact hqp ▸ h.hasSnapshot
    · exact h.snapshotted q hq

include hhash

theorem wp_snapshot_holding {p : Path} (h : Holding Proper m) :
    wp (snapshot hash p) (fun _ => Holding (Covers p)) (fun _ => Holding Proper) m := by
  unfold snapshot
  refine (yields_ensure _ _).seq h (fun _ m hp h => ?_) fun _ _ h => h
  obtain ⟨j, hj, hproper, -⟩ := h.held
  rw [wp_bind]
  refine wp_held hj ?_
  split
  · rename_i hhas
    obtain ⟨j', hj', -, hmirrors⟩ := h.held
    obtain rfl := Option.some.inj (hj.symm.trans hj')
    exact ⟨h.disk, h.passed, j, hj, ⟨hproper, hp, hhas⟩, hmirrors⟩
  refine (leaves_assertNoSymlinkAncestors .root p).seq h (fun _ m _ h => ?_) fun _ _ h => h
  refine (leaves_lstat .root p).seq h (fun node m _ h => ?_) fun _ _ h => h
  refine (holding_edited.takeSnapshot hhash p node).seq h (fun s m hs h => ?_) fun _ _ h => h
  have hcovers := hproper.snapshot hp hs
  exact wp_mono (wp_record_holding hcovers.snapshotted h)
    (fun _ _ h => h.imp fun _ heq => heq ▸ hcovers)
    fun _ _ h => h.imp fun _ heq => heq ▸ hcovers.toProper

theorem leaves_snapshot (p : Path) : Leaves (Holding Proper) (snapshot hash p) := fun _ hm =>
  wp_mono (wp_snapshot_holding hhash hm) (fun _ _ h => ⟨h.imp fun _ hc => hc.toProper, trivial⟩)
    fun _ _ h => h

theorem leaves_stage (p : Path) (content : Content) (mode : ℕ) :
    Leaves (Holding Proper) (stage hash p content mode) := by
  refine .bind (leaves_ensure _ _) fun _ _ m hm => ?_
  rw [wp_bind]
  refine wp_mono (wp_snapshot_holding hhash hm) (fun _ m h => ?_) fun _ _ h => h
  have hE : ∀ (e : Fault) (m : Machine), Holding (Covers p) m → Holding Proper m :=
    fun _ _ h => h.imp fun _ hc => hc.toProper
  refine (leaves_ensure _ _).seq h (fun _ m _ h => ?_) hE
  refine (leaves_assertNoSymlinkAncestors .staged p).seq h (fun _ m _ h => ?_) hE
  refine (holding_edited.mkdirPrivate .staged _).seq h (fun _ m _ h => ?_) hE
  refine (holding_edited.writeFileDurably .staged p content mode).seq h (fun _ m _ h => ?_) hE
  refine holding_held.seq h (fun j m hj h => ?_) hE
  exact leaves_record (hj.stage (hhash content)) m (hE (.failed "") m h)

theorem leaves_applyStaged (p : Path) : Leaves (Holding Proper) (applyStaged hash p) :=
  .bind (leaves_ensure _ _) fun _ _ => .bind (leaves_snapshot hhash p) fun _ _ =>
    .bind (leaves_readStaged hash p) fun _ _ =>
      .bind (holding_edited.mkdirPrivate .root _) fun _ _ =>
        holding_edited.writeFileDurably .root p _ _

theorem leaves_remove (p : Path) : Leaves (Holding Proper) (remove hash p) :=
  .bind (leaves_ensure _ _) fun _ _ => .bind (leaves_snapshot hhash p) fun _ _ =>
    holding_edited.unlinkExisting p

omit hhash in
theorem leaves_advance {phase : TransactionPhase} {recovery : Option TransactionRecoveryMetadata}
    (now : ℕ) (hrecovery : recovery.all isRecoveryMetadata = true) :
    Leaves (Holding Proper) (advance phase recovery now) := by
  refine .bind holding_held fun j hj => .bind (leaves_ensure _ _) fun _ _ => leaves_record
    ⟨hj.readable.advanced hrecovery, ?_⟩
  have hsame : (advanced j phase recovery now).staged = j.staged
      ∧ (advanced j phase recovery now).snapshots = j.snapshots := by
    cases recovery <;> exact ⟨rfl, rfl⟩
  intro q hq
  rw [hsame.1] at hq
  rw [TransactionJournal.hasSnapshot, hsame.2]
  exact hj.snapshotted q hq

omit hhash in
theorem yields_read : Yields (Holding Proper) Proper read := by
  intro m hm
  obtain ⟨j, hj, hproper, hmirrors⟩ := hm.held
  unfold Deployment.read
  rw [wp_bind]
  refine wp_held hj ?_
  rw [wp_bind, wp_get]
  split
  · exact hm
  rename_i current hcurrent
  obtain ⟨t, ht, hjournal⟩ := Option.bind_eq_some_iff.1 hcurrent
  obtain rfl := Option.some.inj (hjournal.symm.trans (hmirrors t ht).1)
  rw [wp_bind]
  refine wp_ensure (fun _ => ?_) fun _ => hm
  rw [wp_bind]
  refine wp_ensure (fun _ => ?_) fun _ => hm
  rw [wp_bind, wp_hold, wp_bind]
  have hm' : Holding Proper { m with held := some current } :=
    ⟨hm.disk, hm.passed, current, rfl, hproper, hmirrors⟩
  exact wp_ensure (fun _ => ⟨hm', hproper⟩) fun _ => hm'

omit hhash in
theorem leaves_rollback (now : ℕ) : Leaves (Holding Proper) (rollback hash now) := by
  refine .bind yields_read fun current _ => ?_
  split
  · exact Yields.throw _
  · refine .bind (P := fun _ => True) (.forM fun p _ => holding_edited.restorePath hash current p)
      fun _ _ => .bind holding_held fun j hj => leaves_record ⟨?_, hj.snapshotted⟩
    obtain ⟨hid, howner, hsnapshots, hstaged, hrecovery⟩ := hj.readable
    exact ⟨hid, howner, hsnapshots, hstaged, hrecovery⟩

end Methods

section Reached

variable {hash : Content → String} (hhash : ∀ content, isSha256 (hash content) = true)
  {m m' : Machine}

/-- A process between two calls. -/
structure Resting (m : Machine) : Prop where
  disk : Covered m.disk
  passed : ∀ d ∈ m.passed, Covered d
  held : m.held ≠ none → Holding Proper m

theorem Holding.resting (h : Holding Proper m) : Resting m := ⟨h.disk, h.passed, fun _ => h⟩

/-- A process before a transaction is published. -/
structure Bare (m : Machine) : Prop where
  none : m.disk.transaction = none
  passed : ∀ d ∈ m.passed, Covered d
  held : ∀ j, m.held = some j → Proper j

theorem covered_of_none {d : Disk} (h : d.transaction = none) : Covered d :=
  fun t j ht => by simp [h] at ht

theorem Bare.resting (h : Bare m) : Resting m := by
  refine ⟨covered_of_none h.none, h.passed, fun hsome => ?_⟩
  obtain ⟨j, hj⟩ := Option.ne_none_iff_exists'.1 hsome
  exact ⟨covered_of_none h.none, h.passed, j, hj, h.held j hj, fun t ht => by simp [h.none] at ht⟩

theorem Bare.after (h : Bare m) {f : Disk → Disk}
    (hf : (f m.disk).transaction = m.disk.transaction) : Bare (m.after f) :=
  ⟨hf.trans h.none, passed_after (covered_of_none h.none) h.passed, h.held⟩

theorem Resting.bare (h : Resting m) (hnone : m.disk.transaction = none) : Bare m := by
  refine ⟨hnone, h.passed, fun j hj => ?_⟩
  obtain ⟨j', hj', hproper, -⟩ := (h.held (by simp [hj])).held
  exact Option.some.inj (hj'.symm.trans hj) ▸ hproper

theorem wp_begin_resting {options : BeginTransactionOptions}
    (hparse : parseJournal options.journal = true) (h : Resting m) :
    wp (begin options) (fun _ => Resting) (fun _ => Resting) m := by
  unfold begin
  rw [wp_bind]
  refine wp_ensure (fun _ => ?_) fun _ => h
  rw [wp_bind, wp_get, wp_bind]
  refine wp_ensure (fun hnone => ?_) fun _ => h
  rw [wp_bind, wp_get, wp_bind]
  refine wp_mono (wp_forM (I := fun _ => Bare) (E := fun _ _ => False) ?_ _ m
    (h.bare (by simpa using hnone))) (fun _ m hm => ?_) (fun _ _ hf => hf.elim)
  · intro name _ m hm
    unfold removeCandidate
    rw [wp_bind, wp_atomic, wp_atomic]
    exact (hm.after (f := id) rfl).after rfl
  rw [wp_bind]
  refine wp_ensure (fun _ => ?_) fun _ => hm.resting
  simp only [wp_bind, wp_atomic, wp_hold]
  -- the disks before the candidate is published, and the one after it
  have hpassed := (((((hm.after (f := fun d => { d with candidates := options.id :: d.candidates })
    rfl).after (f := id) rfl).after (f := id) rfl).after (f := id) rfl).after (f := id) rfl).after
      (f := id) rfl
  have hproper : Proper options.journal := ⟨readable_begin hparse, fun p hp => absurd rfl hp⟩
  refine Holding.resting ⟨fun t j ht hj => ?_, hpassed.passed, options.journal, rfl, hproper,
    fun t ht => ?_⟩
  · obtain rfl := Option.some.inj ht
    obtain rfl := Option.some.inj hj
    exact hproper.snapshotted
  · obtain rfl := Option.some.inj ht
    exact ⟨rfl, rfl, rfl⟩

theorem wp_open_resting (h : Resting m) :
    wp Deployment.open (fun _ => Resting) (fun _ => Resting) m := by
  unfold Deployment.open
  rw [wp_bind, wp_get]
  split
  · exact h
  rename_i t ht
  split
  · exact h
  rename_i j hj
  rw [wp_bind]
  refine wp_ensure (fun hparse => ?_) fun _ => h
  rw [wp_bind]
  refine wp_ensure (fun hbefore => ?_) fun _ => h
  rw [wp_bind]
  refine wp_ensure (fun hstaged => ?_) fun _ => h
  rw [wp_bind]
  refine wp_ensure (fun hpaths => ?_) fun _ => h
  have hproper : Proper j := ⟨readable_of hparse hpaths, h.disk t j ht hj⟩
  refine Holding.resting ⟨h.disk, h.passed, j, rfl, hproper, fun t' ht' => ?_⟩
  obtain rfl := Option.some.inj (ht.symm.trans ht')
  exact ⟨hj, hbefore, hstaged⟩

theorem Covered.removal {d : Disk} (h : Covered d) (r : Removal) :
    Covered { d with transaction := d.transaction.map r.apply } := by
  intro t' j ht' hj
  obtain ⟨t, ht, rfl⟩ := Option.map_eq_some_iff.1 ht'
  refine h t j ht ?_
  cases r with
  | journal => simp [Removal.apply] at hj
  | entry place p => cases place <;> exact hj
  | directory place => cases place <;> exact hj
  | stray => exact hj

/-- While the directory is removed, what is left of it may not be what is held. -/
theorem wp_cleanup_resting {order : List Removal} (h : Holding Proper m) :
    wp (cleanup order) (fun _ => Resting) (fun _ => Resting) m := by
  unfold cleanup
  refine yields_read.seq h (fun current m _ h => ?_) fun _ _ h => h.resting
  obtain ⟨j, hj, hproper, -⟩ := h.held
  rw [wp_bind]
  refine wp_ensure (fun _ => ?_) fun _ => h.resting
  rw [wp_bind]
  refine wp_mono (wp_forM (I := fun _ m => Covered m.disk ∧ (∀ d ∈ m.passed, Covered d)
    ∧ m.held = some j) (E := fun _ _ => False) ?_ _ m ⟨h.disk, h.passed, hj⟩) ?_
    (fun _ _ hf => hf.elim)
  · rintro r _ m ⟨hdisk, hpassed, hheld⟩
    unfold removeEntry
    rw [wp_atomic]
    exact ⟨hdisk.removal r, passed_after hdisk hpassed, hheld⟩
  · rintro _ m ⟨hdisk, hpassed, hheld⟩
    rw [wp_atomic]
    refine Bare.resting ⟨rfl, passed_after hdisk hpassed, fun j' hj' => ?_⟩
    exact Option.some.inj (hheld.symm.trans hj') ▸ hproper

include hhash

theorem wp_program_resting {op : Op} (hop : op.wellFormed) (h : Resting m) :
    wp (op.program hash) (fun _ => Resting) (fun _ => Resting) m := by
  have hleaves : Leaves (Holding Proper) (op.program hash) → m.held ≠ none →
      wp (op.program hash) (fun _ => Resting) (fun _ => Resting) m := fun hop hheld =>
    wp_mono (hop m (h.held hheld)) (fun _ _ h => h.1.resting) fun _ _ h => h.resting
  by_cases hidle : m.held = none ∧ (∀ options, op ≠ .begin options) ∧ op ≠ .open
  · exact wp_mono (wp_idle hidle.2 hidle.1) (fun _ _ heq => heq ▸ h) fun _ _ heq => heq ▸ h
  cases op with
  | begin options => exact wp_begin_resting hop h
  | «open» => exact wp_open_resting h
  | snapshot p => exact hleaves (leaves_snapshot hhash p) fun hnone => hidle ⟨hnone, by simp⟩
  | snapshotTree files =>
    exact hleaves (.forM fun p _ => leaves_snapshot hhash p) fun hnone => hidle ⟨hnone, by simp⟩
  | stage p content mode =>
    exact hleaves (leaves_stage hhash p content mode) fun hnone => hidle ⟨hnone, by simp⟩
  | applyStaged p => exact hleaves (leaves_applyStaged hhash p) fun hnone => hidle ⟨hnone, by simp⟩
  | remove p => exact hleaves (leaves_remove hhash p) fun hnone => hidle ⟨hnone, by simp⟩
  | advance phase recovery now =>
    exact hleaves (leaves_advance now hop) fun hnone => hidle ⟨hnone, by simp⟩
  | rollback now => exact hleaves (leaves_rollback now) fun hnone => hidle ⟨hnone, by simp⟩
  | cleanup order => exact wp_cleanup_resting (h.held fun hnone => hidle ⟨hnone, by simp⟩)

theorem reached_resting {start : Disk} (hnone : start.transaction = none)
    (hrun : Reached hash (fun _ op _ => op.wellFormed) (.fresh start) m) :
    Resting { m with passed := [] } := by
  induction hrun with
  | start => exact ⟨covered_of_none hnone, by simp, fun h => absurd rfl h⟩
  | step _ hstep hop ih =>
    have hend := exec_of_wp (wp_program_resting hhash hop ih)
    cases hstep with
    | ends =>
      refine ⟨hend.disk, by simp, fun hheld => ?_⟩
      exact ⟨hend.disk, by simp, (hend.held hheld).held⟩
    | crashes x d hx hd =>
      subst hx
      refine ⟨?_, by simp, fun hheld => absurd rfl hheld⟩
      rcases List.mem_cons.1 hd with rfl | hd
      · exact hend.disk
      · exact hend.passed d hd

end Reached

section Restaging

variable (hash : Content → String)

/-- What a process that finds the disk reads of the staged file. -/
def recovered (p : Path) (d : Disk) : Except Fault (Content × ℕ) :=
  (exec (Deployment.open >>= fun _ => readStaged hash p) (.fresh d)).1

/-- Wherever a call of `stage` ends or is interrupted, the old file or the new one is read. -/
def CrashAtomic (m : Machine) (p : Path) (content : Content) (mode : ℕ) (old : Content × ℕ) :
    Prop := ∀ m', Step hash (.stage p content mode) m m' →
    recovered hash p m'.disk = .ok old ∨ recovered hash p m'.disk = .ok (content, mode)

/-- A tree with a file on a path without symbolic links. -/
structure Tree.Holds (t : Tree) (p : Path) (file : Content × ℕ) : Prop where
  plain : ∀ a, a ≠ [] → a <+: p → Plain t a
  file : t p = some (.file file.1 file.2)

/-- A disk that can be opened, with an entry of the journal and a staged file. -/
structure StagedAt (p : Path) (j : TransactionJournal) (file : Content × ℕ) (d : Disk) : Prop where
  transaction : ∃ before staged base, d.transaction = some ⟨some j, some before, some staged, base⟩
    ∧ staged.Holds p file
  readable : Readable j

/-- The journal once the path has been staged. -/
def restaged (j : TransactionJournal) (p : Path) (content : Content) (mode : ℕ) :
    TransactionJournal :=
  { j with staged := j.staged.set p ⟨hash content, mode, content.length⟩ }

/-- What the journal says of a file is true of it. -/
def TransactionStagedFile.Describes (s : TransactionStagedFile) (file : Content × ℕ) : Prop :=
  hash file.1 = s.sha256 ∧ file.1.length = s.size ∧ file.2 = s.mode

variable {hash} {p : Path} {j : TransactionJournal} {s : TransactionStagedFile}
  {file : Content × ℕ} {m : Machine}

theorem Tree.Holds.unique {t : Tree} (h : t.Holds p file) {file' : Content × ℕ}
    (h' : t.Holds p file') : file' = file := by
  have heq := h'.file.symm.trans h.file
  simp only [Option.some.injEq, Node.file.injEq] at heq
  exact Prod.ext heq.1 heq.2

theorem Tree.Holds.not_blocked {t : Tree} (h : t.Holds p file) : t.blocked p = false := by
  by_cases hp : p = []
  · rw [hp]
    rfl
  · exact (h.plain p hp (List.prefix_refl p)).1

/-- A staged file that is read is there, and the journal describes it. -/
theorem wp_readStaged_of {t : Tree} (hheld : m.held = some j) (hs : j.staged.get p = some s)
    (ht : m.disk.tree .staged = some t) :
    wp (readStaged hash p) (fun x _ => t.Holds p x ∧ s.Describes hash x)
      (fun _ _ => ∀ x, t.Holds p x → ¬s.Describes hash x) m := by
  unfold readStaged
  rw [wp_bind]
  refine wp_held hheld ?_
  simp only [hs]
  rw [wp_bind]
  refine wp_assertNoSymlinkAncestors ht (fun hplain => ?_) ?_
  · rw [wp_bind]
    refine wp_lstat ht (fun _ => ?_) fun hblocked x hx => by simp [hx.not_blocked] at hblocked
    rw [wp_bind]
    refine wp_regularFile (fun content mode hfile => ?_) fun _ hno x hx => absurd hx.file (hno _ _)
    have hholds : t.Holds p (content, mode) := ⟨hplain, hfile⟩
    rw [wp_bind]
    refine wp_ensure (fun hhash => ?_) fun hhash x hx hdescribes => ?_
    · rw [wp_bind]
      refine wp_ensure (fun hmode => ?_) fun hmode x hx hdescribes => ?_
      · simp only [Bool.and_eq_true, decide_eq_true_eq] at hhash hmode
        subst hmode
        exact ⟨hholds, hhash.1, hhash.2, rfl⟩
      · rw [hholds.unique hx] at hdescribes
        simp [show mode = s.mode from hdescribes.2.2] at hmode
    · rw [hholds.unique hx] at hdescribes
      simp [hdescribes.1, hdescribes.2.1] at hhash
  · rintro _ ⟨a, hne, hpre, hno⟩ x hx
    exact absurd (hx.plain a hne hpre) hno

/-- The file is recovered if and only if the journal describes it. -/
theorem StagedAt.recovered_ok {d : Disk} (h : StagedAt p j file d) (hs : j.staged.get p = some s)
    {x : Content × ℕ} : recovered hash p d = .ok x ↔ s.Describes hash file ∧ x = file := by
  obtain ⟨⟨before, staged, base, ht, hfile⟩, hread⟩ := h
  have htree : ({ disk := d, passed := [], held := some j } : Machine).disk.tree .staged
      = some staged := by simp [Disk.tree, ht]
  refine (exec_ok_iff (P := fun x => staged.Holds p x ∧ s.Describes hash x) ?_ ?_).trans ?_
  · rw [wp_bind]
    refine wp_open_of ht hread ?_
    exact wp_mono (wp_readStaged_of rfl hs htree) (fun _ _ h => h) fun _ _ h x hx => h x hx.1 hx.2
  · exact fun x y hx hy => hy.1.unique hx.1
  · constructor
    · intro hx
      obtain rfl := hfile.unique hx.1
      exact ⟨hx.2, rfl⟩
    · rintro ⟨hdescribes, rfl⟩
      exact ⟨hfile, hdescribes⟩

theorem Plain.set {t : Tree} {a b : Path} {n : Option Node} (h : Plain t b)
    (hn : n ≠ some .symlink) (hdir : Above a b → n = some .dir) : Plain (t.set a n) b := by
  refine ⟨blocked_eq_false.2 fun c hc => ?_, ?_⟩
  · by_cases hca : c = a
    · rw [hca, set_self]
      exact .inr (hdir (hca ▸ hc))
    · rw [set_of_ne hca]
      exact blocked_eq_false.1 h.1 c hc
  · by_cases hba : b = a
    · rwa [hba, set_self]
    · rw [set_of_ne hba]
      exact h.2

/-- A directory is made on the way to a staged file. -/
theorem Tree.Holds.mkdir {t : Tree} (h : t.Holds p file) {a : Path} (hap : a ≠ p) :
    (t.set a (some .dir)).Holds p file where
  plain b hne hpre := (h.plain b hne hpre).set (by simp) fun _ => rfl
  file := by
    rw [set_of_ne hap.symm]
    exact h.file

theorem Tree.Holds.write {t : Tree} (h : t.Holds p file) (content : Content) (mode : ℕ) :
    (t.set p (some (.file content mode))).Holds p (content, mode) where
  plain b hne hpre := (h.plain b hne hpre).set (by simp) fun habove =>
    absurd (habove.2.1.eq_of_length_le hpre.length_le) habove.2.2
  file := set_self ..

theorem Tree.Holds.above {t : Tree} (h : t.Holds p file) {a : Path} (ha : Above a p) :
    t a = none ∨ t a = some .dir :=
  blocked_eq_false.1 h.not_blocked a ha

/-- The staged file is put in the place of another. -/
theorem StagedAt.setStaged {d : Disk} (h : StagedAt p j file d) {t t' : Tree}
    (ht : d.tree .staged = some t) {file' : Content × ℕ}
    (hfile : t.Holds p file → t'.Holds p file') : StagedAt p j file' (d.setTree t' .staged) := by
  obtain ⟨⟨before, staged, base, hd, hholds⟩, hread⟩ := h
  have heq : staged = t := by simpa [Disk.tree, hd] using ht
  exact ⟨⟨before, t', base, by simp [Disk.setTree, hd], hfile (heq ▸ hholds)⟩, hread⟩

theorem StagedAt.tree {d : Disk} (h : StagedAt p j file d) :
    ∃ t, d.tree .staged = some t ∧ t.Holds p file := by
  obtain ⟨⟨before, staged, base, hd, hholds⟩, -⟩ := h
  exact ⟨staged, by simp [Disk.tree, hd], hholds⟩

/-- A call that stages a path again, before it has come to the file. -/
structure Steady (p : Path) (j : TransactionJournal) (file : Content × ℕ) (m : Machine) : Prop where
  disk : StagedAt p j file m.disk
  passed : ∀ d ∈ m.passed, StagedAt p j file d
  held : m.held = some j

theorem Steady.setStaged (h : Steady p j file m) {t t' : Tree} (ht : m.disk.tree .staged = some t)
    (hfile : t.Holds p file → t'.Holds p file) :
    Steady p j file (m.after fun d => d.setTree t' .staged) where
  disk := h.disk.setStaged ht hfile
  passed d hd := by
    rcases List.mem_append.1 hd with hd | hd
    · exact h.passed d hd
    · rw [List.mem_singleton.1 hd]
      exact h.disk
  held := h.held

theorem wp_snapshot_of_has {Q : Unit → Machine → Prop} {E : Fault → Machine → Prop}
    (hp : isRootRelativePath p = true) (hheld : m.held = some j) (hhas : j.hasSnapshot p = true)
    (hQ : Q () m) : wp (snapshot hash p) Q E m := by
  unfold snapshot
  rw [wp_bind]
  refine wp_ensure (fun _ => ?_) fun hno => by simp [hp] at hno
  rw [wp_bind]
  refine wp_held hheld ?_
  rw [if_pos hhas]
  exact hQ

theorem StagedAt.setJournal {d : Disk} (h : StagedAt p j file d) {j' : TransactionJournal}
    (hread : Readable j') : StagedAt p j' file (d.setJournal j') := by
  obtain ⟨⟨before, staged, base, hd, hholds⟩, -⟩ := h
  exact ⟨⟨before, staged, base, by simp [Disk.setJournal, hd], hholds⟩, hread⟩

/-- What is left of the call once the file has been renamed. -/
theorem wp_record_restaged (hhash : ∀ content, isSha256 (hash content) = true)
    (h : Steady p j file m) {t : Tree} (ht : m.disk.tree .staged = some t)
    (hp : isRootRelativePath p = true) (content : Content) (mode : ℕ) :
    wp (held >>= fun j => record (restaged hash j p content mode))
      (fun _ m' => StagedAt p (restaged hash j p content mode) (content, mode) m'.disk
        ∧ (∃ d ∈ m'.passed, StagedAt p j (content, mode) d)
        ∧ ∀ d ∈ m'.passed, StagedAt p j file d ∨ StagedAt p j (content, mode) d)
      (fun _ _ => False)
      ((m.after id).after fun d => d.setTree (t.set p (some (.file content mode))) .staged) := by
  have hnew : StagedAt p j (content, mode)
      (m.disk.setTree (t.set p (some (.file content mode))) .staged) :=
    h.disk.setStaged ht fun hholds => hholds.write content mode
  have hread : Readable (restaged hash j p content mode) := by
    refine { h.disk.readable with staged := fun q s hs => ?_ }
    simp only [restaged, OrderedMap.get_set] at hs
    split_ifs at hs with hqp
    · rw [hqp, ← Option.some.inj hs]
      exact ⟨hhash content, hp⟩
    · exact h.disk.readable.staged q s hs
  rw [wp_bind]
  refine wp_held h.held ?_
  unfold record persist
  rw [wp_bind, wp_hold, wp_bind]
  refine wp_held rfl ?_
  rw [wp_bind, wp_get, wp_bind]
  refine wp_ensure (fun _ => ?_) fun hno => ?_
  · rw [wp_bind, wp_atomic, wp_atomic]
    refine ⟨hnew.setJournal hread, ⟨_, by simp [Machine.after], hnew⟩, fun d hd => ?_⟩
    simp only [Machine.after, List.mem_append, List.mem_singleton] at hd
    rcases hd with (((hd | rfl) | rfl) | rfl) | rfl
    · exact .inl (h.passed d hd)
    · exact .inl h.disk
    · exact .inl h.disk
    · exact .inr hnew
    · exact .inr hnew
  · obtain ⟨before, staged, base, hd, -⟩ := hnew.transaction
    replace hno : (m.disk.setTree (t.set p (some (.file content mode))) .staged).transaction.isSome
      = false := hno
    simp [hd] at hno

/-- A call that stages the path again, the disks it passes, and the one it ends on. -/
theorem wp_restage (hhash : ∀ content, isSha256 (hash content) = true) (h : Steady p j file m)
    (hs : j.staged.get p = some s) (hhas : j.hasSnapshot p = true) (content : Content) {mode : ℕ}
    (hmode : mode ≤ 0o777) :
    wp (stage hash p content mode)
      (fun _ m' => StagedAt p (restaged hash j p content mode) (content, mode) m'.disk
        ∧ (∃ d ∈ m'.passed, StagedAt p j (content, mode) d)
        ∧ ∀ d ∈ m'.passed, StagedAt p j file d ∨ StagedAt p j (content, mode) d)
      (fun _ _ => False) m := by
  have hp : isRootRelativePath p = true := (h.disk.readable.staged p s hs).2
  obtain ⟨t, ht, hholds⟩ := h.disk.tree
  unfold stage
  rw [wp_bind]
  refine wp_ensure (fun _ => ?_) fun hno => by simp [hp] at hno
  rw [wp_bind]
  refine wp_snapshot_of_has hp h.held hhas ?_
  rw [wp_bind]
  refine wp_ensure (fun _ => ?_) fun hno => by simp [hmode] at hno
  rw [wp_bind]
  refine wp_assertNoSymlinkAncestors ht (fun _ => ?_) fun _ ⟨a, hne, hpre, hno⟩ =>
    hno (hholds.plain a hne hpre)
  have habove : ∀ a, a ≠ [] → a <+: p.dropLast → Above a p := fun a hne hpre =>
    above_iff.2 ⟨hne, (List.mem_inits _ _).2 hpre⟩
  rw [wp_bind]
  refine wp_mono (wp_mkdirPrivate (I := Steady p j file) (fun m t a hm ht hne hpre _ _ =>
    hm.setStaged ht fun hholds => hholds.mkdir (habove a hne hpre).2.2) h ht) ?_ ?_
  · rintro _ m ⟨h, t, ht, hdirs⟩
    obtain ⟨t', ht', hholds⟩ := h.disk.tree
    obtain rfl := Option.some.inj (ht.symm.trans ht')
    rw [wp_bind]
    refine wp_writeFileDurably ht (fun _ _ => ?_) (fun hno => hno fun a ha => ?_) fun hdir => ?_
    · exact wp_record_restaged hhash h ht hp content mode
    · obtain ⟨hne, hmem⟩ := above_iff.1 ha
      exact hdirs a hne ((List.mem_inits _ _).1 hmem)
    · simp [hholds.file] at hdir
  · rintro _ m ⟨-, a, hne, hpre, hsome, hdir⟩
    rcases hholds.above (habove a hne hpre) with hnone | hdir'
    · exact hsome hnone
    · exact hdir hdir'

/-- What is read is staged, and on the disk. -/
theorem wp_readStaged_staged (hash : Content → String) (p : Path) (m : Machine) :
    wp (readStaged hash p) (fun x _ => ∃ j s t, m.held = some j ∧ j.staged.get p = some s
      ∧ m.disk.tree .staged = some t ∧ t.Holds p x ∧ s.Describes hash x) (fun _ _ => True) m := by
  cases hheld : m.held with
  | none =>
    unfold readStaged held
    simp only [wp_bind, wp_get, hheld, wp_fail]
  | some j =>
    cases hs : j.staged.get p with
    | none =>
      unfold readStaged
      rw [wp_bind]
      refine wp_held hheld ?_
      simp only [hs, wp_fail]
    | some s =>
      cases ht : m.disk.tree .staged with
      | none =>
        unfold readStaged
        rw [wp_bind]
        refine wp_held hheld ?_
        simp only [hs]
        refine (leaves_assertNoSymlinkAncestors (I := (· = m)) .staged p).seq rfl ?_
          fun _ _ _ => trivial
        rintro _ m' _ rfl
        unfold lstat tree
        simp only [wp_bind, wp_get, ht, wp_fail]
      | some t =>
        refine wp_mono (wp_readStaged_of hheld hs ht) (fun x _ hx => ?_) fun _ _ _ => trivial
        exact ⟨j, s, t, rfl, hs, rfl, hx⟩

/-- A file that is read from the store of a run is on the disk, under its own hash. -/
theorem steady_of_reached (hhash : ∀ content, isSha256 (hash content) = true) {start : Disk}
    (hnone : start.transaction = none)
    (hrun : Reached hash (fun _ op _ => op.wellFormed) (.fresh start) m)
    (hold : (exec (readStaged hash p) m).1 = .ok file) :
    ∃ j s, Steady p j file { m with passed := [] } ∧ j.staged.get p = some s
      ∧ j.hasSnapshot p = true ∧ s.Describes hash file := by
  have hrest := reached_resting hhash hnone hrun
  obtain ⟨j, s, t, hheld, hs, ht, hfile, hdescribes⟩ :=
    of_exec_ok (wp_readStaged_staged hash p m) hold
  obtain ⟨j', hj', hproper, hmirrors⟩ := (hrest.held (by simp [hheld])).held
  obtain rfl := Option.some.inj (hheld.symm.trans hj')
  obtain ⟨x, hx, hstaged⟩ := Option.bind_eq_some_iff.1 ht
  obtain ⟨hjournal, hbefore, -⟩ := hmirrors x hx
  obtain ⟨before, hbefore⟩ := Option.isSome_iff_exists.1 hbefore
  refine ⟨j, s, ⟨⟨⟨before, t, x.base, ?_, hfile⟩, hproper.readable⟩, by simp, hheld⟩, hs,
    hproper.snapshotted p (by simp [hs]), hdescribes⟩
  rw [← hjournal, ← hbefore, ← hstaged]
  exact hx

theorem crashAtomic_iff {content : Content} {mode : ℕ} {old : Content × ℕ} :
    CrashAtomic hash m p content mode old ↔
      ∀ d ∈ (exec (stage hash p content mode) { m with passed := [] }).2.disk ::
        (exec (stage hash p content mode) { m with passed := [] }).2.passed,
        recovered hash p d = .ok old ∨ recovered hash p d = .ok (content, mode) := by
  refine ⟨fun h d hd => h _ (.crashes _ m _ d rfl hd), fun h m' hstep => ?_⟩
  cases hstep with
  | ends => exact h _ List.mem_cons_self
  | crashes x d hx hd => exact h d (hx ▸ hd)

theorem crashAtomic_iff_describes (hhash : ∀ content, isSha256 (hash content) = true)
    (h : Steady p j file { m with passed := [] }) (hs : j.staged.get p = some s)
    (hhas : j.hasSnapshot p = true) (hfile : s.Describes hash file) (content : Content) {mode : ℕ}
    (hmode : mode ≤ 0o777) :
    CrashAtomic hash m p content mode file ↔ s.Describes hash (content, mode) := by
  obtain ⟨m', hexec, hend, ⟨d, hd, hbad⟩, hall⟩ :=
    exec_ok (wp_restage hhash h hs hhas content hmode)
  rw [crashAtomic_iff, hexec]
  constructor
  · intro hatomic
    rcases hatomic d (List.mem_cons_of_mem _ hd) with hok | hok
    · exact ((hbad.recovered_ok hs).1 hok).1
    · exact ((hbad.recovered_ok hs).1 hok).1
  · intro hdescribes d hd
    rcases List.mem_cons.1 hd with rfl | hd
    · exact .inr ((hend.recovered_ok OrderedMap.get_set_self).2 ⟨⟨rfl, rfl, rfl⟩, rfl⟩)
    · rcases hall d hd with hat | hat
      · exact .inl ((hat.recovered_ok hs).2 ⟨hfile, rfl⟩)
      · exact .inr ((hat.recovered_ok hs).2 ⟨hdescribes, rfl⟩)

/-- A mode that is none is refused before anything is written. -/
theorem crashAtomic_of_lt (h : Steady p j file { m with passed := [] })
    (hs : j.staged.get p = some s) (hhas : j.hasSnapshot p = true) (hfile : s.Describes hash file)
    (content : Content) {mode : ℕ} (hmode : 0o777 < mode) :
    CrashAtomic hash m p content mode file := by
  have hp : isRootRelativePath p = true := (h.disk.readable.staged p s hs).2
  have hwp : wp (stage hash p content mode) (fun _ => Steady p j file) (fun _ => Steady p j file)
      { m with passed := [] } := by
    unfold stage
    rw [wp_bind]
    refine wp_ensure (fun _ => ?_) fun _ => h
    rw [wp_bind]
    refine wp_snapshot_of_has hp h.held hhas ?_
    rw [wp_bind]
    refine wp_ensure (fun hle => ?_) fun _ => h
    have := of_decide_eq_true hle
    omega
  have hend := exec_of_wp hwp
  refine crashAtomic_iff.2 fun d hd => .inl ?_
  rcases List.mem_cons.1 hd with rfl | hd
  · exact (hend.disk.recovered_ok hs).2 ⟨hfile, rfl⟩
  · exact ((hend.passed d hd).recovered_ok hs).2 ⟨hfile, rfl⟩

/-- Staging a path again is safe from crashes if and only if the call is refused, or the journal
says the same of the new file as of the old one. -/
theorem restage_crash_atomic (hhash : ∀ content, isSha256 (hash content) = true) (start : Disk)
    (hnone : start.transaction = none) (m : Machine)
    (hrun : Reached hash (fun _ op _ => op.wellFormed) (.fresh start) m) (p : Path)
    (old : Content × ℕ) (hold : (exec (readStaged hash p) m).1 = .ok old) (content : Content)
    (mode : ℕ) :
    CrashAtomic hash m p content mode old ↔ 0o777 < mode
      ∨ hash content = hash old.1 ∧ content.length = old.1.length ∧ mode = old.2 := by
  obtain ⟨j, s, hsteady, hs, hhas, hfile⟩ := steady_of_reached hhash hnone hrun hold
  rcases Nat.lt_or_ge 0o777 mode with hmode | hmode
  · exact iff_of_true (crashAtomic_of_lt hsteady hs hhas hfile content hmode) (.inl hmode)
  · rw [crashAtomic_iff_describes hhash hsteady hs hhas hfile content hmode,
      or_iff_right (by omega)]
    obtain ⟨hsha, hsize, hmode'⟩ := hfile
    rw [TransactionStagedFile.Describes, hsha, hsize, hmode']

end Restaging

section Failing

theorem configured_reached :
    Reached zeroHash (fun _ op _ => op.wellFormed) (.fresh emptyDisk) configured := by
  refine reached_calls _ .start fun _ _ op hop => ?_
  simp only [List.mem_cons, List.not_mem_nil, or_false] at hop
  rcases hop with rfl | rfl
  · exact plainOptions_parses
  · trivial

theorem configured_staged :
    (exec (readStaged zeroHash ["config.json"]) configured).1 = .ok ([1], 0o600) := by
  decide +kernel

theorem restage_crash_atomic_same :
    CrashAtomic zeroHash configured ["config.json"] [1] 0o600 ([1], 0o600) :=
  (restage_crash_atomic zeroHash_sha256 emptyDisk rfl configured configured_reached ["config.json"]
    ([1], 0o600) configured_staged [1] 0o600).2 (.inr ⟨rfl, rfl, rfl⟩)

/-- A longer file is staged over one, and neither can be read after a crash between the renames. -/
theorem restage_crash_torn :
    ¬∀ (hash : Content → String), (∀ content, isSha256 (hash content) = true) → ∀ start : Disk,
      start.transaction = none → ∀ m : Machine,
      Reached hash (fun _ op _ => op.wellFormed) (.fresh start) m →
      ∀ (p : Path) (old : Content × ℕ), (exec (readStaged hash p) m).1 = .ok old →
      ∀ (content : Content) (mode : ℕ), mode ≤ 0o777 → CrashAtomic hash m p content mode old := by
  intro h
  obtain ⟨j, s, hsteady, hs, hhas, hfile⟩ :=
    steady_of_reached zeroHash_sha256 rfl configured_reached configured_staged
  have hatomic := h zeroHash zeroHash_sha256 emptyDisk rfl configured configured_reached
    ["config.json"] ([1], 0o600) configured_staged [1, 2] 0o600 (by decide)
  have hnew := (crashAtomic_iff_describes zeroHash_sha256 hsteady hs hhas hfile [1, 2]
    (by decide)).1 hatomic
  have hsize := hfile.2.1.trans hnew.2.1.symm
  simp at hsize

end Failing

end Atlas.Cli.Deployment
