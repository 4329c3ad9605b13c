import Atlas.Proofs.DeploymentCrash

/-!
# Finishing a deployment transaction that was left

A transaction directory that holds its journal and both trees can be opened and finished, so that
the next one can begin. Every method but `cleanup` keeps it so at each of its steps; the recursive
removal does not, and a process that dies in it after the first of the three is gone leaves a
directory that can neither be opened nor begun over.
-/

namespace Atlas.Cli.Deployment

open Effects

section Yields

variable {σ ε α β : Type} {I : σ → Prop}

/-- A program that keeps `I`, and whose results satisfy `P`. -/
def Yields (I : σ → Prop) (P : α → Prop) (m : Eff σ ε α) : Prop :=
  ∀ s, I s → wp m (fun a s' => I s' ∧ P a) (fun _ => I) s

variable {P : α → Prop} {Q : β → Prop}

theorem Yields.bind {m : Eff σ ε α} {f : α → Eff σ ε β} (hm : Yields I P m)
    (hf : ∀ a, P a → Yields I Q (f a)) : Yields I Q (m >>= f) := by
  intro s hs
  rw [wp_bind]
  exact wp_mono (hm s hs) (fun a s' h => hf a h.2 s' h.1) fun _ _ h => h

/-- What is done after a program that keeps `I`. -/
theorem Yields.seq {m : Eff σ ε α} (hm : Yields I P m) {s : σ} (hs : I s) {f : α → Eff σ ε β}
    {Q : β → σ → Prop} {E : ε → σ → Prop} (hf : ∀ a s', P a → I s' → wp (f a) Q E s')
    (hE : ∀ e s', I s' → E e s') : wp (m >>= f) Q E s := by
  rw [wp_bind]
  exact wp_mono (hm s hs) (fun a s' h => hf a s' h.2 h.1) hE

theorem Yields.pure {a : α} (ha : P a) : Yields I P (pure a : Eff σ ε α) := fun _ h => ⟨h, ha⟩

theorem Yields.throw (e : ε) : Yields I P (throw e : Eff σ ε α) := fun _ h => h

theorem Yields.get : Yields I I (get : Eff σ ε σ) := fun _ h => ⟨h, h⟩

theorem Yields.modify {f : σ → σ} (h : ∀ s, I s → I (f s)) :
    Yields I (fun _ => True) (modify f : Eff σ ε Unit) := fun s hs => ⟨h s hs, trivial⟩

theorem Yields.forM {xs : List α} {f : α → Eff σ ε Unit}
    (h : ∀ x ∈ xs, Yields I (fun _ => True) (f x)) : Yields I (fun _ => True) (xs.forM f) := by
  induction xs with
  | nil => exact .pure trivial
  | cons x xs ih =>
    exact .bind (h x List.mem_cons_self) fun _ _ => ih fun y hy => h y (List.mem_cons_of_mem _ hy)

theorem Yields.ends {m : Eff σ ε α} (h : Yields I P m) {s : σ} (hs : I s) : I (exec m s).2 :=
  exec_of_wp (wp_mono (h s hs) (fun _ _ h => h.1) fun _ _ h => h)

end Yields

section Edits

/-- A change of a disk that leaves the journal alone, and both trees in their places. -/
def Disk.Keeps (f : Disk → Disk) : Prop := ∀ d t', (f d).transaction = some t' →
  ∃ t, d.transaction = some t ∧ t'.journal = t.journal
    ∧ (t.before.isSome = true → t'.before.isSome = true)
    ∧ (t.staged.isSome = true → t'.staged.isSome = true)

theorem keeps_id : Disk.Keeps id := fun _ t' ht' => ⟨t', ht', rfl, id, id⟩

theorem keeps_setTree (t : Tree) (place : Place) : Disk.Keeps fun d => d.setTree t place := by
  intro d t' ht'
  cases place with
  | root => exact ⟨t', ht', rfl, id, id⟩
  | before =>
    obtain ⟨x, hx, rfl⟩ := Option.map_eq_some_iff.1 ht'
    exact ⟨x, hx, rfl, fun _ => rfl, id⟩
  | staged =>
    obtain ⟨x, hx, rfl⟩ := Option.map_eq_some_iff.1 ht'
    exact ⟨x, hx, rfl, id, fun _ => rfl⟩

variable {I : Machine → Prop}

/-- A program that keeps `I`. -/
abbrev Leaves {α : Type} (I : Machine → Prop) (prog : Tx α) : Prop :=
  Yields I (fun _ => True) prog

theorem yields_fail {α : Type} {P : α → Prop} (message : String) :
    Yields I P (fail message : Tx α) := fun _ h => h

theorem yields_ensure (c : Bool) (message : String) :
    Yields I (fun _ => c = true) (ensure c message) := by
  cases c
  · exact yields_fail message
  · exact .pure rfl

theorem leaves_ensure (c : Bool) (message : String) : Leaves I (ensure c message) := fun m hm =>
  wp_mono (yields_ensure c message m hm) (fun _ _ h => ⟨h.1, trivial⟩) fun _ _ h => h

theorem leaves_tree (place : Place) : Leaves I (tree place) := by
  refine .bind Yields.get fun m _ => ?_
  split
  · exact .pure trivial
  · exact yields_fail _

theorem leaves_lstat (place : Place) (p : Path) : Leaves I (lstat place p) :=
  .bind (leaves_tree place) fun _ _ => .bind (leaves_ensure _ _) fun _ _ => .pure trivial

theorem leaves_assertNoSymlinkAncestors (place : Place) (p : Path) :
    Leaves I (assertNoSymlinkAncestors place p) :=
  .forM fun a _ => .bind (leaves_lstat place a) fun _ _ => leaves_ensure _ _

theorem leaves_regularFile (node : Option Node) : Leaves I (regularFile node) := by
  unfold regularFile
  split
  · exact .pure trivial
  all_goals exact yields_fail _

theorem leaves_held : Leaves I held := by
  refine .bind Yields.get fun m _ => ?_
  split
  · exact .pure trivial
  · exact yields_fail _

theorem leaves_readStaged (hash : Content → String) (p : Path) : Leaves I (readStaged hash p) := by
  refine .bind leaves_held fun j _ => ?_
  split
  · exact yields_fail _
  · exact .bind (leaves_assertNoSymlinkAncestors .staged p) fun _ _ =>
      .bind (leaves_lstat .staged p) fun _ _ => .bind (leaves_regularFile _) fun _ _ =>
        .bind (leaves_ensure _ _) fun _ _ => .bind (leaves_ensure _ _) fun _ _ => .pure trivial

/-- What every change of an entry keeps. -/
def Edited (I : Machine → Prop) : Prop := ∀ f : Disk → Disk, Disk.Keeps f → Leaves I (atomic f)

namespace Edited

theorem setEntry (h : Edited I) (place : Place) (p : Path) (n : Option Node) :
    Leaves I (setEntry place p n) :=
  .bind (leaves_tree place) fun _ _ => h _ (keeps_setTree _ place)

theorem mkdirPrivate (h : Edited I) (place : Place) (p : Path) :
    Leaves I (mkdirPrivate place p) := by
  unfold Deployment.mkdirPrivate
  generalize ([] : Path) = above
  induction p generalizing above with
  | nil => exact .pure trivial
  | cons c rest ih =>
    refine .bind (P := fun _ => True) ?_ fun _ _ => ih _
    refine .bind (leaves_lstat place _) fun node _ => ?_
    split
    · exact h.setEntry place _ _
    · exact .pure trivial
    · exact yields_fail _

theorem writeFileDurably (h : Edited I) (place : Place) (p : Path) (content : Content) (mode : ℕ) :
    Leaves I (writeFileDurably place p content mode) :=
  .bind (leaves_tree place) fun _ _ => .bind (leaves_ensure _ _) fun _ _ =>
    .bind (h id keeps_id) fun _ _ => .bind (leaves_ensure _ _) fun _ _ => h.setEntry place p _

theorem unlinkExisting (h : Edited I) (p : Path) : Leaves I (unlinkExisting p) := by
  refine .bind (leaves_lstat .root p) fun node _ => ?_
  split
  · exact .pure trivial
  · exact .bind (leaves_regularFile _) fun _ _ => h.setEntry .root p none

theorem keepBefore (h : Edited I) (p : Path) (content : Content) (mode : ℕ) :
    Leaves I (keepBefore p content mode) :=
  .bind (leaves_assertNoSymlinkAncestors .before p) fun _ _ =>
    .bind (h.mkdirPrivate .before _) fun _ _ => h.writeFileDurably .before p _ _

/-- A snapshot that is taken is one that can be read again. -/
theorem takeSnapshot (h : Edited I) {hash : Content → String}
    (hhash : ∀ content, isSha256 (hash content) = true) (p : Path) (node : Option Node) :
    Yields I (fun s => isSnapshot s = true) (takeSnapshot hash p node) := by
  unfold Deployment.takeSnapshot
  split
  · exact .pure rfl
  · exact .bind (leaves_regularFile _) fun file _ =>
      .bind (h.keepBefore p file.1 file.2) fun _ _ => .pure (hhash file.1)

theorem restorePath (h : Edited I) (hash : Content → String) (j : TransactionJournal) (p : Path) :
    Leaves I (restorePath hash j p) := by
  unfold Deployment.restorePath
  split
  · exact .pure trivial
  unfold restoreSnapshot
  refine .bind (leaves_assertNoSymlinkAncestors .root p) fun _ _ => ?_
  split
  · exact h.unlinkExisting p
  · exact .bind (leaves_assertNoSymlinkAncestors .before p) fun _ _ =>
      .bind (leaves_lstat .before p) fun _ _ => .bind (leaves_regularFile _) fun _ _ =>
        .bind (leaves_ensure _ _) fun _ _ => .bind (h.mkdirPrivate .root _) fun _ _ =>
          h.writeFileDurably .root p _ _

end Edited

end Edits

section Whole

/-- A transaction directory that `open` accepts. -/
def TransactionDirectory.Whole (t : TransactionDirectory) : Prop :=
  (∃ j, t.journal = some j ∧ Readable j) ∧ t.before.isSome = true ∧ t.staged.isSome = true

def Whole (d : Disk) : Prop := ∀ t, d.transaction = some t → t.Whole

/-- A method at work: what is on the disks can be opened, what is held can be recorded. -/
structure Orderly (m : Machine) : Prop where
  disk : Whole m.disk
  passed : ∀ d ∈ m.passed, Whole d
  held : ∀ j, m.held = some j → Readable j

abbrev Runs {α : Type} (P : α → Prop) (prog : Tx α) : Prop := Yields Orderly P prog

abbrev Holds (prog : Tx Unit) : Prop := Runs (fun _ => True) prog

theorem readable_of {j : TransactionJournal} (hparse : parseJournal j = true)
    (hpaths : (j.snapshots.keys ++ j.staged.keys).all isRootRelativePath = true) : Readable j := by
  simp only [parseJournal, Bool.and_eq_true, decide_eq_true_eq, List.all_eq_true,
    OrderedMap.values, List.mem_map] at hparse
  simp only [List.all_eq_true, List.mem_append, OrderedMap.keys, List.mem_map] at hpaths
  obtain ⟨⟨⟨⟨hid, howner⟩, hsnapshots⟩, hstaged⟩, hrecovery⟩ := hparse
  refine ⟨hid, howner, fun p s hs => ?_, fun p s hs => ?_, hrecovery⟩
  · rw [OrderedMap.get_eq_some_iff] at hs
    exact ⟨hsnapshots s ⟨_, hs, rfl⟩, hpaths p (.inl ⟨_, hs, rfl⟩)⟩
  · rw [OrderedMap.get_eq_some_iff] at hs
    exact ⟨hstaged s ⟨_, hs, rfl⟩, hpaths p (.inr ⟨_, hs, rfl⟩)⟩

theorem Whole.keeps {d : Disk} (h : Whole d) {f : Disk → Disk} (hf : Disk.Keeps f) :
    Whole (f d) := by
  intro t' ht'
  obtain ⟨t, ht, hjournal, hbefore, hstaged⟩ := hf d t' ht'
  obtain ⟨⟨j, hj, hread⟩, hbefore', hstaged'⟩ := h t ht
  exact ⟨⟨j, hjournal.trans hj, hread⟩, hbefore hbefore', hstaged hstaged'⟩

theorem holds_atomic {f : Disk → Disk} (h : ∀ d, Whole d → Whole (f d)) : Holds (atomic f) :=
  .modify fun m hm =>
    { disk := h m.disk hm.disk
      passed := fun d hd => by
        rcases List.mem_append.1 hd with hd | hd
        · exact hm.passed d hd
        · rw [List.mem_singleton.1 hd]
          exact hm.disk
      held := hm.held }

theorem holds_hold {j : TransactionJournal} (h : Readable j) : Holds (hold j) :=
  .modify fun _ hm => ⟨hm.disk, hm.passed, fun _ hj => Option.some.inj hj ▸ h⟩

theorem runs_held : Runs Readable held := by
  refine .bind Yields.get fun m hm => ?_
  split
  · rename_i j hj
    exact .pure (hm.held j hj)
  · exact yields_fail _

theorem orderly_edited : Edited Orderly := fun _ hf => holds_atomic fun _ h => h.keeps hf

theorem Whole.setJournal {d : Disk} (h : Whole d) {j : TransactionJournal} (hj : Readable j) :
    Whole (d.setJournal j) := by
  intro x hx
  obtain ⟨y, hy, rfl⟩ := Option.map_eq_some_iff.1 hx
  exact ⟨⟨j, rfl, hj⟩, (h y hy).2⟩

theorem holds_record {j : TransactionJournal} (h : Readable j) : Holds (record j) :=
  .bind (holds_hold h) fun _ _ => .bind runs_held fun _ hj => .bind Yields.get fun _ _ =>
    .bind (yields_ensure _ _) fun _ _ => .bind (holds_atomic fun _ h => h) fun _ _ =>
      holds_atomic fun _ hd => hd.setJournal hj

end Whole

section Methods

variable {hash : Content → String} (hhash : ∀ content, isSha256 (hash content) = true)

include hhash

theorem holds_snapshot (p : Path) : Holds (snapshot hash p) := by
  refine .bind (yields_ensure _ _) fun _ hvalid => .bind runs_held fun j hj => ?_
  split
  · exact .pure trivial
  refine .bind (leaves_assertNoSymlinkAncestors .root p) fun _ _ =>
    .bind (leaves_lstat .root p) fun node _ =>
      .bind (orderly_edited.takeSnapshot hhash p node) fun s hs =>
        holds_record { hj with snapshots := fun q s' hs' => ?_ }
  simp only [OrderedMap.get_set] at hs'
  split_ifs at hs' with hqp
  · rw [hqp, ← Option.some.inj hs']
    exact ⟨hs, hvalid⟩
  · exact hj.snapshots q s' hs'

theorem holds_stage (p : Path) (content : Content) (mode : ℕ) :
    Holds (stage hash p content mode) := by
  refine .bind (yields_ensure _ _) fun _ hvalid => .bind (holds_snapshot hhash p) fun _ _ =>
    .bind (yields_ensure _ _) fun _ _ =>
      .bind (leaves_assertNoSymlinkAncestors .staged p) fun _ _ =>
        .bind (orderly_edited.mkdirPrivate .staged _) fun _ _ =>
          .bind (orderly_edited.writeFileDurably .staged p _ _) fun _ _ =>
            .bind runs_held fun j hj => holds_record { hj with staged := fun q s hs => ?_ }
  simp only [OrderedMap.get_set] at hs
  split_ifs at hs with hqp
  · rw [hqp, ← Option.some.inj hs]
    exact ⟨hhash content, hvalid⟩
  · exact hj.staged q s hs

theorem holds_applyStaged (p : Path) : Holds (applyStaged hash p) :=
  .bind (yields_ensure _ _) fun _ _ => .bind (holds_snapshot hhash p) fun _ _ =>
    .bind (leaves_readStaged hash p) fun _ _ =>
      .bind (orderly_edited.mkdirPrivate .root _) fun _ _ =>
        orderly_edited.writeFileDurably .root p _ _

theorem holds_remove (p : Path) : Holds (remove hash p) :=
  .bind (yields_ensure _ _) fun _ _ => .bind (holds_snapshot hhash p) fun _ _ =>
    orderly_edited.unlinkExisting p

omit hhash in
theorem holds_advance {phase : TransactionPhase} {recovery : Option TransactionRecoveryMetadata}
    (now : ℕ) (hrecovery : recovery.all isRecoveryMetadata = true) :
    Holds (advance phase recovery now) :=
  .bind runs_held fun _ hj => .bind (yields_ensure _ _) fun _ _ =>
    holds_record (hj.advanced hrecovery)

omit hhash in
theorem runs_read : Runs Readable read := by
  refine .bind runs_held fun j _ => .bind Yields.get fun m hm => ?_
  split
  · exact yields_fail _
  · rename_i current hcurrent
    obtain ⟨t, ht, hj⟩ := Option.bind_eq_some_iff.1 hcurrent
    obtain ⟨⟨j', hj', hread⟩, -⟩ := hm.disk t ht
    obtain rfl := Option.some.inj (hj.symm.trans hj')
    exact .bind (yields_ensure _ _) fun _ _ => .bind (yields_ensure _ _) fun _ _ =>
      .bind (holds_hold hread) fun _ _ => .bind (yields_ensure _ _) fun _ _ => .pure hread

omit hhash in
theorem holds_rollback (now : ℕ) : Holds (rollback hash now) := by
  refine .bind runs_read fun current hcurrent => ?_
  split
  · exact Yields.throw _
  · refine .bind (P := fun _ => True) (.forM fun p _ => orderly_edited.restorePath hash current p)
      fun _ _ => .bind runs_held fun j hj => holds_record ?_
    obtain ⟨hid, howner, hsnapshots, hstaged, hrecovery⟩ := hj
    exact ⟨hid, howner, hsnapshots, hstaged, hrecovery⟩

omit hhash in
theorem readable_begin {options : BeginTransactionOptions}
    (h : parseJournal options.journal = true) : Readable options.journal :=
  readable_of h rfl

omit hhash in
theorem holds_begin {options : BeginTransactionOptions}
    (hparse : parseJournal options.journal = true) : Holds (begin options) := by
  have hplain : ∀ f : Disk → Disk, (∀ d, (f d).transaction = d.transaction) → Holds (atomic f) :=
    fun f hf => holds_atomic fun d hd t ht => hd t (hf d ▸ ht)
  refine .bind (yields_ensure _ _) fun _ _ => .bind Yields.get fun _ _ =>
    .bind (yields_ensure _ _) fun _ _ => .bind Yields.get fun _ _ => .bind (P := fun _ => True)
      (.forM fun name _ => .bind (hplain _ fun _ => rfl) fun _ _ => hplain _ fun _ => rfl)
      fun _ _ => ?_
  refine .bind (yields_ensure _ _) fun _ _ => .bind (hplain _ fun _ => rfl) fun _ _ =>
    .bind (hplain _ fun _ => rfl) fun _ _ => .bind (hplain _ fun _ => rfl) fun _ _ =>
      .bind (hplain _ fun _ => rfl) fun _ _ => .bind (hplain _ fun _ => rfl) fun _ _ =>
        .bind (holds_atomic fun d _ t ht => ?_) fun _ _ => holds_hold (readable_begin hparse)
  rw [← Option.some.inj ht]
  exact ⟨⟨options.journal, rfl, readable_begin hparse⟩, rfl, rfl⟩

omit hhash in
theorem holds_open : Holds Deployment.open := by
  refine .bind Yields.get fun m hm => ?_
  split
  · exact yields_fail _
  · split
    · exact yields_fail _
    · rename_i t ht _ j hj
      obtain ⟨⟨j', hj', hread⟩, -⟩ := hm.disk t ht
      obtain rfl := Option.some.inj (hj.symm.trans hj')
      exact .bind (yields_ensure _ _) fun _ _ => .bind (yields_ensure _ _) fun _ _ =>
        .bind (yields_ensure _ _) fun _ _ => .bind (yields_ensure _ _) fun _ _ => holds_hold hread

/-- Every method but `cleanup` keeps the directory whole at each of its steps. -/
theorem holds_program {op : Op} (hop : op.wellFormed) (hno : ∀ order, op ≠ .cleanup order) :
    Holds (op.program hash) := by
  cases op with
  | begin options => exact holds_begin hop
  | «open» => exact holds_open
  | snapshot p => exact holds_snapshot hhash p
  | snapshotTree files => exact .forM fun p _ => holds_snapshot hhash p
  | stage p content mode => exact holds_stage hhash p content mode
  | applyStaged p => exact holds_applyStaged hhash p
  | remove p => exact holds_remove hhash p
  | advance phase recovery now => exact holds_advance now hop
  | rollback now => exact holds_rollback now
  | cleanup order => exact absurd rfl (hno order)

end Methods

section Cleanup

/-- An entry without which the directory cannot be opened. -/
def Removal.essential : Removal → Bool
  | .journal => true
  | .directory .before => true
  | .directory .staged => true
  | _ => false

/-- Nothing is recorded that cannot be read again, and no crash falls into the recursive removal of
`cleanup` after an essential entry is gone and before the directory is: the directory is gone with
it, or what has been deleted of it so far is not essential. -/
structure Op.Finishes (m : Machine) (op : Op) (m' : Machine) : Prop where
  wellFormed : op.wellFormed
  removal : ∀ order, op = .cleanup order → m'.disk.transaction = none ∨ ∃ k,
    (∀ r ∈ order.take k, r.essential = false)
      ∧ m'.disk.transaction = m.disk.transaction.map fun t =>
        (order.take k).foldl (fun t r => r.apply t) t

theorem TransactionDirectory.Whole.foldl {t : TransactionDirectory} (h : t.Whole)
    {removals : List Removal} (hr : ∀ r ∈ removals, r.essential = false) :
    (removals.foldl (fun t r => r.apply t) t).Whole := by
  induction removals generalizing t with
  | nil => exact h
  | cons r removals ih =>
    rw [List.forall_mem_cons] at hr
    refine ih ?_ hr.2
    obtain ⟨hj, hbefore, hstaged⟩ := h
    cases r with
    | journal => simp [Removal.essential] at hr
    | entry place p =>
      cases place with
      | root => exact ⟨hj, hbefore, hstaged⟩
      | before => exact ⟨hj, by simpa [Removal.apply] using hbefore, hstaged⟩
      | staged => exact ⟨hj, hbefore, by simpa [Removal.apply] using hstaged⟩
    | directory place =>
      cases place with
      | root => exact ⟨hj, hbefore, hstaged⟩
      | before => simp [Removal.essential] at hr
      | staged => simp [Removal.essential] at hr
    | stray => exact ⟨hj, hbefore, hstaged⟩

/-- What `cleanup` holds at its end is what it read. -/
theorem cleanup_held {order : List Removal} {m : Machine} (h : Orderly m) :
    ∀ j, (exec (cleanup order) m).2.held = some j → Readable j := by
  have hwp : wp (cleanup order) (fun _ m' => ∀ j, m'.held = some j → Readable j)
      (fun _ m' => ∀ j, m'.held = some j → Readable j) m := by
    unfold cleanup
    rw [wp_bind]
    refine wp_mono (runs_read m h) ?_ fun _ _ h' => h'.held
    intro current m' hm'
    rw [wp_bind]
    refine wp_ensure (fun _ => ?_) fun _ => hm'.1.held
    rw [wp_bind]
    refine wp_mono (wp_forM (I := fun _ m' => ∀ j, m'.held = some j → Readable j) ?_ order m'
      hm'.1.held) (fun _ m'' h' => ?_) fun _ _ h' => h'
    · exact fun r rest m'' h'' => h''
    · rw [wp_atomic]
      exact h'
  exact exec_of_wp hwp

variable {hash : Content → String} (hhash : ∀ content, isSha256 (hash content) = true)
  {m m' : Machine} {op : Op}

include hhash

theorem step_whole (h : Orderly { m with passed := [] }) (hstep : Step hash op m m')
    (hmeets : op.Finishes m m') : Orderly { m' with passed := [] } := by
  by_cases hcleanup : ∃ order, op = .cleanup order
  · obtain ⟨order, rfl⟩ := hcleanup
    have hdisk : Whole m'.disk := by
      rcases hmeets.removal order rfl with hnone | ⟨k, hk, heq⟩
      · exact fun t ht => by simp [hnone] at ht
      · intro t ht
        rw [heq] at ht
        obtain ⟨t', ht', rfl⟩ := Option.map_eq_some_iff.1 ht
        exact (h.disk t' ht').foldl hk
    refine ⟨hdisk, by simp, ?_⟩
    cases hstep with
    | ends => exact cleanup_held h
    | crashes => exact fun j hj => by simp [Machine.fresh] at hj
  · have hno : ∀ order, op ≠ .cleanup order := fun order heq => hcleanup ⟨order, heq⟩
    have hend := (holds_program hhash hmeets.wellFormed hno).ends h
    cases hstep with
    | ends => exact ⟨hend.disk, by simp, hend.held⟩
    | crashes x d hx hd =>
      subst hx
      refine ⟨?_, by simp, fun j hj => by simp [Machine.fresh] at hj⟩
      rcases List.mem_cons.1 hd with rfl | hd
      · exact hend.disk
      · exact hend.passed d hd

theorem reached_whole {start : Disk} (hnone : start.transaction = none)
    (hrun : Reached hash (fun m op m' => op.Finishes m m') (.fresh start) m) :
    Orderly { m with passed := [] } := by
  induction hrun with
  | start =>
    exact ⟨fun t ht => by simp [Machine.fresh, hnone] at ht, by simp,
      fun j hj => by simp [Machine.fresh] at hj⟩
  | step _ hstep hmeets ih => exact step_whole hhash ih hstep hmeets

end Cleanup

section Finishing

/-- Open what is left, go forward to the end of it unless it is there, and clean up. -/
def finish (order : List Removal) (now : ℕ) : Tx Unit := do
  Deployment.open
  let j ← held
  if j.phase = .committed ∨ j.phase = .rollbackComplete then cleanup order
  else
    advance .committed none now
    cleanup order

def Begins (d : Disk) : Prop := ∀ options : BeginTransactionOptions,
  options.dockerEngineId ≠ "" → options.owner.dockerEngineId = options.dockerEngineId →
    ∃ m, exec (begin options) (.fresh d) = (.ok (), m) ∧ m.disk.transaction.isSome = true

/-- A configuration directory in which the next transaction can begin, if need be after the one
that is left in it has been finished. -/
structure NotLockedOut (d : Disk) : Prop where
  begins : d.transaction = none → Begins d
  finishes : d.transaction ≠ none → ∀ order now, ∃ m,
    exec (finish order now) (.fresh d) = (.ok (), m) ∧ m.disk.transaction = none ∧ Begins m.disk

theorem begins_of_none {d : Disk} (h : d.transaction = none) : Begins d := by
  intro options hid howner
  refine exec_ok (Q := fun _ m => m.disk.transaction.isSome = true) ?_
  unfold Deployment.begin
  rw [wp_bind]
  refine wp_ensure (fun _ => ?_) fun hc => by simp [hid] at hc
  rw [wp_bind, wp_get, wp_bind]
  refine wp_ensure (fun _ => ?_) fun hc => by simp [Machine.fresh, h] at hc
  rw [wp_bind, wp_get, wp_bind]
  refine wp_mono (wp_forM (I := fun _ _ => True) (fun name _ _ _ => ?_) _ _ trivial) ?_
    fun _ _ hf => hf
  · unfold removeCandidate
    rw [wp_bind, wp_atomic, wp_atomic]
    trivial
  intro _ m _
  rw [wp_bind]
  refine wp_ensure (fun _ => ?_) fun hc => by simp [howner] at hc
  simp only [wp_bind, wp_atomic, wp_hold]
  rfl

/-- A cleanup of a directory that is whole, in a final phase. -/
theorem wp_cleanup {order : List Removal} {m : Machine} {t : TransactionDirectory}
    {j : TransactionJournal} (ht : m.disk.transaction = some t) (hj : t.journal = some j)
    (hheld : m.held = some j) (hread : Readable j)
    (hphase : j.phase = .committed ∨ j.phase = .rollbackComplete) :
    wp (cleanup order) (fun _ m' => m'.disk.transaction = none) (fun _ _ => False) m := by
  unfold cleanup Deployment.read
  rw [wp_bind, wp_bind]
  refine wp_held hheld ?_
  rw [wp_bind, wp_get]
  simp only [ht, Option.bind_some, hj]
  rw [wp_bind]
  refine wp_ensure (fun _ => ?_) fun hc => by simp [hread.parses] at hc
  rw [wp_bind]
  refine wp_ensure (fun _ => ?_) fun hc => by simp at hc
  rw [wp_bind, wp_hold, wp_bind]
  refine wp_ensure (fun _ => ?_) fun hc => by simp [hread.paths] at hc
  rw [wp_pure, wp_bind]
  refine wp_ensure (fun _ => ?_) fun hc => by rcases hphase with hp | hp <;> simp [hp] at hc
  rw [wp_bind]
  refine wp_mono (wp_forM (I := fun _ _ => True) (fun r _ _ _ => ?_) _ _ trivial) ?_
    fun _ _ hf => hf
  · unfold removeEntry
    rw [wp_atomic]
    trivial
  · intro _ m' _
    rw [wp_atomic]
    rfl

theorem notLockedOut_of_whole {d : Disk} (h : Whole d) : NotLockedOut d := by
  refine ⟨begins_of_none, fun hsome order now => ?_⟩
  obtain ⟨t, ht⟩ := Option.ne_none_iff_exists'.1 hsome
  obtain ⟨⟨j, hj, hread⟩, hbefore, hstaged⟩ := h t ht
  suffices hwp : wp (finish order now) (fun _ m => m.disk.transaction = none) (fun _ _ => False)
      (.fresh d) by
    obtain ⟨m, hexec, hnone⟩ := exec_ok hwp
    exact ⟨m, hexec, hnone, begins_of_none hnone⟩
  unfold finish Deployment.open
  rw [wp_bind, wp_bind, wp_get]
  simp only [Machine.fresh, ht, hj]
  rw [wp_bind]
  refine wp_ensure (fun _ => ?_) fun hc => by simp [hread.parses] at hc
  rw [wp_bind]
  refine wp_ensure (fun _ => ?_) fun hc => by simp [hbefore] at hc
  rw [wp_bind]
  refine wp_ensure (fun _ => ?_) fun hc => by simp [hstaged] at hc
  rw [wp_bind]
  refine wp_ensure (fun _ => ?_) fun hc => by simp [hread.paths] at hc
  rw [wp_hold, wp_bind]
  refine wp_held rfl ?_
  split
  · rename_i hphase
    exact wp_cleanup ht hj rfl hread hphase
  · rename_i hphase
    have hallowed : allowsTransition j.phase .committed = true := by
      cases hp : j.phase <;> simp [hp] at hphase <;> rfl
    rw [wp_bind]
    unfold advance
    rw [wp_bind]
    refine wp_held rfl ?_
    rw [wp_bind]
    refine wp_ensure (fun _ => ?_) fun hc => by simp [hallowed] at hc
    unfold record persist
    rw [wp_bind, wp_hold, wp_bind]
    refine wp_held rfl ?_
    rw [wp_bind, wp_get, wp_bind]
    refine wp_ensure (fun _ => ?_) fun hc => by simp [ht] at hc
    rw [wp_bind, wp_atomic, wp_atomic]
    refine wp_cleanup (t := { t with journal := some (advanced j .committed none now) }) ?_ rfl rfl
      (hread.advanced rfl) (.inl rfl)
    simp [Machine.after, Disk.setJournal, ht]

end Finishing

end Atlas.Cli.Deployment
