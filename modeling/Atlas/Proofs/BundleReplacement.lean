import Atlas.Cli.RetainedBundle
import Atlas.Proofs.DeploymentCrash

/-!
# Replacing the retained bundle

Until the candidate is built nothing but it changes, and while the old bundle is retired it can be
put back. What cannot be undone is the removal of the retired bundle: a failure in it, or the
failing close of the parent directory after it, leaves neither bundle whole.
-/

namespace Atlas.Cli.RetainedBundle

open Effects Deployment

section Rules

variable {plan : Plan} {m : Machine} {E : Fault → Machine → Prop}

theorem wp_operate {site : Site} {f : Machine → Machine} {Q : Unit → Machine → Prop}
    (hQ : plan.failing ≠ some site → Q () (f m))
    (hE : plan.failing = some site → E (.failed site) m) : wp (operate plan site f) Q E m := by
  unfold operate Plan.succeeds
  split_ifs with h
  · exact hQ (by simpa using h)
  · exact hE (by simpa using h)

theorem wp_ensure {c : Bool} {message : String} {Q : Unit → Machine → Prop}
    (hQ : c = true → Q () m) (hE : c = false → E (.refused message) m) :
    wp (ensure c message) Q E m := by
  cases c
  · exact hE rfl
  · exact hQ rfl

theorem wp_existsSync {step : Step} {call : ℕ} {path : Path} {present : Disk → Bool}
    {Q : Bool → Machine → Prop}
    (hyes : plan.failing ≠ some ⟨step, .existsSync, call, path⟩ → present m.disk = true → Q true m)
    (hno : plan.failing = some ⟨step, .existsSync, call, path⟩ ∨ present m.disk = false →
      Q false m) : wp (existsSync plan step call path present) Q E m := by
  unfold existsSync Plan.succeeds
  rw [wp_bind, wp_get, wp_pure]
  cases hpresent : present m.disk
  · rw [Bool.and_false]
    exact hno (.inr hpresent)
  · rw [Bool.and_true]
    by_cases hfailing : plan.failing = some ⟨step, .existsSync, call, path⟩
    · rw [decide_eq_false (not_not_intro hfailing)]
      exact hno (.inl hfailing)
    · rw [decide_eq_true hfailing]
      exact hyes hfailing hpresent

theorem wp_tryFinally {α : Type} {body : Copying α} {cleanup : Copying Unit}
    {Q : α → Machine → Prop}
    (h : wp body (fun a => wp cleanup (fun _ => Q a) E) (fun e => wp cleanup (fun _ => E e) E) m) :
    wp (tryFinally body cleanup) Q E m := by
  unfold tryFinally
  rw [wp_bind, wp_tryCatch, wp_bind]
  refine wp_mono h (fun a m' h => ?_) fun e m' h => ?_
  · rw [wp_pure, wp_bind]
    exact h
  · rw [wp_pure, wp_bind]
    exact h

end Rules

section Inputs

/-- What a copy needs of the package for a file. -/
structure Supplies (source : Tree) (p : Path) : Prop where
  ne_nil : p ≠ []
  free : source.blocked p = false
  file : ∃ content mode, source p = some (.file content mode)

/-- What is copied of a file. -/
def copied : Option Node → Option File
  | some (.file content mode) => some (content, mode &&& 0o755)
  | _ => none

/-- A bundle of exactly these files of the package. -/
def IsBundle (source : Tree) (paths : List Path) (b : Bundle) : Prop :=
  ∀ p, b.get p = if p ∈ paths then copied (source p) else none

/-- A package from which the bundle can be made. -/
structure Copyable (source : Tree) (options : RetainedBundleOptions) : Prop where
  nodup : options.files.Nodup
  required : options.requiredFiles.Nodup ∧ ∀ p ∈ options.requiredFiles, p ∈ options.files
  references : options.references = .ok ()
  supplies : ∀ p ∈ options.files, Supplies source p

def start (source : Tree) (parent : Bool) (old : Option Bundle) : Machine :=
  ⟨⟨source, parent, old, none, [], none⟩, false, false⟩

/-- The new bundle is there when the copy returns, the old one when it throws. -/
def AllOrNothing (source : Tree) (options : RetainedBundleOptions) (old : Option Bundle)
    (r : Except Fault RetainedBundleManifest × Machine) : Prop :=
  match r.1 with
  | .ok _ => ∃ b, r.2.disk.target = some b ∧ IsBundle source options.files b
  | .error _ => r.2.disk.target = old

/-- The close of the parent directory after the renames, and after the removal. -/
def Site.closeParent (call : ℕ) : Site := ⟨.replacement, .closeSync, call, []⟩

def Site.removeRetired : Site := ⟨.replacement, .rmSync, 0, []⟩

/-- A failure that a replacement is not undone after. -/
inductive Harmful (plan : Plan) (old : Option Bundle) : Prop
  | closeAfterRemoval (h : plan.failing = some (.closeParent 1))
  | closeOfFirst (h : plan.failing = some (.closeParent 0)) (hold : old = none)
  | partialRemoval (h : plan.failing = some .removeRetired) (b : Bundle) (hold : old = some b)
      (p : Path) (hp : b.has p = true) (hleft : plan.left p = false)

end Inputs

section Building

variable {plan : Plan} {source : Tree} {options : RetainedBundleOptions} {old : Option Bundle}
  {m : Machine}

/-- A failure of another step than the replacement. -/
def Spared (plan : Plan) : Prop := ∃ site, plan.failing = some site ∧ site.step ≠ .replacement

/-- A copy that has thrown before the replacement. -/
def Stopped (plan : Plan) (source : Tree) (options : RetainedBundleOptions) (old : Option Bundle)
    (_ : Fault) (m : Machine) : Prop :=
  m.disk.target = old ∧ (Copyable source options → Spared plan)

theorem Stopped.failed {e : Fault} {site : Site} (htarget : m.disk.target = old)
    (h : plan.failing = some site) (hsite : site.step ≠ .replacement) :
    Stopped plan source options old e m :=
  ⟨htarget, fun _ => ⟨site, h, hsite⟩⟩

theorem Stopped.refused {e : Fault} (htarget : m.disk.target = old)
    (h : Copyable source options → False) : Stopped plan source options old e m :=
  ⟨htarget, fun hcopyable => (h hcopyable).elim⟩

/-- A disk with a candidate of these files, in directories that are above the paths. -/
structure Building (source : Tree) (old : Option Bundle) (paths done : List Path) (b : Bundle)
    (d : Disk) : Prop where
  package : d.source = source
  target : d.target = old
  retired : d.retired = none
  candidate : d.candidate = some b
  keys : b.keys = done
  bundle : IsBundle source done b
  supplies : ∀ p ∈ done, Supplies source p
  directories : ∀ dir ∈ d.directories, dir ≠ [] → ∃ q ∈ paths, Above dir q

variable {done : List Path} {b : Bundle} {p : Path}

/-- An operation that changes nothing. -/
theorem wp_operate_id {site : Site} {Q : Unit → Machine → Prop} (htarget : m.disk.target = old)
    (hsite : site.step ≠ .replacement) (hQ : Q () m) :
    wp (operate plan site id) Q (Stopped plan source options old) m :=
  wp_operate (fun _ => hQ) fun h => .failed htarget h hsite

theorem wp_syncDirectory {step : Step} {call : ℕ} {Q : Unit → Machine → Prop}
    (htarget : m.disk.target = old) (hstep : step ≠ .replacement) (hQ : Q () m) :
    wp (syncDirectory plan step call) Q (Stopped plan source options old) m := by
  unfold syncDirectory
  split
  · exact wp_operate_id htarget hstep hQ
  · exact hQ

theorem wp_assertRealDirectory {step : Step} {call : ℕ} {path : Path} {present real : Disk → Bool}
    {Q : Unit → Machine → Prop} (htarget : m.disk.target = old) (hstep : step ≠ .replacement)
    (hpresent : Copyable source options → present m.disk = true)
    (hreal : Copyable source options → real m.disk = true) (hQ : Q () m) :
    wp (assertRealDirectory plan step call path present real) Q (Stopped plan source options old)
      m := by
  unfold assertRealDirectory
  rw [wp_bind]
  refine wp_existsSync (fun _ _ => ?_) fun hno => ?_
  · rw [wp_bind]
    refine wp_ensure (fun _ => ?_) fun hc => absurd hc (by simp)
    rw [wp_bind]
    refine wp_operate_id htarget hstep ?_
    rw [wp_bind, wp_get]
    exact wp_ensure (fun _ => hQ) fun hc => .refused htarget fun hcopyable => by
      rw [hreal hcopyable] at hc
      simp at hc
  · rw [wp_bind]
    refine wp_ensure (fun hc => by simp at hc) fun _ => ?_
    rcases hno with hfailing | hmissing
    · exact .failed htarget hfailing hstep
    · exact .refused htarget fun hcopyable => by simp [hpresent hcopyable] at hmissing

theorem wp_ensureDirectory {step : Step} {call : ℕ} {path : Path} {present real : Disk → Bool}
    {make : Disk → Option Disk} {Q : Unit → Machine → Prop} (htarget : m.disk.target = old)
    (hstep : step ≠ .replacement)
    (hreal : Copyable source options → present m.disk = true → real m.disk = true)
    (hmake : Copyable source options → (make m.disk).isSome = true)
    (hmade : ∀ d, make m.disk = some d → d.target = old ∧ present d = true ∧ real d = true)
    (hQ : present m.disk = true → Q () m)
    (hQ' : ∀ d, make m.disk = some d → Q () { m with disk := d }) :
    wp (ensureDirectory plan step call path present real make) Q
      (Stopped plan source options old) m := by
  unfold ensureDirectory
  rw [wp_bind]
  refine wp_existsSync (fun _ hpresent => ?_) fun _ => ?_
  · rw [if_pos rfl]
    exact wp_assertRealDirectory htarget hstep (fun _ => hpresent)
      (fun hcopyable => hreal hcopyable hpresent) (hQ hpresent)
  · rw [if_neg (by simp), wp_bind, wp_get]
    cases hd : make m.disk with
    | none =>
      simp only [refuse, wp_throw]
      exact .refused htarget fun hcopyable => by simpa [hd] using hmake hcopyable
    | some d =>
      obtain ⟨htarget', hpresent, hreal'⟩ := hmade d hd
      simp only [wp_bind]
      refine wp_operate (fun _ => ?_) fun h => .failed htarget h hstep
      exact wp_assertRealDirectory htarget' hstep (fun _ => hpresent) (fun _ => hreal') (hQ' d hd)

end Building

section Copying

variable {plan : Plan} {source : Tree} {options : RetainedBundleOptions} {old : Option Bundle}
  {m : Machine} {done : List Path} {b : Bundle} {p : Path}

/-- Nothing on the way to a file that is supplied is a symbolic link. -/
theorem Supplies.not_symlink (h : Supplies source p) {a : Path} (hne : a ≠ []) (hpre : a <+: p) :
    source a ≠ some .symlink := by
  by_cases hap : a = p
  · obtain ⟨content, mode, hfile⟩ := h.file
    simp [hap, hfile]
  · rcases blocked_eq_false.1 h.free a ⟨hne, hpre, hap⟩ with hnone | hdir
    · simp [hnone]
    · simp [hdir]

/-- A file that is supplied is not on the way to another. -/
theorem Supplies.not_above (h : Supplies source p) {q : Path} (hq : Supplies source q) :
    ¬Above p q := by
  intro habove
  obtain ⟨content, mode, hfile⟩ := h.file
  rcases blocked_eq_false.1 hq.free p habove with hnone | hdir
  · simp [hfile] at hnone
  · simp [hfile] at hdir

theorem wp_assertNoSymlinkSource (hp : p ∈ options.files) (hsource : m.disk.source = source)
    (htarget : m.disk.target = old) {a : Path} (ha : a ∈ p.inits.drop 1)
    {Q : Unit → Machine → Prop} (hQ : Q () m) :
    wp (assertNoSymlinkSource plan p a) Q (Stopped plan source options old) m := by
  obtain ⟨hne, hpre⟩ := mem_prefixes.1 ha
  unfold assertNoSymlinkSource
  rw [wp_bind]
  refine wp_existsSync (fun _ _ => ?_) fun _ => ?_
  · rw [if_pos rfl, wp_bind]
    refine wp_operate_id htarget (by simp) ?_
    rw [wp_bind, wp_get]
    refine wp_ensure (fun _ => hQ) fun hc => .refused htarget fun hcopyable => ?_
    rw [hsource] at hc
    exact (hcopyable.supplies p hp).not_symlink hne hpre (by simpa using hc)
  · rw [if_neg (by simp)]
    exact hQ

theorem wp_assertNoSymlinkCandidate (htarget : m.disk.target = old) {a : Path}
    {Q : Unit → Machine → Prop} (hQ : Q () m) :
    wp (assertNoSymlinkCandidate plan p a) Q (Stopped plan source options old) m := by
  unfold assertNoSymlinkCandidate
  rw [wp_bind]
  refine wp_existsSync (fun _ _ => ?_) fun _ => ?_
  · rw [if_pos rfl]
    exact wp_operate_id htarget (by simp) hQ
  · rw [if_neg (by simp)]
    exact hQ

theorem wp_sourceFile (hp : p ∈ options.files) (hsource : m.disk.source = source)
    (htarget : m.disk.target = old) {Q : File → Machine → Prop}
    (hQ : ∀ content mode, source.blocked p = false → source p = some (.file content mode) →
      Q (content, mode) m) :
    wp (sourceFile plan p) Q (Stopped plan source options old) m := by
  have hrefused : ∀ e, ¬Supplies source p → Stopped plan source options old e m := fun e hno =>
    .refused htarget fun hcopyable => hno (hcopyable.supplies p hp)
  unfold sourceFile
  rw [wp_bind]
  refine wp_operate_id htarget (by simp) ?_
  rw [wp_bind, wp_get, hsource, wp_bind]
  refine wp_ensure (fun hfree => ?_) fun hblocked => hrefused _ fun hs => by
    simp [hs.free] at hblocked
  have hno : ∀ n, source p = n → (∀ content mode, n ≠ some (.file content mode)) →
      ¬Supplies source p := fun n hn hfile hs => by
    obtain ⟨content, mode, hs⟩ := hs.file
    exact hfile content mode (hn ▸ hs)
  split
  · rename_i content mode hfile
    exact hQ content mode (by simpa using hfree) hfile
  all_goals
    rename_i hn
    simp only [refuse, wp_throw]
    exact hrefused _ (hno _ hn (by simp_all))

theorem wp_renameTemporary (hp : p ∈ options.files)
    (hb : Building source old options.files done b m.disk) {Q : Unit → Machine → Prop} {file : File}
    (hQ : p ≠ [] → Q () { m with
      disk := { m.disk with candidate := some (b.set p file) }, temporary := false }) :
    wp (renameTemporary plan p file) Q (Stopped plan source options old) m := by
  unfold renameTemporary
  rw [wp_bind, wp_get, wp_bind]
  refine wp_ensure (fun hfree => ?_) fun hdir => .refused hb.target fun hcopyable => ?_
  · refine wp_operate (fun _ => ?_) fun h => .failed hb.target h (by simp)
    rw [hb.candidate, Option.map_some]
    refine hQ ?_
    rintro rfl
    simp [Disk.isDirectory] at hfree
  · have hs := hcopyable.supplies p hp
    simp only [Disk.isDirectory, Bool.not_eq_false', Bool.or_eq_true, decide_eq_true_eq, hs.ne_nil,
      false_or] at hdir
    obtain ⟨q, hq, habove⟩ := hb.directories p hdir hs.ne_nil
    exact hs.not_above (hcopyable.supplies q hq) habove

/-- What is done in any case after the copy of a file changes no disk. -/
theorem wp_cleanupCopy {Q : Unit → Machine → Prop} (htarget : m.disk.target = old)
    (hQ : ∀ m' : Machine, m'.disk = m.disk → Q () m') :
    wp (do
        if (← get).descriptor then
          operate plan ⟨.copy p, .closeSync, 2, p⟩ fun m => { m with descriptor := false }
        let temporary := (← get).temporary
        if ← existsSync plan (.copy p) 5 p fun _ => temporary then
          operate plan ⟨.copy p, .unlinkSync, 0, p⟩ fun m => { m with temporary := false })
      Q (Stopped plan source options old) m := by
  have hrest : ∀ m' : Machine, m'.disk = m.disk → wp (do
        let temporary := (← get).temporary
        if ← existsSync plan (.copy p) 5 p fun _ => temporary then
          operate plan ⟨.copy p, .unlinkSync, 0, p⟩ fun m => { m with temporary := false })
      Q (Stopped plan source options old) m' := by
    intro m' hdisk
    rw [wp_bind, wp_get, wp_bind]
    refine wp_existsSync (fun _ _ => ?_) fun _ => ?_
    · rw [if_pos rfl]
      exact wp_operate (fun _ => hQ _ hdisk) fun h => .failed (hdisk ▸ htarget) h (by simp)
    · rw [if_neg (by simp)]
      exact hQ m' hdisk
  rw [wp_bind, wp_get]
  cases m.descriptor
  · exact hrest m rfl
  · simp only [if_true, wp_bind]
    exact wp_operate (fun _ => hrest _ rfl) fun h => .failed htarget h (by simp)

theorem wp_copyFileDurably (hp : p ∈ options.files)
    (hb : Building source old options.files done b m.disk) {file : File}
    {Q : Unit → Machine → Prop}
    (hQ : ∀ m', p ≠ [] → m'.disk = { m.disk with candidate := some (b.set p file) } → Q () m') :
    wp (copyFileDurably plan p file) Q (Stopped plan source options old) m := by
  unfold copyFileDurably
  rw [wp_bind]
  refine wp_operate_id hb.target (by simp) (wp_tryFinally ?_)
  -- an error passes through what is done in any case
  have hE : ∀ {α : Type} {body : Copying α} {Q : α → Machine → Prop} {m : Machine} {cleanup},
      (∀ m' : Machine, m'.disk.target = old → ∀ Q' : Unit → Machine → Prop,
        (∀ m'' : Machine, m''.disk = m'.disk → Q' () m'') →
        wp cleanup Q' (Stopped plan source options old) m') →
      wp body Q (Stopped plan source options old) m →
      wp body Q (fun e => wp cleanup (fun _ => Stopped plan source options old e)
        (Stopped plan source options old)) m := by
    intro α body Q m cleanup hcleanup hbody
    refine wp_mono hbody (fun _ _ h => h) fun e m' h => ?_
    exact hcleanup m' h.1 _ fun m'' hdisk => ⟨hdisk ▸ h.1, h.2⟩
  refine hE (fun m' htarget Q' hQ' => wp_cleanupCopy htarget hQ') ?_
  rw [wp_bind]
  refine wp_operate (fun _ => ?_) fun h => .failed hb.target h (by simp)
  rw [wp_bind]
  refine wp_operate_id hb.target (by simp) ?_
  rw [wp_bind]
  refine wp_operate_id hb.target (by simp) ?_
  rw [wp_bind]
  refine wp_operate_id hb.target (by simp) ?_
  rw [wp_bind]
  refine wp_operate (fun _ => ?_) fun h => .failed hb.target h (by simp)
  rw [wp_bind]
  refine wp_renameTemporary hp (by exact hb) fun hne => ?_
  refine wp_syncDirectory hb.target (by simp) ?_
  exact wp_cleanupCopy hb.target fun m' hdisk => hQ m' hne hdisk

/-- The directory of a file is made in the candidate, or is there. -/
theorem wp_ensureCandidateDirectory (hp : p ∈ options.files)
    (hdone : ∀ q ∈ done, q ∈ options.files)
    (hb : Building source old options.files done b m.disk) {Q : Unit → Machine → Prop}
    (hQ : ∀ d, Building source old options.files done b d → Q () { m with disk := d }) :
    wp (ensureCandidateDirectory plan p p.dropLast) Q (Stopped plan source options old) m := by
  have hclear : Copyable source options → ∀ q, b.has q = true → ¬q <+: p.dropLast := by
    intro hcopyable q hq hpre
    rw [← OrderedMap.mem_keys, hb.keys] at hq
    have hs := hcopyable.supplies q (hdone q hq)
    exact hs.not_above (hcopyable.supplies p hp)
      (above_iff.2 ⟨hs.ne_nil, (List.mem_inits _ _).2 hpre⟩)
  have hmkdir : ∀ d, m.disk.mkdir p.dropLast = some d →
      d = { m.disk with directories := m.disk.directories ++ p.dropLast.inits } := by
    intro d hd
    unfold Disk.mkdir at hd
    split_ifs at hd
    exact (Option.some.inj hd).symm
  have hdirectory : ∀ d, m.disk.mkdir p.dropLast = some d → d.isDirectory p.dropLast = true := by
    intro d hd
    simp [hmkdir d hd, Disk.isDirectory, List.mem_inits]
  refine wp_ensureDirectory hb.target (by simp) (fun hcopyable hin => ?_) (fun hcopyable => ?_)
    (fun d hd => ?_) (fun _ => hQ m.disk hb) fun d hd => hQ d ?_
  · simp only [Disk.inCandidate, hb.candidate, Option.any_some, Bool.or_eq_true] at hin
    exact hin.resolve_left fun hhas => hclear hcopyable _ hhas (List.prefix_refl _)
  · unfold Disk.mkdir
    rw [if_neg]
    · rfl
    · rw [hb.candidate, Option.any_some, List.any_eq_true]
      rintro ⟨q, hq, hpre⟩
      exact hclear hcopyable q (OrderedMap.mem_keys.1 hq) (List.isPrefixOf_iff_prefix.1 hpre)
  · refine ⟨by rw [hmkdir d hd]; exact hb.target, ?_, hdirectory d hd⟩
    have hcandidate : d.candidate = some b := by rw [hmkdir d hd]; exact hb.candidate
    simp [Disk.inCandidate, hcandidate, hdirectory d hd]
  · rw [hmkdir d hd]
    refine ⟨hb.package, hb.target, hb.retired, hb.candidate, hb.keys, hb.bundle, hb.supplies, ?_⟩
    intro dir hdir hne
    rcases List.mem_append.1 hdir with hdir | hdir
    · exact hb.directories dir hdir hne
    · exact ⟨p, hp, above_iff.2 ⟨hne, hdir⟩⟩

theorem wp_forM_const {α : Type} {f : α → Copying Unit} {E : Fault → Machine → Prop} :
    ∀ (xs : List α), (∀ x ∈ xs, ∀ Q : Unit → Machine → Prop, Q () m → wp (f x) Q E m) →
      wp (xs.forM f) (fun _ m' => m' = m) E m
  | [], _ => rfl
  | x :: xs, h => by
    show wp (f x >>= fun _ => xs.forM f) _ _ m
    rw [wp_bind]
    exact h x List.mem_cons_self _ (wp_forM_const xs fun y hy => h y (List.mem_cons_of_mem _ hy))

theorem wp_copyFile (hp : p ∈ options.files) (hnew : p ∉ done)
    (hdone : ∀ q ∈ done, q ∈ options.files)
    (hb : Building source old options.files done b m.disk) :
    wp (copyFile plan p)
      (fun _ m' => ∃ b', Building source old options.files (done ++ [p]) b' m'.disk)
      (Stopped plan source options old) m := by
  unfold copyFile
  rw [wp_bind]
  refine wp_mono (wp_forM_const _ fun a ha Q hQ =>
    wp_assertNoSymlinkSource hp hb.package hb.target ha hQ) ?_ fun _ _ h => h
  rintro _ m' rfl
  rw [wp_bind]
  refine wp_sourceFile hp hb.package hb.target fun content mode hfree hfile => ?_
  rw [wp_bind]
  refine wp_mono (wp_forM_const _ fun a _ Q hQ => wp_assertNoSymlinkCandidate hb.target hQ) ?_
    fun _ _ h => h
  rintro _ m'' rfl
  rw [wp_bind]
  refine wp_ensureCandidateDirectory hp hdone hb fun d hd => ?_
  refine wp_copyFileDurably hp (by exact hd) fun m' hne hdisk =>
    ⟨b.set p (content, mode &&& 0o755), ?_⟩
  rw [hdisk]
  have hnone : b.has p = false := by
    rw [Bool.eq_false_iff]
    intro hhas
    rw [← OrderedMap.mem_keys, hd.keys] at hhas
    exact hnew hhas
  refine ⟨hd.package, hd.target, hd.retired, rfl, ?_, fun q => ?_, fun q hq => ?_, hd.directories⟩
  · rw [OrderedMap.keys_set_of_not_has hnone, hd.keys]
  · rw [OrderedMap.get_set, hd.bundle q]
    by_cases hqp : q = p
    · rw [if_pos hqp, if_pos (by simp [hqp]), hqp, hfile]
      rfl
    · rw [if_neg hqp]
      simp [hqp]
  · rcases List.mem_append.1 hq with hq | hq
    · exact hd.supplies q hq
    · rw [List.mem_singleton.1 hq]
      exact ⟨hne, hfree, content, mode, hfile⟩

/-- The loop over the files of the bundle. -/
theorem wp_copyFiles {paths : List Path} (hnodup : paths.Nodup)
    (hpaths : ∀ p ∈ paths, p ∈ options.files) :
    ∀ (rest done : List Path) {m : Machine} {b : Bundle}, done ++ rest = paths →
    Building source old options.files done b m.disk →
    wp (rest.forM (copyFile plan))
      (fun _ m' => ∃ b', Building source old options.files paths b' m'.disk)
      (Stopped plan source options old) m
  | [], done, m, b, hsplit, hb => by
    rw [List.append_nil] at hsplit
    exact ⟨b, hsplit ▸ hb⟩
  | p :: rest, done, m, b, hsplit, hb => by
    have hp : p ∈ paths := by simp [← hsplit]
    have hnew : p ∉ done := by
      rw [← hsplit, List.nodup_append] at hnodup
      exact fun hmem => hnodup.2.2 p hmem p List.mem_cons_self rfl
    show wp (copyFile plan p >>= fun _ => rest.forM (copyFile plan)) _ _ m
    rw [wp_bind]
    refine wp_mono (wp_copyFile (hpaths p hp) hnew (fun q hq => hpaths q (by simp [← hsplit, hq]))
      hb) ?_ fun _ _ h => h
    rintro _ m' ⟨b', hb'⟩
    exact wp_copyFiles hnodup hpaths rest (done ++ [p]) (by rw [← hsplit, List.append_assoc]; rfl)
      hb'

end Copying

section Checking

variable {plan : Plan} {source : Tree} {options : RetainedBundleOptions} {old : Option Bundle}
  {m : Machine} {paths : List Path} {b : Bundle} {hash : Content → String}
  {hashFiles : List (Path × Content) → String}

theorem sortPaths_sortPaths (paths : List Path) :
    sortPaths (sortPaths paths) = sortPaths paths := by
  refine List.mergeSort_of_pairwise (List.pairwise_mergeSort ?_ ?_ _)
  · intro p q r hpq hqr
    simp only [decide_eq_true_eq] at hpq hqr ⊢
    exact hpq.trans hqr
  · intro p q
    simp only [Bool.or_eq_true, decide_eq_true_eq]
    exact le_total _ _

theorem map_fst_listFiles (hsorted : sortPaths paths = paths) (hkeys : b.keys = paths) :
    (listFiles b).map Prod.fst = paths := by
  have hget : ∀ l : List Path, (∀ p ∈ l, b.has p = true) →
      (l.filterMap fun p => (b.get p).map (p, ·)).map Prod.fst = l := by
    intro l hl
    induction l with
    | nil => rfl
    | cons p l ih =>
      rw [List.forall_mem_cons] at hl
      obtain ⟨v, hv⟩ := OrderedMap.has_eq_true_iff.1 hl.1
      rw [List.filterMap_cons_some (by rw [hv]; rfl), List.map_cons, ih hl.2]
  rw [listFiles, hkeys, hsorted]
  exact hget paths fun p hp => OrderedMap.mem_keys.1 (hkeys ▸ hp)

theorem wp_readBundle {step : Step} (hstep : step ≠ .replacement)
    (hb : Building source old options.files paths b m.disk)
    {Q : List (Path × File) → Machine → Prop} (hQ : Q (listFiles b) m) :
    wp (readBundle plan step) Q (Stopped plan source options old) m := by
  have hsome : m.disk.candidate.isSome = true := by simp [hb.candidate]
  unfold readBundle
  rw [wp_bind]
  refine wp_assertRealDirectory hb.target hstep (fun _ => hsome) (fun _ => hsome) ?_
  rw [wp_bind]
  refine wp_operate_id hb.target hstep ?_
  rw [wp_bind, wp_get, hb.candidate]
  simp only
  rw [wp_bind]
  refine wp_mono (wp_forM_const _ fun e _ Q hQ => ?_) ?_ fun _ _ h => h
  · rw [wp_bind]
    exact wp_operate_id hb.target hstep (wp_operate_id hb.target hstep hQ)
  rintro _ m' rfl
  rw [wp_bind]
  refine wp_mono (wp_forM_const _ fun e _ Q hQ => wp_operate_id hb.target hstep hQ) ?_
    fun _ _ h => h
  rintro _ m'' rfl
  exact hQ

variable (hhash : ∀ content, isSha256 (hash content) = true)
  (hhashFiles : ∀ files, isSha256 (hashFiles files) = true)

include hhash hhashFiles

/-- The candidate is what its manifest says. -/
theorem wp_verifyRetainedBundle (hnodup : paths.Nodup) (hsorted : sortPaths paths = paths)
    (hb : Building source old options.files paths b m.disk) {Q : Unit → Machine → Prop}
    (hQ : Q () m) :
    wp (verifyRetainedBundle plan hash hashFiles (manifestOf hash hashFiles (listFiles b))) Q
      (Stopped plan source options old) m := by
  have hpaths : (manifestOf hash hashFiles (listFiles b)).files.map (·.path) = paths := by
    rw [manifestOf, List.map_map]
    exact map_fst_listFiles hsorted hb.keys
  unfold verifyRetainedBundle
  rw [wp_bind]
  refine wp_ensure (fun _ => ?_) fun hc => by simp [manifestOf, hhashFiles] at hc
  rw [wp_bind]
  refine wp_ensure (fun _ => ?_) fun hc => ?_
  swap
  · rw [← Bool.not_eq_true, List.all_eq_true] at hc
    refine (hc fun f hf => ?_).elim
    obtain ⟨e, -, rfl⟩ := List.mem_map.1 hf
    simp only [describe, hhash, Bool.true_and]
    exact decide_eq_true Nat.and_le_right
  rw [wp_bind]
  refine wp_ensure (fun _ => ?_) fun hc => by simp [hpaths, hnodup] at hc
  rw [wp_bind]
  refine wp_readBundle (by simp) hb ?_
  rw [wp_bind]
  refine wp_ensure (fun _ => ?_) fun hc => ?_
  swap
  · rw [hpaths, map_fst_listFiles hsorted hb.keys] at hc
    simp at hc
  rw [wp_bind]
  refine wp_ensure (fun _ => ?_) fun hc => by simp [manifestOf] at hc
  exact wp_ensure (fun _ => hQ) fun hc => by simp [manifestOf] at hc

theorem wp_buildCandidate (hnodup : paths.Nodup) (hsorted : sortPaths paths = paths)
    (hpaths : ∀ p ∈ paths, p ∈ options.files)
    (hb : Building source old options.files [] b m.disk) :
    wp (buildCandidate plan hash hashFiles paths)
      (fun _ m' => ∃ b', Building source old options.files paths b' m'.disk)
      (Stopped plan source options old) m := by
  unfold buildCandidate createRetainedBundleManifest
  rw [wp_bind]
  refine wp_mono (wp_copyFiles hnodup hpaths paths [] rfl hb) ?_ fun _ _ h => h
  rintro _ m' ⟨b', hb'⟩
  rw [wp_bind, wp_bind]
  refine wp_readBundle (by simp) hb' ?_
  rw [wp_pure, wp_bind]
  refine wp_ensure (fun _ => ?_) fun hc => ?_
  · rw [wp_bind]
    exact wp_verifyRetainedBundle hhash hhashFiles hnodup hsorted hb' ⟨b', hb'⟩
  · have hfiles : (manifestOf hash hashFiles (listFiles b')).files.map (·.path) = paths := by
      rw [manifestOf, List.map_map]
      exact map_fst_listFiles hsorted hb'.keys
    simp [hfiles] at hc

end Checking

section Replacing

variable {plan : Plan} {old : Option Bundle} {m : Machine} {b o : Bundle}

theorem remnant_eq_self_iff : plan.remnant o = o ↔ ∀ p, o.has p = true → plan.left p = true := by
  have hentries : plan.remnant o = o ↔ o.entries.filter (fun e => plan.left e.1) = o.entries := by
    refine ⟨fun h => congrArg OrderedMap.entries h, fun h => ?_⟩
    cases o
    simp only [Plan.remnant, OrderedMap.filter, OrderedMap.mk.injEq] at h ⊢
    exact h
  rw [hentries, List.filter_eq_self]
  constructor
  · intro h p hp
    obtain ⟨v, hv⟩ := OrderedMap.has_eq_true_iff.1 hp
    exact h (p, v) (OrderedMap.get_eq_some_iff.1 hv)
  · rintro h ⟨p, v⟩ hmem
    exact h p (OrderedMap.has_eq_true_iff.2 ⟨v, OrderedMap.get_eq_some_iff.2 hmem⟩)

/-- The operations of the `catch` block. -/
def restoring (site : Site) : Prop :=
  site.operation = .existsSync ∧ 2 ≤ site.call ∨ site = ⟨.replacement, .rmSync, 1, []⟩
    ∨ site = ⟨.replacement, .renameSync, 2, []⟩

theorem wp_restore_kept {e : Fault} {Q : Unit → Machine → Prop} {E : Fault → Machine → Prop}
    (hE : E e m) : wp (restore plan false e) Q E m := by
  unfold restore removePublished
  rw [wp_bind, wp_bind]
  refine wp_existsSync (fun _ _ => ?_) fun _ => ?_ <;> exact hE

/-- The new bundle is removed when it is there. -/
theorem wp_removePublished {Q : Unit → Machine → Prop} {E : Fault → Machine → Prop}
    (hexists : plan.failing ≠ some ⟨.replacement, .existsSync, 2, []⟩)
    (hremove : plan.failing ≠ some ⟨.replacement, .rmSync, 1, []⟩)
    (hQ : ∀ m' : Machine, m'.disk.target = none → m'.disk.retired = m.disk.retired → Q () m') :
    wp (removePublished plan true) Q E m := by
  unfold removePublished
  rw [wp_bind]
  refine wp_existsSync (fun _ _ => ?_) fun hno => ?_
  · rw [if_pos (by rfl)]
    unfold rmSync Plan.succeeds
    rw [if_pos (by simpa using hremove)]
    exact hQ _ rfl rfl
  · rw [if_neg (by simp)]
    exact hQ m (Option.not_isSome_iff_eq_none.1 (by simpa using hno.resolve_left hexists)) rfl

theorem wp_putBack {Q : Unit → Machine → Prop} {E : Fault → Machine → Prop}
    (hexists : plan.failing ≠ some ⟨.replacement, .existsSync, 3, []⟩)
    (hrename : plan.failing ≠ some ⟨.replacement, .renameSync, 2, []⟩)
    (htarget : m.disk.target = none)
    (hQ : ∀ m' : Machine, m'.disk.target = m.disk.retired → Q () m') :
    wp (putBack plan true) Q E m := by
  unfold putBack
  rw [if_pos rfl, wp_bind]
  refine wp_existsSync (fun _ hsome => ?_) fun hno => ?_
  · rw [if_pos rfl, wp_bind]
    refine wp_existsSync (fun _ hthere => by simp [htarget] at hthere) fun _ => ?_
    rw [if_neg (by simp)]
    unfold renameToTarget
    rw [wp_bind, wp_get, wp_bind]
    refine wp_ensure (fun _ => ?_) fun hc => by simp [hsome] at hc
    rw [wp_bind]
    refine wp_ensure (fun _ => ?_) fun hc => by simp [htarget] at hc
    exact wp_operate (fun _ => hQ _ rfl) fun h => absurd h hrename
  · rw [if_neg (by simp)]
    have hnone := Option.not_isSome_iff_eq_none.1 (by simpa using hno.resolve_left hexists)
    exact hQ m (htarget.trans hnone.symm)

/-- When the existing bundle has been retired, what is left of it is put back. -/
theorem wp_restore_moved {e : Fault} {site : Site} (h : plan.failing = some site)
    (hsite : ¬restoring site) {Q : Unit → Machine → Prop} {E : Fault → Machine → Prop}
    (hE : ∀ m' : Machine, m'.disk.target = m.disk.retired → E e m') :
    wp (restore plan true e) Q E m := by
  have hexists : ∀ call, 2 ≤ call →
      plan.failing ≠ some ⟨.replacement, .existsSync, call, []⟩ := by
    intro call hcall heq
    rw [h] at heq
    exact hsite (.inl ⟨by rw [Option.some.inj heq], by rw [Option.some.inj heq]; exact hcall⟩)
  have hremove : plan.failing ≠ some ⟨.replacement, .rmSync, 1, []⟩ := by
    rw [h]
    exact fun heq => hsite (.inr (.inl (Option.some.inj heq)))
  have hrename : plan.failing ≠ some ⟨.replacement, .renameSync, 2, []⟩ := by
    rw [h]
    exact fun heq => hsite (.inr (.inr (Option.some.inj heq)))
  unfold restore
  rw [wp_bind]
  refine wp_removePublished (hexists 2 le_rfl) hremove fun m' htarget hretired => ?_
  rw [wp_bind]
  refine wp_putBack (hexists 3 (by omega)) hrename htarget fun m'' hback => ?_
  exact hE m'' (hback.trans hretired)

/-- How a replacement ends: with the new bundle, unless it throws; with the old one when it does,
unless the failure is harmful. -/
structure Replaced (plan : Plan) (old : Option Bundle) (b : Bundle) (m : Machine) : Prop where
  target : m.disk.target = some b
  candidate : m.disk.candidate = none
  harmless : ¬Harmful plan old

def Undone (plan : Plan) (old : Option Bundle) (_ : Fault) (m : Machine) : Prop :=
  m.disk.target = old ↔ ¬Harmful plan old

/-- A failure that is none of the three. -/
theorem not_harmful {site : Site} (h : plan.failing = some site)
    (hclose : ∀ call, site ≠ .closeParent call) (hremove : site ≠ .removeRetired) :
    ¬Harmful plan old := by
  rintro (h' | ⟨h', -⟩ | ⟨h', -⟩) <;> rw [h] at h'
  · exact hclose 1 (Option.some.inj h')
  · exact hclose 0 (Option.some.inj h')
  · exact hremove (Option.some.inj h')

/-- The old bundle has stayed where it was. -/
theorem Undone.kept {e : Fault} {site : Site} (htarget : m.disk.target = old)
    (h : plan.failing = some site) (hclose : ∀ call, site ≠ .closeParent call)
    (hremove : site ≠ .removeRetired) : Undone plan old e m :=
  iff_of_true htarget (not_harmful h hclose hremove)

/-- After the `try` block has begun: the existing bundle is retired, or there is none to be seen. -/
inductive Retired (plan : Plan) (old : Option Bundle) (b : Bundle) (m : Machine) :
    Bool → Prop
  | moved (hcandidate : m.disk.candidate = some b) (htarget : m.disk.target = none)
      (hretired : m.disk.retired = old) (hold : old.isSome = true) : Retired plan old b m true
  | kept (hcandidate : m.disk.candidate = some b) (htarget : m.disk.target = old)
      (hold : old = none ∨ plan.failing = some ⟨.replacement, .existsSync, 0, []⟩) :
      Retired plan old b m false

theorem wp_retire (htarget : m.disk.target = old) (hcandidate : m.disk.candidate = some b)
    {E : Fault → Machine → Prop} (hE : ∀ e, Undone plan old e m → E e m) :
    wp (retire plan) (fun moved m' => Retired plan old b m' moved) E m := by
  unfold retire
  rw [wp_bind]
  refine wp_existsSync (fun _ hsome => ?_) fun hno => ?_
  · rw [if_pos rfl, wp_bind]
    unfold assertRealDirectory
    rw [wp_bind]
    refine wp_existsSync (fun _ _ => ?_) fun hno => ?_
    · rw [wp_bind]
      refine wp_ensure (fun _ => ?_) fun hc => absurd hc (by simp)
      rw [wp_bind]
      refine wp_operate (fun _ => ?_) fun h =>
        hE _ (.kept htarget h (by simp [Site.closeParent]) (by simp [Site.removeRetired]))
      rw [wp_bind, wp_get]
      refine wp_ensure (fun _ => ?_) fun hc => absurd hsome (by simpa using hc)
      rw [wp_bind]
      refine wp_operate (fun _ => ?_) fun h =>
        hE _ (.kept htarget h (by simp [Site.closeParent]) (by simp [Site.removeRetired]))
      exact .moved hcandidate rfl htarget (htarget ▸ hsome)
    · rw [wp_bind]
      refine wp_ensure (fun hc => by simp at hc) fun _ => ?_
      have h := hno.resolve_right (by simp [hsome])
      exact hE _ (.kept htarget h (by simp [Site.closeParent]) (by simp [Site.removeRetired]))
  · rw [if_neg (by simp)]
    refine .kept hcandidate htarget (hno.symm.imp_left fun hnone => ?_)
    rw [← htarget]
    simpa using hnone

theorem wp_syncParent {call : ℕ} {Q : Unit → Machine → Prop} {E : Fault → Machine → Prop}
    (hQ : plan.failing ≠ some (.closeParent call) → Q () m)
    (hE : plan.failing = some (.closeParent call) → E (.failed (.closeParent call)) m) :
    wp (syncDirectory plan .replacement call) Q E m := by
  unfold syncDirectory Plan.succeeds
  split_ifs with hopen
  · exact wp_operate hQ hE
  · refine hQ fun heq => hopen ?_
    simp [heq, Site.closeParent]

/-- The rest of the replacement when no bundle has been retired. -/
theorem wp_exchange_kept (h : Retired plan old b m false) :
    wp (tryCatch (exchange plan false) (restore plan false)) (fun _ => Replaced plan old b)
      (Undone plan old) m := by
  obtain ⟨hcandidate, htarget, hold⟩ : m.disk.candidate = some b ∧ m.disk.target = old
      ∧ (old = none ∨ plan.failing = some ⟨.replacement, .existsSync, 0, []⟩) := by
    cases h with
    | kept hcandidate htarget hold => exact ⟨hcandidate, htarget, hold⟩
  have hE : ∀ e m', Undone plan old e m' →
      wp (restore plan false e) (fun _ => Replaced plan old b) (Undone plan old) m' :=
    fun e m' h => wp_restore_kept h
  -- the existing bundle is only overlooked when that is the failure
  have hseen : ∀ site, site ≠ ⟨.replacement, .existsSync, 0, []⟩ → plan.failing = some site →
      old = none := fun site hsite h => hold.resolve_right fun heq =>
    hsite (Option.some.inj (h.symm.trans heq))
  rw [wp_tryCatch]
  unfold exchange renameToTarget
  rw [wp_bind, wp_bind, wp_get, wp_bind]
  refine wp_ensure (fun _ => ?_) fun hc => by simp [hcandidate] at hc
  rw [wp_bind]
  refine wp_ensure (fun _ => ?_) fun hc => hE _ _ ?_
  swap
  · rcases hold with rfl | h
    · simp [htarget] at hc
    · exact .kept htarget h (by simp [Site.closeParent]) (by simp [Site.removeRetired])
  refine wp_operate (fun _ => ?_) fun h => hE _ _
    (.kept htarget h (by simp [Site.closeParent]) (by simp [Site.removeRetired]))
  rw [wp_bind]
  refine wp_syncParent (fun hfirst => ?_) fun h => hE _ _ ?_
  swap
  · have hnone := hseen _ (by simp [Site.closeParent]) h
    refine iff_of_false ?_ (not_not_intro (.closeOfFirst h hnone))
    simp [hnone, hcandidate]
  rw [wp_bind]
  show wp (syncDirectory plan .replacement 1) _ _ _
  refine wp_syncParent (fun hsecond => ⟨hcandidate, rfl, ?_⟩) fun h => hE _ _ ?_
  · rintro (h | ⟨h, -⟩ | ⟨h, o, ho, -⟩)
    · exact hsecond h
    · exact hfirst h
    · have hnone := hseen _ (by simp [Site.removeRetired]) h
      simp [hnone] at ho
  · refine iff_of_false ?_ (not_not_intro (.closeAfterRemoval h))
    rw [hseen _ (by simp [Site.closeParent]) h]
    simp [hcandidate]

/-- The rest of it when one has. -/
theorem wp_exchange_moved (h : Retired plan old b m true) :
    wp (tryCatch (exchange plan true) (restore plan true)) (fun _ => Replaced plan old b)
      (Undone plan old) m := by
  obtain ⟨o, ho⟩ : ∃ o, old = some o := by
    cases h with
    | moved _ _ _ hold => exact Option.isSome_iff_exists.1 hold
  obtain ⟨hcandidate, htarget, hretired⟩ : m.disk.candidate = some b ∧ m.disk.target = none
      ∧ m.disk.retired = some o := by
    cases h with
    | moved hcandidate htarget hretired _ => exact ⟨hcandidate, htarget, hretired.trans ho⟩
  subst ho
  rw [wp_tryCatch]
  unfold exchange renameToTarget
  rw [wp_bind, wp_bind, wp_get, wp_bind]
  refine wp_ensure (fun _ => ?_) fun hc => by simp [hcandidate] at hc
  rw [wp_bind]
  refine wp_ensure (fun _ => ?_) fun hc => by simp [htarget] at hc
  refine wp_operate (fun _ => ?_) fun h => wp_restore_moved h (by simp [restoring]) fun m' hm' =>
    .kept (hm'.trans hretired) h (by simp [Site.closeParent]) (by simp [Site.removeRetired])
  rw [wp_bind]
  refine wp_syncParent (fun hfirst => ?_) fun h =>
    wp_restore_moved h (by simp [restoring, Site.closeParent]) fun m' hm' => ?_
  swap
  · refine iff_of_true (hm'.trans hretired) ?_
    rintro (h' | ⟨-, hno⟩ | ⟨h', -⟩)
    · rw [h] at h'
      simp [Site.closeParent] at h'
    · simp at hno
    · rw [h] at h'
      simp [Site.closeParent, Site.removeRetired] at h'
  rw [wp_bind]
  unfold removeRetired rmSync Plan.succeeds
  rw [if_pos rfl]
  split_ifs with hremove
  · rw [wp_modify]
    have hremove' : plan.failing ≠ some .removeRetired := by
      simpa [Site.removeRetired] using hremove
    refine wp_syncParent (fun hsecond => ⟨hcandidate, rfl, ?_⟩) fun h =>
      wp_restore_moved h (by simp [restoring, Site.closeParent]) fun m' hm' => ?_
    · rintro (h | ⟨h, -⟩ | ⟨h, -⟩)
      · exact hsecond h
      · exact hfirst h
      · exact hremove' h
    · refine iff_of_false ?_ (not_not_intro (.closeAfterRemoval h))
      rw [hm']
      simp
  · -- what is left of the old bundle is put back
    have h : plan.failing = some .removeRetired := by simpa [Site.removeRetired] using hremove
    rw [wp_bind, wp_modify, wp_throw]
    refine wp_restore_moved h (by simp [restoring, Site.removeRetired]) fun m' hm' => ?_
    have hremnant : m'.disk.target = some (plan.remnant o) := by
      rw [hm']
      simp [hretired]
    rw [Undone, hremnant, Option.some.injEq, remnant_eq_self_iff]
    constructor
    · rintro hall (h' | ⟨-, hno⟩ | ⟨-, o', ho', p, hp, hleft⟩)
      · rw [h] at h'
        simp [Site.closeParent, Site.removeRetired] at h'
      · simp at hno
      · obtain rfl := Option.some.inj ho'
        simp [hall p hp] at hleft
    · intro hno p hp
      by_contra hleft
      exact hno (.partialRemoval h o rfl p hp (by simpa using hleft))

/-- A replacement of the old bundle by the candidate. -/
theorem wp_replaceDirectory (htarget : m.disk.target = old)
    (hcandidate : m.disk.candidate = some b) :
    wp (replaceDirectory plan) (fun _ => Replaced plan old b) (Undone plan old) m := by
  unfold replaceDirectory
  rw [wp_bind, wp_tryCatch]
  refine wp_mono (wp_retire htarget hcandidate fun e h => ?_) (fun moved m' h => ?_) fun e m' h => h
  · rw [wp_bind]
    exact wp_restore_kept h
  · cases moved
    · exact wp_exchange_kept h
    · exact wp_exchange_moved h

end Replacing

section Whole

variable {plan : Plan} {source : Tree} {options : RetainedBundleOptions} {old : Option Bundle}
  {hash : Content → String} {hashFiles : List (Path × Content) → String}

theorem Spared.not_harmful (h : Spared plan) : ¬Harmful plan old := by
  obtain ⟨site, hfailing, hstep⟩ := h
  refine RetainedBundle.not_harmful hfailing (fun call heq => hstep ?_) fun heq => hstep ?_
  all_goals
    rw [heq]
    rfl

/-- The candidate that is left is removed; the target stays. -/
theorem wp_finish {m : Machine} {Q : Unit → Machine → Prop} {E : Fault → Machine → Prop}
    (hQ : ∀ m' : Machine, m'.disk.target = m.disk.target → Q () m')
    (hE : m.disk.candidate.isSome = true → ∀ e (m' : Machine), m'.disk.target = m.disk.target →
      E e m') :
    wp (finish plan) Q E m := by
  unfold finish
  rw [wp_bind]
  refine wp_existsSync (fun _ hsome => ?_) fun _ => ?_
  · rw [if_pos rfl]
    unfold rmSync
    split
    · exact hQ _ rfl
    · rw [wp_bind, wp_modify, wp_throw]
      exact hE hsome _ _ rfl
  · rw [if_neg (by simp)]
    exact hQ m rfl

theorem mem_sortPaths {l : List Path} {p : Path} : p ∈ sortPaths l ↔ p ∈ l := List.mem_mergeSort

theorem nodup_sortPaths {l : List Path} : (sortPaths l).Nodup ↔ l.Nodup :=
  (List.mergeSort_perm l _).nodup_iff

/-- What is needed of the options alone. -/
structure Consistent (options : RetainedBundleOptions) : Prop where
  nodup : options.files.Nodup
  required : options.requiredFiles.Nodup ∧ ∀ p ∈ options.requiredFiles, p ∈ options.files
  references : options.references = .ok ()

theorem wp_checkOptions {m : Machine} (htarget : m.disk.target = old) :
    wp (checkOptions options)
      (fun paths m' => m' = m ∧ paths = sortPaths options.files ∧ Consistent options)
      (Stopped plan source options old) m := by
  unfold checkOptions normalizedUniquePaths
  rw [wp_bind, wp_bind]
  refine wp_ensure (fun hfiles => ?_) fun hc => .refused htarget fun hcopyable => by
    simp [nodup_sortPaths, hcopyable.nodup] at hc
  rw [wp_pure, wp_bind, wp_bind]
  refine wp_ensure (fun hrequired => ?_) fun hc => .refused htarget fun hcopyable => by
    simp [nodup_sortPaths, hcopyable.required.1] at hc
  rw [wp_pure, wp_bind]
  refine wp_ensure (fun hall => ?_) fun hc => .refused htarget fun hcopyable => ?_
  swap
  · rw [← Bool.not_eq_true, List.all_eq_true] at hc
    exact hc fun p hp => by
      simpa [mem_sortPaths] using hcopyable.required.2 p (mem_sortPaths.1 hp)
  split
  · rename_i e he
    rw [wp_throw]
    refine .refused htarget fun hcopyable => ?_
    have hreferences := hcopyable.references
    simp [he] at hreferences
  · rename_i hreferences
    rw [List.all_eq_true] at hall
    refine ⟨rfl, rfl, by simpa [nodup_sortPaths] using hfiles,
      ⟨by simpa [nodup_sortPaths] using hrequired, fun p hp => ?_⟩, hreferences⟩
    simpa [mem_sortPaths] using hall p (mem_sortPaths.2 hp)

theorem wp_prepareDirectories (parent : Bool) :
    wp (prepareDirectories plan)
      (fun _ m => Building source old options.files [] OrderedMap.empty m.disk)
      (Stopped plan source options old) (start source parent old) := by
  have hcandidate : ∀ parent, wp (ensureDirectory plan .candidate 0 [] (·.candidate.isSome)
        (·.candidate.isSome) fun d => some { d with candidate := some OrderedMap.empty })
      (fun _ m => Building source old options.files [] OrderedMap.empty m.disk)
      (Stopped plan source options old) (start source parent old) := by
    intro parent
    refine wp_ensureDirectory rfl (by simp) (fun _ h => h) (fun _ => rfl) (fun d hd => ?_)
      (fun h => by simp [start] at h) fun d hd => ?_
    · rw [← Option.some.inj hd]
      exact ⟨rfl, rfl, rfl⟩
    · rw [← Option.some.inj hd]
      exact ⟨rfl, rfl, rfl, rfl, rfl, fun p => by simp, by simp, by simp [start]⟩
  have hexisting : ∀ parent, wp (do
        if ← existsSync plan .existing 0 [] (·.target.isSome) then
          assertRealDirectory plan .existing 1 [] (·.target.isSome) (·.target.isSome)
        ensureDirectory plan .candidate 0 [] (·.candidate.isSome) (·.candidate.isSome) fun d =>
          some { d with candidate := some OrderedMap.empty })
      (fun _ m => Building source old options.files [] OrderedMap.empty m.disk)
      (Stopped plan source options old) (start source parent old) := by
    intro parent
    rw [wp_bind]
    refine wp_existsSync (fun _ hsome => ?_) fun _ => ?_
    · rw [if_pos rfl, wp_bind]
      exact wp_assertRealDirectory rfl (by simp) (fun _ => hsome) (fun _ => hsome)
        (hcandidate parent)
    · rw [if_neg (by simp)]
      exact hcandidate parent
  unfold prepareDirectories
  rw [wp_bind]
  refine wp_ensureDirectory rfl (by simp) (fun _ h => h) (fun _ => rfl) (fun d hd => ?_)
    (fun _ => hexisting parent) fun d hd => ?_
  · rw [← Option.some.inj hd]
    exact ⟨rfl, rfl, rfl⟩
  · rw [← Option.some.inj hd]
    exact hexisting true

variable (hhash : ∀ content, isSha256 (hash content) = true)
  (hhashFiles : ∀ files, isSha256 (hashFiles files) = true)

include hhash hhashFiles

theorem wp_copyRetainedBundle (parent : Bool) :
    wp (copyRetainedBundle plan hash hashFiles options)
      (fun _ m => (∃ b, m.disk.target = some b ∧ IsBundle source options.files b)
        ∧ ¬(Copyable source options ∧ Harmful plan old))
      (fun _ m => m.disk.target = old ↔ ¬(Copyable source options ∧ Harmful plan old))
      (start source parent old) := by
  have hE : ∀ e m, Stopped plan source options old e m →
      (m.disk.target = old ↔ ¬(Copyable source options ∧ Harmful plan old)) := fun _ _ h =>
    iff_of_true h.1 fun hboth => (h.2 hboth.1).not_harmful hboth.2
  unfold copyRetainedBundle
  rw [wp_bind]
  refine wp_mono (wp_checkOptions rfl) ?_ hE
  rintro _ _ ⟨rfl, rfl, hconsistent⟩
  rw [wp_bind]
  refine wp_mono (wp_prepareDirectories parent) (fun _ m hb => wp_tryFinally ?_) hE
  have hfinish : ∀ e m, Stopped plan source options old e m → wp (finish plan)
      (fun _ m => m.disk.target = old ↔ ¬(Copyable source options ∧ Harmful plan old))
      (fun _ m => m.disk.target = old ↔ ¬(Copyable source options ∧ Harmful plan old)) m := by
    intro e m h
    refine wp_finish (fun m' htarget => ?_) fun _ _ m' htarget => ?_
    all_goals
      rw [htarget]
      exact hE e m h
  rw [wp_bind]
  refine wp_mono (wp_buildCandidate hhash hhashFiles (nodup_sortPaths.2 hconsistent.nodup)
    (sortPaths_sortPaths _) (fun p hp => mem_sortPaths.1 hp) hb) ?_ hfinish
  rintro manifest m' ⟨b, hb⟩
  -- all the files have been copied
  have hcopyable : Copyable source options := ⟨hconsistent.nodup, hconsistent.required,
    hconsistent.references, fun p hp => hb.supplies p (mem_sortPaths.2 hp)⟩
  have hbundle : IsBundle source options.files b := fun p => by
    rw [hb.bundle p]
    simp only [mem_sortPaths]
  rw [wp_bind]
  refine wp_mono (wp_replaceDirectory hb.target hb.candidate) (fun _ m'' h => ?_) fun e m'' h => ?_
  · rw [wp_pure]
    refine wp_finish (fun m htarget => ⟨⟨b, htarget.trans h.target, hbundle⟩, fun hboth =>
      h.harmless hboth.2⟩) fun hsome => by simp [h.candidate] at hsome
  · refine wp_finish (fun m htarget => ?_) fun _ _ m htarget => ?_
    all_goals
      rw [htarget, and_iff_right hcopyable]
      exact h

theorem allOrNothing_iff (parent : Bool) :
    AllOrNothing source options old
        (exec (copyRetainedBundle plan hash hashFiles options) (start source parent old))
      ↔ ¬(Copyable source options ∧ Harmful plan old) := by
  have hwp : wp (copyRetainedBundle plan hash hashFiles options) _ _ (start source parent old) :=
    wp_copyRetainedBundle hhash hhashFiles parent
  unfold wp at hwp
  unfold AllOrNothing
  split at hwp <;> rename_i heq <;> rw [heq]
  · exact iff_of_true hwp.1 hwp.2
  · exact hwp

/-- Replacing the bundle is all or nothing if and only if the bundle cannot be made, or the failure
is none of the three that a replacement is not undone after. -/
theorem bundle_all_or_nothing (plan : Plan) (source : Tree) (options : RetainedBundleOptions)
    (parent : Bool) (old : Option Bundle) :
    AllOrNothing source options old
        (exec (copyRetainedBundle plan hash hashFiles options) (start source parent old))
      ↔ ¬(Copyable source options ∧ Harmful plan old) :=
  allOrNothing_iff hhash hhashFiles parent

end Whole

section Failing

def composeOnly : RetainedBundleOptions := ⟨[["compose.yml"]], [["compose.yml"]], .ok ()⟩

/-- A package with the file that is asked for. -/
def package : Tree := Tree.empty.set ["compose.yml"] (some (.file [1] 0o644))

/-- The bundle of the package before. -/
def bundleBefore : Bundle := OrderedMap.empty.set ["compose.yml"] ([0], 0o644)

theorem package_copyable : Copyable package composeOnly where
  nodup := by decide
  required := by decide
  references := rfl
  supplies p hp := by
    rw [List.mem_singleton.1 hp]
    exact ⟨by simp, by decide, [1], 0o644, by decide⟩

theorem zeroHash_files (files : List (Path × Content)) :
    isSha256 ((fun _ => zeroHash []) files) = true :=
  zeroHash_sha256 []

theorem bundle_all_or_nothing_undisturbed :
    AllOrNothing package composeOnly (some bundleBefore)
      (exec (copyRetainedBundle ⟨none, fun _ => false⟩ zeroHash (fun _ => zeroHash []) composeOnly)
        (start package true (some bundleBefore))) :=
  (bundle_all_or_nothing zeroHash_sha256 zeroHash_files ⟨none, fun _ => false⟩ package composeOnly
    true (some bundleBefore)).2 fun h => by
      rcases h.2 with h | ⟨h, -⟩ | ⟨h, -⟩ <;> simp at h

/-- The removal of the retired bundle fails after its file has been deleted: both are lost. -/
theorem bundle_lost :
    ¬∀ (plan : Plan) (hash : Content → String) (hashFiles : List (Path × Content) → String),
      (∀ content, isSha256 (hash content) = true) →
      (∀ files, isSha256 (hashFiles files) = true) → ∀ (source : Tree)
      (options : RetainedBundleOptions) (parent : Bool) (old : Option Bundle),
      AllOrNothing source options old
        (exec (copyRetainedBundle plan hash hashFiles options) (start source parent old)) := by
  intro h
  have hall := h ⟨some .removeRetired, fun _ => false⟩ zeroHash (fun _ => zeroHash [])
    zeroHash_sha256 zeroHash_files package composeOnly true (some bundleBefore)
  refine (allOrNothing_iff zeroHash_sha256 zeroHash_files true).1 hall ⟨package_copyable, ?_⟩
  exact .partialRemoval rfl bundleBefore rfl ["compose.yml"] (by decide) rfl

end Failing

end Atlas.Cli.RetainedBundle
