import Atlas.Cli.DeploymentTransaction

/-!
# What a crash leaves of a deployment transaction

On every disk a method passes, an entry of the configuration directory that differs from what was
there when the transaction was published is journaled, and the journal and the copies hold what it
was (`Kept`). A rollback puts it back from any of these disks. Two kinds of paths are outside of
that: a path whose key every object inherits is never journaled, and of two paths one above the
other only one can be a file.
-/

namespace Atlas.Cli.Deployment

open Effects

/-- The machine after an atomic operation. -/
def Machine.after (m : Machine) (f : Disk → Disk) : Machine :=
  { m with disk := f m.disk, passed := m.passed ++ [m.disk] }

section Reading

variable {α : Type} {m : Machine} {E : Fault → Machine → Prop}

@[simp]
theorem wp_atomic {f : Disk → Disk} {Q : Unit → Machine → Prop} :
    wp (atomic f) Q E m ↔ Q () (m.after f) := Iff.rfl

@[simp]
theorem wp_hold {j : TransactionJournal} {Q : Unit → Machine → Prop} :
    wp (hold j) Q E m ↔ Q () { m with held := some j } := Iff.rfl

@[simp]
theorem wp_fail {Q : α → Machine → Prop} {message : String} :
    wp (fail message) Q E m ↔ E (.failed message) m := Iff.rfl

theorem wp_ensure {c : Bool} {message : String} {Q : Unit → Machine → Prop}
    (hQ : c = true → Q () m) (hE : c = false → E (.failed message) m) :
    wp (ensure c message) Q E m := by
  cases c
  · exact hE rfl
  · exact hQ rfl

theorem wp_held {j : TransactionJournal} {Q : TransactionJournal → Machine → Prop}
    (h : m.held = some j) (hQ : Q j m) : wp held Q E m := by
  simp only [held, wp_bind, wp_get, h, wp_pure]
  exact hQ

theorem wp_tree {place : Place} {t : Tree} {Q : Tree → Machine → Prop}
    (h : m.disk.tree place = some t) (hQ : Q t m) : wp (tree place) Q E m := by
  simp only [tree, wp_bind, wp_get, h, wp_pure]
  exact hQ

end Reading

section Paths

/-- The first path is that of a directory on the way to the second. -/
def Above (a p : Path) : Prop := a ≠ [] ∧ a <+: p ∧ a ≠ p

theorem Above.trans {a b p : Path} (h : Above a b) (h' : Above b p) : Above a p := by
  refine ⟨h.1, h.2.1.trans h'.2.1, ?_⟩
  rintro rfl
  exact h.2.2 (h.2.1.eq_of_length_le h'.2.1.length_le)

theorem above_iff {a p : Path} : Above a p ↔ a ≠ [] ∧ a ∈ p.dropLast.inits := by
  rw [List.mem_inits]
  refine and_congr_right fun hne => ⟨fun h => ?_, fun h => ?_⟩
  · refine List.prefix_of_prefix_length_le h.1 (List.dropLast_prefix p) ?_
    rw [List.length_dropLast]
    have := h.1.length_le
    have hlt : a.length ≠ p.length := fun heq => h.2 (h.1.eq_of_length heq)
    omega
  · refine ⟨h.trans (List.dropLast_prefix p), ?_⟩
    rintro rfl
    have hle := h.length_le
    rw [List.length_dropLast] at hle
    have := List.length_pos_iff.2 hne
    omega

theorem blocked_eq_false {t : Tree} {p : Path} :
    t.blocked p = false ↔ ∀ a, Above a p → t a = none ∨ t a = some .dir := by
  simp only [Tree.blocked, List.any_eq_false, Bool.and_eq_true, decide_eq_true_eq, ne_eq, not_and,
    not_not, above_iff, and_imp]
  refine forall_congr' fun a => ⟨fun h hne hmem => ?_, fun h hmem hne hnode => ?_⟩
  · by_cases hnone : t a = none
    · exact .inl hnone
    · exact .inr (h hmem hne hnone)
  · exact (h hne hmem).resolve_left hnode

/-- A tree with directories above every entry. -/
def WellFormed (t : Tree) : Prop := ∀ p a, Above a p → t p ≠ none → t a = some .dir

theorem WellFormed.not_blocked {t : Tree} (h : WellFormed t) {p : Path} (hp : t p ≠ none) :
    t.blocked p = false :=
  blocked_eq_false.2 fun a ha => .inr (h p a ha hp)

theorem set_self (t : Tree) (p : Path) (n : Option Node) : t.set p n p = n := if_pos rfl

theorem set_of_ne {t : Tree} {p q : Path} {n : Option Node} (h : q ≠ p) : t.set p n q = t q :=
  if_neg h

/-- An entry below existing directories may be made, if it does not take the place of one. -/
theorem WellFormed.set {t : Tree} (h : WellFormed t) {p : Path} {n : Node}
    (habove : ∀ a, Above a p → t a = some .dir) (hp : t p ≠ some .dir) :
    WellFormed (t.set p (some n)) := by
  intro q a ha hq
  by_cases hqp : q = p
  · subst hqp
    rw [set_of_ne ha.2.2]
    exact habove a ha
  · rw [set_of_ne hqp] at hq
    by_cases hap : a = p
    · exact absurd (h q a ha hq) (hap ▸ hp)
    · rw [set_of_ne hap]
      exact h q a ha hq

theorem WellFormed.set_none {t : Tree} (h : WellFormed t) {p : Path} (hp : t p ≠ some .dir) :
    WellFormed (t.set p none) := by
  intro q a ha hq
  by_cases hqp : q = p
  · exact absurd (hqp ▸ set_self t p none) hq
  · rw [set_of_ne hqp] at hq
    by_cases hap : a = p
    · exact absurd (h q a ha hq) (hap ▸ hp)
    · rw [set_of_ne hap]
      exact h q a ha hq

end Paths

section Kept

variable (hash : Content → String)

def IsFileOrNone (n : Option Node) : Prop := ∀ x, n = some x → ∃ content mode, x = .file content mode

/-- What a snapshot says of its path, and what there is to restore it from. -/
def Saved (base root before : Tree) (p : Path) : TransactionFileSnapshot → Prop
  | .absent => base p = none ∧ IsFileOrNone (root p)
  | .present sha256 mode _ => (∃ content, base p = some (.file content mode) ∧ hash content = sha256
      ∧ ∃ mode', before p = some (.file content mode')) ∧ IsFileOrNone (root p)

/-- How the configuration directory, the copies and the journal belong together. -/
structure Kept (base root before : Tree) (j : TransactionJournal) : Prop where
  root_wf : WellFormed root
  before_wf : WellFormed before
  others : ∀ p, j.snapshots.get p = none → root p = base p ∨ base p = none ∧ root p = some .dir
  saved : ∀ p s, j.snapshots.get p = some s → Saved hash base root before p s
  reach : ∀ p a, j.snapshots.get p ≠ none → Above a p → root a = none ∨ root a = some .dir
  apart : ∀ p q, j.snapshots.get p ≠ none → j.snapshots.get q ≠ none → ¬Above p q

namespace Kept

variable {hash} {base root before : Tree} {j : TransactionJournal} {p : Path}

theorem Saved.isFileOrNone {s : TransactionFileSnapshot} (h : Saved hash base root before p s) :
    IsFileOrNone (root p) := by
  cases s with
  | absent => exact h.2
  | present sha256 mode size => exact h.2

theorem isFileOrNone (h : Kept hash base root before j) (hp : j.snapshots.get p ≠ none) :
    IsFileOrNone (root p) := by
  obtain ⟨s, hs⟩ := Option.ne_none_iff_exists'.1 hp
  exact Saved.isFileOrNone (h.saved p s hs)

theorem ne_dir (h : Kept hash base root before j) (hp : j.snapshots.get p ≠ none) :
    root p ≠ some .dir := by
  intro hdir
  obtain ⟨_, _, hfile⟩ := h.isFileOrNone hp _ hdir
  exact absurd hfile (by simp)

/-- A directory made on the way to a journaled path. -/
theorem mkdirRoot (h : Kept hash base root before j) (hp : j.snapshots.get p ≠ none) {a : Path}
    (ha : Above a p) (hnone : root a = none) (habove : ∀ b, Above b a → root b = some .dir) :
    Kept hash base (root.set a (some .dir)) before j where
  root_wf := h.root_wf.set habove (by simp [hnone])
  before_wf := h.before_wf
  others q hq := by
    by_cases hqa : q = a
    · subst hqa
      refine .inr ⟨?_, set_self ..⟩
      rcases h.others q hq with heq | hbase
      · exact heq.symm.trans hnone
      · exact hbase.1
    · rw [set_of_ne hqa]
      exact h.others q hq
  saved q s hs := by
    have hqa : q ≠ a := by
      rintro rfl
      exact h.apart q p (by simp [hs]) hp ha
    have hsaved := h.saved q s hs
    cases s <;> simpa only [Saved, set_of_ne hqa] using hsaved
  reach q b hq hb := by
    by_cases hba : b = a
    · exact .inr (hba ▸ set_self ..)
    · rw [set_of_ne hba]
      exact h.reach q b hq hb
  apart := h.apart

/-- A file written at a journaled path, or removed from it. -/
theorem setRoot (h : Kept hash base root before j) (hp : j.snapshots.get p ≠ none)
    {n : Option Node} (hn : IsFileOrNone n) (hwf : WellFormed (root.set p n)) :
    Kept hash base (root.set p n) before j where
  root_wf := hwf
  before_wf := h.before_wf
  others q hq := by
    have hqp : q ≠ p := by
      rintro rfl
      exact hp hq
    rw [set_of_ne hqp]
    exact h.others q hq
  saved q s hs := by
    have hsaved := h.saved q s hs
    by_cases hqp : q = p
    · subst hqp
      cases s <;> simp only [Saved, set_self] at hsaved ⊢ <;> exact ⟨hsaved.1, hn⟩
    · cases s <;> simpa only [Saved, set_of_ne hqp] using hsaved
  reach q b hq hb := by
    have hbp : b ≠ p := by
      rintro rfl
      exact h.apart b q hp hq hb
    rw [set_of_ne hbp]
    exact h.reach q b hq hb
  apart := h.apart

/-- An entry of the copies that is none of a journaled path. -/
theorem setBefore (h : Kept hash base root before j) {a : Path} {n : Node}
    (hwf : WellFormed (before.set a (some n)))
    (ha : j.snapshots.get a = none ∨ before a = none) :
    Kept hash base root (before.set a (some n)) j where
  root_wf := h.root_wf
  before_wf := hwf
  others := h.others
  saved q s hs := by
    have hsaved := h.saved q s hs
    cases s with
    | absent => exact hsaved
    | present sha256 mode size =>
      have hqa : q ≠ a := by
        rintro rfl
        obtain ⟨⟨_, _, _, _, hbefore⟩, _⟩ := hsaved
        rcases ha with ha | ha
        · simp [ha] at hs
        · simp [ha] at hbefore
      simpa only [Saved, set_of_ne hqa] using hsaved
  reach := h.reach
  apart := h.apart

/-- A path whose snapshot has been taken joins the journal. -/
theorem record (h : Kept hash base root before j) {s : TransactionFileSnapshot}
    (hs : Saved hash base root before p s)
    (hreach : ∀ a, Above a p → root a = none ∨ root a = some .dir)
    (hapart : ∀ q, j.snapshots.get q ≠ none → ¬Above p q ∧ ¬Above q p) :
    Kept hash base root before { j with snapshots := j.snapshots.set p s } where
  root_wf := h.root_wf
  before_wf := h.before_wf
  others q hq := by
    simp only [OrderedMap.get_set] at hq
    split_ifs at hq
    exact h.others q hq
  saved q s' hs' := by
    simp only [OrderedMap.get_set] at hs'
    split_ifs at hs' with hqp
    · obtain rfl := Option.some.inj hs'
      rw [hqp]
      exact hs
    · exact h.saved q s' hs'
  reach q a hq ha := by
    simp only [OrderedMap.get_set] at hq
    split_ifs at hq with hqp
    · exact hreach a (hqp ▸ ha)
    · exact h.reach q a hq ha
  apart q q' hq hq' := by
    simp only [OrderedMap.get_set] at hq hq'
    split_ifs at hq hq' with hqp hqp' hqp'
    · rw [hqp, hqp']
      exact fun habove => habove.2.2 rfl
    · rw [hqp]
      exact (hapart q' hq').1
    · rw [hqp']
      exact (hapart q hq).2
    · exact h.apart q q' hq hq'

/-- Nothing but the snapshots counts. -/
theorem congr (h : Kept hash base root before j) {j' : TransactionJournal}
    (hj : j'.snapshots = j.snapshots) : Kept hash base root before j' := by
  obtain ⟨h1, h2, h3, h4, h5, h6⟩ := h
  exact ⟨h1, h2, by rwa [hj], by rwa [hj], by rwa [hj], by rwa [hj]⟩

end Kept

end Kept

section Places

variable {m : Machine} {E : Fault → Machine → Prop} {place : Place} {t : Tree}

theorem tree_setTree {d : Disk} (h : d.tree place = some t) (t' : Tree) :
    (d.setTree t' place).tree place = some t' := by
  cases place with
  | root => rfl
  | before =>
    obtain ⟨x, hx, -⟩ := Option.bind_eq_some_iff.1 h
    simp [Disk.tree, Disk.setTree, hx]
  | staged =>
    obtain ⟨x, hx, -⟩ := Option.bind_eq_some_iff.1 h
    simp [Disk.tree, Disk.setTree, hx]

theorem wp_setEntry {p : Path} {n : Option Node} {Q : Unit → Machine → Prop}
    (h : m.disk.tree place = some t)
    (hQ : Q () (m.after fun d => d.setTree (t.set p n) place)) : wp (setEntry place p n) Q E m := by
  unfold setEntry
  rw [wp_bind]
  exact wp_tree h hQ

theorem wp_lstat {p : Path} {Q : Option Node → Machine → Prop} (h : m.disk.tree place = some t)
    (hQ : t.blocked p = false → Q (t p) m)
    (hE : t.blocked p = true → E (.failed "ENOTDIR") m) : wp (lstat place p) Q E m := by
  unfold lstat
  rw [wp_bind]
  refine wp_tree h ?_
  rw [wp_bind]
  exact wp_ensure (fun hc => hQ (by simpa using hc)) fun hc => hE (by simpa using hc)

theorem wp_regularFile {node : Option Node} {Q : Content × ℕ → Machine → Prop}
    (hQ : ∀ content mode, node = some (.file content mode) → Q (content, mode) m)
    (hE : ∀ e, (∀ content mode, node ≠ some (.file content mode)) → E e m) :
    wp (regularFile node) Q E m := by
  unfold regularFile
  split
  · exact hQ _ _ rfl
  all_goals exact hE _ (by simp_all)

/-- What every entry on the way must be for a path to be without symbolic links. -/
def Plain (t : Tree) (a : Path) : Prop := t.blocked a = false ∧ t a ≠ some .symlink

theorem wp_noSymlinks (h : m.disk.tree place = some t) (paths : List Path) :
    wp (paths.forM (assertNoSymlink place)) (fun _ m' => m' = m ∧ ∀ a ∈ paths, Plain t a)
      (fun _ m' => m' = m ∧ ∃ a ∈ paths, ¬Plain t a) m := by
  induction paths with
  | nil => exact ⟨rfl, by simp⟩
  | cons a paths ih =>
    show wp (assertNoSymlink place a >>= fun _ => paths.forM (assertNoSymlink place)) _ _ m
    rw [wp_bind]
    unfold assertNoSymlink
    rw [wp_bind]
    refine wp_lstat h (fun hfree => ?_) fun hblocked =>
      ⟨rfl, a, List.mem_cons_self, fun hplain => by simp [hplain.1] at hblocked⟩
    refine wp_ensure (fun hne => wp_mono ih ?_ ?_) fun heq =>
      ⟨rfl, a, List.mem_cons_self, fun hplain => by simp [hplain.2] at heq⟩
    · rintro _ m' ⟨rfl, hall⟩
      exact ⟨rfl, List.forall_mem_cons.2 ⟨⟨hfree, by simpa using hne⟩, hall⟩⟩
    · rintro _ m' ⟨rfl, b, hb, hplain⟩
      exact ⟨rfl, b, List.mem_cons_of_mem _ hb, hplain⟩

theorem mem_prefixes {a p : Path} : a ∈ p.inits.drop 1 ↔ a ≠ [] ∧ a <+: p := by
  cases p with
  | nil =>
    simp only [List.inits, List.drop_succ_cons, List.drop_nil, List.not_mem_nil, List.prefix_nil,
      false_iff, not_and]
    exact fun h => h
  | cons c p =>
    rw [List.inits_cons, List.drop_succ_cons, List.drop_zero, List.mem_map]
    constructor
    · rintro ⟨b, hb, rfl⟩
      exact ⟨by simp, List.cons_prefix_cons.2 ⟨rfl, (List.mem_inits _ _).1 hb⟩⟩
    · rintro ⟨hne, hpre⟩
      cases a with
      | nil => exact absurd rfl hne
      | cons d a =>
        obtain ⟨rfl, htail⟩ := List.cons_prefix_cons.1 hpre
        exact ⟨a, (List.mem_inits _ _).2 htail, rfl⟩

theorem wp_assertNoSymlinkAncestors {p : Path} {Q : Unit → Machine → Prop}
    (h : m.disk.tree place = some t)
    (hQ : (∀ a, a ≠ [] → a <+: p → Plain t a) → Q () m)
    (hE : ∀ e, (∃ a, a ≠ [] ∧ a <+: p ∧ ¬Plain t a) → E e m) :
    wp (assertNoSymlinkAncestors place p) Q E m := by
  refine wp_mono (wp_noSymlinks h (p.inits.drop 1)) ?_ ?_
  · rintro _ m' ⟨rfl, hall⟩
    exact hQ fun a hne hpre => hall a (mem_prefixes.2 ⟨hne, hpre⟩)
  · rintro e m' ⟨rfl, a, ha, hplain⟩
    obtain ⟨hne, hpre⟩ := mem_prefixes.1 ha
    exact hE e ⟨a, hne, hpre, hplain⟩

theorem wp_writeFileDurably {p : Path} {content : Content} {mode : ℕ} {Q : Unit → Machine → Prop}
    (h : m.disk.tree place = some t)
    (hQ : (∀ a, Above a p → t a = some .dir) → t p ≠ some .dir → Q ()
      ((m.after id).after fun d => d.setTree (t.set p (some (.file content mode))) place))
    (hE : ¬(∀ a, Above a p → t a = some .dir) → E (.failed "ENOENT") m)
    (hE' : t p = some .dir → E (.failed "EISDIR") (m.after id)) :
    wp (writeFileDurably place p content mode) Q E m := by
  unfold writeFileDurably
  rw [wp_bind]
  refine wp_tree h ?_
  rw [wp_bind]
  have hdirs : (p.dropLast.inits.all fun a => a = [] || t a = some .dir) = true ↔
      ∀ a, Above a p → t a = some .dir := by
    simp only [List.all_eq_true, Bool.or_eq_true, decide_eq_true_eq, above_iff, and_imp]
    exact ⟨fun hall a hne hmem => (hall a hmem).resolve_left hne,
      fun hall a hmem => or_iff_not_imp_left.2 fun hne => hall a hne hmem⟩
  refine wp_ensure (fun hc => ?_) fun hc => hE fun hall => by simp [hdirs.2 hall] at hc
  rw [wp_bind, wp_atomic, wp_bind]
  refine wp_ensure (fun hne => ?_) fun heq => hE' (by simpa using heq)
  exact wp_setEntry h (hQ (hdirs.1 hc) (by simpa using hne))

/-- Every level of a recursive `mkdir` is made below directories, or is there. -/
theorem wp_mkdirBelow {I : Machine → Prop} {p : Path}
    (hstep : ∀ m t a, I m → m.disk.tree place = some t → a ≠ [] → a <+: p → t a = none →
      (∀ b, Above b a → t b = some .dir) →
      I (m.after fun d => d.setTree (t.set a (some .dir)) place))
    (rest above : Path) {m : Machine} {t : Tree} (hp : above ++ rest = p) (hI : I m)
    (ht : m.disk.tree place = some t) (hdirs : ∀ a, a ≠ [] → a <+: above → t a = some .dir) :
    wp (mkdirBelow place above rest)
      (fun _ m' => I m' ∧ ∃ t', m'.disk.tree place = some t' ∧
        ∀ a, a ≠ [] → a <+: p → t' a = some .dir)
      (fun _ m' => I m' ∧ ∃ a, a ≠ [] ∧ a <+: p ∧ t a ≠ none ∧ t a ≠ some .dir) m := by
  induction rest generalizing above m t with
  | nil =>
    rw [List.append_nil] at hp
    exact ⟨hI, t, ht, hp ▸ hdirs⟩
  | cons c rest ih =>
    have hne : above ++ [c] ≠ [] := by simp
    have hpre : above ++ [c] <+: p := ⟨rest, by rw [← hp, List.append_assoc]; rfl⟩
    have hbelow : ∀ a, a ≠ [] → a <+: above ++ [c] → a = above ++ [c] ∨ t a = some .dir := by
      intro a ha hac
      rcases List.prefix_concat_iff.1 hac with heq | hac
      · exact .inl heq
      · exact .inr (hdirs a ha hac)
    have habove : ∀ b, Above b (above ++ [c]) → t b = some .dir := fun b hb =>
      (hbelow b hb.1 hb.2.1).resolve_left hb.2.2
    show wp (mkdir place (above ++ [c]) >>= fun _ => mkdirBelow place (above ++ [c]) rest) _ _ m
    rw [wp_bind]
    unfold mkdir
    rw [wp_bind]
    refine wp_lstat ht (fun _ => ?_) fun hblocked => ?_
    · have hp' : (above ++ [c]) ++ rest = p := by rw [← hp, List.append_assoc]; rfl
      split
      · rename_i hnone
        refine wp_setEntry ht (wp_mono (ih (above ++ [c]) hp' (hstep m t _ hI ht hne hpre hnone
          habove) (tree_setTree ht _) fun a ha hac => ?_) (fun _ _ h => h) ?_)
        · rcases hbelow a ha hac with rfl | hdir
          · exact set_self ..
          · by_cases hac' : a = above ++ [c]
            · rw [hac']
              exact set_self ..
            · rw [set_of_ne hac']
              exact hdir
        · rintro _ m' ⟨hI', a, ha, hap, hsome, hdir⟩
          have hac : a ≠ above ++ [c] := by
            rintro rfl
            exact hdir (set_self ..)
          rw [set_of_ne hac] at hsome hdir
          exact ⟨hI', a, ha, hap, hsome, hdir⟩
      · rename_i hdir
        refine ih (above ++ [c]) hp' hI ht fun a ha hac => ?_
        rcases hbelow a ha hac with rfl | hdir'
        · exact hdir
        · exact hdir'
      · rename_i n hndir hnode
        exact ⟨hI, above ++ [c], hne, hpre, by simp [hnode], fun h => hndir (by
          rw [hnode] at h
          exact Option.some.inj h)⟩
    · have hfree := blocked_eq_false.2 fun b hb => .inr (habove b hb)
      simp [hfree] at hblocked

theorem wp_mkdirPrivate {I : Machine → Prop} {p : Path}
    (hstep : ∀ m t a, I m → m.disk.tree place = some t → a ≠ [] → a <+: p → t a = none →
      (∀ b, Above b a → t b = some .dir) →
      I (m.after fun d => d.setTree (t.set a (some .dir)) place))
    (hI : I m) (ht : m.disk.tree place = some t) :
    wp (mkdirPrivate place p)
      (fun _ m' => I m' ∧ ∃ t', m'.disk.tree place = some t' ∧
        ∀ a, a ≠ [] → a <+: p → t' a = some .dir)
      (fun _ m' => I m' ∧ ∃ a, a ≠ [] ∧ a <+: p ∧ t a ≠ none ∧ t a ≠ some .dir) m :=
  wp_mkdirBelow hstep p [] rfl hI ht fun _ ha hpre => absurd (List.prefix_nil.1 hpre) ha

end Places

section Calm

/-- What makes `open` accept a journal. -/
structure Readable (j : TransactionJournal) : Prop where
  id : j.id ≠ ""
  owner : isOwnerIdentity j.owner = true
  snapshots : ∀ p s, j.snapshots.get p = some s → isSnapshot s = true ∧ isRootRelativePath p = true
  staged : ∀ p s, j.staged.get p = some s → isSha256 s.sha256 = true ∧ isRootRelativePath p = true
  recovery : j.recovery.all isRecoveryMetadata = true

theorem Readable.parses {j : TransactionJournal} (h : Readable j) : parseJournal j = true := by
  simp only [parseJournal, Bool.and_eq_true, decide_eq_true_eq, List.all_eq_true,
    OrderedMap.values, List.mem_map]
  refine ⟨⟨⟨⟨h.id, h.owner⟩, ?_⟩, ?_⟩, h.recovery⟩
  · rintro s ⟨⟨p, s'⟩, hmem, rfl⟩
    exact (h.snapshots p s' (OrderedMap.get_eq_some_iff.2 hmem)).1
  · rintro s ⟨⟨p, s'⟩, hmem, rfl⟩
    exact (h.staged p s' (OrderedMap.get_eq_some_iff.2 hmem)).1

theorem Readable.paths {j : TransactionJournal} (h : Readable j) :
    (j.snapshots.keys ++ j.staged.keys).all isRootRelativePath = true := by
  simp only [List.all_eq_true, List.mem_append, OrderedMap.keys, List.mem_map]
  rintro p (⟨⟨p', s⟩, hmem, rfl⟩ | ⟨⟨p', s⟩, hmem, rfl⟩)
  · exact (h.snapshots p' s (OrderedMap.get_eq_some_iff.2 hmem)).2
  · exact (h.staged p' s (OrderedMap.get_eq_some_iff.2 hmem)).2

variable (hash : Content → String)

/-- A disk with a transaction from which the configuration directory can be put back. -/
def SafeAt (base : Tree) (j : TransactionJournal) (d : Disk) : Prop :=
  ∃ before staged, d.transaction = some ⟨some j, some before, some staged, base⟩
    ∧ Kept hash base d.root before j ∧ Readable j

/-- A phase that may be recorded after another. -/
def Follows (a b : TransactionPhase) : Prop := a = b ∨ allowsTransition a b = true

/-- A method at work on a transaction: what it holds is on the disk, and every disk it has passed
is safe and of no earlier phase. -/
structure Calm (base : Tree) (a : TransactionPhase) (j : TransactionJournal) (m : Machine) :
    Prop where
  disk : SafeAt hash base j m.disk
  passed : ∀ d ∈ m.passed, ∃ j', SafeAt hash base j' d ∧ Follows a j'.phase
  held : m.held = some j
  follows : Follows a j.phase

/-- A method whose part of the work is done or has failed. -/
def Settled (base : Tree) (a : TransactionPhase) (m : Machine) : Prop :=
  ∃ j, Calm hash base a j m

variable {hash} {base : Tree} {a : TransactionPhase} {j : TransactionJournal} {m : Machine}
  {E : Fault → Machine → Prop}

namespace Calm

theorem settled (h : Calm hash base a j m) : Settled hash base a m := ⟨j, h⟩

theorem after (h : Calm hash base a j m) {f : Disk → Disk} (hf : SafeAt hash base j (f m.disk)) :
    Calm hash base a j (m.after f) where
  disk := hf
  passed d hd := by
    rcases List.mem_append.1 hd with hd | hd
    · exact h.passed d hd
    · rw [List.mem_singleton.1 hd]
      exact ⟨j, h.disk, h.follows⟩
  held := h.held
  follows := h.follows

theorem tree (h : Calm hash base a j m) (place : Place) : ∃ t, m.disk.tree place = some t := by
  obtain ⟨before, staged, ht, -, -⟩ := h.disk
  cases place with
  | root => exact ⟨_, rfl⟩
  | before => exact ⟨before, by simp [Disk.tree, ht]⟩
  | staged => exact ⟨staged, by simp [Disk.tree, ht]⟩

/-- A change of the tree of staged files. -/
theorem setStaged (h : Calm hash base a j m) (t : Tree) :
    Calm hash base a j (m.after fun d => d.setTree t .staged) := by
  obtain ⟨before, staged, ht, hkept, hread⟩ := h.disk
  exact h.after ⟨before, t, by simp [Disk.setTree, ht], hkept, hread⟩

/-- A change of the tree of copies. -/
theorem setBefore (h : Calm hash base a j m) {t : Tree} {p : Path} {n : Node}
    (ht : m.disk.tree .before = some t) (hwf : WellFormed t → WellFormed (t.set p (some n)))
    (hp : j.snapshots.get p = none ∨ t p = none) :
    Calm hash base a j (m.after fun d => d.setTree (t.set p (some n)) .before) := by
  obtain ⟨before, staged, htrans, hkept, hread⟩ := h.disk
  obtain rfl : before = t := by simpa [Disk.tree, htrans] using ht
  exact h.after ⟨_, staged, by simp [Disk.setTree, htrans],
    hkept.setBefore (hwf hkept.before_wf) hp, hread⟩

/-- A change of the configuration directory. -/
theorem setRoot (h : Calm hash base a j m) {t : Tree}
    (ht : ∀ before, Kept hash base m.disk.root before j → Kept hash base t before j) :
    Calm hash base a j (m.after fun d => d.setTree t .root) := by
  obtain ⟨before, staged, htrans, hkept, hread⟩ := h.disk
  exact h.after ⟨before, staged, htrans, ht before hkept, hread⟩

theorem kept (h : Calm hash base a j m) : ∃ before, m.disk.tree .before = some before
    ∧ Kept hash base m.disk.root before j := by
  obtain ⟨before, staged, ht, hkept, -⟩ := h.disk
  exact ⟨before, by simp [Disk.tree, ht], hkept⟩

theorem readable (h : Calm hash base a j m) : Readable j := by
  obtain ⟨_, _, _, _, hread⟩ := h.disk
  exact hread

end Calm

/-- A journal with other snapshots reaches the disk, and with it the store. -/
theorem wp_record {j' : TransactionJournal} {Q : Unit → Machine → Prop}
    (h : Calm hash base a j m)
    (hj' : ∀ before, m.disk.tree .before = some before → Kept hash base m.disk.root before j →
      Kept hash base m.disk.root before j')
    (hread' : Readable j') (hfollows : Follows a j'.phase)
    (hQ : ∀ m', Calm hash base a j' m' → m'.disk = m.disk.setJournal j' → Q () m') :
    wp (record j') Q E m := by
  unfold record persist
  rw [wp_bind, wp_hold, wp_bind]
  refine wp_held rfl ?_
  rw [wp_bind, wp_get]
  obtain ⟨before, staged, ht, hkept, hread⟩ := h.disk
  rw [wp_bind]
  refine wp_ensure (fun _ => ?_) fun hc => by simp [ht] at hc
  rw [wp_bind, wp_atomic, wp_atomic]
  refine hQ _ ⟨⟨before, staged, by simp [Machine.after, Disk.setJournal, ht],
    hj' before (by simp [Disk.tree, ht]) hkept, hread'⟩, fun d hd => ?_, rfl, hfollows⟩ rfl
  have hmem : d ∈ m.passed ∨ d = m.disk := by
    simpa [Machine.after, or_assoc] using hd
  rcases hmem with hmem | rfl
  · exact h.passed d hmem
  · exact ⟨j, ⟨before, staged, ht, hkept, hread⟩, h.follows⟩

end Calm

section Snapshots

variable {hash : Content → String} (hhash : ∀ content, isSha256 (hash content) = true)
  {base : Tree} {a : TransactionPhase} {j : TransactionJournal} {m : Machine}

/-- The path is neither above nor below a journaled one, and no key of every object. -/
structure Fits (j : TransactionJournal) (p : Path) : Prop where
  own : isInherited p = false
  apart : ∀ q, j.snapshots.get q ≠ none → ¬Above p q ∧ ¬Above q p

theorem hasSnapshot_iff {p : Path} (h : isInherited p = false) :
    j.hasSnapshot p = true ↔ j.snapshots.get p ≠ none := by
  rw [TransactionJournal.hasSnapshot, h, Bool.or_false, OrderedMap.has_eq_true_iff,
    Option.ne_none_iff_exists']

/-- A copy that is made of a file of the configuration directory. -/
theorem wp_keepBefore {p : Path} {content : Content} {mode : ℕ} {r : Tree}
    (hp : j.snapshots.get p = none) (h : Calm hash base a j m) (hr : m.disk.root = r) :
    wp (keepBefore p content mode)
      (fun _ m' => Calm hash base a j m' ∧ m'.disk.root = r
        ∧ ∃ t, m'.disk.tree .before = some t ∧ t p = some (.file content mode))
      (fun _ m' => Settled hash base a m') m := by
  obtain ⟨t, ht⟩ := h.tree .before
  unfold keepBefore
  rw [wp_bind]
  refine wp_assertNoSymlinkAncestors ht (fun _ => ?_) fun _ _ => h.settled
  rw [wp_bind]
  refine wp_mono (wp_mkdirPrivate (I := fun m' => Calm hash base a j m' ∧ m'.disk.root = r)
    ?_ ⟨h, hr⟩ ht) ?_ fun _ _ hm' => hm'.1.1.settled
  · rintro m' t' b ⟨h', hr'⟩ ht' - - hnone habove
    exact ⟨h'.setBefore ht' (fun hwf => hwf.set habove (by simp [hnone])) (.inr hnone), hr'⟩
  · rintro _ m' ⟨⟨h', hr'⟩, t', ht', -⟩
    refine wp_writeFileDurably ht' (fun habove hdir => ⟨?_, hr', t'.set p _, ?_, set_self ..⟩)
      (fun _ => h'.settled) fun _ => (h'.after h'.disk).settled
    · exact (h'.after (f := id) h'.disk).setBefore ht' (fun hwf => hwf.set habove hdir) (.inl hp)
    · exact tree_setTree ht' _

include hhash

theorem wp_takeSnapshot {p : Path} {node : Option Node} (hp : j.snapshots.get p = none)
    (h : Calm hash base a j m) (hnode : m.disk.root p = node) :
    wp (takeSnapshot hash p node)
      (fun s m' => Calm hash base a j m' ∧ m'.disk.root = m.disk.root
        ∧ isSnapshot s = true
        ∧ ∃ t, m'.disk.tree .before = some t ∧ Saved hash base m.disk.root t p s)
      (fun _ m' => Settled hash base a m') m := by
  obtain ⟨before, hbefore, hkept⟩ := h.kept
  have hbase : ∀ n, n ≠ .dir → node = some n → base p = some n := by
    intro n hn hsome
    rcases hkept.others p hp with heq | ⟨-, hdir⟩
    · rw [← heq, hnode, hsome]
    · rw [hnode, hsome] at hdir
      exact absurd (Option.some.inj hdir) hn
  unfold takeSnapshot
  split
  · refine ⟨h, rfl, rfl, before, hbefore, ?_, fun x hx => ?_⟩
    · rcases hkept.others p hp with heq | hnone
      · rw [← heq, hnode]
      · exact hnone.1
    · rw [hnode] at hx
      exact absurd hx (by simp)
  · rename_i n
    rw [wp_bind]
    refine wp_regularFile (fun content mode hfile => ?_) fun _ _ => h.settled
    rw [wp_bind]
    refine wp_mono (wp_keepBefore hp h rfl) ?_ fun _ _ hm' => hm'
    rintro _ m' ⟨h', hr', t, ht, htp⟩
    refine ⟨h', hr', hhash content, t, ht, ⟨content, hbase _ (by simp) hfile, rfl, mode, htp⟩, fun x hx => ?_⟩
    rw [hnode, hfile] at hx
    exact ⟨content, mode, (Option.some.inj hx).symm⟩

/-- After a snapshot the path is journaled, and the disk is as safe as before. -/
theorem wp_snapshot {p : Path} (hfits : Fits j p) (h : Calm hash base a j m) :
    wp (snapshot hash p)
      (fun _ m' => ∃ j', Calm hash base a j' m' ∧ j'.snapshots.get p ≠ none
        ∧ (∀ q, j'.snapshots.get q ≠ none → j.snapshots.get q ≠ none ∨ q = p)
        ∧ j'.staged = j.staged ∧ j'.phase = j.phase)
      (fun _ m' => Settled hash base a m') m := by
  have hroot : m.disk.tree .root = some m.disk.root := rfl
  unfold snapshot
  rw [wp_bind]
  refine wp_ensure (fun hvalid => ?_) fun _ => h.settled
  rw [wp_bind]
  refine wp_held h.held ?_
  split
  · rename_i hhas
    exact ⟨j, h, (hasSnapshot_iff hfits.own).1 hhas, fun q hq => .inl hq, rfl, rfl⟩
  · rename_i hhas
    have hp : j.snapshots.get p = none := by
      by_contra hsome
      exact hhas ((hasSnapshot_iff hfits.own).2 hsome)
    rw [wp_bind]
    refine wp_assertNoSymlinkAncestors hroot (fun _ => ?_) fun _ _ => h.settled
    rw [wp_bind]
    refine wp_lstat hroot (fun hfree => ?_) fun _ => h.settled
    rw [wp_bind]
    refine wp_mono (wp_takeSnapshot hhash hp h rfl) ?_ fun _ _ hm' => hm'
    rintro s m' ⟨h', hr', hs, t, ht, hsaved⟩
    refine wp_record h' (fun before hbefore hk => ?_) ?_ h'.follows ?_
    · obtain rfl : before = t := Option.some.inj (hbefore.symm.trans ht)
      exact hk.record (hr' ▸ hsaved) (hr' ▸ blocked_eq_false.1 hfree) hfits.apart
    · refine { h'.readable with snapshots := fun q s' hs' => ?_ }
      simp only [OrderedMap.get_set] at hs'
      split_ifs at hs' with hqp
      · rw [hqp, ← Option.some.inj hs']
        exact ⟨hs, hvalid⟩
      · exact h'.readable.snapshots q s' hs'
    · intro m'' h'' _
      refine ⟨_, h'', by simp, fun q hq => ?_, rfl, rfl⟩
      simp only [OrderedMap.get_set] at hq
      split_ifs at hq with hqp
      · exact .inr hqp
      · exact .inl hq

theorem wp_snapshotTree {files : List Path}
    (hfits : ∀ p ∈ files, isInherited p = false ∧
      ∀ q, j.snapshots.get q ≠ none ∨ q ∈ files → ¬Above p q ∧ ¬Above q p)
    (h : Calm hash base a j m) :
    wp (snapshotTree hash files) (fun _ => Settled hash base a) (fun _ => Settled hash base a) m := by
  unfold snapshotTree
  refine wp_mono (wp_forM (I := fun rest m' => (∀ p ∈ rest, p ∈ files) ∧ ∃ j', Calm hash base a j' m'
    ∧ ∀ q, j'.snapshots.get q ≠ none → j.snapshots.get q ≠ none ∨ q ∈ files) ?_ files m
    ⟨fun p hp => hp, j, h, fun q hq => .inl hq⟩) ?_ fun _ _ hm' => hm'
  · rintro p rest m' ⟨hrest, j', h', hj'⟩
    rw [List.forall_mem_cons] at hrest
    have hfit : Fits j' p := ⟨(hfits p hrest.1).1, fun q hq => (hfits p hrest.1).2 q (hj' q hq)⟩
    refine wp_mono (wp_snapshot hhash hfit h') ?_ fun _ _ hm' => hm'
    rintro _ m'' ⟨j'', h'', -, hj'', -, -⟩
    refine ⟨hrest.2, j'', h'', fun q hq => ?_⟩
    rcases hj'' q hq with hq | rfl
    · exact hj' q hq
    · exact .inr hrest.1
  · rintro _ m' ⟨-, j', h', -⟩
    exact h'.settled

end Snapshots

section Methods

variable {hash : Content → String} (hhash : ∀ content, isSha256 (hash content) = true)
  {base : Tree} {a : TransactionPhase} {j : TransactionJournal} {m : Machine}

include hhash

theorem wp_stage {p : Path} {content : Content} {mode : ℕ} (hfits : Fits j p)
    (h : Calm hash base a j m) :
    wp (stage hash p content mode) (fun _ => Settled hash base a) (fun _ => Settled hash base a)
      m := by
  unfold stage
  rw [wp_bind]
  refine wp_ensure (fun hvalid => ?_) fun _ => h.settled
  rw [wp_bind]
  refine wp_mono (wp_snapshot hhash hfits h) ?_ fun _ _ hm' => hm'
  rintro _ m' ⟨j', h', -, -, -, -⟩
  obtain ⟨t, ht⟩ := h'.tree .staged
  rw [wp_bind]
  refine wp_ensure (fun _ => ?_) fun _ => h'.settled
  rw [wp_bind]
  refine wp_assertNoSymlinkAncestors ht (fun _ => ?_) fun _ _ => h'.settled
  rw [wp_bind]
  refine wp_mono (wp_mkdirPrivate (I := Calm hash base a j')
    (fun m'' t' b h'' _ _ _ _ _ => h''.setStaged _) h' ht) ?_ fun _ _ hm' => hm'.1.settled
  rintro _ m'' ⟨h'', t', ht', -⟩
  rw [wp_bind]
  refine wp_writeFileDurably ht' (fun _ _ => ?_) (fun _ => h''.settled)
    fun _ => (h''.after h''.disk).settled
  have h3 := (h''.after (f := id) h''.disk).setStaged (t'.set p (some (.file content mode)))
  rw [wp_bind]
  refine wp_held h3.held ?_
  refine wp_record h3 (fun before _ hk => hk.congr rfl) ?_ h3.follows fun _ h4 _ => h4.settled
  refine { h3.readable with staged := fun q s hs => ?_ }
  simp only [OrderedMap.get_set] at hs
  split_ifs at hs with hqp
  · rw [hqp, ← Option.some.inj hs]
    exact ⟨hhash content, hvalid⟩
  · exact h3.readable.staged q s hs

omit hhash in
theorem wp_readStaged {p : Path} {Q : Content × ℕ → Machine → Prop} (h : Calm hash base a j m)
    (hQ : ∀ file, Q file m) : wp (readStaged hash p) Q (fun _ => Settled hash base a) m := by
  obtain ⟨t, ht⟩ := h.tree .staged
  unfold readStaged
  rw [wp_bind]
  refine wp_held h.held ?_
  split
  · exact h.settled
  · rw [wp_bind]
    refine wp_assertNoSymlinkAncestors ht (fun _ => ?_) fun _ _ => h.settled
    rw [wp_bind]
    refine wp_lstat ht (fun _ => ?_) fun _ => h.settled
    rw [wp_bind]
    refine wp_regularFile (fun content mode _ => ?_) fun _ _ => h.settled
    rw [wp_bind]
    refine wp_ensure (fun _ => ?_) fun _ => h.settled
    rw [wp_bind]
    exact wp_ensure (fun _ => hQ _) fun _ => h.settled

omit hhash in
/-- The directories on the way to a journaled path are made, if they are not all there. -/
theorem wp_mkdirRoot {p : Path} (hp : j.snapshots.get p ≠ none) (h : Calm hash base a j m) :
    wp (mkdirPrivate .root p.dropLast)
      (fun _ m' => Calm hash base a j m'
        ∧ (∀ q, j.snapshots.get q ≠ none → m'.disk.root q = m.disk.root q)
        ∧ ((∀ b, Above b p → m.disk.root b = some .dir) → m'.disk.root = m.disk.root)
        ∧ ∀ b, Above b p → m'.disk.root b = some .dir)
      (fun _ m' => Calm hash base a j m' ∧ ∃ b, Above b p ∧ m.disk.root b ≠ none
        ∧ m.disk.root b ≠ some .dir) m := by
  have habove : ∀ b, b ≠ [] → b <+: p.dropLast → Above b p := fun b hne hpre =>
    above_iff.2 ⟨hne, (List.mem_inits _ _).2 hpre⟩
  have hroot : m.disk.tree .root = some m.disk.root := rfl
  let I (m' : Machine) : Prop := Calm hash base a j m'
    ∧ (∀ q, j.snapshots.get q ≠ none → m'.disk.root q = m.disk.root q)
    ∧ ((∀ b, Above b p → m.disk.root b = some .dir) → m'.disk.root = m.disk.root)
  have hstep : ∀ m' t b, I m' → m'.disk.tree .root = some t → b ≠ [] → b <+: p.dropLast →
      t b = none → (∀ c, Above c b → t c = some .dir) →
      I (m'.after fun d => d.setTree (t.set b (some .dir)) .root) := by
    rintro m' t b ⟨h', hsame, hall⟩ ht hne hpre hnone hdirs
    obtain rfl : m'.disk.root = t := Option.some.inj ht
    have hb := habove b hne hpre
    refine ⟨h'.setRoot fun before hk => hk.mkdirRoot hp hb hnone hdirs, fun q hq => ?_,
      fun hthere => ?_⟩
    · have hqb : q ≠ b := by
        rintro rfl
        obtain ⟨before, -, hk⟩ := h'.kept
        exact hk.apart q p hq hp hb
      exact (set_of_ne hqb).trans (hsame q hq)
    · rw [hall hthere, hthere b hb] at hnone
      exact absurd hnone (by simp)
  refine wp_mono (wp_mkdirPrivate (I := I) hstep ⟨h, fun _ _ => rfl, fun _ => rfl⟩ hroot) ?_ ?_
  · rintro _ m' ⟨⟨h', hsame, hall⟩, t, ht, hdirs⟩
    obtain rfl : m'.disk.root = t := Option.some.inj ht
    refine ⟨h', hsame, hall, fun b hb => ?_⟩
    obtain ⟨hne, hmem⟩ := above_iff.1 hb
    exact hdirs b hne ((List.mem_inits _ _).1 hmem)
  · rintro _ m' ⟨⟨h', -, -⟩, b, hne, hpre, hsome, hdir⟩
    exact ⟨h', b, habove b hne hpre, hsome, hdir⟩

omit hhash in
/-- A file that is put in the place of a journaled path. -/
theorem Calm.write {p : Path} (hp : j.snapshots.get p ≠ none) (h : Calm hash base a j m)
    (habove : ∀ b, Above b p → m.disk.root b = some .dir) (content : Content) (mode : ℕ) :
    Calm hash base a j ((m.after id).after fun d =>
      d.setTree (m.disk.root.set p (some (.file content mode))) .root) := by
  refine (h.after (f := id) h.disk).setRoot fun before hk => ?_
  exact hk.setRoot hp (fun x hx => ⟨content, mode, (Option.some.inj hx).symm⟩)
    (hk.root_wf.set habove (hk.ne_dir hp))

theorem wp_applyStaged {p : Path} (hfits : Fits j p) (h : Calm hash base a j m) :
    wp (applyStaged hash p) (fun _ => Settled hash base a) (fun _ => Settled hash base a) m := by
  unfold applyStaged
  rw [wp_bind]
  refine wp_ensure (fun _ => ?_) fun _ => h.settled
  rw [wp_bind]
  refine wp_mono (wp_snapshot hhash hfits h) ?_ fun _ _ hm' => hm'
  rintro _ m' ⟨j', h', hp, -, -, -⟩
  rw [wp_bind]
  refine wp_readStaged h' fun file => ?_
  rw [wp_bind]
  refine wp_mono (wp_mkdirRoot hp h') ?_ fun _ _ hm' => hm'.1.settled
  rintro _ m'' ⟨h'', -, -, -⟩
  have hroot : m''.disk.tree .root = some m''.disk.root := rfl
  exact wp_writeFileDurably hroot (fun habove _ => (h''.write hp habove file.1 file.2).settled)
    (fun _ => h''.settled) fun _ => (h''.after h''.disk).settled

omit hhash in
/-- What is at a journaled path is removed, if there is something. -/
theorem wp_unlinkExisting {p : Path} (hp : j.snapshots.get p ≠ none) (h : Calm hash base a j m) :
    wp (unlinkExisting p)
      (fun _ m' => Calm hash base a j m' ∧ m'.disk.root p = none
        ∧ (∀ q, q ≠ p → m'.disk.root q = m.disk.root q)
        ∧ (m.disk.root p = none → m'.disk.root = m.disk.root))
      (fun _ _ => False) m := by
  obtain ⟨before, -, hk⟩ := h.kept
  have hroot : m.disk.tree .root = some m.disk.root := rfl
  have hfree : m.disk.root.blocked p = false := blocked_eq_false.2 fun b hb => hk.reach p b hp hb
  unfold unlinkExisting
  rw [wp_bind]
  refine wp_lstat hroot (fun _ => ?_) fun hblocked => by simp [hfree] at hblocked
  split
  · rename_i hnone
    exact ⟨h, hnone, fun _ _ => rfl, fun _ => rfl⟩
  · rename_i hsome
    rw [wp_bind]
    obtain ⟨x, hx⟩ := Option.ne_none_iff_exists'.1 hsome
    obtain ⟨content, mode, rfl⟩ := hk.isFileOrNone hp x hx
    refine wp_regularFile (fun _ _ _ => ?_) fun _ hno => absurd hx (hno content mode)
    refine wp_setEntry hroot ⟨h.setRoot fun before' hk' => ?_, set_self .., fun q hq => ?_,
      fun hnone => absurd hnone hsome⟩
    · exact hk'.setRoot hp (fun y hy => absurd hy (by simp)) (hk'.root_wf.set_none (hk'.ne_dir hp))
    · exact set_of_ne hq

theorem wp_remove {p : Path} (hfits : Fits j p) (h : Calm hash base a j m) :
    wp (remove hash p) (fun _ => Settled hash base a) (fun _ => Settled hash base a) m := by
  unfold remove
  rw [wp_bind]
  refine wp_ensure (fun _ => ?_) fun _ => h.settled
  rw [wp_bind]
  refine wp_mono (wp_snapshot hhash hfits h) ?_ fun _ _ hm' => hm'
  rintro _ m' ⟨j', h', hp, -, -, -⟩
  exact wp_mono (wp_unlinkExisting hp h') (fun _ _ hm' => hm'.1.settled) fun _ _ hm' => hm'.elim

omit hhash in
theorem follows_trans {b c : TransactionPhase} (h : Follows a b)
    (h' : allowsTransition b c = true) : Follows a c := by
  rcases h with rfl | h
  · exact .inr h'
  · refine .inr ?_
    simp only [allowsTransition, Bool.and_eq_true, Bool.or_eq_true, decide_eq_true_eq] at h h' ⊢
    refine ⟨h.1, h'.2.imp id fun hle => ?_⟩
    rcases h.2 with rfl | hle'
    · simp at h'
    · omega

omit hhash in
theorem Readable.advanced (h : Readable j) {phase : TransactionPhase}
    {recovery : Option TransactionRecoveryMetadata} {now : ℕ}
    (hrecovery : recovery.all isRecoveryMetadata = true) :
    Readable (advanced j phase recovery now) := by
  obtain ⟨hid, howner, hsnapshots, hstaged, hold⟩ := h
  cases recovery with
  | none => exact ⟨hid, howner, hsnapshots, hstaged, hold⟩
  | some update =>
    refine ⟨hid, howner, hsnapshots, hstaged, ?_⟩
    simp only [Deployment.advanced, Option.all_some] at hrecovery ⊢
    unfold mergeRecovery
    split
    · exact hrecovery
    · rename_i r hr
      rw [hr, Option.all_some] at hold
      simp only [isRecoveryMetadata] at hold hrecovery ⊢
      cases hu : update.priorBackupIdentity with
      | none => simpa [hu] using hold
      | some identity => simpa [hu] using hrecovery

omit hhash in
theorem wp_advance {phase : TransactionPhase} {recovery : Option TransactionRecoveryMetadata}
    {now : ℕ} (hrecovery : recovery.all isRecoveryMetadata = true) (h : Calm hash base a j m) :
    wp (advance phase recovery now) (fun _ => Settled hash base a) (fun _ => Settled hash base a)
      m := by
  have hsame : (advanced j phase recovery now).snapshots = j.snapshots
      ∧ (advanced j phase recovery now).phase = phase := by
    cases recovery <;> exact ⟨rfl, rfl⟩
  unfold advance
  rw [wp_bind]
  refine wp_held h.held ?_
  rw [wp_bind]
  refine wp_ensure (fun hallowed => ?_) fun _ => h.settled
  exact wp_record h (fun before _ hk => hk.congr hsame.1) (h.readable.advanced hrecovery)
    (by rw [hsame.2]; exact follows_trans h.follows hallowed) fun _ h' _ => h'.settled

end Methods

section Rollback

variable {hash : Content → String} {base : Tree} {a : TransactionPhase} {j : TransactionJournal}
  {m : Machine}

/-- A pass of a rollback puts its path back and leaves the other journaled ones. -/
theorem wp_restorePath {p : Path} (hp : j.snapshots.get p ≠ none) (h : Calm hash base a j m) :
    wp (restorePath hash j p)
      (fun _ m' => Calm hash base a j m' ∧ m'.disk.root p = base p
        ∧ (∀ q, j.snapshots.get q ≠ none → q ≠ p → m'.disk.root q = m.disk.root q)
        ∧ (m.disk.root p = base p → m'.disk.root = m.disk.root))
      (fun _ _ => False) m := by
  obtain ⟨before, hbefore, hk⟩ := h.kept
  obtain ⟨s, hs⟩ := Option.ne_none_iff_exists'.1 hp
  have hsaved := hk.saved p s hs
  have hroot : m.disk.tree .root = some m.disk.root := rfl
  have hplain : ∀ b, b ≠ [] → b <+: p → Plain m.disk.root b := by
    intro b hne hpre
    by_cases hbp : b = p
    · subst hbp
      refine ⟨blocked_eq_false.2 fun c hc => hk.reach b c hp hc, fun hsym => ?_⟩
      obtain ⟨_, _, hfile⟩ := hk.isFileOrNone hp _ hsym
      exact absurd hfile (by simp)
    · have hb : Above b p := ⟨hne, hpre, hbp⟩
      refine ⟨blocked_eq_false.2 fun c hc => hk.reach p c hp (hc.trans hb), fun hsym => ?_⟩
      rcases hk.reach p b hp hb with hnone | hdir
      · simp [hnone] at hsym
      · simp [hdir] at hsym
  unfold restorePath
  rw [hs]
  unfold restoreSnapshot
  simp only
  rw [wp_bind]
  refine wp_assertNoSymlinkAncestors hroot (fun _ => ?_) fun _ hbad => ?_
  · cases s with
    | absent =>
      refine wp_mono (wp_unlinkExisting hp h) ?_ fun _ _ hm' => hm'
      rintro _ m' ⟨h', hnone, hsame, hnoop⟩
      exact ⟨h', hnone.trans hsaved.1.symm, fun q _ hq => hsame q hq,
        fun hbase => hnoop (hbase.trans hsaved.1)⟩
    | present sha256 mode size =>
      obtain ⟨⟨content, hbase, hsha, mode', hcopy⟩, -⟩ := hsaved
      have hfree := hk.before_wf.not_blocked (p := p) (by simp [hcopy])
      simp only
      rw [wp_bind]
      refine wp_assertNoSymlinkAncestors hbefore (fun _ => ?_) fun _ hbad => ?_
      · rw [wp_bind]
        refine wp_lstat hbefore (fun _ => ?_) fun hblocked => by simp [hfree] at hblocked
        rw [wp_bind]
        refine wp_regularFile (fun content' mode'' hfile => ?_) fun _ hno =>
          absurd hcopy (hno content mode')
        obtain ⟨rfl, rfl⟩ : content = content' ∧ mode' = mode'' := by
          simpa [hcopy] using hfile
        rw [wp_bind]
        refine wp_ensure (fun _ => ?_) fun hne => by simp [hsha] at hne
        rw [wp_bind]
        refine wp_mono (wp_mkdirRoot hp h) ?_ ?_
        · rintro _ m' ⟨h', hsame, hall, hdirs⟩
          have hroot' : m'.disk.tree .root = some m'.disk.root := rfl
          obtain ⟨before', -, hk'⟩ := h'.kept
          refine wp_writeFileDurably hroot' (fun habove _ => ⟨h'.write hp habove content mode,
            (set_self ..).trans hbase.symm, fun q hq hqp => (set_of_ne hqp).trans (hsame q hq),
            fun hrestored => ?_⟩) (fun hno => absurd hdirs hno)
            fun hdir => absurd hdir (hk'.ne_dir hp)
          have hthere : ∀ b, Above b p → m.disk.root b = some .dir := fun b hb =>
            hk.root_wf p b hb (by simp [hrestored, hbase])
          refine Eq.trans ?_ (hall hthere)
          funext q
          by_cases hqp : q = p
          · subst hqp
            exact (set_self ..).trans (hbase.symm.trans (hrestored.symm.trans (hsame q hp).symm))
          · exact set_of_ne hqp
        · rintro _ m' ⟨-, b, hb, hsome, hdir⟩
          exact (hk.reach p b hp hb).elim hsome hdir
      · obtain ⟨b, hne, hpre, hnot⟩ := hbad
        by_cases hbp : b = p
        · subst hbp
          exact hnot ⟨hfree, by simp [hcopy]⟩
        · have hdir := hk.before_wf p b ⟨hne, hpre, hbp⟩ (by simp [hcopy])
          exact hnot ⟨hk.before_wf.not_blocked (by simp [hdir]), by simp [hdir]⟩
  · obtain ⟨b, hne, hpre, hnot⟩ := hbad
    exact hnot (hplain b hne hpre)

/-- A rollback ends with every journaled path as it was, and changes nothing where they are. -/
theorem wp_restoreSnapshots {now : ℕ} (h : Calm hash base a j m)
    (hfollows : Follows a .rollbackComplete) :
    wp (restoreSnapshots hash j now)
      (fun _ m' => Calm hash base a { j with phase := .rollbackComplete, updatedAt := now } m'
        ∧ (∀ q, j.snapshots.get q ≠ none → m'.disk.root q = base q)
        ∧ ((∀ q, j.snapshots.get q ≠ none → m.disk.root q = base q) →
          m'.disk.root = m.disk.root))
      (fun _ _ => False) m := by
  have hkeys : ∀ q, q ∈ sortPaths j.snapshots.keys ↔ j.snapshots.get q ≠ none := by
    intro q
    rw [sortPaths, List.mem_mergeSort, OrderedMap.keys, List.mem_map, Option.ne_none_iff_exists']
    constructor
    · rintro ⟨⟨_, s⟩, hmem, rfl⟩
      exact ⟨s, OrderedMap.get_eq_some_iff.2 hmem⟩
    · rintro ⟨s, hs⟩
      exact ⟨(q, s), OrderedMap.get_eq_some_iff.1 hs, rfl⟩
  unfold restoreSnapshots
  rw [wp_bind]
  let I (rest : List Path) (m' : Machine) : Prop := Calm hash base a j m'
    ∧ (∀ q ∈ rest, j.snapshots.get q ≠ none)
    ∧ (∀ q, j.snapshots.get q ≠ none → q ∉ rest → m'.disk.root q = base q)
    ∧ ((∀ q, j.snapshots.get q ≠ none → m.disk.root q = base q) → m'.disk.root = m.disk.root)
  refine wp_mono (wp_forM (I := I) ?_ (sortPaths j.snapshots.keys) m ⟨h, fun q => (hkeys q).1,
    fun q hq hout => absurd ((hkeys q).2 hq) hout, fun _ => rfl⟩) ?_ fun _ _ hm' => hm'
  · rintro p rest m' ⟨h', hrest, hdone, hnoop⟩
    rw [List.forall_mem_cons] at hrest
    refine wp_mono (wp_restorePath hrest.1 h') ?_ fun _ _ hm' => hm'
    rintro _ m'' ⟨h'', hrestored, hsame, hnoop'⟩
    refine ⟨h'', hrest.2, fun q hq hout => ?_, fun hall => ?_⟩
    · by_cases hqp : q = p
      · rw [hqp]
        exact hrestored
      · rw [hsame q hq hqp]
        exact hdone q hq (by simp [hqp, hout])
    · have heq := hnoop hall
      rw [hnoop' (by rw [heq]; exact hall p hrest.1), heq]
  · rintro _ m' ⟨h', -, hdone, hnoop⟩
    rw [wp_bind]
    refine wp_held h'.held ?_
    refine wp_record h' (fun before _ hk => hk.congr rfl) ?_ hfollows fun m'' h'' hdisk => ?_
    · obtain ⟨hid, howner, hsnapshots, hstaged, hrecovery⟩ := h'.readable
      exact ⟨hid, howner, hsnapshots, hstaged, hrecovery⟩
    · have hroot : m''.disk.root = m'.disk.root := by rw [hdisk]; rfl
      rw [hroot]
      exact ⟨h'', fun q hq => hdone q hq (by simp), hnoop⟩

theorem wp_read {Q : TransactionJournal → Machine → Prop} {E : Fault → Machine → Prop}
    (h : Calm hash base a j m) (hQ : Q j m) : wp read Q E m := by
  obtain ⟨before, staged, ht, -, hread⟩ := h.disk
  have hsame : { m with held := some j } = m := by
    obtain ⟨disk, passed, held⟩ := m
    simp only [Machine.mk.injEq, true_and]
    exact h.held.symm
  unfold read
  rw [wp_bind]
  refine wp_held h.held ?_
  rw [wp_bind, wp_get]
  simp only [ht, Option.bind_some]
  rw [wp_bind]
  refine wp_ensure (fun _ => ?_) fun hc => by simp [hread.parses] at hc
  rw [wp_bind]
  refine wp_ensure (fun _ => ?_) fun hc => by simp at hc
  rw [wp_bind, wp_hold, hsame, wp_bind]
  exact wp_ensure (fun _ => hQ) fun hc => by simp [hread.paths] at hc

/-- The phases from which a rollback is refused. -/
def TransactionPhase.refusesRollback (phase : TransactionPhase) : Prop :=
  phase = .coreStarted ∨ phase = .credentialsDurable ∨ phase = .committed

theorem wp_rollback {now : ℕ} (h : Calm hash base a j m) (hphase : ¬j.phase.refusesRollback)
    (hfollows : Follows a .rollbackComplete) :
    wp (rollback hash now)
      (fun _ m' => Calm hash base a { j with phase := .rollbackComplete, updatedAt := now } m'
        ∧ (∀ q, j.snapshots.get q ≠ none → m'.disk.root q = base q)
        ∧ ((∀ q, j.snapshots.get q ≠ none → m.disk.root q = base q) →
          m'.disk.root = m.disk.root))
      (fun _ _ => False) m := by
  unfold rollback
  rw [wp_bind]
  refine wp_read h ?_
  rw [TransactionPhase.refusesRollback] at hphase
  rw [if_neg hphase]
  exact wp_restoreSnapshots h hfollows

theorem wp_rollback_refused {now : ℕ} (h : Calm hash base a j m)
    (hphase : j.phase.refusesRollback) :
    wp (rollback hash now) (fun _ _ => False)
      (fun e m' => e = .recoveryRequired j.phase ∧ m' = m) m := by
  unfold rollback
  rw [wp_bind]
  refine wp_read h ?_
  rw [TransactionPhase.refusesRollback] at hphase
  rw [if_pos hphase]
  exact ⟨rfl, rfl⟩

end Rollback

section Runs

/-- The paths a method is given. -/
def Op.paths : Op → List Path
  | .snapshot p => [p]
  | .snapshotTree files => files
  | .stage p _ _ => [p]
  | .applyStaged p => [p]
  | .remove p => [p]
  | _ => []

/-- What a transaction is begun and advanced with is accepted by the parser of its journal. -/
def Op.wellFormed : Op → Prop
  | .begin options => parseJournal options.journal = true
  | .advance _ recovery _ => recovery.all isRecoveryMetadata = true
  | _ => True

/-- The calls for which the store keeps its promise: no path is a key of every object, none is above
or below another that is journaled or given, and nothing is recorded that cannot be read again. -/
structure Op.Fits (m : Machine) (op : Op) : Prop where
  noCleanup : ∀ order, op ≠ .cleanup order
  own : ∀ p ∈ op.paths, isInherited p = false
  apart : ∀ p ∈ op.paths, ∀ q, (∃ t j, m.disk.transaction = some t ∧ t.journal = some j
    ∧ j.snapshots.get q ≠ none) ∨ q ∈ op.paths → ¬Above p q ∧ ¬Above q p
  wellFormed : op.wellFormed

variable {hash : Content → String} (hhash : ∀ content, isSha256 (hash content) = true)
  {base : Tree} {j : TransactionJournal} {m m' : Machine} {op : Op}

/-- The disks a method may leave that works on a transaction. -/
def Later (hash : Content → String) (base : Tree) (a : TransactionPhase) (d : Disk) : Prop :=
  ∃ j, SafeAt hash base j d ∧ Follows a j.phase

/-- What is held is on the disk. -/
def InStep (m : Machine) : Prop :=
  ∀ h, m.held = some h → m.disk.transaction.bind (·.journal) = some h

/-- A method that has ended. -/
def Ended (good : Disk → Prop) (m : Machine) : Prop :=
  good m.disk ∧ (∀ d ∈ m.passed, good d) ∧ InStep m

theorem Settled.ended {a : TransactionPhase} (h : Settled hash base a m) :
    Ended (Later hash base a) m := by
  obtain ⟨j, h⟩ := h
  refine ⟨⟨j, h.disk, h.follows⟩, h.passed, fun h' hh' => ?_⟩
  obtain ⟨before, staged, ht, -⟩ := h.disk
  rw [h.held] at hh'
  rw [ht, Option.bind_some, Option.some.inj hh']

/-- Without a store, no method but `begin` and `open` does anything. -/
theorem wp_idle (hop : (∀ options, op ≠ .begin options) ∧ op ≠ .open) (h : m.held = none) :
    wp (op.program hash) (fun _ m' => m' = m) (fun _ m' => m' = m) m := by
  have hheld : ∀ {α : Type} (f : TransactionJournal → Tx α),
      wp (held >>= f) (fun _ m' => m' = m) (fun _ m' => m' = m) m := by
    intro α f
    rw [wp_bind]
    simp only [held, wp_bind, wp_get, h, wp_fail]
  have hensure : ∀ {α : Type} (c : Bool) (message : String) (f : Unit → Tx α),
      wp (f ()) (fun _ m' => m' = m) (fun _ m' => m' = m) m →
      wp (ensure c message >>= f) (fun _ m' => m' = m) (fun _ m' => m' = m) m := by
    intro α c message f hf
    rw [wp_bind]
    exact wp_ensure (fun _ => hf) fun _ => rfl
  have hsnapshot : ∀ p, wp (snapshot hash p) (fun _ m' => m' = m) (fun _ m' => m' = m) m :=
    fun p => hensure _ _ _ (hheld _)
  have hthen : ∀ {α : Type} (p : Path) (f : Unit → Tx α),
      wp (snapshot hash p >>= f) (fun _ m' => m' = m) (fun _ m' => m' = m) m := by
    intro α p f
    rw [wp_bind]
    unfold snapshot
    rw [wp_bind]
    refine wp_ensure (fun _ => ?_) fun _ => rfl
    rw [wp_bind]
    simp only [held, wp_bind, wp_get, h, wp_fail]
  have hread : ∀ {α : Type} (f : TransactionJournal → Tx α),
      wp (read >>= f) (fun _ m' => m' = m) (fun _ m' => m' = m) m := by
    intro α f
    rw [wp_bind]
    unfold read
    rw [wp_bind]
    simp only [held, wp_bind, wp_get, h, wp_fail]
  cases op with
  | begin options => exact absurd rfl (hop.1 options)
  | «open» => exact absurd rfl hop.2
  | snapshot p => exact hsnapshot p
  | snapshotTree files =>
    refine wp_mono (wp_forM (I := fun _ m' => m' = m) ?_ files m rfl) (fun _ _ h => h)
      fun _ _ h => h
    rintro p rest m' rfl
    exact hsnapshot p
  | stage p content mode => exact hensure _ _ _ (hthen p _)
  | applyStaged p => exact hensure _ _ _ (hthen p _)
  | remove p => exact hensure _ _ _ (hthen p _)
  | advance phase recovery now => exact hheld _
  | rollback now => exact hread _
  | cleanup order => exact hread _

include hhash in
/-- On a transaction every method ends, and passes, disks that are safe and of no earlier phase. -/
theorem wp_program (hsafe : SafeAt hash base j m.disk) (hpassed : m.passed = [])
    (hstep : InStep m) (hfits : op.Fits m) :
    wp (op.program hash) (fun _ => Ended (Later hash base j.phase))
      (fun _ => Ended (Later hash base j.phase)) m := by
  have hlater : Later hash base j.phase m.disk := ⟨j, hsafe, .inl rfl⟩
  have hsame : Ended (Later hash base j.phase) m := ⟨hlater, by simp [hpassed], hstep⟩
  obtain ⟨before, staged, ht, hkept, hread⟩ := hsafe
  have hbegin : ∀ options, wp (begin options) (fun _ => Ended (Later hash base j.phase))
      (fun _ => Ended (Later hash base j.phase)) m := by
    intro options
    unfold Deployment.begin
    rw [wp_bind]
    refine wp_ensure (fun _ => ?_) fun _ => hsame
    rw [wp_bind, wp_get, wp_bind]
    exact wp_ensure (fun hc => by simp [ht] at hc) fun _ => hsame
  have hopen : wp Deployment.open (fun _ => Ended (Later hash base j.phase))
      (fun _ => Ended (Later hash base j.phase)) m := by
    unfold Deployment.open
    rw [wp_bind, wp_get]
    simp only [ht]
    rw [wp_bind]
    refine wp_ensure (fun _ => ?_) fun _ => hsame
    rw [wp_bind]
    refine wp_ensure (fun _ => ?_) fun _ => hsame
    rw [wp_bind]
    refine wp_ensure (fun _ => ?_) fun _ => hsame
    rw [wp_bind]
    refine wp_ensure (fun _ => ?_) fun _ => hsame
    refine ⟨hlater, by simp [hpassed], fun h hh => ?_⟩
    rw [← Option.some.inj hh, ht, Option.bind_some]
  by_cases hb : (∀ options, op ≠ .begin options) ∧ op ≠ .open
  · cases hheld : m.held with
    | none =>
      refine wp_mono (wp_idle hb hheld) ?_ ?_ <;>
        · rintro _ m' rfl
          exact hsame
    | some h =>
      have hh := hstep h hheld
      rw [ht, Option.bind_some] at hh
      obtain rfl := Option.some.inj hh
      have hcalm : Calm hash base j.phase j m :=
        ⟨⟨before, staged, ht, hkept, hread⟩, by simp [hpassed], hheld, .inl rfl⟩
      have hfit : ∀ p ∈ op.paths, Deployment.Fits j p := fun p hp =>
        ⟨hfits.own p hp, fun q hq => hfits.apart p hp q (.inl ⟨_, j, ht, rfl, hq⟩)⟩
      refine wp_mono (Q := fun _ => Settled hash base j.phase)
        (E := fun _ => Settled hash base j.phase) ?_ (fun _ _ h => h.ended) fun _ _ h => h.ended
      cases op with
      | begin options => exact absurd rfl (hb.1 options)
      | «open» => exact absurd rfl hb.2
      | snapshot p =>
        exact wp_mono (wp_snapshot hhash (hfit p (by simp [Op.paths])) hcalm)
          (fun _ _ ⟨_, h, _⟩ => h.settled) fun _ _ h => h
      | snapshotTree files =>
        refine wp_snapshotTree hhash (fun p hp => ⟨hfits.own p hp, fun q hq => ?_⟩) hcalm
        exact hfits.apart p hp q (hq.imp (fun hq => ⟨_, j, ht, rfl, hq⟩) id)
      | stage p content mode => exact wp_stage hhash (hfit p (by simp [Op.paths])) hcalm
      | applyStaged p => exact wp_applyStaged hhash (hfit p (by simp [Op.paths])) hcalm
      | remove p => exact wp_remove hhash (hfit p (by simp [Op.paths])) hcalm
      | advance phase recovery now => exact wp_advance hfits.wellFormed hcalm
      | rollback now =>
        by_cases hphase : j.phase.refusesRollback
        · refine wp_mono (wp_rollback_refused hcalm hphase) (fun _ _ h => h.elim) ?_
          rintro _ m' ⟨-, rfl⟩
          exact hcalm.settled
        · have hfollows : Follows j.phase .rollbackComplete := by
            rw [TransactionPhase.refusesRollback] at hphase
            cases hp : j.phase <;> simp [hp] at hphase <;> simp [Follows, allowsTransition]
          exact wp_mono (wp_rollback hcalm hphase hfollows) (fun _ _ h => h.1.settled)
            fun _ _ h => h.elim
      | cleanup order => exact absurd rfl (hfits.noCleanup order)
  · rw [not_and_or, not_not] at hb
    rcases hb with hb | rfl
    · push Not at hb
      obtain ⟨options, rfl⟩ := hb
      exact hbegin options
    · exact hopen

/-- Where there is no transaction, `begin` publishes one from which all is as it is. -/
theorem safeAt_publish {d : Disk} {options : BeginTransactionOptions} (hwf : WellFormed d.root)
    (hparse : parseJournal options.journal = true) :
    SafeAt hash d.root options.journal (d.publish options.journal) := by
  have hget : ∀ p, options.journal.snapshots.get p = none := fun p => OrderedMap.get_empty
  have hstaged : ∀ p, options.journal.staged.get p = none := fun p => OrderedMap.get_empty
  simp only [parseJournal, Bool.and_eq_true, decide_eq_true_eq] at hparse
  exact ⟨Tree.empty, Tree.empty, rfl,
    ⟨hwf, fun p b _ hp => absurd rfl hp, fun p _ => .inl rfl, fun p s hs => by simp [hget] at hs,
      fun p b hp => absurd (hget p) hp, fun p q hp => absurd (hget p) hp⟩,
    ⟨hparse.1.1.1.1, hparse.1.1.1.2, fun p s hs => by simp [hget] at hs,
      fun p s hs => by simp [hstaged] at hs, hparse.2⟩⟩

/-- A disk that is as a method may find it. -/
structure Sound (hash : Content → String) (d : Disk) : Prop where
  root_wf : WellFormed d.root
  safe : ∀ t, d.transaction = some t → ∃ j, SafeAt hash t.base j d

theorem Later.sound {a : TransactionPhase} {d : Disk} (h : Later hash base a d) :
    Sound hash d := by
  obtain ⟨j, ⟨before, staged, ht, hkept, hread⟩, -⟩ := h
  refine ⟨hkept.root_wf, fun t ht' => ?_⟩
  obtain rfl := Option.some.inj (ht.symm.trans ht')
  exact ⟨j, before, staged, ht, hkept, hread⟩

/-- A machine without a transaction, at work on one that is not published. -/
structure Unpublished (r : Tree) (m : Machine) : Prop where
  transaction : m.disk.transaction = none
  root : m.disk.root = r
  passed : ∀ d ∈ m.passed, d.transaction = none ∧ d.root = r
  held : m.held = none

theorem Unpublished.after {r : Tree} (h : Unpublished r m) {f : Disk → Disk}
    (ht : (f m.disk).transaction = m.disk.transaction) (hr : (f m.disk).root = m.disk.root) :
    Unpublished r (m.after f) where
  transaction := ht.trans h.transaction
  root := hr.trans h.root
  passed d hd := by
    rcases List.mem_append.1 hd with hd | hd
    · exact h.passed d hd
    · rw [List.mem_singleton.1 hd]
      exact ⟨h.transaction, h.root⟩
  held := h.held

theorem Unpublished.ended {r : Tree} (hwf : WellFormed r) (h : Unpublished r m) :
    Ended (Sound hash) m := by
  have hsound : ∀ d : Disk, d.transaction = none ∧ d.root = r → Sound hash d := fun d hd =>
    ⟨hd.2 ▸ hwf, fun t ht => by simp [hd.1] at ht⟩
  exact ⟨hsound _ ⟨h.transaction, h.root⟩, fun d hd => hsound d (h.passed d hd),
    fun j hj => by simp [h.held] at hj⟩

theorem wp_begin {options : BeginTransactionOptions} {r : Tree} (hwf : WellFormed r)
    (hparse : parseJournal options.journal = true) (h : Unpublished r m) :
    wp (begin options) (fun _ => Ended (Sound hash)) (fun _ => Ended (Sound hash)) m := by
  unfold Deployment.begin
  rw [wp_bind]
  refine wp_ensure (fun _ => ?_) fun _ => h.ended hwf
  rw [wp_bind, wp_get, wp_bind]
  refine wp_ensure (fun _ => ?_) fun _ => h.ended hwf
  rw [wp_bind, wp_get, wp_bind]
  refine wp_mono (wp_forM (I := fun _ => Unpublished r) ?_ m.disk.candidates m h) ?_
    fun _ _ hm' => hm'
  · intro name rest m' h'
    unfold removeCandidate
    rw [wp_bind, wp_atomic, wp_atomic]
    exact (h'.after rfl rfl).after rfl rfl
  · intro _ m' h'
    rw [wp_bind]
    refine wp_ensure (fun _ => ?_) fun _ => h'.ended hwf
    simp only [wp_bind, wp_atomic, wp_hold]
    have h1 := h'.after (f := fun d => { d with candidates := options.id :: d.candidates }) rfl rfl
    have h5 := (((h1.after (f := id) rfl rfl).after (f := id) rfl rfl).after (f := id) rfl
      rfl).after (f := id) rfl rfl
    have hend : Ended (Sound hash) _ := h5.ended hwf
    have hsafe : SafeAt hash _ _ _ := safeAt_publish hend.1.root_wf hparse
    refine ⟨⟨hend.1.root_wf, fun t ht => ?_⟩, fun d hd => ?_, fun j hj => ?_⟩
    · obtain rfl := Option.some.inj ht
      exact ⟨_, hsafe⟩
    · rcases List.mem_append.1 hd with hd | hd
      · exact hend.2.1 d hd
      · rw [List.mem_singleton.1 hd]
        exact hend.1
    · rw [← Option.some.inj hj]
      rfl

/-- What a call leaves, whether it ends or the process dies. -/
theorem step_good {good : Disk → Prop}
    (hwp : wp (op.program hash) (fun _ => Ended good) (fun _ => Ended good)
      { m with passed := [] }) (hstep : Step hash op m m') : good m'.disk ∧ InStep m' := by
  have hend := exec_of_wp hwp
  cases hstep with
  | ends => exact ⟨hend.1, hend.2.2⟩
  | crashes x d hx hd =>
    subst hx
    refine ⟨?_, fun h hh => absurd hh (by simp [Machine.fresh])⟩
    rcases List.mem_cons.1 hd with rfl | hd
    · exact hend.1
    · exact hend.2.1 d hd

include hhash in
/-- A call that meets the condition, of a process that finds the disk sound. -/
theorem step_sound (h : Sound hash m.disk) (hin : InStep m) (hfits : op.Fits m)
    (hstep : Step hash op m m') : Sound hash m'.disk ∧ InStep m'
      ∧ ∀ t j, m.disk.transaction = some t → t.journal = some j →
        Later hash t.base j.phase m'.disk := by
  cases ht : m.disk.transaction with
  | some t =>
    obtain ⟨j, hsafe⟩ := h.safe t ht
    have hj : t.journal = some j := by
      obtain ⟨_, _, ht', -⟩ := hsafe
      rw [Option.some.inj (ht.symm.trans ht')]
    have hfits' : op.Fits { m with passed := [] } := ⟨hfits.1, hfits.2, hfits.3, hfits.4⟩
    obtain ⟨hlater, hin'⟩ := step_good (wp_program hhash hsafe rfl hin hfits') hstep
    refine ⟨hlater.sound, hin', fun t' j' ht' hj' => ?_⟩
    obtain rfl := Option.some.inj ht'
    obtain rfl := Option.some.inj (hj.symm.trans hj')
    exact hlater
  | none =>
    have hheld : m.held = none := by
      by_contra hsome
      obtain ⟨j, hj⟩ := Option.ne_none_iff_exists'.1 hsome
      simpa [ht] using hin j hj
    have hun : Unpublished m.disk.root { m with passed := [] } := ⟨ht, rfl, by simp, hheld⟩
    have hwp : wp (op.program hash) (fun _ => Ended (Sound hash)) (fun _ => Ended (Sound hash))
        { m with passed := [] } := by
      by_cases hb : (∀ options, op ≠ .begin options) ∧ op ≠ .open
      · have hidle : wp (op.program hash) (fun _ x => x = { m with passed := [] })
            (fun _ x => x = { m with passed := [] }) { m with passed := [] } := wp_idle hb hheld
        exact wp_mono hidle (fun _ x hx => hx ▸ hun.ended h.root_wf)
          fun _ x hx => hx ▸ hun.ended h.root_wf
      · rw [not_and_or, not_not] at hb
        rcases hb with hb | rfl
        · push Not at hb
          obtain ⟨options, rfl⟩ := hb
          exact wp_begin h.root_wf hfits.wellFormed hun
        · show wp Deployment.open _ _ _
          unfold Deployment.open
          rw [wp_bind, wp_get]
          simp only [ht]
          exact hun.ended h.root_wf
    obtain ⟨hsound, hin'⟩ := step_good hwp hstep
    exact ⟨hsound, hin', fun t j ht' => by simp at ht'⟩

include hhash in
theorem reached_sound {start : Disk} (hwf : WellFormed start.root) (hnone : start.transaction = none)
    (hrun : Reached hash (fun m op _ => op.Fits m) (.fresh start) m) :
    Sound hash m.disk ∧ InStep m := by
  induction hrun with
  | start =>
    exact ⟨⟨hwf, fun t ht => by simp [Machine.fresh, hnone] at ht⟩,
      fun j hj => by simp [Machine.fresh] at hj⟩
  | step _ hstep hmeets ih =>
    obtain ⟨hsound, hin, -⟩ := step_sound hhash ih.1 ih.2 hmeets hstep
    exact ⟨hsound, hin⟩

end Runs

section Main

variable (hash : Content → String)

/-- What a user of the store relies on, of a disk with a transaction, whatever has led there. -/
structure CrashSafe (m : Machine) (t : TransactionDirectory) (j : TransactionJournal) : Prop where
  /-- What is not journaled is as it was, directories on the way to what is apart. -/
  untouched : ∀ p, j.snapshots.get p = none →
    m.disk.root p = t.base p ∨ t.base p = none ∧ m.disk.root p = some .dir
  /-- The journal tells of each path what it was, and its content is kept. -/
  durable : ∃ before, t.before = some before ∧
    ∀ p s, j.snapshots.get p = some s → Saved hash t.base m.disk.root before p s
  /-- A rollback puts all journaled paths back and ends, and another one changes nothing. -/
  restores : ¬j.phase.refusesRollback → ∀ now, ∃ m' t' j',
    exec (Deployment.open >>= fun _ => rollback hash now) (.fresh m.disk) = (.ok (), m')
      ∧ m'.disk.transaction = some t' ∧ t'.journal = some j' ∧ j'.phase = .rollbackComplete
      ∧ (∀ p, j.snapshots.get p ≠ none → m'.disk.root p = t.base p)
      ∧ (∀ p, j.snapshots.get p = none →
        m'.disk.root p = t.base p ∨ t.base p = none ∧ m'.disk.root p = some .dir)
      ∧ ∀ now', ∃ m'', exec (Deployment.open >>= fun _ => rollback hash now') (.fresh m'.disk) =
        (.ok (), m'') ∧ m''.disk.root = m'.disk.root
  /-- From the start of Core on a rollback is refused. -/
  refuses : j.phase.refusesRollback → ∀ now, ∃ m',
    exec (Deployment.open >>= fun _ => rollback hash now) (.fresh m.disk) =
      (.error (.recoveryRequired j.phase), m') ∧ m'.disk = m.disk
  /-- The recorded phase moves on in its order, also if the next call does not end. -/
  forward : ∀ op m', op.Fits m → Step hash op m m' → ∃ t' j', m'.disk.transaction = some t'
    ∧ t'.journal = some j' ∧ t'.base = t.base
    ∧ (j'.phase = j.phase ∨ allowsTransition j.phase j'.phase = true)

variable {hash} {base : Tree} {j : TransactionJournal} {d : Disk}

theorem wp_open_of {before staged : Tree}
    (ht : d.transaction = some ⟨some j, some before, some staged, base⟩) (hread : Readable j)
    {Q : Unit → Machine → Prop} {E : Fault → Machine → Prop} (hQ : Q () ⟨d, [], some j⟩) :
    wp Deployment.open Q E (.fresh d) := by
  unfold Deployment.open
  rw [wp_bind, wp_get]
  simp only [Machine.fresh, ht]
  rw [wp_bind]
  refine wp_ensure (fun _ => ?_) fun hc => by simp [hread.parses] at hc
  rw [wp_bind]
  refine wp_ensure (fun _ => ?_) fun hc => by simp at hc
  rw [wp_bind]
  refine wp_ensure (fun _ => ?_) fun hc => by simp at hc
  rw [wp_bind]
  exact wp_ensure (fun _ => hQ) fun hc => by simp [hread.paths] at hc

theorem wp_open (h : SafeAt hash base j d) {Q : Unit → Machine → Prop}
    {E : Fault → Machine → Prop} (hQ : Q () ⟨d, [], some j⟩) :
    wp Deployment.open Q E (.fresh d) := by
  obtain ⟨before, staged, ht, -, hread⟩ := h
  exact wp_open_of ht hread hQ

theorem SafeAt.calm (h : SafeAt hash base j d) : Calm hash base j.phase j ⟨d, [], some j⟩ :=
  ⟨h, by simp, rfl, .inl rfl⟩

theorem exec_ok {m : Machine} {prog : Tx Unit} {Q : Unit → Machine → Prop}
    (h : wp prog Q (fun _ _ => False) m) : ∃ m', exec prog m = (.ok (), m') ∧ Q () m' := by
  rcases hx : exec prog m with ⟨_ | u, m'⟩
  · simp only [wp, hx] at h
  · simp only [wp, hx] at h
    exact ⟨m', rfl, h⟩

/-- A rollback of a disk that a process finds, from the phases that have one. -/
theorem exec_rollback (h : SafeAt hash base j d) (hphase : ¬j.phase.refusesRollback) (now : ℕ) :
    ∃ m', exec (Deployment.open >>= fun _ => rollback hash now) (.fresh d) = (.ok (), m')
      ∧ SafeAt hash base { j with phase := .rollbackComplete, updatedAt := now } m'.disk
      ∧ (∀ q, j.snapshots.get q ≠ none → m'.disk.root q = base q)
      ∧ ((∀ q, j.snapshots.get q ≠ none → d.root q = base q) → m'.disk.root = d.root) := by
  have hfollows : Follows j.phase .rollbackComplete := by
    rw [TransactionPhase.refusesRollback] at hphase
    cases hp : j.phase <;> simp [hp] at hphase <;> simp [Follows, allowsTransition]
  refine exec_ok (Q := fun _ m' =>
    SafeAt hash base { j with phase := .rollbackComplete, updatedAt := now } m'.disk
      ∧ (∀ q, j.snapshots.get q ≠ none → m'.disk.root q = base q)
      ∧ ((∀ q, j.snapshots.get q ≠ none → d.root q = base q) → m'.disk.root = d.root)) ?_
  rw [wp_bind]
  refine wp_open h (wp_mono (wp_rollback h.calm hphase hfollows) ?_ fun _ _ hf => hf)
  rintro _ m' ⟨hcalm, hrestored, hnoop⟩
  exact ⟨hcalm.disk, hrestored, hnoop⟩

end Main

section Failing

/-- The machine after calls none of which is interrupted. -/
def calls (hash : Content → String) : List Op → Machine → Machine
  | [], m => m
  | op :: ops, m =>
    calls hash ops { (exec (op.program hash) { m with passed := [] }).2 with passed := [] }

theorem reached_calls {hash : Content → String} {meets : Machine → Op → Machine → Prop}
    {start : Machine} (ops : List Op) {m : Machine} (h : Reached hash meets start m)
    (hmeets : ∀ m m', ∀ op ∈ ops, meets m op m') : Reached hash meets start (calls hash ops m) := by
  induction ops generalizing m with
  | nil => exact h
  | cons op ops ih =>
    refine ih (h.step (.ends op m) (hmeets _ _ op List.mem_cons_self)) fun m m' op' hop' => ?_
    exact hmeets m m' op' (List.mem_cons_of_mem _ hop')

def zeroHash : Content → String := fun _ =>
  String.ofList ("sha256:".toList ++ List.replicate 64 '0')

def emptyDisk : Disk := ⟨Tree.empty, none, []⟩

def plainOptions : BeginTransactionOptions where
  operation := .config
  dockerEngineId := "engine"
  previousRunning := false
  desiredRunning := false
  owner := ⟨1, "linux:1", "linux:2", "engine"⟩
  id := "change"
  now := 0
  recovery := none

theorem plainOptions_parses : parseJournal plainOptions.journal = true := by decide +kernel

theorem emptyDisk_wellFormed : WellFormed emptyDisk.root := fun _ _ _ h => absurd rfl h

theorem zeroHash_sha256 (content : Content) : isSha256 (zeroHash content) = true := by
  have hzeros : (List.replicate 64 '0').all isHexadecimal = true := by
    rw [List.all_replicate]
    rfl
  unfold isSha256 zeroHash
  rw [String.toList_ofList, String.toList_ofList]
  exact hzeros

/-- After a file has been staged over one that is not there. -/
def configured : Machine :=
  calls zeroHash [.begin plainOptions, .stage ["config.json"] [1] 0o600] (.fresh emptyDisk)

end Failing

end Atlas.Cli.Deployment
