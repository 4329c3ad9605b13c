import Atlas.Cli.DeploymentTransaction
import Atlas.Cli.TransactionPaths
import Atlas.Lib.Results

/-!
# Where the paths of a transaction lead

A path that the store accepts is normalized to the names of an entry below the configuration
directory (`accepted_names`). The names tell the record and the place of the file, so two paths to
one file have one record.
-/

namespace Atlas.Cli.TransactionPaths

open CodeUnits PosixPath Results

section Accepted

variable {s key : Text}

/-- A path that ends in a separator has an empty segment. -/
theorem nil_mem_split_trailing (s : Text) : [] ∈ PosixPath.split (s ++ [slash]) := by
  rw [split_append]
  exact List.mem_append_right _ (by decide)

/-- What is left of an accepted path are names, and they are what it is recorded under. -/
theorem validateRelativePath_ok (h : validateRelativePath s = .ok key) :
    ∃ ns, ns ≠ [] ∧ (∀ n ∈ ns, IsName n) ∧ normalizeString true s = ns ∧ key = joined ns := by
  simp only [validateRelativePath, ite_throw_eq_ok, pure_eq_ok, not_or, Bool.not_eq_true] at h
  obtain ⟨⟨hs, -, habsolute⟩, ⟨hhere, habove, hstarts, -, hsplit⟩, rfl⟩ := h
  simp only [PosixPath.normalize, if_neg hs, habsolute, Bool.not_false, Bool.false_eq_true,
    if_false, List.nil_append] at hhere habove hstarts hsplit ⊢
  -- a separator at the end would be seen in the segments
  have htrailing : s.getLast? ≠ some slash := by
    intro hlast
    rw [if_pos hlast] at hsplit
    split_ifs at hsplit <;> exact hsplit (nil_mem_split_trailing _)
  simp only [if_neg htrailing, List.append_nil] at hhere habove hstarts hsplit ⊢
  obtain ⟨k, rest, hns, hrest⟩ := reduced_foldl _ (slash_notMem_of_mem_split s)
  replace hns : normalizeString true s = List.replicate k above ++ rest := hns
  by_cases hpath : joined (normalizeString true s) = []
  · exact absurd (if_pos hpath) hhere
  rw [if_neg hpath] at hhere habove hstarts hsplit ⊢
  -- and a step upwards at its start
  have hk : k = 0 := by
    cases k with
    | zero => rfl
    | succ k =>
      rw [hns, List.replicate_succ, List.cons_append] at habove hstarts
      rcases joined_cons above (List.replicate k above ++ rest) with heq | hstart
      · exact absurd heq habove
      · rw [hstart] at hstarts
        exact absurd hstarts (by decide)
  subst hk
  refine ⟨rest, ?_, hrest, hns, by rw [hns]; rfl⟩
  rintro rfl
  exact hpath (by rw [hns]; rfl)

/-- An accepted path, by the names it leads through. -/
structure Accepted (s key : Text) (ns : List Text) : Prop where
  ne_nil : ns ≠ []
  isName : ∀ n ∈ ns, IsName n
  names : normalizeString true s = ns
  record : key = joined ns
  notExcluded : ∀ e ∈ excludedPaths, ns ≠ [e]
  notTransaction : ns.head? ≠ some transactionDirectory

theorem accepted_names (h : validateRootRelativePath s = .ok key) : ∃ ns, Accepted s key ns := by
  obtain ⟨path, hpath, h⟩ := bind_eq_ok.1 h
  simp only [ite_throw_eq_ok, pure_eq_ok, not_or, Bool.not_eq_true] at h
  obtain ⟨hexcluded, ⟨hdirectory, hbelow⟩, rfl⟩ := h
  obtain ⟨ns, hne, hname, hns, rfl⟩ := validateRelativePath_ok hpath
  refine ⟨ns, hne, hname, hns, rfl, fun e he heq => hexcluded ?_, fun hhead => ?_⟩
  · rw [heq, joined_singleton]
    exact he
  · obtain ⟨rest, rfl⟩ := List.head?_eq_some_iff.1 hhead
    rcases joined_cons transactionDirectory rest with heq | hstart
    · exact hdirectory heq
    · rw [hstart] at hbelow
      exact absurd hbelow (by decide)

end Accepted

section Placed

variable {root s key : Text} {ns : List Text}

theorem isAbsolute_append {root : Text} (h : isAbsolute root = true) (s : Text) :
    isAbsolute (root ++ s) = true := by
  obtain ⟨t, rfl⟩ := isAbsolute_iff.1 h
  rfl

theorem resolve_join (hroot : isAbsolute root = true) (hne : ns ≠ []) (h : ∀ n ∈ ns, IsName n) :
    resolve (PosixPath.join root (joined ns)) = resolve root ++ ns := by
  have hroot' : root ≠ [] := by
    rintro rfl
    simp [isAbsolute] at hroot
  rw [join_eq hroot' (joined_ne_nil hne fun n hn => (h n hn).ne_nil),
    resolve_normalize (isAbsolute_append hroot _),
    resolve_append_names (normalizeString_joined true h) h]

theorem split_joined_names (hne : ns ≠ []) (h : ∀ n ∈ ns, IsName n) :
    PosixPath.split (joined ns) = ns :=
  split_joined hne fun n hn => (h n hn).noSlash

theorem head_of_startsWith (hne : ns ≠ []) (h : ∀ n ∈ ns, IsName n) {n : Text}
    (hn : slash ∉ n) (hstart : startsWith (joined ns) (n ++ [slash]) = true) :
    ns.head? = some n := by
  obtain ⟨t, ht⟩ := List.isPrefixOf_iff_prefix.1 hstart
  rw [← split_joined_names hne h, ← ht, List.append_assoc]
  show (PosixPath.split (n ++ slash :: t)).head? = some n
  rw [split_append, PosixPath.split, List.splitOn_eq_singleton hn]
  rfl

theorem isAbsolute_joined (hne : ns ≠ []) (h : ∀ n ∈ ns, IsName n) :
    isAbsolute (joined ns) = false := by
  rw [Bool.eq_false_iff]
  intro habsolute
  obtain ⟨t, ht⟩ := isAbsolute_iff.1 habsolute
  have hnil : [] ∈ ns := by
    rw [← split_joined_names hne h, ht, split_slash_cons]
    exact List.mem_cons_self
  exact (h [] hnil).ne_nil rfl

theorem joined_ne_of_notMem (hne : ns ≠ []) (h : ∀ n ∈ ns, IsName n) {n : Text} (hn : slash ∉ n)
    (hmem : n ∉ ns) : joined ns ≠ n := by
  intro heq
  rw [← split_joined_names hne h, heq, PosixPath.split, List.splitOn_eq_singleton hn] at hmem
  exact hmem List.mem_cons_self

theorem above_notMem (h : ∀ n ∈ ns, IsName n) : above ∉ ns := fun hmem =>
  (h above hmem).ne_above rfl

theorem not_startsWith_above (hne : ns ≠ []) (h : ∀ n ∈ ns, IsName n) :
    startsWith (joined ns) (above ++ [slash]) = false := by
  rw [Bool.eq_false_iff]
  intro hstart
  exact above_notMem h (List.mem_of_head? (head_of_startsWith hne h (by decide) hstart))

/-- What is relative to the configuration directory by names does not escape from it. -/
theorem containedPath_ok (hne : ns ≠ []) (h : ∀ n ∈ ns, IsName n)
    (hroot : isAbsolute root = true) :
    containedPath root (joined ns) = .ok (PosixPath.join root (joined ns)) := by
  simp only [containedPath, ite_throw_eq_ok, pure_eq_ok,
    relative_of_append (resolve_join hroot hne h), and_true, not_or, Bool.not_eq_true]
  exact ⟨joined_ne_of_notMem hne h (by decide) (above_notMem h), not_startsWith_above hne h,
    isAbsolute_joined hne h⟩

/-- An accepted path is found where it leads from the configuration directory. -/
theorem Accepted.placeOf (h : Accepted s key ns) (hs : validateRootRelativePath s = .ok key)
    (hroot : isAbsolute root = true) :
    placeOf root s = .ok ⟨key, PosixPath.join root key⟩
      ∧ resolve (PosixPath.join root key) = resolve root ++ ns
      ∧ resolve (root ++ slash :: s) = resolve root ++ ns := by
  have hcontained := containedPath_ok h.ne_nil h.isName hroot
  have hjoin := resolve_join hroot h.ne_nil h.isName
  rw [← h.record] at hcontained hjoin
  refine ⟨?_, hjoin, resolve_append_names h.names h.isName⟩
  rw [TransactionPaths.placeOf, bind_eq_ok]
  refine ⟨key, hs, ?_⟩
  rw [bind_eq_ok]
  exact ⟨_, hcontained, rfl⟩

end Placed

section Containment

/-- A place that a transaction may change: strictly below the configuration directory, not in the
directory of the transaction, and none of the files that are excluded. -/
structure Inside (root target : Text) : Prop where
  below : resolve root <+: resolve target
  strict : resolve target ≠ resolve root
  outside : ¬resolve (PosixPath.join root transactionDirectory) <+: resolve target
  notExcluded : ∀ e ∈ excludedPaths, resolve target ≠ resolve (PosixPath.join root e)

theorem isName_transactionDirectory : IsName transactionDirectory :=
  ⟨by decide, by decide, by decide, by decide⟩

theorem isName_excluded : ∀ e ∈ excludedPaths, IsName e := by
  intro e he
  simp only [excludedPaths, List.mem_cons, List.not_mem_nil, or_false] at he
  rcases he with rfl | rfl <;> exact ⟨by decide, by decide, by decide, by decide⟩

theorem resolve_join_name {root n : Text} (hroot : isAbsolute root = true) (hn : IsName n) :
    resolve (PosixPath.join root n) = resolve root ++ [n] := by
  have h := resolve_join hroot (List.cons_ne_nil n []) fun m hm => List.mem_singleton.1 hm ▸ hn
  rwa [joined_singleton] at h

theorem Accepted.inside {s key root target : Text} {ns : List Text} (h : Accepted s key ns)
    (hroot : isAbsolute root = true) (htarget : resolve target = resolve root ++ ns) :
    Inside root target where
  below := htarget ▸ List.prefix_append _ _
  strict := by
    rw [htarget]
    simpa using h.ne_nil
  outside := by
    rw [htarget, resolve_join_name hroot isName_transactionDirectory, List.prefix_append_right_inj]
    rintro ⟨rest, hrest⟩
    exact h.notTransaction (by rw [← hrest]; rfl)
  notExcluded e he := by
    rw [htarget, resolve_join_name hroot (isName_excluded e he), ne_eq, List.append_cancel_left_eq]
    exact h.notExcluded e he

theorem isAbsolute_of_normalizeConfigDirectory {configDir root : Text}
    (h : normalizeConfigDirectory configDir = .ok root) : isAbsolute root = true := by
  simp only [normalizeConfigDirectory, ite_throw_eq_ok, pure_eq_ok, not_or,
    Bool.not_eq_false] at h
  obtain ⟨⟨-, habsolute⟩, rfl⟩ := h
  exact isAbsolute_normalize habsolute

example : (placeOf (CodeUnits.text "/etc/atlas") (CodeUnits.text "plugins/./a//../b")).toOption
    = some ⟨CodeUnits.text "plugins/b", CodeUnits.text "/etc/atlas/plugins/b"⟩ := by decide +kernel

end Containment

end Atlas.Cli.TransactionPaths
