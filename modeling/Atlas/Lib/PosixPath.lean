import Atlas.Lib.CodeUnits

/-!
# Paths of POSIX

`normalize`, `join` and `relative` as `node:path` documents them, on the segments between the
separators. A path leads to the names that are left when its segments are followed from the root
(`resolve`); a normalized path leads where the path it is made of does.
-/

namespace PosixPath

open CodeUnits

section Definitions

def slash : UInt16 := unit '/'

def dot : UInt16 := unit '.'

/-- The segment of the directory itself. -/
def here : Text := [dot]

/-- The segment of the directory above. -/
def above : Text := [dot, dot]

def split (s : Text) : List Text := s.splitOn slash

def joined (segments : List Text) : Text := [slash].intercalate segments

def isAbsolute (s : Text) : Bool := s.head? = some slash

def startsWith (s t : Text) : Bool := t.isPrefixOf s

/-- One segment after those that have been followed. -/
def push (allowAboveRoot : Bool) (names : List Text) (segment : Text) : List Text :=
  if segment = [] ∨ segment = here then names
  else if segment = above then
    if names ≠ [] ∧ names.getLast? ≠ some above then names.dropLast
    else if allowAboveRoot then names ++ [above]
    else names
  else names ++ [segment]

def normalizeString (allowAboveRoot : Bool) (s : Text) : List Text :=
  (split s).foldl (push allowAboveRoot) []

def normalize (s : Text) : Text :=
  if s = [] then here
  else
    let path := joined (normalizeString (!isAbsolute s) s)
    let trailing := if s.getLast? = some slash then [slash] else []
    if path = [] then if isAbsolute s then [slash] else here ++ trailing
    else (if isAbsolute s then [slash] else []) ++ path ++ trailing

/-- `join` of two paths. -/
def join (a b : Text) : Text := normalize (joined ([a, b].filter (· ≠ [])))

/-- The names from the root to where an absolute path leads. -/
def resolve (s : Text) : List Text := normalizeString false s

/-- `relative` of two absolute paths. -/
def relative (source target : Text) : Text :=
  let common := ((resolve source).zip (resolve target)).takeWhile fun e => e.1 = e.2
  joined (List.replicate ((resolve source).length - common.length) above
    ++ (resolve target).drop common.length)

end Definitions

section Segments

theorem slash_notMem_of_mem_split (s : Text) : ∀ n ∈ split s, slash ∉ n := by
  unfold split
  induction s with
  | nil => simp
  | cons c s ih =>
    rw [List.splitOn_cons_eq_if_modifyHead]
    split_ifs with hc
    · intro n hn
      rcases List.mem_cons.1 hn with rfl | hn
      · simp
      · exact ih n hn
    · intro n hn
      cases hs : List.splitOn slash s with
      | nil => exact absurd hs (List.splitOn_ne_nil slash s)
      | cons m rest =>
        rw [hs] at hn ih
        rcases List.mem_cons.1 hn with rfl | hn
        · have hm := ih m List.mem_cons_self
          simp only [List.mem_cons, not_or]
          exact ⟨fun h => hc (by simp [h]), hm⟩
        · exact ih n (List.mem_cons_of_mem _ hn)

theorem split_joined {ns : List Text} (hns : ns ≠ []) (h : ∀ n ∈ ns, slash ∉ n) :
    split (joined ns) = ns :=
  List.splitOn_intercalate slash h hns

theorem split_append (s t : Text) : split (s ++ slash :: t) = split s ++ split t :=
  List.splitOn_append_cons_self s t

theorem split_slash_cons (s : Text) : split (slash :: s) = [] :: split s := split_append [] s

theorem joined_cons_cons (n m : Text) (ns : List Text) :
    joined (n :: m :: ns) = n ++ slash :: joined (m :: ns) := by
  simp [joined, List.intercalate]

@[simp]
theorem joined_singleton (n : Text) : joined [n] = n := by simp [joined, List.intercalate]

@[simp]
theorem joined_nil : joined [] = [] := rfl

/-- The first name is what a joined path starts with. -/
theorem joined_cons (n : Text) (ns : List Text) :
    joined (n :: ns) = n ∨ startsWith (joined (n :: ns)) (n ++ [slash]) = true := by
  cases ns with
  | nil => exact .inl (joined_singleton n)
  | cons m ns =>
    refine .inr (List.isPrefixOf_iff_prefix.2 ⟨joined (m :: ns), ?_⟩)
    rw [joined_cons_cons, List.append_assoc]
    rfl

end Segments

section Names

/-- What a directory can call an entry. -/
structure IsName (n : Text) : Prop where
  ne_nil : n ≠ []
  ne_here : n ≠ here
  ne_above : n ≠ above
  noSlash : slash ∉ n

theorem push_name {n : Text} (h : IsName n) (allow : Bool) (names : List Text) :
    push allow names n = names ++ [n] := by
  rw [push, if_neg (by simp [h.ne_nil, h.ne_here]), if_neg h.ne_above]

theorem foldl_push_names (allow : Bool) : ∀ (ns base : List Text), (∀ n ∈ ns, IsName n) →
    ns.foldl (push allow) base = base ++ ns
  | [], base, _ => (List.append_nil base).symm
  | n :: ns, base, h => by
    obtain ⟨hn, hns⟩ := List.forall_mem_cons.1 h
    rw [List.foldl_cons, push_name hn, foldl_push_names allow ns _ hns, List.append_assoc]
    rfl

theorem joined_ne_nil {ns : List Text} (hns : ns ≠ []) (h : ∀ n ∈ ns, n ≠ []) : joined ns ≠ [] := by
  cases ns with
  | nil => exact absurd rfl hns
  | cons n ns =>
    have hn := h n List.mem_cons_self
    cases ns with
    | nil => rwa [joined_singleton]
    | cons m ns => simp [joined_cons_cons]

/-- Names below some steps upwards: what is left of the segments of a relative path. -/
def Reduced (ns : List Text) : Prop :=
  ∃ k rest, ns = List.replicate k above ++ rest ∧ ∀ n ∈ rest, IsName n

theorem push_above {ns : List Text} (allow : Bool) {n : Text} (hn : n ≠ above) :
    push allow (ns ++ [n]) above = ns := by
  have hdot : ¬(above = [] ∨ above = here) := by simp [above, here]
  rw [push, if_neg hdot, if_pos rfl, if_pos, List.dropLast_concat]
  simpa using hn

theorem push_above_replicate (k : ℕ) :
    push true (List.replicate k above) above = List.replicate k above ++ [above] := by
  have hdot : ¬(above = [] ∨ above = here) := by simp [above, here]
  rw [push, if_neg hdot, if_pos rfl, if_neg, if_pos rfl]
  rintro ⟨hne, hlast⟩
  rw [List.getLast?_replicate] at hlast
  split_ifs at hlast with hk
  · exact hne (by rw [hk]; rfl)
  · exact hlast rfl

theorem Reduced.push {ns : List Text} (h : Reduced ns) {segment : Text} (hs : slash ∉ segment) :
    Reduced (push true ns segment) := by
  obtain ⟨k, rest, rfl, hrest⟩ := h
  by_cases hdot : segment = [] ∨ segment = here
  · rw [PosixPath.push, if_pos hdot]
    exact ⟨k, rest, rfl, hrest⟩
  by_cases habove : segment = above
  · subst habove
    rcases List.eq_nil_or_concat' rest with rfl | ⟨rest, n, rfl⟩
    · refine ⟨k + 1, [], ?_, by simp⟩
      rw [List.append_nil, push_above_replicate, List.replicate_succ', List.append_nil]
    · rw [← List.append_assoc, push_above true (hrest n (by simp)).ne_above]
      exact ⟨k, rest, rfl, fun m hm => hrest m (by simp [hm])⟩
  · rw [PosixPath.push, if_neg hdot, if_neg habove, List.append_assoc]
    refine ⟨k, rest ++ [segment], rfl, fun n hn => ?_⟩
    rcases List.mem_append.1 hn with hn | hn
    · exact hrest n hn
    · rw [List.mem_singleton.1 hn]
      exact ⟨fun h => hdot (.inl h), fun h => hdot (.inr h), habove, hs⟩

theorem reduced_foldl (segments : List Text) (h : ∀ n ∈ segments, slash ∉ n) :
    Reduced (segments.foldl (push true) []) := by
  induction segments using List.reverseRecOn with
  | nil => exact ⟨0, [], rfl, by simp⟩
  | append_singleton segments n ih =>
    rw [List.foldl_append]
    exact (ih fun m hm => h m (by simp [hm])).push (h n (by simp))

/-- The segments that are left lead where all of them do. -/
theorem foldl_push_reduced (segments base : List Text) (h : ∀ n ∈ segments, slash ∉ n) :
    segments.foldl (push false) base
      = (segments.foldl (push true) []).foldl (push false) base := by
  induction segments using List.reverseRecOn with
  | nil => rfl
  | append_singleton segments n ih =>
    have hsegments : ∀ m ∈ segments, slash ∉ m := fun m hm => h m (by simp [hm])
    rw [List.foldl_append, List.foldl_append, ih hsegments]
    obtain ⟨k, rest, hns, hrest⟩ := reduced_foldl segments hsegments
    generalize segments.foldl (push true) [] = ns at hns ⊢
    subst hns
    show push false _ n = (push true _ n).foldl (push false) base
    by_cases hdot : n = [] ∨ n = here
    · rw [push, if_pos hdot, push, if_pos hdot]
    by_cases habove : n = above
    · subst habove
      rcases List.eq_nil_or_concat' rest with rfl | ⟨rest, m, rfl⟩
      · rw [List.append_nil, push_above_replicate, List.foldl_append]
        rfl
      · have hm := hrest m (by simp)
        rw [← List.append_assoc, push_above true hm.ne_above, List.foldl_append, List.foldl_cons,
          List.foldl_nil, push_name hm, push_above false hm.ne_above]
    · have hpush : ∀ allow names, push allow names n = names ++ [n] := fun allow names => by
        rw [push, if_neg hdot, if_neg habove]
      rw [hpush, hpush, List.foldl_concat, hpush]

end Names

section Normalized

theorem normalizeString_slash_cons (allow : Bool) (s : Text) :
    normalizeString allow (slash :: s) = normalizeString allow s := by
  rw [normalizeString, split_slash_cons, List.foldl_cons]
  rfl

theorem normalizeString_append_slash (allow : Bool) (s : Text) :
    normalizeString allow (s ++ [slash]) = normalizeString allow s := by
  rw [normalizeString, split_append, List.foldl_append]
  rfl

/-- Names are what they lead to. -/
theorem normalizeString_joined (allow : Bool) {ns : List Text} (h : ∀ n ∈ ns, IsName n) :
    normalizeString allow (joined ns) = ns := by
  cases ns with
  | nil => rfl
  | cons n ns =>
    rw [normalizeString, split_joined (by simp) fun m hm => (h m hm).noSlash,
      foldl_push_names allow _ _ h, List.nil_append]

theorem foldl_push_isName : ∀ (segments base : List Text), (∀ n ∈ segments, slash ∉ n) →
    (∀ n ∈ base, IsName n) → ∀ n ∈ segments.foldl (push false) base, IsName n
  | [], _, _, hbase => hbase
  | segment :: segments, base, h, hbase => by
    obtain ⟨hs, hsegments⟩ := List.forall_mem_cons.1 h
    refine foldl_push_isName segments _ hsegments ?_
    simp only [push, Bool.false_eq_true, if_false]
    split_ifs with hdot habove hpop
    · exact hbase
    · exact fun n hn => hbase n (List.mem_of_mem_dropLast hn)
    · exact hbase
    · intro n hn
      rcases List.mem_append.1 hn with hn | hn
      · exact hbase n hn
      · rw [List.mem_singleton.1 hn]
        exact ⟨fun h => hdot (.inl h), fun h => hdot (.inr h), habove, hs⟩

theorem resolve_isName (s : Text) : ∀ n ∈ resolve s, IsName n :=
  foldl_push_isName _ _ (slash_notMem_of_mem_split s) (by simp)

theorem isAbsolute_iff {s : Text} : isAbsolute s = true ↔ ∃ t, s = slash :: t := by
  cases s with
  | nil => simp [isAbsolute]
  | cons c s => simp [isAbsolute]

/-- A normalized absolute path is one, and leads where it did. -/
theorem isAbsolute_normalize {s : Text} (h : isAbsolute s = true) :
    isAbsolute (normalize s) = true := by
  have hs : s ≠ [] := by
    rintro rfl
    simp [isAbsolute] at h
  simp only [normalize, if_neg hs, h, if_true]
  split <;> rfl

theorem resolve_normalize {s : Text} (h : isAbsolute s = true) :
    resolve (normalize s) = resolve s := by
  have hs : s ≠ [] := by
    rintro rfl
    simp [isAbsolute] at h
  have hnames := resolve_isName s
  simp only [normalize, if_neg hs, h, if_true, Bool.not_true]
  rw [show normalizeString false s = resolve s from rfl]
  by_cases hpath : resolve s = []
  · rw [hpath, if_pos joined_nil]
    rfl
  · rw [if_neg (joined_ne_nil hpath fun n hn => (hnames n hn).ne_nil)]
    have hjoined : resolve (slash :: joined (resolve s)) = resolve s := by
      rw [resolve, normalizeString_slash_cons, normalizeString_joined false hnames]
    split_ifs
    · exact (normalizeString_append_slash false (slash :: joined (resolve s))).trans hjoined
    · rw [List.append_nil]
      exact hjoined

/-- An absolute path leads to its names, then on through the segments of the other one. -/
theorem resolve_append (s t : Text) :
    resolve (s ++ slash :: t) = (split t).foldl (push false) (resolve s) := by
  rw [resolve, normalizeString, split_append, List.foldl_append]
  rfl

/-- A relative path that leads down by its names only. -/
theorem resolve_append_names {s t : Text} {ns : List Text} (ht : normalizeString true t = ns)
    (hns : ∀ n ∈ ns, IsName n) : resolve (s ++ slash :: t) = resolve s ++ ns := by
  rw [resolve_append, foldl_push_reduced _ _ (slash_notMem_of_mem_split t),
    ← foldl_push_names false ns _ hns, ← ht]
  rfl

theorem join_eq {s t : Text} (hs : s ≠ []) (ht : t ≠ []) :
    join s t = normalize (s ++ slash :: t) := by
  rw [join, List.filter_cons_of_pos (by simpa using hs),
    List.filter_cons_of_pos (by simpa using ht), List.filter_nil, joined_cons_cons,
    joined_singleton]

theorem length_common (a b : List Text) :
    ((a.zip (a ++ b)).takeWhile fun e => e.1 = e.2).length = a.length := by
  induction a with
  | nil => rfl
  | cons x a ih =>
    rw [List.cons_append, List.zip_cons_cons, List.takeWhile_cons_of_pos (by simp),
      List.length_cons, List.length_cons, ih]

/-- A path below another is relative to it by the names between them. -/
theorem relative_of_append {s t : Text} {ns : List Text} (h : resolve t = resolve s ++ ns) :
    relative s t = joined ns := by
  simp only [relative, h, length_common, Nat.sub_self, List.replicate_zero, List.nil_append,
    List.drop_left]

end Normalized

end PosixPath
