import Mathlib

/-!
# Maps in insertion order

A finite map that remembers the order its keys were first set in: setting a key again keeps its
place, deleting it and setting it again puts it last. Iteration, and with it "the oldest entry",
follows that order.
-/

variable {κ ν : Type} [DecidableEq κ]

structure OrderedMap (κ ν : Type) where
  entries : List (κ × ν)
  nodup : (entries.map Prod.fst).Nodup

namespace OrderedMap

def empty : OrderedMap κ ν := ⟨[], List.nodup_nil⟩

instance : Inhabited (OrderedMap κ ν) := ⟨empty⟩

def size (m : OrderedMap κ ν) : ℕ := m.entries.length

def keys (m : OrderedMap κ ν) : List κ := m.entries.map Prod.fst

def values (m : OrderedMap κ ν) : List ν := m.entries.map Prod.snd

def get (m : OrderedMap κ ν) (k : κ) : Option ν :=
  (m.entries.find? fun e => e.1 = k).map Prod.snd

def has (m : OrderedMap κ ν) (k : κ) : Bool := m.entries.any fun e => e.1 = k

/-- The keys of a list whose values at `k` are replaced are those of the list. -/
theorem map_fst_replace (l : List (κ × ν)) (k : κ) (v : ν) :
    (l.map fun e => if e.1 = k then (k, v) else e).map Prod.fst = l.map Prod.fst := by
  rw [List.map_map]
  refine List.map_congr_left fun e _ => ?_
  by_cases h : e.1 = k <;> simp [h]

def set (m : OrderedMap κ ν) (k : κ) (v : ν) : OrderedMap κ ν :=
  if h : m.has k = true then
    { entries := m.entries.map fun e => if e.1 = k then (k, v) else e
      nodup := by
        rw [map_fst_replace]
        exact m.nodup }
  else
    { entries := m.entries ++ [(k, v)]
      nodup := by
        simp only [has, List.any_eq_true, decide_eq_true_eq, not_exists, not_and] at h
        rw [List.map_append, List.nodup_append]
        refine ⟨m.nodup, by simp, ?_⟩
        intro a ha b hb
        obtain ⟨e, he, rfl⟩ := List.mem_map.1 ha
        simp only [List.map_cons, List.map_nil, List.mem_singleton] at hb
        subst hb
        exact h e he }

def delete (m : OrderedMap κ ν) (k : κ) : OrderedMap κ ν where
  entries := m.entries.filter fun e => e.1 ≠ k
  nodup := m.nodup.sublist (List.filter_sublist.map _)

/-- Change the value of a key in place, if it has one. -/
def modify (m : OrderedMap κ ν) (k : κ) (f : ν → ν) : OrderedMap κ ν where
  entries := m.entries.map fun e => if e.1 = k then (e.1, f e.2) else e
  nodup := by
    have h : (m.entries.map fun e => if e.1 = k then (e.1, f e.2) else e).map Prod.fst =
        m.entries.map Prod.fst := by
      rw [List.map_map]
      refine List.map_congr_left fun e _ => ?_
      by_cases hk : e.1 = k <;> simp [hk]
    rw [h]
    exact m.nodup

/-- The entries that satisfy a test, in their order. -/
def filter (m : OrderedMap κ ν) (p : κ × ν → Bool) : OrderedMap κ ν where
  entries := m.entries.filter p
  nodup := m.nodup.sublist (List.filter_sublist.map _)

/-- The map without its oldest entries, up to the first that fails a test. -/
def dropWhile (m : OrderedMap κ ν) (p : κ × ν → Bool) : OrderedMap κ ν where
  entries := m.entries.dropWhile p
  nodup := m.nodup.sublist ((List.dropWhile_sublist p).map _)

/-- The map without its `n` oldest entries. -/
def drop (m : OrderedMap κ ν) (n : ℕ) : OrderedMap κ ν where
  entries := m.entries.drop n
  nodup := m.nodup.sublist ((List.drop_sublist n _).map _)

variable {m : OrderedMap κ ν} {k k' : κ} {v v' : ν}

theorem get_eq_some_iff : m.get k = some v ↔ (k, v) ∈ m.entries := by
  constructor
  · intro h
    simp only [get, Option.map_eq_some_iff] at h
    obtain ⟨e, he, rfl⟩ := h
    have hk : e.1 = k := by simpa using List.find?_some he
    rw [← hk]
    exact List.mem_of_find?_eq_some he
  · intro h
    rcases hf : m.entries.find? fun e => e.1 = k with _ | e
    · exact absurd (List.find?_eq_none.1 hf (k, v) h) (by simp)
    · have hek : e.1 = k := by simpa using List.find?_some hf
      have heq : e = (k, v) :=
        List.inj_on_of_nodup_map m.nodup (List.mem_of_find?_eq_some hf) h hek
      simp [get, hf, heq]

theorem has_eq_true_iff : m.has k = true ↔ ∃ v, m.get k = some v := by
  simp only [has, List.any_eq_true, decide_eq_true_eq, get_eq_some_iff]
  constructor
  · rintro ⟨⟨k', v⟩, he, rfl⟩
    exact ⟨v, he⟩
  · rintro ⟨v, he⟩
    exact ⟨(k, v), he, rfl⟩

theorem has_eq_false_iff : m.has k = false ↔ m.get k = none := by
  rw [← Bool.not_eq_true, has_eq_true_iff, Option.eq_none_iff_forall_ne_some]
  simp

theorem has_eq_of_get_eq {m m' : OrderedMap κ ν} (h : m.get = m'.get) (k : κ) :
    m.has k = m'.has k := by
  cases hhas : m'.has k with
  | false => rw [has_eq_false_iff, h, ← has_eq_false_iff, hhas]
  | true => rw [has_eq_true_iff, h, ← has_eq_true_iff, hhas]

@[simp]
theorem get_empty : (empty : OrderedMap κ ν).get k = none := rfl

theorem get_set : (m.set k v).get k' = if k' = k then some v else m.get k' := by
  ext w
  rw [get_eq_some_iff]
  unfold set
  split_ifs with hh hk hk
  · obtain ⟨u, hu⟩ := has_eq_true_iff.1 hh
    have hmem := get_eq_some_iff.1 hu
    subst hk
    simp only [List.mem_map, Option.some.injEq]
    constructor
    · rintro ⟨e, -, he⟩
      by_cases hek : e.1 = k'
      · simp only [hek, if_true, Prod.mk.injEq, true_and] at he
        exact he
      · simp only [hek, if_false] at he
        exact absurd (by rw [he]) hek
    · rintro rfl
      exact ⟨(k', u), hmem, by simp⟩
  · simp only [List.mem_map, get_eq_some_iff]
    constructor
    · rintro ⟨e, he, h⟩
      by_cases hek : e.1 = k
      · simp only [hek, if_true, Prod.mk.injEq] at h
        exact absurd h.1.symm hk
      · simp only [hek, if_false] at h
        exact h ▸ he
    · intro h
      exact ⟨(k', w), h, by simp [hk]⟩
  · have hn : m.get k = none := has_eq_false_iff.1 (by simpa using hh)
    subst hk
    simp only [List.mem_append, List.mem_singleton, Prod.mk.injEq, true_and, Option.some.injEq]
    constructor
    · rintro (h | h)
      · rw [← get_eq_some_iff, hn] at h
        simp at h
      · exact h.symm
    · intro h
      exact .inr h.symm
  · simp [List.mem_append, get_eq_some_iff, hk]

@[simp]
theorem get_set_self : (m.set k v).get k = some v := by rw [get_set, if_pos rfl]

theorem get_set_of_ne (h : k' ≠ k) : (m.set k v).get k' = m.get k' := by rw [get_set, if_neg h]

/-- Setting what a key has already changes nothing. -/
theorem set_of_get (h : m.get k = some v) : m.set k v = m := by
  have hhas : m.has k = true := has_eq_true_iff.2 ⟨v, h⟩
  have hentries : (m.entries.map fun e => if e.1 = k then (k, v) else e) = m.entries := by
    refine (List.map_congr_left fun e he => ?_).trans (List.map_id _)
    split_ifs with hkey
    · have hvalue : m.get k = some e.2 := get_eq_some_iff.2 (hkey ▸ he)
      rw [h, Option.some.injEq] at hvalue
      rw [hvalue, ← hkey]
      rfl
    · rfl
  unfold set
  rw [dif_pos hhas]
  cases m
  simp only [hentries]

theorem get_delete : (m.delete k).get k' = if k' = k then none else m.get k' := by
  ext w
  rw [get_eq_some_iff]
  unfold delete
  split_ifs with h
  · simp [h]
  · simp [h, get_eq_some_iff]

/-- Deleting a key that is not set changes nothing. -/
theorem get_delete_of_not_has (h : m.has k = false) : (m.delete k).get = m.get := by
  funext k'
  rw [get_delete]
  split_ifs with hk
  · rw [hk, has_eq_false_iff.1 h]
  · rfl

theorem get_modify {f : ν → ν} :
    (m.modify k f).get k' = if k' = k then (m.get k').map f else m.get k' := by
  ext w
  rw [get_eq_some_iff]
  simp only [modify, List.mem_map]
  constructor
  · rintro ⟨e, he, h⟩
    by_cases hek : e.1 = k
    · simp only [hek, if_true, Prod.mk.injEq] at h
      obtain ⟨rfl, rfl⟩ := h
      have hget : m.get k = some e.2 := get_eq_some_iff.2 (hek ▸ he)
      rw [if_pos rfl, hget]
      rfl
    · simp only [hek, if_false] at h
      subst h
      rw [if_neg hek]
      exact get_eq_some_iff.2 he
  · intro h
    split_ifs at h with hk
    · obtain ⟨u, hu, rfl⟩ := Option.map_eq_some_iff.1 h
      exact ⟨(k', u), get_eq_some_iff.1 hu, by simp [hk]⟩
    · exact ⟨(k', w), get_eq_some_iff.1 h, by simp [hk]⟩

theorem mem_filter {p : κ × ν → Bool} :
    (m.filter p).get k = some v ↔ m.get k = some v ∧ p (k, v) = true := by
  simp [get_eq_some_iff, filter]

theorem values_set_of_not_has (h : m.has k = false) : (m.set k v).values = m.values ++ [v] := by
  simp [set, values, h]

theorem keys_set_of_not_has (h : m.has k = false) : (m.set k v).keys = m.keys ++ [k] := by
  simp [set, keys, h]

theorem size_set_le : (m.set k v).size ≤ m.size + 1 := by
  unfold set size
  split_ifs <;> simp

theorem size_set_of_has (h : m.has k = true) : (m.set k v).size = m.size := by
  simp [set, size, h]

theorem size_delete_le : (m.delete k).size ≤ m.size := List.length_filter_le _ _

theorem size_delete_lt (h : m.has k = true) : (m.delete k).size < m.size := by
  obtain ⟨w, hw⟩ := has_eq_true_iff.1 h
  have hmem := get_eq_some_iff.1 hw
  unfold delete size
  refine List.length_filter_lt_length_iff_exists.2 ⟨(k, w), hmem, by simp⟩

omit [DecidableEq κ] in
theorem size_filter_le {p : κ × ν → Bool} : (m.filter p).size ≤ m.size := List.length_filter_le _ _

/-- What the dropped front held satisfies the test. -/
theorem get_dropWhile {p : κ × ν → Bool} (h : m.get k = some v) :
    (m.dropWhile p).get k = some v ∨ (m.dropWhile p).get k = none ∧ p (k, v) = true := by
  rw [get_eq_some_iff, ← List.takeWhile_append_dropWhile (p := p) (l := m.entries),
    List.mem_append] at h
  rcases h with h | h
  · refine .inr ⟨?_, List.mem_takeWhile_imp h⟩
    rw [Option.eq_none_iff_forall_ne_some]
    intro w hw
    rw [get_eq_some_iff] at hw
    have hnodup := m.nodup
    rw [← List.takeWhile_append_dropWhile (p := p) (l := m.entries), List.map_append,
      List.nodup_append] at hnodup
    exact hnodup.2.2 k (List.mem_map.2 ⟨_, h, rfl⟩) k (List.mem_map.2 ⟨_, hw, rfl⟩) rfl
  · exact .inl (get_eq_some_iff.2 h)

theorem get_of_get_dropWhile {p : κ × ν → Bool} (h : (m.dropWhile p).get k = some v) :
    m.get k = some v := by
  rw [get_eq_some_iff] at h ⊢
  exact (List.dropWhile_sublist p).subset h

theorem get_of_get_drop {n : ℕ} (h : (m.drop n).get k = some v) : m.get k = some v := by
  rw [get_eq_some_iff] at h ⊢
  exact List.mem_of_mem_drop h

/-- Maps with the same values at every key have the same entries, up to their order. -/
theorem entries_perm_of_get_eq {m m' : OrderedMap κ ν} (h : m.get = m'.get) :
    m.entries.Perm m'.entries := by
  refine (List.perm_ext_iff_of_nodup (.of_map _ m.nodup) (.of_map _ m'.nodup)).2 fun e => ?_
  rw [show e = (e.1, e.2) from rfl, ← get_eq_some_iff, ← get_eq_some_iff, h]

theorem mem_entries_delete {e : κ × ν} : e ∈ (m.delete k).entries ↔ e.1 ≠ k ∧ e ∈ m.entries := by
  simp [delete, and_comm]

/-- Setting a key leaves the other entries as they are. -/
theorem entries_set_perm : (m.set k v).entries.Perm ((k, v) :: (m.delete k).entries) := by
  have hnodup : ((k, v) :: (m.delete k).entries).Nodup := by
    rw [List.nodup_cons, mem_entries_delete]
    exact ⟨fun h => h.1 rfl, .of_map _ (m.delete k).nodup⟩
  refine (List.perm_ext_iff_of_nodup (.of_map _ (m.set k v).nodup) hnodup).2 fun e => ?_
  rw [show e = (e.1, e.2) from rfl, ← get_eq_some_iff, get_set, List.mem_cons, mem_entries_delete,
    ← get_eq_some_iff]
  by_cases hk : e.1 = k
  · simp [Prod.ext_iff, hk, eq_comm]
  · simp [Prod.ext_iff, hk]

theorem delete_of_get_none (h : m.get k = none) : m.delete k = m := by
  have hfilter : m.entries.filter (fun e => e.1 ≠ k) = m.entries := by
    refine List.filter_eq_self.2 fun e he => ?_
    rw [decide_eq_true_eq]
    rintro rfl
    rw [get_eq_some_iff.2 he] at h
    cases h
  cases m
  simp only [delete, hfilter]

omit [DecidableEq κ] in
@[simp]
theorem values_empty : (empty : OrderedMap κ ν).values = [] := rfl

/-- What a key's value adds to the sum over all values. -/
theorem sum_map_delete (f : ν → ℕ) :
    (m.get k).elim 0 f + ((m.delete k).values.map f).sum = (m.values.map f).sum := by
  rcases h : m.get k with _ | v
  · rw [delete_of_get_none h, Option.elim_none, Nat.zero_add]
  · have hperm := ((entries_set_perm (m := m) (k := k) (v := v)).map Prod.snd).map f
    rw [set_of_get h, List.map_cons, List.map_cons] at hperm
    exact hperm.sum_eq.symm

theorem sum_map_set (f : ν → ℕ) :
    ((m.set k v).values.map f).sum = f v + ((m.delete k).values.map f).sum := by
  have hperm := ((entries_set_perm (m := m) (k := k) (v := v)).map Prod.snd).map f
  rw [List.map_cons, List.map_cons] at hperm
  exact hperm.sum_eq

theorem sum_values_delete {m : OrderedMap κ ℕ} :
    (m.get k).getD 0 + (m.delete k).values.sum = m.values.sum := by
  have h := sum_map_delete (m := m) (k := k) id
  rw [List.map_id, List.map_id] at h
  cases hk : m.get k <;> simpa [hk] using h

theorem sum_values_set {m : OrderedMap κ ℕ} {v : ℕ} :
    (m.set k v).values.sum = v + (m.delete k).values.sum := by
  have h := sum_map_set (m := m) (k := k) (v := v) id
  rwa [List.map_id, List.map_id] at h

theorem size_modify {f : ν → ν} : (m.modify k f).size = m.size := List.length_map _

theorem has_modify {f : ν → ν} : (m.modify k f).has k' = m.has k' := by
  rw [Bool.eq_iff_iff, has_eq_true_iff, has_eq_true_iff]
  simp only [get_modify]
  split_ifs <;> simp

theorem mem_values : v ∈ m.values ↔ ∃ k, m.get k = some v := by
  simp [values, get_eq_some_iff]

theorem mem_keys : k ∈ m.keys ↔ m.has k = true := by
  simp [keys, has_eq_true_iff, get_eq_some_iff]

/-- The entries at a key are its value, if it has one. -/
theorem filter_key : m.entries.filter (fun e => e.1 = k) = (m.get k).toList.map (k, ·) := by
  have hnodup : (m.entries.filter fun e => e.1 = k).Nodup := (List.Nodup.of_map _ m.nodup).filter _
  rcases h : m.get k with _ | v
  · rw [Option.toList_none, List.map_nil, List.filter_eq_nil_iff]
    rintro ⟨key, v⟩ hmem hkey
    obtain rfl : key = k := of_decide_eq_true hkey
    rw [get_eq_some_iff.2 hmem] at h
    cases h
  · rw [Option.toList_some, List.map_singleton, ← List.perm_singleton,
      List.perm_ext_iff_of_nodup hnodup (List.nodup_singleton _)]
    rintro ⟨key, w⟩
    rw [List.mem_filter, decide_eq_true_eq, List.mem_singleton, Prod.mk.injEq, and_comm]
    refine and_congr_right fun hkey => ?_
    subst hkey
    rw [← get_eq_some_iff, h, Option.some.injEq, eq_comm]

theorem get_of_size_eq_zero (h : m.size = 0) : m.get k = none := by
  have hnil : m.entries = [] := List.eq_nil_of_length_eq_zero h
  simp [get, hnil]

theorem get_filter {p : κ × ν → Bool} :
    (m.filter p).get k = (m.get k).filter fun v => p (k, v) := by
  ext v
  rw [mem_filter, Option.filter_eq_some_iff]

theorem has_set : (m.set k v).has k' = (decide (k' = k) || m.has k') := by
  rw [Bool.eq_iff_iff, has_eq_true_iff, Bool.or_eq_true, decide_eq_true_eq, has_eq_true_iff,
    get_set]
  by_cases hk : k' = k
  · simp [hk]
  · simp [hk]

theorem has_delete : (m.delete k).has k' = (decide (k' ≠ k) && m.has k') := by
  rw [Bool.eq_iff_iff, has_eq_true_iff, Bool.and_eq_true, decide_eq_true_eq, has_eq_true_iff,
    get_delete]
  by_cases hk : k' = k
  · simp [hk]
  · simp [hk]

end OrderedMap
