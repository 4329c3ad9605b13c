import Mathlib

/-!
# Maps as sorted lists of entries

A map is the list of its entries by increasing key, each key once. Two maps that find the same
values are then the same list (`ext`), so that equality of maps, of maps of maps and so on is the
equality of lists. `assignAll` builds a map from entries in any order, in which a later entry of a
key replaces an earlier one (`find_assignAll`).
-/

namespace SortedMap

variable {κ α β : Type} [LinearOrder κ]

def find (k : κ) : List (κ × α) → Option α
  | [] => none
  | e :: m => if k = e.1 then some e.2 else find k m

def assign (k : κ) (v : α) : List (κ × α) → List (κ × α)
  | [] => [(k, v)]
  | e :: m =>
    if k < e.1 then (k, v) :: e :: m
    else if k = e.1 then (k, v) :: m
    else e :: assign k v m

def erase (k : κ) (m : List (κ × α)) : List (κ × α) := m.filter fun e => e.1 ≠ k

def assignAll (m entries : List (κ × α)) : List (κ × α) :=
  entries.foldl (fun m e => assign e.1 e.2 m) m

def mapValues (f : α → β) (m : List (κ × α)) : List (κ × β) := m.map fun e => (e.1, f e.2)

/-- The value of the last entry of a key. -/
def last (k : κ) (entries : List (κ × α)) : Option α := find k entries.reverse

def Sorted (m : List (κ × α)) : Prop := (m.map Prod.fst).Pairwise (· < ·)

@[simp] theorem find_nil (k : κ) : find k ([] : List (κ × α)) = none := rfl

@[simp] theorem find_cons (k : κ) (e : κ × α) (m : List (κ × α)) :
    find k (e :: m) = if k = e.1 then some e.2 else find k m := rfl

@[simp] theorem sorted_nil : Sorted ([] : List (κ × α)) := List.Pairwise.nil

theorem sorted_cons {e : κ × α} {m : List (κ × α)} :
    Sorted (e :: m) ↔ (∀ e' ∈ m, e.1 < e'.1) ∧ Sorted m := by
  simp [Sorted, List.pairwise_cons]

theorem find_append (k : κ) : ∀ m n : List (κ × α), find k (m ++ n) = (find k m).or (find k n)
  | [], _ => rfl
  | e :: m, n => by
    rw [List.cons_append, find_cons, find_cons, find_append k m n]
    split_ifs <;> rfl

theorem find_eq_none {k : κ} : ∀ {m : List (κ × α)}, find k m = none ↔ ∀ e ∈ m, e.1 ≠ k
  | [] => by simp
  | e :: m => by
    rw [find_cons]
    split_ifs with h
    · simp [h]
    · simp [find_eq_none (m := m), Ne.symm h]

theorem find_mem {k : κ} {v : α} : ∀ {m : List (κ × α)}, find k m = some v → (k, v) ∈ m
  | e :: m, h => by
    rw [find_cons] at h
    split_ifs at h with hk
    · obtain ⟨k', v'⟩ := e
      obtain rfl : k = k' := hk
      obtain rfl : v' = v := Option.some.inj h
      exact List.mem_cons_self
    · exact List.mem_cons_of_mem _ (find_mem h)

theorem find_of_mem {k : κ} {v : α} : ∀ {m : List (κ × α)}, Sorted m → (k, v) ∈ m →
    find k m = some v
  | e :: m, hm, h => by
    rw [find_cons]
    rcases List.mem_cons.1 h with rfl | h
    · simp
    · rw [if_neg, find_of_mem (sorted_cons.1 hm).2 h]
      exact fun hk => absurd ((sorted_cons.1 hm).1 _ h) (by simp [hk])

/-- A map is what it finds. -/
theorem ext : ∀ {m n : List (κ × α)}, Sorted m → Sorted n → (∀ k, find k m = find k n) → m = n
  | [], [], _, _, _ => rfl
  | [], e :: n, _, _, h => by simpa using h e.1
  | e :: m, [], _, _, h => by simpa using h e.1
  | (k, v) :: m, (k', v') :: n, hm, hn, h => by
    obtain ⟨hkm, hm'⟩ := sorted_cons.1 hm
    obtain ⟨hkn, hn'⟩ := sorted_cons.1 hn
    have hkk : k = k' := by
      rcases lt_trichotomy k k' with hlt | heq | hlt
      · have hk := h k
        rw [find_cons, if_pos rfl, find_cons, if_neg hlt.ne] at hk
        exact absurd (hkn _ (find_mem hk.symm)) (lt_asymm hlt)
      · exact heq
      · have hk := h k'
        rw [find_cons, if_neg hlt.ne, find_cons, if_pos rfl] at hk
        exact absurd (hkm _ (find_mem hk)) (lt_asymm hlt)
    subst hkk
    have hv : v = v' := by simpa using h k
    have htail : ∀ x, find x m = find x n := by
      intro x
      by_cases hx : x = k
      · subst hx
        rw [find_eq_none.2 fun e he => (hkm e he).ne', find_eq_none.2 fun e he => (hkn e he).ne']
      · simpa [hx] using h x
    rw [hv, ext hm' hn' htail]

section Assign

theorem find_assign (k k' : κ) (v : α) : ∀ m : List (κ × α),
    find k' (assign k v m) = if k' = k then some v else find k' m
  | [] => rfl
  | e :: m => by
    have ih := find_assign k k' v m
    rw [assign]
    by_cases hk : k' = k
    · subst hk
      rw [if_pos rfl] at ih ⊢
      split_ifs with hlt heq
      · simp
      · simp
      · simp [heq, ih]
    · rw [if_neg hk] at ih ⊢
      split_ifs with hlt heq
      · simp [hk]
      · simp [hk, ← heq]
      · simp [ih]

theorem mem_assign {k : κ} {v : α} {e : κ × α} : ∀ {m : List (κ × α)}, e ∈ assign k v m →
    e = (k, v) ∨ e ∈ m
  | [], h => .inl (List.mem_singleton.1 h)
  | a :: m, h => by
    rw [assign] at h
    split_ifs at h with hlt heq
    · exact List.mem_cons.1 h
    · exact (List.mem_cons.1 h).imp_right (List.mem_cons_of_mem _)
    · rcases List.mem_cons.1 h with rfl | h
      · exact .inr List.mem_cons_self
      · exact (mem_assign h).imp_right (List.mem_cons_of_mem _)

theorem sorted_assign (k : κ) (v : α) : ∀ {m : List (κ × α)}, Sorted m → Sorted (assign k v m)
  | [], _ => by simp [assign, sorted_cons]
  | e :: m, h => by
    obtain ⟨he, hm⟩ := sorted_cons.1 h
    rw [assign]
    split_ifs with hlt heq
    · refine sorted_cons.2 ⟨fun e' he' => ?_, h⟩
      rcases List.mem_cons.1 he' with rfl | he'
      · exact hlt
      · exact hlt.trans (he e' he')
    · subst heq
      exact sorted_cons.2 ⟨he, hm⟩
    · refine sorted_cons.2 ⟨fun e' he' => ?_, sorted_assign k v hm⟩
      rcases mem_assign he' with rfl | he'
      · exact lt_of_le_of_ne (not_lt.1 hlt) (Ne.symm heq)
      · exact he e' he'

theorem find_assignAll (k : κ) : ∀ entries m : List (κ × α),
    find k (assignAll m entries) = (last k entries).or (find k m)
  | [], m => rfl
  | e :: entries, m => by
    have ih := find_assignAll k entries (assign e.1 e.2 m)
    rw [assignAll] at ih ⊢
    rw [List.foldl_cons, ih, last, last, List.reverse_cons, find_append, find_assign]
    rcases find k entries.reverse with _ | v
    · by_cases hk : k = e.1 <;> simp [hk]
    · rfl

theorem sorted_assignAll : ∀ (entries : List (κ × α)) {m : List (κ × α)}, Sorted m →
    Sorted (assignAll m entries)
  | [], _, h => h
  | e :: entries, _, h => sorted_assignAll entries (sorted_assign e.1 e.2 h)

theorem mem_assignAll {e : κ × α} : ∀ {entries m : List (κ × α)}, e ∈ assignAll m entries →
    e ∈ entries ∨ e ∈ m
  | [], _, h => .inr h
  | a :: entries, _, h => by
    rcases (mem_assignAll h : e ∈ entries ∨ e ∈ assign a.1 a.2 _) with h | h
    · exact .inl (List.mem_cons_of_mem _ h)
    · rcases mem_assign h with rfl | h
      · exact .inl List.mem_cons_self
      · exact .inr h

end Assign

theorem find_erase (k k' : κ) : ∀ m : List (κ × α),
    find k' (erase k m) = if k' = k then none else find k' m
  | [] => by simp [erase]
  | e :: m => by
    have ih := find_erase k k' m
    rw [erase] at ih ⊢
    by_cases he : e.1 = k
    · rw [List.filter_cons_of_neg (by simpa using he), ih, find_cons, he]
      split_ifs <;> rfl
    · rw [List.filter_cons_of_pos (by simpa using he), find_cons, ih, find_cons]
      split_ifs with h₁ h₂
      · exact absurd (h₁.symm.trans h₂) he
      · rfl
      · rfl
      · rfl

theorem sorted_erase (k : κ) {m : List (κ × α)} (h : Sorted m) : Sorted (erase k m) :=
  List.Pairwise.sublist (List.filter_sublist.map _) h

theorem find_mapValues (f : α → β) (k : κ) : ∀ m : List (κ × α),
    find k (mapValues f m) = (find k m).map f
  | [] => rfl
  | e :: m => by
    rw [mapValues, List.map_cons, find_cons, find_cons, ← mapValues, find_mapValues f k m]
    split_ifs <;> rfl

theorem last_mapValues (f : α → β) (k : κ) (m : List (κ × α)) :
    last k (mapValues f m) = (last k m).map f := by
  rw [last, mapValues, ← List.map_reverse, ← mapValues, find_mapValues, last]

theorem sorted_mapValues (f : α → β) {m : List (κ × α)} (h : Sorted m) :
    Sorted (mapValues f m) := by
  rw [Sorted, mapValues, List.map_map]
  exact h

omit [LinearOrder κ] in
theorem mapValues_mapValues {γ : Type} (g : β → γ) (f : α → β) (m : List (κ × α)) :
    mapValues g (mapValues f m) = mapValues (fun v => g (f v)) m := List.map_map

omit [LinearOrder κ] in
theorem mapValues_congr {f g : α → β} {m : List (κ × α)} (h : ∀ e ∈ m, f e.2 = g e.2) :
    mapValues f m = mapValues g m :=
  List.map_congr_left fun e he => by rw [h e he]

theorem mapValues_assignAll (f : α → β) (entries : List (κ × α)) :
    mapValues f (assignAll [] entries) = assignAll [] (mapValues f entries) := by
  refine ext (sorted_mapValues f (sorted_assignAll entries sorted_nil))
    (sorted_assignAll _ sorted_nil) fun k => ?_
  rw [find_mapValues, find_assignAll, find_assignAll, last_mapValues]
  simp

theorem last_mem {k : κ} {v : α} {entries : List (κ × α)} (h : last k entries = some v) :
    (k, v) ∈ entries :=
  List.mem_reverse.1 (find_mem h)

/-- A map has one entry of each key. -/
theorem last_of_sorted {m : List (κ × α)} (h : Sorted m) (k : κ) : last k m = find k m := by
  rcases hlast : last k m with _ | v
  · refine (find_eq_none.2 fun e he => ?_).symm
    exact find_eq_none.1 hlast e (List.mem_reverse.2 he)
  · exact (find_of_mem h (last_mem hlast)).symm

/-- A map is made of its own entries. -/
theorem assignAll_self {m : List (κ × α)} (h : Sorted m) : assignAll [] m = m := by
  refine ext (sorted_assignAll _ sorted_nil) h fun k => ?_
  rw [find_assignAll, find_nil, Option.or_none]
  exact last_of_sorted h k

/-- Two lists of entries make the same map if the last entries of each key are the same. -/
theorem assignAll_eq_iff {entries entries' : List (κ × α)} :
    assignAll [] entries = assignAll [] entries' ↔ ∀ k, last k entries = last k entries' := by
  constructor
  · intro h k
    simpa [find_assignAll] using congrArg (find k) h
  · intro h
    refine ext (sorted_assignAll _ sorted_nil) (sorted_assignAll _ sorted_nil) fun k => ?_
    rw [find_assignAll, find_assignAll, h k]

end SortedMap
