import Mathlib

/-!
# Placeholders filled in one after the other

A text is made of letters and of markers. Replacing a marker wherever it is found fills in the
markers of its own kind, and nothing else, when it is found nowhere else (`replaceAll_fill`): not in
what was filled in before, and not across the edge of it or of another marker.
-/

namespace Replacing

variable {α : Type*} [DecidableEq α]

/-- The occurrences of `search` from the left, without overlap, are replaced by what `replacement`
makes of the text before and after them. -/
def replaceFrom (search : List α) (replacement : List α → List α → List α) :
    List α → ℕ → List α → List α
  | _, _, [] => []
  | before, skip + 1, c :: rest => replaceFrom search replacement (before ++ [c]) skip rest
  | before, 0, c :: rest =>
    if search.isPrefixOf (c :: rest) then
      replacement before ((c :: rest).drop search.length)
        ++ replaceFrom search replacement (before ++ [c]) (search.length - 1) rest
    else c :: replaceFrom search replacement (before ++ [c]) 0 rest

def replaceAll (search : List α) (replacement : List α → List α → List α) (s : List α) : List α :=
  replaceFrom search replacement [] 0 s

inductive Token (α : Type*) where
  | literal (c : α)
  | marker (m : List α)
  deriving DecidableEq

/-- A token once the markers of `done` are filled in. -/
def Token.text (value : List α → List α) (done : List (List α)) : Token α → List α
  | literal c => [c]
  | marker m => if m ∈ done then value m else m

def fill (value : List α → List α) (done : List (List α)) (tokens : List (Token α)) : List α :=
  tokens.flatMap (Token.text value done)

/-- All markers filled in at once. -/
def fillAll (value : List α → List α) (tokens : List (Token α)) : List α :=
  tokens.flatMap fun
    | .literal c => [c]
    | .marker m => value m

/-- The markers from the left. -/
def markers (tokens : List (Token α)) : List (List α) :=
  tokens.filterMap fun
    | .literal _ => none
    | .marker m => some m

/-- The marker begins nowhere in `text`, which `after` follows. -/
def absent (m text after : List α) : Bool :=
  text.tails.all fun tail => tail.isEmpty || !m.isPrefixOf (tail ++ after)

/-- Once the markers of `done` are filled in, `m` is found where a token is that marker and has not
been filled in, and nowhere else. -/
def alone (value : List α → List α) (done : List (List α)) (m : List α) : List (Token α) → Bool
  | [] => true
  | t :: rest =>
    ((t = .marker m && m ∉ done) || absent m (t.text value done) (fill value done rest))
      && alone value done m rest

theorem replaceFrom_skip {search : List α} {replacement : List α → List α → List α} :
    ∀ (s t before : List α), replaceFrom search replacement before s.length (s ++ t)
      = replaceFrom search replacement (before ++ s) 0 t
  | [], t, before => by simp
  | c :: s, t, before => by
    rw [List.length_cons, List.cons_append, replaceFrom, replaceFrom_skip s t]
    simp

theorem absent_cons {m : List α} {c : α} {s after : List α} :
    absent m (c :: s) after = true
      ↔ m.isPrefixOf (c :: (s ++ after)) = false ∧ absent m s after = true := by
  simp [absent]

theorem replaceFrom_absent {search : List α} {replacement : List α → List α → List α} {t : List α} :
    ∀ (s before : List α), absent search s t = true →
      replaceFrom search replacement before 0 (s ++ t)
        = s ++ replaceFrom search replacement (before ++ s) 0 t
  | [], before, _ => by simp
  | c :: s, before, h => by
    obtain ⟨hnot, hrest⟩ := absent_cons.1 h
    rw [List.cons_append, replaceFrom, hnot, if_neg Bool.false_ne_true,
      replaceFrom_absent s _ hrest]
    simp

theorem fill_cons (value : List α → List α) (done : List (List α)) (t : Token α)
    (tokens : List (Token α)) :
    fill value done (t :: tokens) = t.text value done ++ fill value done tokens := rfl

/-- A pass that finds the marker in its own places alone fills them in. -/
theorem replaceAll_fill {value : List α → List α} {done : List (List α)} {m : List α} (hm : m ≠ [])
    {replacement : List α → List α → List α} (hvalue : ∀ b a, replacement b a = value m)
    {tokens : List (Token α)} (h : alone value done m tokens = true) :
    replaceAll m replacement (fill value done tokens) = fill value (m :: done) tokens := by
  unfold replaceAll
  generalize ([] : List α) = before
  induction tokens generalizing before with
  | nil => rfl
  | cons t rest ih =>
    rw [alone, Bool.and_eq_true, Bool.or_eq_true] at h
    obtain ⟨hhere, hrest⟩ := h
    rw [fill_cons, fill_cons]
    by_cases hown : t = .marker m ∧ m ∉ done
    · obtain ⟨rfl, hdone⟩ := hown
      cases m with
      | nil => exact absurd rfl hm
      | cons c m =>
        have hprefix : (c :: m).isPrefixOf (c :: (m ++ fill value done rest)) = true := by
          rw [← List.cons_append]
          exact List.isPrefixOf_iff_prefix.2 (List.prefix_append _ _)
        simp only [Token.text, hdone, if_false, List.mem_cons, true_or, if_true, List.cons_append]
        rw [replaceFrom, hprefix, if_pos rfl, hvalue, List.length_cons, Nat.add_sub_cancel,
          replaceFrom_skip, ih hrest]
    · have habsent : absent m (t.text value done) (fill value done rest) = true := by
        refine hhere.resolve_left fun h => hown ?_
        simpa using h
      rw [replaceFrom_absent _ _ habsent, ih hrest]
      congr 1
      cases t with
      | literal c => rfl
      | marker m' =>
        -- another marker, or one that has been filled in
        simp only [Token.text, List.mem_cons]
        by_cases heq : m' = m
        · subst heq
          have : m' ∈ done := not_not.1 fun hnot => hown ⟨rfl, hnot⟩
          simp [this]
        · simp [heq]

/-- When every marker has been filled in, it does not matter in which order. -/
theorem fill_of_mem {value : List α → List α} {done : List (List α)} {tokens : List (Token α)}
    (h : ∀ m ∈ markers tokens, m ∈ done) :
    fill value done tokens = fillAll value tokens := by
  induction tokens with
  | nil => rfl
  | cons t rest ih =>
    rw [fill_cons]
    cases t with
    | literal c =>
      rw [ih fun m hm => h m hm]
      rfl
    | marker m =>
      have hmem : m ∈ done := h m (by simp [markers])
      rw [ih fun m' hm' => h m' (by
        simp only [markers, List.filterMap_cons, List.mem_cons] at hm' ⊢
        exact .inr hm')]
      simp [Token.text, hmem, fillAll]

end Replacing
