import Mathlib

/-!
# The highest of a set

What a search that may find nothing has to give: an element of the set that none of it is above, or
nothing when the set is empty. The first hit in a list in descending order is one
(`isHighest_find?`), and what is chosen from a part that reaches as high as the whole is the highest
of the whole (`IsHighest.of_subset`).
-/

namespace Highest

variable {α β : Type*} {key : α → β}

def IsHighest [Preorder β] (key : α → β) (s : Set α) : Option α → Prop
  | none => ∀ a, a ∉ s
  | some a => a ∈ s ∧ ∀ b ∈ s, key b ≤ key a

theorem isHighest_find? [Preorder β] {p : α → Bool} {l : List α}
    (hl : l.Pairwise fun a b => key b ≤ key a) :
    IsHighest key {a | a ∈ l ∧ p a = true} (l.find? p) := by
  induction l with
  | nil => exact fun a ha => absurd ha.1 List.not_mem_nil
  | cons a l ih =>
    obtain ⟨ha, hl⟩ := List.pairwise_cons.1 hl
    rw [List.find?_cons]
    split
    · rename_i hp
      refine ⟨⟨List.mem_cons_self, hp⟩, fun b hb => ?_⟩
      rcases List.mem_cons.1 hb.1 with rfl | hmem
      · exact le_rfl
      · exact ha b hmem
    · rename_i hp
      -- the first element is not of the set
      have hset : {b | b ∈ a :: l ∧ p b = true} = {b | b ∈ l ∧ p b = true} := by
        ext b
        simp only [Set.mem_ofPred_eq, List.mem_cons]
        constructor
        · rintro ⟨rfl | hb, hpb⟩
          · exact absurd hpb (by simp [hp])
          · exact ⟨hb, hpb⟩
        · exact fun hb => ⟨.inr hb.1, hb.2⟩
      rw [hset]
      exact ih hl

theorem IsHighest.of_subset [Preorder β] {s t : Set α} {x : Option α} (h : IsHighest key s x)
    (hsub : s ⊆ t) (hreach : ∀ b ∈ t, ∃ a ∈ s, key b ≤ key a) : IsHighest key t x := by
  cases x with
  | none =>
    intro b hb
    obtain ⟨a, ha, -⟩ := hreach b hb
    exact h a ha
  | some c =>
    refine ⟨hsub h.1, fun b hb => ?_⟩
    obtain ⟨a, ha, hle⟩ := hreach b hb
    exact hle.trans (h.2 a ha)

theorem IsHighest.unique [PartialOrder β] {s : Set α} (hinj : Set.InjOn key s) {x y : Option α}
    (hx : IsHighest key s x) (hy : IsHighest key s y) : x = y := by
  cases x with
  | none =>
    cases y with
    | none => rfl
    | some b => exact absurd hy.1 (hx b)
  | some a =>
    cases y with
    | none => exact absurd hx.1 (hy a)
    | some b => rw [hinj hx.1 hy.1 (le_antisymm (hy.2 a hx.1) (hx.2 b hy.1))]

end Highest
