import Mathlib

/-!
# Decimal numerals

The value of a string of digits, over any type of characters. Two numerals of one value that have
no zero in front are the same (`value_injective`).
-/

namespace Decimals

variable {α : Type*} {digit : α → ℕ}

/-- The value of a string of digits, the most significant first. -/
def value (digit : α → ℕ) (s : List α) : ℕ := Nat.ofDigits 10 (s.reverse.map digit)

@[simp]
theorem value_nil : value digit [] = 0 := rfl

/-- Digits without a zero in front. -/
structure Leading (digit : α → ℕ) (s : List α) : Prop where
  digits : ∀ c ∈ s, digit c < 10
  head : ∀ c ∈ s.head?, digit c ≠ 0

theorem Leading.digits_value {s : List α} (hs : Leading digit s) :
    Nat.digits 10 (value digit s) = s.reverse.map digit := by
  refine Nat.digits_ofDigits 10 (by norm_num) _ (by simpa using hs.digits) fun hne => ?_
  rw [List.getLast_map, List.getLast_reverse]
  exact hs.head _ (List.head?_eq_some_head _)

theorem value_injective {s t : List α} (hs : Leading digit s) (ht : Leading digit t)
    (hinj : ∀ a ∈ s, ∀ b ∈ t, digit a = digit b → a = b) (h : value digit s = value digit t) :
    s = t := by
  have hmap : s.reverse.map digit = t.reverse.map digit := by
    rw [← hs.digits_value, ← ht.digits_value, h]
  rw [List.map_reverse, List.map_reverse, List.reverse_inj] at hmap
  clear hs ht h
  induction s generalizing t with
  | nil => exact (List.map_eq_nil_iff.1 hmap.symm).symm
  | cons a s ih =>
    cases t with
    | nil => simp at hmap
    | cons b t =>
      rw [List.map_cons, List.map_cons, List.cons.injEq] at hmap
      rw [hinj a List.mem_cons_self b List.mem_cons_self hmap.1,
        ih (fun a ha b hb => hinj a (List.mem_cons_of_mem _ ha) b (List.mem_cons_of_mem _ hb))
          hmap.2]

end Decimals
