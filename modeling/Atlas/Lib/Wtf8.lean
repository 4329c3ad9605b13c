import Atlas.Lib.CodeUnits

/-!
# UTF-8 that tolerates surrogates

The code points of a text pair the surrogates that can be paired, and each is written in as few
bytes as it takes, a lone surrogate too. A text is made of its code points (`flatMap_units`), and
code points are those of their text unless two of them are surrogates that would be paired
(`codePoints_flatMap`).
-/

namespace Wtf8

open CodeUnits (Text)

def IsHigh (c : ℕ) : Prop := 0xd800 ≤ c ∧ c ≤ 0xdbff

def IsLow (c : ℕ) : Prop := 0xdc00 ≤ c ∧ c ≤ 0xdfff

instance (c : ℕ) : Decidable (IsHigh c) := inferInstanceAs (Decidable (_ ∧ _))

instance (c : ℕ) : Decidable (IsLow c) := inferInstanceAs (Decidable (_ ∧ _))

/-- The code point of a surrogate pair. -/
def pair (high low : ℕ) : ℕ := 0x10000 + (high - 0xd800) * 0x400 + (low - 0xdc00)

def codePoints : Text → List ℕ
  | [] => []
  | [unit] => [unit.toNat]
  | first :: second :: rest =>
    if IsHigh first.toNat ∧ IsLow second.toNat then
      pair first.toNat second.toNat :: codePoints rest
    else first.toNat :: codePoints (second :: rest)

/-- The code units of a code point. -/
def units (c : ℕ) : Text :=
  if c ≤ 0xffff then [.ofNat c]
  else [.ofNat (0xd800 + (c - 0x10000) / 0x400), .ofNat (0xdc00 + (c - 0x10000) % 0x400)]

/-- The shortest form of a code point. -/
def utf8 (c : ℕ) : List UInt8 :=
  if c ≤ 0x7f then [.ofNat c]
  else if c ≤ 0x7ff then [.ofNat (0xc0 + c / 0x40), .ofNat (0x80 + c % 0x40)]
  else if c ≤ 0xffff then
    [.ofNat (0xe0 + c / 0x1000), .ofNat (0x80 + c / 0x40 % 0x40), .ofNat (0x80 + c % 0x40)]
  else
    [.ofNat (0xf0 + c / 0x40000), .ofNat (0x80 + c / 0x1000 % 0x40),
      .ofNat (0x80 + c / 0x40 % 0x40), .ofNat (0x80 + c % 0x40)]

/-- No two neighbours are surrogates that would be paired. -/
def Unpaired (cs : List ℕ) : Prop := cs.IsChain fun c d => ¬(IsHigh c ∧ IsLow d)

theorem units_toNat (u : UInt16) : units u.toNat = [u] := by
  have hu := u.toNat_lt
  rw [units, if_pos (by omega), UInt16.ofNat_toNat]

theorem toNat_unit {n : ℕ} (h : n ≤ 0xffff) : (UInt16.ofNat n).toNat = n := by
  rw [UInt16.toNat_ofNat']
  exact Nat.mod_eq_of_lt (by omega)

theorem pair_range {high low : ℕ} (hhigh : IsHigh high) (hlow : IsLow low) :
    0x10000 ≤ pair high low ∧ pair high low ≤ 0x10ffff := by
  unfold IsHigh at hhigh
  unfold IsLow at hlow
  unfold pair
  omega

theorem units_pair {high low : UInt16} (hhigh : IsHigh high.toNat) (hlow : IsLow low.toNat) :
    units (pair high.toNat low.toNat) = [high, low] := by
  have hrange := pair_range hhigh hlow
  unfold IsHigh at hhigh
  unfold IsLow at hlow
  have hfirst : 0xd800 + (pair high.toNat low.toNat - 0x10000) / 0x400 = high.toNat := by
    unfold pair
    omega
  have hsecond : 0xdc00 + (pair high.toNat low.toNat - 0x10000) % 0x400 = low.toNat := by
    unfold pair
    omega
  rw [units, if_neg (by omega), hfirst, hsecond, UInt16.ofNat_toNat, UInt16.ofNat_toNat]

/-- A text is the units of its code points. -/
theorem flatMap_units (text : Text) : (codePoints text).flatMap units = text := by
  fun_induction codePoints text with
  | case1 => rfl
  | case2 unit => rw [List.flatMap_singleton, units_toNat]
  | case3 first second rest hpair ih =>
    rw [List.flatMap_cons, units_pair hpair.1 hpair.2, ih]
    rfl
  | case4 first second rest hpair ih =>
    rw [List.flatMap_cons, units_toNat, ih]
    rfl

theorem codePoints_le (text : Text) : ∀ c ∈ codePoints text, c ≤ 0x10ffff := by
  have hunit : ∀ u : UInt16, u.toNat ≤ 0x10ffff := fun u => by
    have := u.toNat_lt
    omega
  fun_induction codePoints text with
  | case1 => simp
  | case2 unit => simpa using hunit unit
  | case3 first second rest hpair ih =>
    exact List.forall_mem_cons.2 ⟨(pair_range hpair.1 hpair.2).2, ih⟩
  | case4 first second rest hpair ih => exact List.forall_mem_cons.2 ⟨hunit first, ih⟩

/-- The code points of a text do not stand for a shorter one. -/
theorem unpaired_codePoints (text : Text) : Unpaired (codePoints text) := by
  unfold Unpaired
  fun_induction codePoints text with
  | case1 => exact .nil
  | case2 unit => exact .singleton _
  | case3 first second rest hpair ih =>
    have hrange := pair_range hpair.1 hpair.2
    refine List.isChain_cons.2 ⟨fun d hd h => ?_, ih⟩
    have := h.1.2
    omega
  | case4 first second rest hpair ih =>
    refine List.isChain_cons.2 ⟨fun d hd h => ?_, ih⟩
    -- the next code point is the next unit, or of a pair and so no surrogate
    cases rest with
    | nil =>
      obtain rfl : second.toNat = d := by simpa [codePoints] using hd
      exact hpair h
    | cons third rest =>
      rw [codePoints] at hd
      split_ifs at hd with hnext
      · obtain rfl : pair second.toNat third.toNat = d := by simpa using hd
        have hrange := pair_range hnext.1 hnext.2
        have := h.2.2
        omega
      · obtain rfl : second.toNat = d := by simpa using hd
        exact hpair h

theorem codePoints_cons {u : UInt16} {text : Text}
    (h : ∀ v ∈ text.head?, ¬(IsHigh u.toNat ∧ IsLow v.toNat)) :
    codePoints (u :: text) = u.toNat :: codePoints text := by
  cases text with
  | nil => rfl
  | cons v text => rw [codePoints, if_neg (h v rfl)]

/-- The first unit of a code point is low only if the code point is. -/
theorem low_of_head {c : ℕ} (hc : c ≤ 0x10ffff) {text : Text} {v : UInt16}
    (hv : v ∈ (units c ++ text).head?) (hlow : IsLow v.toNat) : IsLow c := by
  unfold units at hv
  split_ifs at hv with hsmall
  · obtain rfl : UInt16.ofNat c = v := by simpa using hv
    rwa [toNat_unit hsmall] at hlow
  · obtain rfl : UInt16.ofNat (0xd800 + (c - 0x10000) / 0x400) = v := by simpa using hv
    rw [toNat_unit (by omega)] at hlow
    have := hlow.1
    omega

/-- Code points that would not be paired are those of their text. -/
theorem codePoints_flatMap : ∀ {cs : List ℕ}, (∀ c ∈ cs, c ≤ 0x10ffff) → Unpaired cs →
    codePoints (cs.flatMap units) = cs
  | [], _, _ => rfl
  | c :: cs, hle, hcs => by
    obtain ⟨hc, hle⟩ := List.forall_mem_cons.1 hle
    obtain ⟨hnext, hcs⟩ := List.isChain_cons.1 hcs
    have ih := codePoints_flatMap hle hcs
    rw [List.flatMap_cons]
    by_cases hsmall : c ≤ 0xffff
    · rw [units, if_pos hsmall, List.singleton_append, codePoints_cons, toNat_unit hsmall, ih]
      rintro v hv ⟨hhigh, hlow⟩
      rw [toNat_unit hsmall] at hhigh
      cases cs with
      | nil => cases hv
      | cons d cs =>
        rw [List.flatMap_cons] at hv
        exact hnext d rfl ⟨hhigh, low_of_head (hle d List.mem_cons_self) hv hlow⟩
    · have hfirst := toNat_unit (n := 0xd800 + (c - 0x10000) / 0x400) (by omega)
      have hsecond := toNat_unit (n := 0xdc00 + (c - 0x10000) % 0x400) (by omega)
      have hpair : pair (0xd800 + (c - 0x10000) / 0x400) (0xdc00 + (c - 0x10000) % 0x400) = c := by
        unfold pair
        omega
      rw [units, if_neg hsmall, List.cons_append, List.singleton_append, codePoints, hfirst,
        hsecond, if_pos ⟨⟨by omega, by omega⟩, by omega, by omega⟩, hpair, ih]

end Wtf8
