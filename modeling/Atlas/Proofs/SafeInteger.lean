import Atlas.Lib.Rfc3339
import Atlas.Protocol.SafeInteger

/-!
# Reading safe integers

The digits of a number without its leading zeros bound its value from both sides
(`pow_le_natural`, `natural_lt`), so after scaling, what is too long is too large, and what loses
more digits than it has zeros at its end is no integer (`scaledDigits_agrees`). A limited exponent
is the exponent or lies so far beyond the length of the text that both refuse the number
(`parseSafeInteger_agrees`). The limit also keeps every computation within 64 bits.
-/

namespace Atlas.Protocol

open GoJson
open Rfc3339 (natural_cons natural_append natural_lt digit_range)

section Digits

theorem natural_eq : GoJson.natural = Rfc3339.natural := rfl

def Digits (text : Text) : Prop := ∀ c ∈ text, c.isDigit = true

theorem pow_le_natural {c : Char} {text : Text} (hc : c.isDigit = true) (hzero : c ≠ '0') :
    10 ^ text.length ≤ natural (c :: text) := by
  have hrange := digit_range hc
  have hne : c.toNat ≠ 48 := fun h => hzero (Char.toNat_inj.1 h)
  have hone : 1 ≤ c.toNat - '0'.toNat := by
    rw [show '0'.toNat = 48 from rfl]
    omega
  rw [natural_eq, natural_cons]
  exact (Nat.le_mul_of_pos_left _ hone).trans (Nat.le_add_right _ _)

theorem natural_dropWhile_zero : ∀ text : Text,
    natural (text.dropWhile (· = '0')) = natural text
  | [] => rfl
  | c :: text => by
    by_cases hc : c = '0'
    · subst hc
      rw [List.dropWhile_cons_of_pos (by decide), natural_dropWhile_zero text, natural_eq,
        natural_cons]
      simp
    · rw [List.dropWhile_cons_of_neg (by simpa using hc)]

theorem natural_append_zeros (text : Text) (n : ℕ) :
    natural (text ++ List.replicate n '0') = natural text * 10 ^ n := by
  have hzeros : Rfc3339.natural (List.replicate n '0') = 0 := by
    rw [Rfc3339.natural, Nat.ofDigitChars_replicate_zero, Nat.mul_zero]
  rw [natural_eq, natural_append, hzeros, List.length_replicate, Nat.add_zero]

/-- The zeros at the end of a text, and what stands before them. -/
theorem trimRightZeros_append (text : Text) :
    trimRightZeros text ++ List.replicate (text.length - (trimRightZeros text).length) '0'
      = text := by
  have hsplit := congrArg List.reverse (List.takeWhile_append_dropWhile (p := (· = '0'))
    (l := text.reverse))
  rw [List.reverse_append, List.reverse_reverse, ← trimRightZeros] at hsplit
  have hzeros : (text.reverse.takeWhile (· = '0')).reverse
      = List.replicate (text.length - (trimRightZeros text).length) '0' := by
    refine List.eq_replicate_iff.2 ⟨?_, fun c hc => ?_⟩
    · have hlength := congrArg List.length hsplit
      rw [List.length_append] at hlength
      omega
    · simpa using List.mem_takeWhile_imp (List.mem_reverse.1 hc)
  rw [← hzeros]
  exact hsplit

theorem trimRightZeros_last {text : Text} {c : Char} {front : Text}
    (h : trimRightZeros text = front ++ [c]) : c ≠ '0' := by
  have hdrop : text.reverse.dropWhile (· = '0') = c :: front.reverse := by
    rw [← List.reverse_reverse (text.reverse.dropWhile (· = '0')), ← trimRightZeros, h,
      List.reverse_append]
    rfl
  have hhead := List.head?_dropWhile_not (· = '0') text.reverse
  rw [hdrop] at hhead
  simpa using hhead

/-- Digits that end in less zeros than a power of ten has are not a multiple of it. -/
theorem zeros_of_dvd {text : Text} (hdigits : Digits text) (hpos : 0 < natural text) {r : ℕ}
    (hdvd : 10 ^ r ∣ natural text) : r ≤ text.length - (trimRightZeros text).length := by
  by_contra hlt
  push Not at hlt
  obtain ⟨z, hz⟩ : ∃ z, text.length - (trimRightZeros text).length = z := ⟨_, rfl⟩
  have hsplit := trimRightZeros_append text
  rw [hz] at hsplit hlt
  have hvalue : natural text = natural (trimRightZeros text) * 10 ^ z := by
    conv_lhs => rw [← hsplit]
    exact natural_append_zeros _ _
  rcases List.eq_nil_or_concat (trimRightZeros text) with hnil | ⟨front, c, hfront⟩
  · rw [hvalue, hnil] at hpos
    simp [natural] at hpos
  · rw [List.concat_eq_append] at hfront
    have hc : c.isDigit = true := by
      refine hdigits c ?_
      rw [← hsplit, hfront]
      simp
    have hrange := digit_range hc
    have hne : c.toNat ≠ 48 := fun h => trimRightZeros_last hfront (Char.toNat_inj.1 h)
    have hlast : natural (trimRightZeros text) = natural front * 10 + (c.toNat - 48) := by
      rw [hfront, natural_eq, natural_append, natural_cons]
      simp [Rfc3339.natural]
    obtain ⟨k, rfl⟩ := Nat.exists_eq_add_of_lt hlt
    rw [hvalue, show z + k + 1 = 1 + k + z by omega, pow_add] at hdvd
    have hten : 10 ∣ natural (trimRightZeros text) :=
      (Dvd.intro _ (by rw [pow_add, pow_one])).trans
        (Nat.dvd_of_mul_dvd_mul_right (by positivity) hdvd)
    omega

end Digits

section Scaling

/-- The result is the safe integer that the number is, or an error if it is none. -/
def Agrees (x : ℚ) (result : Except IntegerError ℤ) : Prop :=
  (∃ m : ℤ, result = .ok m ∧ x = m ∧ |m| ≤ maxSafeInteger) ∨
    (∃ message, result = .error (.failed message)) ∧ ∀ n : ℤ, x = n → maxSafeInteger < |n|

/-- A text without a leading zero. -/
structure Significant (text : Text) : Prop where
  digits : Digits text
  head : ∃ c cs, text = c :: cs ∧ c ≠ '0'

variable {number digits : Text}

theorem Significant.pow_le (h : Significant digits) {n : ℕ} (hn : n < digits.length) :
    10 ^ n ≤ natural digits := by
  obtain ⟨c, cs, rfl, hc⟩ := h.head
  refine le_trans (Nat.pow_le_pow_right (by norm_num) ?_)
    (pow_le_natural (h.digits c List.mem_cons_self) hc)
  rw [List.length_cons] at hn
  omega

theorem Significant.lt_pow (h : Significant digits) : natural digits < 10 ^ digits.length :=
  natural_lt h.digits

theorem Significant.pos (h : Significant digits) : 0 < natural digits := by
  obtain ⟨c, cs, hcs, -⟩ := h.head
  have hlength : 0 < digits.length := by simp [hcs]
  exact Nat.lt_of_lt_of_le (by norm_num) (h.pow_le hlength)

theorem int_of_range {n : ℤ} (hlow : -2 ^ 63 ≤ n) (hhigh : n < 2 ^ 63) : int n = .ok n :=
  if_pos ⟨hlow, hhigh⟩

/-- What is no safe integer by its size. -/
theorem agrees_of_lt {x : ℚ} {message : String} (h : (maxSafeInteger : ℚ) < x) :
    Agrees x (fail message) := by
  refine .inr ⟨⟨message, rfl⟩, fun n hn => ?_⟩
  rw [hn] at h
  exact (Int.cast_lt.1 h).trans_le (le_abs_self n)

theorem safeMagnitude_agrees (h : Significant digits) :
    Agrees (natural digits) (safeMagnitude number digits) := by
  unfold safeMagnitude
  split_ifs with hlarge
  · refine agrees_of_lt ?_
    have hlt : maxSafeInteger < natural digits := by
      rcases hlarge with hlength | hmax
      · have hpow := h.pow_le hlength
        rw [maxSafeInteger]
        zify at hpow
        norm_num at hpow
        omega
      · exact hmax
    exact_mod_cast hlt
  · obtain ⟨-, hmax⟩ := not_or.1 hlarge
    refine .inl ⟨natural digits, rfl, by simp, ?_⟩
    rw [abs_of_nonneg (Int.natCast_nonneg _)]
    exact not_lt.1 hmax

/-- Digits of which the last ones are zeros, cut off. -/
theorem natural_take {r : ℕ} (hr : r ≤ digits.length - (trimRightZeros digits).length) :
    natural digits = natural (digits.take (digits.length - r)) * 10 ^ r := by
  obtain ⟨z, hz⟩ : ∃ z, digits.length - (trimRightZeros digits).length = z := ⟨_, rfl⟩
  have hsplit := trimRightZeros_append digits
  rw [hz] at hsplit hr
  have hjoin : (trimRightZeros digits ++ List.replicate (z - r) '0') ++ List.replicate r '0'
      = digits := by
    rw [List.append_assoc, List.replicate_append_replicate, Nat.sub_add_cancel hr, hsplit]
  have hlength := congrArg List.length hjoin
  rw [List.length_append, List.length_replicate] at hlength
  have htake : ((trimRightZeros digits ++ List.replicate (z - r) '0') ++ List.replicate r '0').take
      (digits.length - r) = trimRightZeros digits ++ List.replicate (z - r) '0' :=
    List.take_left' (by omega)
  rw [hjoin] at htake
  rw [htake, ← natural_append_zeros, hjoin]

theorem Significant.take (h : Significant digits) {n : ℕ} (hn : 0 < n) :
    Significant (digits.take n) := by
  obtain ⟨c, cs, rfl, hc⟩ := h.head
  obtain ⟨n, rfl⟩ := Nat.exists_eq_succ_of_ne_zero hn.ne'
  exact ⟨fun d hd => h.digits d (List.mem_of_mem_take hd), c, cs.take n, rfl, hc⟩

theorem Significant.append_zeros (h : Significant digits) (n : ℕ) :
    Significant (digits ++ List.replicate n '0') := by
  obtain ⟨c, cs, rfl, hc⟩ := h.head
  refine ⟨fun d hd => ?_, c, cs ++ List.replicate n '0', rfl, hc⟩
  rcases List.mem_append.1 hd with hd | hd
  · exact h.digits d hd
  · rw [List.eq_of_mem_replicate hd]
    rfl

/-- A multiple of a power of ten has more digits than the power, and as many zeros at its end. -/
theorem Significant.of_eq_mul (h : Significant digits) {r : ℕ} {n : ℤ}
    (hn : (natural digits : ℤ) = n * 10 ^ r) :
    r < digits.length ∧ r ≤ digits.length - (trimRightZeros digits).length := by
  have hdvd : 10 ^ r ∣ natural digits := by
    have : ((10 ^ r : ℕ) : ℤ) ∣ (natural digits : ℤ) := ⟨n, by rw [hn]; push_cast; ring⟩
    exact_mod_cast this
  refine ⟨?_, zeros_of_dvd h.digits h.pos hdvd⟩
  have hle := (Nat.le_of_dvd h.pos hdvd).trans_lt h.lt_pow
  exact (Nat.pow_lt_pow_iff_right (by norm_num)).1 hle

theorem scaledDigits_agrees (h : Significant digits) {scale : ℤ} (hlow : -2 ^ 62 ≤ scale)
    (hhigh : scale < 2 ^ 62) (hlength : digits.length < 2 ^ 62) :
    Agrees (natural digits * 10 ^ scale)
      (scaledDigits number digits scale >>= safeMagnitude number) := by
  unfold scaledDigits
  split_ifs with hneg hpos
  · obtain ⟨r, rfl⟩ : ∃ r : ℕ, scale = -r := ⟨(-scale).toNat, by omega⟩
    rw [neg_neg, int_of_range (by omega) (by omega)]
    have hexact : ∀ n : ℤ, (natural digits : ℚ) * 10 ^ (-r : ℤ) = n →
        (natural digits : ℤ) = n * 10 ^ r := by
      intro n hn
      rw [zpow_neg, zpow_natCast, mul_inv_eq_iff_eq_mul₀ (by positivity)] at hn
      exact_mod_cast hn
    change Agrees _ ((if _ then _ else _) >>= _)
    split_ifs with hcut
    · refine .inr ⟨⟨_, rfl⟩, fun n hn => ?_⟩
      obtain ⟨hr, hzeros⟩ := h.of_eq_mul (hexact n hn)
      rcases hcut with hcut | hcut <;> omega
    · obtain ⟨hr, hzeros⟩ := not_or.1 hcut
      rw [Int.toNat_natCast] at hzeros ⊢
      have htake := natural_take (not_lt.1 hzeros)
      have hvalue : (natural digits : ℚ) * 10 ^ (-r : ℤ)
          = natural (digits.take (digits.length - r)) := by
        rw [zpow_neg, zpow_natCast, mul_inv_eq_iff_eq_mul₀ (by positivity)]
        exact_mod_cast htake
      rw [hvalue]
      exact safeMagnitude_agrees (h.take (by omega))
  · obtain ⟨k, rfl⟩ : ∃ k : ℕ, scale = k := ⟨scale.toNat, by omega⟩
    rw [int_of_range (by omega) (by omega), zpow_natCast]
    change Agrees _ ((if _ then _ else _) >>= _)
    have hvalue : (natural digits : ℚ) * 10 ^ k = natural (digits ++ List.replicate k '0') := by
      rw [natural_append_zeros]
      push_cast
      rfl
    split_ifs with hlong
    · refine agrees_of_lt ?_
      have hpow := (h.append_zeros k).pow_le (n := 16) (by
        rw [List.length_append, List.length_replicate]
        omega)
      rw [hvalue]
      have hlt : maxSafeInteger < natural (digits ++ List.replicate k '0') := by
        rw [maxSafeInteger]
        zify at hpow
        norm_num at hpow
        omega
      exact_mod_cast hlt
    · rw [Int.toNat_natCast, hvalue]
      exact safeMagnitude_agrees (h.append_zeros k)
  · obtain rfl : scale = 0 := by omega
    rw [zpow_zero, mul_one]
    exact safeMagnitude_agrees h

end Scaling

section Exponent

theorem ok_bind {α β : Type} (a : α) (f : α → Except IntegerError β) :
    (Except.ok a >>= f) = f a := rfl

theorem pure_eq_ok {α : Type} (a : α) : (pure a : Except IntegerError α) = .ok a := rfl

/-- An exponent within a limit. -/
def clamped (limit exponent : ℤ) : ℤ := max (-limit) (min limit exponent)

theorem not_outside {c : Char} (hc : c.isDigit = true) : ¬(c < '0' ∨ '9' < c) := by
  have hrange := digit_range hc
  rw [Rfc3339.char_lt_iff, Rfc3339.char_lt_iff, not_or, not_lt, not_lt]
  exact hrange

theorem digit_le {c : Char} (hc : c.isDigit = true) : c.toNat - '0'.toNat ≤ 9 := by
  have hrange := digit_range hc
  rw [show '0'.toNat = 48 from rfl]
  omega

theorem boundedStep_ok {limit : ℤ} {v : ℕ} {c : Char} (hc : c.isDigit = true) (hpos : 0 < limit)
    (hlimit : 10 * limit < 2 ^ 63) :
    boundedStep limit (min limit v) c = .ok (min limit (10 * v + (c.toNat - '0'.toNat) : ℕ)) := by
  have hd9 := digit_le hc
  rw [boundedStep, if_neg (not_outside hc)]
  generalize c.toNat - '0'.toNat = d at hd9 ⊢
  split_ifs with hlt
  · rw [min_lt_iff] at hlt
    obtain hlt := hlt.resolve_left (lt_irrefl _)
    have htenfold : int ((v : ℤ) * 10) = .ok (v * 10) := int_of_range (by omega) (by omega)
    have hnext : int ((v : ℤ) * 10 + (d : ℕ)) = .ok (10 * v + d : ℕ) := by
      rw [int_of_range (by omega) (by omega)]
      exact congrArg Except.ok (by omega)
    rw [min_eq_right hlt.le, htenfold, ok_bind, hnext, ok_bind, pure_eq_ok]
  · have hge : limit ≤ v := by
      by_contra h
      exact hlt (min_lt_iff.2 (.inr (not_le.1 h)))
    have hge' : limit ≤ (10 * v + d : ℕ) := by omega
    rw [min_eq_left hge, min_eq_left hge']
    rfl

/-- The digits of an exponent are read up to the limit. -/
theorem foldlM_boundedStep {limit : ℤ} (hpos : 0 < limit) (hlimit : 10 * limit < 2 ^ 63) :
    ∀ {text : Text}, Digits text → ∀ v : ℕ, text.foldlM (boundedStep limit) (min limit v)
      = .ok (min limit (Nat.ofDigitChars 10 text v : ℕ))
  | [], _, v => by simp [pure, Except.pure]
  | c :: text, h, v => by
    obtain ⟨hc, htext⟩ := List.forall_mem_cons.1 h
    rw [List.foldlM_cons, boundedStep_ok hc hpos hlimit, Nat.ofDigitChars_cons]
    exact foldlM_boundedStep hpos hlimit htext _

/-- The exponent of a number is read, within the limit. -/
theorem parseBoundedExponent_ok {text : Text} {exponent limit : ℤ}
    (h : readSigned text = some exponent) (hpos : 0 < limit) (hlimit : 10 * limit < 2 ^ 63) :
    parseBoundedExponent text limit = .ok (clamped limit exponent) := by
  rcases text with _ | ⟨c, rest⟩
  · cases h
  rw [readSigned] at h
  have hread : ∀ {digits : Text}, Digits digits →
      digits.foldlM (boundedStep limit) 0 = .ok (min limit (natural digits)) := by
    intro digits hdigits
    have hfold := foldlM_boundedStep hpos hlimit hdigits 0
    rwa [Nat.cast_zero, min_eq_right hpos.le] at hfold
  obtain ⟨digits, hdigits⟩ : ∃ digits, (if c = '+' ∨ c = '-' then rest else c :: rest) = digits :=
    ⟨_, rfl⟩
  simp only [hdigits] at h
  have hgood : ¬(digits = [] ∨ ¬digits.all Char.isDigit = true) := by
    intro hbad
    rw [if_pos hbad] at h
    cases h
  rw [if_neg hgood] at h
  obtain ⟨hne, hall⟩ := not_or.1 hgood
  have hdigit : Digits digits := List.all_eq_true.1 (not_not.1 hall)
  have hplus : ∀ sign : Char, sign.isDigit = false → trimPrefix sign digits = digits := by
    intro sign hsign
    refine if_neg fun hhead => ?_
    obtain ⟨cs, rfl⟩ := List.head?_eq_some_iff.1 hhead
    have := hdigit sign List.mem_cons_self
    rw [hsign] at this
    cases this
  have htrim : trimPrefix '+' (trimPrefix '-' (c :: rest)) = digits := by
    by_cases hminus : c = '-'
    · subst hminus
      rw [if_pos (.inr rfl)] at hdigits
      subst hdigits
      exact hplus '+' rfl
    · have hfirst : trimPrefix '-' (c :: rest) = c :: rest :=
        if_neg fun hhead => hminus (Option.some.inj hhead)
      rw [hfirst]
      by_cases hsign : c = '+'
      · subst hsign
        rw [if_pos (.inl rfl)] at hdigits
        exact hdigits
      · rw [if_neg (not_or.2 ⟨hsign, hminus⟩)] at hdigits
        rw [hdigits]
        exact hplus '+' rfl
  rw [parseBoundedExponent, htrim, if_neg hne, hread hdigit]
  have hnonneg : (0 : ℤ) ≤ natural digits := Int.natCast_nonneg _
  change (if _ then _ else _) = _
  obtain rfl := Option.some.inj h
  by_cases hminus : c = '-'
  · rw [if_pos (by rw [hminus]; rfl), if_pos hminus, int_of_range (by omega) (by omega), clamped]
    exact congrArg Except.ok (by omega)
  · have hhead : ¬(c :: rest).head? = some '-' := fun hhead => hminus (Option.some.inj hhead)
    rw [if_neg hhead, if_neg hminus, clamped]
    exact congrArg Except.ok (by omega)

/-- A positive number below one is no integer. -/
theorem agrees_of_fraction {x : ℚ} {r : Except IntegerError ℤ} (hpos : 0 < x) (hone : x < 1)
    (h : Agrees x r) : ∃ message, r = .error (.failed message) := by
  rcases h with ⟨m, -, hm, -⟩ | ⟨hr, -⟩
  · rw [hm] at hpos hone
    have hzero : (0 : ℤ) < m := by exact_mod_cast hpos
    have hlt : m < (1 : ℤ) := by exact_mod_cast hone
    omega
  · exact hr

/-- Beyond the limit the exponent makes no difference. -/
theorem agrees_of_clamped {digits : Text} (hdigits : Significant digits) {limit e : ℤ} {f : ℕ}
    {r : Except IntegerError ℤ} (hfraction : f + 16 ≤ limit) (hlength : digits.length ≤ limit)
    (h : Agrees (natural digits * 10 ^ (clamped limit e - f)) r) :
    Agrees (natural digits * 10 ^ (e - f)) r := by
  have hlarge : ∀ scale : ℤ, 16 ≤ scale →
      (maxSafeInteger : ℚ) < natural digits * 10 ^ scale := by
    intro scale hscale
    have hone : (1 : ℚ) ≤ natural digits := by exact_mod_cast hdigits.pos
    have hpow : (10 : ℚ) ^ (16 : ℤ) ≤ 10 ^ scale := zpow_le_zpow_right₀ (by norm_num) hscale
    calc (maxSafeInteger : ℚ) < 10 ^ (16 : ℤ) := by norm_num [maxSafeInteger]
      _ ≤ 10 ^ scale := hpow
      _ ≤ natural digits * 10 ^ scale := le_mul_of_one_le_left (by positivity) hone
  have hsmall : ∀ scale : ℤ, scale ≤ -digits.length →
      0 < (natural digits : ℚ) * 10 ^ scale ∧ (natural digits : ℚ) * 10 ^ scale < 1 := by
    intro scale hscale
    have hzero : (0 : ℚ) < natural digits := by exact_mod_cast hdigits.pos
    have hlt : (natural digits : ℚ) < 10 ^ digits.length := by exact_mod_cast hdigits.lt_pow
    have hpow : (10 : ℚ) ^ scale ≤ 10 ^ (-digits.length : ℤ) :=
      zpow_le_zpow_right₀ (by norm_num) hscale
    refine ⟨by positivity, ?_⟩
    calc (natural digits : ℚ) * 10 ^ scale ≤ natural digits * 10 ^ (-digits.length : ℤ) :=
          mul_le_mul_of_nonneg_left hpow hzero.le
      _ < 10 ^ digits.length * 10 ^ (-digits.length : ℤ) :=
          mul_lt_mul_of_pos_right hlt (by positivity)
      _ = 1 := by
          rw [zpow_neg, zpow_natCast]
          exact mul_inv_cancel₀ (by positivity)
  by_cases hhigh : limit < e
  · have hclamped : clamped limit e = limit := by
      rw [clamped]
      omega
    rw [hclamped] at h
    rcases h with ⟨m, -, hm, hmax⟩ | ⟨⟨message, rfl⟩, -⟩
    · have hlt := hlarge (limit - f) (by omega)
      rw [hm] at hlt
      exact absurd (Int.cast_lt.1 hlt) (not_lt.2 ((le_abs_self m).trans hmax))
    · exact agrees_of_lt (hlarge (e - f) (by omega))
  by_cases hlow : e < -limit
  · have hclamped : clamped limit e = -limit := by
      rw [clamped]
      omega
    rw [hclamped] at h
    obtain ⟨hpos, hone⟩ := hsmall (-limit - f) (by omega)
    obtain ⟨message, rfl⟩ := agrees_of_fraction hpos hone h
    obtain ⟨hpos', hone'⟩ := hsmall (e - f) (by omega)
    refine .inr ⟨⟨message, rfl⟩, fun n hn => ?_⟩
    rw [hn] at hpos' hone'
    have hzero : (0 : ℤ) < n := by exact_mod_cast hpos'
    have hlt : n < (1 : ℤ) := by exact_mod_cast hone'
    omega
  · have hclamped : clamped limit e = e := by
      rw [clamped]
      omega
    rwa [hclamped] at h

end Exponent

section Parts

/-- How a JSON number is written. -/
structure Parts (number : Text) (d : Decimal) (fractionText exponentText : Text) : Prop where
  negative : d.negative = decide (number.head? = some '-')
  unsigned : trimPrefix '-' number = (d.integer ++ fractionText) ++ exponentText
  integer : Digits d.integer
  fraction : Digits d.fraction
  point : fractionText = [] ∧ d.fraction = [] ∨ fractionText = '.' :: d.fraction
  exponent : exponentText = [] ∧ d.exponent = 0 ∨
    ∃ c rest, exponentText = c :: rest ∧ isExponentMark c = true ∧
      readSigned rest = some d.exponent

theorem digits_takeWhile (text : Text) : Digits (text.takeWhile Char.isDigit) :=
  fun _ hc => List.mem_takeWhile_imp hc

theorem readFraction_parts {text fraction rest : Text}
    (h : readFraction text = some (fraction, rest)) : Digits fraction ∧
      ∃ point, text = point ++ rest ∧
        (point = [] ∧ fraction = [] ∨ point = '.' :: fraction) := by
  rcases text with _ | ⟨c, text⟩
  · obtain ⟨rfl, rfl⟩ := Prod.mk.inj (Option.some.inj h)
    exact ⟨List.forall_mem_nil _, [], rfl, .inl ⟨rfl, rfl⟩⟩
  rw [readFraction] at h
  split_ifs at h with hpoint hempty
  · obtain ⟨rfl, rfl⟩ := Prod.mk.inj (Option.some.inj h)
    refine ⟨digits_takeWhile text, '.' :: text.takeWhile Char.isDigit, ?_, .inr rfl⟩
    rw [List.cons_append, List.takeWhile_append_dropWhile, hpoint]
  · obtain ⟨rfl, rfl⟩ := Prod.mk.inj (Option.some.inj h)
    exact ⟨List.forall_mem_nil _, [], rfl, .inl ⟨rfl, rfl⟩⟩

theorem readExponent_parts {text : Text} {e : ℤ} (h : readExponent text = some e) :
    text = [] ∧ e = 0 ∨
      ∃ c rest, text = c :: rest ∧ isExponentMark c = true ∧ readSigned rest = some e := by
  rcases text with _ | ⟨c, rest⟩
  · exact .inl ⟨rfl, (Option.some.inj h).symm⟩
  · rw [readExponent] at h
    split_ifs at h with hmark
    exact .inr ⟨c, rest, rfl, decide_eq_true hmark, h⟩

theorem parts_of_readDecimal {number : Text} {d : Decimal} (h : readDecimal number = some d) :
    ∃ fractionText exponentText, Parts number d fractionText exponentText := by
  unfold readDecimal at h
  dsimp only at h
  obtain ⟨text, htext⟩ : ∃ text, (if number.head? = some '-' then number.tail else number) = text :=
    ⟨_, rfl⟩
  rw [htext] at h
  split_ifs at h
  split at h
  · cases h
  rename_i fraction rest hfraction
  obtain ⟨e, he, rfl⟩ := Option.map_eq_some_iff.1 h
  obtain ⟨hdigits, point, hpoint, hshape⟩ := readFraction_parts hfraction
  refine ⟨point, rest, ⟨by simp, ?_, digits_takeWhile text, hdigits, hshape, readExponent_parts he⟩⟩
  rw [trimPrefix, htext, List.append_assoc, ← hpoint, List.takeWhile_append_dropWhile]

variable {number fractionText exponentText : Text} {d : Decimal}

theorem Parts.split (h : Parts number d fractionText exponentText) :
    (trimPrefix '-' number).takeWhile (!isExponentMark ·) = d.integer ++ fractionText ∧
      (trimPrefix '-' number).dropWhile (!isExponentMark ·) = exponentText := by
  have hdigit : ∀ c : Char, c.isDigit = true → (!isExponentMark c) = true := by
    intro c hc
    have he : c ≠ 'e' := by
      rintro rfl
      cases hc
    have hE : c ≠ 'E' := by
      rintro rfl
      cases hc
    simp [isExponentMark, he, hE]
  rw [h.unsigned]
  refine takeWhile_append_stop (fun c hc => ?_) fun c hc => ?_
  · rcases List.mem_append.1 hc with hc | hc
    · exact hdigit c (h.integer c hc)
    · rcases h.point with ⟨rfl, -⟩ | rfl
      · cases hc
      · rcases List.mem_cons.1 hc with rfl | hc
        · rfl
        · exact hdigit c (h.fraction c hc)
  · rcases h.exponent with ⟨rfl, -⟩ | ⟨mark, rest, rfl, hmark, -⟩
    · cases hc
    · obtain rfl := Option.some.inj hc
      rw [hmark]
      rfl

theorem Parts.mantissa (h : Parts number d fractionText exponentText) :
    mantissaDigits (d.integer ++ fractionText) = (d.integer ++ d.fraction, d.fraction.length) := by
  have hinteger : ∀ c ∈ d.integer, decide (c ≠ '.') = true := by
    intro c hc
    refine decide_eq_true ?_
    rintro rfl
    have := h.integer _ hc
    cases this
  unfold mantissaDigits
  rcases h.point with ⟨rfl, hfraction⟩ | rfl
  · have hnil : ∀ c ∈ ([] : Text).head?, decide (c ≠ '.') = false := fun c hc => by cases hc
    rw [(takeWhile_append_stop hinteger hnil).2, hfraction]
    simp
  · have hpoint : ∀ c ∈ ('.' :: d.fraction).head?, decide (c ≠ '.') = false := fun c hc => by
      obtain rfl := Option.some.inj hc
      rfl
    obtain ⟨htake, hdrop⟩ := takeWhile_append_stop hinteger hpoint
    rw [htake, hdrop]

theorem Parts.exponent_ok (h : Parts number d fractionText exponentText)
    (hlimit : 10 * ((trimPrefix '-' number).length + 32) < 2 ^ 63) :
    numberExponent number (trimPrefix '-' number)
      = .ok (clamped ((trimPrefix '-' number).length + 32) d.exponent) := by
  rw [numberExponent, h.split.2]
  rcases h.exponent with ⟨rfl, hzero⟩ | ⟨mark, rest, rfl, -, hread⟩
  · rw [hzero, clamped]
    exact congrArg Except.ok (by omega)
  · have hint : int ((trimPrefix '-' number).length + 32)
        = .ok ((trimPrefix '-' number).length + 32) := int_of_range (by omega) (by omega)
    dsimp only
    rw [hint, ok_bind, parseBoundedExponent_ok hread (by omega) (by omega)]
    rfl

end Parts

section Parse

theorem agrees_sign {x : ℚ} {r : Except IntegerError ℤ} (negative : Bool) (h : Agrees x r) :
    Agrees (if negative then -x else x)
      (r >>= fun magnitude => if negative then int (-magnitude) else return magnitude) := by
  rcases h with ⟨m, rfl, hm, hmax⟩ | ⟨⟨message, rfl⟩, hnone⟩
  · rw [ok_bind]
    rcases negative
    · exact .inl ⟨m, rfl, hm, hmax⟩
    · have hrange := abs_le.1 hmax
      rw [maxSafeInteger] at hrange
      refine .inl ⟨-m, int_of_range (by omega) (by omega), ?_, by rwa [abs_neg]⟩
      rw [if_pos rfl, hm]
      push_cast
      rfl
  · refine .inr ⟨⟨message, rfl⟩, fun n hn => ?_⟩
    rcases negative
    · exact hnone n hn
    · rw [← abs_neg]
      refine hnone (-n) ?_
      rw [if_pos rfl] at hn
      rw [← neg_neg x, hn]
      push_cast
      rfl

theorem significant_dropWhile {text : Text} (h : Digits text)
    (hne : text.dropWhile (· = '0') ≠ []) : Significant (text.dropWhile (· = '0')) := by
  obtain ⟨c, cs, hcs⟩ := List.exists_cons_of_ne_nil hne
  have hhead := List.head?_dropWhile_not (· = '0') text
  rw [hcs] at hhead
  exact ⟨fun d hd => h d ((List.dropWhile_sublist _).subset hd), c, cs, hcs, by simpa using hhead⟩

theorem value_eq (d : Decimal) :
    d.value = if d.negative then -((natural (d.integer ++ d.fraction) : ℚ) * 10 ^ d.scale)
      else natural (d.integer ++ d.fraction) * 10 ^ d.scale := by
  rw [Decimal.value, Decimal.mantissa]
  split_ifs
  · push_cast
    ring
  · push_cast
    rfl

/-- The text of a number is read as the safe integer that its value is. -/
theorem parseSafeInteger_agrees {number : Text} {d : Decimal} (h : readDecimal number = some d)
    (hlength : 10 * (number.length + 32) < 2 ^ 63) : Agrees d.value (parseSafeInteger number) := by
  obtain ⟨fractionText, exponentText, hparts⟩ := parts_of_readDecimal h
  have hshorter : (trimPrefix '-' number).length ≤ number.length := by
    unfold trimPrefix
    split_ifs
    · rw [List.length_tail]
      exact Nat.sub_le _ _
    · exact le_refl _
  have hunsigned := congrArg List.length hparts.unsigned
  rw [List.length_append, List.length_append] at hunsigned
  have hfraction : d.fraction.length ≤ fractionText.length := by
    rcases hparts.point with ⟨-, hnil⟩ | hpoint
    · simp [hnil]
    · simp [hpoint]
  have hdigits : Digits (d.integer ++ d.fraction) := fun c hc =>
    (List.mem_append.1 hc).elim (hparts.integer c) (hparts.fraction c)
  unfold parseSafeInteger
  dsimp only
  rw [hparts.exponent_ok (by omega), ok_bind, hparts.split.1, hparts.mantissa, value_eq,
    ← natural_dropWhile_zero]
  dsimp only
  by_cases hempty : (d.integer ++ d.fraction).dropWhile (· = '0') = []
  · rw [if_pos hempty, hempty]
    exact .inl ⟨0, rfl, by simp [natural], by simp [maxSafeInteger]⟩
  · have hsignificant := significant_dropWhile hdigits hempty
    have hshort := (List.dropWhile_sublist (· = '0') (l := d.integer ++ d.fraction)).length_le
    rw [List.length_append] at hshort
    obtain ⟨limit, hlimit⟩ : ∃ limit : ℤ, (trimPrefix '-' number).length + 32 = limit := ⟨_, rfl⟩
    have hclamped : -limit ≤ clamped limit d.exponent ∧ clamped limit d.exponent ≤ limit := by
      rw [clamped]
      omega
    have hscaled : Agrees
        (natural ((d.integer ++ d.fraction).dropWhile (· = '0')) *
          10 ^ (clamped limit d.exponent - d.fraction.length))
        (scaledDigits number ((d.integer ++ d.fraction).dropWhile (· = '0'))
          (clamped limit d.exponent - d.fraction.length) >>= safeMagnitude number) :=
      scaledDigits_agrees hsignificant (by omega) (by omega) (by omega)
    have hmagnitude := agrees_of_clamped hsignificant (by omega) (by omega) hscaled
    rw [if_neg hempty, hlimit, int_of_range (by omega) (by omega), ok_bind, ← bind_assoc,
      Decimal.scale]
    have hsigned := agrees_sign d.negative hmagnitude
    rw [hparts.negative] at hsigned ⊢
    simpa only [decide_eq_true_eq] using hsigned

/-- A JSON number is read exactly if its value is a safe integer, and as that. No computation
leaves the 64 bits of an `int`: a string has less than `2 ^ 48` bytes, the address space. -/
theorem parseSafeInteger_ok_iff {number : Text} {d : Decimal} (h : readDecimal number = some d)
    (hlength : number.length < 2 ^ 48) :
    (∀ n : ℤ, parseSafeInteger number = .ok n ↔ d.value = n ∧ |n| ≤ 2 ^ 53 - 1) ∧
      parseSafeInteger number ≠ .error .overflow := by
  have hagrees := parseSafeInteger_agrees h (by omega)
  have hmax : maxSafeInteger = 2 ^ 53 - 1 := by norm_num [maxSafeInteger]
  rw [Agrees, hmax] at hagrees
  rcases hagrees with ⟨m, hm, hvalue, hsafe⟩ | ⟨⟨message, hmessage⟩, hnone⟩
  · rw [hm, hvalue]
    refine ⟨fun n => ⟨fun hn => ?_, fun hn => ?_⟩, nofun⟩
    · obtain rfl := Except.ok.inj hn
      exact ⟨rfl, hsafe⟩
    · exact congrArg Except.ok (Int.cast_injective hn.1)
  · rw [hmessage]
    refine ⟨fun n => ⟨nofun, fun hn => ?_⟩, nofun⟩
    exact absurd hn.2 (not_le.2 (hnone n hn.1))

theorem parseSafeInteger_ok_iff_one : parseSafeInteger "10e-1".toList = .ok 1 := by
  have hread : readDecimal "10e-1".toList = some ⟨false, "10".toList, [], -1⟩ := by decide
  refine ((parseSafeInteger_ok_iff hread (by decide)).1 1).2 ⟨?_, by norm_num⟩
  have hten : natural ("10".toList ++ []) = 10 := rfl
  rw [Decimal.value, Decimal.mantissa, Decimal.scale, hten]
  norm_num

end Parse

end Atlas.Protocol
