import Atlas.Link.BinaryUtf8

/-!
# The bytes of strings and back

The decoder reads what is the shortest form of a code point and nothing else
(`readSequence_eq_some`). So it gives back every string, and takes the sequences of shortest forms.
-/

namespace Atlas.Link.BinaryUtf8

open CodeUnits (Text)
open Wtf8

section Bits

theorem toNat_byte {n : ℕ} (h : n ≤ 0xff) : (UInt8.ofNat n).toNat = n := by
  rw [UInt8.toNat_ofNat']
  exact Nat.mod_eq_of_lt (by omega)

theorem byte_eq {n : ℕ} {byte : UInt8} (h : n = byte.toNat) : UInt8.ofNat n = byte := by
  rw [h, UInt8.ofNat_toNat]

theorem or_eq_add {x : ℕ} (n a : ℕ) (h : x < 2 ^ n) : 2 ^ n * a ||| x = 2 ^ n * a + x :=
  (Nat.two_pow_add_eq_or_of_lt h a).symm

theorem shift_or {low : ℕ} (high n : ℕ) (h : low < 2 ^ n) :
    high <<< n ||| low = high * 2 ^ n + low := by
  rw [← Nat.shiftLeft_add_eq_or_of_lt h, Nat.shiftLeft_eq]

theorem six_bits (n : ℕ) : n &&& 0x3f = n % 0x40 := Nat.and_two_pow_sub_one_eq_mod n 6

theorem tail_bits : ∀ n < 0x100, n &&& 0xc0 = 0x80 ↔ 0x80 ≤ n ∧ n ≤ 0xbf := by
  decide +kernel

theorem two_bits : ∀ n < 0x100, 0xc2 ≤ n → n ≤ 0xdf → n &&& 0x1f = n - 0xc0 := by
  decide +kernel

theorem three_bits : ∀ n < 0x100, 0xe0 ≤ n → n ≤ 0xef → n &&& 0x0f = n - 0xe0 := by
  decide +kernel

theorem four_bits : ∀ n < 0x100, 0xf0 ≤ n → n ≤ 0xf4 → n &&& 0x07 = n - 0xf0 := by
  decide +kernel

theorem encodeCodePoint_eq {c : ℕ} (hc : c ≤ 0x10ffff) : encodeCodePoint c = utf8 c := by
  have htail : ∀ n, 0x80 ||| (n &&& 0x3f) = 0x80 + n % 0x40 := fun n => by
    rw [six_bits]
    exact or_eq_add 6 2 (Nat.mod_lt _ (by decide))
  unfold encodeCodePoint utf8
  simp only [htail, Nat.shiftRight_eq_div_pow]
  split_ifs with h1 h2 h3
  · rfl
  · rw [show 0xc0 ||| c / 2 ^ 6 = 0xc0 + c / 2 ^ 6 from or_eq_add 6 3 (by omega)]
    rfl
  · rw [show 0xe0 ||| c / 2 ^ 12 = 0xe0 + c / 2 ^ 12 from or_eq_add 4 14 (by omega)]
    rfl
  · rw [show 0xf0 ||| c / 2 ^ 18 = 0xf0 + c / 2 ^ 18 from or_eq_add 3 30 (by omega)]
    rfl

theorem pair_eq {high low : ℕ} (hlow : 0xdc00 ≤ low) :
    0x10000 + (high - 0xd800) <<< 10 + low - 0xdc00 = pair high low := by
  have hshift := Nat.shiftLeft_eq (high - 0xd800) 10
  unfold pair
  omega

/-- The encoder writes the code points of the text. -/
theorem encodeBinaryUtf8_eq (text : Text) :
    encodeBinaryUtf8 text = (codePoints text).flatMap utf8 := by
  have hunit : ∀ u : UInt16, encodeCodePoint u.toNat = utf8 u.toNat := fun u => by
    have := u.toNat_lt
    exact encodeCodePoint_eq (by omega)
  fun_induction codePoints text with
  | case1 => rfl
  | case2 unit => rw [List.flatMap_singleton, encodeBinaryUtf8, hunit]
  | case3 first second rest hpair ih =>
    have hif : (0xd800 ≤ first.toNat ∧ first.toNat ≤ 0xdbff)
        ∧ 0xdc00 ≤ second.toNat ∧ second.toNat ≤ 0xdfff := hpair
    rw [encodeBinaryUtf8, if_pos hif, pair_eq hif.2.1,
      encodeCodePoint_eq (pair_range hpair.1 hpair.2).2, ih, List.flatMap_cons]
  | case4 first second rest hpair ih =>
    have hif : ¬((0xd800 ≤ first.toNat ∧ first.toNat ≤ 0xdbff)
        ∧ 0xdc00 ≤ second.toNat ∧ second.toNat ≤ 0xdfff) := hpair
    rw [encodeBinaryUtf8, if_neg hif, hunit, ih, List.flatMap_cons]

end Bits

section Reading

theorem continuation_eq_some {bytes rest : Bytes} {bits : ℕ} :
    continuation bytes = some (bits, rest)
      ↔ bits < 0x40 ∧ bytes = .ofNat (0x80 + bits) :: rest := by
  constructor
  · intro h
    unfold continuation at h
    split at h
    · cases h
    · rename_i byte rest'
      split_ifs at h with htail
      obtain ⟨hbits, rfl⟩ := Prod.mk.inj (Option.some.inj h)
      rw [six_bits] at hbits
      have hrange := (tail_bits _ byte.toNat_lt).1 (not_not.1 htail)
      refine ⟨by omega, ?_⟩
      have hbyte : UInt8.ofNat (0x80 + bits) = byte := byte_eq (by omega)
      rw [hbyte]
  · rintro ⟨hbits, rfl⟩
    have hbyte := toNat_byte (n := 0x80 + bits) (by omega)
    have htail := (tail_bits (0x80 + bits) (by omega)).2 ⟨by omega, by omega⟩
    rw [continuation, hbyte, if_neg (not_not.2 htail), six_bits]
    congr 2
    omega

theorem units_small {c : ℕ} (h : c ≤ 0xffff) : fromCharCode c = units c := (if_pos h).symm

theorem readSequence_one {byte : UInt8} (h : byte.toNat ≤ 0x7f) (rest : Bytes) :
    readSequence (byte :: rest) = some (fromCharCode byte.toNat, rest) := if_pos h

theorem readSequence_two {byte : UInt8} (hlow : 0xc2 ≤ byte.toNat) (hhigh : byte.toNat ≤ 0xdf)
    (rest : Bytes) : readSequence (byte :: rest) = (continuation rest).map fun second =>
      (fromCharCode ((byte.toNat - 0xc0) * 0x40 + second.1), second.2) := by
  have hbits := two_bits _ byte.toNat_lt hlow hhigh
  unfold readSequence
  dsimp only
  rw [if_neg (by omega), if_pos ⟨hlow, hhigh⟩, hbits]
  cases hrest : continuation rest with
  | none => rfl
  | some second =>
    have hsecond := (continuation_eq_some.1 hrest).1
    exact congrArg (fun n => some (fromCharCode n, second.2)) (shift_or _ 6 hsecond)

theorem shifts_or {a b c : ℕ} (hb : b < 0x40) (hc : c < 0x40) :
    a <<< 12 ||| b <<< 6 ||| c = a * 0x1000 + b * 0x40 + c := by
  have hlow := shift_or b 6 hc
  have hhigh : a <<< 12 ||| (b * 2 ^ 6 + c) = a * 2 ^ 12 + (b * 2 ^ 6 + c) :=
    shift_or a 12 (by omega)
  rw [Nat.or_assoc, hlow, hhigh]
  omega

theorem four_shifts_or {a b c d : ℕ} (hb : b < 0x40) (hc : c < 0x40) (hd : d < 0x40) :
    a <<< 18 ||| b <<< 12 ||| (c &&& 0x3f) <<< 6 ||| d
      = a * 0x40000 + (b * 0x1000 + c * 0x40 + d) := by
  have hlow := shifts_or (a := b) hc hd
  have hhigh : a <<< 18 ||| (b * 0x1000 + c * 0x40 + d)
      = a * 2 ^ 18 + (b * 0x1000 + c * 0x40 + d) := shift_or a 18 (by omega)
  rw [six_bits, Nat.mod_eq_of_lt hc, Nat.or_assoc, Nat.or_assoc, ← Nat.or_assoc (b <<< 12), hlow,
    hhigh]
  rfl

theorem readSequence_three {byte second : UInt8} (hlow : 0xe0 ≤ byte.toNat)
    (hhigh : byte.toNat ≤ 0xef) (rest : Bytes) : readSequence (byte :: second :: rest)
      = if (0x80 ≤ second.toNat ∧ second.toNat ≤ 0xbf)
          ∧ (byte.toNat = 0xe0 → 0xa0 ≤ second.toNat) then
          (continuation rest).map fun third => (fromCharCode ((byte.toNat - 0xe0) * 0x1000
            + (second.toNat - 0x80) * 0x40 + third.1), third.2)
        else none := by
  have hbits := three_bits _ byte.toNat_lt hlow hhigh
  have htail := tail_bits _ second.toNat_lt
  unfold readSequence
  dsimp only
  rw [if_neg (by omega), if_neg (by omega), if_pos ⟨hlow, hhigh⟩, hbits, six_bits]
  by_cases hif : (0x80 ≤ second.toNat ∧ second.toNat ≤ 0xbf)
      ∧ (byte.toNat = 0xe0 → 0xa0 ≤ second.toNat)
  · have hvalue : second.toNat % 0x40 = second.toNat - 0x80 := by omega
    rw [if_pos hif, if_neg (by rw [not_or, not_not, htail]; omega), hvalue]
    cases hrest : continuation rest with
    | none => rfl
    | some third =>
      have hthird := (continuation_eq_some.1 hrest).1
      exact congrArg (fun n => some (fromCharCode n, third.2)) (shifts_or (by omega) hthird)
  · rw [if_neg hif, if_pos]
    rw [Ne, htail]
    omega

theorem readSequence_four {byte second : UInt8} (hlow : 0xf0 ≤ byte.toNat)
    (hhigh : byte.toNat ≤ 0xf4) (rest : Bytes) : readSequence (byte :: second :: rest)
      = if (0x80 ≤ second.toNat ∧ second.toNat ≤ 0xbf)
          ∧ (byte.toNat = 0xf0 → 0x90 ≤ second.toNat)
          ∧ (byte.toNat = 0xf4 → second.toNat ≤ 0x8f) then
          (continuation rest).bind fun third => (continuation third.2).map fun fourth =>
            (fromCodePoint ((byte.toNat - 0xf0) * 0x40000
              + ((second.toNat - 0x80) * 0x1000 + third.1 * 0x40 + fourth.1)), fourth.2)
        else none := by
  have hbits := four_bits _ byte.toNat_lt hlow hhigh
  have htail := tail_bits _ second.toNat_lt
  unfold readSequence
  dsimp only
  rw [if_neg (by omega), if_neg (by omega), if_neg (by omega), if_pos ⟨hlow, hhigh⟩, hbits,
    six_bits]
  by_cases hif : (0x80 ≤ second.toNat ∧ second.toNat ≤ 0xbf)
      ∧ (byte.toNat = 0xf0 → 0x90 ≤ second.toNat) ∧ (byte.toNat = 0xf4 → second.toNat ≤ 0x8f)
  · have hvalue : second.toNat % 0x40 = second.toNat - 0x80 := by omega
    rw [if_pos hif, if_neg (by rw [not_or, not_not, htail]; omega), hvalue]
    cases hrest : continuation rest with
    | none => simp
    | some third =>
      have hthird := (continuation_eq_some.1 hrest).1
      cases hrest' : continuation third.2 with
      | none => simp [hrest']
      | some fourth =>
        have hfourth := (continuation_eq_some.1 hrest').1
        have hvalue := four_shifts_or (a := byte.toNat - 0xf0) (b := second.toNat - 0x80)
          (by omega) hthird hfourth
        simp [hrest', hvalue]
  · rw [if_neg hif, if_pos]
    rw [Ne, htail]
    omega

/-- What is read is the shortest form of a code point. -/
theorem readSequence_utf8 {c : ℕ} (hc : c ≤ 0x10ffff) (rest : Bytes) :
    readSequence (utf8 c ++ rest) = some (units c, rest) := by
  have hcontinuation : ∀ bits < 0x40, ∀ rest,
      continuation (.ofNat (0x80 + bits) :: rest) = some (bits, rest) :=
    fun bits hbits rest => continuation_eq_some.2 ⟨hbits, rfl⟩
  unfold utf8
  split_ifs with h1 h2 h3
  · have hbyte := toNat_byte (n := c) (by omega)
    rw [List.singleton_append, readSequence_one (by omega), hbyte, units_small (by omega)]
  · have hbyte := toNat_byte (n := 0xc0 + c / 0x40) (by omega)
    rw [List.cons_append, List.singleton_append, readSequence_two (by omega) (by omega),
      hcontinuation _ (Nat.mod_lt _ (by decide)), hbyte, Option.map_some]
    rw [show (0xc0 + c / 0x40 - 0xc0) * 0x40 + c % 0x40 = c by omega, units_small (by omega)]
  · have hbyte := toNat_byte (n := 0xe0 + c / 0x1000) (by omega)
    have hsecond := toNat_byte (n := 0x80 + c / 0x40 % 0x40) (by omega)
    rw [List.cons_append, List.cons_append, List.singleton_append,
      readSequence_three (by omega) (by omega), if_pos (by omega),
      hcontinuation _ (Nat.mod_lt _ (by decide)), hbyte, hsecond, Option.map_some]
    rw [show (0xe0 + c / 0x1000 - 0xe0) * 0x1000 + (0x80 + c / 0x40 % 0x40 - 0x80) * 0x40
      + c % 0x40 = c by omega, units_small h3]
  · have hbyte := toNat_byte (n := 0xf0 + c / 0x40000) (by omega)
    have hsecond := toNat_byte (n := 0x80 + c / 0x1000 % 0x40) (by omega)
    rw [List.cons_append, List.cons_append, List.cons_append, List.singleton_append,
      readSequence_four (by omega) (by omega), if_pos (by omega),
      hcontinuation _ (Nat.mod_lt _ (by decide)), Option.bind_some,
      hcontinuation _ (Nat.mod_lt _ (by decide)), hbyte, hsecond, Option.map_some]
    rw [show (0xf0 + c / 0x40000 - 0xf0) * 0x40000 + ((0x80 + c / 0x1000 % 0x40 - 0x80) * 0x1000
      + c / 0x40 % 0x40 * 0x40 + c % 0x40) = c by omega]
    rfl

theorem exists_of_readSequence {bytes rest : Bytes} {text : Text}
    (h : readSequence bytes = some (text, rest)) :
    ∃ c ≤ 0x10ffff, text = units c ∧ bytes = utf8 c ++ rest := by
  cases bytes with
  | nil => cases h
  | cons byte bytes =>
    by_cases h1 : byte.toNat ≤ 0x7f
    · rw [readSequence_one h1] at h
      obtain ⟨rfl, rfl⟩ := Prod.mk.inj (Option.some.inj h)
      refine ⟨byte.toNat, by omega, units_small (by omega), ?_⟩
      rw [utf8, if_pos h1, UInt8.ofNat_toNat, List.singleton_append]
    by_cases h2 : 0xc2 ≤ byte.toNat ∧ byte.toNat ≤ 0xdf
    · rw [readSequence_two h2.1 h2.2] at h
      obtain ⟨⟨second, rest'⟩, hsecond, h⟩ := Option.map_eq_some_iff.1 h
      obtain ⟨rfl, rfl⟩ := Prod.mk.inj h
      obtain ⟨hbits, rfl⟩ := continuation_eq_some.1 hsecond
      generalize hc : (byte.toNat - 0xc0) * 0x40 + second = c
      have hfirst : UInt8.ofNat (0xc0 + c / 0x40) = byte := byte_eq (by omega)
      have hlast : c % 0x40 = second := by omega
      refine ⟨c, by omega, units_small (by omega), ?_⟩
      rw [utf8, if_neg (by omega), if_pos (by omega), hfirst, hlast]
      rfl
    by_cases h3 : 0xe0 ≤ byte.toNat ∧ byte.toNat ≤ 0xef
    · cases bytes with
      | nil =>
        unfold readSequence at h
        dsimp only at h
        rw [if_neg h1, if_neg h2, if_pos h3] at h
        cases h
      | cons second bytes =>
        rw [readSequence_three h3.1 h3.2] at h
        split_ifs at h with hif
        obtain ⟨⟨third, rest'⟩, hthird, h⟩ := Option.map_eq_some_iff.1 h
        obtain ⟨rfl, rfl⟩ := Prod.mk.inj h
        obtain ⟨hbits, rfl⟩ := continuation_eq_some.1 hthird
        generalize hc : (byte.toNat - 0xe0) * 0x1000 + (second.toNat - 0x80) * 0x40 + third = c
        have hfirst : UInt8.ofNat (0xe0 + c / 0x1000) = byte := byte_eq (by omega)
        have hsecond : UInt8.ofNat (0x80 + c / 0x40 % 0x40) = second := byte_eq (by omega)
        have hlast : c % 0x40 = third := by omega
        refine ⟨c, by omega, units_small (by omega), ?_⟩
        rw [utf8, if_neg (by omega), if_neg (by omega), if_pos (by omega), hfirst, hsecond, hlast]
        rfl
    by_cases h4 : 0xf0 ≤ byte.toNat ∧ byte.toNat ≤ 0xf4
    · cases bytes with
      | nil =>
        unfold readSequence at h
        dsimp only at h
        rw [if_neg h1, if_neg h2, if_neg h3, if_pos h4] at h
        cases h
      | cons second bytes =>
        rw [readSequence_four h4.1 h4.2] at h
        split_ifs at h with hif
        obtain ⟨⟨third, rest'⟩, hthird, h⟩ := Option.bind_eq_some_iff.1 h
        obtain ⟨⟨fourth, rest''⟩, hfourth, h⟩ := Option.map_eq_some_iff.1 h
        obtain ⟨rfl, rfl⟩ := Prod.mk.inj h
        obtain ⟨hbits, rfl⟩ := continuation_eq_some.1 hthird
        obtain ⟨hbits', hrest⟩ := continuation_eq_some.1 hfourth
        dsimp only at hrest
        subst hrest
        generalize hc : (byte.toNat - 0xf0) * 0x40000
          + ((second.toNat - 0x80) * 0x1000 + third * 0x40 + fourth) = c
        have hfirst : UInt8.ofNat (0xf0 + c / 0x40000) = byte := byte_eq (by omega)
        have hsecond : UInt8.ofNat (0x80 + c / 0x1000 % 0x40) = second := byte_eq (by omega)
        have hthird : c / 0x40 % 0x40 = third := by omega
        have hlast : c % 0x40 = fourth := by omega
        refine ⟨c, by omega, rfl, ?_⟩
        rw [utf8, if_neg (by omega), if_neg (by omega), if_neg (by omega), hfirst, hsecond, hthird,
          hlast]
        rfl
    · unfold readSequence at h
      dsimp only at h
      rw [if_neg h1, if_neg h2, if_neg h3, if_neg h4] at h
      cases h

theorem decodeBinaryUtf8_cons {c : ℕ} (hc : c ≤ 0x10ffff) (rest : Bytes) :
    decodeBinaryUtf8 (utf8 c ++ rest) = (decodeBinaryUtf8 rest).map (units c ++ ·) := by
  have hne : utf8 c ++ rest ≠ [] := by
    intro hnil
    have := readSequence_utf8 hc rest
    rw [hnil] at this
    cases this
  rw [decodeBinaryUtf8, if_neg hne]
  split
  · rename_i hread
    rw [readSequence_utf8 hc] at hread
    cases hread
  · rename_i text rest' hread
    rw [readSequence_utf8 hc] at hread
    obtain ⟨rfl, rfl⟩ := Prod.mk.inj (Option.some.inj hread)
    rfl

theorem decodeBinaryUtf8_flatMap : ∀ {cs : List ℕ}, (∀ c ∈ cs, c ≤ 0x10ffff) →
    decodeBinaryUtf8 (cs.flatMap utf8) = some (cs.flatMap units)
  | [], _ => by
    rw [List.flatMap_nil, decodeBinaryUtf8, if_pos rfl]
    rfl
  | c :: cs, h => by
    obtain ⟨hc, hcs⟩ := List.forall_mem_cons.1 h
    rw [List.flatMap_cons, decodeBinaryUtf8_cons hc, decodeBinaryUtf8_flatMap hcs]
    rfl

/-- What is decoded is a sequence of shortest forms. -/
theorem exists_codePoints {bytes : Bytes} {text : Text} (h : decodeBinaryUtf8 bytes = some text) :
    ∃ cs : List ℕ, (∀ c ∈ cs, c ≤ 0x10ffff) ∧ bytes = cs.flatMap utf8 := by
  fun_induction decodeBinaryUtf8 bytes generalizing text with
  | case1 => exact ⟨[], by simp, rfl⟩
  | case2 bytes hne hread => cases h
  | case3 bytes hne units rest hread ih =>
    obtain ⟨text', htext, -⟩ := Option.map_eq_some_iff.1 h
    obtain ⟨cs, hcs, rfl⟩ := ih htext
    obtain ⟨c, hc, -, rfl⟩ := exists_of_readSequence hread
    exact ⟨c :: cs, List.forall_mem_cons.2 ⟨hc, hcs⟩, List.flatMap_cons.symm⟩

theorem utf8_append_inj {c d : ℕ} (hc : c ≤ 0x10ffff) (hd : d ≤ 0x10ffff) {s t : Bytes}
    (h : utf8 c ++ s = utf8 d ++ t) : c = d ∧ s = t := by
  have hread := readSequence_utf8 hc s
  rw [h, readSequence_utf8 hd] at hread
  obtain ⟨hunits, hst⟩ := Prod.mk.inj (Option.some.inj hread)
  have hpoints : ∀ {c}, c ≤ 0x10ffff → codePoints (units c) = [c] := fun {c} hc => by
    have := @codePoints_flatMap [c] (by simpa using hc) (.singleton c)
    rwa [List.flatMap_singleton] at this
  have hcd := congrArg codePoints hunits
  rw [hpoints hd, hpoints hc] at hcd
  exact ⟨(List.singleton_inj.1 hcd).symm, hst.symm⟩

theorem utf8_ne_nil (c : ℕ) : utf8 c ≠ [] := by
  unfold utf8
  split_ifs <;> simp

theorem flatMap_utf8_inj : ∀ {cs ds : List ℕ}, (∀ c ∈ cs, c ≤ 0x10ffff) →
    (∀ d ∈ ds, d ≤ 0x10ffff) → cs.flatMap utf8 = ds.flatMap utf8 → cs = ds
  | [], [], _, _, _ => rfl
  | [], d :: ds, _, _, h => absurd (List.append_eq_nil_iff.1 h.symm).1 (utf8_ne_nil d)
  | c :: cs, [], _, _, h => absurd (List.append_eq_nil_iff.1 h).1 (utf8_ne_nil c)
  | c :: cs, d :: ds, hc, hd, h => by
    obtain ⟨hc, hcs⟩ := List.forall_mem_cons.1 hc
    obtain ⟨hd, hds⟩ := List.forall_mem_cons.1 hd
    rw [List.flatMap_cons, List.flatMap_cons] at h
    obtain ⟨rfl, hrest⟩ := utf8_append_inj hc hd h
    rw [flatMap_utf8_inj hcs hds hrest]

/-- Every string is read back, what is read is just the sequences of shortest forms, and writing
what was read gives the same bytes unless two neighbours are surrogates that are now paired. -/
theorem binary_utf8 :
    (∀ text : Text, decodeBinaryUtf8 (encodeBinaryUtf8 text) = some text)
      ∧ (∀ bytes : Bytes, (∃ text, decodeBinaryUtf8 bytes = some text)
        ↔ ∃ cs : List ℕ, (∀ c ∈ cs, c ≤ 0x10ffff) ∧ bytes = cs.flatMap utf8)
      ∧ ∀ cs : List ℕ, (∀ c ∈ cs, c ≤ 0x10ffff) → ∀ text,
        decodeBinaryUtf8 (cs.flatMap utf8) = some text →
          (encodeBinaryUtf8 text = cs.flatMap utf8 ↔ Unpaired cs) := by
  refine ⟨fun text => ?_, fun bytes => ⟨fun ⟨text, h⟩ => exists_codePoints h, ?_⟩, ?_⟩
  · rw [encodeBinaryUtf8_eq, decodeBinaryUtf8_flatMap (codePoints_le text), flatMap_units]
  · rintro ⟨cs, hcs, rfl⟩
    exact ⟨_, decodeBinaryUtf8_flatMap hcs⟩
  · intro cs hcs text h
    rw [decodeBinaryUtf8_flatMap hcs] at h
    obtain rfl := Option.some.inj h
    rw [encodeBinaryUtf8_eq]
    constructor
    · intro heq
      rw [← flatMap_utf8_inj (codePoints_le _) hcs heq]
      exact unpaired_codePoints _
    · intro hunpaired
      rw [codePoints_flatMap hcs hunpaired]

end Reading

end Atlas.Link.BinaryUtf8
