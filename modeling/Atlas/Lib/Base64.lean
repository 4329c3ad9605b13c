import Mathlib

/-!
# Base64 for URLs, without padding

Three bytes are written as four digits; one or two bytes at the end as two or three. A decoder drops
line ends, and the bits of the last digit that belong to no byte. It reads back what was written
(`decode_encode`).
-/

namespace Base64

def alphabet : List Char :=
  "ABCDEFGHIJKLMNOPQRSTUVWXYZabcdefghijklmnopqrstuvwxyz0123456789-_".toList

def digit (n : ℕ) : Char := alphabet.getD n 'A'

def digitValue (c : Char) : Option ℕ := alphabet.idxOf? c

def encode : List UInt8 → List Char
  | [] => []
  | [a] => [digit (a.toNat / 4), digit (a.toNat % 4 * 16)]
  | [a, b] =>
    [digit (a.toNat / 4), digit (a.toNat % 4 * 16 + b.toNat / 16), digit (b.toNat % 16 * 4)]
  | a :: b :: c :: rest =>
    digit (a.toNat / 4) :: digit (a.toNat % 4 * 16 + b.toNat / 16)
      :: digit (b.toNat % 16 * 4 + c.toNat / 64) :: digit (c.toNat % 64) :: encode rest

def bytesOf : List ℕ → Option (List UInt8)
  | [] => some []
  | [_] => none
  | [x, y] => some [.ofNat (x * 4 + y / 16)]
  | [x, y, z] => some [.ofNat (x * 4 + y / 16), .ofNat (y % 16 * 16 + z / 4)]
  | x :: y :: z :: w :: rest =>
    (bytesOf rest).map fun bytes =>
      .ofNat (x * 4 + y / 16) :: .ofNat (y % 16 * 16 + z / 4) :: .ofNat (z % 4 * 64 + w) :: bytes

def decode (text : List Char) : Option (List UInt8) :=
  ((text.filter fun c => c ≠ '\r' ∧ c ≠ '\n').mapM digitValue).bind bytesOf

theorem alphabet_eq : alphabet =
    ['A', 'B', 'C', 'D', 'E', 'F', 'G', 'H', 'I', 'J', 'K', 'L', 'M', 'N', 'O', 'P', 'Q', 'R', 'S',
      'T', 'U', 'V', 'W', 'X', 'Y', 'Z', 'a', 'b', 'c', 'd', 'e', 'f', 'g', 'h', 'i', 'j', 'k', 'l',
      'm', 'n', 'o', 'p', 'q', 'r', 's', 't', 'u', 'v', 'w', 'x', 'y', 'z', '0', '1', '2', '3', '4',
      '5', '6', '7', '8', '9', '-', '_'] :=
  String.toList_ofList

theorem alphabet_nodup : alphabet.Nodup := by
  rw [alphabet_eq]
  exact .of_map Char.toNat (by decide)

theorem line_end_notMem : '\r' ∉ alphabet ∧ '\n' ∉ alphabet := by
  rw [alphabet_eq]
  decide

theorem digit_mem {n : ℕ} (hn : n < 64) : ∃ h : n < alphabet.length, digit n = alphabet[n] := by
  have hlt : n < alphabet.length := by rwa [alphabet_eq]
  exact ⟨hlt, List.getD_eq_getElem _ _ hlt⟩

theorem digit_cases (n : ℕ) (hn : n < 64) :
    digitValue (digit n) = some n ∧ digit n ≠ '\r' ∧ digit n ≠ '\n' := by
  obtain ⟨hlt, hdigit⟩ := digit_mem hn
  have hmem : digit n ∈ alphabet := hdigit ▸ List.getElem_mem hlt
  refine ⟨?_, fun heq => ?_, fun heq => ?_⟩
  · rw [digitValue, hdigit, List.idxOf?_eq_some_iff]
    exact ⟨hlt, rfl, fun j hj hsame => hj.ne (alphabet_nodup.getElem_inj_iff.1 hsame)⟩
  · exact line_end_notMem.1 (heq ▸ hmem)
  · exact line_end_notMem.2 (heq ▸ hmem)

/-- The digits that are written are read as their values. -/
theorem mapM_digits : ∀ values : List ℕ, (∀ n ∈ values, n < 64) →
    ((values.map digit).filter fun c => c ≠ '\r' ∧ c ≠ '\n').mapM digitValue = some values
  | [], _ => rfl
  | n :: values, h => by
    obtain ⟨hn, hvalues⟩ := List.forall_mem_cons.1 h
    obtain ⟨hvalue, hreturn, hline⟩ := digit_cases n hn
    rw [List.map_cons, List.filter_cons_of_pos (by simp [hreturn, hline]), List.mapM_cons, hvalue,
      mapM_digits values hvalues]
    rfl

/-- The values of the digits of some bytes. -/
def values : List UInt8 → List ℕ
  | [] => []
  | [a] => [a.toNat / 4, a.toNat % 4 * 16]
  | [a, b] => [a.toNat / 4, a.toNat % 4 * 16 + b.toNat / 16, b.toNat % 16 * 4]
  | a :: b :: c :: rest =>
    a.toNat / 4 :: (a.toNat % 4 * 16 + b.toNat / 16) :: (b.toNat % 16 * 4 + c.toNat / 64)
      :: c.toNat % 64 :: values rest

theorem encode_eq : ∀ bytes : List UInt8, encode bytes = (values bytes).map digit
  | [] => rfl
  | [_] => rfl
  | [_, _] => rfl
  | a :: b :: c :: rest => by
    show _ :: _ :: _ :: _ :: encode rest = _ :: _ :: _ :: _ :: (values rest).map digit
    rw [encode_eq rest]

theorem values_lt : ∀ bytes : List UInt8, ∀ n ∈ values bytes, n < 64
  | [] => by simp [values]
  | [a] => by
    have := a.toNat_lt
    intro n hn
    simp only [values, List.mem_cons, List.not_mem_nil, or_false] at hn
    omega
  | [a, b] => by
    have := a.toNat_lt
    have := b.toNat_lt
    intro n hn
    simp only [values, List.mem_cons, List.not_mem_nil, or_false] at hn
    omega
  | a :: b :: c :: rest => by
    have := a.toNat_lt
    have := b.toNat_lt
    have := c.toNat_lt
    have ih := values_lt rest
    simp only [values, List.forall_mem_cons]
    exact ⟨by omega, by omega, by omega, by omega, ih⟩

theorem ofNat_eq {a : UInt8} {n : ℕ} (h : n = a.toNat) : UInt8.ofNat n = a := by
  rw [h, UInt8.ofNat_toNat]

theorem bytesOf_values : ∀ bytes : List UInt8, bytesOf (values bytes) = some bytes
  | [] => rfl
  | [a] => by
    show some [_] = _
    rw [ofNat_eq (a := a) (by omega)]
  | [a, b] => by
    have := b.toNat_lt
    show some [_, _] = _
    rw [ofNat_eq (a := a) (by omega), ofNat_eq (a := b) (by omega)]
  | a :: b :: c :: rest => by
    have := b.toNat_lt
    have := c.toNat_lt
    show (bytesOf (values rest)).map _ = _
    rw [bytesOf_values rest, Option.map_some, ofNat_eq (a := a) (by omega),
      ofNat_eq (a := b) (by omega), ofNat_eq (a := c) (by omega)]

theorem decode_encode (bytes : List UInt8) : decode (encode bytes) = some bytes := by
  rw [decode, encode_eq, mapM_digits _ (values_lt bytes), Option.bind_some, bytesOf_values]

theorem mem_encode {bytes : List UInt8} {c : Char} (h : c ∈ encode bytes) :
    ∃ n < 64, digit n = c := by
  rw [encode_eq] at h
  obtain ⟨n, hn, rfl⟩ := List.mem_map.1 h
  exact ⟨n, values_lt bytes n hn, rfl⟩

theorem encode_ne_nil {bytes : List UInt8} (h : bytes ≠ []) : encode bytes ≠ [] := by
  intro hnil
  have := decode_encode bytes
  rw [hnil] at this
  exact h (Option.some.inj this).symm

end Base64
