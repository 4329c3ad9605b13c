import Atlas.Lib.Wtf8

/-!
# Strings of the binary codec as bytes

The encoder and the decoder of strings, with the bits they put together. A lone surrogate is written
in three bytes like any other unit. The one error of the decoder is none.
-/

namespace Atlas.Link.BinaryUtf8

open CodeUnits (Text)

abbrev Bytes : Type := List UInt8

section Encoding

def encodeCodePoint (codePoint : ℕ) : Bytes :=
  if codePoint ≤ 0x7f then [.ofNat codePoint]
  else if codePoint ≤ 0x7ff then
    [.ofNat (0xc0 ||| codePoint >>> 6), .ofNat (0x80 ||| (codePoint &&& 0x3f))]
  else if codePoint ≤ 0xffff then
    [.ofNat (0xe0 ||| codePoint >>> 12), .ofNat (0x80 ||| (codePoint >>> 6 &&& 0x3f)),
      .ofNat (0x80 ||| (codePoint &&& 0x3f))]
  else
    [.ofNat (0xf0 ||| codePoint >>> 18), .ofNat (0x80 ||| (codePoint >>> 12 &&& 0x3f)),
      .ofNat (0x80 ||| (codePoint >>> 6 &&& 0x3f)), .ofNat (0x80 ||| (codePoint &&& 0x3f))]

def encodeBinaryUtf8 : Text → Bytes
  | [] => []
  | [first] => encodeCodePoint first.toNat
  | first :: second :: rest =>
    if (0xd800 ≤ first.toNat ∧ first.toNat ≤ 0xdbff)
        ∧ 0xdc00 ≤ second.toNat ∧ second.toNat ≤ 0xdfff then
      encodeCodePoint (0x10000 + (first.toNat - 0xd800) <<< 10 + second.toNat - 0xdc00)
        ++ encodeBinaryUtf8 rest
    else encodeCodePoint first.toNat ++ encodeBinaryUtf8 (second :: rest)

end Encoding

section Decoding

def fromCharCode (code : ℕ) : Text := [.ofNat code]

/-- `String.fromCodePoint`. -/
def fromCodePoint (codePoint : ℕ) : Text := Wtf8.units codePoint

/-- The six bits of a continuation byte, and what is behind it. -/
def continuation : Bytes → Option (ℕ × Bytes)
  | [] => none
  | byte :: rest =>
    if byte.toNat &&& 0xc0 ≠ 0x80 then none else some (byte.toNat &&& 0x3f, rest)

/-- One round of the decoder's loop: what it pushes, and the bytes behind. -/
def readSequence : Bytes → Option (Text × Bytes)
  | [] => none
  | byte :: rest =>
    let first := byte.toNat
    if first ≤ 0x7f then some (fromCharCode first, rest)
    else if 0xc2 ≤ first ∧ first ≤ 0xdf then do
      let (second, rest) ← continuation rest
      some (fromCharCode ((first &&& 0x1f) <<< 6 ||| second), rest)
    else if 0xe0 ≤ first ∧ first ≤ 0xef then
      match rest with
      | [] => none
      | byte :: rest =>
        let second := byte.toNat
        if second &&& 0xc0 ≠ 0x80 ∨ first = 0xe0 ∧ second < 0xa0 then none
        else do
          let (third, rest) ← continuation rest
          some (fromCharCode ((first &&& 0x0f) <<< 12 ||| (second &&& 0x3f) <<< 6 ||| third), rest)
    else if 0xf0 ≤ first ∧ first ≤ 0xf4 then
      match rest with
      | [] => none
      | byte :: rest =>
        let second := byte.toNat
        if second &&& 0xc0 ≠ 0x80 ∨ first = 0xf0 ∧ second < 0x90 ∨ first = 0xf4 ∧ 0x8f < second then
          none
        else do
          let (third, rest) ← continuation rest
          let (fourth, rest) ← continuation rest
          some (fromCodePoint ((first &&& 0x07) <<< 18 ||| (second &&& 0x3f) <<< 12
            ||| (third &&& 0x3f) <<< 6 ||| fourth), rest)
    else none

theorem continuation_length {bytes rest : Bytes} {bits : ℕ}
    (h : continuation bytes = some (bits, rest)) : rest.length < bytes.length := by
  unfold continuation at h
  split at h
  · cases h
  · split_ifs at h
    obtain ⟨-, rfl⟩ := Prod.mk.inj (Option.some.inj h)
    exact Nat.lt_succ_self _

theorem readSequence_length {bytes rest : Bytes} {units : Text}
    (h : readSequence bytes = some (units, rest)) : rest.length < bytes.length := by
  cases bytes with
  | nil => cases h
  | cons byte bytes =>
    unfold readSequence at h
    dsimp only at h
    split_ifs at h with h1 h2 h3 h4
    · obtain ⟨-, rfl⟩ := Prod.mk.inj (Option.some.inj h)
      exact Nat.lt_succ_self _
    · obtain ⟨⟨second, rest'⟩, hsecond, h⟩ := Option.bind_eq_some_iff.1 h
      obtain ⟨-, rfl⟩ := Prod.mk.inj (Option.some.inj h)
      exact (continuation_length hsecond).trans (Nat.lt_succ_self _)
    · cases bytes with
      | nil => cases h
      | cons second bytes =>
        dsimp only at h
        split_ifs at h
        obtain ⟨⟨third, rest'⟩, hthird, h⟩ := Option.bind_eq_some_iff.1 h
        obtain ⟨-, rfl⟩ := Prod.mk.inj (Option.some.inj h)
        exact (continuation_length hthird).trans (Nat.lt_add_of_pos_right Nat.two_pos)
    · cases bytes with
      | nil => cases h
      | cons second bytes =>
        dsimp only at h
        split_ifs at h
        obtain ⟨⟨third, rest'⟩, hthird, h⟩ := Option.bind_eq_some_iff.1 h
        obtain ⟨⟨fourth, rest''⟩, hfourth, h⟩ := Option.bind_eq_some_iff.1 h
        obtain ⟨-, rfl⟩ := Prod.mk.inj (Option.some.inj h)
        exact (continuation_length hfourth).trans ((continuation_length hthird).trans
          (Nat.lt_add_of_pos_right Nat.two_pos))

def decodeBinaryUtf8 (bytes : Bytes) : Option Text :=
  if bytes = [] then some []
  else
    match _h : readSequence bytes with
    | none => none
    | some (units, rest) => (decodeBinaryUtf8 rest).map (units ++ ·)
  termination_by bytes.length
  decreasing_by exact readSequence_length _h

end Decoding

end Atlas.Link.BinaryUtf8
