import Atlas.SourceGateway.Cache

/-!
# What is written for a cache key can be read

Each part begins with its length in digits and a colon, which is no digit, so that where one part
ends does not depend on what it holds; a list begins with the number of its tuples. Two texts that
agree therefore agree part by part, whatever follows.
-/

namespace Atlas.SourceGateway

open Config

/-- A part is read from the front, whatever follows it. -/
def Readable {α : Type} (write : α → Bytes) : Prop :=
  ∀ a b rest other, write a ++ rest = write b ++ other → a = b ∧ rest = other

theorem itoa_digits (n : ℕ) : ∀ b ∈ itoa n, b ≠ 58 := by
  intro b hb
  obtain ⟨c, hc, rfl⟩ := List.mem_map.1 hb
  have hdigit := GoJson.isDigit_toDigits hc
  simp only [Char.isDigit, Bool.and_eq_true, decide_eq_true_eq, UInt32.le_iff_toNat_le] at hdigit
  intro h
  have hval := congrArg UInt8.toNat h
  rw [UInt8.toNat_ofNat'] at hval
  have hle : c.toNat ≤ 57 := hdigit.2
  have hnat : c.toNat = 58 := by
    rw [Nat.mod_eq_of_lt (by omega)] at hval
    exact hval
  omega

theorem itoa_injective {m n : ℕ} (h : itoa m = itoa n) : m = n := by
  have hascii : ∀ k : ℕ, ∀ c ∈ Nat.toDigits 10 k, c.toNat < 0x80 := by
    intro k c hc
    have hdigit := GoJson.isDigit_toDigits hc
    simp only [Char.isDigit, Bool.and_eq_true, decide_eq_true_eq, UInt32.le_iff_toNat_le] at hdigit
    have hle : c.toNat ≤ 57 := hdigit.2
    omega
  have hdigits : Nat.toDigits 10 m = Nat.toDigits 10 n := by
    rw [← GoJson.runes_asciiBytes _ (hascii m), ← GoJson.runes_asciiBytes _ (hascii n)]
    exact congrArg GoJson.runes h
  rw [← Nat.ofDigitChars_ten_toDigits (n := m), hdigits, Nat.ofDigitChars_ten_toDigits]

theorem takeWhile_itoa (n : ℕ) (rest : Bytes) :
    (itoa n ++ 58 :: rest).takeWhile (· ≠ 58) = itoa n := by
  have hall : ∀ b ∈ itoa n, decide (b ≠ 58) = true := fun b hb => decide_eq_true (itoa_digits n b hb)
  rw [List.takeWhile_append_of_pos hall]
  simp

theorem readable_writeCachePart : Readable writeCachePart := by
  intro a b rest other h
  unfold writeCachePart at h
  rw [List.append_assoc, List.append_assoc, List.cons_append, List.cons_append] at h
  have hlength : itoa a.length = itoa b.length := by
    rw [← takeWhile_itoa a.length (a ++ rest), h, takeWhile_itoa]
  rw [hlength] at h
  have hvalues := List.append_cancel_left h
  rw [List.cons.injEq] at hvalues
  exact List.append_inj hvalues.2 (itoa_injective hlength)

theorem utf8_injective {s t : GoString} (h : GoJson.utf8 s = GoJson.utf8 t) : s = t := by
  rw [← GoJson.runes_utf8 s, h, GoJson.runes_utf8]

theorem readable_writeText : Readable writeText := by
  intro s t rest other h
  obtain ⟨htext, hrest⟩ := readable_writeCachePart _ _ _ _ h
  exact ⟨utf8_injective htext, hrest⟩

/-- Parts one after the other. -/
theorem Readable.append {α β : Type} {write : α → Bytes} {write' : β → Bytes}
    (h : Readable write) (h' : Readable write') :
    Readable fun pair : α × β => write pair.1 ++ write' pair.2 := by
  intro a b rest other heq
  simp only [List.append_assoc] at heq
  obtain ⟨hfirst, heq⟩ := h _ _ _ _ heq
  obtain ⟨hsecond, hrest⟩ := h' _ _ _ _ heq
  exact ⟨Prod.ext hfirst hsecond, hrest⟩

/-- As many items one after the other. -/
theorem Readable.flatMap {α : Type} {write : α → Bytes} (h : Readable write) :
    ∀ (as bs : List α) (rest other : Bytes), as.length = bs.length →
    as.flatMap write ++ rest = bs.flatMap write ++ other → as = bs ∧ rest = other
  | [], [], _, _, _, heq => ⟨rfl, heq⟩
  | a :: as, b :: bs, rest, other, hlength, heq => by
    simp only [List.flatMap_cons, List.append_assoc] at heq
    obtain ⟨hfirst, htail⟩ := h _ _ _ _ heq
    obtain ⟨hitems, hrest⟩ := h.flatMap as bs rest other (Nat.succ.inj hlength) htail
    exact ⟨by rw [hfirst, hitems], hrest⟩

theorem readable_writeTuples : Readable writeTuples := by
  intro a b rest other h
  unfold writeTuples at h
  rw [List.append_assoc, List.append_assoc] at h
  obtain ⟨hcount, h⟩ := readable_writeCachePart _ _ _ _ h
  exact (readable_writeText.append readable_writeText).flatMap a b rest other
    (itoa_injective hcount) h

/-- The bytes that are hashed determine the connector and the request. -/
theorem requestCacheBytes_injective {id id' : GoString} {request request' : PreparedRequest}
    (h : requestCacheBytes id request = requestCacheBytes id' request') :
    id = id' ∧ request = request' := by
  unfold requestCacheBytes at h
  obtain ⟨hid, h⟩ := readable_writeText _ _ _ _ (List.append_cancel_left h)
  obtain ⟨hmethod, h⟩ := readable_writeText _ _ _ _ (List.append_cancel_left h)
  obtain ⟨hpath, h⟩ := readable_writeText _ _ _ _ (List.append_cancel_left h)
  obtain ⟨hquery, h⟩ := readable_writeTuples _ _ _ _ (List.append_cancel_left h)
  obtain ⟨hheaders, h⟩ := readable_writeTuples _ _ _ _ (List.append_cancel_left h)
  have hbody := readable_writeCachePart _ _ [] [] (by simpa using h)
  cases request
  cases request'
  simp only at hmethod hpath hquery hheaders hbody
  exact ⟨hid, by rw [hmethod, hpath, hquery, hheaders, hbody.1]⟩

theorem hexString_injective : ∀ {a b : Bytes}, hexString a = hexString b → a = b
  | [], [], _ => rfl
  | [], _ :: _, h => by simp [hexString] at h
  | _ :: _, [], h => by simp [hexString] at h
  | x :: a, y :: b, h => by
    have hdigit : ∀ m < 16, ∀ n < 16, Nat.digitChar m = Nat.digitChar n → m = n := by decide
    simp only [hexString, List.flatMap_cons, List.cons_append, List.nil_append, List.cons.injEq]
      at h
    obtain ⟨hhigh, hlow, hrest⟩ := h
    have hx := x.toNat_lt
    have hy := y.toNat_lt
    have hhigh := hdigit _ (by omega) _ (by omega) hhigh
    have hlow := hdigit _ (by omega) _ (by omega) hlow
    have hbyte : x = y := UInt8.toNat_inj.1 (by omega)
    rw [hbyte, hexString_injective hrest]

/-- As long as the digest does not collide, neither do the keys. -/
theorem requestCacheKey_injective {sha256 : Bytes → Bytes} (hsha : Function.Injective sha256)
    {id id' : GoString} {request request' : PreparedRequest}
    (h : requestCacheKey sha256 id request = requestCacheKey sha256 id' request') :
    id = id' ∧ request = request' :=
  requestCacheBytes_injective (hsha (hexString_injective h))

end Atlas.SourceGateway
