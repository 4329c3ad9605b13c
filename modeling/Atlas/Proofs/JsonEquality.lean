import Atlas.Core.ExactJson

/-!
# Texts that say the same

`SameValue` says when two documents have the same value, by their members and the digits of their
numbers. Normalized, they are then the same value, and only then (`normal_eq_iff`): a map is
determined by what it finds, and a fraction in lowest terms by its text (`ratString_injective`).
-/

namespace Atlas.Core

open GoJson SortedMap

/-- Two documents have the same value: of the members of a key the last one counts, and of a number
only its quantity. -/
inductive SameValue : Value → Value → Prop
  | null : SameValue .null .null
  | bool (b : Bool) : SameValue (.bool b) (.bool b)
  | number {l r : Text} {d e : Decimal} (hl : readDecimal l = some d) (hr : readDecimal r = some e)
      (h : d.value = e.value) : SameValue (.number l) (.number r)
  | string (s : Text) : SameValue (.string s) (.string s)
  | array {vs ws : List Value} (hlen : vs.length = ws.length)
      (h : ∀ (i : ℕ) (v w : Value), vs[i]? = some v → ws[i]? = some w → SameValue v w) :
      SameValue (.array vs) (.array ws)
  | object {ms ns : List (Text × Value)} (hkeys : ∀ k, last k ms = none ↔ last k ns = none)
      (h : ∀ (k : Text) (v w : Value), last k ms = some v → last k ns = some w → SameValue v w) :
      SameValue (.object ms) (.object ns)

/-- The exponent is below a million, and so is the power of ten that the last digit stands for or
equal to it. -/
def Decimal.InRange (d : Decimal) : Prop :=
  d.exponent.natAbs < maxRatExponent ∧ (d.mantissa = 0 ∨ d.scale.natAbs ≤ maxRatExponent)

/-- Every number of a document is in range. -/
def NumbersInRange : Value → Prop :=
  Value.fold
    { null := True
      bool := fun _ => True
      number := fun literal => ∃ d, readDecimal literal = some d ∧ Decimal.InRange d
      string := fun _ => True
      array := fun items => ∀ p ∈ items, p
      object := fun members => ∀ e ∈ members, e.2 }

theorem numbersInRange_array {items : List Value} :
    NumbersInRange (.array items) ↔ ∀ v ∈ items, NumbersInRange v := by
  rw [NumbersInRange, Value.fold_array]
  exact List.forall_mem_map

theorem numbersInRange_object {members : List (Text × Value)} :
    NumbersInRange (.object members) ↔ ∀ e ∈ members, NumbersInRange e.2 := by
  rw [NumbersInRange, Value.fold_object]
  exact List.forall_mem_map

/-! ## Fractions -/

theorem toDigits_injective {m n : ℕ} (h : Nat.toDigits 10 m = Nat.toDigits 10 n) : m = n := by
  rw [← Nat.ofDigitChars_ten_toDigits (n := m), h, Nat.ofDigitChars_ten_toDigits]

/-- Digits up to a character that is none are told apart from what follows. -/
theorem digits_append_inj {a b s t : Text} (ha : ∀ c ∈ a, c.isDigit = true)
    (hb : ∀ c ∈ b, c.isDigit = true) (hs : ∀ c ∈ s.head?, c.isDigit = false)
    (ht : ∀ c ∈ t.head?, c.isDigit = false) (h : a ++ s = b ++ t) : a = b ∧ s = t := by
  have hab : a = b := by
    rw [← (takeWhile_append_stop ha hs).1, h, (takeWhile_append_stop hb ht).1]
  exact ⟨hab, List.append_cancel_left (hab ▸ h)⟩

theorem ratString_injective {p q : ℚ} (h : ratString p = ratString q) : p = q := by
  have hdigits : ∀ n : ℕ, ∀ c ∈ Nat.toDigits 10 n, c.isDigit = true := fun n c => isDigit_toDigits
  have hslash : ∀ d : ℕ, ∀ c ∈ (if d = 1 then [] else '/' :: Nat.toDigits 10 d).head?,
      c.isDigit = false := by
    intro d c hc
    split_ifs at hc
    · cases hc
    · obtain rfl : '/' = c := by simpa using hc
      rfl
  have hhead : ∀ n : ℕ, ∀ t : Text, (Nat.toDigits 10 n ++ t).head? ≠ some '-' := by
    intro n t hn
    rcases hd : Nat.toDigits 10 n with _ | ⟨c, cs⟩
    · exact Nat.toDigits_ne_nil hd
    · rw [hd] at hn
      obtain rfl : c = '-' := by simpa using hn
      have := hdigits n '-' (by simp [hd])
      simp at this
  have hsign : (p.num < 0 ↔ q.num < 0) ∧
      Nat.toDigits 10 p.num.natAbs ++ (if p.den = 1 then [] else '/' :: Nat.toDigits 10 p.den)
        = Nat.toDigits 10 q.num.natAbs ++ (if q.den = 1 then [] else '/' :: Nat.toDigits 10 q.den) := by
    simp only [ratString, List.append_assoc] at h
    by_cases hp : p.num < 0 <;> by_cases hq : q.num < 0
    · simpa [hp, hq] using h
    · rw [if_pos hp, if_neg hq] at h
      exact absurd (congrArg List.head? h).symm (hhead _ _)
    · rw [if_neg hp, if_pos hq] at h
      exact absurd (congrArg List.head? h) (hhead _ _)
    · simpa [hp, hq] using h
  obtain ⟨hneg, habs⟩ := hsign
  obtain ⟨hnum, hden⟩ := digits_append_inj (hdigits _) (hdigits _) (hslash _) (hslash _) habs
  have hnum := toDigits_injective hnum
  have hden : p.den = q.den := by
    split_ifs at hden with hp hq hq
    · rw [hp, hq]
    · exact toDigits_injective (List.cons.inj hden).2
  exact Rat.ext (by omega) hden

theorem exactJSONNumber_of_inRange {literal : Text} {d : Decimal}
    (h : readDecimal literal = some d) (hd : Decimal.InRange d) :
    exactJSONNumber literal = ratString d.value := by
  obtain ⟨hexp, hscale⟩ := hd
  have hint : ¬(d.exponent < -2 ^ 63 ∨ 2 ^ 63 ≤ d.exponent) := by
    rw [maxRatExponent] at hexp
    omega
  rw [exactJSONNumber, setString, h]
  by_cases hzero : d.mantissa = 0
  · simp only [if_neg hint, if_pos hzero]
    simp [hzero, Decimal.value]
  · have hscale := not_lt.2 (hscale.resolve_left hzero)
    simp only [if_neg hint, if_neg hzero, if_neg hscale]

/-! ## Documents -/

/-- The normalized value of a document. -/
def normal (v : Value) : Value := normalizeJSONNumbers v.decoded

theorem normal_eq (v : Value) : normal v = v.rebuild exactJSONNumber (assignAll []) :=
  Value.mapNumbers_decoded _ v

@[simp] theorem normal_null : normal .null = .null := rfl

@[simp] theorem normal_bool (b : Bool) : normal (.bool b) = .bool b := rfl

@[simp] theorem normal_number (l : Text) : normal (.number l) = .number (exactJSONNumber l) := rfl

@[simp] theorem normal_string (s : Text) : normal (.string s) = .string s := rfl

@[simp] theorem normal_array (items : List Value) :
    normal (.array items) = .array (items.map normal) := by
  simp [funext normal_eq]

@[simp] theorem normal_object (members : List (Text × Value)) :
    normal (.object members) = .object (assignAll [] (mapValues normal members)) := by
  simp [funext normal_eq]

theorem map_eq_map_iff {α β : Type} {f : α → β} {vs ws : List α} :
    vs.map f = ws.map f ↔ vs.length = ws.length
      ∧ ∀ (i : ℕ) (v w : α), vs[i]? = some v → ws[i]? = some w → f v = f w := by
  constructor
  · intro h
    refine ⟨by simpa using congrArg List.length h, fun i v w hv hw => ?_⟩
    have hi := congrArg (·[i]?) h
    simpa [hv, hw] using hi
  · rintro ⟨hlen, h⟩
    refine List.ext_getElem (by simpa using hlen) fun i hi hi' => ?_
    rw [List.length_map] at hi hi'
    rw [List.getElem_map, List.getElem_map]
    exact h i _ _ (List.getElem?_eq_getElem hi) (List.getElem?_eq_getElem hi')

theorem normal_eq_iff (v : Value) : ∀ w, NumbersInRange v → NumbersInRange w →
    (normal v = normal w ↔ SameValue v w) := by
  induction v using Value.recursion with
  | null =>
    intro w _ _
    refine ⟨fun h => ?_, fun h => by cases h; rfl⟩
    cases w with
    | null => exact .null
    | _ => simp at h
  | bool b =>
    intro w _ _
    refine ⟨fun h => ?_, fun h => by cases h; rfl⟩
    cases w with
    | bool b' =>
      cases h
      exact .bool b
    | _ => simp at h
  | number l =>
    intro w hv hw
    constructor
    · intro h
      cases w with
      | number r =>
        obtain ⟨d, hd, hin⟩ := hv
        obtain ⟨e, he, hin'⟩ := hw
        rw [normal_number, normal_number, Value.number.injEq, exactJSONNumber_of_inRange hd hin,
          exactJSONNumber_of_inRange he hin'] at h
        exact .number hd he (ratString_injective h)
      | _ => simp at h
    · intro h
      cases h with
      | number hd he hval =>
        obtain ⟨d, hd', hin⟩ := hv
        obtain ⟨e, he', hin'⟩ := hw
        obtain rfl := Option.some.inj (hd'.symm.trans hd)
        obtain rfl := Option.some.inj (he'.symm.trans he)
        rw [normal_number, normal_number, exactJSONNumber_of_inRange hd hin,
          exactJSONNumber_of_inRange he hin', hval]
  | string s =>
    intro w _ _
    refine ⟨fun h => ?_, fun h => by cases h; rfl⟩
    cases w with
    | string s' =>
      cases h
      exact .string s
    | _ => simp at h
  | array vs ih =>
    intro w hv hw
    have hv := numbersInRange_array.1 hv
    constructor
    · intro h
      cases w with
      | array ws =>
        have hw := numbersInRange_array.1 hw
        simp only [normal_array, Value.array.injEq, map_eq_map_iff] at h
        refine .array h.1 fun i v w hi hi' => ?_
        have hmem := List.mem_of_getElem? hi
        have hmem' := List.mem_of_getElem? hi'
        exact (ih v hmem w (hv v hmem) (hw w hmem')).1 (h.2 i v w hi hi')
      | _ => simp at h
    · intro h
      cases h with
      | array hlen hsame =>
        have hw := numbersInRange_array.1 hw
        simp only [normal_array, Value.array.injEq, map_eq_map_iff]
        refine ⟨hlen, fun i v w hi hi' => ?_⟩
        have hmem := List.mem_of_getElem? hi
        have hmem' := List.mem_of_getElem? hi'
        exact (ih v hmem w (hv v hmem) (hw w hmem')).2 (hsame i v w hi hi')
  | object ms ih =>
    intro w hv hw
    have hv := numbersInRange_object.1 hv
    constructor
    · intro h
      cases w with
      | object ns =>
        have hw := numbersInRange_object.1 hw
        simp only [normal_object, Value.object.injEq, assignAll_eq_iff, last_mapValues] at h
        refine .object (fun k => ?_) fun k v w hk hk' => ?_
        · simpa using congrArg (· = none) (h k)
        · have hmem := last_mem hk
          have hmem' := last_mem hk'
          have heq := h k
          rw [hk, hk'] at heq
          exact (ih _ hmem w (hv _ hmem) (hw _ hmem')).1 (Option.some.inj heq)
      | _ => simp at h
    · intro h
      cases h with
      | object hkeys hsame =>
        have hw := numbersInRange_object.1 hw
        simp only [normal_object, Value.object.injEq, assignAll_eq_iff, last_mapValues]
        intro k
        rcases hk : last k ms with _ | v
        · rw [(hkeys k).1 hk]
        · rcases hk' : last k _ with _ | w
          · exact absurd ((hkeys k).2 hk') (by simp [hk])
          · have hmem := last_mem hk
            have hmem' := last_mem hk'
            exact congrArg some ((ih _ hmem w (hv _ hmem) (hw _ hmem')).2 (hsame k v w hk hk'))

/-! ## Comparing -/

theorem decodeExactJSON_eq (encoded : List UInt8) :
    decodeExactJSON encoded = (parse encoded).map normal := rfl

theorem jsonEqual_iff (l r : List UInt8) :
    jsonEqual l r = true ↔ (decodeExactJSON l = none ∨ decodeExactJSON r = none) ∧ l = r
      ∨ ∃ v, decodeExactJSON l = some v ∧ decodeExactJSON r = some v := by
  rw [jsonEqual]
  rcases decodeExactJSON l with _ | v <;> rcases decodeExactJSON r with _ | w
  · simp
  · simp
  · simp
  · refine (Value.equal_iff v w).trans ⟨fun h => .inr ⟨v, rfl, by rw [h]⟩, ?_⟩
    rintro (⟨h, _⟩ | ⟨u, hv, hw⟩)
    · simp at h
    · exact (Option.some.inj hv).trans (Option.some.inj hw).symm

/-- Two documents with numbers in range are equal if and only if they have the same value, and
being equal is an equivalence of all texts. -/
theorem jsonEqual_decides :
    (∀ l r v w, parse l = some v → parse r = some w → NumbersInRange v → NumbersInRange w →
      (jsonEqual l r = true ↔ SameValue v w))
    ∧ Equivalence fun l r => jsonEqual l r = true := by
  refine ⟨fun l r v w hl hr hv hw => ?_, fun l => ?_, fun {l r} h => ?_, fun {l m r} h h' => ?_⟩
  · rw [← normal_eq_iff v w hv hw, jsonEqual_iff, decodeExactJSON_eq, decodeExactJSON_eq, hl, hr]
    constructor
    · rintro (⟨h, _⟩ | ⟨u, hv, hw⟩)
      · simp at h
      · exact (Option.some.inj hv).trans (Option.some.inj hw).symm
    · intro h
      exact .inr ⟨normal v, rfl, congrArg some h.symm⟩
  · rw [jsonEqual_iff]
    rcases hd : decodeExactJSON l with _ | v <;> simp
  · rw [jsonEqual_iff] at h ⊢
    rcases h with ⟨hnone, rfl⟩ | ⟨v, hl, hr⟩
    · exact .inl ⟨hnone, rfl⟩
    · exact .inr ⟨v, hr, hl⟩
  · rw [jsonEqual_iff] at h h' ⊢
    rcases h with ⟨_, rfl⟩ | ⟨v, hl, hm⟩
    · exact h'
    · rcases h' with ⟨hnone, rfl⟩ | ⟨w, hm', hr⟩
      · exact .inr ⟨v, hl, hm⟩
      · exact .inr ⟨w, hl.trans (hm.symm.trans hm'), hr⟩

/-- `1` and `10e-1`. -/
theorem jsonEqual_decides_one : jsonEqual [0x31] [0x31, 0x30, 0x65, 0x2d, 0x31] = true := by
  refine (jsonEqual_decides.1 [0x31] [0x31, 0x30, 0x65, 0x2d, 0x31] (.number ['1'])
    (.number ['1', '0', 'e', '-', '1']) (by decide +kernel) (by decide +kernel) ?_ ?_).2 ?_
  · exact ⟨⟨false, ['1'], [], 0⟩, by decide +kernel, by decide, by decide⟩
  · exact ⟨⟨false, ['1', '0'], [], -1⟩, by decide +kernel, by decide, by decide⟩
  · exact .number (d := ⟨false, ['1'], [], 0⟩) (e := ⟨false, ['1', '0'], [], -1⟩)
      (by decide +kernel) (by decide +kernel) (by decide +kernel)

/-- `0.01e-999999`. -/
def smallNumber : List UInt8 :=
  [0x30, 0x2e, 0x30, 0x31, 0x65, 0x2d, 0x39, 0x39, 0x39, 0x39, 0x39, 0x39]

/-- `0.010e-999999`. -/
def smallNumberLonger : List UInt8 :=
  [0x30, 0x2e, 0x30, 0x31, 0x30, 0x65, 0x2d, 0x39, 0x39, 0x39, 0x39, 0x39, 0x39]

/-- The same number written twice, with exponents below a million, is not equal to itself. -/
theorem jsonEqual_smallNumber :
    ∃ l r d e, parse smallNumber = some (.number l) ∧ parse smallNumberLonger = some (.number r)
      ∧ readDecimal l = some d ∧ readDecimal r = some e
      ∧ d.exponent.natAbs < maxRatExponent ∧ e.exponent.natAbs < maxRatExponent
      ∧ SameValue (.number l) (.number r) ∧ jsonEqual smallNumber smallNumberLonger = false := by
  refine ⟨"0.01e-999999".toList, "0.010e-999999".toList, ⟨false, ['0'], ['0', '1'], -999999⟩,
    ⟨false, ['0'], ['0', '1', '0'], -999999⟩, by decide +kernel, by decide +kernel,
    by decide +kernel, by decide +kernel, by decide, by decide, ?_, by decide +kernel⟩
  refine .number (d := ⟨false, ['0'], ['0', '1'], -999999⟩)
    (e := ⟨false, ['0'], ['0', '1', '0'], -999999⟩) (by decide +kernel) (by decide +kernel) ?_
  have hd : Decimal.mantissa ⟨false, ['0'], ['0', '1'], -999999⟩ = 1 := by decide
  have hd' : Decimal.scale ⟨false, ['0'], ['0', '1'], -999999⟩ = 1 + -1000002 := by decide
  have he : Decimal.mantissa ⟨false, ['0'], ['0', '1', '0'], -999999⟩ = 10 := by decide
  have he' : Decimal.scale ⟨false, ['0'], ['0', '1', '0'], -999999⟩ = -1000002 := by decide
  rw [Decimal.value, Decimal.value, hd, he, hd', he', zpow_one_add₀ (by decide)]
  exact one_mul _

end Atlas.Core
