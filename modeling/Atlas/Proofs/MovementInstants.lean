import Atlas.Core.MovementTime
import Atlas.Sdk.MovementTime

/-!
# Core and the client order times alike

Both replace the digits of a leap second, read the rest and count the second that was taken away.
What Core reads is the instant to the nanosecond (`parseMovementTimestamp_eq`). The client's
milliseconds are those of the same instant, and where they are the same for two times the nine
digits of the fractions compare like the nanoseconds.
-/

namespace Atlas

open Rfc3339

/-! ## Reading -/

section Reading

/-- A timestamp up to its seconds, its seconds, and what follows them. With other digits for the
seconds only these change. -/
theorem read_parts {text : Text} {s : Stamp} (h : read text = some s) :
    ∃ (head rest zone : Text) (s₁ s₂ : Char), text = head ++ s₁ :: s₂ :: rest ∧ head.length = 17
      ∧ '.' ∉ head ∧ s₁.isDigit = true ∧ s₂.isDigit = true ∧ s.second = natural [s₁, s₂]
      ∧ readFraction rest = some (s.fraction, zone) ∧ (readZone zone).isSome
      ∧ ∀ t₁ t₂ : Char, t₁.isDigit = true → t₂.isDigit = true →
        read (head ++ t₁ :: t₂ :: rest) = some { s with second := natural [t₁, t₂] } := by
  unfold Rfc3339.read at h
  split at h
  · rename_i y₁ y₂ y₃ y₄ p m₁ m₂ q d₁ d₂ t h₁ h₂ r n₁ n₂ u s₁ s₂ rest
    split_ifs at h with hdigits
    rcases hf : readFraction rest with _ | ⟨fraction, zone⟩
    · simp [hf] at h
    · rcases hz : readZone zone with _ | offset
      · simp [hf, hz] at h
      · simp only [hf, hz, Option.map_some, Option.some.injEq] at h
        subst h
        obtain ⟨hall, rfl, rfl, ht, rfl, rfl⟩ := hdigits
        simp only [List.all_cons, List.all_nil, Bool.and_true, Bool.and_eq_true] at hall
        have hall' := hall
        obtain ⟨hy₁, hy₂, hy₃, hy₄, hm₁, hm₂, hd₁, hd₂, hh₁, hh₂, hn₁, hn₂, hs₁, hs₂⟩ := hall'
        refine ⟨[y₁, y₂, y₃, y₄, '-', m₁, m₂, '-', d₁, d₂, t, h₁, h₂, ':', n₁, n₂, ':'], rest, zone,
          s₁, s₂, rfl, rfl, ?_, hs₁, hs₂, rfl, hf, by simp [hz], fun t₁ t₂ ht₁ ht₂ => ?_⟩
        · have hne : ∀ c : Char, c.isDigit = true → '.' ≠ c := by
            rintro c hc rfl
            simp at hc
          have ht' : '.' ≠ t := by
            rcases ht with rfl | rfl <;> decide
          simp only [List.mem_cons, List.not_mem_nil, or_false, not_or]
          exact ⟨hne _ hy₁, hne _ hy₂, hne _ hy₃, hne _ hy₄, by decide, hne _ hm₁, hne _ hm₂,
            by decide, hne _ hd₁, hne _ hd₂, ht', hne _ hh₁, hne _ hh₂, by decide, hne _ hn₁,
            hne _ hn₂, by decide⟩
        · simp [Rfc3339.read, hall, ht, ht₁, ht₂, hf, hz]
  · cases h

theorem toUpper_digit {c : Char} (h : c.isDigit = true) : c.toUpper = c := by
  have hrange := digit_range h
  unfold Char.toUpper
  split_ifs with hlow
  · have hlow := UInt32.le_iff_toNat_le.1 hlow.1
    have : 97 ≤ c.toNat := hlow
    omega
  · rfl

theorem map_toUpper_digits {digits : Text} (h : ∀ c ∈ digits, c.isDigit = true) :
    digits.map Char.toUpper = digits := by
  rw [List.map_congr_left fun c hc => toUpper_digit (h c hc)]
  exact List.map_id' digits

theorem readZone_upper {zone : Text} {offset : ℤ} (h : readZone zone = some offset) :
    readZone (zone.map Char.toUpper) = some offset ∧ ∀ c ∈ (zone.map Char.toUpper).head?,
      c.isDigit = false ∧ c ≠ '.' := by
  unfold readZone at h
  split at h
  · rename_i z
    split_ifs at h with hz
    rcases hz with rfl | rfl
    · refine ⟨h, fun c hc => ?_⟩
      cases hc
      decide
    · refine ⟨h, fun c hc => ?_⟩
      cases hc
      decide
  · rename_i sign h₁ h₂ colon m₁ m₂
    split at h
    case isFalse => cases h
    rename_i hzone
    obtain ⟨hsign, rfl, hall, hrest⟩ := hzone
    have hall' := hall
    simp only [List.all_cons, List.all_nil, Bool.and_true, Bool.and_eq_true] at hall'
    obtain ⟨hd₁, hd₂, hd₃, hd₄⟩ := hall'
    have hcolon : Char.toUpper ':' = ':' := by decide
    have hup : sign.toUpper = sign := by rcases hsign with rfl | rfl <;> decide
    simp only [List.map_cons, List.map_nil, toUpper_digit hd₁, toUpper_digit hd₂, toUpper_digit hd₃,
      toUpper_digit hd₄, hcolon, hup]
    refine ⟨?_, ?_⟩
    · rw [readZone, if_pos ⟨hsign, rfl, hall, hrest⟩]
      exact h
    · rintro c hc
      obtain rfl : sign = c := by simpa using hc
      rcases hsign with rfl | rfl <;> decide
  · cases h

theorem readFraction_upper {rest fraction zone : Text} {offset : ℤ}
    (h : readFraction rest = some (fraction, zone)) (hzone : readZone zone = some offset) :
    readFraction (rest.map Char.toUpper) = some (fraction, zone.map Char.toUpper) := by
  have hhead := (readZone_upper hzone).2
  rcases rest with _ | ⟨c, rest⟩
  · obtain ⟨rfl, rfl⟩ : [] = fraction ∧ [] = zone := by simpa [readFraction] using h
    cases hzone
  · rw [readFraction] at h
    by_cases hc : c = '.'
    · subst hc
      rw [if_pos rfl] at h
      split_ifs at h with hdigits
      obtain ⟨hf, hz⟩ : rest.takeWhile Char.isDigit = fraction ∧ rest.dropWhile Char.isDigit = zone := by
        simpa using h
      have hall : ∀ c ∈ fraction, c.isDigit = true := by
        intro c hc
        rw [← hf] at hc
        exact List.mem_takeWhile_imp hc
      have hrest : rest.map Char.toUpper = fraction ++ zone.map Char.toUpper := by
        rw [← List.takeWhile_append_dropWhile (p := Char.isDigit) (l := rest), hf, hz,
          List.map_append, map_toUpper_digits hall]
      have htake : (fraction ++ zone.map Char.toUpper).takeWhile Char.isDigit = fraction
          ∧ (fraction ++ zone.map Char.toUpper).dropWhile Char.isDigit = zone.map Char.toUpper := by
        rw [List.takeWhile_append_of_pos hall, List.dropWhile_append_of_pos hall]
        rcases hz' : zone.map Char.toUpper with _ | ⟨d, ds⟩
        · simp
        · rw [hz'] at hhead
          have := (hhead d rfl).1
          simp [this]
      rw [List.map_cons, readFraction, show Char.toUpper '.' = '.' from by decide, if_pos rfl, hrest,
        htake.1, htake.2, if_neg (by rwa [← hf])]
    · rw [if_neg hc] at h
      obtain ⟨rfl, rfl⟩ : [] = fraction ∧ c :: rest = zone := by simpa using h
      have hne : c.toUpper ≠ '.' := (hhead c.toUpper (by simp)).2
      rw [List.map_cons, readFraction, if_neg hne]

theorem read_upper {text : Text} {s : Stamp} (h : read text = some s) :
    read (text.map Char.toUpper) = some s := by
  unfold Rfc3339.read at h
  split at h
  · rename_i y₁ y₂ y₃ y₄ p m₁ m₂ q d₁ d₂ t h₁ h₂ r n₁ n₂ u s₁ s₂ rest
    split_ifs at h with hdigits
    rcases hf : readFraction rest with _ | ⟨fraction, zone⟩
    · simp [hf] at h
    · rcases hz : readZone zone with _ | offset
      · simp [hf, hz] at h
      · obtain ⟨hall, rfl, rfl, ht, rfl, rfl⟩ := hdigits
        have hall' := map_toUpper_digits (fun c hc => List.all_eq_true.1 hall c hc)
        simp only [List.map_cons, List.map_nil, List.cons.injEq, and_true] at hall'
        have ht' : t.toUpper = 'T' ∨ t.toUpper = 't' := by
          rcases ht with rfl | rfl <;> decide
        have hdash : Char.toUpper '-' = '-' := by decide
        have hcolon : Char.toUpper ':' = ':' := by decide
        simp only [List.map_cons, hall', hdash, hcolon]
        rw [Rfc3339.read, if_pos ⟨hall, rfl, rfl, ht', rfl, rfl⟩, readFraction_upper hf hz]
        simp only [hf, hz, Option.map_some] at h
        simp only [(readZone_upper hz).1, Option.map_some, h]
  · cases h

/-- With the seconds of a leap second replaced, a timestamp stands for the second before. -/
theorem read_leap {text : Text} {s : Stamp} (h : read text = some s) :
    ((text.drop 17).take 2 = ['6', '0'] ↔ s.second = 60)
      ∧ read (text.take 17 ++ ['5', '9'] ++ text.drop 19) = some { s with second := 59 } := by
  obtain ⟨head, rest, zone, s₁, s₂, rfl, hlen, -, hs₁, hs₂, hsecond, -, -, hread⟩ := read_parts h
  have hdrop : (head ++ s₁ :: s₂ :: rest).drop 17 = s₁ :: s₂ :: rest := by
    rw [← hlen, List.drop_left]
  have htake : (head ++ s₁ :: s₂ :: rest).take 17 = head := by
    rw [← hlen, List.take_left]
  have hdrop' : (head ++ s₁ :: s₂ :: rest).drop 19 = rest := by
    rw [show 19 = 17 + 2 from rfl, ← List.drop_drop, hdrop]
    rfl
  refine ⟨?_, ?_⟩
  · rw [hdrop, hsecond]
    refine ⟨fun heq => ?_, fun hnat => ?_⟩
    · rw [show [s₁, s₂] = ['6', '0'] from heq]
      rfl
    · exact natural_inj (by simp [hs₁, hs₂]) (by simp) rfl hnat
  · rw [htake, hdrop']
    have hread := hread '5' '9' rfl rfl
    rw [show natural ['5', '9'] = 59 from rfl] at hread
    simpa using hread

theorem fractionDigits_eq {text : Text} {s : Stamp} (h : read text = some s) :
    Sdk.fractionDigits text = s.fraction ∧ ∀ c ∈ s.fraction, c.isDigit = true := by
  obtain ⟨head, rest, zone, s₁, s₂, rfl, -, hhead, hs₁, hs₂, -, hf, hz, -⟩ := read_parts h
  obtain ⟨offset, hz⟩ := Option.isSome_iff_exists.1 hz
  have hskip : ∀ (before after : Text), '.' ∉ before →
      Sdk.fractionDigits (before ++ after) = Sdk.fractionDigits after := by
    intro before after hb
    induction before with
    | nil => rfl
    | cons c before ih =>
      have hc : ¬c = '.' := fun h => hb (by simp [h])
      rw [List.cons_append, Sdk.fractionDigits, if_neg fun h => hc h.1]
      exact ih fun h => hb (List.mem_cons_of_mem _ h)
  have hdigit : ∀ {c : Char}, c.isDigit = true → '.' ≠ c := by
    rintro c hc rfl
    simp at hc
  have hzone : '.' ∉ zone := by
    unfold readZone at hz
    split at hz
    · split_ifs at hz with hz'
      rcases hz' with rfl | rfl <;> simp
    · rename_i sign h₁ h₂ colon m₁ m₂ _
      split at hz
      case isFalse => cases hz
      rename_i hz'
      obtain ⟨hsign, rfl, hall, -⟩ := hz'
      have hsign' : '.' ≠ sign := by
        rcases hsign with rfl | rfl <;> decide
      simp only [List.all_cons, List.all_nil, Bool.and_true, Bool.and_eq_true] at hall
      simp only [List.mem_cons, List.not_mem_nil, or_false, not_or]
      exact ⟨hsign', hdigit hall.1, hdigit hall.2.1, by decide, hdigit hall.2.2.1, hdigit hall.2.2.2⟩
    · cases hz
  rw [show head ++ s₁ :: s₂ :: rest = (head ++ [s₁, s₂]) ++ rest by simp, hskip _ _ (by
    simp only [List.mem_append, List.mem_cons, List.not_mem_nil, or_false, not_or]
    exact ⟨hhead, hdigit hs₁, hdigit hs₂⟩)]
  have hnone : Sdk.fractionDigits zone = [] := by
    have := hskip zone [] hzone
    rwa [List.append_nil] at this
  rcases rest with _ | ⟨c, rest⟩
  · obtain ⟨hf, rfl⟩ : [] = s.fraction ∧ [] = zone := by simpa [readFraction] using hf
    cases hz
  · rw [readFraction] at hf
    by_cases hc : c = '.'
    · rw [if_pos hc] at hf
      split_ifs at hf with hdigits
      have hf' : rest.takeWhile Char.isDigit = s.fraction := by
        have := congrArg (Option.map Prod.fst) hf
        simpa using this
      rw [Sdk.fractionDigits, if_pos ⟨hc, hdigits⟩]
      refine ⟨hf', fun c hc => ?_⟩
      rw [← hf'] at hc
      exact List.mem_takeWhile_imp hc
    · rw [if_neg hc] at hf
      obtain ⟨hnil, rfl⟩ : [] = s.fraction ∧ c :: rest = zone := by simpa using hf
      rw [hnone, ← hnil]
      exact ⟨rfl, by simp⟩

end Reading

/-! ## Instants -/

section Instants

theorem isRFC3339Timestamp_iff {value : String} :
    Core.isRFC3339Timestamp value = true ↔ ∃ s, read value.toList = some s ∧ s.Valid := by
  unfold Core.isRFC3339Timestamp
  rcases read value.toList with _ | s <;> simp

/-- The second before a leap second, or the same time. -/
theorem valid_second {s : Stamp} (h : s.Valid) (hs : s.second = 60) :
    Stamp.Valid { s with second := 59 } ∧ Stamp.seconds { s with second := 59 } = s.seconds - 1 := by
  obtain ⟨hm, hm', hd, hd', hh, hn, -⟩ := h
  refine ⟨⟨hm, hm', hd, hd', hh, hn, .inl (le_refl 59)⟩, ?_⟩
  simp only [Stamp.seconds, Stamp.days, Stamp.utcMinutes, hs]
  push_cast
  ring

/-- Core reads a timestamp as its instant. -/
theorem parseMovementTimestamp_eq {value : String} {s : Stamp} (h : read value.toList = some s)
    (hvalid : s.Valid) :
    Core.parseMovementTimestamp value = .ok (s.seconds * 10 ^ 9 + s.nanoseconds) := by
  have hupper := read_upper h
  obtain ⟨hleap, hbefore⟩ := read_leap hupper
  have haccepted : Core.isRFC3339Timestamp value = true := isRFC3339Timestamp_iff.2 ⟨s, h, hvalid⟩
  unfold Core.parseMovementTimestamp Core.timeParse
  rw [if_neg (by simp [haccepted])]
  by_cases hs : s.second = 60
  · obtain ⟨hvalid', hseconds⟩ := valid_second hvalid hs
    simp only [hleap.2 hs, if_true, hbefore, if_pos (And.intro hvalid' (le_refl 59)), hseconds]
    congr 1
    simp only [Stamp.nanoseconds]
    ring
  · have hle : s.second ≤ 59 := by
      rcases hvalid.2.2.2.2.2.2 with hle | ⟨hle, -⟩
      · exact hle
      · exact absurd hle hs
    simp only [if_neg (hleap.not.2 hs), hupper, if_pos (And.intro hvalid hle)]

/-- The client reads its milliseconds. -/
theorem movementMilliseconds_eq {value : String} {s : Stamp} (h : read value.toList = some s)
    (hvalid : s.Valid) :
    Sdk.movementMilliseconds value
      = some ((s.seconds - daysBeforeYear 1970 * 86400) * 1000 + s.milliseconds) := by
  obtain ⟨hleap, hbefore⟩ := read_leap h
  unfold Sdk.movementMilliseconds Sdk.dateParse
  by_cases hs : s.second = 60
  · obtain ⟨hvalid', hseconds⟩ := valid_second hvalid hs
    simp only [hleap.2 hs, if_true, hbefore, if_pos (And.intro hvalid' (le_refl 59)), hseconds,
      Option.map_some]
    congr 1
    simp only [Stamp.milliseconds]
    ring
  · have hle : s.second ≤ 59 := by
      rcases hvalid.2.2.2.2.2.2 with hle | ⟨hle, -⟩
      · exact hle
      · exact absurd hle hs
    simp only [if_neg (hleap.not.2 hs), h, if_pos (And.intro hvalid hle)]

theorem sign_eq_of {x y : ℤ} (hneg : x < 0 ↔ y < 0) (hpos : 0 < x ↔ 0 < y) : x.sign = y.sign := by
  rcases lt_trichotomy x 0 with h | h | h
  · rw [Int.sign_eq_neg_one_of_neg h, Int.sign_eq_neg_one_of_neg (hneg.1 h)]
  · have : y = 0 := by omega
    rw [h, this]
  · rw [Int.sign_eq_one_of_pos h, Int.sign_eq_one_of_pos (hpos.1 h)]

/-- What Core writes of a time it reads as that time. -/
theorem parseMovementTimestamp_movementTime {t : ℤ} (h : Printable t) :
    Core.parseMovementTimestamp (Core.movementTime t) = .ok t := by
  obtain ⟨s, hs, hvalid, -, ht⟩ := read_format h
  rw [parseMovementTimestamp_eq (by rwa [Core.movementTime, String.toList_ofList]) hvalid, ht]

/-- What Core writes of a time before the year zero is not a timestamp. -/
theorem movementTime_early {t : ℤ} (h : t < daysBeforeYear 0 * (86400 * 10 ^ 9)) :
    Core.isRFC3339Timestamp (Core.movementTime t) = false := by
  rw [Core.isRFC3339Timestamp, Core.movementTime, String.toList_ofList, read_format_early h]

theorem isRFC3339Timestamp_of_parse {value : String} {t : ℤ}
    (h : Core.parseMovementTimestamp value = .ok t) : Core.isRFC3339Timestamp value = true := by
  unfold Core.parseMovementTimestamp at h
  by_contra hnot
  rw [if_pos hnot] at h
  cases h

/-- The comparison of two timestamps has the sign of the difference of the instants that Core
reads. -/
theorem compareMovementInstants_parse {a b : String} {i j : ℤ}
    (ha : Core.parseMovementTimestamp a = .ok i) (hb : Core.parseMovementTimestamp b = .ok j)
    (k : ℤ) : ∃ c, Sdk.compareMovementInstants a b (60000 * k) = some c
      ∧ c.sign = (i - (j + k * (60 * 10 ^ 9))).sign := by
  obtain ⟨s, hs, hvalid⟩ := isRFC3339Timestamp_iff.1 (isRFC3339Timestamp_of_parse ha)
  obtain ⟨t, ht, hvalid'⟩ := isRFC3339Timestamp_iff.1 (isRFC3339Timestamp_of_parse hb)
  rw [parseMovementTimestamp_eq hs hvalid, Except.ok.injEq] at ha
  rw [parseMovementTimestamp_eq ht hvalid', Except.ok.injEq] at hb
  subst ha hb
  obtain ⟨hfs, hds⟩ := fractionDigits_eq hs
  obtain ⟨hft, hdt⟩ := fractionDigits_eq ht
  have hms : s.milliseconds = s.nanoseconds / 10 ^ 6 := natural_padded (by decide) hds
  have hmt : t.milliseconds = t.nanoseconds / 10 ^ 6 := natural_padded (by decide) hdt
  have hlt : s.nanoseconds < t.nanoseconds ↔ padded 9 s.fraction < padded 9 t.fraction :=
    (lt_iff_natural_lt (padded_digits hds) (padded_digits hdt)
      (by rw [padded_length, padded_length])).symm
  have heq : padded 9 s.fraction = padded 9 t.fraction ↔ s.nanoseconds = t.nanoseconds :=
    ⟨fun h => congrArg natural h, natural_inj (padded_digits hds) (padded_digits hdt)
      (by rw [padded_length, padded_length])⟩
  rw [Sdk.compareMovementInstants, movementMilliseconds_eq hs hvalid,
    movementMilliseconds_eq ht hvalid']
  simp only [hfs, hft]
  have hbound := natural_lt (padded_digits (n := 9) hds)
  have hbound' := natural_lt (padded_digits (n := 9) hdt)
  rw [padded_length] at hbound hbound'
  change s.nanoseconds < 10 ^ 9 at hbound
  change t.nanoseconds < 10 ^ 9 at hbound'
  split_ifs with hne hsame hless
  · refine ⟨_, rfl, sign_eq_of ?_ ?_⟩ <;> omega
  · rw [heq] at hsame
    refine ⟨_, rfl, sign_eq_of ?_ ?_⟩ <;> omega
  · rw [← hlt] at hless
    refine ⟨_, rfl, sign_eq_of ?_ ?_⟩ <;> omega
  · rw [heq] at hsame
    rw [← hlt] at hless
    refine ⟨_, rfl, sign_eq_of ?_ ?_⟩ <;> omega

/-- For two timestamps that the Protocol accepts, and an offset of whole minutes, the client's
comparison has the sign of the difference of the instants that Core reads. -/
theorem compareMovementInstants_sign (a b : String) (ha : Core.isRFC3339Timestamp a = true)
    (hb : Core.isRFC3339Timestamp b = true) (k : ℤ) :
    ∃ i j c, Core.parseMovementTimestamp a = .ok i ∧ Core.parseMovementTimestamp b = .ok j
      ∧ Sdk.compareMovementInstants a b (60000 * k) = some c
      ∧ c.sign = (i - (j + k * (60 * 10 ^ 9))).sign := by
  obtain ⟨s, hs, hvalid⟩ := isRFC3339Timestamp_iff.1 ha
  obtain ⟨t, ht, hvalid'⟩ := isRFC3339Timestamp_iff.1 hb
  have hi := parseMovementTimestamp_eq hs hvalid
  have hj := parseMovementTimestamp_eq ht hvalid'
  obtain ⟨c, hc, hsign⟩ := compareMovementInstants_parse hi hj k
  exact ⟨_, _, c, hi, hj, hc, hsign⟩

/-- A leap second and the midnight after it, written in another zone. -/
theorem compareMovementInstants_sign_leap :
    ∃ c, Sdk.compareMovementInstants "2016-12-31T23:59:60.5Z" "2017-01-01T01:00:00.50+01:00" 0
      = some c ∧ c.sign = 0 := by
  obtain ⟨i, j, c, hi, hj, hc, hsign⟩ := compareMovementInstants_sign "2016-12-31T23:59:60.5Z"
    "2017-01-01T01:00:00.50+01:00" (by decide +kernel) (by decide +kernel) 0
  have hij : Core.parseMovementTimestamp "2016-12-31T23:59:60.5Z"
      = Core.parseMovementTimestamp "2017-01-01T01:00:00.50+01:00" := by decide +kernel
  obtain rfl := Except.ok.inj (hi.symm.trans (hij.trans hj))
  exact ⟨c, hc, by simpa using hsign⟩

end Instants

end Atlas
