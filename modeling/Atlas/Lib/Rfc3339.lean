import Mathlib

/-!
# Timestamps

A timestamp is nineteen characters up to its second, a fraction that may be missing, and a zone.
`read` takes one apart; what it stands for is counted from the first day of the year 1 in UTC
(`Stamp.seconds`), and of its fraction some digits are read (`padded`). Digit strings of one length
compare like the numbers they write (`lt_iff_natural_lt`). A time in UTC that has a year of four
digits is read back as it was written (`read_format`).
-/

namespace Rfc3339

abbrev Text := List Char

def natural (digits : Text) : ℕ := Nat.ofDigitChars 10 digits 0

structure Stamp where
  year : ℕ
  month : ℕ
  day : ℕ
  hour : ℕ
  minute : ℕ
  second : ℕ
  fraction : Text
  /-- Minutes ahead of UTC. -/
  offset : ℤ
  deriving DecidableEq, Repr

def isLeapYear (year : ℕ) : Bool := year % 4 = 0 ∧ (year % 100 ≠ 0 ∨ year % 400 = 0)

def daysInMonth (year month : ℕ) : ℕ :=
  if month = 2 then (if isLeapYear year then 29 else 28)
  else [31, 28, 31, 30, 31, 30, 31, 31, 30, 31, 30, 31].getD (month - 1) 0

/-- The days of the years before, from the year 1 on. -/
def daysBeforeYear (year : ℕ) : ℤ :=
  let y : ℤ := year - 1
  365 * y + y / 4 - y / 100 + y / 400

/-- The days of the months before. -/
def daysBeforeMonth (year month : ℕ) : ℕ :=
  ((List.range' 1 (month - 1)).map (daysInMonth year)).sum

namespace Stamp

def days (s : Stamp) : ℤ :=
  daysBeforeYear s.year + daysBeforeMonth s.year s.month + ((s.day : ℤ) - 1)

/-- The minute of the day in UTC, which may be one before or after it. -/
def utcMinutes (s : Stamp) : ℤ := s.hour * 60 + s.minute - s.offset

def seconds (s : Stamp) : ℤ := s.days * 86400 + s.utcMinutes * 60 + s.second

/-- The date and the time of day exist; a leap second is at the end of a day. -/
def Valid (s : Stamp) : Prop :=
  1 ≤ s.month ∧ s.month ≤ 12 ∧ 1 ≤ s.day ∧ s.day ≤ daysInMonth s.year s.month
    ∧ s.hour ≤ 23 ∧ s.minute ≤ 59
    ∧ (s.second ≤ 59 ∨ s.second = 60 ∧ s.utcMinutes % 1440 = 1439)

instance (s : Stamp) : Decidable s.Valid := by
  unfold Valid
  infer_instance

end Stamp

/-- The digits of a fraction, none if there is none, and what follows. -/
def readFraction : Text → Option (Text × Text)
  | [] => some ([], [])
  | c :: rest =>
    if c = '.' then
      if rest.takeWhile Char.isDigit = [] then none
      else some (rest.takeWhile Char.isDigit, rest.dropWhile Char.isDigit)
    else some ([], c :: rest)

/-- The minutes ahead of UTC. -/
def readZone : Text → Option ℤ
  | [z] => if z = 'Z' ∨ z = 'z' then some 0 else none
  | [sign, h₁, h₂, colon, m₁, m₂] =>
    if (sign = '+' ∨ sign = '-') ∧ colon = ':' ∧ [h₁, h₂, m₁, m₂].all Char.isDigit
        ∧ natural [h₁, h₂] ≤ 23 ∧ natural [m₁, m₂] ≤ 59 then
      let minutes : ℤ := natural [h₁, h₂] * 60 + natural [m₁, m₂]
      some (if sign = '+' then minutes else -minutes)
    else none
  | _ => none

def read : Text → Option Stamp
  | y₁ :: y₂ :: y₃ :: y₄ :: p :: m₁ :: m₂ :: q :: d₁ :: d₂ :: t :: h₁ :: h₂ :: r :: n₁ :: n₂ :: u
      :: s₁ :: s₂ :: rest =>
    if [y₁, y₂, y₃, y₄, m₁, m₂, d₁, d₂, h₁, h₂, n₁, n₂, s₁, s₂].all Char.isDigit ∧ p = '-' ∧ q = '-'
        ∧ (t = 'T' ∨ t = 't') ∧ r = ':' ∧ u = ':' then
      match readFraction rest with
      | none => none
      | some (fraction, zone) =>
        (readZone zone).map fun offset =>
          { year := natural [y₁, y₂, y₃, y₄]
            month := natural [m₁, m₂]
            day := natural [d₁, d₂]
            hour := natural [h₁, h₂]
            minute := natural [n₁, n₂]
            second := natural [s₁, s₂]
            fraction
            offset }
    else none
  | _ => none

/-- The first digits, filled up with zeros. -/
def padded (n : ℕ) (digits : Text) : Text :=
  digits.take n ++ List.replicate (n - (digits.take n).length) '0'

/-- The nanoseconds of a fraction. -/
def Stamp.nanoseconds (s : Stamp) : ℕ := natural (padded 9 s.fraction)

def Stamp.milliseconds (s : Stamp) : ℕ := natural (padded 3 s.fraction)

/-! ## Digits -/

section Digits

theorem natural_cons (c : Char) (digits : Text) :
    natural (c :: digits) = (c.toNat - '0'.toNat) * 10 ^ digits.length + natural digits := by
  rw [natural, Nat.ofDigitChars_cons, Nat.ofDigitChars_eq_ofDigitChars_zero, natural]
  ring

theorem digit_range {c : Char} (h : c.isDigit = true) : 48 ≤ c.toNat ∧ c.toNat ≤ 57 := by
  simp only [Char.isDigit, Bool.and_eq_true, decide_eq_true_eq] at h
  exact ⟨UInt32.le_iff_toNat_le.1 h.1, UInt32.le_iff_toNat_le.1 h.2⟩

theorem natural_lt : ∀ {digits : Text}, (∀ c ∈ digits, c.isDigit = true) →
    natural digits < 10 ^ digits.length
  | [], _ => by simp [natural]
  | c :: digits, h => by
    obtain ⟨hc, hdigits⟩ := List.forall_mem_cons.1 h
    have hlt := natural_lt hdigits
    have hrange := digit_range hc
    rw [natural_cons, List.length_cons, pow_succ, show '0'.toNat = 48 from rfl]
    have : (c.toNat - 48) * 10 ^ digits.length ≤ 9 * 10 ^ digits.length :=
      Nat.mul_le_mul_right _ (by omega)
    omega

theorem natural_append (a b : Text) :
    natural (a ++ b) = natural a * 10 ^ b.length + natural b := by
  induction a with
  | nil => simp [natural]
  | cons c a ih =>
    rw [List.cons_append, natural_cons, ih, natural_cons, List.length_append, pow_add]
    ring

theorem char_lt_iff {c d : Char} : c < d ↔ c.toNat < d.toNat := by
  rw [Char.lt_def]
  exact UInt32.lt_iff_toNat_lt

/-- Digit strings of one length compare like their numbers. -/
theorem lt_iff_natural_lt : ∀ {a b : Text}, (∀ c ∈ a, c.isDigit = true) →
    (∀ c ∈ b, c.isDigit = true) → a.length = b.length → (a < b ↔ natural a < natural b)
  | [], [], _, _, _ => by simp [natural]
  | c :: a, d :: b, ha, hb, h => by
    obtain ⟨hc, ha⟩ := List.forall_mem_cons.1 ha
    obtain ⟨hd, hb⟩ := List.forall_mem_cons.1 hb
    have hlen : a.length = b.length := by simpa using h
    have hlt := natural_lt ha
    have hlt' := natural_lt hb
    have hrange := digit_range hc
    have hrange' := digit_range hd
    rw [List.cons_lt_cons_iff, natural_cons, natural_cons, lt_iff_natural_lt ha hb hlen,
      char_lt_iff, hlen, show '0'.toNat = 48 from rfl]
    rw [hlen] at hlt
    constructor
    · rintro (hcd | ⟨rfl, hab⟩)
      · have hle : (c.toNat - 48) + 1 ≤ d.toNat - 48 := by omega
        have := Nat.mul_le_mul_right (10 ^ b.length) hle
        rw [Nat.add_mul] at this
        omega
      · omega
    · intro hab
      rcases lt_trichotomy c.toNat d.toNat with hcd | hcd | hcd
      · exact .inl hcd
      · obtain rfl := Char.toNat_inj.1 hcd
        exact .inr ⟨rfl, by omega⟩
      · have hle : (d.toNat - 48) + 1 ≤ c.toNat - 48 := by omega
        have := Nat.mul_le_mul_right (10 ^ b.length) hle
        rw [Nat.add_mul] at this
        omega

theorem natural_inj {a b : Text} (ha : ∀ c ∈ a, c.isDigit = true) (hb : ∀ c ∈ b, c.isDigit = true)
    (hlen : a.length = b.length) (h : natural a = natural b) : a = b := by
  rcases lt_trichotomy a b with hlt | heq | hlt
  · exact absurd ((lt_iff_natural_lt ha hb hlen).1 hlt) (by omega)
  · exact heq
  · exact absurd ((lt_iff_natural_lt hb ha hlen.symm).1 hlt) (by omega)

theorem padded_length (n : ℕ) (digits : Text) : (padded n digits).length = n := by
  simp [padded]

theorem padded_digits {n : ℕ} {digits : Text} (h : ∀ c ∈ digits, c.isDigit = true) :
    ∀ c ∈ padded n digits, c.isDigit = true := by
  intro c hc
  rcases List.mem_append.1 hc with hc | hc
  · exact h c (List.mem_of_mem_take hc)
  · rw [List.eq_of_mem_replicate hc]
    rfl

theorem padded_eq_append {m n : ℕ} (h : m ≤ n) (digits : Text) :
    ∃ rest, padded n digits = padded m digits ++ rest ∧ rest.length = n - m := by
  refine ⟨(padded n digits).drop m, ?_, by simp [padded_length]⟩
  have htake : (padded n digits).take m = padded m digits := by
    rw [padded, padded, List.take_append, List.take_take, min_eq_left h, List.take_replicate]
    congr 2
    simp only [List.length_take]
    omega
  rw [← htake, List.take_append_drop]

/-- Fewer digits are the larger number without its last ones. -/
theorem natural_padded {m n : ℕ} (h : m ≤ n) {digits : Text}
    (hdigits : ∀ c ∈ digits, c.isDigit = true) :
    natural (padded m digits) = natural (padded n digits) / 10 ^ (n - m) := by
  obtain ⟨rest, heq, hlen⟩ := padded_eq_append h digits
  have hrest : natural rest < 10 ^ (n - m) := by
    rw [← hlen]
    refine natural_lt fun c hc => padded_digits (n := n) hdigits c ?_
    rw [heq]
    exact List.mem_append_right _ hc
  rw [heq, natural_append, hlen, Nat.add_comm, Nat.add_mul_div_right _ _ (by positivity),
    Nat.div_eq_of_lt hrest, Nat.zero_add]

end Digits

/-! ## Writing -/

def digit (n : ℕ) : Char := Char.ofNat (48 + n % 10)

/-- The last digits of a number. -/
def digitsOf : ℕ → ℕ → Text
  | 0, _ => []
  | width + 1, n => digitsOf width (n / 10) ++ [digit n]

/-- At least so many digits. -/
def padDigits (width n : ℕ) : Text :=
  if n < 10 ^ width then digitsOf width n else Nat.toDigits 10 n

def yearText (year : ℤ) : Text :=
  if year < 0 then '-' :: padDigits 4 year.natAbs else padDigits 4 year.natAbs

/-- Without the zeros at the end. -/
def trimZeros (digits : Text) : Text :=
  digits.foldr (fun c rest => if c = '0' ∧ rest = [] then [] else c :: rest) []

def fractionText (nanoseconds : ℕ) : Text :=
  if nanoseconds = 0 then [] else '.' :: trimZeros (digitsOf 9 nanoseconds)

/-- The year of a day, and the day of that year, both from zero on. -/
def yearDay (d : ℤ) : ℤ × ℤ :=
  let r := d % 146097
  let centuries := min 3 (r / 36524)
  let r := r - 36524 * centuries
  let s := r % 1461
  let years := min 3 (s / 365)
  (400 * (d / 146097) + 100 * centuries + 4 * (r / 1461) + years + 1, s - 365 * years)

/-- The month and the day of the month, from the month `m` on. -/
def monthDay (year : ℕ) : ℕ → ℕ → ℕ → ℕ × ℕ
  | 0, m, day => (m, day + 1)
  | months + 1, m, day =>
    if day < daysInMonth year m then (m, day + 1)
    else monthDay year months (m + 1) (day - daysInMonth year m)

/-- A time in UTC, from its nanoseconds. -/
def format (t : ℤ) : Text :=
  let seconds := t / 10 ^ 9
  let (year, yday) := yearDay (seconds / 86400)
  -- every four hundred years the calendar repeats itself
  let (month, day) := monthDay (year % 400).toNat 11 1 yday.toNat
  let second := (seconds % 86400).toNat
  yearText year ++ '-' :: digitsOf 2 month ++ '-' :: digitsOf 2 day ++ 'T'
    :: digitsOf 2 (second / 3600) ++ ':' :: digitsOf 2 (second / 60 % 60) ++ ':'
    :: digitsOf 2 (second % 60) ++ fractionText (t % 10 ^ 9).toNat ++ ['Z']

/-- The times that have a year of four digits. -/
def Printable (t : ℤ) : Prop :=
  daysBeforeYear 0 * (86400 * 10 ^ 9) ≤ t ∧ t < daysBeforeYear 10000 * (86400 * 10 ^ 9)

instance : DecidablePred Printable := fun _ => inferInstanceAs (Decidable (_ ∧ _))

section Writing

theorem digit_isDigit (n : ℕ) : (digit n).isDigit = true := by
  have h : n % 10 < 10 := Nat.mod_lt _ (by decide)
  unfold digit
  interval_cases n % 10 <;> rfl

theorem digit_toNat (n : ℕ) : (digit n).toNat = 48 + n % 10 := by
  have h : n % 10 < 10 := Nat.mod_lt _ (by decide)
  unfold digit
  interval_cases n % 10 <;> rfl

theorem digitsOf_length : ∀ width n, (digitsOf width n).length = width
  | 0, _ => rfl
  | width + 1, n => by
    rw [digitsOf, List.length_append, digitsOf_length width, List.length_singleton]

theorem digitsOf_digits : ∀ width n, ∀ c ∈ digitsOf width n, c.isDigit = true
  | 0, _ => by simp [digitsOf]
  | width + 1, n => by
    rw [digitsOf, List.forall_mem_append, List.forall_mem_singleton]
    exact ⟨digitsOf_digits width _, digit_isDigit n⟩

theorem natural_digitsOf : ∀ width n, natural (digitsOf width n) = n % 10 ^ width
  | 0, n => by simp [digitsOf, natural, Nat.mod_one]
  | width + 1, n => by
    have hdigit : natural [digit n] = n % 10 := by
      rw [natural_cons, digit_toNat, show '0'.toNat = 48 from rfl, Nat.add_sub_cancel_left]
      simp [natural]
    rw [digitsOf, natural_append, natural_digitsOf width, hdigit, List.length_singleton, pow_one,
      pow_succ', Nat.mod_mul]
    omega

theorem trimZeros_append : ∀ digits : Text,
    ∃ k, digits = trimZeros digits ++ List.replicate k '0'
  | [] => ⟨0, rfl⟩
  | c :: digits => by
    obtain ⟨k, hk⟩ := trimZeros_append digits
    have hcons : trimZeros (c :: digits)
        = if c = '0' ∧ trimZeros digits = [] then [] else c :: trimZeros digits := rfl
    rw [hcons]
    split_ifs with h
    · obtain ⟨rfl, hnil⟩ := h
      rw [hnil, List.nil_append] at hk
      exact ⟨k + 1, by rw [List.nil_append, List.replicate_succ, ← hk]⟩
    · exact ⟨k, by rw [List.cons_append, ← hk]⟩

theorem padded_trimZeros {digits : Text} {n : ℕ} (h : digits.length = n) :
    padded n (trimZeros digits) = digits := by
  obtain ⟨k, hk⟩ := trimZeros_append digits
  have hlength := congrArg List.length hk
  rw [List.length_append, List.length_replicate] at hlength
  rw [padded, List.take_of_length_le (by omega)]
  conv_rhs => rw [hk]
  congr 2
  omega

theorem isLeapYear_mod (year : ℕ) : isLeapYear (year % 400) = isLeapYear year := by
  have h : year % 400 % 4 = year % 4 ∧ year % 400 % 100 = year % 100
      ∧ year % 400 % 400 = year % 400 := by omega
  rw [isLeapYear, isLeapYear, h.1, h.2.1, h.2.2]

theorem daysInMonth_le (year month : ℕ) : daysInMonth year month ≤ 31 := by
  unfold daysInMonth
  split_ifs
  · decide
  · decide
  · rcases lt_or_ge (month - 1) 12 with h | h
    · interval_cases month - 1 <;> decide
    · rw [List.getD_eq_default _ _ h]
      decide

theorem daysBeforeMonth_succ (year : ℕ) {m : ℕ} (hm : 1 ≤ m) :
    daysBeforeMonth year (m + 1) = daysBeforeMonth year m + daysInMonth year m := by
  obtain ⟨m, rfl⟩ : ∃ k, m = k + 1 := ⟨m - 1, by omega⟩
  simp [daysBeforeMonth, List.range'_concat, Nat.add_comm]

/-- The days of a year. -/
theorem daysBeforeMonth_end (year : ℕ) :
    daysBeforeMonth year 13 = if isLeapYear year then 366 else 365 := by
  rcases h : isLeapYear year with - | - <;>
    simp [daysBeforeMonth, daysInMonth, h, List.range']

theorem monthDay_spec (year : ℕ) : ∀ months m day, 1 ≤ m →
    daysBeforeMonth year m + day < daysBeforeMonth year (m + months + 1) →
      m ≤ (monthDay year months m day).1 ∧ (monthDay year months m day).1 ≤ m + months
        ∧ 1 ≤ (monthDay year months m day).2
        ∧ (monthDay year months m day).2 ≤ daysInMonth year (monthDay year months m day).1
        ∧ daysBeforeMonth year (monthDay year months m day).1 + (monthDay year months m day).2
          = daysBeforeMonth year m + day + 1
  | 0, m, day, hm, h => by
    rw [Nat.add_zero, daysBeforeMonth_succ year hm] at h
    simp only [monthDay]
    omega
  | months + 1, m, day, hm, h => by
    rw [monthDay]
    split_ifs with hday
    · simp only
      omega
    · have hsucc := daysBeforeMonth_succ year hm
      have ih := monthDay_spec year months (m + 1) (day - daysInMonth year m) (by omega)
        (by rw [hsucc, show m + 1 + months + 1 = m + (months + 1) + 1 by omega]; omega)
      omega

/-- A day in its cycle of four hundred years, its century, its cycle of four years and its year. -/
theorem yearDay_parts (d : ℤ) : ∃ a b c e f : ℤ,
    yearDay d = (400 * a + 100 * b + 4 * c + e + 1, f)
      ∧ d = 146097 * a + 36524 * b + 1461 * c + 365 * e + f
      ∧ 0 ≤ b ∧ b ≤ 3 ∧ 0 ≤ c ∧ c ≤ 24 ∧ 0 ≤ e ∧ e ≤ 3 ∧ 0 ≤ f ∧ f ≤ 365
      ∧ (f = 365 → e = 3 ∧ (c < 24 ∨ b = 3)) := by
  obtain ⟨r, hr⟩ : ∃ r, d % 146097 = r := ⟨_, rfl⟩
  obtain ⟨b, hb⟩ : ∃ b, min 3 (r / 36524) = b := ⟨_, rfl⟩
  obtain ⟨s, hs⟩ : ∃ s, (r - 36524 * b) % 1461 = s := ⟨_, rfl⟩
  obtain ⟨e, he⟩ : ∃ e, min 3 (s / 365) = e := ⟨_, rfl⟩
  refine ⟨d / 146097, b, (r - 36524 * b) / 1461, e, s - 365 * e, ?_, ?_⟩
  · simp only [yearDay, hr, hb, hs, he]
  · have hcentury : 0 ≤ b ∧ b ≤ 3 ∧ 0 ≤ r - 36524 * b ∧ r - 36524 * b ≤ 36524
        ∧ (r - 36524 * b = 36524 → b = 3) := by omega
    have hyear : 0 ≤ e ∧ e ≤ 3 ∧ 0 ≤ s - 365 * e ∧ s - 365 * e ≤ 365
        ∧ (s - 365 * e = 365 → e = 3) := by omega
    omega

/-- A day is as many days after the first one of the calendar as the years and days before it. -/
theorem yearDay_spec {d : ℤ} (h : -366 ≤ d) : ∃ year : ℕ, (yearDay d).1 = year
    ∧ 0 ≤ (yearDay d).2 ∧ (yearDay d).2 < (if isLeapYear year then 366 else 365)
    ∧ daysBeforeYear year + (yearDay d).2 = d := by
  obtain ⟨a, b, c, e, f, heq, hd, hb, hb', hc, hc', he, he', hf, hf', hleap⟩ := yearDay_parts d
  obtain ⟨year, hyear⟩ : ∃ year : ℕ, 400 * a + 100 * b + 4 * c + e + 1 = year :=
    ⟨(400 * a + 100 * b + 4 * c + e + 1).toNat, by omega⟩
  rw [heq]
  refine ⟨year, hyear, hf, ?_, ?_⟩
  · split_ifs with hlong
    · simp only
      omega
    · have hne : f ≠ 365 := by
        intro hf
        obtain ⟨he, hlast⟩ := hleap hf
        simp only [isLeapYear, decide_eq_true_eq] at hlong
        omega
      simp only
      omega
  · have hfour : ((year : ℤ) - 1) / 4 = 100 * a + 25 * b + c := by omega
    have hcenturies : ((year : ℤ) - 1) / 100 = 4 * a + b := by omega
    have hcycles : ((year : ℤ) - 1) / 400 = a := by omega
    simp only [daysBeforeYear, hfour, hcenturies, hcycles]
    omega

theorem readFraction_fractionText {nanoseconds : ℕ} (h : nanoseconds < 10 ^ 9) :
    ∃ fraction, readFraction (fractionText nanoseconds ++ ['Z']) = some (fraction, ['Z'])
      ∧ natural (padded 9 fraction) = nanoseconds := by
  unfold fractionText
  split_ifs with hzero
  · exact ⟨[], rfl, by rw [hzero]; decide⟩
  · set digits := digitsOf 9 nanoseconds with hdigits
    have hnatural : natural digits = nanoseconds := by
      rw [hdigits, natural_digitsOf, Nat.mod_eq_of_lt h]
    obtain ⟨k, hk⟩ := trimZeros_append digits
    have htrim : ∀ c ∈ trimZeros digits, c.isDigit = true := by
      intro c hc
      have hmem : c ∈ digits := by
        rw [hk]
        exact List.mem_append_left _ hc
      exact digitsOf_digits 9 _ c hmem
    have hne : trimZeros digits ≠ [] := by
      intro hnil
      have hzeros : digits = List.replicate 9 '0' := by
        rw [hnil, List.nil_append] at hk
        have hlength := congrArg List.length hk
        rw [hdigits, digitsOf_length, List.length_replicate] at hlength
        rw [hk, ← hlength]
      rw [hzeros] at hnatural
      exact hzero (hnatural.symm.trans (by decide))
    refine ⟨trimZeros digits, ?_, ?_⟩
    · rw [List.cons_append, readFraction, if_pos rfl, List.takeWhile_append_of_pos htrim,
        List.dropWhile_append_of_pos htrim]
      simp [hne]
    · rw [padded_trimZeros (digitsOf_length 9 _), hnatural]

theorem read_written {year month day hour minute second : ℕ} (hyear : year < 10000)
    (hmonth : month < 100) (hday : day < 100) (hhour : hour < 100) (hminute : minute < 100)
    (hsecond : second < 100) {rest fraction : Text}
    (hrest : readFraction rest = some (fraction, ['Z'])) :
    read (digitsOf 4 year ++ '-' :: digitsOf 2 month ++ '-' :: digitsOf 2 day ++ 'T'
        :: digitsOf 2 hour ++ ':' :: digitsOf 2 minute ++ ':' :: digitsOf 2 second ++ rest)
      = some ⟨year, month, day, hour, minute, second, fraction, 0⟩ := by
  have htwo : ∀ {n : ℕ}, n < 100 → natural [digit (n / 10), digit n] = n := fun {n} hn =>
    (natural_digitsOf 2 n).trans (Nat.mod_eq_of_lt hn)
  have hfour : natural [digit (year / 10 / 10 / 10), digit (year / 10 / 10), digit (year / 10),
      digit year] = year := (natural_digitsOf 4 year).trans (Nat.mod_eq_of_lt hyear)
  simp only [digitsOf, List.nil_append, List.cons_append, read]
  rw [if_pos (by simp [digit_isDigit]), hrest]
  simp [readZone, htwo hmonth, htwo hday, htwo hhour, htwo hminute, htwo hsecond, hfour]

/-- What is written of a time is read back as that time. -/
theorem read_format {t : ℤ} (h : Printable t) : ∃ s, read (format t) = some s ∧ s.Valid
    ∧ s.second ≤ 59 ∧ s.seconds * 10 ^ 9 + s.nanoseconds = t := by
  have hmin : daysBeforeYear 0 = -366 := by decide
  have hmax : daysBeforeYear 10000 = 3652059 := by decide
  rw [Printable, hmin, hmax] at h
  obtain ⟨year, hyear, hpos, hlong, hdays⟩ :=
    yearDay_spec (d := t / 10 ^ 9 / 86400) (by omega)
  have hlt : year < 10000 := by
    simp only [daysBeforeYear] at hdays
    split_ifs at hlong <;> omega
  obtain ⟨yday, hyday⟩ : ∃ yday : ℕ, (yearDay (t / 10 ^ 9 / 86400)).2 = yday :=
    ⟨_, (Int.toNat_of_nonneg hpos).symm⟩
  have hpair : yearDay (t / 10 ^ 9 / 86400) = ((year : ℤ), (yday : ℤ)) := Prod.ext hyear hyday
  rw [hyday] at hpos hlong hdays
  -- the calendar of the year is that of its place in the cycle
  have hcalendar : daysInMonth (year % 400) = daysInMonth year := by
    funext m
    rw [daysInMonth, daysInMonth, isLeapYear_mod]
  have hbefore : daysBeforeMonth (year % 400) = daysBeforeMonth year := by
    funext m
    rw [daysBeforeMonth, daysBeforeMonth, hcalendar]
  have hfirst : daysBeforeMonth year 1 = 0 := rfl
  have hmonth := monthDay_spec (year % 400) 11 1 yday le_rfl (by
    rw [hbefore, hfirst, daysBeforeMonth_end]
    split_ifs at hlong ⊢ <;> omega)
  rw [hcalendar, hbefore, hfirst] at hmonth
  obtain ⟨⟨month, day⟩, hmd⟩ : ∃ p, monthDay (year % 400) 11 1 yday = p := ⟨_, rfl⟩
  rw [hmd] at hmonth
  simp only at hmonth
  obtain ⟨second, hsecond⟩ : ∃ second : ℕ, t / 10 ^ 9 % 86400 = second :=
    ⟨(t / 10 ^ 9 % 86400).toNat, by omega⟩
  obtain ⟨nanoseconds, hnanoseconds⟩ : ∃ n : ℕ, t % 10 ^ 9 = n := ⟨(t % 10 ^ 9).toNat, by omega⟩
  obtain ⟨fraction, hread, hfraction⟩ :=
    readFraction_fractionText (by omega : nanoseconds < 10 ^ 9)
  have hyearText : yearText year = digitsOf 4 year := by
    rw [yearText, if_neg (by omega), padDigits, Int.natAbs_natCast]
    exact if_pos hlt
  have hmod : ((year : ℤ) % 400).toNat = year % 400 := by omega
  have hdayBound := daysInMonth_le year month
  refine ⟨⟨year, month, day, second / 3600, second / 60 % 60, second % 60, fraction, 0⟩, ?_, ?_,
    ?_, ?_⟩
  · rw [← read_written hlt (by omega) (by omega) (by omega) (by omega) (by omega) hread]
    simp only [format, hpair, hmod, Int.toNat_natCast, hmd, hyearText, hsecond, hnanoseconds]
    simp only [List.append_assoc, List.cons_append]
  · simp only [Stamp.Valid]
    omega
  · simp only
    omega
  · simp only [Stamp.seconds, Stamp.days, Stamp.utcMinutes, Stamp.nanoseconds, hfraction]
    omega

/-- A time before the year zero is not. -/
theorem read_format_early {t : ℤ} (h : t < daysBeforeYear 0 * (86400 * 10 ^ 9)) :
    read (format t) = none := by
  have hmin : daysBeforeYear 0 = -366 := by decide
  rw [hmin] at h
  obtain ⟨a, b, c, e, f, heq, hd, hb, hb', hc, hc', he, he', hf, hf', -⟩ :=
    yearDay_parts (t / 10 ^ 9 / 86400)
  have hneg : 400 * a + 100 * b + 4 * c + e + 1 < 0 := by omega
  simp only [format, heq, yearText, if_pos hneg, List.cons_append]
  rw [read.eq_def]
  split
  · rename_i hcons
    obtain ⟨rfl, -⟩ := List.cons.inj hcons
    rw [if_neg (by simp)]
  · rfl

end Writing

end Rfc3339
