import Atlas.Lib.SortedMap

/-!
# JSON documents as Go reads them

A document is text in UTF-8, of which each malformed byte is read as U+FFFD. `parse` reads it with
its members in their order, and its numbers as they were written. Decoded into an interface
(`decoded`) an object becomes a map, in which the last member of a key counts; maps are sorted,
so that two of them with the same entries are equal.

A recursion over a value is `fold`, and a proof about one goes by `recursion`.
-/

namespace GoJson

abbrev Text := List Char

/-! ## Text -/

section Runes

def replacement : ℕ := 0xfffd

/-- The rune that the bytes begin with, and how many bytes it has after the first one. -/
def decodeRune (a : ℕ) (rest : List ℕ) : ℕ × ℕ :=
  let low := if a = 0xe0 then 0xa0 else if a = 0xf0 then 0x90 else 0x80
  let high := if a = 0xed then 0x9f else if a = 0xf4 then 0x8f else 0xbf
  if a < 0x80 then (a, 0)
  else
    match rest with
    | [] => (replacement, 0)
    | b :: rest =>
      if b < low ∨ high < b then (replacement, 0)
      else if 0xc2 ≤ a ∧ a ≤ 0xdf then ((a - 0xc0) * 0x40 + (b - 0x80), 1)
      else
        match rest with
        | [] => (replacement, 0)
        | c :: rest =>
          if c < 0x80 ∨ 0xbf < c then (replacement, 0)
          else if 0xe0 ≤ a ∧ a ≤ 0xef then
            ((a - 0xe0) * 0x1000 + (b - 0x80) * 0x40 + (c - 0x80), 2)
          else
            match rest with
            | [] => (replacement, 0)
            | d :: _ =>
              if d < 0x80 ∨ 0xbf < d then (replacement, 0)
              else if 0xf0 ≤ a ∧ a ≤ 0xf4 then
                ((a - 0xf0) * 0x40000 + (b - 0x80) * 0x1000 + (c - 0x80) * 0x40 + (d - 0x80), 3)
              else (replacement, 0)

/-- The runes after the bytes that belong to the last one. -/
def runesAfter : ℕ → List UInt8 → Text
  | _, [] => []
  | skip + 1, _ :: rest => runesAfter skip rest
  | 0, a :: rest =>
    let rune := decodeRune a.toNat ((rest.take 3).map (·.toNat))
    Char.ofNat rune.1 :: runesAfter rune.2 rest

def runes (bytes : List UInt8) : Text := runesAfter 0 bytes

end Runes

/-! ## Values -/

inductive Value
  | null
  | bool (b : Bool)
  | number (literal : Text)
  | string (s : Text)
  | array (items : List Value)
  | object (members : List (Text × Value))

namespace Value

variable {β : Type}

/-- What a recursion over a value makes of each case. -/
structure Cases (β : Type) where
  null : β
  bool : Bool → β
  number : Text → β
  string : Text → β
  array : List β → β
  object : List (Text × β) → β

mutual

def fold (c : Cases β) : Value → β
  | .null => c.null
  | .bool b => c.bool b
  | .number literal => c.number literal
  | .string s => c.string s
  | .array items => c.array (foldItems c items)
  | .object members => c.object (foldMembers c members)

def foldItems (c : Cases β) : List Value → List β
  | [] => []
  | v :: items => fold c v :: foldItems c items

def foldMembers (c : Cases β) : List (Text × Value) → List (Text × β)
  | [] => []
  | (k, v) :: members => (k, fold c v) :: foldMembers c members

end

theorem foldItems_eq (c : Cases β) : ∀ items, foldItems c items = items.map (fold c)
  | [] => rfl
  | v :: items => by
    rw [foldItems, foldItems_eq c items]
    rfl

theorem foldMembers_eq (c : Cases β) :
    ∀ members, foldMembers c members = SortedMap.mapValues (fold c) members
  | [] => rfl
  | (k, v) :: members => by
    rw [foldMembers, foldMembers_eq c members]
    rfl

@[simp] theorem fold_array (c : Cases β) (items : List Value) :
    fold c (.array items) = c.array (items.map (fold c)) := by
  rw [fold, foldItems_eq]

@[simp] theorem fold_object (c : Cases β) (members : List (Text × Value)) :
    fold c (.object members) = c.object (SortedMap.mapValues (fold c) members) := by
  rw [fold, foldMembers_eq]

/-- Induction over a value, its items and the values of its members. -/
@[elab_as_elim]
theorem recursion {P : Value → Prop} (null : P .null) (bool : ∀ b, P (.bool b))
    (number : ∀ literal, P (.number literal)) (string : ∀ s, P (.string s))
    (array : ∀ items, (∀ v ∈ items, P v) → P (.array items))
    (object : ∀ members, (∀ e ∈ members, P e.2) → P (.object members)) : ∀ v, P v :=
  @Value.rec P (fun items => ∀ v ∈ items, P v) (fun members => ∀ e ∈ members, P e.2)
    (fun e => P e.2) null bool number string (fun items ih => array items ih)
    (fun members ih => object members ih) (fun _ h => by cases h)
    (fun _ _ hv hitems => List.forall_mem_cons.2 ⟨hv, hitems⟩) (fun _ h => by cases h)
    (fun _ _ he hmembers => List.forall_mem_cons.2 ⟨he, hmembers⟩) (fun _ _ hv => hv)

mutual

def equal : Value → Value → Bool
  | .null, .null => true
  | .bool b, .bool b' => b == b'
  | .number l, .number l' => l == l'
  | .string s, .string s' => s == s'
  | .array vs, .array ws => equalItems vs ws
  | .object vs, .object ws => equalMembers vs ws
  | _, _ => false

def equalItems : List Value → List Value → Bool
  | [], [] => true
  | v :: vs, w :: ws => equal v w && equalItems vs ws
  | _, _ => false

def equalMembers : List (Text × Value) → List (Text × Value) → Bool
  | [], [] => true
  | (k, v) :: vs, (k', w) :: ws => k == k' && equal v w && equalMembers vs ws
  | _, _ => false

end

theorem equalItems_iff : ∀ {vs ws : List Value}, (∀ v ∈ vs, ∀ w, equal v w = true ↔ v = w) →
    (equalItems vs ws = true ↔ vs = ws)
  | [], [], _ => by simp [equalItems]
  | [], _ :: _, _ => by simp [equalItems]
  | _ :: _, [], _ => by simp [equalItems]
  | v :: vs, w :: ws, h => by
    obtain ⟨hv, hvs⟩ := List.forall_mem_cons.1 h
    rw [equalItems, Bool.and_eq_true, hv, equalItems_iff hvs, List.cons.injEq]

theorem equalMembers_iff : ∀ {vs ws : List (Text × Value)},
    (∀ e ∈ vs, ∀ w, equal e.2 w = true ↔ e.2 = w) → (equalMembers vs ws = true ↔ vs = ws)
  | [], [], _ => by simp [equalMembers]
  | [], _ :: _, _ => by simp [equalMembers]
  | _ :: _, [], _ => by simp [equalMembers]
  | (k, v) :: vs, (k', w) :: ws, h => by
    obtain ⟨hv, hvs⟩ := List.forall_mem_cons.1 h
    rw [equalMembers, Bool.and_eq_true, Bool.and_eq_true, hv, equalMembers_iff hvs,
      List.cons.injEq, Prod.mk.injEq, beq_iff_eq]

theorem equal_iff (v : Value) : ∀ w, equal v w = true ↔ v = w := by
  induction v using recursion with
  | null => intro w; cases w <;> simp [equal]
  | bool b => intro w; cases w <;> simp [equal]
  | number l => intro w; cases w <;> simp [equal]
  | string s => intro w; cases w <;> simp [equal]
  | array vs ih =>
    intro w
    cases w with
    | array ws => rw [equal, equalItems_iff ih, array.injEq]
    | _ => simp [equal]
  | object vs ih =>
    intro w
    cases w with
    | object ws => rw [equal, equalMembers_iff ih, object.injEq]
    | _ => simp [equal]

instance : DecidableEq Value := fun v w => decidable_of_iff (equal v w = true) (equal_iff v w)

/-- The values of a recursion that keeps what it does not change. -/
def rebuild (number : Text → Text) (object : List (Text × Value) → List (Text × Value)) :
    Value → Value :=
  fold
    { null := .null
      bool := .bool
      number := fun literal => .number (number literal)
      string := .string
      array := .array
      object := fun members => .object (object members) }

@[simp] theorem rebuild_array (number : Text → Text)
    (object : List (Text × Value) → List (Text × Value)) (items : List Value) :
    rebuild number object (.array items) = .array (items.map (rebuild number object)) :=
  fold_array _ _

@[simp] theorem rebuild_object (number : Text → Text)
    (object : List (Text × Value) → List (Text × Value)) (members : List (Text × Value)) :
    rebuild number object (.object members)
      = .object (object (SortedMap.mapValues (rebuild number object) members)) :=
  fold_object _ _

/-- The value in a Go interface: an object is a map. -/
def decoded : Value → Value := rebuild id (SortedMap.assignAll [])

/-- Another text for each number. -/
def mapNumbers (f : Text → Text) : Value → Value := rebuild f id

/-- Decoding and then changing the numbers is one recursion. -/
theorem mapNumbers_decoded (f : Text → Text) (v : Value) :
    mapNumbers f (decoded v) = rebuild f (SortedMap.assignAll []) v := by
  induction v using recursion with
  | null => rfl
  | bool b => rfl
  | number l => rfl
  | string s => rfl
  | array items ih =>
    simp only [decoded, mapNumbers, rebuild_array, List.map_map] at ih ⊢
    exact congrArg _ (List.map_congr_left ih)
  | object members ih =>
    simp only [decoded, mapNumbers, rebuild_object, id] at ih ⊢
    refine congrArg _ ?_
    rw [SortedMap.mapValues_assignAll, SortedMap.mapValues_mapValues]
    exact congrArg _ (SortedMap.mapValues_congr ih)

end Value

/-! ## Numbers -/

section Numbers

/-- The parts of a number as it is written. -/
structure Decimal where
  negative : Bool
  integer : Text
  fraction : Text
  exponent : ℤ
  deriving DecidableEq

def natural (digits : Text) : ℕ := Nat.ofDigitChars 10 digits 0

def isPositive (digits : Text) : Bool :=
  digits ≠ [] ∧ (digits.head? = some '0' → digits.length = 1)

/-- The fraction of a number, and what is left of it. -/
def readFraction : Text → Option (Text × Text)
  | [] => some ([], [])
  | c :: rest =>
    if c = '.' then
      if rest.takeWhile Char.isDigit = [] then none
      else some (rest.takeWhile Char.isDigit, rest.dropWhile Char.isDigit)
    else some ([], c :: rest)

def readSigned : Text → Option ℤ
  | [] => none
  | c :: rest =>
    let digits := if c = '+' ∨ c = '-' then rest else c :: rest
    if digits = [] ∨ ¬digits.all Char.isDigit then none
    else some (if c = '-' then -(natural digits : ℤ) else natural digits)

def readExponent : Text → Option ℤ
  | [] => some 0
  | c :: rest => if c = 'e' ∨ c = 'E' then readSigned rest else none

def readDecimal (literal : Text) : Option Decimal :=
  let negative := literal.head? = some '-'
  let text := if negative then literal.tail else literal
  let integer := text.takeWhile Char.isDigit
  if ¬isPositive integer then none
  else
    match readFraction (text.dropWhile Char.isDigit) with
    | none => none
    | some (fraction, rest) =>
      (readExponent rest).map fun exponent => ⟨negative, integer, fraction, exponent⟩

/-- All digits of a number, read as one integer. -/
def Decimal.mantissa (d : Decimal) : ℤ :=
  let n : ℤ := natural (d.integer ++ d.fraction)
  if d.negative then -n else n

/-- The power of ten that its last digit stands for. -/
def Decimal.scale (d : Decimal) : ℤ := d.exponent - d.fraction.length

def Decimal.value (d : Decimal) : ℚ := d.mantissa * 10 ^ d.scale

end Numbers

/-! ## Documents -/

section Parse

def isSpace (c : Char) : Bool := c = ' ' ∨ c = '\t' ∨ c = '\r' ∨ c = '\n'

def skipSpace (text : Text) : Text := text.dropWhile isSpace

/-- A piece of a string: a rune, or the code unit of an escape. -/
inductive Piece
  | rune (c : Char)
  | unit (u : ℕ)

def hexDigit (c : Char) : Option ℕ :=
  if '0' ≤ c ∧ c ≤ '9' then some (c.toNat - '0'.toNat)
  else if 'a' ≤ c ∧ c ≤ 'f' then some (c.toNat - 'a'.toNat + 10)
  else if 'A' ≤ c ∧ c ≤ 'F' then some (c.toNat - 'A'.toNat + 10)
  else none

def hexUnit (a b c d : Char) : Option ℕ :=
  match hexDigit a, hexDigit b, hexDigit c, hexDigit d with
  | some a, some b, some c, some d => some (a * 0x1000 + b * 0x100 + c * 0x10 + d)
  | _, _, _, _ => none

def unescape (letter : Char) : Option Char :=
  if letter = '"' ∨ letter = '\\' ∨ letter = '/' then some letter
  else if letter = 'b' then some '\x08'
  else if letter = 'f' then some '\x0c'
  else if letter = 'n' then some '\n'
  else if letter = 'r' then some '\r'
  else if letter = 't' then some '\t'
  else none

/-- The pieces of a string, from after its first quote to its last one. -/
def parsePieces : Text → Option (List Piece × Text)
  | [] => none
  | c :: rest =>
    if c = '"' then some ([], rest)
    else if c.toNat < 0x20 then none
    else if c ≠ '\\' then (parsePieces rest).map fun r => (.rune c :: r.1, r.2)
    else
      match rest with
      | [] => none
      | letter :: rest =>
        if letter = 'u' then
          match rest with
          | a :: b :: c :: d :: rest =>
            match hexUnit a b c d with
            | some u => (parsePieces rest).map fun r => (.unit u :: r.1, r.2)
            | none => none
          | _ => none
        else
          match unescape letter with
          | some c => (parsePieces rest).map fun r => (.rune c :: r.1, r.2)
          | none => none

def isHigh (u : ℕ) : Bool := 0xd800 ≤ u ∧ u < 0xdc00

def isLow (u : ℕ) : Bool := 0xdc00 ≤ u ∧ u < 0xe000

/-- The rune of a unit that makes none with its neighbours: a surrogate is replaced. -/
def single (u : ℕ) : Char := if isHigh u ∨ isLow u then Char.ofNat replacement else Char.ofNat u

def join : List Piece → Text
  | [] => []
  | .rune c :: pieces => c :: join pieces
  | [.unit u] => [single u]
  | .unit u :: .rune c :: pieces => single u :: c :: join pieces
  | .unit u :: .unit v :: pieces =>
    if isHigh u ∧ isLow v then
      Char.ofNat (0x10000 + (u - 0xd800) * 0x400 + (v - 0xdc00)) :: join pieces
    else single u :: join (.unit v :: pieces)

def parseString (text : Text) : Option (Text × Text) :=
  (parsePieces text).map fun r => (join r.1, r.2)

def isNumberChar (c : Char) : Bool :=
  c.isDigit ∨ c = '-' ∨ c = '+' ∨ c = '.' ∨ c = 'e' ∨ c = 'E'

def parseNumber (text : Text) : Option (Value × Text) :=
  if (readDecimal (text.takeWhile isNumberChar)).isSome then
    some (.number (text.takeWhile isNumberChar), text.dropWhile isNumberChar)
  else none

def words : List (Text × Value) :=
  [("null".toList, .null), ("true".toList, .bool true), ("false".toList, .bool false)]

def parseWord (text : Text) : Option (Value × Text) :=
  (words.find? fun w => w.1.isPrefixOf text).map fun w => (w.2, text.drop w.1.length)

def parseItems (value : Text → Option (Value × Text)) : ℕ → Text → Option (List Value × Text)
  | 0, _ => none
  | n + 1, text =>
    match value text with
    | none => none
    | some (v, rest) =>
      match skipSpace rest with
      | [] => none
      | c :: rest =>
        if c = ',' then (parseItems value n rest).map fun r => (v :: r.1, r.2)
        else if c = ']' then some ([v], rest)
        else none

/-- The members from a key's first quote on. -/
def parseMembers (value : Text → Option (Value × Text)) :
    ℕ → Text → Option (List (Text × Value) × Text)
  | 0, _ => none
  | n + 1, text =>
    if (skipSpace text).head? ≠ some '"' then none
    else
      match parseString (skipSpace text).tail with
      | none => none
      | some (key, rest) =>
        if (skipSpace rest).head? ≠ some ':' then none
        else
          match value (skipSpace rest).tail with
          | none => none
          | some (v, rest) =>
            match skipSpace rest with
            | [] => none
            | c :: rest =>
              if c = ',' then (parseMembers value n rest).map fun r => ((key, v) :: r.1, r.2)
              else if c = '\x7d' then some ([(key, v)], rest)
              else none

/-- A value nested no deeper than the levels allow. -/
def parseValue : ℕ → Text → Option (Value × Text)
  | levels, text =>
    match skipSpace text with
    | [] => none
    | c :: rest =>
      if c = '"' then (parseString rest).map fun r => (.string r.1, r.2)
      else if c = '[' then
        match levels with
        | 0 => none
        | levels + 1 =>
          if (skipSpace rest).head? = some ']' then some (.array [], (skipSpace rest).tail)
          else (parseItems (parseValue levels) rest.length rest).map fun r => (.array r.1, r.2)
      else if c = '\x7b' then
        match levels with
        | 0 => none
        | levels + 1 =>
          if (skipSpace rest).head? = some '\x7d' then some (.object [], (skipSpace rest).tail)
          else (parseMembers (parseValue levels) rest.length rest).map fun r => (.object r.1, r.2)
      else if c = '-' ∨ c.isDigit then parseNumber (c :: rest)
      else parseWord (c :: rest)

def maxNestingDepth : ℕ := 10000

/-- One value and nothing after it. -/
def parse (bytes : List UInt8) : Option Value :=
  match parseValue maxNestingDepth (runes bytes) with
  | some (v, rest) => if skipSpace rest = [] then some v else none
  | none => none

/-- The int64 that a number is decoded as. -/
def parseInt64 (literal : Text) : Option ℤ :=
  let digits := if literal.head? = some '-' then literal.tail else literal
  if digits = [] ∨ ¬digits.all Char.isDigit then none
  else
    let value : ℤ := if literal.head? = some '-' then -natural digits else natural digits
    if -2 ^ 63 ≤ value ∧ value < 2 ^ 63 then some value else none

end Parse

/-! ## Reading what was written -/

section Write

def intText (n : ℤ) : Text :=
  if n < 0 then '-' :: Nat.toDigits 10 n.natAbs else Nat.toDigits 10 n.natAbs

def asciiBytes (text : Text) : List UInt8 := text.map fun c => .ofNat c.toNat

theorem runes_asciiBytes : ∀ text : Text, (∀ c ∈ text, c.toNat < 0x80) →
    runes (asciiBytes text) = text
  | [], _ => rfl
  | c :: text, h => by
    obtain ⟨hc, htext⟩ := List.forall_mem_cons.1 h
    have hbyte : (UInt8.ofNat c.toNat).toNat = c.toNat := by
      rw [UInt8.toNat_ofNat']
      exact Nat.mod_eq_of_lt (by omega)
    have ih := runes_asciiBytes text htext
    rw [runes] at ih ⊢
    have hrune : ∀ rest : List ℕ, decodeRune c.toNat rest = (c.toNat, 0) := by
      intro rest
      rw [decodeRune.eq_def]
      exact if_pos hc
    rw [asciiBytes, List.map_cons, runesAfter, hbyte, hrune, Char.ofNat_toNat]
    exact congrArg _ ih

theorem toDigits_head {n : ℕ} (hn : 0 < n) : (Nat.toDigits 10 n).head? ≠ some '0' := by
  induction n using Nat.strongRecOn with
  | ind n ih =>
    by_cases h : n < 10
    · rw [Nat.toDigits_of_lt_base h]
      interval_cases n <;> decide
    · rw [Nat.toDigits_of_base_le (by decide) (not_lt.1 h), List.head?_append_of_ne_nil _
        Nat.toDigits_ne_nil]
      exact ih (n / 10) (Nat.div_lt_self hn (by decide)) (Nat.div_pos (not_lt.1 h) (by decide))

theorem isDigit_toDigits {n : ℕ} {c : Char} (h : c ∈ Nat.toDigits 10 n) : c.isDigit = true :=
  Nat.isDigit_of_mem_toDigits (by decide) (by decide) h

theorem takeWhile_append_stop {p : Char → Bool} {a rest : Text} (ha : ∀ c ∈ a, p c = true)
    (hrest : ∀ c ∈ rest.head?, p c = false) :
    (a ++ rest).takeWhile p = a ∧ (a ++ rest).dropWhile p = rest := by
  rw [List.takeWhile_append_of_pos ha, List.dropWhile_append_of_pos ha]
  rcases rest with _ | ⟨c, rest⟩
  · simp
  · have hc := hrest c rfl
    simp [hc]

theorem isPositive_toDigits (n : ℕ) : isPositive (Nat.toDigits 10 n) = true := by
  rw [isPositive, decide_eq_true_iff]
  refine ⟨Nat.toDigits_ne_nil, fun h => ?_⟩
  rcases Nat.eq_zero_or_pos n with rfl | hn
  · rfl
  · exact absurd h (toDigits_head hn)

theorem toDigits_head_digit (n : ℕ) : ∃ c cs, Nat.toDigits 10 n = c :: cs ∧ c.isDigit = true := by
  rcases h : Nat.toDigits 10 n with _ | ⟨c, cs⟩
  · exact absurd h Nat.toDigits_ne_nil
  · exact ⟨c, cs, rfl, isDigit_toDigits (n := n) (by simp [h])⟩

theorem readDecimal_toDigits (n : ℕ) :
    readDecimal (Nat.toDigits 10 n) = some ⟨false, Nat.toDigits 10 n, [], 0⟩ := by
  obtain ⟨c, cs, hd, hc⟩ := toDigits_head_digit n
  have hsign : ¬(Nat.toDigits 10 n).head? = some '-' := by
    rw [hd]
    rintro h
    obtain rfl : c = '-' := by simpa using h
    exact absurd hc (by decide)
  have hnil : ∀ c ∈ ([] : Text).head?, Char.isDigit c = false := by simp
  have hall := takeWhile_append_stop (a := Nat.toDigits 10 n) (fun c => isDigit_toDigits) hnil
  rw [List.append_nil] at hall
  simp [readDecimal, hsign, hall.1, hall.2, isPositive_toDigits, readFraction, readExponent]

theorem parseNumber_toDigits (n : ℕ) {rest : Text}
    (hrest : ∀ c ∈ rest.head?, isNumberChar c = false) :
    parseNumber (Nat.toDigits 10 n ++ rest) = some (.number (Nat.toDigits 10 n), rest) := by
  obtain ⟨htake, hdrop⟩ := takeWhile_append_stop (p := isNumberChar) (a := Nat.toDigits 10 n)
    (fun c hc => by simp [isNumberChar, isDigit_toDigits hc]) hrest
  rw [parseNumber, htake, hdrop, readDecimal_toDigits]
  rfl

theorem skipSpace_of {c : Char} (h : isSpace c = false) (text : Text) :
    skipSpace (c :: text) = c :: text :=
  List.dropWhile_cons_of_neg (by simp [h])

/-- A natural number is read as a value. -/
theorem parseValue_toDigits (levels n : ℕ) {rest : Text}
    (hrest : ∀ c ∈ rest.head?, isNumberChar c = false) :
    parseValue levels (Nat.toDigits 10 n ++ rest) = some (.number (Nat.toDigits 10 n), rest) := by
  have hnumber := parseNumber_toDigits n hrest
  obtain ⟨c, cs, hd, hc⟩ := toDigits_head_digit n
  have hne : ∀ d : Char, d.isDigit = false → c ≠ d := fun d hd h => by simp [← h, hc] at hd
  have hspace : isSpace c = false := by
    simp [isSpace, hne ' ' (by decide), hne '\t' (by decide), hne '\r' (by decide),
      hne '\n' (by decide)]
  rw [hd, List.cons_append] at hnumber ⊢
  rw [parseValue.eq_def]
  simp only [skipSpace_of hspace, hne '"' (by decide), hne '[' (by decide), hne '\x7b' (by decide), hc,
    or_true, if_true, if_false]
  exact hnumber

section Members

variable {value : Text → Option (Value × Text)} {n : ℕ} {text key afterKey rest : Text} {v : Value}

theorem parseMembers_cons (hkey : parseString text = some (key, ':' :: afterKey))
    (hvalue : value afterKey = some (v, ',' :: rest)) :
    parseMembers value (n + 1) ('"' :: text)
      = (parseMembers value n rest).map fun r => ((key, v) :: r.1, r.2) := by
  rw [parseMembers]
  simp [skipSpace_of (c := '"') rfl, skipSpace_of (c := ':') rfl, skipSpace_of (c := ',') rfl, hkey,
    hvalue]

theorem parseMembers_last (hkey : parseString text = some (key, ':' :: afterKey))
    (hvalue : value afterKey = some (v, '\x7d' :: rest)) :
    parseMembers value (n + 1) ('"' :: text) = some ([(key, v)], rest) := by
  rw [parseMembers]
  simp [skipSpace_of (c := '"') rfl, skipSpace_of (c := ':') rfl, skipSpace_of (c := '\x7d') rfl,
    hkey, hvalue]

end Members

theorem parseValue_object {levels : ℕ} {text : Text} {members : List (Text × Value)} {rest : Text}
    (h : parseMembers (parseValue levels) (text.length + 1) ('"' :: text) = some (members, rest)) :
    parseValue (levels + 1) ('\x7b' :: '"' :: text) = some (.object members, rest) := by
  rw [parseValue.eq_def]
  simp [skipSpace_of (c := '\x7b') rfl, skipSpace_of (c := '"') rfl, h]

theorem parseInt64_intText {n : ℤ} (hlow : 0 ≤ n) (hhigh : n < 2 ^ 63) :
    parseInt64 (intText n) = some n := by
  obtain ⟨c, cs, hd, hc⟩ := toDigits_head_digit n.natAbs
  have hsign : ¬(Nat.toDigits 10 n.natAbs).head? = some '-' := by
    rw [hd]
    rintro h
    obtain rfl : c = '-' := by simpa using h
    exact absurd hc (by decide)
  have hdigits :
      ¬(Nat.toDigits 10 n.natAbs = [] ∨ ¬(Nat.toDigits 10 n.natAbs).all Char.isDigit) := by
    rw [not_or, not_not, List.all_eq_true]
    exact ⟨Nat.toDigits_ne_nil, fun c => isDigit_toDigits⟩
  have hvalue : ((natural (Nat.toDigits 10 n.natAbs) : ℕ) : ℤ) = n := by
    rw [natural, Nat.ofDigitChars_ten_toDigits, Int.natAbs_of_nonneg hlow]
  rw [parseInt64, intText, if_neg (not_lt.2 hlow)]
  simp only [if_neg hsign, if_neg hdigits, hvalue]
  exact if_pos ⟨by omega, hhigh⟩

end Write

end GoJson
