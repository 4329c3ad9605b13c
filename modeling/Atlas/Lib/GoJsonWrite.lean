import Atlas.Lib.GoJson

/-!
# JSON documents as Go writes them

`marshal` writes a value in UTF-8: no space, the members in the order of the map, the numbers as
they are, and the characters that HTML reads otherwise escaped. `Fits` says that a value has only
numbers that JSON knows and is nested no deeper than a reader goes. Whatever was read fits
(`fits_of_parse`), and what fits is read again as it was written (`parse_marshal`).
-/

namespace GoJson

/-! ## UTF-8 -/

section Utf8

/-- The bytes of a rune. -/
def encodeRune (n : ℕ) : List ℕ :=
  if n < 0x80 then [n]
  else if n < 0x800 then [0xc0 + n / 0x40, 0x80 + n % 0x40]
  else if n < 0x10000 then [0xe0 + n / 0x1000, 0x80 + n / 0x40 % 0x40, 0x80 + n % 0x40]
  else [0xf0 + n / 0x40000, 0x80 + n / 0x1000 % 0x40, 0x80 + n / 0x40 % 0x40, 0x80 + n % 0x40]

def utf8 (text : Text) : List UInt8 :=
  text.flatMap fun c => (encodeRune c.toNat).map UInt8.ofNat

theorem encodeRune_lt {n : ℕ} (hn : n < 0x110000) : ∀ b ∈ encodeRune n, b < 0x100 := by
  intro b hb
  unfold encodeRune at hb
  split_ifs at hb with h1 h2 h3
  · simp only [List.mem_singleton] at hb
    omega
  · simp only [List.mem_cons, List.not_mem_nil, or_false] at hb
    omega
  · simp only [List.mem_cons, List.not_mem_nil, or_false] at hb
    omega
  · simp only [List.mem_cons, List.not_mem_nil, or_false] at hb
    omega

/-- The bytes of a rune are read as it, whatever follows them. -/
theorem decodeRune_encodeRune {n : ℕ} (hn : n < 0xd800 ∨ 0xdfff < n ∧ n < 0x110000) :
    ∃ a tail, encodeRune n = a :: tail ∧
      ∀ more, decodeRune a (tail ++ more) = (n, tail.length) := by
  unfold encodeRune
  split_ifs with h1 h2 h3
  · refine ⟨n, [], rfl, fun more => ?_⟩
    rw [decodeRune.eq_def]
    exact if_pos h1
  · refine ⟨_, _, rfl, fun more => ?_⟩
    have hvalue : (0xc0 + n / 0x40 - 0xc0) * 0x40 + (0x80 + n % 0x40 - 0x80) = n := by omega
    rw [decodeRune.eq_def, if_neg (by omega)]
    simp only [List.cons_append, List.nil_append, List.length_cons, List.length_nil]
    rw [if_neg (by split_ifs <;> omega), if_pos (by omega), hvalue]
  · refine ⟨_, _, rfl, fun more => ?_⟩
    have hvalue : (0xe0 + n / 0x1000 - 0xe0) * 0x1000 + (0x80 + n / 0x40 % 0x40 - 0x80) * 0x40 +
        (0x80 + n % 0x40 - 0x80) = n := by omega
    rw [decodeRune.eq_def, if_neg (by omega)]
    simp only [List.cons_append, List.nil_append, List.length_cons, List.length_nil]
    rw [if_neg (by split_ifs <;> omega), if_neg (by omega), if_neg (by omega), if_pos (by omega),
      hvalue]
  · refine ⟨_, _, rfl, fun more => ?_⟩
    have hvalue : (0xf0 + n / 0x40000 - 0xf0) * 0x40000 +
        (0x80 + n / 0x1000 % 0x40 - 0x80) * 0x1000 + (0x80 + n / 0x40 % 0x40 - 0x80) * 0x40 +
        (0x80 + n % 0x40 - 0x80) = n := by omega
    rw [decodeRune.eq_def, if_neg (by omega)]
    simp only [List.cons_append, List.nil_append, List.length_cons, List.length_nil]
    rw [if_neg (by split_ifs <;> omega), if_neg (by omega), if_neg (by omega), if_neg (by omega),
      if_neg (by omega), if_pos (by omega), hvalue]

theorem runesAfter_append : ∀ tail bytes : List UInt8,
    runesAfter tail.length (tail ++ bytes) = runesAfter 0 bytes
  | [], _ => rfl
  | _ :: tail, bytes => by
    rw [List.length_cons, List.cons_append, runesAfter, runesAfter_append tail bytes]

theorem runes_encodeRune (c : Char) (bytes : List UInt8) :
    runes ((encodeRune c.toNat).map UInt8.ofNat ++ bytes) = c :: runes bytes := by
  have hc : c.toNat < 0xd800 ∨ 0xdfff < c.toNat ∧ c.toNat < 0x110000 := c.valid
  obtain ⟨a, tail, hbytes, hread⟩ := decodeRune_encodeRune hc
  have hsmall := encodeRune_lt (n := c.toNat) (by omega)
  rw [hbytes] at hsmall ⊢
  obtain ⟨ha, htail⟩ := List.forall_mem_cons.1 hsmall
  have hbyte : ∀ b < 0x100, (UInt8.ofNat b).toNat = b := fun b hb => by
    rw [UInt8.toNat_ofNat']
    exact Nat.mod_eq_of_lt hb
  have hnats : (tail.map UInt8.ofNat).map (·.toNat) = tail := by
    rw [List.map_map]
    exact (List.map_congr_left fun b hb => hbyte b (htail b hb)).trans (List.map_id _)
  have hlen : tail.length ≤ 3 := by
    have hfour : (encodeRune c.toNat).length ≤ 4 := by
      unfold encodeRune
      split_ifs <;> simp
    rw [hbytes, List.length_cons] at hfour
    omega
  have htake : ((tail.map UInt8.ofNat ++ bytes).take 3).map (·.toNat)
      = tail ++ (bytes.take (3 - tail.length)).map (·.toNat) := by
    rw [List.take_append, List.length_map, List.take_of_length_le (by simpa using hlen),
      List.map_append, hnats]
  have hskip := runesAfter_append (tail.map UInt8.ofNat) bytes
  rw [List.length_map] at hskip
  rw [runes, List.map_cons, List.cons_append, runesAfter, htake, hbyte a ha, hread, hskip,
    Char.ofNat_toNat]
  rfl

theorem runes_utf8 : ∀ text : Text, runes (utf8 text) = text
  | [] => rfl
  | c :: text => by
    have ih := runes_utf8 text
    rw [utf8] at ih ⊢
    rw [List.flatMap_cons, runes_encodeRune, ih]

end Utf8

/-! ## Writing -/

section Write

/-- The letter of a short escape. -/
def shortEscape (c : Char) : Option Char :=
  if c = '"' ∨ c = '\\' then some c
  else if c = '\x08' then some 'b'
  else if c = '\x0c' then some 'f'
  else if c = '\n' then some 'n'
  else if c = '\r' then some 'r'
  else if c = '\t' then some 't'
  else none

/-- The characters that stand as their number: the other control characters, those that HTML
reads otherwise, and the two that end a line in JavaScript. -/
def isEscaped (c : Char) : Bool :=
  c.toNat < 0x20 ∨ c = '<' ∨ c = '>' ∨ c = '&' ∨ c.toNat = 0x2028 ∨ c.toNat = 0x2029

def unicodeEscape (n : ℕ) : Text :=
  ['\\', 'u', Nat.digitChar (n / 0x1000 % 0x10), Nat.digitChar (n / 0x100 % 0x10),
    Nat.digitChar (n / 0x10 % 0x10), Nat.digitChar (n % 0x10)]

def writeRune (c : Char) : Text :=
  match shortEscape c with
  | some letter => ['\\', letter]
  | none => if isEscaped c then unicodeEscape c.toNat else [c]

def quote (s : Text) : Text := '"' :: (s.flatMap writeRune ++ ['"'])

def commas : List Text → Text
  | [] => []
  | [text] => text
  | text :: next :: texts => text ++ ',' :: commas (next :: texts)

/-- A number without a text is written as zero. -/
def writeNumber (literal : Text) : Text := if literal = [] then ['0'] else literal

def writeMember (e : Text × Text) : Text := quote e.1 ++ ':' :: e.2

def write : Value → Text :=
  Value.fold
    { null := "null".toList
      bool := fun b => if b then "true".toList else "false".toList
      number := writeNumber
      string := quote
      array := fun items => '[' :: (commas items ++ [']'])
      object := fun members => '\x7b' :: (commas (members.map writeMember) ++ ['\x7d']) }

/-- The first number of a value that JSON does not know. -/
def invalidNumber : Value → Option Text :=
  Value.fold
    { null := none
      bool := fun _ => none
      number := fun literal =>
        if literal ≠ [] ∧ readDecimal literal = none then some literal else none
      string := fun _ => none
      array := fun items => items.findSome? id
      object := fun members => members.findSome? Prod.snd }

def marshal (v : Value) : Except String (List UInt8) :=
  match invalidNumber v with
  | some literal => .error ("json: invalid number literal, trying to marshal \"" ++
      String.ofList literal ++ "\"")
  | none => .ok (utf8 (write v))

theorem write_array (items : List Value) :
    write (.array items) = '[' :: (commas (items.map write) ++ [']']) := Value.fold_array _ _

theorem write_object (members : List (Text × Value)) :
    write (.object members)
      = '\x7b' :: (commas ((SortedMap.mapValues write members).map writeMember) ++ ['\x7d']) :=
  Value.fold_object _ _

end Write

/-! ## What can be read again -/

/-- A value whose numbers JSON knows, nested no deeper than the levels allow. -/
inductive Fits : ℕ → Value → Prop
  | null {n : ℕ} : Fits n .null
  | bool {n : ℕ} {b : Bool} : Fits n (.bool b)
  | number {n : ℕ} {literal : Text} (known : (readDecimal literal).isSome)
      (chars : ∀ c ∈ literal, isNumberChar c = true) : Fits n (.number literal)
  | string {n : ℕ} {s : Text} : Fits n (.string s)
  | array {n : ℕ} {items : List Value} (items_fit : ∀ v ∈ items, Fits n v) :
      Fits (n + 1) (.array items)
  | object {n : ℕ} {members : List (Text × Value)} (members_fit : ∀ e ∈ members, Fits n e.2) :
      Fits (n + 1) (.object members)

theorem Fits.mono {n : ℕ} {v : Value} (h : Fits n v) : ∀ {m : ℕ}, n ≤ m → Fits m v := by
  induction h with
  | null => exact fun _ => .null
  | bool => exact fun _ => .bool
  | number known chars => exact fun _ => .number known chars
  | string => exact fun _ => .string
  | array _ ih =>
    intro m hm
    obtain ⟨m, rfl⟩ := Nat.exists_eq_add_of_le' (Nat.one_le_of_lt hm)
    exact .array fun v hv => ih v hv (by omega)
  | object _ ih =>
    intro m hm
    obtain ⟨m, rfl⟩ := Nat.exists_eq_add_of_le' (Nat.one_le_of_lt hm)
    exact .object fun e he => ih e he (by omega)

theorem invalidNumber_of_fits {n : ℕ} {v : Value} (h : Fits n v) : invalidNumber v = none := by
  induction h with
  | null => rfl
  | bool => rfl
  | @number n literal known chars =>
    have hknown : readDecimal literal ≠ none := Option.isSome_iff_ne_none.1 known
    exact if_neg fun h => hknown h.2
  | string => rfl
  | array _ ih =>
    rw [invalidNumber, Value.fold_array]
    refine List.findSome?_eq_none_iff.2 fun o ho => ?_
    obtain ⟨v, hv, rfl⟩ := List.mem_map.1 ho
    exact ih v hv
  | object _ ih =>
    rw [invalidNumber, Value.fold_object]
    refine List.findSome?_eq_none_iff.2 fun o ho => ?_
    obtain ⟨e, he, rfl⟩ := List.mem_map.1 ho
    exact ih e he

theorem marshal_of_fits {n : ℕ} {v : Value} (h : Fits n v) : marshal v = .ok (utf8 (write v)) := by
  rw [marshal, invalidNumber_of_fits h]

section Strings

theorem hexDigit_digitChar : ∀ {d : ℕ}, d < 0x10 → hexDigit (Nat.digitChar d) = some d := by
  decide

theorem parsePieces_plain {c : Char} (hquote : c ≠ '"') (hslash : c ≠ '\\')
    (hcontrol : ¬c.toNat < 0x20) (text : Text) :
    parsePieces (c :: text) = (parsePieces text).map fun r => (.rune c :: r.1, r.2) := by
  rw [parsePieces.eq_def]
  simp only [if_neg hquote, if_neg hcontrol, if_pos hslash]

theorem unescape_shortEscape {c letter : Char} (h : shortEscape c = some letter) :
    letter ≠ 'u' ∧ unescape letter = some c := by
  unfold shortEscape at h
  split_ifs at h with h1 h2 h3 h4 h5 h6
  · obtain rfl := Option.some.inj h
    rcases h1 with rfl | rfl
    · decide
    · decide
  all_goals
    obtain rfl := Option.some.inj h
    subst_vars
    decide

theorem parsePieces_short {c letter : Char} (h : shortEscape c = some letter) (text : Text) :
    parsePieces ('\\' :: letter :: text)
      = (parsePieces text).map fun r => (.rune c :: r.1, r.2) := by
  obtain ⟨hletter, hunescape⟩ := unescape_shortEscape h
  rw [parsePieces.eq_def]
  simp [hletter, hunescape]

theorem parsePieces_unicode {n : ℕ} (hn : n < 0x10000) (text : Text) :
    parsePieces (unicodeEscape n ++ text)
      = (parsePieces text).map fun r => (.unit n :: r.1, r.2) := by
  have hdigit : ∀ m, hexDigit (Nat.digitChar (m % 0x10)) = some (m % 0x10) := fun m =>
    hexDigit_digitChar (Nat.mod_lt m (by omega))
  have hunit : hexUnit (Nat.digitChar (n / 0x1000 % 0x10)) (Nat.digitChar (n / 0x100 % 0x10))
      (Nat.digitChar (n / 0x10 % 0x10)) (Nat.digitChar (n % 0x10)) = some n := by
    simp only [hexUnit, hdigit, Option.some.injEq]
    omega
  unfold unicodeEscape
  simp only [List.cons_append, List.nil_append]
  rw [parsePieces.eq_def]
  simp [hunit]

theorem join_unit {u : ℕ} (hu : isHigh u = false) :
    ∀ pieces, join (.unit u :: pieces) = single u :: join pieces
  | [] => rfl
  | .rune _ :: _ => rfl
  | .unit _ :: _ => by simp [join, hu]

theorem single_toNat {c : Char} : isHigh c.toNat = false ∧ single c.toNat = c := by
  have hc : c.toNat < 0xd800 ∨ 0xdfff < c.toNat ∧ c.toNat < 0x110000 := c.valid
  have hhigh : isHigh c.toNat = false := by
    rw [isHigh, decide_eq_false_iff_not]
    omega
  have hlow : isLow c.toNat = false := by
    rw [isLow, decide_eq_false_iff_not]
    omega
  simp [single, hhigh, hlow]

/-- Each rune is read as a piece that is joined into it again. -/
theorem parsePieces_writeRune (c : Char) (text : Text) :
    ∃ piece, parsePieces (writeRune c ++ text)
        = (parsePieces text).map (fun r => (piece :: r.1, r.2)) ∧
      ∀ pieces, join (piece :: pieces) = c :: join pieces := by
  unfold writeRune
  rcases hshort : shortEscape c with _ | letter
  · by_cases hescape : isEscaped c = true
    · have hsmall : c.toNat < 0x10000 := by
        simp only [isEscaped, decide_eq_true_eq] at hescape
        rcases hescape with h | rfl | rfl | rfl | h | h
        · omega
        · decide
        · decide
        · decide
        · omega
        · omega
      refine ⟨.unit c.toNat, ?_, fun pieces => ?_⟩
      · simp only [hescape, if_true]
        exact parsePieces_unicode hsmall text
      · rw [join_unit single_toNat.1, single_toNat.2]
    · have hquote : c ≠ '"' := by
        rintro rfl
        cases hshort
      have hslash : c ≠ '\\' := by
        rintro rfl
        cases hshort
      have hcontrol : ¬c.toNat < 0x20 := fun h => hescape (decide_eq_true (.inl h))
      refine ⟨.rune c, ?_, fun pieces => rfl⟩
      simp only [hescape, Bool.false_eq_true, if_false]
      exact parsePieces_plain hquote hslash hcontrol text
  · exact ⟨.rune c, parsePieces_short hshort text, fun pieces => rfl⟩

theorem parsePieces_text : ∀ s rest : Text, ∃ pieces,
    parsePieces (s.flatMap writeRune ++ '"' :: rest) = some (pieces, rest) ∧ join pieces = s
  | [], rest => ⟨[], by rw [List.flatMap_nil, List.nil_append, parsePieces.eq_def]; rfl, rfl⟩
  | c :: s, rest => by
    obtain ⟨pieces, hread, hjoin⟩ := parsePieces_text s rest
    obtain ⟨piece, hpiece, hcons⟩ := parsePieces_writeRune c (s.flatMap writeRune ++ '"' :: rest)
    refine ⟨piece :: pieces, ?_, by rw [hcons, hjoin]⟩
    rw [List.flatMap_cons, List.append_assoc, hpiece, hread]
    rfl

/-- A quoted string, after its first quote. -/
theorem parseString_text (s rest : Text) :
    parseString (s.flatMap writeRune ++ '"' :: rest) = some (s, rest) := by
  obtain ⟨pieces, hread, hjoin⟩ := parsePieces_text s rest
  rw [parseString, hread, Option.map_some, hjoin]

end Strings

section Loops

/-- What follows a value does not go on with it. -/
def Ends (rest : Text) : Prop := ∀ c ∈ rest.head?, isNumberChar c = false

theorem ends_cons {c : Char} (h : isNumberChar c = false) (rest : Text) : Ends (c :: rest) := by
  intro d hd
  obtain rfl : c = d := Option.some.inj hd
  exact h

/-- A reader reads what was written of a value. -/
def Rereads (value : Text → Option (Value × Text)) (v : Value) : Prop :=
  ∀ rest, Ends rest → value (write v ++ rest) = some (v, rest)

variable {value : Text → Option (Value × Text)}

theorem parseItems_commas : ∀ {items : List Value} {n : ℕ}, items ≠ [] → items.length ≤ n →
    (∀ v ∈ items, Rereads value v) → ∀ rest,
    parseItems value n (commas (items.map write) ++ ']' :: rest) = some (items, rest)
  | [], _, hne, _, _, _ => absurd rfl hne
  | _ :: _, 0, _, hn, _, _ => absurd hn (by simp)
  | [v], n + 1, _, _, hread, rest => by
    have hv := hread v List.mem_cons_self (']' :: rest) (ends_cons rfl rest)
    rw [List.map_singleton, commas, parseItems, hv]
    rfl
  | v :: w :: items, n + 1, _, hn, hread, rest => by
    have hv := hread v List.mem_cons_self
      (',' :: (commas ((w :: items).map write) ++ ']' :: rest)) (ends_cons rfl _)
    have hitems := parseItems_commas (List.cons_ne_nil w items)
      (show (w :: items).length ≤ n by simpa using hn)
      (fun u hu => hread u (List.mem_cons_of_mem _ hu)) rest
    have htext : commas ((v :: w :: items).map write) ++ ']' :: rest =
        write v ++ ',' :: (commas ((w :: items).map write) ++ ']' :: rest) := by
      rw [← List.cons_append, ← List.append_assoc]
      rfl
    rw [htext, parseItems, hv]
    simp only [skipSpace_of (c := ',') rfl, if_pos]
    rw [hitems]
    rfl

/-- The text of a member, with what follows it. -/
theorem writeMember_append (key text rest : Text) :
    writeMember (key, text) ++ rest =
      '"' :: (key.flatMap writeRune ++ '"' :: ':' :: (text ++ rest)) := by
  simp [writeMember, quote]

theorem parseMembers_commas : ∀ {members : List (Text × Value)} {n : ℕ}, members ≠ [] →
    members.length ≤ n → (∀ e ∈ members, Rereads value e.2) → ∀ rest,
    parseMembers value n
        (commas ((SortedMap.mapValues write members).map writeMember) ++ '\x7d' :: rest)
      = some (members, rest)
  | [], _, hne, _, _, _ => absurd rfl hne
  | _ :: _, 0, _, hn, _, _ => absurd hn (by simp)
  | [(key, v)], n + 1, _, _, hread, rest => by
    have hv := hread (key, v) List.mem_cons_self ('\x7d' :: rest) (ends_cons rfl rest)
    have htext : commas ((SortedMap.mapValues write [(key, v)]).map writeMember) ++
        '\x7d' :: rest
          = '"' :: (key.flatMap writeRune ++ '"' :: ':' :: (write v ++ '\x7d' :: rest)) :=
      writeMember_append key (write v) _
    rw [htext]
    exact parseMembers_last (parseString_text _ _) hv
  | (key, v) :: e :: members, n + 1, _, hn, hread, rest => by
    have hv := hread (key, v) List.mem_cons_self
      (',' :: (commas ((SortedMap.mapValues write (e :: members)).map writeMember) ++
        '\x7d' :: rest)) (ends_cons rfl _)
    have hmembers := parseMembers_commas (List.cons_ne_nil e members)
      (show (e :: members).length ≤ n by simpa using hn)
      (fun d hd => hread d (List.mem_cons_of_mem _ hd)) rest
    have htext : commas ((SortedMap.mapValues write ((key, v) :: e :: members)).map writeMember) ++
        '\x7d' :: rest = '"' :: (key.flatMap writeRune ++ '"' :: ':' :: (write v ++
          ',' :: (commas ((SortedMap.mapValues write (e :: members)).map writeMember) ++
            '\x7d' :: rest))) := by
      rw [← writeMember_append, ← List.cons_append, ← List.append_assoc]
      rfl
    rw [htext, parseMembers_cons (parseString_text _ _) hv, hmembers]
    rfl

theorem length_le_commas : ∀ texts : List Text, texts.length ≤ (commas texts).length + 1
  | [] => Nat.zero_le _
  | [text] => by simp
  | text :: next :: texts => by
    have ih := length_le_commas (next :: texts)
    have hlength : (commas (text :: next :: texts)).length =
        text.length + ((commas (next :: texts)).length + 1) := List.length_append
    rw [List.length_cons, hlength]
    omega

/-- A list that is not empty starts as its first text does. -/
theorem commas_head (first : Char) (text : Text) : ∀ texts : List Text,
    ∃ tail, commas ((first :: text) :: texts) = first :: tail
  | [] => ⟨_, rfl⟩
  | _ :: _ => ⟨_, rfl⟩

theorem known_head {literal : Text} (h : (readDecimal literal).isSome) :
    ∃ c cs, literal = c :: cs ∧ (c = '-' ∨ c.isDigit = true) := by
  rcases literal with _ | ⟨c, cs⟩
  · cases h
  refine ⟨c, cs, rfl, ?_⟩
  by_contra hc
  obtain ⟨hsign, hdigit⟩ := not_or.1 hc
  have hnone : readDecimal (c :: cs) = none := by
    simp [readDecimal, hsign, hdigit, isPositive]
  rw [hnone] at h
  cases h

theorem of_head {c : Char} (h : c = '-' ∨ c.isDigit = true) :
    isSpace c = false ∧ c ≠ '"' ∧ c ≠ '[' ∧ c ≠ '\x7b' ∧ c ≠ ']' := by
  have hne : ∀ d : Char, d ≠ '-' → d.isDigit = false → c ≠ d := by
    rintro d hsign hdigit rfl
    rcases h with h | h
    · exact hsign h
    · rw [hdigit] at h
      cases h
  refine ⟨?_, hne _ (by decide) (by decide), hne _ (by decide) (by decide),
    hne _ (by decide) (by decide), hne _ (by decide) (by decide)⟩
  simp [isSpace, hne ' ' (by decide) (by decide), hne '\t' (by decide) (by decide),
    hne '\r' (by decide) (by decide), hne '\n' (by decide) (by decide)]

theorem writeNumber_known {literal : Text} (h : (readDecimal literal).isSome) :
    writeNumber literal = literal := by
  obtain ⟨c, cs, rfl, -⟩ := known_head h
  exact if_neg (List.cons_ne_nil c cs)

theorem write_head {n : ℕ} {v : Value} (h : Fits n v) :
    ∃ first text, write v = first :: text ∧ isSpace first = false ∧ first ≠ ']' := by
  cases h with
  | null => exact ⟨'n', "ull".toList, rfl, rfl, by decide⟩
  | @bool _ b =>
    cases b
    · exact ⟨'f', "alse".toList, rfl, rfl, by decide⟩
    · exact ⟨'t', "rue".toList, rfl, rfl, by decide⟩
  | @number _ literal known =>
    obtain ⟨c, cs, hliteral, hc⟩ := known_head known
    obtain ⟨hspace, -, -, -, hend⟩ := of_head hc
    exact ⟨c, cs, (writeNumber_known known).trans hliteral, hspace, hend⟩
  | @string _ s => exact ⟨'"', _, rfl, rfl, by decide⟩
  | array => exact ⟨'[', _, write_array _, rfl, by decide⟩
  | object => exact ⟨'\x7b', _, write_object _, rfl, by decide⟩

theorem rereads_number {n : ℕ} {literal : Text} (known : (readDecimal literal).isSome)
    (chars : ∀ c ∈ literal, isNumberChar c = true) :
    Rereads (parseValue n) (.number literal) := by
  intro rest hrest
  obtain ⟨htake, hdrop⟩ := takeWhile_append_stop chars hrest
  have hparse : parseNumber (literal ++ rest) = some (.number literal, rest) := by
    rw [parseNumber, htake, hdrop, if_pos known]
  obtain ⟨c, cs, rfl, hc⟩ := known_head known
  obtain ⟨hspace, hquote, hlist, hmap, -⟩ := of_head hc
  change parseValue n (writeNumber (c :: cs) ++ rest) = _
  rw [writeNumber_known known, List.cons_append] at *
  rw [parseValue.eq_def]
  simp only [skipSpace_of hspace, if_neg hquote, if_neg hlist, if_neg hmap, if_pos hc]
  exact hparse

theorem rereads_array {n : ℕ} {items : List Value} (hfits : ∀ v ∈ items, Fits n v)
    (h : ∀ v ∈ items, Rereads (parseValue n) v) : Rereads (parseValue (n + 1)) (.array items) := by
  intro rest _
  have htext : write (.array items) ++ rest = '[' :: (commas (items.map write) ++ ']' :: rest) := by
    rw [write_array, List.cons_append, List.append_assoc, List.singleton_append]
  rw [htext, parseValue.eq_def]
  simp only [skipSpace_of (c := '[') rfl, if_neg (show ¬ '[' = '"' by decide), if_pos]
  rcases items with _ | ⟨v, items⟩
  · rfl
  obtain ⟨first, text, hfirst, hspace, hend⟩ := write_head (hfits v List.mem_cons_self)
  obtain ⟨tail, htail⟩ := commas_head first text (items.map write)
  have hlength : (v :: items).length ≤
      (commas ((v :: items).map write) ++ ']' :: rest).length := by
    have hcommas := length_le_commas ((v :: items).map write)
    rw [List.length_map] at hcommas
    rw [List.length_append, List.length_cons (a := ']')]
    omega
  have hparse := parseItems_commas (List.cons_ne_nil v items) hlength h rest
  have hopen : ¬(skipSpace (commas ((v :: items).map write) ++ ']' :: rest)).head? = some ']' := by
    rw [List.map_cons, hfirst, htail, List.cons_append, skipSpace_of hspace]
    simpa using hend
  rw [if_neg hopen, hparse]
  rfl

theorem rereads_object {n : ℕ} {members : List (Text × Value)}
    (h : ∀ e ∈ members, Rereads (parseValue n) e.2) :
    Rereads (parseValue (n + 1)) (.object members) := by
  intro rest _
  have htext : write (.object members) ++ rest = '\x7b' ::
      (commas ((SortedMap.mapValues write members).map writeMember) ++ '\x7d' :: rest) := by
    rw [write_object, List.cons_append, List.append_assoc, List.singleton_append]
  rw [htext, parseValue.eq_def]
  simp only [skipSpace_of (c := '\x7b') rfl, if_neg (show ¬ '\x7b' = '"' by decide),
    if_neg (show ¬ '\x7b' = '[' by decide), if_pos]
  rcases members with _ | ⟨⟨key, v⟩, members⟩
  · rfl
  obtain ⟨tail, htail⟩ : ∃ tail,
      commas ((SortedMap.mapValues write ((key, v) :: members)).map writeMember)
        = '"' :: tail := by
    rw [SortedMap.mapValues, List.map_cons, List.map_cons, writeMember, quote, List.cons_append]
    exact commas_head _ _ _
  have hlength : ((key, v) :: members).length ≤
      (commas ((SortedMap.mapValues write ((key, v) :: members)).map writeMember) ++
        '\x7d' :: rest).length := by
    have hcommas :=
      length_le_commas ((SortedMap.mapValues write ((key, v) :: members)).map writeMember)
    rw [List.length_map, SortedMap.mapValues, List.length_map, ← SortedMap.mapValues] at hcommas
    rw [List.length_append, List.length_cons (a := '\x7d')]
    omega
  have hparse := parseMembers_commas (List.cons_ne_nil (key, v) members) hlength h rest
  have hopen : ¬(skipSpace
      (commas ((SortedMap.mapValues write ((key, v) :: members)).map writeMember) ++
        '\x7d' :: rest)).head? = some '\x7d' := by
    rw [htail]
    exact fun h => absurd (Option.some.inj h) (by decide)
  rw [if_neg hopen, hparse]
  rfl

/-- What fits is read again as it was written. -/
theorem rereads {n : ℕ} {v : Value} (h : Fits n v) : Rereads (parseValue n) v := by
  induction h with
  | null =>
    intro rest _
    rw [parseValue.eq_def]
    rfl
  | @bool _ b =>
    intro rest _
    rw [parseValue.eq_def]
    cases b
    · rfl
    · rfl
  | number known chars => exact rereads_number known chars
  | @string _ s =>
    intro rest _
    have htext : write (.string s) ++ rest = '"' :: (s.flatMap writeRune ++ '"' :: rest) := by
      change quote s ++ rest = _
      simp [quote]
    rw [htext, parseValue.eq_def]
    simp only [skipSpace_of (c := '"') rfl, if_pos]
    rw [parseString_text]
    rfl
  | array hfits ih => exact rereads_array hfits ih
  | object _ ih => exact rereads_object ih

theorem parse_write {v : Value} (h : Fits maxNestingDepth v) : parse (utf8 (write v)) = some v := by
  have hread := rereads h [] (by simp [Ends])
  rw [List.append_nil] at hread
  rw [parse, runes_utf8, hread]
  rfl

end Loops

section Reading

variable {value : Text → Option (Value × Text)} {P : Value → Prop}

theorem parseItems_forall (hvalue : ∀ text v rest, value text = some (v, rest) → P v) :
    ∀ {n : ℕ} {text rest : Text} {items : List Value},
    parseItems value n text = some (items, rest) → ∀ v ∈ items, P v
  | 0, _, _, _, h => by cases h
  | n + 1, text, rest, items, h => by
    rw [parseItems] at h
    split at h
    · cases h
    rename_i v after hv
    split at h
    · cases h
    split_ifs at h
    · obtain ⟨r, hr, hitems⟩ := Option.map_eq_some_iff.1 h
      obtain ⟨rfl, -⟩ := Prod.mk.inj hitems
      exact List.forall_mem_cons.2 ⟨hvalue _ _ _ hv, parseItems_forall hvalue hr⟩
    · obtain ⟨rfl, -⟩ := Prod.mk.inj (Option.some.inj h)
      exact List.forall_mem_singleton.2 (hvalue _ _ _ hv)

theorem parseMembers_forall (hvalue : ∀ text v rest, value text = some (v, rest) → P v) :
    ∀ {n : ℕ} {text rest : Text} {members : List (Text × Value)},
    parseMembers value n text = some (members, rest) → ∀ e ∈ members, P e.2
  | 0, _, _, _, h => by cases h
  | n + 1, text, rest, members, h => by
    rw [parseMembers] at h
    split_ifs at h
    split at h
    · cases h
    split_ifs at h
    split at h
    · cases h
    rename_i v after hv
    split at h
    · cases h
    split_ifs at h
    · obtain ⟨r, hr, hmembers⟩ := Option.map_eq_some_iff.1 h
      obtain ⟨rfl, -⟩ := Prod.mk.inj hmembers
      exact List.forall_mem_cons.2 ⟨hvalue _ _ _ hv, parseMembers_forall hvalue hr⟩
    · obtain ⟨rfl, -⟩ := Prod.mk.inj (Option.some.inj h)
      exact List.forall_mem_singleton.2 (hvalue _ _ _ hv)

theorem fits_of_parseNumber {n : ℕ} {text rest : Text} {v : Value}
    (h : parseNumber text = some (v, rest)) : Fits n v := by
  unfold parseNumber at h
  split_ifs at h with hknown
  obtain ⟨rfl, -⟩ := Prod.mk.inj (Option.some.inj h)
  exact .number hknown fun c hc => List.mem_takeWhile_imp hc

theorem fits_of_parseWord {n : ℕ} {text rest : Text} {v : Value}
    (h : parseWord text = some (v, rest)) : Fits n v := by
  obtain ⟨word, hword, hv⟩ := Option.map_eq_some_iff.1 h
  obtain ⟨rfl, -⟩ := Prod.mk.inj hv
  have hmem := List.mem_of_find?_eq_some hword
  simp only [words, List.mem_cons, List.not_mem_nil, or_false] at hmem
  rcases hmem with rfl | rfl | rfl
  · exact .null
  · exact .bool
  · exact .bool

/-- Whatever is read fits. -/
theorem fits_of_parseValue : ∀ {n : ℕ} {text rest : Text} {v : Value},
    parseValue n text = some (v, rest) → Fits n v := by
  intro n
  induction n with
  | zero =>
    intro text rest v h
    rw [parseValue.eq_def] at h
    dsimp only at h
    split at h
    · cases h
    split_ifs at h
    · obtain ⟨_, -, hv⟩ := Option.map_eq_some_iff.1 h
      obtain ⟨rfl, -⟩ := Prod.mk.inj hv
      exact .string
    · exact fits_of_parseNumber h
    · exact fits_of_parseWord h
  | succ n ih =>
    intro text rest v h
    rw [parseValue.eq_def] at h
    dsimp only at h
    split at h
    · cases h
    split_ifs at h
    · obtain ⟨_, -, hv⟩ := Option.map_eq_some_iff.1 h
      obtain ⟨rfl, -⟩ := Prod.mk.inj hv
      exact .string
    · obtain ⟨rfl, -⟩ := Prod.mk.inj (Option.some.inj h)
      exact .array fun v hv => by cases hv
    · obtain ⟨r, hr, hv⟩ := Option.map_eq_some_iff.1 h
      obtain ⟨rfl, -⟩ := Prod.mk.inj hv
      exact .array (parseItems_forall (fun _ _ _ => ih) hr)
    · obtain ⟨rfl, -⟩ := Prod.mk.inj (Option.some.inj h)
      exact .object fun e he => by cases he
    · obtain ⟨r, hr, hv⟩ := Option.map_eq_some_iff.1 h
      obtain ⟨rfl, -⟩ := Prod.mk.inj hv
      exact .object (parseMembers_forall (fun _ _ _ => ih) hr)
    · exact fits_of_parseNumber h
    · exact fits_of_parseWord h

theorem fits_of_parse {bytes : List UInt8} {v : Value} (h : parse bytes = some v) :
    Fits maxNestingDepth v := by
  unfold parse at h
  split at h
  · rename_i hread
    split_ifs at h
    obtain rfl := Option.some.inj h
    exact fits_of_parseValue hread
  · cases h

end Reading

/-! ## Maps -/

section Maps

/-- A value in which each object is a map. -/
inductive Mapped : Value → Prop
  | null : Mapped .null
  | bool {b : Bool} : Mapped (.bool b)
  | number {literal : Text} : Mapped (.number literal)
  | string {s : Text} : Mapped (.string s)
  | array {items : List Value} (items_mapped : ∀ v ∈ items, Mapped v) : Mapped (.array items)
  | object {members : List (Text × Value)} (sorted : SortedMap.Sorted members)
      (members_mapped : ∀ e ∈ members, Mapped e.2) : Mapped (.object members)

theorem mapped_decoded (v : Value) : Mapped v.decoded := by
  induction v using Value.recursion with
  | null => exact .null
  | bool b => exact .bool
  | number l => exact .number
  | string s => exact .string
  | array items ih =>
    rw [Value.decoded, Value.rebuild_array]
    refine .array fun w hw => ?_
    obtain ⟨v, hv, rfl⟩ := List.mem_map.1 hw
    exact ih v hv
  | object members ih =>
    rw [Value.decoded, Value.rebuild_object]
    refine .object (SortedMap.sorted_assignAll _ SortedMap.sorted_nil) fun e he => ?_
    rcases SortedMap.mem_assignAll he with he | he
    · obtain ⟨d, hd, rfl⟩ := List.mem_map.1 he
      exact ih d hd
    · cases he

/-- A map is decoded as itself. -/
theorem decoded_of_mapped {v : Value} (h : Mapped v) : v.decoded = v := by
  induction h with
  | null => rfl
  | bool => rfl
  | number => rfl
  | string => rfl
  | array _ ih =>
    rw [Value.decoded, Value.rebuild_array]
    exact congrArg _ ((List.map_congr_left ih).trans (List.map_id _))
  | @object members sorted _ ih =>
    have hsame : SortedMap.mapValues (Value.rebuild id (SortedMap.assignAll [])) members
        = members := (SortedMap.mapValues_congr (g := id) ih).trans (List.map_id' _)
    rw [Value.decoded, Value.rebuild_object, hsame, SortedMap.assignAll_self sorted]

theorem Fits.decoded {n : ℕ} {v : Value} (h : Fits n v) : Fits n v.decoded := by
  induction h with
  | null => exact .null
  | bool => exact .bool
  | number known chars => exact .number known chars
  | string => exact .string
  | array _ ih =>
    rw [Value.decoded, Value.rebuild_array]
    refine .array fun w hw => ?_
    obtain ⟨v, hv, rfl⟩ := List.mem_map.1 hw
    exact ih v hv
  | object _ ih =>
    rw [Value.decoded, Value.rebuild_object]
    refine .object fun e he => ?_
    rcases SortedMap.mem_assignAll he with he | he
    · obtain ⟨d, hd, rfl⟩ := List.mem_map.1 he
      exact ih d hd
    · cases he

end Maps

end GoJson
