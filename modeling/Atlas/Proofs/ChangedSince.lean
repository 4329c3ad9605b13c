import Atlas.Core.ChangedSince
import Atlas.Proofs.ChangeLog

/-!
# Reading the log in pages

A cursor is read back as what it was written from (`decodeVersionCursor_encode`). A page holds the
versions after its start up to some last one, of those up to the version the first page named, and
never none of them if it says that there are more (`page`). Commits add versions above that one and
pruning takes away only what a later page refuses to read without (`LogChange.between`), so that the
pages together hold what one page of the first log would have held (`following`).
-/

namespace Atlas.Core

open GoJson

/-! ## The cursor -/

section Cursor

theorem parseString_simple {c : Char} (hquote : c ≠ '"') (hslash : c ≠ '\\')
    (hcontrol : ¬c.toNat < 0x20) {key rest text : Text} (h : parseString text = some (key, rest)) :
    parseString (c :: text) = some (c :: key, rest) := by
  rw [parseString] at h ⊢
  rcases hp : parsePieces text with _ | ⟨pieces, rest'⟩
  · rw [hp] at h
    cases h
  · rw [hp] at h
    obtain ⟨rfl, rfl⟩ : join pieces = key ∧ rest' = rest := by simpa using h
    simp [parsePieces.eq_def (c :: text), hquote, hslash, hcontrol, hp, join]

theorem parseString_end (text : Text) : parseString ('"' :: text) = some ([], text) := by
  simp [parseString, parsePieces.eq_def ('"' :: text), join]

theorem isDigit_ascii {c : Char} (h : c.isDigit = true) : c.toNat < 0x80 := by
  simp only [Char.isDigit, Bool.and_eq_true, decide_eq_true_eq] at h
  have hle : c.val.toNat ≤ 57 := UInt32.le_iff_toNat_le.1 h.2
  exact hle.trans_lt (by decide)

theorem not_numberChar {c : Char} (hc : isNumberChar c = false) (text : Text) :
    ∀ d ∈ (c :: text).head?, isNumberChar d = false := by
  rintro d hd
  obtain rfl : c = d := by simpa using hd
  exact hc

/-- The text of a cursor from its first key on. -/
def cursorMembers (v uv sv : ℤ) : Text :=
  'v' :: '"' :: ':' :: (Nat.toDigits 10 v.natAbs
    ++ ',' :: '"' :: 'u' :: 'v' :: '"' :: ':' :: (Nat.toDigits 10 uv.natAbs
    ++ ',' :: '"' :: 's' :: 'v' :: '"' :: ':' :: (Nat.toDigits 10 sv.natAbs ++ ['\x7d'])))

theorem marshal_eq {v uv sv : ℤ} (hv : 0 ≤ v) (huv : 0 ≤ uv) (hsv : 0 ≤ sv) :
    VersionCursor.marshal ⟨v, uv, some sv⟩ = '\x7b' :: '"' :: cursorMembers v uv sv := by
  have hdigits : ∀ {n : ℤ}, 0 ≤ n → intText n = Nat.toDigits 10 n.natAbs := by
    intro n hn
    rw [intText, if_neg (not_lt.2 hn)]
  have hv' : "\x7b\"v\":".toList = ['\x7b', '"', 'v', '"', ':'] := rfl
  have huv' : ",\"uv\":".toList = [',', '"', 'u', 'v', '"', ':'] := rfl
  have hsv' : ",\"sv\":".toList = [',', '"', 's', 'v', '"', ':'] := rfl
  unfold VersionCursor.marshal cursorMembers
  simp only [hdigits hv, hdigits huv, hdigits hsv, hv', huv', hsv', List.append_assoc]
  simp only [List.cons_append, List.nil_append]

theorem parseString_key (text : Text) :
    parseString ('v' :: '"' :: text) = some (['v'], text) := by
  have hend := parseString_end text
  exact parseString_simple (by decide) (by decide) (by decide) hend

theorem parseMembers_marshal (levels n : ℕ) (v uv sv : ℤ) :
    parseMembers (parseValue levels) (n + 1 + 1 + 1) ('"' :: cursorMembers v uv sv)
      = some ([(['v'], .number (Nat.toDigits 10 v.natAbs)),
        (['u', 'v'], .number (Nat.toDigits 10 uv.natAbs)),
        (['s', 'v'], .number (Nat.toDigits 10 sv.natAbs))], []) := by
  have hkey : ∀ c ∈ ['u', 's'], ∀ text : Text,
      parseString (c :: 'v' :: '"' :: text) = some ([c, 'v'], text) := by
    intro c hc text
    rcases List.mem_pair.1 hc with rfl | rfl
    · exact parseString_simple (by decide) (by decide) (by decide) (parseString_key text)
    · exact parseString_simple (by decide) (by decide) (by decide) (parseString_key text)
  rw [cursorMembers,
    parseMembers_cons (parseString_key _) (parseValue_toDigits _ _ (not_numberChar rfl _)),
    parseMembers_cons (hkey 'u' (by simp) _) (parseValue_toDigits _ _ (not_numberChar rfl _)),
    parseMembers_last (hkey 's' (by simp) _) (parseValue_toDigits _ _ (not_numberChar rfl _))]
  rfl

theorem marshal_ascii (v uv sv : ℤ) :
    ∀ c ∈ '\x7b' :: '"' :: cursorMembers v uv sv, c.toNat < 0x80 := by
  have hdigits : ∀ n : ℕ, ∀ c ∈ Nat.toDigits 10 n, c.toNat < 0x80 := fun n c hc =>
    isDigit_ascii (isDigit_toDigits hc)
  simp only [cursorMembers, List.forall_mem_cons, List.forall_mem_append]
  refine ⟨by decide, by decide, by decide, by decide, by decide, hdigits _, by decide, by decide,
    by decide, by decide, by decide, by decide, hdigits _, by decide, by decide, by decide,
    by decide, by decide, by decide, hdigits _, by decide, by simp⟩

theorem unmarshal_marshal {v uv sv : ℤ} (hv : 0 ≤ v) (huv : 0 ≤ uv) (hsv : 0 ≤ sv)
    (hv' : v < 2 ^ 63) (huv' : uv < 2 ^ 63) (hsv' : sv < 2 ^ 63) :
    VersionCursor.unmarshal (asciiBytes (VersionCursor.marshal ⟨v, uv, some sv⟩))
      = some ⟨v, uv, some sv⟩ := by
  have hint : ∀ {n : ℤ}, 0 ≤ n → n < 2 ^ 63 →
      parseInt64 (Nat.toDigits 10 n.natAbs) = some n := by
    intro n hn hn'
    have := parseInt64_intText hn hn'
    rwa [intText, if_neg (not_lt.2 hn)] at this
  have hdepth : maxNestingDepth = 9999 + 1 := rfl
  have hlength : ∃ n, (cursorMembers v uv sv).length + 1 = n + 1 + 1 + 1 :=
    ⟨(cursorMembers v uv sv).length - 2, by simp [cursorMembers]⟩
  obtain ⟨n, hn⟩ := hlength
  have hparse : parse (asciiBytes (VersionCursor.marshal ⟨v, uv, some sv⟩))
      = some (.object [(['v'], .number (Nat.toDigits 10 v.natAbs)),
        (['u', 'v'], .number (Nat.toDigits 10 uv.natAbs)),
        (['s', 'v'], .number (Nat.toDigits 10 sv.natAbs))]) := by
    rw [marshal_eq hv huv hsv, parse, runes_asciiBytes _ (marshal_ascii v uv sv), hdepth,
      parseValue_object (hn ▸ parseMembers_marshal 9999 n v uv sv)]
    rfl
  rw [VersionCursor.unmarshal, hparse]
  simp only [List.foldlM_cons, List.foldlM_nil, VersionCursor.assign, foldName]
  simp [hint hv hv', hint huv huv', hint hsv hsv']

/-- What encoding accepts. -/
def ValidCursor (v u s : ℤ) : Prop := 0 < v ∧ 0 < u ∧ 0 ≤ s ∧ s < v ∧ v ≤ u

theorem encodeVersionCursor_ok {v u s : ℤ} {cursor : String} :
    encodeVersionCursor v u s = .ok cursor ↔ ValidCursor v u s ∧ cursor
      = String.ofList (Base64.encode (asciiBytes (VersionCursor.marshal ⟨v, u, some s⟩))) := by
  unfold encodeVersionCursor ValidCursor
  split_ifs with h₁ h₂ h₃ h₄
  · simp [not_lt.2 h₁]
  · simp [not_lt.2 h₂]
  · simp [not_le.2 h₃]
  · simp only [false_iff, not_and]
    omega
  · simp only [Except.ok.injEq, eq_comm (b := cursor)]
    exact ⟨fun h => ⟨by omega, h⟩, fun h => h.2⟩

theorem marshal_encode_ne (p : VersionCursor) :
    Base64.encode (asciiBytes p.marshal) ≠ [] := by
  refine Base64.encode_ne_nil fun hnil => ?_
  have hmem : '\x7d' ∈ p.marshal := by
    unfold VersionCursor.marshal
    exact List.mem_append_right _ List.mem_cons_self
  rw [List.map_eq_nil_iff.1 hnil] at hmem
  exact absurd hmem List.not_mem_nil

theorem trimSpace_ne_empty {s : String} {c : Char} (hc : c ∈ s.toList) (hspace : isSpace c = false) :
    trimSpace s ≠ "" := by
  intro hempty
  have hnil : (s.toList.dropWhile isSpace).reverse.dropWhile isSpace = [] := by
    have := congrArg String.toList hempty
    rw [trimSpace, String.toList_ofList] at this
    exact List.reverse_eq_nil_iff.1 this
  have hall := List.dropWhile_eq_nil_iff.1 hnil
  rw [← List.takeWhile_append_dropWhile (p := isSpace) (l := s.toList), List.mem_append] at hc
  rcases hc with hc | hc
  · rw [List.mem_takeWhile_imp hc] at hspace
    cases hspace
  · rw [hall c (List.mem_reverse.2 hc)] at hspace
    cases hspace

/-- A cursor is not blank. -/
theorem trimSpace_cursor {v u s : ℤ} {cursor : String}
    (h : encodeVersionCursor v u s = .ok cursor) : trimSpace cursor ≠ "" := by
  obtain ⟨-, rfl⟩ := encodeVersionCursor_ok.1 h
  obtain ⟨c, cs, hcs⟩ := List.exists_cons_of_ne_nil (marshal_encode_ne ⟨v, u, some s⟩)
  have hmem : c ∈ Base64.encode (asciiBytes (VersionCursor.marshal ⟨v, u, some s⟩)) := by
    rw [hcs]
    exact List.mem_cons_self
  obtain ⟨n, hn, rfl⟩ := Base64.mem_encode hmem
  obtain ⟨hlt, hdigit⟩ := Base64.digit_mem hn
  have halphabet : (Base64.alphabet.all fun c => !isSpace c) = true := by
    rw [Base64.alphabet_eq]
    rfl
  have hspace := List.all_eq_true.1 halphabet _ (hdigit ▸ List.getElem_mem hlt)
  exact trimSpace_ne_empty (by rwa [String.toList_ofList]) (by simpa using hspace)

theorem decodeVersionCursor_encode {v u s : ℤ} {cursor : String} (hu : u < 2 ^ 63)
    (h : encodeVersionCursor v u s = .ok cursor) :
    decodeVersionCursor cursor = .ok (v, u, s) := by
  obtain ⟨⟨hv, hu', hs, hsv, hvu⟩, rfl⟩ := encodeVersionCursor_ok.1 h
  have hunmarshal := unmarshal_marshal hv.le hu'.le hs (hvu.trans_lt hu) hu
    (hsv.trans (hvu.trans_lt hu))
  have hne : String.ofList (Base64.encode (asciiBytes (VersionCursor.marshal ⟨v, u, some s⟩)))
      ≠ "" := by
    intro hempty
    have hnil := congrArg String.toList hempty
    rw [String.toList_ofList] at hnil
    exact marshal_encode_ne _ hnil
  rw [decodeVersionCursor, if_neg hne, String.toList_ofList, Base64.decode_encode]
  simp only [hunmarshal, if_neg (not_le.2 hv), if_neg (not_le.2 hu'), if_neg (not_lt.2 hs)]
  exact if_neg (by omega)

/-- Decoding gives only what encoding accepts. -/
theorem decodeVersionCursor_valid {cursor : String} {v u s : ℤ}
    (h : decodeVersionCursor cursor = .ok (v, u, s)) : ValidCursor v u s := by
  rw [decodeVersionCursor] at h
  split_ifs at h
  rcases hb : Base64.decode cursor.toList with _ | raw
  · simp [hb] at h
  rcases hp : VersionCursor.unmarshal raw with _ | ⟨v', u', sv⟩
  · simp [hb, hp] at h
  simp only [hb, hp] at h
  split_ifs at h with hv hu
  rcases sv with _ | sv
  · cases h
  simp only at h
  split_ifs at h with hs hrange
  cases h
  exact ⟨by omega, by omega, by omega, by omega, by omega⟩

end Cursor

/-! ## The log between two pages -/

/-- Every version above the floor has exactly one row, whose event carries it. -/
structure Contiguous (db : DB) : Prop where
  min_le : db.changeClock.minRetainedVersion ≤ db.changeClock.version
  row_version : ∀ r ∈ db.changeEvents, r.event.version = r.version
  row_le : ∀ r ∈ db.changeEvents, r.version ≤ db.changeClock.version
  unique : (db.changeEvents.map (·.version)).Nodup
  covered : ∀ v, db.changeClock.minRetainedVersion < v → v ≤ db.changeClock.version →
    v ∈ db.changeEvents.map (·.version)

theorem LogInv.contiguous {floor : ChangeClock} {db : DB} (h : LogInv floor [] [] db) :
    Contiguous db :=
  ⟨h.min_le, h.row_version, h.row_le, h.unique, fun v hmin hv => h.covered v hmin hv (by simp)⟩

/-- What happens to the log: a transaction commits events, each with the next version, or rows are
pruned. -/
inductive LogChange : DB → DB → Prop
  | commit {db db' : DB} (rows : List ChangeRow)
      (hrows : db'.changeEvents = db.changeEvents ++ rows)
      (hmin : db'.changeClock.minRetainedVersion = db.changeClock.minRetainedVersion)
      (hversion : db'.changeClock.version = db.changeClock.version + rows.length)
      (hversions : (rows.map (·.version)).Perm (List.range' (db.changeClock.version + 1) rows.length))
      (hevents : ∀ r ∈ rows, r.event.version = r.version) : LogChange db db'
  | prune (db : DB) (cutoff : Time) (batchSize : ℕ) (readings : ℕ → Time) :
      LogChange db (commit (pruneChangeRecordBatch cutoff batchSize) readings db)

/-- The log goes on: above the later floor the rows up to the earlier version are the same. -/
structure Continues (db db' : DB) : Prop where
  contiguous : Contiguous db'
  version_le : db.changeClock.version ≤ db'.changeClock.version
  min_le : db.changeClock.minRetainedVersion ≤ db'.changeClock.minRetainedVersion
  rows : ∀ r, db'.changeClock.minRetainedVersion < r.version → r.version ≤ db.changeClock.version →
    (r ∈ db'.changeEvents ↔ r ∈ db.changeEvents)

theorem Continues.refl {db : DB} (h : Contiguous db) : Continues db db :=
  ⟨h, le_rfl, le_rfl, fun _ _ _ => Iff.rfl⟩

theorem Continues.trans {db db' db'' : DB} (h : Continues db db') (h' : Continues db' db'') :
    Continues db db'' := by
  refine ⟨h'.contiguous, h.version_le.trans h'.version_le, h.min_le.trans h'.min_le, ?_⟩
  intro r hmin hv
  rw [h'.rows r hmin (hv.trans h.version_le), h.rows r (h'.min_le.trans_lt hmin) hv]

theorem Contiguous.commit {db db' : DB} (h : Contiguous db) {rows : List ChangeRow}
    (hrows : db'.changeEvents = db.changeEvents ++ rows)
    (hmin : db'.changeClock.minRetainedVersion = db.changeClock.minRetainedVersion)
    (hversion : db'.changeClock.version = db.changeClock.version + rows.length)
    (hversions : (rows.map (·.version)).Perm (List.range' (db.changeClock.version + 1) rows.length))
    (hevents : ∀ r ∈ rows, r.event.version = r.version) : Continues db db' := by
  have hnew : ∀ r ∈ rows, db.changeClock.version < r.version
      ∧ r.version ≤ db'.changeClock.version := by
    intro r hr
    have := hversions.mem_iff.1 (List.mem_map_of_mem hr)
    rw [List.mem_range'_1] at this
    omega
  refine ⟨⟨?_, ?_, ?_, ?_, ?_⟩, ?_, hmin.ge, ?_⟩
  · rw [hmin, hversion]
    exact h.min_le.trans (Nat.le_add_right _ _)
  · rw [hrows]
    exact List.forall_mem_append.2 ⟨h.row_version, hevents⟩
  · rw [hrows]
    refine List.forall_mem_append.2 ⟨fun r hr => (h.row_le r hr).trans ?_, fun r hr => (hnew r hr).2⟩
    rw [hversion]
    exact Nat.le_add_right _ _
  · rw [hrows, List.map_append]
    refine h.unique.append (hversions.nodup_iff.2 List.nodup_range') ?_
    intro v hold hv
    obtain ⟨r, hr, rfl⟩ := List.mem_map.1 hold
    obtain ⟨r', hr', heq⟩ := List.mem_map.1 hv
    exact absurd (h.row_le r hr) (by rw [← heq]; exact not_le.2 (hnew r' hr').1)
  · intro v hv hv'
    rw [hmin] at hv
    rw [hrows, List.map_append, List.mem_append]
    by_cases hold : v ≤ db.changeClock.version
    · exact .inl (h.covered v hv hold)
    · refine .inr (hversions.mem_iff.2 (List.mem_range'_1.2 ?_))
      omega
  · rw [hversion]
    exact Nat.le_add_right _ _
  · intro r _ hv
    rw [hrows, List.mem_append, or_iff_left]
    exact fun hr => absurd (hnew r hr).1 (not_lt.2 hv)

/-- Rows may leave in any order of versions if the floor rises to the greatest of them. -/
theorem Contiguous.prune {db : DB} (h : Contiguous db) {versions : List ℕ} {through : ℕ}
    (hle : through ≤ db.changeClock.version)
    (hthrough : ∀ r ∈ db.changeEvents, r.version ∈ versions → r.version ≤ through) :
    Continues db
      { db with
        changeEvents := db.changeEvents.filter fun r => !versions.contains r.version
        changeClock :=
          if db.changeClock.minRetainedVersion < through then
            { db.changeClock with minRetainedVersion := through }
          else db.changeClock } := by
  have hclock : (if db.changeClock.minRetainedVersion < through then
      { db.changeClock with minRetainedVersion := through } else db.changeClock)
      = ⟨db.changeClock.version, max db.changeClock.minRetainedVersion through⟩ := by
    split
    · rw [max_eq_right (le_of_lt ‹_›)]
    · rw [max_eq_left (not_lt.1 ‹_›)]
  have hkept : ∀ r ∈ db.changeEvents, through < r.version →
      r ∈ db.changeEvents.filter fun r => !versions.contains r.version := by
    intro r hr hlt
    refine List.mem_filter.2 ⟨hr, ?_⟩
    simp only [Bool.not_eq_true', List.contains_eq_mem, decide_eq_false_iff_not]
    exact fun hin => absurd (hthrough r hr hin) (not_le.2 hlt)
  rw [hclock]
  refine ⟨⟨max_le h.min_le hle, ?_, ?_, ?_, ?_⟩, le_rfl, le_max_left _ _, ?_⟩
  · exact fun r hr => h.row_version r (List.mem_filter.1 hr).1
  · exact fun r hr => h.row_le r (List.mem_filter.1 hr).1
  · exact h.unique.sublist (List.filter_sublist.map _)
  · intro v hmin hv
    obtain ⟨hmin, hv'⟩ := max_lt_iff.1 hmin
    obtain ⟨r, hr, rfl⟩ := List.mem_map.1 (h.covered v hmin hv)
    exact List.mem_map_of_mem (hkept r hr hv')
  · intro r hmin _
    exact ⟨fun hr => (List.mem_filter.1 hr).1, fun hr => hkept r hr (max_lt_iff.1 hmin).2⟩

theorem pruneChangeRecordBatch_continues (db₀ : DB) (cutoff : Time) (batchSize : ℕ) :
    Spec (Continues db₀) (pruneChangeRecordBatch cutoff batchSize) fun _ => Continues db₀ := by
  unfold pruneChangeRecordBatch
  refine .get fun db hdb => ?_
  refine .bind (Q := fun _ => Continues db₀) (.of_modifyDB ?_) fun _ => .of_pure fun _ h => h
  intro db' heq
  subst heq
  refine hdb.trans (hdb.contiguous.prune ?_ fun r hr hv => ?_)
  · rcases hm : List.max? _ with _ | m
    · exact Nat.zero_le _
    · obtain ⟨r, hr, rfl⟩ := List.mem_map.1 (List.max?_mem hm)
      exact hdb.contiguous.row_le r (List.mem_filter.1 hr).1
  · refine List.le_max?_getD_of_mem (List.mem_map.2 ⟨r, List.mem_filter.2 ⟨hr, ?_⟩, rfl⟩)
    simpa using hv

theorem LogChange.continues {db db' : DB} (hdb : Contiguous db) (h : LogChange db db') :
    Continues db db' := by
  cases h with
  | commit rows hrows hmin hversion hversions hevents =>
    exact hdb.commit hrows hmin hversion hversions hevents
  | prune cutoff batchSize readings =>
    exact (pruneChangeRecordBatch_continues db cutoff batchSize).commit (.refl hdb)

theorem continues_of_changes {db db' : DB} (hdb : Contiguous db)
    (h : Relation.ReflTransGen LogChange db db') : Continues db db' := by
  induction h with
  | refl => exact .refl hdb
  | tail _ hstep ih => exact ih.trans (hstep.continues ih.contiguous)

/-! ## The rows of a range -/

section Range

theorem mem_changesBetween {db : DB} {a U : ℤ} {r : ChangeRow} :
    r ∈ changesBetween db a U ↔ r ∈ db.changeEvents ∧ a < r.version ∧ r.version ≤ U := by
  simp [changesBetween, List.mem_mergeSort]

theorem changesBetween_pairwise (db : DB) (a U : ℤ) :
    (changesBetween db a U).Pairwise fun r r' => versionOrder r r' = true := by
  refine List.pairwise_mergeSort (fun r r' r'' h h' => ?_) (fun r r' => ?_) _
  · unfold versionOrder at *
    rw [decide_eq_true_eq] at *
    exact h.trans h'
  · unfold versionOrder
    rw [Bool.or_eq_true, decide_eq_true_eq, decide_eq_true_eq]
    exact le_total _ _

theorem Contiguous.changesBetween_nodup {db : DB} (h : Contiguous db) (a U : ℤ) :
    ((changesBetween db a U).map (·.version)).Nodup :=
  ((List.mergeSort_perm _ _).map _).nodup_iff.2 (h.unique.sublist (List.filter_sublist.map _))

/-- The rows after a version at or above the floor have the versions from there on. -/
theorem Contiguous.changesBetween_versions {db : DB} (h : Contiguous db) {a U : ℕ}
    (ha : db.changeClock.minRetainedVersion ≤ a) (hU : U ≤ db.changeClock.version) :
    (changesBetween db a U).map (·.version) = List.range' (a + 1) (U - a) := by
  have hperm : ((changesBetween db a U).map (·.version)).Perm (List.range' (a + 1) (U - a)) := by
    rw [List.perm_ext_iff_of_nodup (h.changesBetween_nodup a U) List.nodup_range']
    intro v
    rw [List.mem_range'_1, List.mem_map]
    constructor
    · rintro ⟨r, hr, rfl⟩
      have := mem_changesBetween.1 hr
      omega
    · intro hv
      obtain ⟨r, hr, rfl⟩ := List.mem_map.1 (h.covered v (by omega) (by omega))
      exact ⟨r, mem_changesBetween.2 ⟨hr, by omega, by omega⟩, rfl⟩
  refine hperm.eq_of_pairwise (fun v w _ _ (hvw : v ≤ w) hwv => le_antisymm hvw hwv) ?_ ?_
  · refine List.pairwise_map.2 ((changesBetween_pairwise db a U).imp fun hle => ?_)
    simpa [versionOrder] using hle
  · exact List.pairwise_le_range' _

/-- Rows in the order of their versions, each version once, are determined by which they are. -/
theorem rows_ext {rows rows' : List ChangeRow} (hnodup : (rows.map (·.version)).Nodup)
    (hnodup' : (rows'.map (·.version)).Nodup)
    (hsorted : rows.Pairwise fun r r' => versionOrder r r' = true)
    (hsorted' : rows'.Pairwise fun r r' => versionOrder r r' = true)
    (hmem : ∀ r, r ∈ rows ↔ r ∈ rows') : rows = rows' := by
  have hperm := (List.perm_ext_iff_of_nodup (List.Nodup.of_map _ hnodup)
    (List.Nodup.of_map _ hnodup')).2 hmem
  refine hperm.eq_of_pairwise (fun r r' hr hr' hle hle' => ?_) hsorted hsorted'
  refine List.inj_on_of_nodup_map hnodup' ((hmem r).1 hr) hr' ?_
  simp only [versionOrder, decide_eq_true_eq] at hle hle'
  exact le_antisymm hle hle'

/-- A later log has the same rows in a range above its floor that the earlier one had. -/
theorem Continues.changesBetween {db db' : DB} (h : Continues db db') (hdb : Contiguous db)
    {a U : ℕ} (ha : db'.changeClock.minRetainedVersion ≤ a) (hU : U ≤ db.changeClock.version) :
    changesBetween db' a U = changesBetween db a U := by
  refine rows_ext (h.contiguous.changesBetween_nodup a U) (hdb.changesBetween_nodup a U)
    (changesBetween_pairwise db' a U) (changesBetween_pairwise db a U) fun r => ?_
  rw [mem_changesBetween, mem_changesBetween]
  constructor
  · rintro ⟨hr, hlow, hhigh⟩
    exact ⟨(h.rows r (by omega) (by omega)).1 hr, hlow, hhigh⟩
  · rintro ⟨hr, hlow, hhigh⟩
    exact ⟨(h.rows r (by omega) (by omega)).2 hr, hlow, hhigh⟩

/-- The rows after a version within a range are those that are left of it. -/
theorem Contiguous.changesBetween_drop {db : DB} (h : Contiguous db) {a U k : ℕ}
    (ha : db.changeClock.minRetainedVersion ≤ a) (hU : U ≤ db.changeClock.version)
    (hk : a + k ≤ U) :
    changesBetween db ((a + k : ℕ) : ℤ) U = (changesBetween db a U).drop k := by
  have hversions := h.changesBetween_versions ha hU
  have hnodup := h.changesBetween_nodup a U
  have htake : ∀ r ∈ (changesBetween db a U).take k, r.version ≤ a + k := by
    intro r hr
    have hmem := List.mem_map_of_mem (f := (·.version)) hr
    rw [List.map_take, hversions, List.take_range'_of_length_ge (by omega), List.mem_range'_1] at hmem
    omega
  have hdrop : ∀ r ∈ (changesBetween db a U).drop k, a + k < r.version := by
    intro r hr
    have hmem := List.mem_map_of_mem (f := (·.version)) hr
    rw [List.map_drop, hversions, List.drop_range', List.mem_range'_1] at hmem
    omega
  refine rows_ext (h.changesBetween_nodup _ U) (hnodup.sublist ((List.drop_sublist k _).map _))
    (changesBetween_pairwise db _ U) ((changesBetween_pairwise db a U).sublist
    (List.drop_sublist k _)) fun r => ?_
  rw [mem_changesBetween]
  constructor
  · rintro ⟨hr, hlow, hhigh⟩
    have hmem : r ∈ changesBetween db a U := mem_changesBetween.2 ⟨hr, by omega, hhigh⟩
    rw [← List.take_append_drop k (changesBetween db a U), List.mem_append] at hmem
    exact hmem.resolve_left fun hr => absurd (htake r hr) (by omega)
  · intro hr
    obtain ⟨hmem, _, hhigh⟩ := mem_changesBetween.1 (List.mem_of_mem_drop hr)
    have := hdrop r hr
    exact ⟨hmem, by omega, hhigh⟩

end Range

/-! ## One page -/

section Page

variable (size : FeedEvent → ℕ)

/-- The loop takes the first rows, and says whether it left any. Of a first row it takes at least
that one. -/
theorem collectRecords_eq (limit : ℕ) : ∀ (rows : List ChangeRow) (records bytes : ℕ),
    records ≤ limit → ∃ k, k ≤ rows.length ∧ records + k ≤ limit
      ∧ (records = 0 → 0 < limit → rows ≠ [] → 0 < k)
      ∧ collectRecords size limit records bytes rows = (rows.take k, decide (k < rows.length))
  | [], records, bytes, h => ⟨0, le_rfl, h, by simp, rfl⟩
  | row :: rows, records, bytes, h => by
    rw [collectRecords]
    split_ifs with hfull
    · refine ⟨0, Nat.zero_le _, h, fun hzero hlimit _ => ?_, by simp⟩
      omega
    · obtain ⟨k, hk, hlimit, -, hrest⟩ := collectRecords_eq limit rows (records + 1)
        (bytes + size row.event) (by omega)
      refine ⟨k + 1, by simpa using hk, by omega, fun _ _ _ => Nat.succ_pos k, ?_⟩
      rw [hrest]
      simp

theorem readChangeRecords_eq (db : DB) (a U : ℤ) {limit : ℕ} (hlimit : 0 < limit) :
    ∃ k, k ≤ (changesBetween db a U).length ∧ (changesBetween db a U ≠ [] → 0 < k)
      ∧ readChangeRecords size db a U limit
        = ((changesBetween db a U).take k, decide (k < (changesBetween db a U).length)) := by
  obtain ⟨k, hk, hle, hpos, heq⟩ := collectRecords_eq size limit
    ((changesBetween db a U).take (limit + 1)) 0 0 (Nat.zero_le _)
  rw [List.length_take] at hk heq
  refine ⟨k, by omega, fun hne => hpos rfl hlimit ?_, ?_⟩
  · rw [ne_eq, List.take_eq_nil_iff]
    simpa using hne
  · rw [readChangeRecords, heq, List.take_take, min_eq_left (by omega)]
    congr 1
    rw [decide_eq_decide]
    omega

theorem changedSinceLimit_pos (requested : ℤ) : 0 < changedSinceLimit requested := by
  unfold changedSinceLimit defaultChangedSinceLimit maxChangedSinceLimit
  split_ifs with hlow hhigh
  · decide
  · decide
  · omega

/-- A cursor that a page ends with starts the next one after its last event. -/
theorem changedSinceBounds_encode {v U s snapshot : ℤ} {cursor : String} (hU : U < 2 ^ 63)
    (h : encodeVersionCursor v U s = .ok cursor) (hle : U ≤ snapshot) :
    changedSinceBounds snapshot s (some cursor) = .ok (v, U) := by
  simp [changedSinceBounds, parseVersionQueryCursor, trimSpace_cursor h,
    decodeVersionCursor_encode hU h, not_lt.2 hle]

/-- A page begins after a version at or above the floor. It holds the next events up to the bound,
some if there are any, and says whether it left any; its cursor goes on after the last one. -/
theorem page {db : DB} (hdb : Contiguous db) {since limit : ℤ} {cursor : Option String} {a U : ℕ}
    (hmin : db.changeClock.minRetainedVersion ≤ since) (hsince : since ≤ a) (haU : a ≤ U)
    (hU : U ≤ db.changeClock.version) (hbound : U < 2 ^ 63)
    (hstart : changedSinceBounds db.changeClock.version since cursor = .ok ((a : ℤ), (U : ℤ))) :
    ∃ k next, a + k ≤ U ∧ (a < U → 0 < k)
      ∧ getDataChangedSince size db since limit cursor
        = .ok ⟨((changesBetween db a U).take k).map (·.event), U, decide (a + k < U), next⟩
      ∧ (a + k < U → encodeVersionCursor ((a + k : ℕ) : ℤ) U since = .ok next) := by
  have hversions := hdb.changesBetween_versions (a := a) (by omega) hU
  have hlength : (changesBetween db a U).length = U - a := by
    simpa using congrArg List.length hversions
  obtain ⟨k, hk, hpos, hread⟩ := readChangeRecords_eq size db a U (changedSinceLimit_pos limit)
  rw [hlength] at hk hread
  have hmore : decide (k < U - a) = decide (a + k < U) := by
    rw [decide_eq_decide]
    omega
  have hne : a < U → 0 < k := by
    intro hlt
    refine hpos fun hnil => ?_
    rw [hnil, List.length_nil] at hlength
    omega
  have hevents : (((changesBetween db a U).take k).map (·.event)).map (·.version)
      = List.range' (a + 1) k := by
    rw [← List.take_range'_of_length_ge (n := U - a) hk, ← hversions, ← List.map_take, List.map_map]
    refine List.map_congr_left fun r hr => ?_
    exact hdb.row_version r (mem_changesBetween.1 (List.mem_of_mem_take hr)).1
  have hlast : 0 < k → (((((changesBetween db a U).take k).map (·.event)).getLast?.map
      fun e => (e.version : ℤ)).getD 0) = ((a + k : ℕ) : ℤ) := by
    intro hk
    have hversion := congrArg List.getLast? hevents
    rw [List.getLast?_map, List.getLast?_range', if_neg (by omega)] at hversion
    rcases he : (((changesBetween db a U).take k).map (·.event)).getLast? with _ | e
    · rw [he] at hversion
      cases hversion
    · rw [he, Option.map_some, Option.some.injEq] at hversion
      rw [he, Option.map_some, Option.getD_some, hversion]
      omega
  have hnewer : ¬(db.changeClock.version : ℤ) < since := by omega
  rw [getDataChangedSince]
  simp only [if_neg (not_lt.2 hmin), if_neg hnewer, hstart, hread, hmore]
  by_cases hlt : a + k < U
  · obtain ⟨next, hnext⟩ : ∃ next, encodeVersionCursor ((a + k : ℕ) : ℤ) U since = .ok next := by
      have := hne (by omega)
      exact ⟨_, encodeVersionCursor_ok.2 ⟨⟨by omega, by omega, by omega, by omega, by omega⟩, rfl⟩⟩
    refine ⟨k, next, by omega, hne, ?_, fun _ => hnext⟩
    rw [if_pos (by simpa using hlt), hlast (hne (by omega)), hnext]
  · refine ⟨k, "", by omega, hne, ?_, fun h => absurd h hlt⟩
    rw [if_neg (by simpa using hlt)]

end Page

/-! ## All pages -/

section Pages

/-- How reading the pages stands: the last one said that there are no more, it said that there are
more, or a page was refused. -/
inductive Ending
  | complete
  | partway
  | refused (e : ChangedSinceError)

variable (size : FeedEvent → ℕ) (since limit : ℤ)

/-- The pages that a client reads from a state on, each from the cursor of the one before, while
the log changes between them. -/
inductive Pages : DB → Option String → List ChangedSinceResult → Ending → Prop
  | last {db : DB} {cursor : Option String} {r : ChangedSinceResult}
      (h : getDataChangedSince size db since limit cursor = .ok r) (hlast : r.hasMore = false) :
      Pages db cursor [r] .complete
  | refused {db : DB} {cursor : Option String} {e : ChangedSinceError}
      (h : getDataChangedSince size db since limit cursor = .error e) :
      Pages db cursor [] (.refused e)
  | partway {db : DB} {cursor : Option String} {r : ChangedSinceResult}
      (h : getDataChangedSince size db since limit cursor = .ok r) (hmore : r.hasMore = true) :
      Pages db cursor [r] .partway
  | more {db db' : DB} {cursor : Option String} {r : ChangedSinceResult}
      {rest : List ChangedSinceResult} {ending : Ending}
      (h : getDataChangedSince size db since limit cursor = .ok r) (hmore : r.hasMore = true)
      (hchanges : Relation.ReflTransGen LogChange db db')
      (hrest : Pages db' (some r.nextCursor) rest ending) : Pages db cursor (r :: rest) ending

/-- What pages from a version on are, of the events up to the bound: the first ones of them, all if
the pages are complete. -/
structure Reads (db : DB) (a U : ℕ) (pages : List ChangedSinceResult) (ending : Ending) : Prop where
  version : ∀ r ∈ pages, r.version = U
  nonempty : ∀ r ∈ pages, r.hasMore = true → r.events ≠ []
  events : ∃ n, pages.flatMap (·.events) = ((changesBetween db a U).take n).map (·.event)
    ∧ (ending = .complete → U - a ≤ n)
  expired : ∀ e, ending = .refused e → ∃ v, e = .cursorExpired v
  count : pages.length ≤ max 1 (U - a)

variable {size since limit}

variable (since) in
/-- Where a page starts that a client asks for. -/
structure Starts (db : DB) (cursor : Option String) (a U : ℕ) : Prop where
  contiguous : Contiguous db
  since_le : since ≤ a
  le : a ≤ U
  bound_le : U ≤ db.changeClock.version
  bound : U < 2 ^ 63
  bounds : changedSinceBounds db.changeClock.version since cursor = .ok ((a : ℤ), (U : ℤ))

theorem getDataChangedSince_expired {db : DB} {cursor : Option String}
    (h : since < db.changeClock.minRetainedVersion) :
    getDataChangedSince size db since limit cursor
      = .error (.cursorExpired db.changeClock.minRetainedVersion) := by
  rw [getDataChangedSince]
  exact if_pos h

section Start

variable {db : DB} {cursor : Option String} {a U : ℕ} (hstart : Starts since db cursor a U)
include hstart

theorem page_error {e : ChangedSinceError}
    (h : getDataChangedSince size db since limit cursor = .error e) :
    ∃ v, e = .cursorExpired v := by
  by_cases hmin : since < db.changeClock.minRetainedVersion
  · rw [getDataChangedSince_expired hmin] at h
    exact ⟨_, (Except.error.inj h).symm⟩
  · obtain ⟨k, next, -, -, heq, -⟩ := page size hstart.contiguous (not_lt.1 hmin) hstart.since_le
      hstart.le hstart.bound_le hstart.bound hstart.bounds
    rw [heq] at h
    cases h

theorem page_ok {r : ChangedSinceResult}
    (h : getDataChangedSince size db since limit cursor = .ok r) :
    db.changeClock.minRetainedVersion ≤ since ∧ ∃ k, a + k ≤ U ∧ (r.hasMore = true ↔ a + k < U)
      ∧ (r.hasMore = true → 0 < k ∧ r.events ≠ []) ∧ r.version = U
      ∧ r.events = ((changesBetween db a U).take k).map (·.event)
      ∧ (r.hasMore = true → encodeVersionCursor ((a + k : ℕ) : ℤ) U since = .ok r.nextCursor) := by
  by_cases hmin : since < db.changeClock.minRetainedVersion
  · rw [getDataChangedSince_expired hmin] at h
    cases h
  · refine ⟨not_lt.1 hmin, ?_⟩
    obtain ⟨k, next, hk, hpos, heq, hnext⟩ := page size hstart.contiguous (not_lt.1 hmin)
      hstart.since_le hstart.le hstart.bound_le hstart.bound hstart.bounds
    rw [heq] at h
    obtain rfl := Except.ok.inj h
    have hmore : decide (a + k < U) = true ↔ a + k < U := decide_eq_true_iff
    refine ⟨k, hk, hmore, fun h => ?_, rfl, rfl, fun h => hnext (hmore.1 h)⟩
    have hlt := hmore.1 h
    have hk := hpos (by omega)
    have hsince := hstart.since_le
    have hlength := congrArg List.length
      (hstart.contiguous.changesBetween_versions (a := a) (by omega) hstart.bound_le)
    rw [List.length_map, List.length_range'] at hlength
    refine ⟨hk, fun hnil => ?_⟩
    rw [List.map_eq_nil_iff, List.take_eq_nil_iff] at hnil
    rcases hnil with rfl | hnil
    · omega
    · rw [hnil, List.length_nil] at hlength
      omega

/-- The page after one that left some events starts where that one ended. -/
theorem Starts.next {db' : DB} (hchanges : Continues db db') {k : ℕ} {next : String} (hk : a + k ≤ U)
    (hnext : encodeVersionCursor ((a + k : ℕ) : ℤ) U since = .ok next) :
    Starts since db' (some next) (a + k) U :=
  have hle := hstart.bound_le.trans hchanges.version_le
  ⟨hchanges.contiguous, hstart.since_le.trans (by omega), hk, hle, hstart.bound,
    changedSinceBounds_encode (by exact_mod_cast hstart.bound) hnext (by exact_mod_cast hle)⟩

end Start

theorem Pages.expired {db : DB} {cursor : Option String} {pages : List ChangedSinceResult}
    {ending : Ending} (h : Pages size since limit db cursor pages ending)
    (hmin : since < db.changeClock.minRetainedVersion) :
    pages = [] ∧ ending ≠ .complete := by
  cases h with
  | refused h => exact ⟨rfl, by simp⟩
  | last h _ | partway h _ | more h _ _ _ =>
    rw [getDataChangedSince_expired hmin] at h
    cases h

theorem Pages.reads {db : DB} {cursor : Option String} {pages : List ChangedSinceResult}
    {ending : Ending} (h : Pages size since limit db cursor pages ending) :
    ∀ {a U : ℕ}, Starts since db cursor a U → Reads db a U pages ending := by
  induction h with
  | last h hlast =>
    intro a U hstart
    obtain ⟨hmin, k, hk, hmore, -, hversion, hevents, -⟩ := page_ok hstart h
    have hend : ¬a + k < U := fun hlt => by simp [hmore.2 hlt] at hlast
    exact ⟨by simp [hversion], by simp [hlast], ⟨k, by simp [hevents], fun _ => by omega⟩, by simp,
      by simp⟩
  | refused h =>
    intro a U hstart
    obtain ⟨v, rfl⟩ := page_error hstart h
    exact ⟨by simp, by simp, ⟨0, by simp, by simp⟩, fun e he => ⟨v, by cases he; rfl⟩, by simp⟩
  | partway h hmore =>
    intro a U hstart
    obtain ⟨hmin, k, hk, -, hpos, hversion, hevents, -⟩ := page_ok hstart h
    exact ⟨by simp [hversion], by simp [(hpos hmore).2], ⟨k, by simp [hevents], by simp⟩, by simp,
      by simp⟩
  | @more db db' cursor r rest ending h hmore hchanges hrest ih =>
    intro a U hstart
    obtain ⟨hmin, k, hk, hmore', hpos, hversion, hevents, hnext⟩ := page_ok hstart h
    have hcontinues := continues_of_changes hstart.contiguous hchanges
    have hreads := ih (hstart.next hcontinues hk (hnext hmore))
    have hlt := hmore'.1 hmore
    have hk' := (hpos hmore).1
    have hcount := hreads.count
    refine ⟨List.forall_mem_cons.2 ⟨hversion, hreads.version⟩,
      List.forall_mem_cons.2 ⟨fun _ => (hpos hmore).2, hreads.nonempty⟩, ?_, hreads.expired, ?_⟩
    · by_cases hfloor : since < db'.changeClock.minRetainedVersion
      · obtain ⟨rfl, hne⟩ := hrest.expired hfloor
        exact ⟨k, by simp [hevents], fun hcomplete => absurd hcomplete hne⟩
      · obtain ⟨n, hflat, hn⟩ := hreads.events
        have hsince := hstart.since_le
        rw [hcontinues.changesBetween hstart.contiguous (by omega) hstart.bound_le,
          hstart.contiguous.changesBetween_drop (by omega) hstart.bound_le hk] at hflat
        refine ⟨k + n, ?_, fun hcomplete => by have := hn hcomplete; omega⟩
        rw [List.flatMap_cons, hevents, hflat, ← List.map_append, ← List.take_add]
    · rw [List.length_cons]
      omega

/-- Pages read from the first one on, of a log that holds every version above its floor, by a
client that knows a version no newer than the log. All name the version of the log at the first
page; one that is not the last has events; there are no more of them than versions to read, or one.
They are refused only as expired; complete, they hold the versions after the one the client knew,
each once and in order, up to the version they name. A cursor is read back as it was written, and
none is read that could not be written. -/
theorem changed_since_complete :
    (∀ {db : DB} {pages : List ChangedSinceResult} {ending : Ending}, Contiguous db →
      db.changeClock.version < 2 ^ 63 → since ≤ db.changeClock.version →
      Pages size since limit db none pages ending →
        (∀ r ∈ pages, r.version = db.changeClock.version)
        ∧ (∀ r ∈ pages, r.hasMore = true → r.events ≠ [])
        ∧ pages.length ≤ max 1 (db.changeClock.version - since)
        ∧ (∀ e, ending = .refused e → ∃ v, e = .cursorExpired v)
        ∧ (ending = .complete → 0 ≤ since
          ∧ (pages.flatMap (·.events)).map (·.version)
            = List.range' (since.toNat + 1) (db.changeClock.version - since.toNat)
          ∧ ∀ e ∈ pages.flatMap (·.events), ∃ r ∈ db.changeEvents, r.event = e))
    ∧ (∀ v u s cursor, u < 2 ^ 63 → encodeVersionCursor v u s = .ok cursor →
      decodeVersionCursor cursor = .ok (v, u, s))
    ∧ ∀ v u s cursor, decodeVersionCursor cursor = .ok (v, u, s) →
      ∃ cursor', encodeVersionCursor v u s = .ok cursor' := by
  refine ⟨fun {db pages ending} hdb hbound hsince h => ?_,
    fun v u s cursor hu h => decodeVersionCursor_encode hu h,
    fun v u s cursor h => ⟨_, encodeVersionCursor_ok.2 ⟨decodeVersionCursor_valid h, rfl⟩⟩⟩
  by_cases hmin : since < db.changeClock.minRetainedVersion
  · obtain ⟨rfl, hne⟩ := h.expired hmin
    refine ⟨by simp, by simp, by simp, fun e he => ?_, fun hcomplete => absurd hcomplete hne⟩
    subst he
    cases h with
    | refused h =>
      rw [getDataChangedSince_expired hmin] at h
      exact ⟨_, (Except.error.inj h).symm⟩
  · have hstart : Starts since db none since.toNat db.changeClock.version :=
      ⟨hdb, by omega, by omega, le_rfl, hbound, by rw [changedSinceBounds, Int.toNat_of_nonneg]; omega⟩
    have hreads := h.reads hstart
    refine ⟨hreads.version, hreads.nonempty, ?_, hreads.expired, fun hcomplete => ?_⟩
    · have := hreads.count
      omega
    · obtain ⟨n, hflat, hn⟩ := hreads.events
      have hversions := hdb.changesBetween_versions (a := since.toNat) (by omega) le_rfl
      have hlength := congrArg List.length hversions
      rw [List.length_map, List.length_range'] at hlength
      rw [List.take_of_length_le (by rw [hlength]; exact hn hcomplete)] at hflat
      refine ⟨by omega, ?_, fun e he => ?_⟩
      · rw [hflat, ← hversions, List.map_map]
        exact List.map_congr_left fun r hr => hdb.row_version r (mem_changesBetween.1 hr).1
      · rw [hflat] at he
        obtain ⟨r, hr, rfl⟩ := List.mem_map.1 he
        exact ⟨r, (mem_changesBetween.1 hr).1, rfl⟩

end Pages

theorem contiguous_empty : Contiguous DB.empty :=
  logInv_empty.contiguous

theorem changed_since_complete_oneAsset :
    ∃ pages, Pages (fun _ => 0) 0 1 oneAsset.db none pages .complete
      ∧ (pages.flatMap (·.events)).map (·.version) = [1] := by
  have hdb : Contiguous oneAsset.db := (reachable_log plainEnv (.tail _ (.refl _))).contiguous
  have hclock : oneAsset.db.changeClock = ⟨1, 0⟩ := by decide +kernel
  have hpages : Pages (fun _ => 0) 0 1 oneAsset.db none
      [⟨oneAsset.db.changeEvents.map (·.event), 1, false, ""⟩] .complete :=
    .last (by decide +kernel) rfl
  obtain ⟨-, -, -, -, h⟩ := changed_since_complete.1 hdb (by rw [hclock]; decide)
    (by rw [hclock]; decide) hpages
  refine ⟨_, hpages, (h rfl).2.1.trans ?_⟩
  rw [hclock]
  rfl

/-- Nothing to read takes one page, and a version that the log has not reached is refused as
invalid. -/
theorem changed_since_newer :
    Contiguous DB.empty
    ∧ (∃ pages, Pages (fun _ => 0) 0 1 DB.empty none pages .complete
      ∧ ¬(pages.length : ℤ) ≤ DB.empty.changeClock.version - 0)
    ∧ ∃ e, Pages (fun _ => 0) 1 1 DB.empty none [] (.refused e) ∧ ∀ v, e ≠ .cursorExpired v := by
  refine ⟨contiguous_empty, ⟨[⟨[], 0, false, ""⟩],
    .last (by decide +kernel) rfl, by decide⟩, ?_⟩
  exact ⟨_, .refused rfl, fun v h => by cases h⟩

end Atlas.Core
