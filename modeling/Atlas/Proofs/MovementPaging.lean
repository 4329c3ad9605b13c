import Atlas.Core.MovementReads
import Atlas.Proofs.MovementImport

/-!
# Reading a history in pages

What is written between two pages gets sequence numbers above all that there were, and what is
pruned has expired (`MovementWrites.later`). So of the reports that the first page saw, a page holds
the last ones before its cursor that are retained (`movementHistory_page`), and the pages follow
each other from the last report back (`MovementPages.reads`).
-/

namespace Atlas.Core

/-! ## What happens between pages -/

section Writes

/-- What the definition of the table promises. -/
structure Stored (db : MovementDB) : Prop where
  numbered : ∀ r ∈ db.samples, 1 ≤ r.sequence ∧ r.sequence < db.nextSequence
  nodup : (db.samples.map (·.sequence)).Nodup
  stamped : ∀ r ∈ db.samples, r.sampleTime % microsecond = 0
  next : 1 ≤ db.nextSequence

/-- The table at the time `now`, some time after it was `db`. -/
structure Later (now : ℤ) (db db' : MovementDB) : Prop where
  stored : Stored db'
  entities : db'.entities = db.entities
  next : db.nextSequence ≤ db'.nextSequence
  old : ∀ r ∈ db'.samples, r.sequence < db.nextSequence → r ∈ db.samples
  kept : ∀ r ∈ db.samples, r ∈ db'.samples ∨ r.sampleTime < now - movementRetention

theorem Later.refl {now : ℤ} {db : MovementDB} (h : Stored db) : Later now db db :=
  ⟨h, rfl, le_rfl, fun _ hr _ => hr, fun _ hr => .inl hr⟩

theorem Later.trans {now now' : ℤ} {db db' db'' : MovementDB} (h : Later now db db')
    (hnow : now ≤ now') (h' : Later now' db' db'') : Later now' db db'' := by
  refine ⟨h'.stored, h'.entities.trans h.entities, h.next.trans h'.next, fun r hr hlt => ?_,
    fun r hr => ?_⟩
  · exact h.old r (h'.old r hr (hlt.trans_le h.next)) hlt
  · rcases h.kept r hr with hr | hexpired
    · exact h'.kept r hr
    · exact .inr (by omega)

theorem Stored.eq_of_sequence {db : MovementDB} (h : Stored db) {r r' : MovementRow}
    (hr : r ∈ db.samples) (hr' : r' ∈ db.samples) (heq : r.sequence = r'.sequence) : r = r' :=
  List.inj_on_of_nodup_map h.nodup hr hr' heq

theorem insert_later (now : ℤ) {db : MovementDB} (entity : MovementEntity) (h : Stored db)
    {received : ℤ} {s : String × MovementReport}
    (hstamp : reportTime received s % microsecond = 0) :
    Later now db (db.insert entity s.1 received s.2) := by
  obtain ⟨hnext, hentities, hnew, hold⟩ :=
    insert_cases entity received db s
  by_cases his : IsNew db entity s
  · have hsamples := hnew his
    refine ⟨⟨?_, ?_, ?_, by omega⟩, hentities, by omega, ?_, ?_⟩
    · rw [hsamples, List.forall_mem_append, List.forall_mem_singleton, hnext]
      exact ⟨fun r hr => ⟨(h.numbered r hr).1, Nat.lt_succ_of_lt (h.numbered r hr).2⟩, h.next,
        Nat.lt_succ_self _⟩
    · rw [hsamples, List.map_append, List.nodup_append]
      refine ⟨h.nodup, List.nodup_singleton _, fun n hn m hm => ?_⟩
      obtain ⟨r, hr, rfl⟩ := List.mem_map.1 hn
      obtain rfl : m = db.nextSequence := by simpa [reportRow] using hm
      exact (h.numbered r hr).2.ne
    · rw [hsamples, List.forall_mem_append, List.forall_mem_singleton]
      exact ⟨h.stamped, hstamp⟩
    · rw [hsamples, List.forall_mem_append, List.forall_mem_singleton]
      exact ⟨fun r hr _ => hr, fun hlt => absurd hlt (lt_irrefl _)⟩
    · intro r hr
      rw [hsamples]
      exact .inl (List.mem_append_left _ hr)
  · have hsamples := hold his
    refine ⟨⟨?_, ?_, ?_, by omega⟩, hentities, by omega, ?_, ?_⟩ <;> rw [hsamples]
    · intro r hr
      rw [hnext]
      exact ⟨(h.numbered r hr).1, Nat.lt_succ_of_lt (h.numbered r hr).2⟩
    · exact h.nodup
    · exact h.stamped
    · exact fun r hr _ => hr
    · exact fun r hr => .inl hr

theorem insertAll_later {now : ℤ} {entity : MovementEntity} {received : ℤ} :
    ∀ {reports : List (String × MovementReport)} {db : MovementDB}, Stored db →
      (∀ s ∈ reports, reportTime received s % microsecond = 0) →
        Later now db (insertAll entity received db reports)
  | [], _, h, _ => Later.refl h
  | _ :: _, _, h, hstamp => by
    obtain ⟨hs, hstamp⟩ := List.forall_mem_cons.1 hstamp
    have hfirst := insert_later now entity h hs
    exact hfirst.trans le_rfl (insertAll_later hfirst.stored hstamp)

theorem truncateMicrosecond_stamped (t : ℤ) : truncateMicrosecond t % microsecond = 0 := by
  unfold truncateMicrosecond microsecond
  omega

/-- An observation time is kept in microseconds. -/
theorem validateMovement_stamped {input : MovementSampleInput} {received : ℤ}
    {observed : Option ℤ} {time : ℤ} (h : validateMovement input received = .ok (observed, time))
    (hreceived : received % microsecond = 0) : observed.getD received % microsecond = 0 := by
  unfold validateMovement at h
  split_ifs at h
  split at h
  · cases h
    exact hreceived
  · split at h
    · cases h
    · split_ifs at h
      cases h
      exact truncateMicrosecond_stamped _

theorem importMovement_later
    {arrange : List (String × MovementReport) → List (String × MovementReport)}
    (harrange : ∀ l, (arrange l).Perm l) {now : ℤ} {db db' : MovementDB} {id : String}
    {request : MovementHistoryBatchRequest} {received : ℤ} {out : MovementHistoryBatchResponse}
    (hdb : Stored db) (h : importMovement arrange now db id request received = .ok (out, db')) :
    Later now db db' := by
  obtain ⟨entity, _, rfl, _⟩ := importMovement_ok_iff.1 h
  refine insertAll_later hdb fun s hs => ?_
  have hs := List.mem_dedup.1 (List.mem_of_mem_filter ((harrange _).subset hs))
  obtain ⟨p, hp, rfl⟩ := List.mem_map.1 hs
  obtain ⟨s₀, _, hprepare⟩ := mem_preparedSamples.1 hp
  unfold prepareMovement at hprepare
  rcases hvalid : validateMovement s₀ (truncateMicrosecond received) with e | ⟨observed, time⟩
  · rw [hvalid] at hprepare
    cases hprepare
  · rw [hvalid] at hprepare
    cases hprepare
    exact validateMovement_stamped hvalid (truncateMicrosecond_stamped _)

theorem insertMovement_later {now : ℤ} {db db' : MovementDB} {entity : MovementEntity}
    {input : MovementSampleInput} {received : ℤ} (hdb : Stored db)
    (hreceived : received % microsecond = 0)
    (h : insertMovement db entity input received = .ok db') : Later now db db' := by
  unfold insertMovement at h
  split at h
  · cases h
  · rename_i observed time hvalid
    have hlater : Later now db (db.insert entity input.sampleID received (input.report observed)) :=
      insert_later (s := (input.sampleID, input.report observed)) now entity hdb
        (validateMovement_stamped hvalid hreceived)
    split at h
    · split_ifs at h
      cases h
      exact hlater
    · cases h
      exact hlater

theorem captureMovement_later {now : ℤ} {sampleID : String} {db db' : MovementDB}
    {entity : MovementEntity} {telemetry : Option MovementSampleInput} {observed : Option String}
    {received : ℤ} (hdb : Stored db)
    (h : captureMovement now sampleID db entity telemetry observed received = .ok db') :
    Later now db db' := by
  unfold captureMovement at h
  split_ifs at h
  · cases h
    exact .refl hdb
  · split at h
    · cases h
      exact .refl hdb
    · simp only at h
      split_ifs at h <;> try (cases h; exact .refl hdb)
      all_goals
        split at h
        · cases h
        · split_ifs at h
          · cases h
            exact .refl hdb
          · exact insertMovement_later hdb (truncateMicrosecond_stamped _) h

theorem pruneMovement_later {now : ℤ} {db : MovementDB} (hdb : Stored db) :
    Later now db (pruneMovement now db) := by
  have hsub : ∀ r ∈ (pruneMovement now db).samples, r ∈ db.samples :=
    fun r hr => List.mem_of_mem_filter hr
  refine ⟨⟨fun r hr => hdb.numbered r (hsub r hr), ?_, fun r hr => hdb.stamped r (hsub r hr),
    hdb.next⟩, rfl, le_rfl, fun r hr _ => hsub r hr, fun r hr => ?_⟩
  · exact hdb.nodup.sublist (List.filter_sublist.map _)
  · by_cases hkept : r ∈ (pruneMovement now db).samples
    · exact .inl hkept
    · right
      unfold pruneMovement at hkept
      simp only [List.mem_filter, hr, true_and, decide_not, Bool.not_eq_true',
        decide_eq_false_iff_not, not_not, List.mem_map] at hkept
      obtain ⟨r', hr', heq⟩ := hkept
      obtain ⟨hr', hexpired⟩ :=
        List.mem_filter.1 (List.mem_mergeSort.1 (List.mem_of_mem_take hr'))
      obtain rfl := hdb.eq_of_sequence hr' hr heq
      have hcut : truncateMicrosecond (now - movementRetention) ≤ now - movementRetention := by
        unfold truncateMicrosecond microsecond
        omega
      exact lt_of_lt_of_le (by simpa using hexpired) hcut

inductive MovementWrite (now : ℤ) (db : MovementDB) : MovementDB → Prop
  | imported {arrange : List (String × MovementReport) → List (String × MovementReport)}
      (harrange : ∀ l, (arrange l).Perm l) {id : String} {request : MovementHistoryBatchRequest}
      {received : ℤ} {out : MovementHistoryBatchResponse} {db' : MovementDB}
      (h : importMovement arrange now db id request received = .ok (out, db')) :
      MovementWrite now db db'
  | captured {sampleID : String} {entity : MovementEntity}
      {telemetry : Option MovementSampleInput} {observed : Option String} {received : ℤ}
      {db' : MovementDB}
      (h : captureMovement now sampleID db entity telemetry observed received = .ok db') :
      MovementWrite now db db'
  | pruned : MovementWrite now db (pruneMovement now db)

/-- Any number of writes, while the clock goes on. -/
inductive MovementWrites : ℤ → MovementDB → ℤ → MovementDB → Prop
  | none {now now' : ℤ} {db : MovementDB} (hnow : now ≤ now') : MovementWrites now db now' db
  | write {now t now' : ℤ} {db db' db'' : MovementDB} (hnow : now ≤ t) (h : MovementWrite t db db')
      (rest : MovementWrites t db' now' db'') : MovementWrites now db now' db''

theorem MovementWrite.later {now : ℤ} {db db' : MovementDB} (hdb : Stored db)
    (h : MovementWrite now db db') : Later now db db' := by
  cases h with
  | imported harrange h => exact importMovement_later harrange hdb h
  | captured h => exact captureMovement_later hdb h
  | pruned => exact pruneMovement_later hdb

theorem MovementWrites.later {now now' : ℤ} {db db' : MovementDB} (hdb : Stored db)
    (h : MovementWrites now db now' db') : now ≤ now' ∧ Later now' db db' := by
  induction h with
  | none hnow => exact ⟨hnow, .refl hdb⟩
  | write hnow h _ ih =>
    have hfirst := h.later hdb
    obtain ⟨hle, hrest⟩ := ih hfirst.stored
    exact ⟨hnow.trans hle, hfirst.trans hle hrest⟩

end Writes

/-! ## A page -/

section Page

/-- `r` comes before `s` in a history. -/
def Newer (r s : MovementRow) : Prop :=
  s.sampleTime < r.sampleTime ∨ s.sampleTime = r.sampleTime ∧ s.sequence < r.sequence

theorem Newer.trans {r s t : MovementRow} (h : Newer r s) (h' : Newer s t) : Newer r t := by
  unfold Newer at *
  omega

theorem Newer.irrefl {r s : MovementRow} (h : Newer r s) : ¬Newer s r := by
  unfold Newer at *
  omega

/-- The cursor after a row. -/
def advance (c : MovementCursor) (r : MovementRow) : MovementCursor :=
  { c with afterTime := r.sampleTime, afterSequence := r.sequence }

theorem foldl_advance : ∀ (rows : List MovementRow) (c : MovementCursor) (h : rows ≠ []),
    rows.foldl advance c = advance c (rows.getLast h)
  | [_], _, _ => rfl
  | r :: s :: rows, c, _ => foldl_advance (s :: rows) (advance c r) (List.cons_ne_nil _ _)

theorem collectMovement_eq : ∀ (limit : ℕ) (rows : List MovementRow) (c : MovementCursor),
    collectMovement c limit rows = (rows.take limit,
      if rows.length ≤ limit then none else some ((rows.take limit).foldl advance c))
  | _, [], c => by simp [collectMovement]
  | 0, _ :: _, c => by simp [collectMovement]
  | limit + 1, r :: rows, c => by
    have ih := collectMovement_eq limit rows (advance c r)
    simp only [advance] at ih
    simp only [collectMovement, ih, List.take_succ_cons, List.length_cons,
      Nat.add_le_add_iff_right, List.foldl_cons]
    rfl

/-- The reports of the record in the interval. -/
def InRange (id : String) (q : MovementQuery) (r : MovementRow) : Prop :=
  r.entityID = id ∧ r.entityCreatedAt = q.entityCreatedAt ∧ q.fromTime ≤ r.sampleTime
    ∧ r.sampleTime ≤ q.toTime

/-- Those that a page is taken from. -/
structure Readable (db : MovementDB) (id : String) (q : MovementQuery) (c : MovementCursor)
    (cutoff : ℤ) (r : MovementRow) : Prop where
  stored : r ∈ db.samples
  range : InRange id q r
  retained : cutoff ≤ r.sampleTime
  seen : r.sequence ≤ c.upper
  below : q.cursor = none ∨ r.sampleTime < c.afterTime
    ∨ r.sampleTime = c.afterTime ∧ (r.sequence : ℤ) < c.afterSequence

theorem movementLowerBound_le {v t : ℤ} (ht : t % microsecond = 0) :
    movementLowerBound v ≤ t ↔ v ≤ t := by
  simp only [movementLowerBound, truncateMicrosecond, microsecond] at *
  split_ifs <;> omega

theorem le_truncateMicrosecond {v t : ℤ} (ht : t % microsecond = 0) :
    t ≤ truncateMicrosecond v ↔ t ≤ v := by
  unfold truncateMicrosecond microsecond at *
  omega

theorem mem_movementWindow {db : MovementDB} (hdb : Stored db) {id : String} {q : MovementQuery}
    {cutoff : ℤ} {r : MovementRow} :
    r ∈ movementWindow db id q cutoff
      ↔ r ∈ db.samples ∧ InRange id q r ∧ cutoff ≤ r.sampleTime := by
  rw [movementWindow, List.mem_filter, decide_eq_true_eq]
  refine and_congr_right fun hr => ?_
  rw [movementLowerBound_le (hdb.stamped r hr), movementLowerBound_le (hdb.stamped r hr),
    le_truncateMicrosecond (hdb.stamped r hr), InRange]
  tauto

/-- The last rows before the cursor, and a cursor after them if there are more. -/
structure IsPage (db : MovementDB) (id : String) (q : MovementQuery) (c : MovementCursor)
    (cutoff : ℤ) (page : MovementHistoryPage) : Prop where
  sorted : page.samples.Pairwise Newer
  readable : ∀ r ∈ page.samples, Readable db id q c cutoff r
  highest : ∀ r, Readable db id q c cutoff r → r ∈ page.samples
    ∨ page.nextCursor ≠ none ∧ ∀ s ∈ page.samples, Newer s r
  next : ∀ c', page.nextCursor = some c' → ∃ r, page.samples.getLast? = some r ∧ c' = advance c r
  advanced : page.retentionAdvanced = true
    ↔ q.cursor ≠ none ∧ q.fromTime < cutoff ∧ c.retainedFrom < cutoff
  snapshot : page.snapshot = c.upper

theorem sorted_rows {db : MovementDB} (hdb : Stored db) {rows : List MovementRow}
    (hsub : rows.Sublist db.samples) : (rows.insertionSort NewestFirst).Pairwise Newer := by
  have hle := List.pairwise_insertionSort NewestFirst rows
  have hnodup : (rows.insertionSort NewestFirst).Pairwise fun r r' => r.sequence ≠ r'.sequence := by
    have h := hdb.nodup.sublist (hsub.map (·.sequence))
    exact List.pairwise_map.1 (((List.perm_insertionSort _ _).map _).nodup_iff.2 h)
  refine (hle.and hnodup).imp fun {r r'} h => ?_
  unfold NewestFirst OldestFirst at h
  unfold Newer
  omega

theorem getLast?_newer {rows : List MovementRow} (h : rows.Pairwise Newer) {r : MovementRow}
    (hr : rows.getLast? = some r) : ∀ s ∈ rows, s = r ∨ Newer s r := by
  intro s hs
  obtain ⟨init, rfl⟩ := List.getLast?_eq_some_iff.1 hr
  rcases List.mem_append.1 hs with hs | hs
  · exact .inr ((List.pairwise_append.1 h).2.2 s hs r (List.mem_singleton_self _))
  · exact .inl (List.mem_singleton.1 hs)

theorem movementHistory_page {now : ℤ} {db : MovementDB} (hdb : Stored db) {id : String}
    {q : MovementQuery} {page : MovementHistoryPage}
    (h : movementHistory now db id q = .ok page) :
    ∃ c, movementStart db (trimSpace id) q (now - movementRetention) = .ok c
      ∧ IsPage db (trimSpace id) q c (now - movementRetention) page := by
  unfold movementHistory at h
  simp only at h
  generalize (if q.limit = 0 then (100 : ℤ) else q.limit) = limit at h
  split at h
  case h_1 => cases h
  case h_2 =>
  split_ifs at h with hlimit
  split at h
  case h_1 => cases h
  case h_2 =>
  split at h
  case h_1 => cases h
  case h_2 c hstart =>
  refine ⟨c, hstart, ?_⟩
  obtain ⟨n, rfl⟩ : ∃ n : ℕ, limit = n + 1 := ⟨(limit - 1).toNat, by omega⟩
  have hn : ((n : ℤ) + 1).toNat = n + 1 := by omega
  rw [hn] at h
  set rows := (movementWindow db (trimSpace id) q (now - movementRetention)).filter fun r =>
    r.sequence ≤ c.upper ∧ (q.cursor = none ∨ r.sampleTime < c.afterTime
      ∨ r.sampleTime = c.afterTime ∧ (r.sequence : ℤ) < c.afterSequence)
  set sorted := rows.insertionSort NewestFirst with hsorted
  have hmem : ∀ r, r ∈ sorted
      ↔ Readable db (trimSpace id) q c (now - movementRetention) r := by
    intro r
    rw [hsorted, List.mem_insertionSort, List.mem_filter, mem_movementWindow hdb,
      decide_eq_true_eq]
    exact ⟨fun ⟨⟨hr, hrange, hret⟩, hseen, hbelow⟩ => ⟨hr, hrange, hret, hseen, hbelow⟩,
      fun hr => ⟨⟨hr.stored, hr.range, hr.retained⟩, hr.seen, hr.below⟩⟩
  have hpairwise : sorted.Pairwise Newer :=
    sorted_rows hdb (List.filter_sublist.trans List.filter_sublist)
  have htake : (sorted.take (n + 1 + 1)).take (n + 1) = sorted.take (n + 1) := by
    rw [List.take_take, Nat.min_eq_left (Nat.le_succ _)]
  have hlength : (sorted.take (n + 1 + 1)).length ≤ n + 1 ↔ sorted.length ≤ n + 1 := by
    rw [List.length_take]
    omega
  rw [collectMovement_eq, htake] at h
  simp only [hlength, Except.ok.injEq] at h
  subst h
  refine ⟨hpairwise.sublist (List.take_sublist _ _),
    fun r hr => (hmem r).1 (List.mem_of_mem_take hr), fun r hr => ?_, fun c' hc' => ?_,
    by simp, rfl⟩
  · rw [← hmem, ← List.take_append_drop (n + 1) sorted] at hr
    rw [← List.take_append_drop (n + 1) sorted] at hpairwise
    rcases List.mem_append.1 hr with hr | hr
    · exact .inl hr
    · refine .inr ⟨?_, fun s hs => (List.pairwise_append.1 hpairwise).2.2 s hs r hr⟩
      have := List.length_pos_of_mem hr
      rw [List.length_drop] at this
      rw [if_neg (by omega)]
      exact Option.some_ne_none _
  · split_ifs at hc' with hle
    have hne : sorted.take (n + 1) ≠ [] := by
      intro hnil
      have hzero := congrArg List.length hnil
      rw [List.length_take, List.length_nil] at hzero
      omega
    rw [foldl_advance _ c hne, Option.some.injEq] at hc'
    exact ⟨_, List.getLast?_eq_some_getLast hne, hc'.symm⟩

end Page

/-! ## Page after page -/

inductive PagesEnding
  | complete
  | refused (now : ℤ) (e : MovementError)
  | partway
  deriving DecidableEq, Repr

section Pages

variable (id : String) (q : MovementQuery)

/-- The pages that are read one after another, each with the time when it is read. -/
inductive MovementPages : ℤ → MovementDB → Option (Option MovementCursor) →
    List (ℤ × MovementHistoryPage) → PagesEnding → Prop
  | last {now : ℤ} {db : MovementDB} {cursor : Option (Option MovementCursor)} {limit : ℤ}
      {page : MovementHistoryPage} (hlimit : 1 ≤ limit ∧ limit ≤ 500)
      (h : movementHistory now db id { q with cursor, limit } = .ok page)
      (hlast : page.nextCursor = none) : MovementPages now db cursor [(now, page)] .complete
  | refused {now : ℤ} {db : MovementDB} {cursor : Option (Option MovementCursor)} {limit : ℤ}
      {e : MovementError} (hlimit : 1 ≤ limit ∧ limit ≤ 500)
      (h : movementHistory now db id { q with cursor, limit } = .error e) :
      MovementPages now db cursor [] (.refused now e)
  | partway {now : ℤ} {db : MovementDB} {cursor : Option (Option MovementCursor)} {limit : ℤ}
      {page : MovementHistoryPage} (hlimit : 1 ≤ limit ∧ limit ≤ 500)
      (h : movementHistory now db id { q with cursor, limit } = .ok page) :
      MovementPages now db cursor [(now, page)] .partway
  | more {now now' : ℤ} {db db' : MovementDB} {cursor : Option (Option MovementCursor)}
      {limit : ℤ} {page : MovementHistoryPage} {c : MovementCursor}
      {rest : List (ℤ × MovementHistoryPage)} {ending : PagesEnding}
      (hlimit : 1 ≤ limit ∧ limit ≤ 500)
      (h : movementHistory now db id { q with cursor, limit } = .ok page)
      (hnext : page.nextCursor = some c) (hwrites : MovementWrites now db now' db')
      (hrest : MovementPages now' db' (some (some c)) rest ending) :
      MovementPages now db cursor ((now, page) :: rest) ending

/-- The page is the one for `r`: those before it have only newer reports, and it has not, or is the
last one. -/
def Due (before : List (ℤ × MovementHistoryPage)) (p : ℤ × MovementHistoryPage)
    (r : MovementRow) : Prop :=
  (∀ b ∈ before, ∀ s ∈ b.2.samples, Newer s r)
    ∧ (p.2.nextCursor = none ∨ ∃ s ∈ p.2.samples, ¬Newer s r)

/-- The reports that the first page sees. -/
def Wanted (db₀ : MovementDB) (r : MovementRow) : Prop :=
  r ∈ db₀.samples ∧ InRange (trimSpace id) q r

/-- The pages, the first of which starts below some report, if not at the last one. -/
structure ReadsPages (now₀ : ℤ) (db₀ : MovementDB) (below : MovementRow → Prop)
    (pages : List (ℤ × MovementHistoryPage)) (ending : PagesEnding) : Prop where
  sorted : (pages.flatMap (·.2.samples)).Pairwise Newer
  mem : ∀ p ∈ pages, ∀ r ∈ p.2.samples,
    Wanted id q db₀ r ∧ below r ∧ p.1 - movementRetention ≤ r.sampleTime
  due : ∀ before p after, pages = before ++ p :: after → ∀ r, Wanted id q db₀ r → below r →
    Due before p r → p.1 - movementRetention ≤ r.sampleTime → r ∈ p.2.samples
  all : ending = .complete → ∀ r, Wanted id q db₀ r → below r →
    ∃ before p after, pages = before ++ p :: after ∧ Due before p r
  advanced : ∀ p ∈ pages, p.2.retentionAdvanced = true ↔ ∃ t, q.fromTime ≤ t ∧ t ≤ q.toTime
    ∧ now₀ - movementRetention ≤ t ∧ t < p.1 - movementRetention
  snapshot : ∀ p ∈ pages, p.2.snapshot = highestSequence db₀ (trimSpace id) q.entityCreatedAt
  live : ∀ before p after, pages = before ++ p :: after → ∀ b ∈ before, ∀ s ∈ b.2.samples,
    p.1 - movementRetention ≤ s.sampleTime
  count : pages.length ≤ (pages.flatMap (·.2.samples)).length + 1

/-- The cursor after the report `a`, some time after the first page. -/
structure FollowsCursor (now₀ : ℤ) (db₀ : MovementDB) (now : ℤ) (db : MovementDB) (c : MovementCursor)
    (a : MovementRow) : Prop where
  clock : now₀ ≤ now
  later : Later now db₀ db
  wanted : Wanted id q db₀ a
  retained : now₀ - movementRetention ≤ a.sampleTime
  cursor : c = ⟨trimSpace id, q.entityCreatedAt, q.fromTime, q.toTime, now₀ - movementRetention,
    highestSequence db₀ (trimSpace id) q.entityCreatedAt, a.sampleTime, a.sequence⟩

variable {id q} {now₀ : ℤ} {db₀ : MovementDB} {now : ℤ} {db : MovementDB} {limit : ℤ}
  {page : MovementHistoryPage}

theorem le_foldr_max {n : ℕ} : ∀ {l : List ℕ}, n ∈ l → n ≤ l.foldr max 0
  | m :: l, h => by
    rw [List.foldr_cons]
    rcases List.mem_cons.1 h with rfl | h
    · exact le_max_left _ _
    · exact (le_foldr_max h).trans (le_max_right _ _)

theorem foldr_max_lt {n : ℕ} (hn : 0 < n) : ∀ {l : List ℕ}, (∀ m ∈ l, m < n) → l.foldr max 0 < n
  | [], _ => hn
  | m :: l, h => by
    rw [List.foldr_cons]
    exact max_lt (h m List.mem_cons_self)
      (foldr_max_lt hn fun k hk => h k (List.mem_cons_of_mem _ hk))

theorem Wanted.le_highest {r : MovementRow} (h : Wanted id q db₀ r) :
    r.sequence ≤ highestSequence db₀ (trimSpace id) q.entityCreatedAt :=
  le_foldr_max (List.mem_map.2 ⟨r, List.mem_filter.2 ⟨h.1, by simp [h.2.1, h.2.2.1]⟩, rfl⟩)

theorem Stored.highest_lt (h : Stored db₀) (id : String) (created : ℤ) :
    highestSequence db₀ id created < db₀.nextSequence := by
  refine foldr_max_lt (Nat.lt_of_lt_of_le Nat.zero_lt_one h.next) fun n hn => ?_
  obtain ⟨r, hr, rfl⟩ := List.mem_map.1 hn
  exact (h.numbered r (List.mem_of_mem_filter hr)).2

/-- What a page is taken from are the reports that the first page saw and that are retained. -/
theorem readable_iff (hdb₀ : Stored db₀) (hlater : Later now db₀ db)
    {cursor : Option (Option MovementCursor)} {c : MovementCursor}
    (hupper : c.upper = highestSequence db₀ (trimSpace id) q.entityCreatedAt) (r : MovementRow) :
    Readable db (trimSpace id) { q with cursor, limit } c (now - movementRetention) r
      ↔ Wanted id q db₀ r ∧ now - movementRetention ≤ r.sampleTime
        ∧ (cursor = none ∨ r.sampleTime < c.afterTime
          ∨ r.sampleTime = c.afterTime ∧ (r.sequence : ℤ) < c.afterSequence) := by
  constructor
  · intro h
    have hlt := hdb₀.highest_lt (trimSpace id) q.entityCreatedAt
    have hseen := h.seen
    rw [hupper] at hseen
    exact ⟨⟨hlater.old r h.stored (by omega), h.range⟩, h.retained, h.below⟩
  · rintro ⟨hwanted, hretained, hbelow⟩
    refine ⟨?_, hwanted.2, hretained, ?_, hbelow⟩
    · rcases hlater.kept r hwanted.1 with hr | hexpired
      · exact hr
      · omega
    · rw [hupper]
      exact_mod_cast hwanted.le_highest

/-- What one page reads. -/
structure PageReads (id : String) (q : MovementQuery) (now₀ : ℤ) (db₀ : MovementDB)
    (below : MovementRow → Prop) (p : ℤ × MovementHistoryPage) : Prop where
  sorted : p.2.samples.Pairwise Newer
  mem : ∀ r ∈ p.2.samples,
    Wanted id q db₀ r ∧ below r ∧ p.1 - movementRetention ≤ r.sampleTime
  highest : ∀ r, Wanted id q db₀ r → below r → p.1 - movementRetention ≤ r.sampleTime →
    r ∈ p.2.samples ∨ p.2.nextCursor ≠ none ∧ ∀ s ∈ p.2.samples, Newer s r
  advanced : p.2.retentionAdvanced = true ↔ ∃ t, q.fromTime ≤ t ∧ t ≤ q.toTime
    ∧ now₀ - movementRetention ≤ t ∧ t < p.1 - movementRetention
  snapshot : p.2.snapshot = highestSequence db₀ (trimSpace id) q.entityCreatedAt

variable {below : MovementRow → Prop} {p : ℤ × MovementHistoryPage}
  {rest : List (ℤ × MovementHistoryPage)} {ending : PagesEnding}

theorem PageReads.due (h : PageReads id q now₀ db₀ below p) {r : MovementRow}
    (hr : Wanted id q db₀ r) (hbelow : below r) (hdue : Due [] p r)
    (hretained : p.1 - movementRetention ≤ r.sampleTime) : r ∈ p.2.samples := by
  rcases h.highest r hr hbelow hretained with hmem | ⟨hmore, hnewer⟩
  · exact hmem
  · rcases hdue.2 with hlast | ⟨s, hs, hnot⟩
    · exact absurd hlast hmore
    · exact absurd (hnewer s hs) hnot

theorem PageReads.single (h : PageReads id q now₀ db₀ below p)
    (hend : ending = .complete → p.2.nextCursor = none) :
    ReadsPages id q now₀ db₀ below [p] ending := by
  have honly : ∀ {before p' after}, [p] = before ++ p' :: after → before = [] ∧ p = p' := by
    intro before p' after hsplit
    rcases before with _ | ⟨b, before⟩
    · exact ⟨rfl, (List.cons.inj hsplit).1⟩
    · simp at hsplit
  refine ⟨by simpa using h.sorted, by simpa using h.mem, ?_, ?_, by simpa using h.advanced,
    by simpa using h.snapshot, ?_, by simp⟩
  · intro before p' after hsplit r hr hbelow hdue hretained
    obtain ⟨rfl, rfl⟩ := honly hsplit
    exact h.due hr hbelow hdue hretained
  · intro hcomplete r _ _
    exact ⟨[], p, [], rfl, by simp, .inl (hend hcomplete)⟩
  · intro before p' after hsplit b hb
    obtain ⟨rfl, rfl⟩ := honly hsplit
    cases hb

theorem PageReads.cons (h : PageReads id q now₀ db₀ below p) {a : MovementRow}
    (ha : p.2.samples.getLast? = some a) (hbelow : ∀ r, Newer a r → below r)
    (hrest : ReadsPages id q now₀ db₀ (Newer a) rest ending)
    (hlive : ∀ p' ∈ rest, p'.1 - movementRetention ≤ a.sampleTime) :
    ReadsPages id q now₀ db₀ below (p :: rest) ending := by
  have hmem : a ∈ p.2.samples := List.mem_of_getLast? ha
  refine ⟨?_, ?_, ?_, ?_, List.forall_mem_cons.2 ⟨h.advanced, hrest.advanced⟩,
    List.forall_mem_cons.2 ⟨h.snapshot, hrest.snapshot⟩, ?_, ?_⟩
  · rw [List.flatMap_cons, List.pairwise_append]
    refine ⟨h.sorted, hrest.sorted, fun s hs r hr => ?_⟩
    obtain ⟨p', hp', hr⟩ := List.mem_flatMap.1 hr
    have hr := (hrest.mem p' hp' r hr).2.1
    rcases getLast?_newer h.sorted ha s hs with rfl | hs
    · exact hr
    · exact hs.trans hr
  · refine List.forall_mem_cons.2 ⟨h.mem, fun p' hp' r hr => ?_⟩
    obtain ⟨hwanted, hnewer, hretained⟩ := hrest.mem p' hp' r hr
    exact ⟨hwanted, hbelow r hnewer, hretained⟩
  · intro before p' after hsplit r hr hbelow hdue hretained
    rcases before with _ | ⟨b, before⟩
    · obtain ⟨rfl, -⟩ := List.cons.inj hsplit
      exact h.due hr hbelow hdue hretained
    · obtain ⟨rfl, hrestSplit⟩ := List.cons.inj hsplit
      obtain ⟨hbefore, hpage⟩ := hdue
      obtain ⟨hnewer, hbefore⟩ := List.forall_mem_cons.1 hbefore
      exact hrest.due before p' after hrestSplit r hr (hnewer a hmem) ⟨hbefore, hpage⟩ hretained
  · intro hcomplete r hr _
    by_cases hhere : ∃ s ∈ p.2.samples, ¬Newer s r
    · exact ⟨[], p, rest, rfl, by simp, .inr hhere⟩
    · push Not at hhere
      obtain ⟨before, p', after, rfl, hbefore, hpage⟩ :=
        hrest.all hcomplete r hr (hhere a hmem)
      exact ⟨p :: before, p', after, rfl, List.forall_mem_cons.2 ⟨hhere, hbefore⟩, hpage⟩
  · intro before p' after hsplit
    rcases before with _ | ⟨b, before⟩
    · simp
    · obtain ⟨rfl, hrestSplit⟩ := List.cons.inj hsplit
      refine List.forall_mem_cons.2 ⟨fun s hs => ?_, hrest.live before p' after hrestSplit⟩
      have hretained := hlive p' (by rw [hrestSplit]; simp)
      rcases getLast?_newer h.sorted ha s hs with rfl | hs
      · exact hretained
      · unfold Newer at hs
        omega
  · have hcount := hrest.count
    have hpos := List.length_pos_of_mem hmem
    rw [List.length_cons, List.flatMap_cons, List.length_append]
    omega

theorem first_page (hdb₀ : Stored db₀)
    (h : movementHistory now₀ db₀ id { q with cursor := none, limit } = .ok page) :
    PageReads id q now₀ db₀ (fun _ => True) (now₀, page)
      ∧ ∀ c, page.nextCursor = some c → ∃ a, page.samples.getLast? = some a
        ∧ FollowsCursor id q now₀ db₀ now₀ db₀ c a := by
  obtain ⟨c, hstart, hpage⟩ := movementHistory_page hdb₀ h
  have hc := Except.ok.inj hstart
  have hupper : c.upper = highestSequence db₀ (trimSpace id) q.entityCreatedAt := by rw [← hc]
  have hreads : PageReads id q now₀ db₀ (fun _ => True) (now₀, page) := by
    refine ⟨hpage.sorted, fun r hr => ?_, fun r hr _ hretained => ?_, ?_,
      hpage.snapshot.trans hupper⟩
    · obtain ⟨hwanted, hretained, _⟩ :=
        (readable_iff hdb₀ (.refl hdb₀) hupper r).1 (hpage.readable r hr)
      exact ⟨hwanted, trivial, hretained⟩
    · exact hpage.highest r
        ((readable_iff hdb₀ (.refl hdb₀) hupper r).2 ⟨hr, hretained, .inl rfl⟩)
    · rw [hpage.advanced]
      constructor
      · rintro ⟨hcursor, _⟩
        exact absurd rfl hcursor
      · rintro ⟨t, _, _, hle, hlt⟩
        exact absurd (hle.trans_lt hlt) (lt_irrefl _)
  refine ⟨hreads, fun c' hc' => ?_⟩
  obtain ⟨a, ha, rfl⟩ := hpage.next c' hc'
  obtain ⟨hwanted, _, hretained⟩ := hreads.mem a (List.mem_of_getLast? ha)
  exact ⟨a, ha, le_rfl, .refl hdb₀, hwanted, hretained, by rw [← hc]; rfl⟩

theorem FollowsCursor.wanted_below {c : MovementCursor} {a r : MovementRow}
    (h : FollowsCursor id q now₀ db₀ now db c a) :
    (r.sampleTime < c.afterTime ∨ r.sampleTime = c.afterTime ∧ (r.sequence : ℤ) < c.afterSequence)
      ↔ Newer a r := by
  rw [h.cursor, Newer, Nat.cast_lt]

theorem next_page {c : MovementCursor} {a : MovementRow} (hdb₀ : Stored db₀)
    (hfollows : FollowsCursor id q now₀ db₀ now db c a)
    (h : movementHistory now db id { q with cursor := some (some c), limit } = .ok page) :
    PageReads id q now₀ db₀ (Newer a) (now, page) ∧ now - movementRetention ≤ a.sampleTime
      ∧ ∀ c', page.nextCursor = some c' → ∃ a', page.samples.getLast? = some a'
        ∧ Newer a a' ∧ FollowsCursor id q now₀ db₀ now db c' a' := by
  obtain ⟨c₁, hstart, hpage⟩ := movementHistory_page hfollows.later.stored h
  obtain ⟨rfl, hlive⟩ : c = c₁ ∧ now - movementRetention ≤ a.sampleTime := by
    simp only [movementStart] at hstart
    split_ifs at hstart with hbad hexpired
    rw [hfollows.cursor] at hexpired
    exact ⟨Except.ok.inj hstart, not_lt.1 hexpired⟩
  have hupper : c.upper = highestSequence db₀ (trimSpace id) q.entityCreatedAt := by
    rw [hfollows.cursor]
  have hreads : PageReads id q now₀ db₀ (Newer a) (now, page) := by
    refine ⟨hpage.sorted, fun r hr => ?_, fun r hr hbelow hretained => ?_, ?_,
      hpage.snapshot.trans hupper⟩
    · obtain ⟨hwanted, hretained, hbelow⟩ :=
        (readable_iff hdb₀ hfollows.later hupper r).1 (hpage.readable r hr)
      rcases hbelow with hnone | hbelow
      · cases hnone
      · exact ⟨hwanted, hfollows.wanted_below.1 hbelow, hretained⟩
    · exact hpage.highest r ((readable_iff hdb₀ hfollows.later hupper r).2
        ⟨hr, hretained, .inr (hfollows.wanted_below.2 hbelow)⟩)
    · obtain ⟨_, _, _, hfrom, hto⟩ := hfollows.wanted
      have hretained := hfollows.retained
      rw [hpage.advanced, hfollows.cursor]
      constructor
      · rintro ⟨_, hcut, hadvanced⟩
        exact ⟨max q.fromTime (now₀ - movementRetention), le_max_left _ _,
          max_le (hfrom.trans hto) (hretained.trans hto), le_max_right _ _, max_lt hcut hadvanced⟩
      · rintro ⟨t, hle, _, hle', hlt⟩
        exact ⟨Option.some_ne_none _, hle.trans_lt hlt, hle'.trans_lt hlt⟩
  refine ⟨hreads, hlive, fun c' hc' => ?_⟩
  obtain ⟨a', ha', rfl⟩ := hpage.next c' hc'
  obtain ⟨hwanted, hbelow, hretained⟩ := hreads.mem a' (List.mem_of_getLast? ha')
  have hclock := hfollows.clock
  exact ⟨a', ha', hbelow, hclock, hfollows.later, hwanted, by simp only at hretained; omega,
    by rw [hfollows.cursor]; rfl⟩

/-- A cursor is refused only when the report it follows has expired. -/
theorem next_error {c : MovementCursor} {a : MovementRow} {e : MovementError} (hdb₀ : Stored db₀)
    (hclock : movementRetention < now₀) (hrange : validateMovementRange now₀ q = .ok ())
    {entity : MovementEntity}
    (hentity : movementEntity db₀ (trimSpace id) q.entityCreatedAt = .ok entity)
    (hfollows : FollowsCursor id q now₀ db₀ now db c a) (hlimit : 1 ≤ limit ∧ limit ≤ 500)
    (h : movementHistory now db id { q with cursor := some (some c), limit } = .error e) :
    e = .cursorExpired ∧ a.sampleTime < now - movementRetention := by
  have hnow := hfollows.clock
  obtain ⟨_, _, _, hfrom, hto⟩ := hfollows.wanted
  have hretained := hfollows.retained
  have hrange' : validateMovementRange now { q with cursor := some (some c), limit } = .ok () := by
    unfold validateMovementRange at hrange ⊢
    split_ifs at hrange with hbad
    rw [if_neg]
    simp only [not_or] at hbad ⊢
    refine ⟨hbad.1, hbad.2.1, hbad.2.2.1, hbad.2.2.2.1, hbad.2.2.2.2.1, ?_⟩
    omega
  have hentity' : movementEntity db (trimSpace id) q.entityCreatedAt = .ok entity := by
    rw [← hentity]
    unfold movementEntity
    rw [hfollows.later.entities]
  have hnumbered := (hdb₀.numbered a hfollows.wanted.1).1
  have hhighest := hfollows.wanted.le_highest
  unfold movementHistory at h
  simp only [hrange', hentity', movementStart] at h
  rw [if_neg (by omega : ¬limit = 0), if_neg (by omega : ¬(limit < 1 ∨ 500 < limit)), if_neg] at h
  · split_ifs at h with hexpired
    · rw [hfollows.cursor] at hexpired
      exact ⟨(Except.error.inj h).symm, hexpired⟩
  · rw [hfollows.cursor]
    simp only [isZero, ne_eq, not_true, false_or, not_or]
    omega

/-- The pages after a report, on the way down the history. -/
theorem MovementPages.reads (hdb₀ : Stored db₀) (hclock : movementRetention < now₀)
    (hrange : validateMovementRange now₀ q = .ok ()) {entity : MovementEntity}
    (hentity : movementEntity db₀ (trimSpace id) q.entityCreatedAt = .ok entity)
    {cursor : Option (Option MovementCursor)} {pages : List (ℤ × MovementHistoryPage)}
    (h : MovementPages id q now db cursor pages ending) :
    ∀ {c : MovementCursor} {a : MovementRow}, cursor = some (some c) →
      FollowsCursor id q now₀ db₀ now db c a → ReadsPages id q now₀ db₀ (Newer a) pages ending
        ∧ (∀ p ∈ pages, p.1 - movementRetention ≤ a.sampleTime)
        ∧ ∀ t e, ending = .refused t e → e = .cursorExpired
          ∧ ((pages.flatMap (·.2.samples)).getLast?.getD a).sampleTime < t - movementRetention := by
  induction h with
  | last hlimit h hlast =>
    rintro c a rfl hfollows
    obtain ⟨hreads, hlive, _⟩ := next_page hdb₀ hfollows h
    exact ⟨hreads.single fun _ => hlast, by simpa using hlive, by simp⟩
  | refused hlimit h =>
    rintro c a rfl hfollows
    refine ⟨⟨by simp, by simp, by simp, by simp, by simp, by simp, by simp, by simp⟩, by simp,
      fun t e heq => ?_⟩
    obtain ⟨rfl, rfl⟩ := PagesEnding.refused.inj heq
    exact next_error hdb₀ hclock hrange hentity hfollows hlimit h
  | partway hlimit h =>
    rintro c a rfl hfollows
    obtain ⟨hreads, hlive, _⟩ := next_page hdb₀ hfollows h
    exact ⟨hreads.single (fun hend => by cases hend), by simpa using hlive, by simp⟩
  | more hlimit h hnext hwrites hrest ih =>
    rintro c a rfl hfollows
    obtain ⟨hreads, hlive, hafter⟩ := next_page hdb₀ hfollows h
    obtain ⟨a', ha', hnewer, hfollows'⟩ := hafter _ hnext
    obtain ⟨hle, hlater⟩ := hwrites.later hfollows.later.stored
    obtain ⟨hpages, hlives, hend⟩ := ih rfl ⟨hfollows'.clock.trans hle,
      hfollows'.later.trans hle hlater, hfollows'.wanted, hfollows'.retained, hfollows'.cursor⟩
    refine ⟨hreads.cons ha' (fun r hr => hnewer.trans hr) hpages hlives,
      List.forall_mem_cons.2 ⟨hlive, fun p hp => ?_⟩, fun t e heq => ?_⟩
    · have := hlives p hp
      unfold Newer at hnewer
      omega
    · obtain ⟨hexpired, hlast⟩ := hend t e heq
      refine ⟨hexpired, ?_⟩
      rw [List.flatMap_cons, List.getLast?_append, ha', Option.getD_or]
      exact hlast

theorem movementHistory_ok (h : movementHistory now db id q = .ok page) :
    validateMovementRange now q = .ok ()
      ∧ ∃ entity, movementEntity db (trimSpace id) q.entityCreatedAt = .ok entity := by
  unfold movementHistory at h
  simp only at h
  generalize (if q.limit = 0 then (100 : ℤ) else q.limit) = limit at h
  split at h
  case h_1 => cases h
  case h_2 hrange =>
  split_ifs at h
  split at h
  case h_1 => cases h
  case h_2 entity hentity => exact ⟨hrange, entity, hentity⟩

theorem first_not_refused (hrange : validateMovementRange now q = .ok ())
    {entity : MovementEntity}
    (hentity : movementEntity db (trimSpace id) q.entityCreatedAt = .ok entity)
    (hlimit : 1 ≤ limit ∧ limit ≤ 500) :
    ∃ page, movementHistory now db id { q with cursor := none, limit } = .ok page := by
  have hrange : validateMovementRange now { q with cursor := none, limit } = .ok () := hrange
  unfold movementHistory
  simp only [hrange, hentity, movementStart]
  rw [if_neg (by omega : ¬limit = 0), if_neg (by omega : ¬(limit < 1 ∨ 500 < limit))]
  exact ⟨_, rfl⟩

/-- The pages of a history hold the reports that were stored at the first page, from the last one
back, as far as each is retained when its page is read. They end, at the first report or when the
one before the cursor has expired. -/
theorem movementHistory_stable (id : String) (q : MovementQuery) {now₀ : ℤ} {db₀ : MovementDB}
    {pages : List (ℤ × MovementHistoryPage)} {ending : PagesEnding} (hdb₀ : Stored db₀)
    (hclock : movementRetention < now₀) (h : MovementPages id q now₀ db₀ none pages ending) :
    ReadsPages id q now₀ db₀ (fun _ => True) pages ending
      ∧ (∀ r, Wanted id q db₀ r
        ↔ r ∈ db₀.samples ∧ InRange (trimSpace id) q r
          ∧ r.sequence ≤ highestSequence db₀ (trimSpace id) q.entityCreatedAt)
      ∧ pages.length ≤ db₀.samples.length + 1
      ∧ ∀ now e, ending = .refused now e → validateMovementRange now₀ q = .ok () →
        ∀ entity, movementEntity db₀ (trimSpace id) q.entityCreatedAt = .ok entity →
          e = .cursorExpired ∧ ∃ a, (pages.flatMap (·.2.samples)).getLast? = some a
            ∧ a.sampleTime < now - movementRetention := by
  have hreads : ReadsPages id q now₀ db₀ (fun _ => True) pages ending
      ∧ ∀ now e, ending = .refused now e → validateMovementRange now₀ q = .ok () →
        ∀ entity, movementEntity db₀ (trimSpace id) q.entityCreatedAt = .ok entity →
          e = .cursorExpired ∧ ∃ a, (pages.flatMap (·.2.samples)).getLast? = some a
            ∧ a.sampleTime < now - movementRetention := by
    cases h with
    | last hlimit h hlast => exact ⟨(first_page hdb₀ h).1.single fun _ => hlast, by simp⟩
    | refused hlimit h =>
      refine ⟨⟨by simp, by simp, by simp, by simp, by simp, by simp, by simp, by simp⟩,
        fun _ _ _ hrange entity hentity => ?_⟩
      obtain ⟨page, hok⟩ := first_not_refused hrange hentity hlimit
      rw [hok] at h
      cases h
    | partway hlimit h =>
      exact ⟨(first_page hdb₀ h).1.single (fun hend => by cases hend), by simp⟩
    | more hlimit h hnext hwrites hrest =>
      obtain ⟨hfirst, hafter⟩ := first_page hdb₀ h
      obtain ⟨a, ha, hfollows⟩ := hafter _ hnext
      obtain ⟨hle, hlater⟩ := hwrites.later hdb₀
      obtain ⟨hrange, entity, hentity⟩ := movementHistory_ok h
      have hrange : validateMovementRange now₀ q = .ok () := hrange
      have hentity : movementEntity db₀ (trimSpace id) q.entityCreatedAt = .ok entity := hentity
      obtain ⟨hpages, hlives, hend⟩ := hrest.reads hdb₀ hclock hrange hentity rfl
        ⟨hle, hlater, hfollows.wanted, hfollows.retained, hfollows.cursor⟩
      refine ⟨hfirst.cons ha (fun _ _ => trivial) hpages hlives, fun t e heq _ _ _ => ?_⟩
      obtain ⟨hexpired, hlast⟩ := hend t e heq
      rw [List.flatMap_cons, List.getLast?_append, ha, Option.or_some]
      exact ⟨hexpired, _, rfl, hlast⟩
  refine ⟨hreads.1, fun r => ?_, ?_, hreads.2⟩
  · exact ⟨fun hr => ⟨hr.1, hr.2, hr.le_highest⟩, fun hr => ⟨hr.1, hr.2.1⟩⟩
  · have hnodup : (pages.flatMap (·.2.samples)).Nodup :=
      hreads.1.sorted.imp fun {r s} hnewer heq => by
        subst heq
        exact hnewer.irrefl hnewer
    have hsub : pages.flatMap (·.2.samples) ⊆ db₀.samples := by
      intro r hr
      obtain ⟨p, hp, hr⟩ := List.mem_flatMap.1 hr
      exact (hreads.1.mem p hp r hr).1.1
    exact hreads.1.count.trans (Nat.succ_le_succ (hnodup.subperm hsub).length_le)

/-- A report that comes in late, between the two pages, is on none of them. -/
theorem movementHistory_stable_backfill :
    let report : MovementReport := ⟨none, none, none, some 3, none⟩
    let late : MovementSampleInput :=
      ⟨"late", some "2026-01-01T15:00:00Z", none, none, some (.finite 3), none⟩
    let first : MovementRow := ⟨1, "a1", 63902822400000000000, "s1", 63902865600000000000,
      63902865600000000000, report⟩
    let second : MovementRow := ⟨2, "a1", 63902822400000000000, "s2", 63902887200000000000,
      63902887200000000000, report⟩
    let db : MovementDB := ⟨[⟨"a1", "asset", 63902822400000000000⟩], [first, second], 3⟩
    let q : MovementQuery := ⟨63902822400000000000, 63902822400000000000, 63902908800000000000,
      none, 0, 0⟩
    ∃ db' out pages, importMovement (fun l => l) 63902908800000000000 db "a1"
        ⟨"2026-01-01T00:00:00Z", [late]⟩ 63902908800000000000 = .ok (out, db')
      ∧ out.inserted = 1
      ∧ pages.map (fun p : ℤ × MovementHistoryPage => p.2.samples) = [[second], [first]]
      ∧ ReadsPages "a1" q 63902908800000000000 db (fun _ => True) pages .complete := by
  intro report late first second db q
  have himport : importMovement (fun l => l) 63902908800000000000 db "a1"
      ⟨"2026-01-01T00:00:00Z", [late]⟩ 63902908800000000000 = .ok (⟨1, 0, 0⟩, ⟨db.entities,
        [first, second, ⟨3, "a1", 63902822400000000000, "late", 63902908800000000000,
          63902876400000000000, { report with observedAt := some 63902876400000000000 }⟩], 4⟩) := by
    decide +kernel
  have hstored : Stored db := ⟨by decide, by decide, by decide, by decide⟩
  have hpages : MovementPages "a1" q 63902908800000000000 db none
      [(63902908800000000000, ⟨63902822400000000000, 63902822400000000000, 63902908800000000000,
          63902908800000000000 - movementRetention, false, 2, [second],
          some ⟨"a1", 63902822400000000000, 63902822400000000000, 63902908800000000000,
            63902908800000000000 - movementRetention, 2, 63902887200000000000, 2⟩⟩),
        (63902908800000000000, ⟨63902822400000000000, 63902822400000000000, 63902908800000000000,
          63902908800000000000 - movementRetention, false, 2, [first], none⟩)] .complete :=
    .more (by decide : (1 : ℤ) ≤ 1 ∧ (1 : ℤ) ≤ 500) (by decide +kernel) rfl
      (.write le_rfl (.imported (fun l => .refl l) himport) (.none le_rfl))
      (.last (by decide : (1 : ℤ) ≤ 2 ∧ (2 : ℤ) ≤ 500) (by decide +kernel) rfl)
  exact ⟨_, _, _, himport, rfl, rfl,
    (movementHistory_stable "a1" q hstored (by decide) hpages).1⟩

end Pages

end Atlas.Core
