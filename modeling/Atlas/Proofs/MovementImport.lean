import Atlas.Core.Movement

/-!
# Importing a batch

Inserting reports with different IDs adds a row for each that is not stored (`insertAll_spec`), and
a batch without conflicts has one report of each ID. So an import inserts the reports that are new,
and what is neither new nor expired is a duplicate (`importMovement_rows`). Whether it succeeds
depends on the samples and not on their order (`Importable.perm`); a second import finds everything
stored (`importMovement_again`).
-/

namespace Atlas.Core

/-! ## Inserting -/

section Insert

variable {entity : MovementEntity} {received : ℤ}

/-- A row without its sequence number. -/
def MovementRow.unnumbered (r : MovementRow) : MovementRow := { r with sequence := 0 }

/-- The row of a report. -/
def reportRow (entity : MovementEntity) (received : ℤ) (sequence : ℕ)
    (s : String × MovementReport) : MovementRow :=
  ⟨sequence, entity.entityID, entity.createdAt, s.1, received, s.2.observedAt.getD received, s.2⟩

def insertAll (entity : MovementEntity) (received : ℤ) (db : MovementDB)
    (reports : List (String × MovementReport)) : MovementDB :=
  reports.foldl (fun db s => db.insert entity s.1 received s.2) db

/-- The report's ID is not stored. -/
def IsNew (db : MovementDB) (entity : MovementEntity) (s : String × MovementReport) : Prop :=
  ∀ r ∈ db.samples, r.key ≠ (entity.entityID, entity.createdAt, s.1)

instance (db : MovementDB) (entity : MovementEntity) :
    DecidablePred (IsNew db entity) := fun _ => by
  unfold IsNew
  infer_instance

variable (entity received) in
theorem insert_cases (db : MovementDB) (s : String × MovementReport) :
    (db.insert entity s.1 received s.2).nextSequence = db.nextSequence + 1
      ∧ (db.insert entity s.1 received s.2).entities = db.entities
      ∧ (IsNew db entity s → (db.insert entity s.1 received s.2).samples
        = db.samples ++ [reportRow entity received db.nextSequence s])
      ∧ (¬IsNew db entity s → (db.insert entity s.1 received s.2).samples = db.samples) := by
  have hany : (db.samples.any fun r =>
      decide (r.key = (entity.entityID, entity.createdAt, s.1))) = true ↔ ¬IsNew db entity s := by
    simp [IsNew]
  by_cases h : (db.samples.any fun r =>
      decide (r.key = (entity.entityID, entity.createdAt, s.1))) = true
  · have heq : db.insert entity s.1 received s.2
        = { db with nextSequence := db.nextSequence + 1 } := if_pos h
    rw [heq]
    exact ⟨rfl, rfl, fun hnew => absurd hnew (hany.1 h), fun _ => rfl⟩
  · have heq : db.insert entity s.1 received s.2
        = { db with
            samples := db.samples ++ [reportRow entity received db.nextSequence s],
            nextSequence := db.nextSequence + 1 } := if_neg h
    rw [heq]
    exact ⟨rfl, rfl, fun _ => rfl, fun hold => absurd (hany.2 hold) h⟩

variable (entity received) in
/-- Reports with different IDs: a row for each that is new, in their order and with increasing
sequence numbers. -/
theorem insertAll_spec : ∀ (reports : List (String × MovementReport)) (db : MovementDB),
    (reports.map Prod.fst).Nodup → ∃ rows,
      (insertAll entity received db reports).samples = db.samples ++ rows
      ∧ rows.map MovementRow.unnumbered
        = (reports.filter fun s => IsNew db entity s).map (reportRow entity received 0)
      ∧ (rows.map (·.sequence)).Pairwise (· < ·)
      ∧ (∀ r ∈ rows, db.nextSequence ≤ r.sequence
        ∧ r.sequence < (insertAll entity received db reports).nextSequence)
      ∧ db.nextSequence ≤ (insertAll entity received db reports).nextSequence
      ∧ (insertAll entity received db reports).entities = db.entities
  | [], db, _ => ⟨[], by simp [insertAll]⟩
  | s :: reports, db, hnodup => by
    obtain ⟨hs, hnodup⟩ := List.nodup_cons.1 hnodup
    obtain ⟨hnext, hentities, hnew, hold⟩ :=
      insert_cases entity received db s
    obtain ⟨rows, hsamples, hrows, hsorted, hrange, hle, hentities'⟩ :=
      insertAll_spec reports (db.insert entity s.1 received s.2) hnodup
    have hfold : insertAll entity received db (s :: reports)
      = insertAll entity received (db.insert entity s.1 received s.2) reports := rfl
    rw [hfold, hentities', hentities]
    rw [hnext] at hrange hle
    by_cases h : IsNew db entity s
    · have hkeep : ∀ s' ∈ reports,
          decide (IsNew (db.insert entity s.1 received s.2) entity s')
            = decide (IsNew db entity s') := by
        intro s' hs'
        rw [decide_eq_decide, IsNew, hnew h, List.forall_mem_append, IsNew,
          List.forall_mem_singleton, and_iff_left]
        intro heq
        simp only [MovementRow.key, reportRow, Prod.mk.injEq, true_and] at heq
        exact hs (List.mem_map.2 ⟨s', hs', heq.symm⟩)
      refine ⟨reportRow entity received db.nextSequence s :: rows, ?_, ?_, ?_,
        ?_, by omega, rfl⟩
      · rw [hsamples, hnew h, List.append_assoc, List.singleton_append]
      · rw [List.map_cons, hrows, List.filter_cons_of_pos (by simpa using h), List.map_cons,
          List.filter_congr hkeep]
        rfl
      · rw [List.map_cons, List.pairwise_cons]
        refine ⟨fun n hn => ?_, hsorted⟩
        obtain ⟨r, hr, rfl⟩ := List.mem_map.1 hn
        exact (hrange r hr).1
      · refine List.forall_mem_cons.2 ⟨⟨le_refl _, Nat.lt_of_succ_le hle⟩, fun r hr => ?_⟩
        have := hrange r hr
        omega
    · have hkeep : ∀ s' ∈ reports,
          decide (IsNew (db.insert entity s.1 received s.2) entity s')
            = decide (IsNew db entity s') := by
        intro s' _
        rw [decide_eq_decide, IsNew, hold h, IsNew]
      refine ⟨rows, ?_, ?_, hsorted, fun r hr => ?_, by omega, rfl⟩
      · rw [hsamples, hold h]
      · rw [hrows, List.filter_cons_of_neg (by simpa using h), List.filter_congr hkeep]
      · have := hrange r hr
        omega

end Insert

/-! ## The batch -/

theorem mapM_except_iff {α β ε : Type} {f : α → Except ε β} : ∀ {xs : List α} {ys : List β},
    xs.mapM f = .ok ys
      ↔ (∀ x ∈ xs, ∃ y, f x = .ok y) ∧ ys = xs.filterMap fun x => (f x).toOption
  | [], ys => by simp [pure, Except.pure, eq_comm]
  | x :: xs, ys => by
    rw [List.mapM_cons, List.forall_mem_cons]
    rcases hx : f x with e | y
    · simp [bind, Except.bind]
    · rcases hxs : xs.mapM f with e | zs
      · have hnot : ¬∀ x ∈ xs, ∃ y, f x = .ok y := by
          intro h
          have := mapM_except_iff.2 ⟨h, rfl⟩
          rw [hxs] at this
          cases this
        simp [bind, Except.bind, hnot]
      · obtain ⟨hok, rfl⟩ := mapM_except_iff.1 hxs
        simp only [bind, Except.bind, pure, Except.pure, Except.ok.injEq, exists_eq', true_and,
          List.filterMap_cons, hx, Except.toOption]
        exact eq_comm.trans (and_iff_right hok).symm

/-- The first error is the one that a batch fails with. -/
theorem mapM_except_error {α β ε : Type} {f : α → Except ε β} {e : ε} : ∀ {xs : List α},
    xs.mapM f = .error e →
      ∃ before x after, xs = before ++ x :: after ∧ f x = .error e
        ∧ ∀ y ∈ before, ∃ z, f y = .ok z
  | [], h => by cases h
  | x :: xs, h => by
    rw [List.mapM_cons] at h
    rcases hx : f x with e' | y
    · rw [hx] at h
      cases h
      exact ⟨[], x, xs, rfl, hx, by simp⟩
    · rcases hxs : xs.mapM f with e' | ys
      · rw [hx] at h
        simp only [bind, Except.bind, hxs, Except.error.injEq] at h
        subst h
        obtain ⟨before, z, after, rfl, hz, hbefore⟩ := mapM_except_error hxs
        exact ⟨x :: before, z, after, rfl, hz, List.forall_mem_cons.2 ⟨⟨y, hx⟩, hbefore⟩⟩
      · rw [hx] at h
        simp only [bind, Except.bind, hxs, pure, Except.pure] at h
        cases h

/-- The samples of a batch that are valid. -/
def preparedSamples (received : ℤ) (samples : List MovementSampleInput) :
    List MovementImportSample :=
  samples.filterMap fun s => (prepareMovement received s).toOption

/-- Their reports, under their sample IDs. -/
def batchReports (received : ℤ) (samples : List MovementSampleInput) :
    List (String × MovementReport) :=
  (preparedSamples received samples).map fun s => (s.sampleID, s.report)

/-- The time that a report is kept by. -/
def reportTime (received : ℤ) (s : String × MovementReport) : ℤ := s.2.observedAt.getD received

/-- What an import needs of the database and the batch. -/
structure Importable (db : MovementDB) (id : String) (request : MovementHistoryBatchRequest)
    (received : ℤ) (entity : MovementEntity) : Prop where
  instanceIs : ∃ created, parseMovementTimestamp request.entityCreatedAt = .ok created
    ∧ movementEntity db id created = .ok entity
  size : 1 ≤ request.samples.length ∧ request.samples.length ≤ 500
  valid : ∀ s ∈ request.samples, ∃ p, prepareMovement received s = .ok p
  readable : ∀ p ∈ preparedSamples received request.samples, p.readable = true
  agree : ∀ s ∈ batchReports received request.samples,
    ∀ s' ∈ batchReports received request.samples, s'.1 = s.1 → s' = s
  agreeStored : ∀ s ∈ batchReports received request.samples, ∀ r ∈ db.samples,
    r.key = (entity.entityID, entity.createdAt, s.1) → r.report = s.2

/-- A sample is kept by its observation time, if it has one, and by its arrival. -/
theorem prepareMovement_time {received : ℤ} {s : MovementSampleInput} {p : MovementImportSample}
    (h : prepareMovement received s = .ok p) : p.time = p.report.observedAt.getD received := by
  unfold prepareMovement validateMovement at h
  split_ifs at h <;> try cases h
  split at h
  · cases h
    rfl
  · split at h
    · cases h
    · split_ifs at h <;> cases h
      rfl

theorem mapM_prepareMovement_iff {received : ℤ} {samples : List MovementSampleInput}
    {prepared : List MovementImportSample} :
    samples.mapM (prepareMovement received) = .ok prepared
      ↔ (∀ s ∈ samples, ∃ p, prepareMovement received s = .ok p)
        ∧ prepared = preparedSamples received samples :=
  mapM_except_iff

theorem mem_preparedSamples {received : ℤ} {samples : List MovementSampleInput}
    {p : MovementImportSample} :
    p ∈ preparedSamples received samples ↔ ∃ s ∈ samples, prepareMovement received s = .ok p := by
  rw [preparedSamples, List.mem_filterMap]
  refine exists_congr fun s => and_congr_right fun _ => ?_
  rcases prepareMovement received s with e | q <;> simp [Except.toOption]

theorem length_preparedSamples {received : ℤ} : ∀ {samples : List MovementSampleInput},
    (∀ s ∈ samples, ∃ p, prepareMovement received s = .ok p) →
      (preparedSamples received samples).length = samples.length
  | [], _ => rfl
  | s :: samples, h => by
    obtain ⟨⟨p, hp⟩, h⟩ := List.forall_mem_cons.1 h
    rw [preparedSamples, List.filterMap_cons, hp]
    exact congrArg (· + 1) (length_preparedSamples h)

theorem movementConflicts_iff (db : MovementDB) (entity : MovementEntity)
    (incoming : List (String × MovementReport)) : ¬movementConflicts db entity incoming.dedup = true
      ↔ (∀ s ∈ incoming, ∀ s' ∈ incoming, s'.1 = s.1 → s' = s)
        ∧ ∀ s ∈ incoming, ∀ r ∈ db.samples,
          r.key = (entity.entityID, entity.createdAt, s.1) → r.report = s.2 := by
  simp only [movementConflicts, List.any_eq_true, List.mem_dedup, decide_eq_true_eq, not_exists,
    not_and, not_or, not_not, ne_eq]
  exact forall₂_and

/-- The reports that an import passes to the database, if they have not expired. -/
def freshReports (now received : ℤ) (samples : List MovementSampleInput) :
    List (String × MovementReport) :=
  (batchReports received samples).dedup.filter fun s =>
    movementLowerBound (now - movementRetention) ≤ reportTime received s

def expiredCount (now received : ℤ) (samples : List MovementSampleInput) : ℕ :=
  (batchReports received samples).countP fun s =>
    reportTime received s < movementLowerBound (now - movementRetention)

theorem importMovement_ok_iff
    {arrange : List (String × MovementReport) → List (String × MovementReport)} {now : ℤ}
    {db db' : MovementDB} {id : String} {request : MovementHistoryBatchRequest} {received : ℤ}
    {out : MovementHistoryBatchResponse} :
    importMovement arrange now db id request received = .ok (out, db')
      ↔ ∃ entity, Importable db id request (truncateMicrosecond received) entity
        ∧ db' = insertAll entity (truncateMicrosecond received) db
          (arrange (freshReports now (truncateMicrosecond received) request.samples))
        ∧ out.expired = expiredCount now (truncateMicrosecond received) request.samples
        ∧ out.inserted = (db'.samples.length - db.samples.length : ℕ)
        ∧ out.duplicates = request.samples.length - out.expired - out.inserted := by
  have hreports : (preparedSamples (truncateMicrosecond received) request.samples).map
      (fun s => (s.sampleID, s.report))
        = batchReports (truncateMicrosecond received) request.samples := rfl
  have hexpired : (preparedSamples (truncateMicrosecond received) request.samples).countP
      (fun s => s.time < movementLowerBound (now - movementRetention))
        = expiredCount now (truncateMicrosecond received) request.samples := by
    rw [expiredCount, batchReports, List.countP_map]
    refine List.countP_congr fun p hp => ?_
    obtain ⟨s, _, hs⟩ := mem_preparedSamples.1 hp
    rw [Function.comp_apply, reportTime, prepareMovement_time hs]
  unfold importMovement
  constructor
  · intro h
    split at h
    case h_1 => cases h
    case h_2 created hcreated =>
    split_ifs at h with hsize
    simp only at h
    split at h
    case h_1 => cases h
    case h_2 prepared hprepared =>
    obtain ⟨hvalid, rfl⟩ := mapM_prepareMovement_iff.1 hprepared
    split at h
    case h_1 => cases h
    case h_2 entity hentity =>
    split_ifs at h with hreadable hconflicts
    simp only [Except.ok.injEq, Prod.mk.injEq] at h
    obtain ⟨rfl, rfl⟩ := h
    obtain ⟨hagree, hstored⟩ := (movementConflicts_iff db entity _).1 hconflicts
    refine ⟨entity, ⟨⟨created, hcreated, hentity⟩, by omega, hvalid,
      List.all_eq_true.1 hreadable, hagree, hstored⟩, rfl, by rw [← hexpired], rfl, ?_⟩
    rw [← length_preparedSamples hvalid]
  · rintro ⟨entity, himport, rfl, hout⟩
    obtain ⟨created, hcreated, hentity⟩ := himport.instanceIs
    have hprepared := mapM_prepareMovement_iff.2 ⟨himport.valid, rfl⟩
    have hsize : ¬(request.samples.length < 1 ∨ 500 < request.samples.length) := by
      have := himport.size
      omega
    have hreadable := List.all_eq_true.2 himport.readable
    have hconflicts := (movementConflicts_iff db entity _).2 ⟨himport.agree, himport.agreeStored⟩
    simp only [hcreated, if_neg hsize]
    rw [hprepared]
    simp only [hentity, hreports]
    rw [if_neg (not_not.2 hreadable), if_neg hconflicts]
    refine congrArg Except.ok (Prod.ext ?_ rfl)
    obtain ⟨inserted, duplicates, expired⟩ := out
    simp only at hout
    obtain ⟨rfl, rfl, rfl⟩ := hout
    simp only [MovementHistoryBatchResponse.mk.injEq, ← hexpired,
      ← length_preparedSamples himport.valid]
    exact ⟨rfl, rfl, trivial⟩

/-! ## What an import does -/

section Import

variable {arrange : List (String × MovementReport) → List (String × MovementReport)}
  {now : ℤ} {db db' : MovementDB} {id : String} {request : MovementHistoryBatchRequest}
  {received : ℤ} {entity : MovementEntity} {out : MovementHistoryBatchResponse}

/-- The reports of the batch that are neither expired nor stored, once each. -/
def newReports (now received : ℤ) (db : MovementDB) (entity : MovementEntity)
    (samples : List MovementSampleInput) : List (String × MovementReport) :=
  (freshReports now received samples).filter fun s => IsNew db entity s

theorem Importable.nodup_fresh (h : Importable db id request received entity) :
    ((freshReports now received request.samples).map Prod.fst).Nodup := by
  refine List.Nodup.map_on (fun s hs s' hs' heq => ?_) ((List.nodup_dedup _).filter _)
  have hmem : ∀ {s}, s ∈ freshReports now received request.samples
      → s ∈ batchReports received request.samples :=
    fun hs => List.mem_dedup.1 (List.mem_of_mem_filter hs)
  exact h.agree s' (hmem hs') s (hmem hs) heq

variable (now) in
/-- Every sample is expired or not, and those that are not include the ones inserted. -/
theorem count_fresh (h : Importable db id request received entity) :
    (newReports now received db entity request.samples).length
      + expiredCount now received request.samples ≤ request.samples.length := by
  have hlength : (batchReports received request.samples).length = request.samples.length := by
    rw [batchReports, List.length_map, length_preparedSamples h.valid]
  have hle : (newReports now received db entity request.samples).length
      ≤ (batchReports received request.samples).countP fun s =>
        ¬reportTime received s < movementLowerBound (now - movementRetention) := by
    calc (newReports now received db entity request.samples).length
        ≤ (freshReports now received request.samples).length := List.length_filter_le _ _
      _ ≤ ((batchReports received request.samples).filter fun s =>
            movementLowerBound (now - movementRetention) ≤ reportTime received s).length :=
          ((List.dedup_sublist _).filter _).length_le
      _ = _ := by
          rw [List.countP_eq_length_filter]
          simp only [not_lt]
  have htotal := List.length_eq_countP_add_countP (l := batchReports received request.samples)
    fun s => decide (reportTime received s < movementLowerBound (now - movementRetention))
  simp only [decide_eq_true_eq] at htotal
  rw [expiredCount]
  omega

variable (now) in
/-- What the database has after the import. -/
theorem insertFresh_spec (harrange : ∀ l, (arrange l).Perm l)
    (h : Importable db id request received entity) :
    ∃ rows, (insertAll entity received db
        (arrange (freshReports now received request.samples))).samples = db.samples ++ rows
      ∧ (rows.map MovementRow.unnumbered).Perm
        ((newReports now received db entity request.samples).map (reportRow entity received 0))
      ∧ (insertAll entity received db
        (arrange (freshReports now received request.samples))).entities = db.entities := by
  have hperm := harrange (freshReports now received request.samples)
  obtain ⟨rows, hsamples, hrows, _, _, _, hentities⟩ :=
    insertAll_spec entity received _ db
      ((hperm.map Prod.fst).nodup_iff.2 h.nodup_fresh)
  refine ⟨rows, hsamples, ?_, hentities⟩
  rw [hrows]
  exact (hperm.filter _).map _

/-- The rows that an import adds, and the counts. -/
theorem importMovement_rows (harrange : ∀ l, (arrange l).Perm l)
    (h : importMovement arrange now db id request received = .ok (out, db')) :
    ∃ entity, Importable db id request (truncateMicrosecond received) entity
      ∧ ∃ rows, db'.samples = db.samples ++ rows
        ∧ (rows.map MovementRow.unnumbered).Perm
          ((newReports now (truncateMicrosecond received) db entity request.samples).map
            (reportRow entity (truncateMicrosecond received) 0))
        ∧ db'.entities = db.entities
        ∧ out.inserted = rows.length
        ∧ out.expired = expiredCount now (truncateMicrosecond received) request.samples
        ∧ out.inserted + out.duplicates + out.expired = request.samples.length
        ∧ 0 ≤ out.inserted ∧ 0 ≤ out.duplicates ∧ 0 ≤ out.expired := by
  obtain ⟨entity, himport, rfl, hexpired, hinserted, hduplicates⟩ := importMovement_ok_iff.1 h
  obtain ⟨rows, hsamples, hnew, hentities⟩ := insertFresh_spec now harrange himport
  have hlength := hnew.length_eq
  rw [List.length_map, List.length_map] at hlength
  have hcount := count_fresh now himport
  rw [hsamples, List.length_append, Nat.add_sub_cancel_left] at hinserted
  refine ⟨entity, himport, rows, hsamples, hnew, hentities, hinserted, hexpired, ?_, ?_, ?_, ?_⟩
    <;> omega

/-! ### The same batch again -/

theorem truncateMicrosecond_mono {t t' : ℤ} (h : t ≤ t') :
    truncateMicrosecond t ≤ truncateMicrosecond t' := by
  unfold truncateMicrosecond microsecond
  omega

theorem movementLowerBound_mono {t t' : ℤ} (h : t ≤ t') :
    movementLowerBound t ≤ movementLowerBound t' := by
  simp only [movementLowerBound, truncateMicrosecond, microsecond]
  split_ifs <;> omega

/-- What is valid at its arrival is valid later, with the same report. -/
theorem prepareMovement_later {received received' : ℤ} (hle : received ≤ received')
    {s : MovementSampleInput} {p : MovementImportSample}
    (h : prepareMovement received s = .ok p) :
    ∃ p', prepareMovement received' s = .ok p' ∧ p'.sampleID = p.sampleID
      ∧ p'.report = p.report := by
  unfold prepareMovement validateMovement at h ⊢
  split_ifs at h ⊢ <;> try cases h
  split at h
  · cases h
    exact ⟨_, rfl, rfl, rfl⟩
  · split at h
    · cases h
    · rename_i observed hobserved
      split_ifs at h with hskew
      · cases h
      · cases h
        simp only
        rw [if_neg (by omega)]
        exact ⟨_, rfl, rfl, rfl⟩

theorem batchReports_later {received received' : ℤ} (hle : received ≤ received') :
    ∀ {samples : List MovementSampleInput},
      (∀ s ∈ samples, ∃ p, prepareMovement received s = .ok p) →
        batchReports received' samples = batchReports received samples
  | [], _ => rfl
  | s :: samples, h => by
    obtain ⟨⟨p, hp⟩, h⟩ := List.forall_mem_cons.1 h
    obtain ⟨p', hp', hid, hreport⟩ := prepareMovement_later hle hp
    have ih := batchReports_later hle h
    simp only [batchReports, preparedSamples, List.filterMap_cons, hp, hp', Except.toOption,
      List.map_cons, hid, hreport, List.cons.injEq, true_and]
    exact ih

theorem mem_batchReports {s : String × MovementReport} {samples : List MovementSampleInput}
    (h : s ∈ batchReports received samples) : ∃ s₀ ∈ samples, s₀.sampleID = s.1 := by
  obtain ⟨p, hp, rfl⟩ := List.mem_map.1 h
  obtain ⟨s₀, hs₀, hprepare⟩ := mem_preparedSamples.1 hp
  refine ⟨s₀, hs₀, ?_⟩
  unfold prepareMovement at hprepare
  rcases hvalid : validateMovement s₀ received with e | r
  · rw [hvalid] at hprepare
    cases hprepare
  · rw [hvalid] at hprepare
    cases hprepare
    rfl

theorem movementEntity_key {created : ℤ} (h : movementEntity db id created = .ok entity) :
    entity.entityID = trimSpace id ∧ entity.createdAt = created := by
  unfold movementEntity at h
  split at h
  · cases h
  · split at h
    · cases h
    · rename_i e hfind
      split_ifs at h with hcreated
      cases h
      exact ⟨by simpa using List.find?_some hfind, not_not.1 hcreated⟩

/-- The reports that are stored under the sample IDs of the batch are the same. -/
def Retained (id : String) (request : MovementHistoryBatchRequest) (db₁ db₂ : MovementDB) : Prop :=
  ∀ created, parseMovementTimestamp request.entityCreatedAt = .ok created →
    ∀ s ∈ request.samples, ∀ r : MovementRow, r.key = (trimSpace id, created, s.sampleID) →
      (r ∈ db₂.samples ↔ r ∈ db₁.samples)

/-- A row of the import has the report of a sample. -/
theorem mem_rows {rows : List MovementRow} {reports : List (String × MovementReport)}
    (h : (rows.map MovementRow.unnumbered).Perm (reports.map (reportRow entity received 0)))
    {r : MovementRow} (hr : r ∈ rows) : ∃ s ∈ reports,
      r.key = (entity.entityID, entity.createdAt, s.1) ∧ r.report = s.2 := by
  obtain ⟨s, hs, heq⟩ := List.mem_map.1 (h.subset (List.mem_map_of_mem hr))
  have hkey : (reportRow entity received 0 s).key = r.unnumbered.key := by rw [heq]
  have hreport : (reportRow entity received 0 s).report = r.unnumbered.report := by rw [heq]
  exact ⟨s, hs, hkey.symm, hreport.symm⟩

theorem importMovement_again (harrange : ∀ l, (arrange l).Perm l) {db₁ db₂ : MovementDB}
    (h : importMovement arrange now db id request received = .ok (out, db₁))
    {arrange' : List (String × MovementReport) → List (String × MovementReport)}
    (harrange' : ∀ l, (arrange' l).Perm l) {now' received' : ℤ} (hnow : now ≤ now')
    (hreceived : received ≤ received')
    (harrival : received' = received
      ∨ movementLowerBound (now - movementRetention) ≤ truncateMicrosecond received)
    (hentity : ∀ created, movementEntity db₂ id created = movementEntity db id created)
    (hretained : Retained id request db₁ db₂) :
    ∃ out' db₃, importMovement arrange' now' db₂ id request received' = .ok (out', db₃)
      ∧ out'.inserted = 0 ∧ db₃.samples = db₂.samples ∧ db₃.entities = db₂.entities := by
  obtain ⟨entity, himport, rows, hsamples, hrows, _⟩ := importMovement_rows harrange h
  obtain ⟨created, hcreated, hfound⟩ := himport.instanceIs
  obtain ⟨hid, hat⟩ := movementEntity_key hfound
  have hle := truncateMicrosecond_mono hreceived
  have hreports := batchReports_later hle himport.valid
  -- what is stored under the IDs of the batch is what the first import left there
  have hstored : ∀ s ∈ batchReports (truncateMicrosecond received) request.samples, ∀ r,
      r.key = (entity.entityID, entity.createdAt, s.1) → (r ∈ db₂.samples ↔ r ∈ db₁.samples) := by
    intro s hs r hr
    obtain ⟨s₀, hs₀, hname⟩ := mem_batchReports hs
    exact hretained created hcreated s₀ hs₀ r (by rw [hr, hid, hat, hname])
  have hbatch : ∀ s ∈ newReports now (truncateMicrosecond received) db entity request.samples,
      s ∈ batchReports (truncateMicrosecond received) request.samples :=
    fun s hs => List.mem_dedup.1 (List.mem_of_mem_filter (List.mem_of_mem_filter hs))
  have himport' : Importable db₂ id request (truncateMicrosecond received') entity := by
    refine ⟨⟨created, hcreated, by rw [hentity, hfound]⟩, himport.size, fun s hs => ?_,
      fun p' hp' => ?_, ?_, ?_⟩
    · obtain ⟨p, hp⟩ := himport.valid s hs
      obtain ⟨p', hp', -⟩ := prepareMovement_later hle hp
      exact ⟨p', hp'⟩
    · obtain ⟨s, hs, hprepare'⟩ := mem_preparedSamples.1 hp'
      obtain ⟨p, hp⟩ := himport.valid s hs
      obtain ⟨p'', hp'', hname, hreport⟩ := prepareMovement_later hle hp
      rw [hprepare', Except.ok.injEq] at hp''
      subst hp''
      have := himport.readable p (mem_preparedSamples.2 ⟨s, hs, hp⟩)
      rwa [MovementImportSample.readable, hname, hreport]
    · rw [hreports]
      exact himport.agree
    · rw [hreports]
      intro s hs r hr hkey
      rw [hstored s hs r hkey, hsamples, List.mem_append] at hr
      rcases hr with hr | hr
      · exact himport.agreeStored s hs r hr hkey
      · obtain ⟨s', hs', hkey', hreport'⟩ := mem_rows hrows hr
        have hname : s'.1 = s.1 := by
          rw [hkey] at hkey'
          simpa using hkey'.symm
        rw [hreport', himport.agree s hs s' (hbatch s' hs') hname]
  obtain ⟨rows', hsamples', hrows', hentities'⟩ :=
    insertFresh_spec now' harrange' himport'
  -- a report that has not expired had not expired then: it is stored
  have hnone : newReports now' (truncateMicrosecond received') db₂ entity request.samples = [] := by
    refine List.filter_eq_nil_iff.2 fun s hs => ?_
    rw [decide_eq_true_eq]
    intro hnew
    obtain ⟨hs, hfresh⟩ := List.mem_filter.1 hs
    rw [List.mem_dedup, hreports] at hs
    rw [decide_eq_true_eq] at hfresh
    have hfirst : movementLowerBound (now - movementRetention)
        ≤ reportTime (truncateMicrosecond received) s := by
      have hmono : movementLowerBound (now - movementRetention)
          ≤ movementLowerBound (now' - movementRetention) := movementLowerBound_mono (by omega)
      unfold reportTime at hfresh ⊢
      rcases hobserved : s.2.observedAt with _ | observed
      · rw [hobserved] at hfresh
        rcases harrival with rfl | harrival
        · exact hmono.trans hfresh
        · exact harrival
      · rw [hobserved] at hfresh
        exact hmono.trans hfresh
    have hfind : ∃ r ∈ db₁.samples, r.key = (entity.entityID, entity.createdAt, s.1) := by
      by_cases hold : IsNew db entity s
      · have hs' : s ∈ newReports now (truncateMicrosecond received) db entity request.samples :=
          List.mem_filter.2 ⟨List.mem_filter.2 ⟨List.mem_dedup.2 hs, by simpa using hfirst⟩,
            by simpa using hold⟩
        obtain ⟨r, hr, heq⟩ := List.mem_map.1 (hrows.symm.subset (List.mem_map_of_mem hs'))
        refine ⟨r, by rw [hsamples]; exact List.mem_append_right _ hr, ?_⟩
        have hkey : r.unnumbered.key
            = (reportRow entity (truncateMicrosecond received) 0 s).key := by rw [heq]
        exact hkey
      · simp only [IsNew, not_forall, not_not] at hold
        obtain ⟨r, hr, hkey⟩ := hold
        exact ⟨r, by rw [hsamples]; exact List.mem_append_left _ hr, hkey⟩
    obtain ⟨r, hr, hkey⟩ := hfind
    exact hnew r ((hstored s hs r hkey).2 hr) hkey
  rw [hnone, List.map_nil, List.perm_nil, List.map_eq_nil_iff] at hrows'
  subst hrows'
  rw [List.append_nil] at hsamples'
  set expired := expiredCount now' (truncateMicrosecond received') request.samples
  refine ⟨⟨0, request.samples.length - expired - 0, expired⟩, _,
    importMovement_ok_iff.2 ⟨entity, himport', rfl, rfl, ?_, rfl⟩, rfl, hsamples', hentities'⟩
  rw [hsamples', Nat.sub_self]
  rfl

/-! ### Another order -/

variable {samples' : List MovementSampleInput}

variable (received) in
theorem batchReports_perm (h : samples'.Perm request.samples) :
    (batchReports received samples').Perm (batchReports received request.samples) :=
  (h.filterMap _).map _

theorem Importable.perm (h : samples'.Perm request.samples)
    (himport : Importable db id request received entity) :
    Importable db id { request with samples := samples' } received entity := by
  have hmem : ∀ s ∈ batchReports received samples', s ∈ batchReports received request.samples :=
    fun s hs => (batchReports_perm received h).subset hs
  refine ⟨himport.instanceIs, ?_, fun s hs => himport.valid s (h.subset hs),
    fun p hp => himport.readable p ((h.filterMap _).subset hp),
    fun s hs s' hs' => himport.agree s (hmem s hs) s' (hmem s' hs'),
    fun s hs => himport.agreeStored s (hmem s hs)⟩
  rw [h.length_eq]
  exact himport.size

theorem importMovement_order (harrange : ∀ l, (arrange l).Perm l)
    {arrange' : List (String × MovementReport) → List (String × MovementReport)}
    (harrange' : ∀ l, (arrange' l).Perm l) (hperm : samples'.Perm request.samples)
    (h : importMovement arrange now db id request received = .ok (out, db')) :
    ∃ db'', importMovement arrange' now db id { request with samples := samples' } received
        = .ok (out, db'')
      ∧ (db''.samples.map MovementRow.unnumbered).Perm (db'.samples.map MovementRow.unnumbered)
      ∧ db''.entities = db'.entities := by
  obtain ⟨entity, himport, rfl, hexpired, hinserted, hduplicates⟩ := importMovement_ok_iff.1 h
  obtain ⟨rows, hsamples, hrows, hentities⟩ := insertFresh_spec now harrange himport
  have himport' := himport.perm hperm
  obtain ⟨rows', hsamples', hrows', hentities'⟩ :=
    insertFresh_spec now harrange' himport'
  have hreports := batchReports_perm (truncateMicrosecond received) hperm
  have hsame : (rows'.map MovementRow.unnumbered).Perm (rows.map MovementRow.unnumbered) :=
    hrows'.trans ((((hreports.dedup.filter _).filter _).map _).trans hrows.symm)
  have hlength : rows'.length = rows.length := by simpa using hsame.length_eq
  refine ⟨_, importMovement_ok_iff.2 ⟨entity, himport', rfl, ?_, ?_, ?_⟩, ?_, ?_⟩
  · rw [hexpired, expiredCount, expiredCount, hreports.countP_eq]
  · rw [hinserted, hsamples, hsamples', List.length_append, List.length_append, hlength]
  · rw [hduplicates, hperm.length_eq]
  · rw [hsamples, hsamples', List.map_append, List.map_append]
    exact hsame.append_left _
  · rw [hentities, hentities']

/-- Only which of several invalid samples is reported depends on the order. -/
theorem importMovement_error_order
    {arrange' : List (String × MovementReport) → List (String × MovementReport)}
    (hperm : samples'.Perm request.samples) {e : ActionError}
    (hvalid : ∀ s ∈ request.samples, ∃ p, prepareMovement (truncateMicrosecond received) s = .ok p)
    (h : importMovement arrange now db id request received = .error e) :
    importMovement arrange' now db id { request with samples := samples' } received
      = .error e := by
  have hsize : (samples'.length < 1 ∨ 500 < samples'.length)
      ↔ (request.samples.length < 1 ∨ 500 < request.samples.length) := by rw [hperm.length_eq]
  have hprepared := mapM_prepareMovement_iff.2 ⟨hvalid, rfl⟩
  have hprepared' := mapM_prepareMovement_iff.2
    ⟨fun s hs => hvalid s (hperm.subset hs), rfl⟩
  have hreadable : (preparedSamples (truncateMicrosecond received) samples').all
        MovementImportSample.readable
      = (preparedSamples (truncateMicrosecond received) request.samples).all
        MovementImportSample.readable := (hperm.filterMap _).all_eq
  have hconflicts : ∀ entity, movementConflicts db entity
        ((preparedSamples (truncateMicrosecond received) samples').map
          fun s => (s.sampleID, s.report)).dedup = true
      ↔ movementConflicts db entity
        ((preparedSamples (truncateMicrosecond received) request.samples).map
          fun s => (s.sampleID, s.report)).dedup = true := by
    intro entity
    have hmem : ∀ s, s ∈ batchReports (truncateMicrosecond received) samples'
        ↔ s ∈ batchReports (truncateMicrosecond received) request.samples :=
      fun _ => (batchReports_perm _ hperm).mem_iff
    have hiff := movementConflicts_iff db entity
      (batchReports (truncateMicrosecond received) samples')
    simp only [hmem] at hiff
    exact not_iff_not.1 (hiff.trans (movementConflicts_iff db entity _).symm)
  unfold importMovement at h ⊢
  simp only at h ⊢
  rcases hcreated : parseMovementTimestamp request.entityCreatedAt with e' | created
  · rw [hcreated] at h
    exact h
  · simp only [hcreated] at h ⊢
    by_cases hbatch : request.samples.length < 1 ∨ 500 < request.samples.length
    · rw [if_pos hbatch] at h
      rw [if_pos (hsize.2 hbatch)]
      exact h
    · rw [if_neg hbatch, hprepared] at h
      rw [if_neg (mt hsize.1 hbatch), hprepared']
      rcases hentity : movementEntity db id created with e' | entity
      · simp only [hentity] at h ⊢
        exact h
      · simp only [hentity] at h ⊢
        rw [hreadable]
        by_cases hread : ¬(preparedSamples (truncateMicrosecond received) request.samples).all
            MovementImportSample.readable = true
        · rw [if_pos hread] at h ⊢
          exact h
        · rw [if_neg hread] at h ⊢
          split_ifs at h with hconflict
          · rw [if_pos ((hconflicts entity).2 hconflict)]
            exact h

/-- Of several invalid samples the first is reported. -/
theorem importMovement_invalid {created : ℤ}
    (hcreated : parseMovementTimestamp request.entityCreatedAt = .ok created)
    (hsize : 1 ≤ request.samples.length ∧ request.samples.length ≤ 500)
    (hinvalid : ¬∀ s ∈ request.samples, ∃ p,
      prepareMovement (truncateMicrosecond received) s = .ok p) :
    ∃ before s after e, request.samples = before ++ s :: after
      ∧ (∀ s' ∈ before, ∃ p, prepareMovement (truncateMicrosecond received) s' = .ok p)
      ∧ prepareMovement (truncateMicrosecond received) s = .error e
      ∧ importMovement arrange now db id request received = .error e := by
  rcases hprepared : request.samples.mapM (prepareMovement (truncateMicrosecond received))
    with e | prepared
  · obtain ⟨before, s, after, hsplit, hs, hbefore⟩ := mapM_except_error hprepared
    refine ⟨before, s, after, e, hsplit, hbefore, hs, ?_⟩
    unfold importMovement
    simp only [hcreated]
    rw [if_neg (by omega), hprepared]
  · exact absurd (mapM_prepareMovement_iff.1 hprepared).1 hinvalid

/-- An import succeeds if the samples, the Entity and what is stored agree. It then adds a row for
every report that is neither expired nor stored, and counts every sample once. The same batch later
adds nothing, and another order makes no difference but to which invalid sample is reported. -/
theorem importMovement_spec
    (arrange : List (String × MovementReport) → List (String × MovementReport))
    (harrange : ∀ l, (arrange l).Perm l) (now : ℤ) (db : MovementDB) (id : String)
    (request : MovementHistoryBatchRequest) (received : ℤ) :
    ((∃ out, importMovement arrange now db id request received = .ok out)
        ↔ ∃ entity, Importable db id request (truncateMicrosecond received) entity)
      ∧ (∀ out db', importMovement arrange now db id request received = .ok (out, db') →
        ∃ entity, Importable db id request (truncateMicrosecond received) entity
          ∧ ∃ rows, db'.samples = db.samples ++ rows
            ∧ (rows.map MovementRow.unnumbered).Perm
              ((newReports now (truncateMicrosecond received) db entity request.samples).map
                (reportRow entity (truncateMicrosecond received) 0))
            ∧ db'.entities = db.entities
            ∧ out.inserted = rows.length
            ∧ out.expired = expiredCount now (truncateMicrosecond received) request.samples
            ∧ out.inserted + out.duplicates + out.expired = request.samples.length
            ∧ 0 ≤ out.inserted ∧ 0 ≤ out.duplicates ∧ 0 ≤ out.expired)
      ∧ (∀ out db₁, importMovement arrange now db id request received = .ok (out, db₁) →
        ∀ arrange' : List (String × MovementReport) → List (String × MovementReport),
          (∀ l, (arrange' l).Perm l) → ∀ now' received' db₂, now ≤ now' → received ≤ received' →
            (received' = received
              ∨ movementLowerBound (now - movementRetention) ≤ truncateMicrosecond received) →
            (∀ created, movementEntity db₂ id created = movementEntity db id created) →
            Retained id request db₁ db₂ →
              ∃ out' db₃, importMovement arrange' now' db₂ id request received' = .ok (out', db₃)
                ∧ out'.inserted = 0 ∧ db₃.samples = db₂.samples ∧ db₃.entities = db₂.entities)
      ∧ (∀ arrange' : List (String × MovementReport) → List (String × MovementReport),
        (∀ l, (arrange' l).Perm l) → ∀ samples' : List MovementSampleInput,
          samples'.Perm request.samples →
            (∀ out db', importMovement arrange now db id request received = .ok (out, db') →
              ∃ db'', importMovement arrange' now db id { request with samples := samples' }
                  received = .ok (out, db'')
                ∧ (db''.samples.map MovementRow.unnumbered).Perm
                  (db'.samples.map MovementRow.unnumbered)
                ∧ db''.entities = db'.entities)
            ∧ ∀ e, importMovement arrange now db id request received = .error e →
              (∀ s ∈ request.samples, ∃ p,
                prepareMovement (truncateMicrosecond received) s = .ok p) →
                importMovement arrange' now db id { request with samples := samples' } received
                  = .error e)
      ∧ ∀ created, parseMovementTimestamp request.entityCreatedAt = .ok created →
        1 ≤ request.samples.length ∧ request.samples.length ≤ 500 →
          (¬∀ s ∈ request.samples, ∃ p,
            prepareMovement (truncateMicrosecond received) s = .ok p) →
            ∃ before s after e, request.samples = before ++ s :: after
              ∧ (∀ s' ∈ before, ∃ p, prepareMovement (truncateMicrosecond received) s' = .ok p)
              ∧ prepareMovement (truncateMicrosecond received) s = .error e
              ∧ importMovement arrange now db id request received = .error e := by
  refine ⟨⟨?_, ?_⟩, fun out db' h => importMovement_rows harrange h, ?_, ?_,
    fun created hcreated hsize hinvalid => importMovement_invalid hcreated hsize hinvalid⟩
  · rintro ⟨⟨out, db'⟩, h⟩
    obtain ⟨entity, himport, -⟩ := importMovement_ok_iff.1 h
    exact ⟨entity, himport⟩
  · rintro ⟨entity, himport⟩
    set db' := insertAll entity (truncateMicrosecond received) db
      (arrange (freshReports now (truncateMicrosecond received) request.samples))
    set inserted := db'.samples.length - db.samples.length
    set expired := expiredCount now (truncateMicrosecond received) request.samples
    exact ⟨⟨⟨inserted, request.samples.length - expired - inserted, expired⟩, db'⟩,
      importMovement_ok_iff.2 ⟨entity, himport, rfl, rfl, rfl, rfl⟩⟩
  · intro out db₁ h arrange' harrange' now' received' db₂ hnow hreceived harrival hentity hretained
    exact importMovement_again harrange h harrange' hnow hreceived harrival hentity hretained
  · intro arrange' harrange' samples' hperm
    exact ⟨fun out db' h => importMovement_order harrange harrange' hperm h,
      fun e h hvalid => importMovement_error_order hperm hvalid h⟩

/-- A report, the same again and one that is older than the history: a second import adds none. -/
theorem importMovement_spec_twice :
    let db : MovementDB := ⟨[⟨"a1", "asset", 63902822400000000000⟩], [], 1⟩
    let request : MovementHistoryBatchRequest := ⟨"2026-01-01T00:00:00Z",
      [⟨"s1", some "2026-01-01T12:00:00Z", none, none, some (.finite 3), none⟩,
        ⟨"s1", some "2026-01-01T12:00:00.0Z", none, none, some (.finite 3), none⟩,
        ⟨"s2", some "2025-11-01T12:00:00Z", none, none, some (.finite 3), none⟩]⟩
    ∃ db₁, importMovement (fun l => l) 63902908800000000000 db "a1" request 63902908800000000000
        = .ok (⟨1, 1, 1⟩, db₁)
      ∧ ∃ out db₂, importMovement (fun l => l) 63902908800000000000 db₁ "a1" request
          63902908800000000000 = .ok (out, db₂) ∧ out.inserted = 0 := by
  intro db request
  have h : ∃ db₁, importMovement (fun l => l) 63902908800000000000 db "a1" request
      63902908800000000000 = .ok (⟨1, 1, 1⟩, db₁) ∧ db₁.entities = db.entities :=
    ⟨⟨db.entities, [⟨1, "a1", 63902822400000000000, "s1", 63902908800000000000,
      63902865600000000000, ⟨some 63902865600000000000, none, none, some 3, none⟩⟩], 2⟩,
      by decide +kernel, rfl⟩
  obtain ⟨db₁, h, hentities⟩ := h
  refine ⟨db₁, h, ?_⟩
  obtain ⟨out, db₂, hagain, hnone, -⟩ := (importMovement_spec (fun l => l) (fun l => .refl l)
    63902908800000000000 db "a1" request 63902908800000000000).2.2.1 _ db₁ h (fun l => l)
    (fun l => .refl l) 63902908800000000000 63902908800000000000 db₁ le_rfl le_rfl (.inl rfl)
    (fun created => by unfold movementEntity; rw [hentities]) (fun _ _ _ _ _ _ => Iff.rfl)
  exact ⟨out, db₂, hagain, hnone⟩

/-- Two samples that are invalid in different ways. -/
theorem importMovement_order_reported :
    let db : MovementDB := ⟨[⟨"a1", "asset", 63902822400000000000⟩], [], 1⟩
    let slow : MovementSampleInput := ⟨"s1", none, none, none, some (.finite (-3)), none⟩
    let empty : MovementSampleInput := ⟨"s2", none, none, none, none, none⟩
    importMovement (fun l => l) 63902908800000000000 db "a1"
        ⟨"2026-01-01T00:00:00Z", [slow, empty]⟩ 63902908800000000000
      ≠ importMovement (fun l => l) 63902908800000000000 db "a1"
        ⟨"2026-01-01T00:00:00Z", [empty, slow]⟩ 63902908800000000000 := by
  decide +kernel

end Import

end Atlas.Core
