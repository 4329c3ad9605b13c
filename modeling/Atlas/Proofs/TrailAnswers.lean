import Atlas.Proofs.MovementInstants
import Atlas.Proofs.MovementTrail
import Atlas.Sdk.MovementTrail

/-!
# Answers with a trail

Of the times that have a year of four digits a client reads what Core has written, and then it finds
in an answer what it checks (`response_accepted`). An interval that begins before the year 0 ends
before the first report that is retained, and its answer has no points and a `from` that no client
reads.
-/

namespace Atlas.Core

section Answer

open Rfc3339 Sdk

variable {a b : String} {i j : ℤ}

theorem compare_eq (ha : parseMovementTimestamp a = .ok i) (hb : parseMovementTimestamp b = .ok j) :
    ∃ c, compareMovementInstants a b 0 = some c ∧ c.sign = (i - j).sign := by
  simpa using compareMovementInstants_parse ha hb 0

theorem same_of_parse (ha : parseMovementTimestamp a = .ok i)
    (hb : parseMovementTimestamp b = .ok i) : sameMovementInstant a b = true := by
  obtain ⟨c, hc, hsign⟩ := compare_eq ha hb
  rw [Int.sub_self, Int.sign_zero, Int.sign_eq_zero_iff_zero] at hsign
  rw [sameMovementInstant, hc, hsign]
  rfl

theorem compare_le (ha : parseMovementTimestamp a = .ok i) (hb : parseMovementTimestamp b = .ok j)
    (h : i ≤ j) : (compareMovementInstants a b 0).any (· ≤ 0) = true := by
  obtain ⟨c, hc, hsign⟩ := compare_eq ha hb
  have hle : c ≤ 0 := by
    by_contra hpos
    rw [Int.sign_eq_one_of_pos (not_le.1 hpos)] at hsign
    have := Int.sign_eq_one_iff_pos.1 hsign.symm
    omega
  simpa [hc] using hle

theorem compare_ge (ha : parseMovementTimestamp a = .ok i) (hb : parseMovementTimestamp b = .ok j)
    (h : j ≤ i) : (compareMovementInstants a b 0).any (0 ≤ ·) = true := by
  obtain ⟨c, hc, hsign⟩ := compare_eq ha hb
  have hle : 0 ≤ c := by
    by_contra hneg
    rw [Int.sign_eq_neg_one_of_neg (not_le.1 hneg)] at hsign
    have := Int.sign_eq_neg_one_iff_neg.1 hsign.symm
    omega
  simpa [hc] using hle

theorem compare_gap (ha : parseMovementTimestamp a = .ok i) (hb : parseMovementTimestamp b = .ok j)
    (h : movementMinute < i - j) : (compareMovementInstants a b 60000).any (0 < ·) = true := by
  obtain ⟨c, hc, hsign⟩ := compareMovementInstants_parse ha hb 1
  unfold movementMinute at h
  have hgap : 0 < i - (j + 1 * (60 * 10 ^ 9)) := by omega
  rw [Int.sign_eq_one_of_pos hgap, Int.sign_eq_one_iff_pos] at hsign
  rw [mul_one] at hc
  simpa [hc] using hsign

/-- What the table and the Protocol promise of a position. -/
structure Reportable (r : MovementRow) : Prop where
  sampleID : isNonEmptyString r.sampleID = true ∧ r.sampleID.length ≤ 128
  position : ∃ lat lon, r.report.latitude = some lat ∧ r.report.longitude = some lon
    ∧ -90 ≤ lat ∧ lat ≤ 90 ∧ -180 ≤ lon ∧ lon ≤ 180
  speed : ∀ v, r.report.speedMS = some v → 0 ≤ v
  time : r.sampleTime = r.report.observedAt.getD r.receivedAt
  arrival : Printable r.receivedAt

theorem scanMovement_accepted {r : MovementRow} (h : Reportable r) (ht : Printable r.sampleTime) :
    isMovementSample (scanMovement r) = true ∧ coherentMovementSample (scanMovement r) = true := by
  obtain ⟨lat, lon, hlat, hlon, hlat₁, hlat₂, hlon₁, hlon₂⟩ := h.position
  have htime := parseMovementTimestamp_movementTime ht
  have harrival := parseMovementTimestamp_movementTime h.arrival
  have htext := isRFC3339Timestamp_of_parse htime
  have htime' := h.time
  simp only [isMovementSample, coherentMovementSample, scanMovement, hlat, hlon, h.sampleID,
    isRFC3339Timestamp_of_parse harrival, htext]
  rcases hobserved : r.report.observedAt with _ | observed
  · rw [hobserved] at htime'
    have hsame : r.sampleTime = r.receivedAt := htime'
    simpa [hlat₁, hlat₂, hlon₁, hlon₂, Option.all_eq_true, hsame,
      same_of_parse harrival harrival] using h.speed
  · rw [hobserved] at htime'
    have hsame : r.sampleTime = observed := htime'
    rw [hsame] at htext htime
    simpa [hlat₁, hlat₂, hlon₁, hlon₂, Option.all_eq_true, hsame, htext,
      same_of_parse htime htime] using h.speed

theorem validTrailPoint_iff {query : MovementTrailQuery} {value : MovementTrailResponse}
    {before : Option (MovementSample × Bool)} {p : MovementSample × Bool} :
    validTrailPoint query value before p = true ↔
      coherentMovementSample p.1 = true ∧ p.1.latitude.isSome = true ∧ p.1.longitude.isSome = true
      ∧ (compareMovementInstants p.1.time value.retainedFrom 0).any (0 ≤ ·) = true
      ∧ (compareMovementInstants p.1.time query.fromTime 0).any (0 ≤ ·) = true
      ∧ (compareMovementInstants p.1.time query.toTime 0).any (· ≤ 0) = true
      ∧ (before.all fun b => (compareMovementInstants b.1.time p.1.time 0).any (· ≤ 0)) = true
      ∧ (p.2 = true →
        before.any fun b => (compareMovementInstants p.1.time b.1.time 60000).any (0 < ·)) := by
  unfold validTrailPoint
  rw [decide_eq_true_iff]

/-- An element of a list and the one before it. -/
theorem mem_zip_before {α : Type} {b : Option α} {p : α} : ∀ {l : List α} {first : Option α},
    (b, p) ∈ (first :: l.map some).zip l → p ∈ l
      ∧ (b = first ∧ l.head? = some p ∨ ∃ x, b = some x ∧ [x, p] <:+: l)
  | [], _, h => by simp at h
  | x :: l, first, h => by
    rw [List.map_cons, List.zip_cons_cons, List.mem_cons] at h
    rcases h with h | h
    · obtain ⟨rfl, rfl⟩ := Prod.mk.inj h
      exact ⟨List.mem_cons_self, .inl ⟨rfl, rfl⟩⟩
    · obtain ⟨hp, hbefore⟩ := mem_zip_before h
      refine ⟨List.mem_cons_of_mem _ hp, .inr ?_⟩
      rcases hbefore with ⟨rfl, hhead⟩ | ⟨y, rfl, hin⟩
      · obtain ⟨rest, rfl⟩ := List.head?_eq_some_iff.1 hhead
        exact ⟨x, rfl, [], rest, rfl⟩
      · exact ⟨y, rfl, List.infix_cons hin⟩

/-- In a list without repetition an element is after one other at most. -/
theorem infix_before_unique {α : Type} {l : List α} (h : l.Nodup) {x y p : α}
    (hx : [x, p] <:+: l) (hy : [y, p] <:+: l) : x = y := by
  obtain ⟨before, after, rfl⟩ := hx
  obtain ⟨before', after', heq⟩ := hy
  have hl : before ++ [x, p] ++ after = before ++ [x] ++ p :: after := by simp
  have hl' : before' ++ [y, p] ++ after' = before' ++ [y] ++ p :: after' := by simp
  rw [hl, List.nodup_append, List.nodup_cons] at h
  rw [hl, hl', eq_comm, List.append_cons_inj_of_notMem
    (fun hp => h.2.2 p hp p List.mem_cons_self rfl) h.2.1.1] at heq
  simpa using List.append_inj_right' heq.1 rfl

theorem head_not_after {α : Type} {l : List α} (h : l.Nodup) {x p : α} (hp : l.head? = some p) :
    ¬[x, p] <:+: l := by
  rintro ⟨before, after, rfl⟩
  have hl : before ++ [x, p] ++ after = before ++ [x] ++ p :: after := by simp
  rw [hl] at h hp
  have hmem : p ∈ before ++ [x] := by
    rw [List.head?_append_of_ne_nil _ (by simp)] at hp
    exact List.mem_of_head? hp
  exact (List.nodup_append.1 h).2.2 p hmem p List.mem_cons_self rfl

variable {query : MovementTrailQuery} {q : MovementQuery} {maxPoints cutoff : ℤ}
  {rows : List MovementRow} {t : MovementTrail}

/-- The query of a client, as Core reads it. -/
structure ReadsQuery (query : MovementTrailQuery) (q : MovementQuery) (maxPoints : ℤ) : Prop where
  created : parseMovementTimestamp query.entityCreatedAt = .ok q.entityCreatedAt
  fromTime : parseMovementTimestamp query.fromTime = .ok q.fromTime
  toTime : parseMovementTimestamp query.toTime = .ok q.toTime
  points : maxPoints = query.maxPoints.getD 1000

theorem trailPoint_accepted {value : MovementTrailResponse} {p : MovementTrailPoint}
    {b : Option MovementTrailPoint} (hreads : ReadsQuery query q maxPoints) (hcutoff : Printable cutoff)
    (hretained : value.retainedFrom = movementTime cutoff) (hp : Reportable p.sample)
    (ht : Printable p.sample.sampleTime)
    (hwithin : cutoff ≤ p.sample.sampleTime ∧ q.fromTime ≤ p.sample.sampleTime
      ∧ p.sample.sampleTime ≤ q.toTime)
    (hbefore : ∀ x, b = some x →
      Printable x.sample.sampleTime ∧ x.sample.sampleTime ≤ p.sample.sampleTime)
    (hgap : p.gapBefore = true → ∃ x, b = some x ∧ Gap x.sample p.sample) :
    validTrailPoint query value (b.map fun b => (scanMovement b.sample, b.gapBefore))
      (scanMovement p.sample, p.gapBefore) = true := by
  obtain ⟨lat, lon, hlat, hlon, -⟩ := hp.position
  have hparse : ∀ {x : MovementTrailPoint}, Printable x.sample.sampleTime →
      parseMovementTimestamp (scanMovement x.sample).time = .ok x.sample.sampleTime :=
    fun h => parseMovementTimestamp_movementTime h
  have hcut := parseMovementTimestamp_movementTime hcutoff
  rw [← hretained] at hcut
  refine validTrailPoint_iff.2 ⟨(scanMovement_accepted hp ht).2, ?_, ?_,
    compare_ge (hparse ht) hcut hwithin.1, compare_ge (hparse ht) hreads.fromTime hwithin.2.1,
    compare_le (hparse ht) hreads.toTime hwithin.2.2, ?_, fun hbefore' => ?_⟩
  · simp [scanMovement, hlat]
  · simp [scanMovement, hlon]
  · rcases b with _ | x
    · rfl
    · obtain ⟨hx, hle⟩ := hbefore x rfl
      have := compare_le (hparse hx) (hparse ht) hle
      simpa only [Option.map_some, Option.all_some] using this
  · obtain ⟨x, rfl, hlong⟩ := hgap hbefore'
    have := compare_gap (hparse ht) (hparse (hbefore x rfl).1) hlong
    simpa only [Option.map_some, Option.any_some] using this

/-- The client accepts an answer all times of which have a year of four digits. -/
theorem response_accepted (hreads : ReadsQuery query q maxPoints)
    (hcreated : Printable q.entityCreatedAt) (hfrom : Printable q.fromTime)
    (hto : Printable q.toTime) (hcutoff : Printable cutoff)
    (hpositions : Positions q.fromTime rows) (hreportable : ∀ r ∈ rows, Reportable r)
    (hwithin : ∀ r ∈ rows, r.sampleTime ≤ q.toTime ∧ cutoff ≤ r.sampleTime)
    (h : trailOf q maxPoints cutoff rows = .ok t) :
    movementTrailResponseValidator query t.response = true := by
  have hfaithful := trailOf_faithful hpositions h
  obtain ⟨scan, hscan, hbudget, rfl⟩ := trailOf_ok_iff.1 h
  have hinv := ScanInv.run (trailWidth_pos q maxPoints) .start (by rwa [List.nil_append]) hscan
  rw [List.nil_append] at hinv
  set points := finalPoints scan with hpoints
  have hrow : ∀ p ∈ points, p.sample ∈ rows :=
    fun p hp => hfaithful.sub.subset (List.mem_map_of_mem hp)
  have hprintable : ∀ r ∈ rows, Printable r.sampleTime := fun r hr =>
    ⟨hfrom.1.trans (hpositions.within r hr).1, (hwithin r hr).1.trans_lt hto.2⟩
  have hparse : ∀ p ∈ points,
      parseMovementTimestamp (scanMovement p.sample).time = .ok p.sample.sampleTime :=
    fun p hp => parseMovementTimestamp_movementTime (hprintable _ (hrow p hp))
  have hsafe : scan.positionCount ≤ maxSafeInteger := hinv.budget.trans (by decide)
  have hlength : points.length ≤ scan.positionCount := by
    rw [hinv.count, ← List.length_map (·.sample)]
    exact hfaithful.sub.length_le
  have hempty : scan.positionCount = 0 ↔ points.length = 0 := by
    have hfirst := hfaithful.first
    rw [hinv.count, List.length_eq_zero_iff, List.length_eq_zero_iff, ← List.head?_eq_none_iff,
      ← hfirst, List.head?_eq_none_iff, List.map_eq_nil_iff]
  have hpoint : ∀ b p, (b, p) ∈ (none :: points.map some).zip points →
      validTrailPoint query
        (MovementTrail.response ⟨q.entityCreatedAt, q.fromTime, q.toTime, cutoff, points,
          scan.positionCount, points.length < scan.positionCount⟩)
        (b.map fun b => (scanMovement b.sample, b.gapBefore))
        (scanMovement p.sample, p.gapBefore) = true := by
    intro b p hbp
    obtain ⟨hp, hbefore⟩ := mem_zip_before hbp
    have hr := hrow p hp
    have hnodup : points.Nodup := List.Nodup.of_map _ hfaithful.nodup
    have hsamples : (points.map (·.sample)).Pairwise fun r s => r.sampleTime ≤ s.sampleTime :=
      hpositions.sorted.sublist hfaithful.sub
    rw [List.pairwise_map] at hsamples
    refine trailPoint_accepted hreads hcutoff rfl (hreportable _ hr) (hprintable _ hr)
      ⟨(hwithin _ hr).2, (hpositions.within _ hr).1, (hwithin _ hr).1⟩ ?_ fun hgap => ?_
    · rcases hbefore with ⟨rfl, -⟩ | ⟨x, rfl, hin⟩
      · simp
      · have hx : x ∈ points := hin.subset List.mem_cons_self
        intro y hy
        obtain rfl : x = y := Option.some.inj hy
        have hpair := hsamples.sublist hin.sublist
        exact ⟨hprintable _ (hrow x hx),
          List.rel_of_pairwise_cons hpair (List.mem_singleton_self p)⟩
    · obtain ⟨a, g, -, hlong, hin⟩ := hfaithful.only p hp hgap
      rcases hbefore with ⟨rfl, hhead⟩ | ⟨x, rfl, hin'⟩
      · exact absurd hin (head_not_after hnodup hhead)
      · obtain rfl := infix_before_unique hnodup hin' hin
        exact ⟨_, rfl, hlong⟩
  have hwindow : movementWindowResponseValidator query
      (MovementTrail.response ⟨q.entityCreatedAt, q.fromTime, q.toTime, cutoff, points,
          scan.positionCount, points.length < scan.positionCount⟩) = true := by
    have htext : ∀ {t : ℤ}, Printable t → isRFC3339Timestamp (movementTime t) = true :=
      fun ht => isRFC3339Timestamp_of_parse (parseMovementTimestamp_movementTime ht)
    have hsamples : ∀ p ∈ points, isMovementSample (scanMovement p.sample) = true := fun p hp =>
      (scanMovement_accepted (hreportable _ (hrow p hp)) (hprintable _ (hrow p hp))).1
    simp only [movementWindowResponseValidator, isMovementTrail, MovementTrail.response,
      decide_eq_true_eq, List.all_map]
    refine ⟨⟨htext hcreated, htext hfrom, List.all_eq_true.2 hsamples, hsafe, htext hcutoff,
      htext hto⟩, ?_, ?_, ?_⟩
    · exact same_of_parse (parseMovementTimestamp_movementTime hcreated) hreads.created
    · exact same_of_parse (parseMovementTimestamp_movementTime hfrom) hreads.fromTime
    · exact same_of_parse (parseMovementTimestamp_movementTime hto) hreads.toTime
  simp only [movementTrailResponseValidator, decide_eq_true_eq]
  refine ⟨hwindow, hsafe, ?_, ?_, ?_, ?_, ?_⟩
  · simpa [MovementTrail.response] using hlength
  · simpa [MovementTrail.response] using hempty
  · rw [← hreads.points]
    simpa [MovementTrail.response] using hbudget
  · simp [MovementTrail.response]
  · have hzip : (none :: (points.map fun p => (scanMovement p.sample, p.gapBefore)).map some)
        = (none :: points.map some).map
          (Option.map fun p => (scanMovement p.sample, p.gapBefore)) := by
      simp
    simp only [MovementTrail.response] at hpoint ⊢
    rw [hzip, List.zip_map, List.all_map, List.all_eq_true]
    rintro ⟨b, p⟩ hbp
    exact hpoint b p hbp

end Answer

/-! ## Trails of the table -/

section Table

open Rfc3339 Sdk

variable {now : ℤ} {db : MovementDB} {id : String} {q : MovementQuery} {query : MovementTrailQuery}
  {t : MovementTrail}

/-- How many points are asked for. -/
def trailPoints (q : MovementQuery) : ℤ := if q.maxPoints = 0 then 1000 else q.maxPoints

/-- The positions of the interval, in their order. -/
def trailPositions (now : ℤ) (db : MovementDB) (id : String) (q : MovementQuery) :
    List MovementRow :=
  ((movementWindow db (trimSpace id) q (now - movementRetention)).filter fun r =>
    r.report.latitude.isSome).insertionSort OldestFirst

/-- A call that is about the positions of an interval. -/
structure TrailCall (now : ℤ) (db : MovementDB) (id : String) (q : MovementQuery)
    (query : MovementTrailQuery) : Prop where
  reads : ReadsQuery query q (trailPoints q)
  range : validateMovementRange now q = .ok ()
  budget : 2 ≤ trailPoints q ∧ trailPoints q ≤ 5000
  entity : ∃ e, movementEntity db (trimSpace id) q.entityCreatedAt = .ok e
  /-- The instants of the server have a year of four digits. -/
  clock : movementRetention < now ∧ Printable (now + movementClockSkew)
  created : ∀ e ∈ db.entities, Printable e.createdAt
  stored : Stored db
  unique : (db.samples.map (·.key)).Nodup
  reportable : ∀ r ∈ db.samples, r.report.latitude.isSome = true → Reportable r

/-- The points are too many. -/
def PointBudget (e : ActionError) : Prop :=
  e = movementValidation "history has more gaps than the point budget; choose a shorter interval"
    ∨ e = movementValidation "history exceeds the point budget; choose a shorter interval"

theorem movementTrail_eq (h : TrailCall now db id q query) : movementTrail now db id q
    = trailOf q (trailPoints q) (now - movementRetention)
      ((trailPositions now db id q).take (movementScanBudget + 1)) := by
  obtain ⟨e, he⟩ := h.entity
  have hnot : ¬(trailPoints q < 2 ∨ 5000 < trailPoints q) := by
    have := h.budget
    omega
  unfold movementTrail
  simp only [h.range, he]
  exact if_neg hnot

theorem lowerBound_le {value t : ℤ} (h : movementLowerBound value ≤ t) : value ≤ t := by
  simp only [movementLowerBound, truncateMicrosecond, microsecond] at h
  split_ifs at h <;> omega

theorem mem_trailPositions {r : MovementRow} (hr : r ∈ trailPositions now db id q) :
    r ∈ db.samples ∧ r.report.latitude.isSome = true ∧ r.entityID = trimSpace id
      ∧ r.entityCreatedAt = q.entityCreatedAt ∧ q.fromTime ≤ r.sampleTime
      ∧ r.sampleTime ≤ q.toTime ∧ now - movementRetention ≤ r.sampleTime := by
  rw [trailPositions, List.mem_insertionSort, List.mem_filter, movementWindow, List.mem_filter,
    decide_eq_true_eq] at hr
  obtain ⟨⟨hmem, hid, hcreated, hfrom, hto, hcutoff⟩, hlatitude⟩ := hr
  refine ⟨hmem, hlatitude, hid, hcreated, lowerBound_le hfrom, hto.trans ?_, lowerBound_le hcutoff⟩
  unfold truncateMicrosecond microsecond
  omega

/-- They are positions, in their order and with IDs of their own. -/
theorem TrailCall.positions (h : TrailCall now db id q query) :
    Positions q.fromTime (trailPositions now db id q) := by
  have hmem := fun r (hr : r ∈ trailPositions now db id q) => mem_trailPositions hr
  have hclock := h.clock.1
  refine ⟨?_, ?_, fun r hr => ⟨(hmem r hr).2.2.2.2.1, ?_⟩⟩
  · have hkeys : ((trailPositions now db id q).map (·.key)).Nodup := by
      refine (List.Perm.map _ (List.perm_insertionSort _ _)).nodup_iff.2 (h.unique.sublist ?_)
      exact (List.filter_sublist.trans List.filter_sublist).map _
    have hnodup := List.Nodup.of_map _ hkeys
    refine hnodup.map_on fun r hr s hs heq => List.inj_on_of_nodup_map hkeys hr hs ?_
    obtain ⟨-, -, hid, hcreated, -⟩ := hmem r hr
    obtain ⟨-, -, hid', hcreated', -⟩ := hmem s hs
    simp only [MovementRow.key, hid, hid', hcreated, hcreated', heq]
  · refine (List.pairwise_insertionSort OldestFirst _).imp fun {r s} hrs => ?_
    unfold OldestFirst at hrs
    omega
  · have := (hmem r hr).2.2.2.2.2.2
    omega

/-- An answer reads no more positions than the budget of the scan. -/
theorem trailOf_scanned {maxPoints cutoff : ℤ} {rows : List MovementRow}
    (hpositions : Positions q.fromTime rows) (h : trailOf q maxPoints cutoff rows = .ok t) :
    rows.length ≤ movementScanBudget := by
  obtain ⟨scan, hscan, -⟩ := trailOf_ok_iff.1 h
  have hinv := ScanInv.run (trailWidth_pos q maxPoints) .start (by rwa [List.nil_append]) hscan
  rw [List.nil_append] at hinv
  exact hinv.count ▸ hinv.budget

theorem TrailCall.answer (h : TrailCall now db id q query)
    (ht : movementTrail now db id q = .ok t) :
    trailOf q (trailPoints q) (now - movementRetention) (trailPositions now db id q) = .ok t := by
  rw [movementTrail_eq h] at ht
  have hpositions := h.positions
  rw [← List.take_append_drop (movementScanBudget + 1) (trailPositions now db id q)] at hpositions
  have hlength := trailOf_scanned hpositions.take ht
  rw [List.length_take] at hlength
  rwa [List.take_of_length_le (by omega)] at ht

theorem movementEntity_mem {created : ℤ} {entity : MovementEntity}
    (h : movementEntity db id created = .ok entity) :
    entity ∈ db.entities ∧ entity.createdAt = created := by
  refine ⟨?_, (movementEntity_key h).2⟩
  unfold movementEntity at h
  split at h
  · cases h
  · split at h
    · cases h
    · rename_i e hfind
      split_ifs at h
      cases h
      exact List.mem_of_find?_eq_some hfind

theorem TrailCall.bounds (h : TrailCall now db id q query) : q.fromTime ≤ q.toTime
    ∧ q.toTime - q.fromTime ≤ movementRetention ∧ q.toTime ≤ now + movementClockSkew := by
  have hrange := h.range
  unfold validateMovementRange at hrange
  split_ifs at hrange with hnot
  omega

/-- An interval that begins before the year 0 has no position that is retained. -/
theorem TrailCall.early (h : TrailCall now db id q query) (hearly : ¬Printable q.fromTime) :
    trailPositions now db id q = []
      ∧ q.fromTime < daysBeforeYear 0 * (86400 * 10 ^ 9) := by
  obtain ⟨hle, hspan, hskew⟩ := h.bounds
  have hclock := h.clock.2.2
  have hnow := h.clock.1
  have hlt : q.fromTime < daysBeforeYear 0 * (86400 * 10 ^ 9) := by
    by_contra hge
    exact hearly ⟨not_lt.1 hge, by omega⟩
  refine ⟨List.eq_nil_iff_forall_not_mem.2 fun r hr => ?_, hlt⟩
  obtain ⟨-, -, -, -, -, hto, hcutoff⟩ := mem_trailPositions hr
  have hzero : daysBeforeYear 0 = -366 := by decide
  rw [hzero] at hlt
  unfold movementRetention movementMinute at *
  omega

/-- What is claimed of a call: of its answer, and of its refusal. -/
structure TrailKept (now : ℤ) (db : MovementDB) (id : String) (q : MovementQuery)
    (query : MovementTrailQuery) : Prop where
  faithful : ∀ t, movementTrail now db id q = .ok t → Faithful (trailPositions now db id q) t
  accepted : ∀ t, movementTrail now db id q = .ok t →
    movementTrailResponseValidator query t.response = true
  budget : NoGaps (trailPositions now db id q) →
    (trailPositions now db id q).length ≤ movementScanBudget →
      ∀ e, movementTrail now db id q = .error e → ¬PointBudget e

theorem TrailCall.accepted (h : TrailCall now db id q query) (hfrom : Printable q.fromTime)
    (ht : movementTrail now db id q = .ok t) :
    movementTrailResponseValidator query t.response = true := by
  obtain ⟨e, he⟩ := h.entity
  obtain ⟨he, hcreated⟩ := movementEntity_mem he
  obtain ⟨hle, -, hskew⟩ := h.bounds
  obtain ⟨hnow, hclock⟩ := h.clock
  have hto : Printable q.toTime := ⟨hfrom.1.trans hle, hskew.trans_lt hclock.2⟩
  have hcutoff : Printable (now - movementRetention) := by
    have hzero : daysBeforeYear 0 = -366 := by decide
    refine ⟨?_, lt_of_le_of_lt ?_ hclock.2⟩
    · rw [hzero]
      omega
    · unfold movementRetention movementClockSkew movementMinute
      omega
  have hmem := fun r (hr : r ∈ trailPositions now db id q) => mem_trailPositions hr
  exact response_accepted h.reads (hcreated ▸ h.created e he) hfrom hto hcutoff h.positions
    (fun r hr => h.reportable r (hmem r hr).1 (hmem r hr).2.1)
    (fun r hr => ⟨(hmem r hr).2.2.2.2.2.1, (hmem r hr).2.2.2.2.2.2⟩) (h.answer ht)

/-- Of an interval that begins before the year 0 the answer is read by no client. -/
theorem TrailCall.refused (h : TrailCall now db id q query) (hearly : ¬Printable q.fromTime) :
    ∃ t, movementTrail now db id q = .ok t
      ∧ movementTrailResponseValidator query t.response = false := by
  obtain ⟨hnil, hlt⟩ := h.early hearly
  have hmax : ¬trailPoints q < 0 := by
    have := h.budget
    omega
  refine ⟨⟨q.entityCreatedAt, q.fromTime, q.toTime, now - movementRetention, [], 0, false⟩, ?_, ?_⟩
  · rw [movementTrail_eq h, hnil, List.take_nil, trailOf_eq]
    exact if_neg hmax
  · have hnot : ∀ value : MovementTrailResponse, value.fromTime = movementTime q.fromTime →
        movementTrailResponseValidator query value = false := by
      intro value hvalue
      simp only [movementTrailResponseValidator, movementWindowResponseValidator, isMovementTrail,
        hvalue, movementTime_early hlt, Bool.false_eq_true, false_and, and_false, decide_false]
    exact hnot _ rfl

/-- Without gaps a call is refused for its points only if the end of the interval is crowded. -/
theorem TrailCall.point_budget (h : TrailCall now db id q query)
    (hgaps : NoGaps (trailPositions now db id q))
    (hlength : (trailPositions now db id q).length ≤ movementScanBudget) :
    movementTrail now db id q
        = .error (movementValidation "history exceeds the point budget; choose a shorter interval")
        ∧ Crowded q (trailPoints q) (trailPositions now db id q)
      ∨ (∃ t, movementTrail now db id q = .ok t)
        ∧ ¬Crowded q (trailPoints q) (trailPositions now db id q) := by
  rw [movementTrail_eq h, List.take_of_length_le (by omega)]
  exact trailOf_budget h.positions (fun r hr => (mem_trailPositions hr).2.2.2.2.2.1) hgaps hlength
    h.bounds.1 h.budget.1

/-- A trail is what is claimed of it if the interval does not begin before the year 0, and if there
are not two points to spend on positions of which two are at the end of the interval. -/
theorem movementTrail_kept_iff (h : TrailCall now db id q query) :
    TrailKept now db id q query ↔ Printable q.fromTime
      ∧ ¬(NoGaps (trailPositions now db id q)
        ∧ (trailPositions now db id q).length ≤ movementScanBudget
        ∧ Crowded q (trailPoints q) (trailPositions now db id q)) := by
  constructor
  · intro hkept
    constructor
    · by_contra hearly
      obtain ⟨t, ht, hnot⟩ := h.refused hearly
      rw [hkept.accepted t ht] at hnot
      cases hnot
    · rintro ⟨hgaps, hlength, hcrowded⟩
      rcases h.point_budget hgaps hlength with ⟨herror, -⟩ | ⟨-, hnot⟩
      · exact hkept.budget hgaps hlength _ herror (.inr rfl)
      · exact hnot hcrowded
  · rintro ⟨hfrom, hnot⟩
    refine ⟨fun t ht => trailOf_faithful h.positions (h.answer ht), fun t ht => h.accepted hfrom ht,
      fun hgaps hlength e he => ?_⟩
    rcases h.point_budget hgaps hlength with ⟨-, hcrowded⟩ | ⟨⟨t, ht⟩, -⟩
    · exact absurd ⟨hgaps, hlength, hcrowded⟩ hnot
    · rw [ht] at he
      cases he

/-! ## Two positions at the end -/

theorem noGaps_of_isChain {rows : List MovementRow} (h : rows.IsChain fun a b => ¬Gap a b) :
    NoGaps rows := fun a b hab => by simpa using h.infix hab

/-- An Asset at noon, and a minute later twice. -/
def lastTwo : MovementDB :=
  let report : MovementReport := ⟨none, some 1, some 2, none, none⟩
  let row (sequence : ℕ) (sampleID : String) (t : ℤ) : MovementRow :=
    ⟨sequence, "a1", 63902822400000000000, sampleID, t, t, report⟩
  ⟨[⟨"a1", "asset", 63902822400000000000⟩],
    [row 1 "s1" 63902865600000000000, row 2 "s2" 63902865660000000000,
      row 3 "s3" 63902865660000000000], 4⟩

def lastMinute (maxPoints : ℤ) : MovementQuery :=
  ⟨63902822400000000000, 63902865600000000000, 63902865660000000000, none, 0, maxPoints⟩

theorem lastTwo_positions (maxPoints : ℤ) :
    trailPositions 63902865660000000000 lastTwo "a1" (lastMinute maxPoints) = lastTwo.samples := by
  rfl

theorem lastTwo_call {maxPoints : ℤ} (hmin : 2 ≤ maxPoints) (hmax : maxPoints ≤ 5000) :
    TrailCall 63902865660000000000 lastTwo "a1" (lastMinute maxPoints)
      ⟨"2026-01-01T00:00:00Z", "2026-01-01T12:00:00Z", "2026-01-01T12:01:00Z", some maxPoints⟩ := by
  have hpoints : trailPoints (lastMinute maxPoints) = maxPoints :=
    if_neg (by simp only [lastMinute]; omega)
  have hreportable : ∀ r ∈ lastTwo.samples, Reportable r := by
    intro r hr
    fin_cases hr <;>
      exact ⟨by decide +kernel, ⟨1, 2, rfl, rfl, by decide⟩, (fun v hv => by cases hv), rfl,
        by decide +kernel⟩
  have hcreated : parseMovementTimestamp "2026-01-01T00:00:00Z" = .ok 63902822400000000000 := by
    decide +kernel
  have hfrom : parseMovementTimestamp "2026-01-01T12:00:00Z" = .ok 63902865600000000000 := by
    decide +kernel
  have hto : parseMovementTimestamp "2026-01-01T12:01:00Z" = .ok 63902865660000000000 := by
    decide +kernel
  have hentity : movementEntity lastTwo (trimSpace "a1") 63902822400000000000
      = .ok ⟨"a1", "asset", 63902822400000000000⟩ := by
    decide +kernel
  refine ⟨⟨hcreated, hfrom, hto, hpoints⟩, by rfl, ?_, ⟨_, hentity⟩, by decide +kernel,
    by decide +kernel, ⟨by decide, by decide, by decide, by decide⟩, by decide +kernel,
    fun r hr _ => hreportable r hr⟩
  rw [hpoints]
  exact ⟨hmin, hmax⟩

/-- With two points to spend the call is refused. -/
theorem movementTrail_lastTwo_refused :
    ∃ query, TrailCall 63902865660000000000 lastTwo "a1" (lastMinute 2) query
      ∧ NoGaps (trailPositions 63902865660000000000 lastTwo "a1" (lastMinute 2))
      ∧ (trailPositions 63902865660000000000 lastTwo "a1" (lastMinute 2)).length = 3
      ∧ movementTrail 63902865660000000000 lastTwo "a1" (lastMinute 2)
        = .error (movementValidation "history exceeds the point budget; choose a shorter interval")
      ∧ ¬TrailKept 63902865660000000000 lastTwo "a1" (lastMinute 2) query := by
  have hgaps : NoGaps (trailPositions 63902865660000000000 lastTwo "a1" (lastMinute 2)) :=
    noGaps_of_isChain (by rw [lastTwo_positions]; decide)
  have herror : movementTrail 63902865660000000000 lastTwo "a1" (lastMinute 2) = .error
      (movementValidation "history exceeds the point budget; choose a shorter interval") := by
    decide +kernel
  have hlength : (trailPositions 63902865660000000000 lastTwo "a1" (lastMinute 2)).length = 3 := by
    rw [lastTwo_positions]
    rfl
  refine ⟨_, lastTwo_call (by decide) (by decide), hgaps, hlength, herror, fun hkept => ?_⟩
  exact hkept.budget hgaps (by rw [hlength]; decide) _ herror (.inr rfl)

/-- With three points it is answered. -/
theorem movementTrail_kept_iff_three :
    TrailKept 63902865660000000000 lastTwo "a1" (lastMinute 3) ⟨"2026-01-01T00:00:00Z",
      "2026-01-01T12:00:00Z", "2026-01-01T12:01:00Z", some 3⟩ := by
  refine (movementTrail_kept_iff (lastTwo_call (by decide) (by decide))).2
    ⟨by decide +kernel, fun h => ?_⟩
  have hthree : trailPoints (lastMinute 3) = 2 := h.2.2.1
  cases hthree

end Table

end Atlas.Core
