import Atlas.Proofs.MovementPaging

/-!
# Simplifying a trail

The points of a trail are some of the positions in their order, and each gap is between two of them
(`TrailInv`, of the positions read so far). Without gaps a bucket gives one point, and there are
about half as many buckets as points to spend; only with two of them and two positions at the end of
the interval there is one point too many (`Crowded`).
-/

namespace Atlas.Core

/-! ## The points -/

section Points

/-- More than a minute apart. -/
def Gap (a b : MovementRow) : Prop := movementMinute < b.sampleTime - a.sampleTime

instance : DecidableRel Gap := fun _ _ => inferInstanceAs (Decidable (_ < _))

/-- What the points are, of the positions so far. -/
structure TrailInv (done : List MovementRow) (points : List MovementTrailPoint) : Prop where
  sub : (points.map (·.sample)).Sublist done
  first : (points.map (·.sample)).head? = done.head?
  gaps : ∀ a b, [a, b] <:+: done → Gap a b → ∃ g, [⟨a, g⟩, ⟨b, true⟩] <:+: points
  only : ∀ p ∈ points, p.gapBefore = true → ∃ a g, [a, p.sample] <:+: done ∧ Gap a p.sample
    ∧ [⟨a, g⟩, p] <:+: points

variable {done : List MovementRow} {points : List MovementTrailPoint} {p x : MovementRow}
  {gap : Bool}

theorem pair_infix_concat {α : Type} {a b p x : α} {init : List α} :
    [a, b] <:+: init ++ [p] ++ [x] ↔ [a, b] <:+: init ++ [p] ∨ a = p ∧ b = x := by
  rw [List.infix_concat_iff, or_comm]
  refine or_congr_right ⟨?_, ?_⟩
  · rintro ⟨before, h⟩
    rw [List.append_assoc] at h
    simpa using List.append_inj_right' h rfl
  · rintro ⟨rfl, rfl⟩
    exact ⟨init, by simp⟩

theorem head?_concat {α : Type} (init : List α) (p x : α) :
    (init ++ [p] ++ [x]).head? = (init ++ [p]).head? := by
  cases init <;> rfl

/-- A position other than the last point is added. -/
theorem appendPoint_new (h : ∀ q, points.getLast? = some q → q.sample.sampleID ≠ x.sampleID) :
    appendPoint points x gap = points ++ [⟨x, gap⟩] := by
  unfold appendPoint
  rw [if_pos]
  rcases hlast : points.getLast? with _ | q
  · rfl
  · simpa using h q hlast

theorem appendPoint_last {q : MovementTrailPoint} (h : points.getLast? = some q)
    (hid : q.sample.sampleID = x.sampleID) : appendPoint points x gap = points := by
  unfold appendPoint
  rw [if_neg]
  simp [h, hid]

theorem TrailInv.mem (h : TrailInv done points) {q : MovementTrailPoint} (hq : q ∈ points) :
    q.sample ∈ done := h.sub.subset (List.mem_map_of_mem hq)

theorem TrailInv.points_ne {init : List MovementRow} (h : TrailInv (init ++ [p]) points) :
    points ≠ [] := by
  rintro rfl
  have := h.first
  simp [List.head?_append] at this

/-- The position goes by. -/
theorem TrailInv.skip {init : List MovementRow} (h : TrailInv (init ++ [p]) points)
    (hgap : ¬Gap p x) : TrailInv (init ++ [p] ++ [x]) points := by
  refine ⟨h.sub.trans (List.sublist_append_left _ _), h.first.trans (head?_concat init p x).symm,
    ?_, ?_⟩
  · intro a b hab hgap'
    rcases pair_infix_concat.1 hab with hab | ⟨rfl, rfl⟩
    · exact h.gaps a b hab hgap'
    · exact absurd hgap' hgap
  · intro q hq hbefore
    obtain ⟨a, g, hab, hrest⟩ := h.only q hq hbefore
    exact ⟨a, g, pair_infix_concat.2 (.inl hab), hrest⟩

/-- A point more, the position after the one that the last point may be. -/
theorem TrailInv.concat {init : List MovementRow} (h : TrailInv (init ++ [p]) points)
    (hgap : Gap p x → gap = true ∧ ∃ pts g, points = pts ++ [⟨p, g⟩]) (hno : gap = true → Gap p x) :
    TrailInv (init ++ [p] ++ [x]) (points ++ [⟨x, gap⟩]) := by
  refine ⟨?_, ?_, ?_, ?_⟩
  · rw [List.map_append]
    exact h.sub.append (List.Sublist.refl _)
  · rw [head?_concat, ← h.first, List.map_append,
      List.head?_append_of_ne_nil _ (by simpa using h.points_ne)]
  · intro a b hab hgap'
    rcases pair_infix_concat.1 hab with hab | ⟨rfl, rfl⟩
    · obtain ⟨g, hin⟩ := h.gaps a b hab hgap'
      exact ⟨g, hin.trans (List.prefix_append _ _).isInfix⟩
    · obtain ⟨rfl, pts, g, rfl⟩ := hgap hgap'
      exact ⟨g, pts, [], by simp⟩
  · rw [List.forall_mem_append, List.forall_mem_singleton]
    constructor
    · intro q hq hbefore
      obtain ⟨a, g, hab, hgap', hin⟩ := h.only q hq hbefore
      exact ⟨a, g, pair_infix_concat.2 (.inl hab), hgap',
        hin.trans (List.prefix_append _ _).isInfix⟩
    · intro hbefore
      have hpx := hno hbefore
      obtain ⟨-, pts, g, rfl⟩ := hgap hpx
      exact ⟨p, g, pair_infix_concat.2 (.inr ⟨rfl, rfl⟩), hpx, pts, [], by simp⟩

/-- The position before is made a point, if it is none. -/
theorem TrailInv.ensure {init : List MovementRow} (h : TrailInv (init ++ [p]) points)
    (hids : ((init ++ [p]).map (·.sampleID)).Nodup) :
    TrailInv (init ++ [p]) (appendPoint points p false)
      ∧ ∃ pts g, appendPoint points p false = pts ++ [⟨p, g⟩] := by
  obtain ⟨pts, ⟨r, g⟩, rfl⟩ := (List.eq_nil_or_concat' points).resolve_left h.points_ne
  have hlast : (pts ++ [(⟨r, g⟩ : MovementTrailPoint)]).getLast? = some ⟨r, g⟩ := by simp
  have hr : r ∈ init ++ [p] :=
    h.mem (q := ⟨r, g⟩) (List.mem_append_right _ (List.mem_singleton_self _))
  by_cases hid : r.sampleID = p.sampleID
  · obtain rfl : r = p := List.inj_on_of_nodup_map hids hr (by simp) hid
    rw [appendPoint_last hlast hid]
    exact ⟨h, pts, g, rfl⟩
  · have hnew : appendPoint (pts ++ [⟨r, g⟩]) p false = pts ++ [⟨r, g⟩] ++ [⟨p, false⟩] := by
      refine appendPoint_new fun q hq => ?_
      rw [hlast, Option.some.injEq] at hq
      rwa [← hq]
    have hsub : ((pts ++ [(⟨r, g⟩ : MovementTrailPoint)]).map (·.sample)).Sublist init := by
      obtain ⟨l₁, l₂, heq, h₁, h₂⟩ := List.sublist_append_iff.1 h.sub
      rcases List.sublist_singleton.1 h₂ with rfl | rfl
      · rw [heq, List.append_nil]
        exact h₁
      · rw [List.map_append] at heq
        have := List.append_inj_right' heq rfl
        simp only [List.map_cons, List.map_nil, List.cons.injEq, and_true] at this
        exact absurd (congrArg MovementRow.sampleID this) hid
    rw [hnew]
    refine ⟨⟨?_, ?_, ?_, ?_⟩, _, _, rfl⟩
    · rw [List.map_append]
      exact hsub.append (List.Sublist.refl _)
    · rw [← h.first, List.map_append, List.head?_append_of_ne_nil _ (by simp)]
    · intro a b hab hgap
      obtain ⟨g', hin⟩ := h.gaps a b hab hgap
      exact ⟨g', hin.trans (List.prefix_append _ _).isInfix⟩
    · rw [List.forall_mem_append, List.forall_mem_singleton]
      refine ⟨fun q hq hbefore => ?_, fun hbefore => by cases hbefore⟩
      obtain ⟨a, g', hab, hgap, hin⟩ := h.only q hq hbefore
      exact ⟨a, g', hab, hgap, hin.trans (List.prefix_append _ _).isInfix⟩

end Points

/-! ## The scan -/

section Scan

variable {fromTime bucketWidth maxPoints : ℤ}

def bucketOf (fromTime bucketWidth : ℤ) (r : MovementRow) : ℤ :=
  (r.sampleTime - fromTime).tdiv bucketWidth

/-- The scan after the positions `done`. -/
structure ScanInv (fromTime bucketWidth : ℤ) (done : List MovementRow) (scan : TrailScan) :
    Prop where
  trail : TrailInv done scan.points
  count : scan.positionCount = done.length
  budget : scan.positionCount ≤ movementScanBudget
  previous : scan.previous = done.getLast?
  time : scan.previousTime = done.getLast?.elim 0 (·.sampleTime)
  bucket : scan.lastBucket = done.getLast?.elim (-1) (bucketOf fromTime bucketWidth)

theorem ScanInv.start : ScanInv fromTime bucketWidth [] ⟨[], 0, none, 0, -1⟩ := by
  refine ⟨⟨by simp, rfl, fun a b h => ?_, by simp⟩, rfl, Nat.zero_le _, rfl, rfl, rfl⟩
  simp at h

/-- What the list of positions is like. -/
structure Positions (fromTime : ℤ) (rows : List MovementRow) : Prop where
  ids : (rows.map (·.sampleID)).Nodup
  sorted : rows.Pairwise fun r s => r.sampleTime ≤ s.sampleTime
  within : ∀ r ∈ rows, fromTime ≤ r.sampleTime ∧ r.sampleTime ≠ 0

theorem Positions.take {rows rest : List MovementRow} (h : Positions fromTime (rows ++ rest)) :
    Positions fromTime rows := by
  have hsub := List.sublist_append_left rows rest
  exact ⟨h.ids.sublist (hsub.map _), h.sorted.sublist hsub,
    fun r hr => h.within r (List.mem_append_left _ hr)⟩

/-- The points after a position, but for the budgets. -/
def nextPoints (fromTime bucketWidth : ℤ) (scan : TrailScan) (x : MovementRow) :
    List MovementTrailPoint :=
  if ¬isZero scan.previousTime ∧ movementMinute < x.sampleTime - scan.previousTime then
    appendPoint (scan.previous.elim scan.points fun p => appendPoint scan.points p false) x true
  else if bucketOf fromTime bucketWidth x ≠ scan.lastBucket then appendPoint scan.points x false
  else scan.points

theorem trailStep_ok_iff {scan scan' : TrailScan} {x : MovementRow} :
    trailStep fromTime bucketWidth maxPoints scan x = .ok scan'
      ↔ scan.positionCount + 1 ≤ movementScanBudget
        ∧ (nextPoints fromTime bucketWidth scan x).length ≤ maxPoints
        ∧ scan' = ⟨nextPoints fromTime bucketWidth scan x, scan.positionCount + 1, some x,
          x.sampleTime, bucketOf fromTime bucketWidth x⟩ := by
  have hpoints : (if ¬isZero scan.previousTime
        ∧ movementMinute < x.sampleTime - scan.previousTime then
      appendPoint (scan.previous.elim scan.points fun p => appendPoint scan.points p false) x true
    else if (x.sampleTime - fromTime).tdiv bucketWidth ≠ scan.lastBucket then
      appendPoint scan.points x false
    else scan.points) = nextPoints fromTime bucketWidth scan x := rfl
  unfold trailStep
  simp only [hpoints]
  split_ifs with hscan hbudget
  · simp only [false_iff, not_and]
    omega
  · simp only [false_iff, not_and]
    omega
  · rw [Except.ok.injEq]
    exact ⟨fun h => ⟨by omega, by omega, h.symm⟩, fun h => h.2.2.symm⟩

/-- The points after one more position. -/
theorem ScanInv.points {done : List MovementRow} {scan : TrailScan}
    (h : ScanInv fromTime bucketWidth done scan) (hwidth : 0 < bucketWidth) {x : MovementRow}
    (hpositions : Positions fromTime (done ++ [x])) :
    TrailInv (done ++ [x]) (nextPoints fromTime bucketWidth scan x) := by
  have hdone := hpositions.take
  have hnew : ∀ {points gap}, TrailInv done points →
      appendPoint points x gap = points ++ [⟨x, gap⟩] := by
    intro points gap htrail
    refine appendPoint_new fun q hq heq => ?_
    have hids := hpositions.ids
    rw [List.map_append, List.nodup_append] at hids
    exact hids.2.2 _ (List.mem_map_of_mem (htrail.mem (List.mem_of_getLast? hq))) _ (by simp) heq
  unfold nextPoints
  rcases List.eq_nil_or_concat' done with rfl | ⟨init, p, rfl⟩
  · have htime : scan.previousTime = 0 := h.time
    have hbucket : scan.lastBucket = -1 := h.bucket
    have hnone : scan.points = [] := by simpa using h.trail.sub
    have hx : 0 ≤ bucketOf fromTime bucketWidth x :=
      Int.tdiv_nonneg (by have := (hpositions.within x (by simp)).1; omega) hwidth.le
    rw [if_neg (fun hgap => hgap.1 htime), if_pos (by omega), hnew h.trail, hnone]
    refine ⟨by simp, rfl, fun a b hab => ?_, by simp⟩
    obtain ⟨before, after, hab⟩ := hab
    have hlength := congrArg List.length hab
    simp only [List.length_append, List.length_cons, List.length_nil] at hlength
    omega
  · have htime : scan.previousTime = p.sampleTime := by simpa using h.time
    have hprevious : scan.previous = some p := by simpa using h.previous
    have hzero : ¬isZero p.sampleTime := (hdone.within p (by simp)).2
    have hiff : (¬isZero scan.previousTime ∧ movementMinute < x.sampleTime - scan.previousTime)
        ↔ Gap p x := by
      rw [htime]
      exact and_iff_right hzero
    rw [hprevious, Option.elim_some]
    split_ifs with hgap hbucket
    · obtain ⟨htrail, pts, g, heq⟩ := h.trail.ensure hdone.ids
      rw [hnew htrail]
      exact htrail.concat (fun _ => ⟨rfl, pts, g, heq⟩) fun _ => hiff.1 hgap
    · rw [hnew h.trail]
      exact h.trail.concat (fun hpx => absurd (hiff.2 hpx) hgap) (fun hfalse => by cases hfalse)
    · exact h.trail.skip fun hpx => hgap (hiff.2 hpx)

theorem ScanInv.step {done : List MovementRow} {scan scan' : TrailScan}
    (h : ScanInv fromTime bucketWidth done scan) (hwidth : 0 < bucketWidth) {x : MovementRow}
    (hpositions : Positions fromTime (done ++ [x]))
    (hstep : trailStep fromTime bucketWidth maxPoints scan x = .ok scan') :
    ScanInv fromTime bucketWidth (done ++ [x]) scan' := by
  obtain ⟨hcount, -, rfl⟩ := trailStep_ok_iff.1 hstep
  exact ⟨h.points hwidth hpositions, by simp [h.count], hcount, by simp, by simp, by simp⟩

theorem ScanInv.run (hwidth : 0 < bucketWidth) : ∀ {rest done : List MovementRow}
    {scan scan' : TrailScan}, ScanInv fromTime bucketWidth done scan →
      Positions fromTime (done ++ rest) →
        rest.foldlM (trailStep fromTime bucketWidth maxPoints) scan = .ok scan' →
          ScanInv fromTime bucketWidth (done ++ rest) scan'
  | [], done, scan, scan', h, _, hrun => by
    obtain rfl : scan = scan' := by simpa [pure, Except.pure] using hrun
    rwa [List.append_nil]
  | x :: rest, done, scan, scan', h, hpositions, hrun => by
    rw [List.foldlM_cons] at hrun
    rcases hstep : trailStep fromTime bucketWidth maxPoints scan x with e | next
    · rw [hstep] at hrun
      cases hrun
    · rw [hstep] at hrun
      have hlist : done ++ x :: rest = done ++ [x] ++ rest := by simp
      rw [hlist] at hpositions ⊢
      exact ScanInv.run hwidth (h.step hwidth hpositions.take hstep) hpositions hrun

end Scan

/-! ## The trail -/

section Trail

variable {q : MovementQuery} {maxPoints cutoff : ℤ} {rows : List MovementRow} {t : MovementTrail}

/-- The width of a bucket. -/
def trailWidth (q : MovementQuery) (maxPoints : ℤ) : ℤ :=
  max microsecond ((q.toTime - q.fromTime).tdiv (max 1 (maxPoints.tdiv 2)))

theorem trailWidth_pos (q : MovementQuery) (maxPoints : ℤ) : 0 < trailWidth q maxPoints :=
  lt_of_lt_of_le (by decide) (le_max_left _ _)

/-- The points of the whole scan: the last position is one. -/
def finalPoints (scan : TrailScan) : List MovementTrailPoint :=
  if ¬isZero scan.previousTime then
    scan.previous.elim scan.points fun p => appendPoint scan.points p false
  else scan.points

theorem trailOf_eq : trailOf q maxPoints cutoff rows =
    match rows.foldlM (trailStep q.fromTime (trailWidth q maxPoints) maxPoints)
      ⟨[], 0, none, 0, -1⟩ with
    | .error e => .error e
    | .ok scan =>
      if maxPoints < (finalPoints scan).length then
        .error (movementValidation "history exceeds the point budget; choose a shorter interval")
      else .ok ⟨q.entityCreatedAt, q.fromTime, q.toTime, cutoff, finalPoints scan,
        scan.positionCount, (finalPoints scan).length < scan.positionCount⟩ := by
  have hwidth : (if (q.toTime - q.fromTime).tdiv (max 1 (maxPoints.tdiv 2)) < microsecond then
      microsecond else (q.toTime - q.fromTime).tdiv (max 1 (maxPoints.tdiv 2)))
      = trailWidth q maxPoints := by
    unfold trailWidth
    split_ifs <;> omega
  unfold trailOf
  simp only [hwidth]
  rfl

theorem trailOf_ok_iff : trailOf q maxPoints cutoff rows = .ok t ↔ ∃ scan,
    rows.foldlM (trailStep q.fromTime (trailWidth q maxPoints) maxPoints) ⟨[], 0, none, 0, -1⟩
      = .ok scan
    ∧ (finalPoints scan).length ≤ maxPoints
    ∧ t = ⟨q.entityCreatedAt, q.fromTime, q.toTime, cutoff, finalPoints scan, scan.positionCount,
      (finalPoints scan).length < scan.positionCount⟩ := by
  rw [trailOf_eq]
  rcases rows.foldlM (trailStep q.fromTime (trailWidth q maxPoints) maxPoints)
    ⟨[], 0, none, 0, -1⟩ with e | scan
  · simp
  · simp only
    split_ifs with hbudget
    · constructor
      · intro h
        cases h
      · rintro ⟨_, heq, hle, -⟩
        cases heq
        omega
    · rw [Except.ok.injEq]
      constructor
      · rintro rfl
        exact ⟨scan, rfl, by omega, rfl⟩
      · rintro ⟨_, heq, -, rfl⟩
        cases heq
        rfl

/-- What the points of an answer are. -/
structure Faithful (rows : List MovementRow) (t : MovementTrail) : Prop where
  sub : (t.points.map (·.sample)).Sublist rows
  nodup : (t.points.map (·.sample)).Nodup
  first : (t.points.map (·.sample)).head? = rows.head?
  last : (t.points.map (·.sample)).getLast? = rows.getLast?
  gaps : ∀ a b, [a, b] <:+: rows → Gap a b → ∃ g, [⟨a, g⟩, ⟨b, true⟩] <:+: t.points
  only : ∀ p ∈ t.points, p.gapBefore = true → ∃ a g, [a, p.sample] <:+: rows ∧ Gap a p.sample
    ∧ [⟨a, g⟩, p] <:+: t.points
  simplified : t.simplified = true ↔ ∃ r ∈ rows, r ∉ t.points.map (·.sample)

theorem ScanInv.final {scan : TrailScan} {fromTime bucketWidth : ℤ}
    (h : ScanInv fromTime bucketWidth rows scan) (hpositions : Positions fromTime rows) :
    TrailInv rows (finalPoints scan)
      ∧ ((finalPoints scan).map (·.sample)).getLast? = rows.getLast? := by
  unfold finalPoints
  rcases List.eq_nil_or_concat' rows with rfl | ⟨init, p, rfl⟩
  · have htime : scan.previousTime = 0 := h.time
    have hnone : scan.points = [] := by simpa using h.trail.sub
    have hzero : isZero scan.previousTime := htime
    rw [if_neg (not_not.2 hzero), hnone]
    exact ⟨hnone ▸ h.trail, rfl⟩
  · have htime : scan.previousTime = p.sampleTime := by simpa using h.time
    have hprevious : scan.previous = some p := by simpa using h.previous
    have hzero : ¬isZero p.sampleTime := (hpositions.within p (by simp)).2
    rw [htime, hprevious, if_pos hzero, Option.elim_some]
    obtain ⟨htrail, pts, g, heq⟩ := h.trail.ensure hpositions.ids
    refine ⟨htrail, ?_⟩
    rw [heq]
    simp

theorem trailOf_faithful (hpositions : Positions q.fromTime rows)
    (h : trailOf q maxPoints cutoff rows = .ok t) : Faithful rows t := by
  obtain ⟨scan, hscan, -, rfl⟩ := trailOf_ok_iff.1 h
  have hinv := ScanInv.run (trailWidth_pos q maxPoints) .start
    (by rwa [List.nil_append]) hscan
  rw [List.nil_append] at hinv
  obtain ⟨htrail, hlast⟩ := hinv.final hpositions
  have hnodup : rows.Nodup := List.Nodup.of_map _ hpositions.ids
  refine ⟨htrail.sub, hnodup.sublist htrail.sub, htrail.first, hlast, htrail.gaps, htrail.only, ?_⟩
  simp only [decide_eq_true_eq, hinv.count]
  rw [← List.length_map (·.sample)]
  constructor
  · intro hlt
    by_contra hall
    push Not at hall
    exact absurd (hnodup.subperm hall).length_le (not_le.2 hlt)
  · rintro ⟨r, hr, hnot⟩
    refine lt_of_le_of_ne htrail.sub.length_le fun heq => hnot ?_
    rwa [htrail.sub.eq_of_length heq]

end Trail

/-! ## The budget -/

section Budget

variable {q : MovementQuery} {maxPoints cutoff : ℤ} {rows done : List MovementRow}
  {scan : TrailScan} {fromTime bucketWidth : ℤ} {x : MovementRow}

def NoGaps (rows : List MovementRow) : Prop := ∀ a b, [a, b] <:+: rows → ¬Gap a b

theorem bucketOf_eq {r : MovementRow} (h : fromTime ≤ r.sampleTime) :
    bucketOf fromTime bucketWidth r = (r.sampleTime - fromTime) / bucketWidth :=
  Int.tdiv_eq_ediv_of_nonneg (by omega)

theorem bucketOf_mono (hwidth : 0 < bucketWidth) {r s : MovementRow}
    (hr : fromTime ≤ r.sampleTime) (hrs : r.sampleTime ≤ s.sampleTime) :
    bucketOf fromTime bucketWidth r ≤ bucketOf fromTime bucketWidth s := by
  rw [bucketOf_eq hr, bucketOf_eq (hr.trans hrs)]
  exact Int.ediv_le_ediv hwidth (by omega)

/-- Without gaps every point is the first of its bucket: so is the last one, and there are no more
points than buckets. -/
structure BucketInv (fromTime bucketWidth : ℤ) (done : List MovementRow) (scan : TrailScan) :
    Prop where
  length : (scan.points.length : ℤ) ≤ scan.lastBucket + 1
  last : done ≠ [] → ∃ pre p post pts, done = pre ++ p :: post ∧ scan.points = pts ++ [⟨p, false⟩]
    ∧ (∀ r ∈ p :: post, bucketOf fromTime bucketWidth r = scan.lastBucket)
    ∧ (∀ r ∈ pre, bucketOf fromTime bucketWidth r < scan.lastBucket) ∧ (pre = [] ↔ pts = [])

theorem BucketInv.step (h : BucketInv fromTime bucketWidth done scan)
    (hscan : ScanInv fromTime bucketWidth done scan) (hwidth : 0 < bucketWidth)
    (hpositions : Positions fromTime (done ++ [x])) (hgaps : NoGaps (done ++ [x])) :
    BucketInv fromTime bucketWidth (done ++ [x])
        ⟨nextPoints fromTime bucketWidth scan x, scan.positionCount + 1, some x, x.sampleTime,
          bucketOf fromTime bucketWidth x⟩
      ∧ (nextPoints fromTime bucketWidth scan x).length ≤ bucketOf fromTime bucketWidth x + 1 := by
  have hx := hpositions.within x (by simp)
  have hlast : scan.lastBucket ≤ bucketOf fromTime bucketWidth x
      ∧ ∀ r ∈ done, bucketOf fromTime bucketWidth r ≤ bucketOf fromTime bucketWidth x := by
    have hall : ∀ r ∈ done, bucketOf fromTime bucketWidth r ≤ bucketOf fromTime bucketWidth x :=
      fun r hr => bucketOf_mono hwidth (hpositions.within r (List.mem_append_left _ hr)).1
        ((List.pairwise_append.1 hpositions.sorted).2.2 r hr x (List.mem_singleton_self x))
    refine ⟨?_, hall⟩
    rcases List.eq_nil_or_concat' done with rfl | ⟨init, p, rfl⟩
    · have hbucket : scan.lastBucket = -1 := hscan.bucket
      have := Int.tdiv_nonneg (by omega : 0 ≤ x.sampleTime - fromTime) hwidth.le
      unfold bucketOf
      omega
    · have hbucket : scan.lastBucket = bucketOf fromTime bucketWidth p := by
        simpa using hscan.bucket
      rw [hbucket]
      exact hall p (by simp)
  have hno : ¬(¬isZero scan.previousTime ∧ movementMinute < x.sampleTime - scan.previousTime) := by
    rintro ⟨hzero, hgap⟩
    rcases List.eq_nil_or_concat' done with rfl | ⟨init, p, rfl⟩
    · exact hzero hscan.time
    · have htime : scan.previousTime = p.sampleTime := by simpa using hscan.time
      rw [htime] at hgap
      exact hgaps p x (pair_infix_concat.2 (.inr ⟨rfl, rfl⟩)) hgap
  have hnew : appendPoint scan.points x false = scan.points ++ [⟨x, false⟩] := by
    refine appendPoint_new fun q hq heq => ?_
    have hids := hpositions.ids
    rw [List.map_append, List.nodup_append] at hids
    exact hids.2.2 _ (List.mem_map_of_mem (hscan.trail.mem (List.mem_of_getLast? hq))) _ (by simp)
      heq
  have hlength := h.length
  unfold nextPoints
  rw [if_neg hno, hnew]
  split_ifs with hbucket
  · have hlt : scan.lastBucket < bucketOf fromTime bucketWidth x :=
      lt_of_le_of_ne hlast.1 (Ne.symm hbucket)
    have hle : ((scan.points ++ [(⟨x, false⟩ : MovementTrailPoint)]).length : ℤ)
        ≤ bucketOf fromTime bucketWidth x + 1 := by
      rw [List.length_append, List.length_singleton]
      omega
    refine ⟨⟨hle, fun _ => ⟨done, x, [], scan.points, rfl, rfl, by simp, fun r hr => ?_, ?_⟩⟩, hle⟩
    · have hne : done ≠ [] := List.ne_nil_of_mem hr
      obtain ⟨pre, p, post, pts, rfl, -, hsame, hbelow, -⟩ := h.last hne
      rcases List.mem_append.1 hr with hr | hr
      · exact (hbelow r hr).trans hlt
      · exact (hsame r hr).trans_lt hlt
    · constructor
      · rintro rfl
        simpa using hscan.trail.sub
      · intro hnil
        by_contra hne
        obtain ⟨pre, p, post, pts, -, hpoints, -⟩ := h.last hne
        simp [hnil] at hpoints
  · have heq : bucketOf fromTime bucketWidth x = scan.lastBucket := not_not.1 hbucket
    refine ⟨⟨by rw [heq]; exact hlength, fun _ => ?_⟩, by rw [heq]; exact hlength⟩
    have hne : done ≠ [] := by
      rintro rfl
      have hstart : scan.lastBucket = -1 := hscan.bucket
      have := Int.tdiv_nonneg (by omega : 0 ≤ x.sampleTime - fromTime) hwidth.le
      rw [hstart] at heq
      unfold bucketOf at heq
      omega
    obtain ⟨pre, p, post, pts, rfl, hpoints, hsame, hbelow, hnil⟩ := h.last hne
    refine ⟨pre, p, post ++ [x], pts, by simp, hpoints, ?_, ?_, hnil⟩
    · simp only [heq]
      rw [← List.cons_append, List.forall_mem_append, List.forall_mem_singleton]
      exact ⟨hsame, heq⟩
    · simpa only [heq] using hbelow

/-- The scan gets through. -/
theorem BucketInv.run (hwidth : 0 < bucketWidth) {last : ℤ} (hbudget : last + 1 ≤ maxPoints) :
    ∀ {rest done : List MovementRow} {scan : TrailScan}, ScanInv fromTime bucketWidth done scan →
      BucketInv fromTime bucketWidth done scan → Positions fromTime (done ++ rest) →
        NoGaps (done ++ rest) → (done ++ rest).length ≤ movementScanBudget →
          (∀ r ∈ rest, bucketOf fromTime bucketWidth r ≤ last) →
            ∃ scan', rest.foldlM (trailStep fromTime bucketWidth maxPoints) scan = .ok scan'
              ∧ ScanInv fromTime bucketWidth (done ++ rest) scan'
              ∧ BucketInv fromTime bucketWidth (done ++ rest) scan'
  | [], done, scan, hscan, h, _, _, _, _ => by
    rw [List.append_nil]
    exact ⟨scan, rfl, hscan, h⟩
  | x :: rest, done, scan, hscan, h, hpositions, hgaps, hlength, hlast => by
    have hlist : done ++ x :: rest = done ++ [x] ++ rest := by simp
    rw [hlist] at hpositions hgaps hlength ⊢
    have hfirst : NoGaps (done ++ [x]) :=
      fun a b hab => hgaps a b (hab.trans (List.prefix_append _ _).isInfix)
    obtain ⟨hnext, hpoints⟩ := h.step hscan hwidth hpositions.take hfirst
    obtain ⟨hx, hlast⟩ := List.forall_mem_cons.1 hlast
    have hcount : scan.positionCount + 1 ≤ movementScanBudget := by
      simp only [List.length_append, List.length_singleton] at hlength
      rw [hscan.count]
      omega
    have hstep : trailStep fromTime bucketWidth maxPoints scan x
        = .ok ⟨nextPoints fromTime bucketWidth scan x, scan.positionCount + 1, some x,
          x.sampleTime, bucketOf fromTime bucketWidth x⟩ :=
      trailStep_ok_iff.2 ⟨hcount, by omega, rfl⟩
    obtain ⟨scan', hrun, hscan', hbucket'⟩ := BucketInv.run hwidth hbudget
      (hscan.step hwidth hpositions.take hstep) hnext hpositions hgaps hlength hlast
    refine ⟨scan', ?_, hscan', hbucket'⟩
    rw [List.foldlM_cons, hstep]
    exact hrun

/-- There are at most two fewer buckets than points to spend, if there are more than two points. -/
theorem buckets_le (hle : q.fromTime ≤ q.toTime) (hmax : 2 ≤ maxPoints) :
    (q.toTime - q.fromTime) / trailWidth q maxPoints + 1 ≤ maxPoints
      ∧ (maxPoints ≠ 2 → (q.toTime - q.fromTime) / trailWidth q maxPoints + 2 ≤ maxPoints)
      ∧ (q.toTime - q.fromTime < microsecond → (q.toTime - q.fromTime) / trailWidth q maxPoints = 0)
      ∧ (maxPoints = 2 → microsecond ≤ q.toTime - q.fromTime →
        trailWidth q maxPoints = q.toTime - q.fromTime) := by
  obtain ⟨length, hlength⟩ : ∃ length, q.toTime - q.fromTime = length := ⟨_, rfl⟩
  obtain ⟨n, hn⟩ : ∃ n, maxPoints.tdiv 2 = n := ⟨_, rfl⟩
  rw [Int.tdiv_eq_ediv_of_nonneg (by omega)] at hn
  have hwidth : trailWidth q maxPoints = max microsecond (length / n) := by
    rw [trailWidth, hlength, Int.tdiv_eq_ediv_of_nonneg (by omega : 0 ≤ maxPoints), hn,
      max_eq_right (by omega : 1 ≤ n), Int.tdiv_eq_ediv_of_nonneg (by omega)]
  obtain ⟨width, hwidth'⟩ : ∃ width, max microsecond (length / n) = width := ⟨_, rfl⟩
  rw [hwidth, hlength, hwidth']
  have hpos : 1000 ≤ width := by
    rw [← hwidth']
    exact le_max_left _ _
  have hdiv : length / n ≤ width := by
    rw [← hwidth']
    exact le_max_right _ _
  have hlt : length < n * (width + 1) := by
    have hrest := Int.lt_mul_ediv_self_add (by omega : 0 < n) (x := length)
    have hmul := Int.mul_le_mul_of_nonneg_left hdiv (by omega : 0 ≤ n)
    linarith
  have hmany : maxPoints ≠ 2 → length / width + 2 ≤ maxPoints := by
    intro hne
    have hless : length < (maxPoints - 1) * width := by
      by_cases hone : n = 1
      · have hthree : maxPoints = 3 := by omega
        rw [hone] at hlt
        rw [hthree]
        linarith
      · have hpoints : 2 * n - 1 ≤ maxPoints - 1 := by omega
        have hmul := Int.mul_le_mul_of_nonneg_right hpoints (by omega : 0 ≤ width)
        have hshare := Int.mul_le_mul_of_nonneg_left hpos (by omega : 0 ≤ n - 1)
        have : n ≤ (n - 1) * 1000 := by omega
        linarith
    have := Int.ediv_lt_of_lt_mul (by omega) hless
    omega
  refine ⟨?_, hmany, fun hshort => ?_, fun htwo hlong => ?_⟩
  · by_cases htwo : maxPoints = 2
    · obtain rfl : n = 1 := by omega
      have := Int.ediv_lt_of_lt_mul (by omega) (by linarith : length < 2 * width)
      omega
    · have := hmany htwo
      omega
  · exact Int.ediv_eq_zero_of_lt (by omega) (by unfold microsecond at hshort; omega)
  · obtain rfl : n = 1 := by omega
    rw [← hwidth', Int.ediv_one]
    exact max_eq_right hlong

/-- Two points to spend, a position before the end of the interval and two at it. -/
def Crowded (q : MovementQuery) (maxPoints : ℤ) (rows : List MovementRow) : Prop :=
  maxPoints = 2 ∧ microsecond ≤ q.toTime - q.fromTime ∧ (∃ r ∈ rows, r.sampleTime < q.toTime)
    ∧ 2 ≤ rows.countP (·.sampleTime = q.toTime)

/-- The last position is a point more, but if it is the first one of its bucket. -/
theorem length_finalPoints {pre post : List MovementRow} {p : MovementRow}
    {pts : List MovementTrailPoint} (hscan : ScanInv fromTime bucketWidth (pre ++ p :: post) scan)
    (hpositions : Positions fromTime (pre ++ p :: post))
    (hpoints : scan.points = pts ++ [⟨p, false⟩]) :
    (finalPoints scan).length = pts.length + if post = [] then 1 else 2 := by
  have hlast : scan.points.getLast? = some ⟨p, false⟩ := by simp [hpoints]
  unfold finalPoints
  rcases List.eq_nil_or_concat' post with rfl | ⟨post, l, rfl⟩
  · have htime : scan.previousTime = p.sampleTime := by simpa using hscan.time
    have hprevious : scan.previous = some p := by simpa using hscan.previous
    have hzero : ¬isZero scan.previousTime := htime ▸ (hpositions.within p (by simp)).2
    rw [if_pos hzero, hprevious, Option.elim_some, appendPoint_last hlast rfl, if_pos rfl, hpoints,
      List.length_append, List.length_singleton]
  · have hlist : pre ++ p :: (post ++ [l]) = pre ++ p :: post ++ [l] := by simp
    rw [hlist] at hscan hpositions
    have hprevious := hscan.previous.trans List.getLast?_concat
    have htime : scan.previousTime = l.sampleTime :=
      hscan.time.trans (by rw [List.getLast?_concat]; rfl)
    have hzero : ¬isZero scan.previousTime := htime ▸ (hpositions.within l (by simp)).2
    have hnew : appendPoint scan.points l false = scan.points ++ [⟨l, false⟩] := by
      refine appendPoint_new fun r hr heq => ?_
      rw [hlast, Option.some.injEq] at hr
      rw [← hr] at heq
      have hids := hpositions.ids
      rw [List.map_append, List.nodup_append] at hids
      exact hids.2.2 _ (List.mem_map_of_mem (by simp)) _ (by simp) heq
    rw [if_pos hzero, hprevious, Option.elim_some, hnew, if_neg (by simp), hpoints]
    simp

/-- Of two points to spend the second is for the end of the interval. -/
theorem crowded_iff {pre post : List MovementRow} {p : MovementRow}
    {pts : List MovementTrailPoint} (hpositions : Positions q.fromTime (pre ++ p :: post))
    (hto : ∀ r ∈ pre ++ p :: post, r.sampleTime ≤ q.toTime)
    (hwidth : trailWidth q 2 = q.toTime - q.fromTime)
    (hwide : microsecond ≤ q.toTime - q.fromTime)
    (hsame : ∀ r ∈ p :: post, bucketOf q.fromTime (trailWidth q 2) r = scan.lastBucket)
    (hbelow : ∀ r ∈ pre, bucketOf q.fromTime (trailWidth q 2) r < scan.lastBucket)
    (hnil : pre = [] ↔ pts = []) (hlength : (pts.length : ℤ) + 1 ≤ scan.lastBucket + 1) :
    2 < (((pts.length + if post = [] then 1 else 2) : ℕ) : ℤ) ↔ Crowded q 2 (pre ++ p :: post) := by
  have hpos : 0 < q.toTime - q.fromTime := lt_of_lt_of_le (by decide) hwide
  rw [hwidth] at hsame hbelow
  have hbucket : ∀ r ∈ pre ++ p :: post,
      (r.sampleTime < q.toTime ∧ bucketOf q.fromTime (q.toTime - q.fromTime) r = 0)
        ∨ (r.sampleTime = q.toTime ∧ bucketOf q.fromTime (q.toTime - q.fromTime) r = 1) := by
    intro r hr
    have hfrom := (hpositions.within r hr).1
    rw [bucketOf_eq hfrom]
    rcases lt_or_eq_of_le (hto r hr) with hlt | heq
    · exact .inl ⟨hlt, Int.ediv_eq_zero_of_lt (by omega) (by omega)⟩
    · exact .inr ⟨heq, by rw [heq, Int.ediv_self hpos.ne']⟩
  have hp := hbucket p (by simp)
  rw [hsame p List.mem_cons_self] at hp
  constructor
  · intro hmany
    have hpost : post ≠ [] := by
      rintro rfl
      rw [if_pos rfl] at hmany
      omega
    rw [if_neg hpost] at hmany
    obtain ⟨r, hr⟩ : ∃ r, r ∈ pre :=
      List.exists_mem_of_ne_nil _ fun h => by simp [hnil.1 h] at hmany
    have hfirst := hbucket r (by simp [hr])
    have hlow := hbelow r hr
    refine ⟨rfl, hwide, ⟨r, by simp [hr], by omega⟩, ?_⟩
    have hend : (p :: post).countP (·.sampleTime = q.toTime) = (p :: post).length := by
      refine List.countP_eq_length.2 fun s hs => ?_
      have hs' := hbucket s (List.mem_append_right _ hs)
      rw [hsame s hs] at hs'
      simp only [decide_eq_true_eq]
      omega
    have := List.length_pos_of_ne_nil hpost
    rw [List.countP_append, hend, List.length_cons]
    omega
  · rintro ⟨-, -, ⟨r, hr, hrto⟩, htwo⟩
    have hend : ∃ s ∈ pre ++ p :: post, s.sampleTime = q.toTime := by
      have hcount : 0 < (pre ++ p :: post).countP (·.sampleTime = q.toTime) := by omega
      simpa using List.countP_pos_iff.1 hcount
    have hlast : scan.lastBucket = 1 := by
      obtain ⟨s, hs, hsto⟩ := hend
      have hs' := hbucket s hs
      rcases List.mem_append.1 hs with hs | hs
      · have := hbelow s hs
        omega
      · have := hsame s hs
        omega
    have hpre : pre.countP (·.sampleTime = q.toTime) = 0 := by
      refine List.countP_eq_zero.2 fun s hs => ?_
      have hs' := hbucket s (List.mem_append_left _ hs)
      have := hbelow s hs
      simp only [decide_eq_true_eq]
      omega
    have hpost : post ≠ [] := by
      rintro rfl
      have hle := List.countP_le_length (l := [p]) (p := fun s => s.sampleTime = q.toTime)
      rw [List.countP_append, hpre, List.length_singleton] at *
      omega
    have hne : pts ≠ [] := by
      intro hpts
      rw [hnil.2 hpts, List.nil_append] at hr hbucket
      have := hsame r hr
      have := hbucket r hr
      omega
    have := List.length_pos_of_ne_nil hne
    rw [if_neg hpost]
    omega

theorem trailOf_budget (hpositions : Positions q.fromTime rows)
    (hto : ∀ r ∈ rows, r.sampleTime ≤ q.toTime) (hgaps : NoGaps rows)
    (hlength : rows.length ≤ movementScanBudget) (hle : q.fromTime ≤ q.toTime)
    (hmax : 2 ≤ maxPoints) : trailOf q maxPoints cutoff rows
      = .error (movementValidation "history exceeds the point budget; choose a shorter interval")
        ∧ Crowded q maxPoints rows
      ∨ (∃ t, trailOf q maxPoints cutoff rows = .ok t) ∧ ¬Crowded q maxPoints rows := by
  obtain ⟨hloop, hmany, hshort, hlong⟩ := buckets_le hle hmax
  have hwidth := trailWidth_pos q maxPoints
  have hbucket : ∀ r ∈ rows, bucketOf q.fromTime (trailWidth q maxPoints) r
      ≤ (q.toTime - q.fromTime) / trailWidth q maxPoints := by
    intro r hr
    rw [bucketOf_eq (hpositions.within r hr).1]
    exact Int.ediv_le_ediv hwidth (by have := hto r hr; omega)
  obtain ⟨scan, hrun, hscan, hinv⟩ := BucketInv.run hwidth hloop .start
    ⟨by simp, fun hne => absurd rfl hne⟩ (by rwa [List.nil_append]) (by rwa [List.nil_append])
    (by rwa [List.nil_append]) hbucket
  rw [List.nil_append] at hscan hinv
  have hiff : maxPoints < (finalPoints scan).length ↔ Crowded q maxPoints rows := by
    rcases eq_or_ne rows [] with rfl | hne
    · have hzero : isZero scan.previousTime := hscan.time
      have hnone : scan.points = [] := by simpa using hscan.trail.sub
      rw [finalPoints, if_neg (not_not.2 hzero), hnone]
      simp only [Crowded, List.length_nil, List.not_mem_nil, false_and, exists_false, and_false,
        iff_false]
      omega
    · obtain ⟨pre, p, post, pts, rfl, hpoints, hsame, hbelow, hnil⟩ := hinv.last hne
      have hlen := hinv.length
      rw [hpoints, List.length_append, List.length_singleton] at hlen
      have hlast := hbucket p (by simp)
      rw [hsame p List.mem_cons_self] at hlast
      rw [length_finalPoints hscan hpositions hpoints]
      by_cases htwo : maxPoints = 2 ∧ microsecond ≤ q.toTime - q.fromTime
      · obtain ⟨rfl, hwide⟩ := htwo
        exact crowded_iff hpositions hto (hlong rfl hwide) hwide hsame hbelow hnil hlen
      · have hnot : ¬Crowded q maxPoints (pre ++ p :: post) := fun h => htwo ⟨h.1, h.2.1⟩
        refine iff_of_false (not_lt.2 ?_) hnot
        by_cases hmore : maxPoints = 2
        · have := hshort (not_le.1 fun hwide => htwo ⟨hmore, hwide⟩)
          split_ifs <;> omega
        · have := hmany hmore
          split_ifs <;> omega
  rw [trailOf_eq, hrun]
  by_cases hcrowded : Crowded q maxPoints rows
  · exact .inl ⟨if_pos (hiff.2 hcrowded), hcrowded⟩
  · exact .inr ⟨⟨_, if_neg (hiff.not.2 hcrowded)⟩, hcrowded⟩

end Budget

end Atlas.Core
