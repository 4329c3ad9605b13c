import Atlas.Core.Movement
import Mathlib.Data.List.Sort

/-!
# Reading movement reports

The history of an Entity is read from the last report back, in pages under the highest sequence
number at the first page. A trail is the positions of an interval from the first one on: the first
of each bucket of time, the last one, and both ends of every gap.

Every answer is of one state of the database. The database compares in microseconds, and what it is
given as an upper bound is cut to them. A report in an answer is its row, with the sequence number
that the answer's text leaves out. A cursor is what its text decodes to, if it does.
-/

namespace Atlas.Core

structure MovementCursor where
  entityID : String
  created : ℤ
  fromTime : ℤ
  toTime : ℤ
  retainedFrom : ℤ
  upper : ℤ
  afterTime : ℤ
  afterSequence : ℤ
  deriving DecidableEq, Repr

structure MovementQuery where
  entityCreatedAt : ℤ
  fromTime : ℤ
  toTime : ℤ
  /-- No cursor, or what the text of the cursor decodes to. -/
  cursor : Option (Option MovementCursor)
  limit : ℤ
  maxPoints : ℤ
  deriving DecidableEq, Repr

/-- The zero time of Go is the first instant of the year 1. -/
def isZero (t : ℤ) : Prop := t = 0

instance : DecidablePred isZero := fun t => inferInstanceAs (Decidable (t = 0))

def validateMovementRange (now : ℤ) (q : MovementQuery) : Except ActionError Unit :=
  if isZero q.entityCreatedAt ∨ isZero q.fromTime ∨ isZero q.toTime ∨ q.toTime < q.fromTime
      ∨ movementRetention < q.toTime - q.fromTime ∨ now + movementClockSkew < q.toTime then
    .error (movementValidation ("movement range requires entity_created_at and ordered from/to "
      ++ "times spanning at most 30 days"))
  else .ok ()

/-- The reports of the Entity's record in the interval, as far as they are retained. -/
def movementWindow (db : MovementDB) (id : String) (q : MovementQuery) (cutoff : ℤ) :
    List MovementRow :=
  db.samples.filter fun r => r.entityID = id ∧ r.entityCreatedAt = q.entityCreatedAt
    ∧ movementLowerBound q.fromTime ≤ r.sampleTime ∧ r.sampleTime ≤ truncateMicrosecond q.toTime
    ∧ movementLowerBound cutoff ≤ r.sampleTime

/-- By time and sequence number. -/
def OldestFirst (r r' : MovementRow) : Prop :=
  r.sampleTime < r'.sampleTime ∨ r.sampleTime = r'.sampleTime ∧ r.sequence ≤ r'.sequence

def NewestFirst (r r' : MovementRow) : Prop := OldestFirst r' r

instance : DecidableRel OldestFirst := fun _ _ => by
  unfold OldestFirst
  infer_instance

instance : DecidableRel NewestFirst := fun r r' => inferInstanceAs (Decidable (OldestFirst r' r))

instance : Std.Total OldestFirst := ⟨fun r r' => by unfold OldestFirst; omega⟩

instance : IsTrans MovementRow OldestFirst := ⟨fun r r' r'' => by unfold OldestFirst; omega⟩

instance : Std.Total NewestFirst := ⟨fun r r' => by unfold NewestFirst OldestFirst; omega⟩

instance : IsTrans MovementRow NewestFirst :=
  ⟨fun r r' r'' => by unfold NewestFirst OldestFirst; omega⟩

/-! ## Pages -/

structure MovementHistoryPage where
  entityCreatedAt : ℤ
  fromTime : ℤ
  toTime : ℤ
  retainedFrom : ℤ
  retentionAdvanced : Bool
  snapshot : ℤ
  samples : List MovementRow
  nextCursor : Option MovementCursor
  deriving DecidableEq, Repr

def invalidMovementCursor : MovementError := .action (movementValidation "invalid movement cursor")

/-- The highest sequence number of the Entity's record. -/
def highestSequence (db : MovementDB) (id : String) (created : ℤ) : ℕ :=
  ((db.samples.filter fun r => r.entityID = id ∧ r.entityCreatedAt = created).map
    (·.sequence)).foldr max 0

/-- The cursor that a page starts from. -/
def movementStart (db : MovementDB) (id : String) (q : MovementQuery) (cutoff : ℤ) :
    Except MovementError MovementCursor :=
  match q.cursor with
  | none =>
    .ok ⟨id, q.entityCreatedAt, q.fromTime, q.toTime, cutoff,
      highestSequence db id q.entityCreatedAt, 0, 0⟩
  | some none => .error invalidMovementCursor
  | some (some c) =>
    if isZero c.retainedFrom ∨ isZero c.afterTime ∨ c.entityID ≠ id ∨ c.created ≠ q.entityCreatedAt
        ∨ c.fromTime ≠ q.fromTime ∨ c.toTime ≠ q.toTime ∨ c.upper < 1 ∨ c.afterSequence < 1
        ∨ c.upper < c.afterSequence ∨ c.afterTime < q.fromTime ∨ q.toTime < c.afterTime then
      .error invalidMovementCursor
    else if c.afterTime < cutoff then .error .cursorExpired
    else .ok c

/-- Up to `limit` of the rows, and the cursor after them if there are more. -/
def collectMovement (c : MovementCursor) :
    ℕ → List MovementRow → List MovementRow × Option MovementCursor
  | _, [] => ([], none)
  | 0, _ :: _ => ([], some c)
  | limit + 1, r :: rows =>
    let rest :=
      collectMovement { c with afterTime := r.sampleTime, afterSequence := r.sequence } limit rows
    (r :: rest.1, rest.2)

def movementHistory (now : ℤ) (db : MovementDB) (id : String) (q : MovementQuery) :
    Except MovementError MovementHistoryPage :=
  let id := trimSpace id
  match validateMovementRange now q with
  | .error e => .error (.action e)
  | .ok () =>
    let limit := if q.limit = 0 then 100 else q.limit
    if limit < 1 ∨ 500 < limit then
      .error (.action (movementValidation "movement limit must be 1 to 500"))
    else
      match movementEntity db id q.entityCreatedAt with
      | .error e => .error (.action e)
      | .ok _ =>
        let cutoff := now - movementRetention
        match movementStart db id q cutoff with
        | .error e => .error e
        | .ok c =>
          let rows := (movementWindow db id q cutoff).filter fun r => r.sequence ≤ c.upper
            ∧ (q.cursor = none ∨ r.sampleTime < c.afterTime
              ∨ r.sampleTime = c.afterTime ∧ (r.sequence : ℤ) < c.afterSequence)
          let rows := (rows.insertionSort NewestFirst).take (limit.toNat + 1)
          let collected := collectMovement c limit.toNat rows
          .ok ⟨q.entityCreatedAt, q.fromTime, q.toTime, cutoff,
            q.cursor ≠ none ∧ q.fromTime < cutoff ∧ c.retainedFrom < cutoff, c.upper,
            collected.1, collected.2⟩

/-! ## Trails -/

structure MovementTrailPoint where
  sample : MovementRow
  gapBefore : Bool
  deriving DecidableEq, Repr

structure MovementTrail where
  entityCreatedAt : ℤ
  fromTime : ℤ
  toTime : ℤ
  retainedFrom : ℤ
  points : List MovementTrailPoint
  positionCount : ℕ
  simplified : Bool
  deriving DecidableEq, Repr

def movementScanBudget : ℕ := 3000000

/-- The points so far, the position before this one and its bucket. -/
structure TrailScan where
  points : List MovementTrailPoint
  positionCount : ℕ
  previous : Option MovementRow
  previousTime : ℤ
  lastBucket : ℤ
  deriving DecidableEq, Repr

def appendPoint (points : List MovementTrailPoint) (s : MovementRow) (gap : Bool) :
    List MovementTrailPoint :=
  if points.getLast?.all fun p => p.sample.sampleID ≠ s.sampleID then points ++ [⟨s, gap⟩]
  else points

def trailStep (fromTime bucketWidth maxPoints : ℤ) (scan : TrailScan) (sample : MovementRow) :
    Except ActionError TrailScan :=
  if movementScanBudget < scan.positionCount + 1 then
    .error (movementValidation
      "history interval exceeds the scan budget; choose a shorter interval")
  else
    let t := sample.sampleTime
    let bucket := (t - fromTime).tdiv bucketWidth
    let gap := ¬isZero scan.previousTime ∧ movementMinute < t - scan.previousTime
    let points :=
      if gap then
        appendPoint (scan.previous.elim scan.points fun p => appendPoint scan.points p false)
          sample true
      else if bucket ≠ scan.lastBucket then appendPoint scan.points sample false
      else scan.points
    if maxPoints < points.length then
      .error (movementValidation
        "history has more gaps than the point budget; choose a shorter interval")
    else .ok ⟨points, scan.positionCount + 1, some sample, t, bucket⟩

/-- The answer for the positions that were read. -/
def trailOf (q : MovementQuery) (maxPoints cutoff : ℤ) (rows : List MovementRow) :
    Except ActionError MovementTrail :=
  let width := (q.toTime - q.fromTime).tdiv (max 1 (maxPoints.tdiv 2))
  let bucketWidth := if width < microsecond then microsecond else width
  match rows.foldlM (trailStep q.fromTime bucketWidth maxPoints) ⟨[], 0, none, 0, -1⟩ with
  | .error e => .error e
  | .ok scan =>
    let points :=
      if ¬isZero scan.previousTime then
        scan.previous.elim scan.points fun p => appendPoint scan.points p false
      else scan.points
    if maxPoints < points.length then
      .error (movementValidation "history exceeds the point budget; choose a shorter interval")
    else
      .ok ⟨q.entityCreatedAt, q.fromTime, q.toTime, cutoff, points, scan.positionCount,
        points.length < scan.positionCount⟩

def movementTrail (now : ℤ) (db : MovementDB) (id : String) (q : MovementQuery) :
    Except ActionError MovementTrail :=
  let id := trimSpace id
  match validateMovementRange now q with
  | .error e => .error e
  | .ok () =>
    let maxPoints := if q.maxPoints = 0 then 1000 else q.maxPoints
    if maxPoints < 2 ∨ 5000 < maxPoints then
      .error (movementValidation "max_points must be 2 to 5000")
    else
      match movementEntity db id q.entityCreatedAt with
      | .error e => .error e
      | .ok _ =>
        let cutoff := now - movementRetention
        let rows := (movementWindow db id q cutoff).filter fun r => r.report.latitude.isSome
        let rows := (rows.insertionSort OldestFirst).take (movementScanBudget + 1)
        trailOf q maxPoints cutoff rows

/-! ## What is sent -/

/-- A report, as the Protocol has it. -/
structure MovementSample where
  sampleID : String
  observedAt : Option String
  receivedAt : String
  time : String
  timeIsArrival : Bool
  latitude : Option ℚ
  longitude : Option ℚ
  speedMS : Option ℚ
  altitudeM : Option ℚ
  deriving DecidableEq, Repr

def scanMovement (r : MovementRow) : MovementSample :=
  ⟨r.sampleID, r.report.observedAt.map movementTime, movementTime r.receivedAt,
    movementTime r.sampleTime, r.report.observedAt.isNone, r.report.latitude, r.report.longitude,
    r.report.speedMS, r.report.altitudeM⟩

/-- A trail, as the Protocol has it. -/
structure MovementTrailResponse where
  entityCreatedAt : String
  fromTime : String
  toTime : String
  retainedFrom : String
  points : List (MovementSample × Bool)
  positionCount : ℕ
  simplified : Bool
  deriving DecidableEq, Repr

def MovementTrail.response (t : MovementTrail) : MovementTrailResponse :=
  ⟨movementTime t.entityCreatedAt, movementTime t.fromTime, movementTime t.toTime,
    movementTime t.retainedFrom, t.points.map fun p => (scanMovement p.sample, p.gapBefore),
    t.positionCount, t.simplified⟩

end Atlas.Core
