import Atlas.Core.MovementTime

/-!
# Movement reports

An Entity's movement reports are kept for thirty days. They come in batches, and one by one from the
telemetry of the Entity; a batch is written by one statement, which inserts the reports that are new
and finds those whose ID belongs to another report. Reports are read in pages from the last one
back, under the highest sequence number at the first page, or as a trail of positions.

Times are instants in nanoseconds, of which the database keeps the microseconds. A number is the
rational one that it stands for, or not finite. The order in which the database inserts the distinct
reports of a batch is its own choice (`arrange`). The text of a page's cursor is left out.
-/

namespace Atlas.Core

/-! ## Times -/

def microsecond : ℤ := 1000

def movementMinute : ℤ := 60 * 10 ^ 9

def movementRetention : ℤ := 30 * 24 * 60 * movementMinute

def movementClockSkew : ℤ := 5 * movementMinute

/-- `Truncate(time.Microsecond)`. -/
def truncateMicrosecond (t : ℤ) : ℤ := t - t % microsecond

/-- PostgreSQL keeps microseconds: a lower bound is rounded up. -/
def movementLowerBound (value : ℤ) : ℤ :=
  let lower := truncateMicrosecond value
  if lower < value then lower + microsecond else lower

/-! ## Reports -/

/-- A double precision number. -/
inductive Double
  | finite (q : ℚ)
  | notFinite
  deriving DecidableEq, Repr

def Double.value : Double → ℚ
  | .finite q => q
  | .notFinite => 0

structure MovementSampleInput where
  sampleID : String
  observedAt : Option String
  latitude : Option Double
  longitude : Option Double
  speedMS : Option Double
  altitudeM : Option Double
  deriving DecidableEq, Repr

/-- What two reports of one sample ID must agree on. -/
structure MovementReport where
  observedAt : Option ℤ
  latitude : Option ℚ
  longitude : Option ℚ
  speedMS : Option ℚ
  altitudeM : Option ℚ
  deriving DecidableEq, Repr

/-- A row of `entity_movement_samples`. -/
structure MovementRow where
  sequence : ℕ
  entityID : String
  entityCreatedAt : ℤ
  sampleID : String
  receivedAt : ℤ
  sampleTime : ℤ
  report : MovementReport
  deriving DecidableEq, Repr

/-- The columns that are unique together. -/
def MovementRow.key (r : MovementRow) : String × ℤ × String :=
  (r.entityID, r.entityCreatedAt, r.sampleID)

structure MovementEntity where
  entityID : String
  type : String
  createdAt : ℤ
  deriving DecidableEq, Repr

structure MovementDB where
  entities : List MovementEntity
  samples : List MovementRow
  /-- The next value of the sequence. -/
  nextSequence : ℕ
  deriving DecidableEq, Repr

inductive MovementError
  | action (e : ActionError)
  | cursorExpired
  deriving DecidableEq, Repr

def movementValidation (message : String) : ActionError := .validation message []

def lessThan (bound : ℚ) (value : Option Double) : Bool := value.any fun v => v.value < bound

def greaterThan (bound : ℚ) (value : Option Double) : Bool := value.any fun v => bound < v.value

/-- The observation time, if the sample has one, and the time of the sample. -/
def validateMovement (input : MovementSampleInput) (received : ℤ) :
    Except ActionError (Option ℤ × ℤ) :=
  if 128 < input.sampleID.length then
    .error (movementValidation "sample_id must not exceed 128 characters")
  else if trimSpace input.sampleID = "" then
    .error (movementValidation "sample_id is required")
  else if input.latitude.isNone ≠ input.longitude.isNone then
    .error (movementValidation "movement position requires latitude and longitude")
  else if input.latitude.isNone ∧ input.speedMS.isNone ∧ input.altitudeM.isNone then
    .error (movementValidation "movement sample requires position, speed or altitude")
  else if [input.latitude, input.longitude, input.speedMS, input.altitudeM].any
      (· = some Double.notFinite) then
    .error (movementValidation "movement values must be finite")
  else if input.latitude.isSome ∧ (lessThan (-90) input.latitude ∨ greaterThan 90 input.latitude
      ∨ lessThan (-180) input.longitude ∨ greaterThan 180 input.longitude) then
    .error (movementValidation "movement coordinates are outside valid bounds")
  else if lessThan 0 input.speedMS then
    .error (movementValidation "movement speed cannot be negative")
  else
    match input.observedAt with
    | none => .ok (none, received)
    | some text =>
      match parseMovementTimestamp text with
      | .error _ =>
        .error (movementValidation
          "observed_at must be RFC3339 and at most five minutes ahead of arrival")
      | .ok observed =>
        if received + movementClockSkew < observed then
          .error (movementValidation
            "observed_at must be RFC3339 and at most five minutes ahead of arrival")
        else .ok (some (truncateMicrosecond observed), truncateMicrosecond observed)

/-- The columns of a report, as they are stored. -/
def MovementSampleInput.report (input : MovementSampleInput) (observed : Option ℤ) :
    MovementReport :=
  ⟨observed, input.latitude.map (·.value), input.longitude.map (·.value),
    input.speedMS.map (·.value), input.altitudeM.map (·.value)⟩

/-- The Entity that the history belongs to. -/
def movementEntity (db : MovementDB) (id : String) (created : ℤ) :
    Except ActionError MovementEntity :=
  match validateEntityID id ⟨DB.empty, fun _ => 0⟩ with
  | .error e => .error e
  | .ok _ =>
    match db.entities.find? fun e => e.entityID = trimSpace id with
    | none => .error (.notFound .entity id)
    | some entity =>
      if entity.createdAt ≠ created then .error (.preconditionFailed "Entity history association")
      else if entity.type ≠ "asset" ∧ entity.type ≠ "track" then
        .error (movementValidation "movement history requires an Asset or Track")
      else .ok entity

def movementConflict : ActionError :=
  .conflict "sample_id already belongs to a different movement report"

/-! ## Inserting -/

/-- `ON CONFLICT DO NOTHING`; the sequence moves on even so. -/
def MovementDB.insert (db : MovementDB) (entity : MovementEntity) (sampleID : String)
    (received : ℤ) (report : MovementReport) : MovementDB :=
  let row : MovementRow :=
    ⟨db.nextSequence, entity.entityID, entity.createdAt, sampleID, received,
      report.observedAt.getD received, report⟩
  if db.samples.any (·.key = row.key) then { db with nextSequence := db.nextSequence + 1 }
  else { db with samples := db.samples ++ [row], nextSequence := db.nextSequence + 1 }

def insertMovement (db : MovementDB) (entity : MovementEntity) (input : MovementSampleInput)
    (received : ℤ) : Except ActionError MovementDB :=
  match validateMovement input received with
  | .error e => .error e
  | .ok (observed, _) =>
    match db.samples.find? fun r =>
      r.key = (entity.entityID, entity.createdAt, input.sampleID) with
    | some row =>
      if row.report = input.report observed then
        .ok (db.insert entity input.sampleID received (input.report observed))
      else .error movementConflict
    | none => .ok (db.insert entity input.sampleID received (input.report observed))

/-- The report in an Entity's telemetry, under the new sample ID. A position that is not complete is
left out, and a sample with nothing else too. -/
def captureMovement (now : ℤ) (sampleID : String) (db : MovementDB) (entity : MovementEntity)
    (telemetry : Option MovementSampleInput) (observed : Option String) (received : ℤ) :
    Except ActionError MovementDB :=
  if entity.type ≠ "asset" ∧ entity.type ≠ "track" then .ok db
  else
    match telemetry with
    | none => .ok db
    | some sample =>
      let sample :=
        if sample.latitude.isNone ∨ sample.longitude.isNone then
          { sample with latitude := none, longitude := none }
        else sample
      if sample.latitude.isNone ∧ sample.speedMS.isNone ∧ sample.altitudeM.isNone then .ok db
      else
        let sample := { sample with sampleID, observedAt := observed }
        let received := truncateMicrosecond received
        match validateMovement sample received with
        | .error e => .error e
        | .ok (_, sampleTime) =>
          if sampleTime < now - movementRetention then .ok db
          else insertMovement db entity sample received

/-! ## Importing -/

structure MovementHistoryBatchRequest where
  entityCreatedAt : String
  samples : List MovementSampleInput
  deriving DecidableEq, Repr

structure MovementHistoryBatchResponse where
  inserted : ℤ
  duplicates : ℤ
  expired : ℤ
  deriving DecidableEq, Repr

/-- A sample with its normalized observation time, and the time it is kept by. -/
structure MovementImportSample where
  sampleID : String
  report : MovementReport
  time : ℤ
  deriving DecidableEq, Repr

def prepareMovement (received : ℤ) (sample : MovementSampleInput) :
    Except ActionError MovementImportSample :=
  (validateMovement sample received).map fun r => ⟨sample.sampleID, sample.report r.1, r.2⟩

/-- The database reads no time before the year 1, and no text with the character zero. -/
def MovementImportSample.readable (s : MovementImportSample) : Bool :=
  s.report.observedAt.all (0 ≤ ·) ∧ ¬s.sampleID.toList.contains '\x00'

/-- A sample ID with two reports in the batch, or with another report in the store. -/
def movementConflicts (db : MovementDB) (entity : MovementEntity)
    (incoming : List (String × MovementReport)) : Bool :=
  incoming.any fun s =>
    incoming.any (fun s' => s'.1 = s.1 ∧ s' ≠ s)
      ∨ db.samples.any fun r =>
        r.key = (entity.entityID, entity.createdAt, s.1) ∧ r.report ≠ s.2

variable (arrange : List (String × MovementReport) → List (String × MovementReport))

def importMovement (now : ℤ) (db : MovementDB) (id : String)
    (request : MovementHistoryBatchRequest) (received : ℤ) :
    Except ActionError (MovementHistoryBatchResponse × MovementDB) :=
  match parseMovementTimestamp request.entityCreatedAt with
  | .error _ =>
    .error (movementValidation "entity_created_at must identify the current Entity record")
  | .ok created =>
    if request.samples.length < 1 ∨ 500 < request.samples.length then
      .error (movementValidation "movement batches require 1 to 500 samples")
    else
      let received := truncateMicrosecond received
      match request.samples.mapM (prepareMovement received) with
      | .error e => .error e
      | .ok prepared =>
        match movementEntity db id created with
        | .error e => .error e
        | .ok entity =>
          let cutoff := movementLowerBound (now - movementRetention)
          let expired := prepared.countP (·.time < cutoff)
          if ¬prepared.all MovementImportSample.readable then
            .error (.failure "import movement batch")
          else
            let incoming := (prepared.map fun s => (s.sampleID, s.report)).dedup
            let fresh := incoming.filter fun s => cutoff ≤ s.2.observedAt.getD received
            let db' := (arrange fresh).foldl (fun db s => db.insert entity s.1 received s.2) db
            let inserted := db'.samples.length - db.samples.length
            if movementConflicts db entity incoming then .error movementConflict
            else .ok (⟨inserted, prepared.length - expired - inserted, expired⟩, db')

/-- Delete up to ten thousand of the oldest rows that have expired. -/
def pruneMovement (now : ℤ) (db : MovementDB) : MovementDB :=
  let expired := (db.samples.filter fun r =>
    r.sampleTime < truncateMicrosecond (now - movementRetention)).mergeSort fun r r' =>
      r.sampleTime < r'.sampleTime ∨ r.sampleTime = r'.sampleTime ∧ r.sequence ≤ r'.sequence
  let deleted := (expired.take 10000).map (·.sequence)
  { db with samples := db.samples.filter fun r => r.sequence ∉ deleted }

end Atlas.Core
