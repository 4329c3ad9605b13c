import Atlas.Core.JsonBlobs
import Atlas.Lib.Base64

/-!
# Changes since a version

A client that knows the state up to a version reads on in pages. A page ends after as many events as
were asked for, or before its events grow too large, and names by a cursor where the next one begins
and which version the first one read up to.

Every page is read from a snapshot of its own. The size of an event's JSON is a parameter. A cursor
is the base64 text of its JSON; of the errors of the two decoders only the step they are wrapped
with is kept.
-/

namespace Atlas.Core

def defaultChangedSinceLimit : ℕ := 100

def maxChangedSinceLimit : ℕ := 5000

def maxChangedSinceJSONBytes : ℕ := 8 * maxStoredJSONBlobBytes

structure VersionCursor where
  v : ℤ
  uv : ℤ
  sv : Option ℤ
  deriving DecidableEq, Repr

section Json

open GoJson

/-- The JSON of a cursor. -/
def VersionCursor.marshal (p : VersionCursor) : Text :=
  "\x7b\"v\":".toList ++ intText p.v ++ ",\"uv\":".toList ++ intText p.uv ++ ",\"sv\":".toList
    ++ (match p.sv with | none => "null".toList | some sv => intText sv) ++ ['\x7d']

/-- Field names are compared without their case, and the long s is an S. -/
def foldName (key : Text) : Text := key.map fun c => if c = 'ſ' then 'S' else c.toUpper

/-- A number is an int64; null leaves a field as it is, or a pointer empty. -/
def VersionCursor.assign (p : VersionCursor) (member : Text × Value) : Option VersionCursor :=
  if foldName member.1 = foldName "v".toList then
    match member.2 with
    | .null => some p
    | .number literal => (parseInt64 literal).map fun n => { p with v := n }
    | _ => none
  else if foldName member.1 = foldName "uv".toList then
    match member.2 with
    | .null => some p
    | .number literal => (parseInt64 literal).map fun n => { p with uv := n }
    | _ => none
  else if foldName member.1 = foldName "sv".toList then
    match member.2 with
    | .null => some { p with sv := none }
    | .number literal => (parseInt64 literal).map fun n => { p with sv := some n }
    | _ => none
  else some p

def VersionCursor.unmarshal (raw : List UInt8) : Option VersionCursor :=
  match parse raw with
  | some .null => some ⟨0, 0, none⟩
  | some (.object members) => members.foldlM VersionCursor.assign ⟨0, 0, none⟩
  | _ => none

end Json

inductive ChangedSinceError
  | cursorExpired (minRetainedVersion : ℕ)
  | action (e : ActionError)
  deriving DecidableEq, Repr

structure ChangedSinceResult where
  events : List FeedEvent
  version : ℤ
  hasMore : Bool
  nextCursor : String
  deriving DecidableEq, Repr

section Cursor

def encodeVersionCursor (version upperBound sinceVersion : ℤ) : Except String String :=
  if version ≤ 0 then .error "marshal version cursor: version must be positive"
  else if upperBound ≤ 0 then .error "marshal version cursor: upper bound version must be positive"
  else if sinceVersion < 0 then
    .error "marshal version cursor: since_version must be non-negative"
  else if version ≤ sinceVersion ∨ upperBound < version then
    .error ("marshal version cursor: version must be after since_version and at or before the "
      ++ "upper bound")
  else
    .ok (String.ofList (Base64.encode (GoJson.asciiBytes
      (VersionCursor.marshal ⟨version, upperBound, some sinceVersion⟩))))

def decodeVersionCursor (s : String) : Except String (ℤ × ℤ × ℤ) :=
  if s = "" then .error "empty cursor"
  else
    match Base64.decode s.toList with
    | none => .error "decode cursor"
    | some raw =>
      match VersionCursor.unmarshal raw with
      | none => .error "parse cursor json"
      | some p =>
        if p.v ≤ 0 then .error "cursor version must be positive"
        else if p.uv ≤ 0 then .error "cursor upper bound version must be positive"
        else
          match p.sv with
          | none => .error "cursor missing since_version"
          | some sv =>
            if sv < 0 then .error "cursor since_version must be non-negative"
            else if p.v ≤ sv ∨ p.uv < p.v then
              .error "cursor version must be after since_version and at or before the upper bound"
            else .ok (p.v, p.uv, sv)

def invalidQueryCursor (detail : String) : ChangedSinceError :=
  .action (.validation "Invalid query cursor" [detail])

def parseVersionQueryCursor (raw label : String) :
    Except ChangedSinceError (Option (ℤ × ℤ × ℤ)) :=
  if trimSpace raw = "" then .ok none
  else
    match decodeVersionCursor raw with
    | .error e => .error (invalidQueryCursor ("invalid " ++ label ++ ": " ++ e))
    | .ok parsed => .ok (some parsed)

end Cursor

section Records

variable (size : FeedEvent → ℕ)

/-- The loop over the rows, with the records and the bytes so far: what it takes of them, and whether
it left any. -/
def collectRecords (limit : ℕ) : ℕ → ℕ → List ChangeRow → List ChangeRow × Bool
  | _, _, [] => ([], false)
  | records, totalBytes, row :: rows =>
    if limit ≤ records ∨ 0 < records ∧ maxChangedSinceJSONBytes < totalBytes + size row.event then
      ([], true)
    else
      let rest := collectRecords limit (records + 1) (totalBytes + size row.event) rows
      (row :: rest.1, rest.2)

def versionOrder (r r' : ChangeRow) : Bool := r.version ≤ r'.version

/-- The rows in a range of versions, in their order. -/
def changesBetween (db : DB) (afterVersion throughVersion : ℤ) : List ChangeRow :=
  (db.changeEvents.filter fun r => afterVersion < r.version ∧ r.version ≤ throughVersion).mergeSort
    versionOrder

def readChangeRecords (db : DB) (afterVersion throughVersion : ℤ) (limit : ℕ) :
    List ChangeRow × Bool :=
  collectRecords size limit 0 0 ((changesBetween db afterVersion throughVersion).take (limit + 1))

end Records

def changedSinceLimit (requested : ℤ) : ℕ :=
  if requested ≤ 0 then defaultChangedSinceLimit
  else if (maxChangedSinceLimit : ℤ) < requested then maxChangedSinceLimit
  else requested.toNat

variable (size : FeedEvent → ℕ)

/-- Where a page begins, and up to which version it reads. -/
def changedSinceBounds (snapshotVersion sinceVersion : ℤ) (cursor : Option String) :
    Except ChangedSinceError (ℤ × ℤ) :=
  match cursor with
  | none => .ok (sinceVersion, snapshotVersion)
  | some cursor =>
    match parseVersionQueryCursor cursor "cursor" with
    | .error e => .error e
    | .ok none => .error (invalidQueryCursor "cursor must not be empty")
    | .ok (some (version, upperBound, parsedSince)) =>
      if parsedSince ≠ sinceVersion then
        .error (invalidQueryCursor ("cursor was created for since_version " ++ toString parsedSince
          ++ ", got " ++ toString sinceVersion))
      else if snapshotVersion < upperBound then
        .error (invalidQueryCursor "cursor snapshot is newer than the current change version")
      else .ok (version, upperBound)

def getDataChangedSince (db : DB) (sinceVersion limit : ℤ) (cursor : Option String) :
    Except ChangedSinceError ChangedSinceResult :=
  let limit := changedSinceLimit limit
  let snapshotVersion : ℤ := db.changeClock.version
  if sinceVersion < db.changeClock.minRetainedVersion then
    .error (.cursorExpired db.changeClock.minRetainedVersion)
  else if snapshotVersion < sinceVersion then
    .error (.action (.validation "Invalid since_version"
      ["since_version " ++ toString sinceVersion ++ " is newer than the current change version "
        ++ toString snapshotVersion]))
  else
    match changedSinceBounds snapshotVersion sinceVersion cursor with
    | .error e => .error e
    | .ok (afterVersion, snapshotUpperVersion) =>
      let (records, hasMore) := readChangeRecords size db afterVersion snapshotUpperVersion limit
      let events := records.map (·.event)
      if hasMore then
        let lastVersion : ℤ := (events.getLast?.map fun e => (e.version : ℤ)).getD 0
        match encodeVersionCursor lastVersion snapshotUpperVersion sinceVersion with
        | .error e => .error (.action (.failure ("encode change cursor: " ++ e)))
        | .ok nextCursor => .ok ⟨events, snapshotUpperVersion, hasMore, nextCursor⟩
      else .ok ⟨events, snapshotUpperVersion, hasMore, ""⟩

end Atlas.Core
