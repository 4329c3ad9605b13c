import Atlas.Feed.Hub

/-!
# The feed's dispatcher

The dispatcher reads the durable log page by page and publishes each event at the hub. Meanwhile
transactions commit and old events are pruned. A page ends at a number of events or of bytes, and
goes no further than the change clock has been read to be.
-/

namespace Atlas.Feed

open Atlas.Core (ChangeRow FeedEvent)

def changeDispatchBatchSize : ℕ := 32

def maxStoredJSONBlobBytes : ℕ := 1 * 1024 * 1024

def maxChangedSinceJSONBytes : ℕ := 8 * maxStoredJSONBlobBytes

variable (payloadBytes : ChangeRow → ℕ)

/-- The rows are read until the page is full; whether there are more. -/
def readRows (limit : ℕ) : List ChangeRow → List ChangeRow → ℕ → List ChangeRow × Bool
  | [], records, _ => (records, false)
  | row :: rows, records, totalBytes =>
    if limit ≤ records.length ∨
        0 < records.length ∧ maxChangedSinceJSONBytes < totalBytes + payloadBytes row then
      (records, true)
    else readRows limit rows (records ++ [row]) (totalBytes + payloadBytes row)

def between (afterVersion throughVersion : ℕ) (rows : List ChangeRow) : List ChangeRow :=
  rows.filter fun row => afterVersion < row.version && row.version ≤ throughVersion

/-- The log is in the order of the versions. -/
def readChangeRecords (events : List ChangeRow) (afterVersion throughVersion limit : ℕ) :
    List ChangeRow × Bool :=
  readRows payloadBytes limit ((between afterVersion throughVersion events).take (limit + 1)) [] 0

/-- Where a call of `drain` is: not begun, or returned with or without an error; with a watermark
read; or publishing what it has read. -/
inductive Drain
  | returned (done : Bool)
  | watermark (upperVersion : ℕ)
  | publishing (records : List ChangeRow) (hasMore : Bool)
  deriving DecidableEq, Repr

/-- The log and the dispatcher. `committed` holds every event there has been. -/
structure Dispatcher where
  clock : ℕ
  changeEvents : List ChangeRow
  committed : List ChangeRow
  start : ℕ
  cursor : ℕ
  drain : Drain
  upperVersion : ℕ
  published : List RoutedEvent

inductive DispatcherStep
  | commit (rows : List ChangeRow) (clock : ℕ)
  | prune (through : ℕ)
  | readWatermark
  | readRecords
  | publish
  | fail

namespace Dispatcher

/-- The dispatcher starts after a version that the log has reached. -/
def new (clock : ℕ) (changeEvents : List ChangeRow) (startAfterVersion : ℕ) : Dispatcher :=
  ⟨clock, changeEvents, changeEvents, startAfterVersion, startAfterVersion, .returned false,
    startAfterVersion, []⟩

def routed (row : ChangeRow) : RoutedEvent := ⟨row.event, row.taskAssetID.getD ""⟩

def readWatermark (d : Dispatcher) : Dispatcher :=
  { d with drain := .watermark d.clock, upperVersion := d.clock }

def readRecords (upperVersion : ℕ) (d : Dispatcher) : Dispatcher :=
  { d with
    drain := .publishing
      (readChangeRecords payloadBytes d.changeEvents d.cursor upperVersion
        changeDispatchBatchSize).1
      (readChangeRecords payloadBytes d.changeEvents d.cursor upperVersion
        changeDispatchBatchSize).2 }

/-- The next record goes to the hub and the cursor with it; at the page's end the call returns, or
reads on. -/
def publish (records : List ChangeRow) (hasMore : Bool) (d : Dispatcher) : Dispatcher :=
  match records with
  | record :: records =>
    { d with
      published := d.published ++ [routed record]
      cursor := record.event.version
      drain := .publishing records hasMore }
  | [] => if hasMore then d.readWatermark else { d with drain := .returned true }

def step (d : Dispatcher) : DispatcherStep → Dispatcher
  | .commit rows clock =>
    { d with
      clock := clock
      changeEvents := d.changeEvents ++ rows
      committed := d.committed ++ rows }
  | .prune through =>
    { d with changeEvents := d.changeEvents.filter fun row => through < row.version }
  | .readWatermark =>
    match d.drain with
    | .returned _ => d.readWatermark
    | _ => d
  | .readRecords =>
    match d.drain with
    | .watermark upperVersion => d.readRecords payloadBytes upperVersion
    | _ => d
  | .publish =>
    match d.drain with
    | .publishing records hasMore => d.publish records hasMore
    | _ => d
  | .fail => { d with drain := .returned false }

/-- Versions are counted by the change clock, whose row is locked until the transaction commits:
what commits is above it, and in order. Nothing above the cursor is pruned. -/
def Allowed (d : Dispatcher) : DispatcherStep → Prop
  | .commit rows clock =>
    d.clock ≤ clock ∧ (∀ row ∈ rows, d.clock < row.version ∧ row.version ≤ clock ∧
      row.event.version = row.version) ∧
        rows.Pairwise fun earlier later => earlier.version < later.version
  | .prune through => through ≤ d.cursor
  | _ => True

end Dispatcher

/-- A log with its clock. -/
structure LogInOrder (clock : ℕ) (changeEvents : List ChangeRow) : Prop where
  increasing : changeEvents.Pairwise fun earlier later => earlier.version < later.version
  version : ∀ row ∈ changeEvents, row.version ≤ clock ∧ row.event.version = row.version

/-- Calls of `drain` one after the other, with anything of the log's in between. -/
inductive DispatcherRun : Dispatcher → Prop
  | new {clock : ℕ} {changeEvents : List ChangeRow} {startAfterVersion : ℕ} :
    LogInOrder clock changeEvents → startAfterVersion ≤ clock →
    DispatcherRun (.new clock changeEvents startAfterVersion)
  | step {d : Dispatcher} (step : DispatcherStep) : DispatcherRun d → d.Allowed step →
    DispatcherRun (d.step payloadBytes step)

/-- The dispatcher and the hub beside each other. A record is published in one step of both, which
waits for the hub's lock; otherwise each goes on by itself. -/
inductive FeedRun (clientBuffer : ℕ) : Dispatcher → Hub → Prop
  | new {clock : ℕ} {changeEvents : List ChangeRow} {startAfterVersion : ℕ} :
    LogInOrder clock changeEvents → startAfterVersion ≤ clock →
    FeedRun clientBuffer (.new clock changeEvents startAfterVersion) (.new clientBuffer)
  | dispatcher {d : Dispatcher} {h : Hub} (step : DispatcherStep) : FeedRun clientBuffer d h →
    d.Allowed step → (d.step payloadBytes step).published = d.published →
    FeedRun clientBuffer (d.step payloadBytes step) h
  | hub {d : Dispatcher} {h : Hub} (step : HubStep) : FeedRun clientBuffer d h →
    (∀ event, step ≠ .publish event) → FeedRun clientBuffer d (h.step step)
  | publish {d : Dispatcher} {h : Hub} {record : ChangeRow} {records : List ChangeRow}
    {hasMore : Bool} : FeedRun clientBuffer d h →
    d.drain = .publishing (record :: records) hasMore → h.work = .idle →
    FeedRun clientBuffer (d.step payloadBytes .publish)
      (h.step (.publish (Dispatcher.routed record)))

end Atlas.Feed
