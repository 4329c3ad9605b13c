import Atlas.Lib.CodeUnits

/-!
# Log streams

How the command line takes the output of a container apart into lines. A chunk is appended to what
is left of the one before, and what is left of both is kept for the next.
-/

namespace Atlas.Cli.Logs

open CodeUnits

inductive Stream where
  | stdout
  | stderr
  deriving DecidableEq, Repr

def maxLogLineLength : ℕ := 64 * 1024

def boundedLogLineTail (line : Text) : Text :=
  if maxLogLineLength < line.length then lastUnits maxLogLineLength line else line

def lineFeed : UInt16 := unit '\n'

def carriageReturn : UInt16 := unit '\r'

/-- `split(/\r?\n/u)`: the lines that are ended, and the rest. -/
def splitLines : Text → List Text × Text
  | [] => ([], [])
  | [c] => if c = lineFeed then ([[]], []) else ([], [c])
  | c :: d :: rest =>
    if c = lineFeed then
      let (lines, remainder) := splitLines (d :: rest)
      ([] :: lines, remainder)
    else if c = carriageReturn ∧ d = lineFeed then
      let (lines, remainder) := splitLines rest
      ([] :: lines, remainder)
    else
      match splitLines (d :: rest) with
      | ([], remainder) => ([], c :: remainder)
      | (line :: lines, remainder) => ((c :: line) :: lines, remainder)

/-- What a log command ends with. -/
structure CommandResult where
  cancelled : Bool
  status : ℤ
  stderr : Text
  deriving DecidableEq, Repr

/-- A log stream, with the calls of `onOutput` and of its listeners. -/
structure LogStream where
  stdoutPending : Text
  stderrPending : Text
  closed : Bool
  /-- The result that its error tells of. -/
  terminalError : Option CommandResult
  lineListeners : List ℕ
  pendingLines : List Text
  output : List (Stream × Text)
  heard : List (ℕ × Text)

namespace LogStream

def new : LogStream := ⟨[], [], false, none, [], [], [], []⟩

def pending (s : LogStream) : Stream → Text
  | .stdout => s.stdoutPending
  | .stderr => s.stderrPending

def setPending (s : LogStream) (stream : Stream) (pending : Text) : LogStream :=
  match stream with
  | .stdout => { s with stdoutPending := pending }
  | .stderr => { s with stderrPending := pending }

/-- A line is kept for the first listener, of two hundred at most. -/
def keptLines (s : LogStream) (line : Text) : List Text :=
  if s.lineListeners = [] then
    let lines := s.pendingLines ++ [line]
    if 200 < lines.length then lines.tail else lines
  else s.pendingLines

def emitLine (stream : Stream) (s : LogStream) (line : Text) : LogStream :=
  { s with
    output := s.output ++ [(stream, line)]
    pendingLines := s.keptLines line
    heard := s.heard ++ s.lineListeners.map (·, line) }

/-- `frameChunk`, with what is made of the remainder. -/
def frameChunk (s : LogStream) (stream : Stream) (chunk : Text) : LogStream :=
  let (lines, remainder) := splitLines (s.pending stream ++ chunk)
  ((lines.map boundedLogLineTail).foldl (emitLine stream) s).setPending stream
    (boundedLogLineTail remainder)

def emitPending (s : LogStream) (stream : Stream) : LogStream :=
  if s.pending stream = [] then s else emitLine stream s (s.pending stream)

def finish (s : LogStream) (error : Option CommandResult) : LogStream :=
  if s.closed then s
  else
    { (s.emitPending .stdout).emitPending .stderr with
      stdoutPending := [], stderrPending := [], closed := true, terminalError := error
      lineListeners := [] }

end LogStream

/-- What happens to a log stream. -/
inductive LogEvent where
  | chunk (stream : Stream) (text : Text)
  | close (result : CommandResult)
  | onLine (listener : ℕ)
  | offLine (listener : ℕ)

/-- A listener that is added hears the lines that were kept. -/
def LogStream.onLine (s : LogStream) (listener : ℕ) : LogStream :=
  { s with
    lineListeners :=
      if listener ∈ s.lineListeners then s.lineListeners else s.lineListeners ++ [listener]
    pendingLines := []
    heard := s.heard ++ s.pendingLines.map (listener, ·) }

/-- Once the command has ended its output is not listened to any more. -/
def LogStream.step (s : LogStream) : LogEvent → LogStream
  | .chunk stream text => if s.closed then s else s.frameChunk stream text
  | .close result =>
    s.finish (if result.status ≠ 0 && !result.cancelled then some result else none)
  | .onLine listener => s.onLine listener
  | .offLine listener => { s with lineListeners := s.lineListeners.filter (· ≠ listener) }

def LogStream.run (events : List LogEvent) : LogStream := events.foldl LogStream.step .new

/-- The lines handed to `onOutput` for a stream. -/
def LogStream.linesOf (s : LogStream) (stream : Stream) : List Text :=
  (s.output.filter (·.1 = stream)).map Prod.snd

/-- The chunks of a stream up to the end of the command. -/
def chunksOf (stream : Stream) : List LogEvent → List Text
  | [] => []
  | .chunk source text :: rest =>
    if source = stream then text :: chunksOf stream rest else chunksOf stream rest
  | .close _ :: _ => []
  | .onLine _ :: rest => chunksOf stream rest
  | .offLine _ :: rest => chunksOf stream rest

end Atlas.Cli.Logs
