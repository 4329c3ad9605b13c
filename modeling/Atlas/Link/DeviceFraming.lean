import Atlas.Link.Messages

/-!
# Frames of the device stream

A serial or network device sends frames of a two-byte marker, a big-endian length and a payload.
They arrive in chunks that are cut anywhere. A chunk is put behind what was left of the one before;
what is complete is handed on, and the start of an incomplete frame is kept. On a serial line the
firmware's boot text lies between the frames, which `allowDebug` skips byte by byte.
-/

namespace Atlas.Link

inductive DeviceFrameError
  | invalidHeader
  | truncated
  deriving DecidableEq, Repr

def DeviceFrameError.text : DeviceFrameError → String
  | .invalidHeader => "Invalid Meshtastic frame header"
  | .truncated => "Truncated Meshtastic frame"

def markerFirst : UInt8 := 0x94
def markerSecond : UInt8 := 0xc3

/-- What the loop of `transform` makes of a buffer: the packets it enqueues, and the bytes from the
offset at which it stops on, or that it throws. -/
structure Parsed where
  packets : List Bytes
  rest : Bytes
  error : Option DeviceFrameError
  deriving DecidableEq, Repr

def Parsed.packet (data : Bytes) (p : Parsed) : Parsed := { p with packets := data :: p.packets }

/-- The loop of `transform`, on the buffer from its offset on. -/
def parseFrames (allowDebug : Bool) : Bytes → Parsed
  | first :: second :: rest =>
    if allowDebug = true ∧ (first ≠ markerFirst ∨ second ≠ markerSecond) then
      parseFrames allowDebug (second :: rest)
    else
      match rest with
      | high :: low :: body =>
        if first ≠ markerFirst ∨ second ≠ markerSecond then
          ⟨[], first :: second :: rest, some .invalidHeader⟩
        else
          let length := high.toNat * 256 + low.toNat
          if body.length < length then ⟨[], first :: second :: rest, none⟩
          else (parseFrames allowDebug (body.drop length)).packet (body.take length)
      | _ => ⟨[], first :: second :: rest, none⟩
  | buffer => ⟨[], buffer, none⟩
termination_by buffer => buffer.length

theorem parseFrames_cons_cons {allowDebug : Bool} {first second : UInt8} {rest : Bytes} :
    parseFrames allowDebug (first :: second :: rest) =
      if allowDebug = true ∧ (first ≠ markerFirst ∨ second ≠ markerSecond) then
        parseFrames allowDebug (second :: rest)
      else
        match rest with
        | high :: low :: body =>
          if first ≠ markerFirst ∨ second ≠ markerSecond then
            ⟨[], first :: second :: rest, some .invalidHeader⟩
          else if body.length < high.toNat * 256 + low.toNat then
            ⟨[], first :: second :: rest, none⟩
          else
            (parseFrames allowDebug (body.drop (high.toNat * 256 + low.toNat))).packet
              (body.take (high.toNat * 256 + low.toNat))
        | _ => ⟨[], first :: second :: rest, none⟩ := by
  rw [parseFrames.eq_def]
  rfl

/-- A single byte that starts no marker is not kept. -/
def retained (allowDebug : Bool) : Bytes → Bytes
  | [byte] => if allowDebug = true ∧ byte ≠ markerFirst then [] else [byte]
  | rest => rest

/-- The closure of `deviceFrameStream`, with what it has enqueued and how its stream has failed. -/
structure DeviceFrameStream where
  pending : Bytes
  packets : List Bytes
  error : Option DeviceFrameError
  deriving DecidableEq, Repr

namespace DeviceFrameStream

def new : DeviceFrameStream := ⟨[], [], none⟩

/-- A stream that has failed transforms no further chunk. -/
def transform (allowDebug : Bool) (s : DeviceFrameStream) (chunk : Bytes) : DeviceFrameStream :=
  if s.error.isSome then s
  else
    let parsed := parseFrames allowDebug (s.pending ++ chunk)
    match parsed.error with
    | some error => { s with packets := s.packets ++ parsed.packets, error := some error }
    | none => ⟨retained allowDebug parsed.rest, s.packets ++ parsed.packets, none⟩

/-- The end of the input. A stream that has failed is not flushed. -/
def flush (s : DeviceFrameStream) : DeviceFrameStream :=
  if s.error = none ∧ s.pending ≠ [] then { s with error := some .truncated } else s

def feed (allowDebug : Bool) (chunks : List Bytes) : DeviceFrameStream :=
  chunks.foldl (transform allowDebug) new

def decode (allowDebug : Bool) (chunks : List Bytes) : DeviceFrameStream :=
  (feed allowDebug chunks).flush

end DeviceFrameStream

end Atlas.Link
