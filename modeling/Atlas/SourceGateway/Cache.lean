import Atlas.SourceGateway.Filter

/-!
# The response cache of the gateway

Responses are kept under a digest of the request and its connector, each part of which is written
after its length. An entry knows when it expires, its size and its serial number, and as long as
there are too many entries or bytes the one with the smallest number goes. Times are nanoseconds,
and the number wraps around.
-/

namespace Atlas.SourceGateway

open Config

section Keys

/-- `strconv.Itoa` of a length. -/
def itoa (n : ℕ) : Bytes := GoJson.asciiBytes (Nat.toDigits 10 n)

def writeCachePart (value : Bytes) : Bytes := itoa value.length ++ 58 :: value

def writeText (text : GoString) : Bytes := writeCachePart (GoJson.utf8 text)

/-- The count of the tuples, then each of them. -/
def writeTuples (tuples : List HeaderTuple) : Bytes :=
  writeCachePart (itoa tuples.length)
    ++ tuples.flatMap fun tuple => writeText tuple.1 ++ writeText tuple.2

/-- What `requestCacheKey` hashes. -/
def requestCacheBytes (connectorID : GoString) (request : PreparedRequest) : Bytes :=
  writeText "connector".toList ++ (writeText connectorID
    ++ (writeText "method".toList ++ (writeText request.method
    ++ (writeText "path".toList ++ (writeText request.path
    ++ (writeText "query".toList ++ (writeTuples request.query
    ++ (writeText "headers".toList ++ (writeTuples request.headers
    ++ (writeText "body".toList ++ writeCachePart request.body))))))))))

/-- `hex.EncodeToString`. -/
def hexString (bytes : Bytes) : GoString :=
  bytes.flatMap fun b => [Nat.digitChar (b.toNat / 16), Nat.digitChar (b.toNat % 16)]

def requestCacheKey (sha256 : Bytes → Bytes) (connectorID : GoString)
    (request : PreparedRequest) : GoString :=
  hexString (sha256 (requestCacheBytes connectorID request))

end Keys

section Cache

structure CacheEntry where
  response : ConnectorResponse
  expires : ℕ
  size : ℕ
  serial : ℕ
  deriving DecidableEq

structure ResponseCache where
  entries : OrderedMap GoString CacheEntry
  maxEntries : ℕ
  maxBytes : ℕ
  bytes : ℤ
  serial : ℕ

/-- The size a response counts with. -/
def responseSize (response : ConnectorResponse) : ℕ :=
  (GoJson.utf8 response.bodyBase64).length
    + (response.headers.map fun header => (GoJson.utf8 header.1).length + header.2.length).sum

namespace ResponseCache

def new (maxEntries maxBytes : ℕ) : ResponseCache := ⟨OrderedMap.empty, maxEntries, maxBytes, 0, 0⟩

/-- An entry goes, with its bytes. -/
def remove (c : ResponseCache) (key : GoString) : ResponseCache :=
  { c with
    entries := c.entries.delete key
    bytes := c.bytes - ((c.entries.get key).elim 0 (·.size) : ℕ) }

def get (c : ResponseCache) (key : GoString) (now : ℕ) : ResponseCache × Option ConnectorResponse :=
  match c.entries.get key with
  | some entry => if now < entry.expires then (c, some entry.response) else (c.remove key, none)
  | none => (c, none)

def maxSerial : ℕ := 2 ^ 64 - 1

/-- The loop over the candidates, with the oldest so far. -/
def oldestOf : List (GoString × CacheEntry) → GoString × ℕ → GoString × ℕ
  | [], oldest => oldest
  | (candidate, entry) :: rest, oldest =>
    oldestOf rest (if entry.serial < oldest.2 then (candidate, entry.serial) else oldest)

def oldestKey (c : ResponseCache) : GoString := (oldestOf c.entries.entries ([], maxSerial)).1

/-- There are too many entries, or too many bytes. -/
def Over (c : ResponseCache) : Prop := c.maxEntries < c.entries.size ∨ (c.maxBytes : ℤ) < c.bytes

instance (c : ResponseCache) : Decidable c.Over := inferInstanceAs (Decidable (_ ∨ _))

/-- The loop of `put`, if it ends within so many rounds. -/
def evict : ℕ → ResponseCache → Option ResponseCache
  | 0, c => if c.Over then none else some c
  | rounds + 1, c => if c.Over then evict rounds (c.remove c.oldestKey) else some c

/-- The new entry is there, beside all others. -/
def insert (c : ResponseCache) (key : GoString) (response : ConnectorResponse) (expires : ℕ) :
    ResponseCache :=
  let serial := (c.serial + 1) % (maxSerial + 1)
  { c with
    entries := c.entries.set key ⟨response, expires, responseSize response, serial⟩
    bytes := c.bytes - ((c.entries.get key).elim 0 (·.size) : ℕ) + (responseSize response : ℕ)
    serial }

/-- A round that takes nothing away changes nothing, so a loop that ends takes no more rounds than
there are entries; of one that does not end there is no result. -/
def put (c : ResponseCache) (key : GoString) (response : ConnectorResponse) (expires : ℕ) :
    Option ResponseCache :=
  if c.maxBytes < responseSize response then some c
  else (c.insert key response expires).evict (c.insert key response expires).entries.size

end ResponseCache

inductive CacheCall
  | get (key : GoString) (now : ℕ)
  | put (key : GoString) (response : ConnectorResponse) (expires : ℕ)

/-- The cache after some calls, the last one first. -/
inductive CacheRun (maxEntries maxBytes : ℕ) : List CacheCall → ResponseCache → Prop
  | new : CacheRun maxEntries maxBytes [] (.new maxEntries maxBytes)
  | get {calls : List CacheCall} {c : ResponseCache} (key : GoString) (now : ℕ) :
      CacheRun maxEntries maxBytes calls c →
      CacheRun maxEntries maxBytes (.get key now :: calls) (c.get key now).1
  | put {calls : List CacheCall} {c c' : ResponseCache} (key : GoString)
      (response : ConnectorResponse) (expires : ℕ) : CacheRun maxEntries maxBytes calls c →
      c.put key response expires = some c' →
      CacheRun maxEntries maxBytes (.put key response expires :: calls) c'

end Cache

end Atlas.SourceGateway
