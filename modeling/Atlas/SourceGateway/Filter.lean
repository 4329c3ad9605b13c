import Atlas.Lib.Base64
import Atlas.Lib.GoJsonWrite
import Atlas.Lib.OrderedMap
import Atlas.SourceGateway.Config

/-!
# What the gateway lets through

A request of a plugin is prepared for the route it is for, sent upstream with the secret headers of
the connector, and the answer comes back without the headers that the plugin is not to see. Strings
of a request are valid UTF-8, since its decoder replaces what is not; what comes from upstream is
bytes. A header map keeps its values by the canonical form of a name.
-/

namespace Atlas.SourceGateway

open Config

abbrev Bytes : Type := List UInt8

local instance : LawfulBEq GoString := List.instLawfulBEq

section Failures

inductive FailureCode
  | requestRejected
  | unknownConnector
  | responseTooLarge
  | upstreamUnreachable
  | circuitOpen
  | admissionTimeout
  | upstreamTimeout
  | requestCanceled
  deriving DecidableEq, Repr

def FailureCode.text : FailureCode → GoString
  | requestRejected => "request_rejected".toList
  | unknownConnector => "unknown_connector".toList
  | responseTooLarge => "response_too_large".toList
  | upstreamUnreachable => "upstream_unreachable".toList
  | circuitOpen => "circuit_open".toList
  | admissionTimeout => "admission_timeout".toList
  | upstreamTimeout => "upstream_timeout".toList
  | requestCanceled => "request_canceled".toList

/-- The errors that are told apart, and those that have only a text. -/
inductive ErrorName
  | canceled
  | deadlineExceeded
  | connectorDeadline
  | message (text : String)
  deriving DecidableEq, Repr

/-- An error as what `errors.Is` finds in it; none is empty. -/
abbrev GoError : Type := List ErrorName

structure GatewayError where
  code : FailureCode
  err : GoError
  deriving DecidableEq, Repr

def rejected (message : String) : GatewayError := ⟨.requestRejected, [.message message]⟩

end Failures

section Headers

/-- The libraries, with the test of header values. -/
structure WireLibrary extends NameLibrary where
  validHeaderFieldValue : Bytes → Bool

/-- The canonical form of a token: a capital at the start and after each hyphen. -/
def canonicalize : Bool → GoString → GoString
  | _, [] => []
  | upper, c :: rest => (if upper then c.toUpper else c.toLower) :: canonicalize (c = '-') rest

/-- `textproto.CanonicalMIMEHeaderKey`; what is no token stays. -/
def canonicalHeaderKey (name : GoString) : GoString :=
  if name.all Cli.isToken then canonicalize true name else name

/-- A header map as a response has it: its names are read in ASCII, and in canonical form. -/
structure Header where
  fields : OrderedMap GoString (List Bytes)
  ascii : ∀ name ∈ fields.keys, ∀ c ∈ name, c.val < 128
  canonical : ∀ name ∈ fields.keys, canonicalHeaderKey name = name

/-- `Header.Values`. -/
def Header.values (headers : Header) (name : GoString) : List Bytes :=
  (headers.fields.get (canonicalHeaderKey name)).getD []

abbrev HeaderTuple : Type := GoString × GoString

def validString (bytes : Bytes) : Bool := GoJson.utf8 (GoJson.runes bytes) = bytes

/-- The loop of `requireHeaderBudget`, with the bytes so far. -/
def headerSize (lib : WireLibrary) : List (Bytes × Bytes) → ℤ → Except String ℤ
  | [], size => return size
  | tuple :: rest, size => do
    check (validString tuple.1 && validString tuple.2 && lib.validHeaderFieldValue tuple.2)
      "headers must contain UTF-8 text"
    headerSize lib rest (size + (tuple.1.length + tuple.2.length : ℕ))

def requireHeaderBudget (lib : WireLibrary) (tuples : List (Bytes × Bytes))
    (maxCount maxBytes : ℤ) : Except String Unit := do
  check (tuples.length ≤ maxCount) ("header tuple count exceeds " ++ toString maxCount)
  let size ← headerSize lib tuples 0
  check (size ≤ maxBytes) ("header bytes exceed " ++ toString maxBytes)

/-- `strings.EqualFold` of header names. -/
def equalFold (lib : Library) (left right : GoString) : Bool := lib.toLower left = lib.toLower right

def containsHeader (lib : Library) (headers : List HeaderTuple) (name : GoString) : Bool :=
  headers.any fun header => equalFold lib header.1 name && header.2 ≠ []

end Headers

section Connectors

/-- The environment variables and files of a deployment. -/
structure Deployment where
  getenv : GoString → GoString
  readFile : GoString → Option GoString

def resolveSecret (deployment : Deployment) (header : GoString) (reference : SecretRef) :
    Except String GoString :=
  if reference.environment ≠ [] then do
    let value := trimSpace (deployment.getenv reference.environment)
    check (value ≠ []) ("environment variable " ++ printed reference.environment ++ " is empty")
    return value
  else do
    let some contents := deployment.readFile reference.file
      | throw ("read secret for " ++ printed header)
    let value := trimSpace contents
    check (value ≠ []) ("secret file for " ++ printed header ++ " is empty")
    return value

/-- The loop over the references. -/
def resolveSecretHeaders (lib : WireLibrary) (deployment : Deployment) :
    List (GoString × SecretRef) → Except String (List (GoString × Bytes))
  | [] => return []
  | (header, reference) :: rest => do
    let value ← resolveSecret deployment header reference
    let value := GoJson.utf8 (reference.valuePrefix ++ value)
    check (lib.validHeaderFieldValue value)
      ("secret for " ++ printed header ++ " is not a valid HTTP header value")
    return (header, value) :: (← resolveSecretHeaders lib deployment rest)

/-- A connector of a gateway that has started. -/
structure GatewayConnector (lib : WireLibrary) (deployment : Deployment) where
  config : ConnectorConfig
  secretHeaders : List (GoString × Bytes)
  normalized : ∃ raw : ConnectorConfig, raw.normalize lib.toLibrary = .ok config
  resolved : resolveSecretHeaders lib deployment config.secretHeaders = .ok secretHeaders

end Connectors

section Requests

def pluginToSourceGatewayProtocolMajor : ℤ := 1

structure ConnectorRequest where
  pluginToSourceGatewayProtocolMajor : ℤ
  method : GoString
  path : GoString
  query : List HeaderTuple
  headers : List HeaderTuple
  bodyBase64 : Option GoString

structure PreparedRequest where
  method : GoString
  path : GoString
  query : List HeaderTuple
  headers : List HeaderTuple
  body : Bytes
  deriving DecidableEq

/-- `base64.StdEncoding`, which differs from the encoding for URLs in two digits and is padded. -/
def encodeToString (bytes : Bytes) : GoString :=
  let digits := (Base64.encode bytes).map fun c =>
    if c = '-' then '+' else if c = '_' then '/' else c
  digits ++ List.replicate ((4 - digits.length % 4) % 4) '='

/-- What decodes strictly is what is encoded again to the same text. -/
def decodeString (text : GoString) : Option Bytes :=
  let digits := (text.takeWhile (· ≠ '=')).map fun c =>
    if c = '+' then '-' else if c = '/' then '_' else c
  match Base64.decode digits with
  | some bytes => if encodeToString bytes = text then some bytes else none
  | none => none

def decodeBody : Option GoString → Except String Bytes
  | none => return []
  | some text =>
    match decodeString text with
    | some decoded => return decoded
    | none => throw "body_base64 is invalid"

/-- The bytes of a name or value. -/
def tupleBytes (tuple : HeaderTuple) : Bytes × Bytes := (GoJson.utf8 tuple.1, GoJson.utf8 tuple.2)

/-- The loop of `route`, with what is selected so far. -/
def selectRoute (method path : GoString) : List RouteRule → Option RouteRule → Option RouteRule
  | [], selected => selected
  | rule :: rest, selected =>
    if rule.method = method ∧ rule.pathPrefix.isPrefixOf path ∧
        (∀ other ∈ selected,
          (GoJson.utf8 other.pathPrefix).length < (GoJson.utf8 rule.pathPrefix).length) then
      selectRoute method path rest (some rule)
    else selectRoute method path rest selected

variable {lib : WireLibrary} {deployment : Deployment}

def GatewayConnector.route (c : GatewayConnector lib deployment) (method path : GoString) :
    Option RouteRule :=
  selectRoute method path c.config.routes none

/-- The loop over the headers of a request, each of which gets its name in lower case. -/
def GatewayConnector.prepareHeaders (c : GatewayConnector lib deployment) (rule : RouteRule) :
    List HeaderTuple → Except String (List HeaderTuple)
  | [] => return []
  | (name, value) :: rest => do
    let name := lib.toLower name
    check (validHeaderName lib.toLibrary name && name ∉ fixedForbiddenRequestHeaders
        && name ∈ rule.allowedRequestHeaders)
      ("request header " ++ printed name ++ " is not allowed")
    check (name ∉ c.secretHeaders.map Prod.fst)
      ("credential header " ++ printed name ++ " cannot be supplied")
    return (name, value) :: (← c.prepareHeaders rule rest)

/-- `prepare`; every error of it rejects the request. -/
def GatewayConnector.prepare (c : GatewayConnector lib deployment) (input : ConnectorRequest) :
    Except String (PreparedRequest × RouteRule) := do
  check (input.pluginToSourceGatewayProtocolMajor =
      SourceGateway.pluginToSourceGatewayProtocolMajor)
    ("unsupported plugin_to_source_gateway_protocol_major "
      ++ toString input.pluginToSourceGatewayProtocolMajor)
  check (input.method = trimSpace input.method && input.method = lib.toUpper input.method)
    "method must use its canonical uppercase form"
  validateDecodedPath input.path
  let some rule := c.route input.method input.path
    | throw "request does not match an allowed route"
  check (input.query.all fun tuple => tuple.1 ∈ rule.allowedQueryNames) "query is not allowed"
  requireHeaderBudget lib (input.headers.map tupleBytes) c.config.limits.maxHeaderCount
    c.config.limits.maxHeaderBytes
  let headers ← c.prepareHeaders rule input.headers
  let body ← decodeBody input.bodyBase64
  check (body.length ≤ c.config.limits.maxRequestBytes) "request body exceeds connector limit"
  check (!(0 < rule.retry.maxRetries && !rule.readOnly
      && !containsHeader lib.toLibrary headers rule.retry.idempotencyHeader))
    "idempotency header is required"
  return (⟨input.method, input.path, input.query, headers, body⟩, rule)

/-- `Header.Add` and `Header.Set` of a request. -/
def addHeader (header : OrderedMap GoString (List Bytes)) (name : GoString) (value : Bytes) :
    OrderedMap GoString (List Bytes) :=
  header.set (canonicalHeaderKey name)
    ((header.get (canonicalHeaderKey name)).getD [] ++ [value])

def setHeader (header : OrderedMap GoString (List Bytes)) (name : GoString) (value : Bytes) :
    OrderedMap GoString (List Bytes) :=
  header.set (canonicalHeaderKey name) [value]

/-- The header map of the request that `attempt` sends upstream. -/
def GatewayConnector.requestHeader (c : GatewayConnector lib deployment)
    (prepared : PreparedRequest) : OrderedMap GoString (List Bytes) :=
  let added := prepared.headers.foldl
    (fun header tuple => addHeader header tuple.1 (GoJson.utf8 tuple.2)) OrderedMap.empty
  let withSecrets := c.secretHeaders.foldl
    (fun header secret => setHeader header secret.1 secret.2) added
  if containsHeader lib.toLibrary prepared.headers "user-agent".toList then withSecrets
  else setHeader withSecrets "User-Agent".toList []

/-- What of it is sent: the transport leaves the user agent out if it is blank. -/
def sentHeader (header : OrderedMap GoString (List Bytes)) : OrderedMap GoString (List Bytes) :=
  header.filter fun field => !(field.1 = "User-Agent".toList && field.2.head? = some [])

end Requests

section Responses

structure ConnectorResponse where
  status : ℕ
  headers : List (GoString × Bytes)
  bodyBase64 : GoString
  deriving DecidableEq

/-- What comes from upstream: no request can be made of it, no response comes, or one comes with a
body that may break off. -/
inductive UpstreamAnswer
  | invalid (message : String)
  | failed (err : GoError)
  | answered (status : ℕ) (header : Header) (body : Except GoError Bytes)

variable {lib : WireLibrary} {deployment : Deployment}

/-- The names that a `Connection` header holds. -/
def connectionNames (lib : Library) (headers : Header) : List GoString :=
  (headers.values "Connection".toList).flatMap fun value =>
    (value.splitOn 44).map fun name => lib.toLower (trimSpace (GoJson.runes name))

/-- The loop of `responseHeaders` over the sorted names, with those seen so far. -/
def collectHeaders (headers : Header) (kept : GoString → Bool) :
    List GoString → List GoString → List (GoString × Bytes)
  | [], _ => []
  | name :: rest, seen =>
    if name ∈ seen ∨ kept name = false then collectHeaders headers kept rest seen
    else (headers.values name).map (name, ·) ++ collectHeaders headers kept rest (name :: seen)

def GatewayConnector.responseHeaders (c : GatewayConnector lib deployment) (headers : Header)
    (allowedNames : List GoString) (limits : ConnectorLimits) :
    Except String (List (GoString × Bytes)) := do
  let connectionNamed := fixedForbiddenResponseHeaders ++ connectionNames lib.toLibrary headers
    ++ c.secretHeaders.map Prod.fst
  let names := (headers.fields.keys.map lib.toLower).insertionSort (· ≤ ·)
  let result := collectHeaders headers
    (fun name => name ∉ connectionNamed && name ∈ allowedNames) names []
  requireHeaderBudget lib (result.map fun tuple => (GoJson.utf8 tuple.1, tuple.2))
    limits.maxHeaderCount limits.maxHeaderBytes
  return result

def upstreamFailure (err : GoError) : GatewayError :=
  if .deadlineExceeded ∈ err then ⟨.upstreamTimeout, err⟩ else ⟨.upstreamUnreachable, err⟩

/-- What `attempt` makes of the answer. -/
def GatewayConnector.attempt (c : GatewayConnector lib deployment) (rule : RouteRule) :
    UpstreamAnswer → Except GatewayError ConnectorResponse
  | .invalid message => throw (rejected message)
  | .failed err => throw (upstreamFailure err)
  | .answered _ _ (.error err) => throw (upstreamFailure err)
  | .answered status header (.ok body) =>
    if c.config.limits.maxResponseBytes < body.length then throw ⟨.responseTooLarge, []⟩
    else
      match c.responseHeaders header rule.allowedResponseHeaders c.config.limits with
      | .error message => throw ⟨.responseTooLarge, [.message message]⟩
      | .ok headers => return ⟨status, headers, encodeToString body⟩

end Responses

end Atlas.SourceGateway
