import Atlas.Cli.PluginRelease
import Atlas.Core.Environment

/-!
# The configuration of a source connector

How the gateway normalizes the connector it has decoded from a file of the plugin's. Strings are
valid UTF-8, since the decoder replaces what is not.
-/

namespace Atlas.SourceGateway.Config

abbrev GoString : Type := List Char

local instance : LawfulBEq GoString := List.instLawfulBEq

/-- What `url.Parse` reads, as far as it is looked at. -/
structure GoURL where
  scheme : GoString
  host : GoString
  user : Option GoString
  path : GoString
  rawQuery : GoString
  fragment : GoString
  deriving DecidableEq

/-- The parts of the libraries that rest on tables of Unicode or on the URL standard. -/
structure Library where
  toLower : GoString → GoString
  toUpper : GoString → GoString
  parseURL : GoString → Option GoURL
  validHeaderFieldName : GoString → Bool
  toLower_ascii : ∀ s : GoString, (∀ c ∈ s, c.val < 128) → toLower s = s.map Char.toLower
  toUpper_ascii : ∀ s : GoString, (∀ c ∈ s, c.val < 128) → toUpper s = s.map Char.toUpper
  /-- Header names are tokens. -/
  validHeaderFieldName_token : ∀ s : GoString, s ≠ [] → s.all Cli.isToken →
    validHeaderFieldName s = true

/-- What else holds of the libraries: header names are only tokens, and lower case is without
capitals. -/
structure NameLibrary extends Library where
  token_of_validHeaderFieldName : ∀ s : GoString, validHeaderFieldName s = true →
    s ≠ [] ∧ s.all Cli.isToken = true
  no_capital : ∀ s : GoString, ∀ c ∈ toLower s, c.isUpper = false

/-- `strings.TrimSpace`. -/
def trimSpace (s : GoString) : GoString :=
  ((s.dropWhile Core.isSpace).reverse.dropWhile Core.isSpace).reverse

/-- `strings.TrimRight` of slashes. -/
def trimRightSlash (s : GoString) : GoString := (s.reverse.dropWhile (· = '/')).reverse

def check (passes : Bool) (message : String) : Except String Unit :=
  if passes then .ok () else .error message

section Data

structure SecretRef where
  environment : GoString
  file : GoString
  valuePrefix : GoString
  deriving DecidableEq

structure RetryRule where
  maxRetries : ℤ
  statuses : List ℤ
  failures : List GoString
  idempotencyHeader : GoString
  deriving DecidableEq

structure RouteRule where
  method : GoString
  pathPrefix : GoString
  allowedQueryNames : List GoString
  allowedRequestHeaders : List GoString
  allowedResponseHeaders : List GoString
  readOnly : Bool
  cacheTTLMS : ℤ
  retry : RetryRule
  deriving DecidableEq

structure EgressPolicy where
  allowPrivate : Bool
  allowLoopback : Bool
  allowLinkLocal : Bool
  deriving DecidableEq

structure ConnectorLimits where
  timeoutMS : ℤ
  maxRequestBytes : ℤ
  maxResponseBytes : ℤ
  maxConcurrency : ℤ
  maxHeaderCount : ℤ
  maxHeaderBytes : ℤ
  deriving DecidableEq

structure BreakerConfig where
  failures : ℤ
  openMS : ℤ
  deriving DecidableEq

structure ConnectorConfig where
  id : GoString
  origin : GoString
  routes : List RouteRule
  secretHeaders : List (GoString × SecretRef)
  egress : EgressPolicy
  limits : ConnectorLimits
  requestsPerSecond : ℚ
  circuitBreaker : BreakerConfig
  deriving DecidableEq

end Data

section Decoding

def decodeRoute (route : Cli.PluginSourceRoute) : RouteRule where
  method := Cli.decoded route.method
  pathPrefix := Cli.decoded route.pathPrefix
  allowedQueryNames := route.allowedQueryNames.map Cli.decoded
  allowedRequestHeaders := route.allowedRequestHeaders.map Cli.decoded
  allowedResponseHeaders := route.allowedResponseHeaders.map Cli.decoded
  readOnly := route.readOnly
  cacheTTLMS := route.cacheTtlMs
  retry := ⟨route.retry.maxRetries, route.retry.statuses, route.retry.failures.map Cli.decoded,
    Cli.decoded route.retry.idempotencyHeader⟩

/-- What the decoder makes of the JSON text of a connector. -/
def decodeConnector (connector : Cli.PluginSourceConnector) : ConnectorConfig where
  id := Cli.decoded connector.id
  origin := Cli.decoded connector.origin
  routes := connector.routes.map decodeRoute
  secretHeaders := connector.secretHeaders.map fun header => header.2.elim
  egress := ⟨connector.egress.allowPrivate, connector.egress.allowLoopback,
    connector.egress.allowLinkLocal⟩
  limits := ⟨connector.limits.timeoutMs, connector.limits.maxRequestBytes,
    connector.limits.maxResponseBytes, connector.limits.maxConcurrency,
    connector.limits.maxHeaderCount, connector.limits.maxHeaderBytes⟩
  requestsPerSecond := connector.requestsPerSecond
  circuitBreaker := ⟨connector.circuitBreaker.failures, connector.circuitBreaker.openMs⟩

end Decoding

section Routes

def hopByHopHeaders : List GoString :=
  ["connection", "content-length", "keep-alive", "proxy-authenticate", "proxy-authorization",
    "proxy-connection", "te", "trailer", "transfer-encoding", "upgrade"].map String.toList

def fixedForbiddenRequestHeaders : List GoString :=
  hopByHopHeaders ++ ["host", "authorization", "cookie"].map String.toList

def fixedForbiddenResponseHeaders : List GoString :=
  hopByHopHeaders ++ ["authorization", "cookie", "set-cookie"].map String.toList

def methods : List GoString := ["GET", "HEAD", "POST", "PUT", "PATCH", "DELETE"].map String.toList

def failures : List GoString := ["upstream_timeout", "upstream_unreachable"].map String.toList

def printed (s : GoString) : String := String.ofList s

def validHeaderName (lib : Library) (name : GoString) : Bool :=
  name ≠ [] && lib.validHeaderFieldName name

def validateDecodedPath (path : GoString) : Except String Unit := do
  check ("/".toList.isPrefixOf path) "must be decoded UTF-8 text beginning with /"
  check (!(path.any (· ∈ ['\x00', '\\', '?', '#'])) && !"//".toList.isPrefixOf path)
    "must not contain an authority, query, fragment, NUL, or backslash"
  check ((path.splitOn '/').all fun segment => segment ≠ ".".toList && segment ≠ "..".toList)
    "must not contain . or .. segments"

def normalizedName (lib : Library) (header : Bool) (value : GoString) : GoString :=
  if header then lib.toLower (trimSpace value) else trimSpace value

/-- The loop of `normalizeNames`, with the names seen so far. -/
def normalizeNames (lib : Library) (header : Bool) :
    List GoString → List GoString → Except String (List GoString)
  | [], _ => return []
  | value :: rest, seen => do
    let value := normalizedName lib header value
    check (value ≠ [] && !(header && !validHeaderName lib value))
      ("name \"" ++ printed value ++ "\" is invalid")
    check (value ∉ seen) ("name \"" ++ printed value ++ "\" appears more than once")
    return value :: (← normalizeNames lib header rest (value :: seen))

/-- The loop over the statuses of a retry rule. -/
def checkStatuses : List ℤ → List ℤ → Except String Unit
  | [], _ => return
  | status :: rest, seenStatus => do
    check (100 ≤ status && status ≤ 599) ("retry status " ++ toString status ++ " is invalid")
    check (status ∉ seenStatus) ("retry status " ++ toString status ++ " appears more than once")
    checkStatuses rest (status :: seenStatus)

/-- The loop over the failures of a retry rule. -/
def normalizeFailures : List GoString → List GoString → Except String (List GoString)
  | [], _ => return []
  | failure :: rest, seenFailure => do
    let failure := trimSpace failure
    check (failure ∈ failures) ("retry failure \"" ++ printed failure ++ "\" is unsupported")
    check (failure ∉ seenFailure)
      ("retry failure \"" ++ printed failure ++ "\" appears more than once")
    return failure :: (← normalizeFailures rest (failure :: seenFailure))

/-- An error of a part, under the name of the part. -/
def within {α : Type} (part : String) (result : Except String α) : Except String α :=
  result.mapError (part ++ ": " ++ ·)

def normalizeRetry (lib : Library) (readOnly : Bool) (retry : RetryRule) :
    Except String RetryRule := do
  check (0 ≤ retry.maxRetries && retry.maxRetries ≤ 3)
    "retry.max_retries must be between 0 and 3"
  checkStatuses retry.statuses []
  let header := lib.toLower (trimSpace retry.idempotencyHeader)
  check (header = [] || validHeaderName lib header) "retry.idempotency_header is invalid"
  check (!(0 < retry.maxRetries && !readOnly && header = []))
    "retrying a mutating route requires idempotency_header"
  let retryFailures ← normalizeFailures retry.failures []
  return { retry with failures := retryFailures, idempotencyHeader := header }

/-- `RouteRule.normalize`. -/
def RouteRule.normalize (lib : Library) (r : RouteRule) : Except String RouteRule := do
  let method := lib.toUpper (trimSpace r.method)
  check (method ∈ methods) ("method \"" ++ printed method ++ "\" is unsupported")
  within "path_prefix" (validateDecodedPath r.pathPrefix)
  let queryNames ← within "allowed_query_names" (normalizeNames lib false r.allowedQueryNames [])
  let requestHeaders ← within "allowed_request_headers"
    (normalizeNames lib true r.allowedRequestHeaders [])
  check (!requestHeaders.any (· ∈ fixedForbiddenRequestHeaders)) "request header is forbidden"
  let responseHeaders ← within "allowed_response_headers"
    (normalizeNames lib true r.allowedResponseHeaders [])
  check (!responseHeaders.any (· ∈ fixedForbiddenResponseHeaders)) "response header is forbidden"
  check (0 ≤ r.cacheTTLMS && r.cacheTTLMS ≤ 3600000) "cache.ttl_ms must be between 0 and 3600000"
  check (!(0 < r.cacheTTLMS && !r.readOnly)) "cached routes must declare read_only"
  let retry ← normalizeRetry lib r.readOnly r.retry
  return ⟨method, r.pathPrefix, queryNames, requestHeaders, responseHeaders, r.readOnly,
    r.cacheTTLMS, retry⟩

def RouteRule.key (r : RouteRule) : GoString := r.method ++ " ".toList ++ r.pathPrefix

/-- The loop over the routes of a connector. -/
def normalizeRoutes (lib : Library) :
    List RouteRule → ℕ → List GoString → Except String (List RouteRule)
  | [], _, _ => return []
  | route :: rest, index, seenRoutes => do
    let route ← within ("routes[" ++ toString index ++ "]") (route.normalize lib)
    check (route.key ∉ seenRoutes)
      ("route " ++ printed route.key ++ " is configured more than once")
    return route :: (← normalizeRoutes lib rest (index + 1) (route.key :: seenRoutes))

end Routes

section Connector

def maxPluginIDLength : ℕ := 64

/-- `pluginid.Valid`. -/
def validPluginID (id : GoString) : Bool :=
  (id.map Char.utf8Size).sum ≤ maxPluginIDLength && Cli.pluginIdPattern id

def acceptsOrigin (origin : GoURL) : Bool :=
  (origin.scheme = "http".toList || origin.scheme = "https".toList) && origin.host ≠ []
    && origin.user = none && origin.path = [] && origin.rawQuery = [] && origin.fragment = []

/-- The loop over the secret headers, with those normalized so far. -/
def normalizeSecrets (lib : Library) :
    List (GoString × SecretRef) → List (GoString × SecretRef) →
      Except String (List (GoString × SecretRef))
  | [], normalized => return normalized
  | (name, reference) :: rest, normalized => do
    let name := lib.toLower (trimSpace name)
    check (validHeaderName lib name && name ∉ fixedForbiddenRequestHeaders)
      ("secret header \"" ++ printed name ++ "\" is invalid")
    let reference := { reference with
      environment := trimSpace reference.environment, file := trimSpace reference.file }
    check (decide (reference.environment = []) != decide (reference.file = []))
      ("secret header " ++ printed name ++ " must set exactly one of environment or file")
    check (name ∉ normalized.map Prod.fst)
      ("secret header " ++ printed name ++ " is configured more than once")
    normalizeSecrets lib rest (normalized ++ [(name, reference)])

/-- A limit that is zero is the default. -/
def orDefault (value fallback : ℤ) : ℤ := if value = 0 then fallback else value

/-- A default, then its bounds. -/
def bounded (value fallback maximum : ℤ) (name : String) : Except String ℤ := do
  let value := orDefault value fallback
  check (1 ≤ value && value ≤ maximum)
    (name ++ " must be between 1 and " ++ toString maximum)
  return value

/-- Nanoseconds of a duration, which wraps around. -/
def durationOfMilliseconds (ms : ℤ) : ℤ := (ms * 1000000).bmod (2 ^ 64)

def hardMaxTimeout : ℤ := 30 * 1000000000

def normalizeTimeout (value : ℤ) : Except String ℤ := do
  let value := orDefault value 10000
  check (1 ≤ value && durationOfMilliseconds value ≤ hardMaxTimeout)
    "limits.timeout_ms must be between 1 and 30000"
  return value

def normalizeLimits (limits : ConnectorLimits) : Except String ConnectorLimits := do
  return ⟨← normalizeTimeout limits.timeoutMS,
    ← bounded limits.maxRequestBytes (256 * 2 ^ 10) (4 * 2 ^ 20) "limits.max_request_bytes",
    ← bounded limits.maxResponseBytes (4 * 2 ^ 20) (16 * 2 ^ 20) "limits.max_response_bytes",
    ← bounded limits.maxConcurrency 4 64 "limits.max_concurrency",
    ← bounded limits.maxHeaderCount 64 128 "limits.max_header_count",
    ← bounded limits.maxHeaderBytes (64 * 2 ^ 10) (256 * 2 ^ 10) "limits.max_header_bytes"⟩

def normalizeBreaker (breaker : BreakerConfig) : Except String BreakerConfig := do
  return ⟨← bounded breaker.failures 3 100 "circuit_breaker.failures",
    ← bounded breaker.openMS 30000 3600000 "circuit_breaker.open_ms"⟩

/-- The last loop of `ConnectorConfig.normalize`. -/
def checkRoutes (secretHeaders : List (GoString × SecretRef)) :
    List RouteRule → ℕ → Except String Unit
  | [], _ => return
  | route :: rest, index => do
    check (!route.allowedRequestHeaders.any (· ∈ secretHeaders.map Prod.fst))
      "credential header cannot be supplied by Plugins"
    check (!(0 < route.retry.maxRetries && !route.readOnly
        && !route.allowedRequestHeaders.contains route.retry.idempotencyHeader))
      ("routes[" ++ toString index
        ++ "]: retry.idempotency_header must appear in allowed_request_headers")
    checkRoutes secretHeaders rest (index + 1)

/-- `ConnectorConfig.normalize`. -/
def ConnectorConfig.normalize (lib : Library) (c : ConnectorConfig) :
    Except String ConnectorConfig := do
  let id := trimSpace c.id
  check (validPluginID id) "id must match ^[a-z][a-z0-9]*(?:_[a-z0-9]+)*$"
  let origin := trimRightSlash (trimSpace c.origin)
  check ((lib.parseURL origin).any acceptsOrigin)
    "origin must be an HTTP origin without credentials, path, query, or fragment"
  check (!c.routes.isEmpty) "routes must contain at least one rule"
  let routes ← normalizeRoutes lib c.routes 0 []
  let secretHeaders ← normalizeSecrets lib c.secretHeaders []
  let limits ← normalizeLimits c.limits
  check (0 ≤ c.requestsPerSecond && c.requestsPerSecond ≤ 1000)
    "rate.requests_per_second must be between 0 and 1000"
  let circuitBreaker ← normalizeBreaker c.circuitBreaker
  checkRoutes secretHeaders routes 0
  return ⟨id, origin, routes, secretHeaders, c.egress, limits, c.requestsPerSecond, circuitBreaker⟩

end Connector

section Gateway

/-- `Config`. -/
structure GatewayConfig where
  listenAddress : GoString
  cacheMaxEntries : ℤ
  cacheMaxBytes : ℤ
  connectors : List ConnectorConfig
  deriving DecidableEq

/-- The loop over the connectors. -/
def normalizeConnectors (lib : Library) :
    List ConnectorConfig → ℕ → List GoString → Except String (List ConnectorConfig)
  | [], _, _ => return []
  | connector :: rest, index, seen => do
    let connector ← within ("connectors[" ++ toString index ++ "]") (connector.normalize lib)
    check (connector.id ∉ seen)
      ("connector ID \"" ++ printed connector.id ++ "\" is configured more than once")
    return connector :: (← normalizeConnectors lib rest (index + 1) (connector.id :: seen))

/-- `Config.normalize`. -/
def GatewayConfig.normalize (lib : Library) (c : GatewayConfig) :
    Except String GatewayConfig := do
  let listenAddress := trimSpace c.listenAddress
  let listenAddress := if listenAddress = [] then ":8080".toList else listenAddress
  let cacheMaxEntries ← bounded c.cacheMaxEntries 1024 100000 "cache_max_entries"
  let cacheMaxBytes ← bounded c.cacheMaxBytes (32 * 2 ^ 20) (256 * 2 ^ 20) "cache_max_bytes"
  let connectors ← normalizeConnectors lib c.connectors 0 []
  return ⟨listenAddress, cacheMaxEntries, cacheMaxBytes, connectors⟩

end Gateway

end Atlas.SourceGateway.Config
