import Atlas.Link.Sending

/-!
# The source connector of a plugin release

How the command line reads the `source_connector` of a release document. Strings are those of
JavaScript, in which a surrogate may stand alone.
-/

namespace Atlas.Cli

/-- A code point of a string: a scalar value, or a surrogate without its other half. -/
inductive CodePoint where
  | scalar (c : Char)
  | lone (surrogate : Fin 2048)
  deriving DecidableEq, Repr

abbrev JsString : Type := List CodePoint

instance : LawfulBEq JsString := List.instLawfulBEq

/-- A literal of the source. -/
def text (s : String) : JsString := s.toList.map .scalar

namespace CodePoint

def isSpace : CodePoint → Bool
  | scalar c => Link.isSpace c
  | lone _ => false

/-- Code units in UTF-16. -/
def units : CodePoint → ℕ
  | scalar c => if c.val < 0x10000 then 1 else 2
  | lone _ => 1

/-- Bytes of what `Buffer` encodes; a surrogate that stands alone becomes U+FFFD. -/
def bytes : CodePoint → ℕ
  | scalar c => c.utf8Size
  | lone _ => 3

def satisfies (p : Char → Bool) : CodePoint → Bool
  | scalar c => p c
  | lone _ => false

end CodePoint

/-- A string as UTF-8 text. A surrogate that stands alone becomes U+FFFD. -/
def decoded (s : JsString) : List Char :=
  s.map fun
    | .scalar c => c
    | .lone _ => '\ufffd'

def printed (s : JsString) : String := String.ofList (decoded s)

/-- `String.prototype.trim`. -/
def trim (s : JsString) : JsString :=
  ((s.dropWhile CodePoint.isSpace).reverse.dropWhile CodePoint.isSpace).reverse

/-- A number of a JSON document; one that is too large is read as infinity. -/
inductive JsNumber where
  | finite (q : ℚ)
  | infinite
  deriving DecidableEq

/-- A value `JSON.parse` gives. -/
inductive Json where
  | null
  | bool (b : Bool)
  | num (n : JsNumber)
  | str (s : JsString)
  | arr (items : List Json)
  | obj (fields : List (JsString × Json))

/-- What the WHATWG parser reads in a URL. -/
structure Url where
  protocol : JsString
  hostname : JsString
  username : JsString
  password : JsString
  pathname : JsString
  search : JsString
  hash : JsString
  deriving DecidableEq

/-- The parts of the standard library that rest on tables of Unicode or on the URL standard. -/
structure Library where
  toLowerCase : JsString → JsString
  toUpperCase : JsString → JsString
  parseURL : JsString → Option Url
  /-- Lower case has no capital letter left. -/
  no_capital : ∀ s, ∀ c : Char, .scalar c ∈ toLowerCase s → c.isUpper = false

def check (passes : Bool) (message : String) : Except String Unit :=
  if passes then .ok () else .error message

section Values

def maxStringBytes : ℕ := 2048

/-- `object[key]` of an object that has the key. -/
def field (object : List (JsString × Json)) (key : String) : Json :=
  (object.lookup (text key)).getD .null

/-- The sorted keys are compared; an object has no key twice. -/
def exactObject (value : Json) (expectedKeys : List String) (name : String) :
    Except String (List (JsString × Json)) :=
  match value with
  | .obj object => do
    check ((object.map Prod.fst).isPerm (expectedKeys.map text))
      (name ++ " contains missing or unknown fields")
    return object
  | _ => .error (name ++ " must be an object")

def arrayValue (value : Json) (name : String) : Except String (List Json) :=
  match value with
  | .arr items => .ok items
  | _ => .error (name ++ " must be an array")

def stringValue (value : Json) (name : String) : Except String JsString :=
  match value with
  | .str s => do
    check ((s.map CodePoint.bytes).sum ≤ maxStringBytes) (name ++ " exceeds 2048 UTF-8 bytes")
    return s
  | _ => .error (name ++ " must be a string")

/-- What `Number.isSafeInteger` accepts between two bounds. -/
def boundedInteger (value : Json) (name : String) (minimum maximum : ℤ) : Except String ℤ :=
  match value with
  | .num (.finite q) => do
    check (q.den = 1 && |q.num| < 2 ^ 53 && minimum ≤ q.num && q.num ≤ maximum)
      (name ++ " must be between " ++ toString minimum ++ " and " ++ toString maximum)
    return q.num
  | _ => .error (name ++ " must be between " ++ toString minimum ++ " and " ++ toString maximum)

def finiteNumber (value : Json) (name : String) : Except String ℚ :=
  match value with
  | .num (.finite q) => .ok q
  | _ => .error (name ++ " must be a finite number")

def booleanValue (value : Json) (name : String) : Except String Bool :=
  match value with
  | .bool b => .ok b
  | _ => .error (name ++ " must be boolean")

def isTrue : Json → Bool
  | .bool b => b
  | _ => false

end Values

section Names

def isLowerAlnum (c : Char) : Bool := ('a' ≤ c && c ≤ 'z') || ('0' ≤ c && c ≤ '9')

/-- `[a-z0-9]*(?:_[a-z0-9]+)*$`. -/
def pluginIdTail : List Char → Bool
  | [] => true
  | '_' :: c :: rest => isLowerAlnum c && pluginIdTail rest
  | c :: rest => isLowerAlnum c && pluginIdTail rest

/-- `^[a-z][a-z0-9]*(?:_[a-z0-9]+)*$`. -/
def pluginIdPattern : List Char → Bool
  | [] => false
  | c :: rest => ('a' ≤ c && c ≤ 'z') && pluginIdTail rest

/-- The characters of a string in which no surrogate stands alone. -/
def chars : JsString → Option (List Char)
  | [] => some []
  | .scalar c :: rest => (chars rest).map (c :: ·)
  | .lone _ :: _ => none

def pluginIdValue (value : Json) (name : String) (maximum : ℕ) : Except String JsString := do
  let result ← stringValue value name
  check ((result.map CodePoint.units).sum ≤ maximum && (chars result).any pluginIdPattern)
    (name ++ " is not a valid Plugin ID")
  return result

def isToken (c : Char) : Bool :=
  c ∈ ['!', '#', '$', '%', '&', '\'', '*', '+', '-', '.', '^', '_', Char.ofNat 96, '|', '~']
    || ('0' ≤ c && c ≤ '9') || ('A' ≤ c && c ≤ 'Z') || ('a' ≤ c && c ≤ 'z')

def headerName (value : JsString) : Bool := value ≠ [] && value.all (·.satisfies isToken)

def nameValue (lib : Library) (headers : Bool) (field : String) (entry : Json) :
    Except String JsString := do
  let name := trim (← stringValue entry field)
  let normalized := if headers then lib.toLowerCase name else name
  check (normalized ≠ [] && !(headers && !headerName normalized))
    (field ++ " contains an invalid name")
  return normalized

def namesValue (lib : Library) (value : Json) (headers : Bool) (field : String) :
    Except String (List JsString) := do
  let result ← (← arrayValue value field).mapM (nameValue lib headers field)
  check (decide result.Nodup) (field ++ " contains duplicate names")
  return result

end Names

section Routes

structure RouteRetry where
  maxRetries : ℤ
  statuses : List ℤ
  failures : List JsString
  idempotencyHeader : JsString
  deriving DecidableEq

structure PluginSourceRoute where
  method : JsString
  pathPrefix : JsString
  allowedQueryNames : List JsString
  allowedRequestHeaders : List JsString
  allowedResponseHeaders : List JsString
  readOnly : Bool
  cacheTtlMs : ℤ
  retry : RouteRetry
  deriving DecidableEq

def methods : List JsString := ["GET", "HEAD", "POST", "PUT", "PATCH", "DELETE"].map text

def forbiddenRequestHeaders : List JsString :=
  ["connection", "content-length", "keep-alive", "proxy-authenticate", "proxy-authorization",
    "proxy-connection", "te", "trailer", "transfer-encoding", "upgrade", "host", "authorization",
    "cookie"].map text

def forbiddenResponseHeaders : List JsString :=
  ["connection", "content-length", "keep-alive", "proxy-authenticate", "proxy-authorization",
    "proxy-connection", "te", "trailer", "transfer-encoding", "upgrade", "authorization", "cookie",
    "set-cookie"].map text

def retryFailures : List JsString := ["upstream_timeout", "upstream_unreachable"].map text

/-- Of neither `\`, `?`, `#` nor NUL. -/
def isPathCharacter : CodePoint → Bool
  | .scalar c => c ≠ '\\' && c ≠ '?' && c ≠ '#' && c ≠ '\x00'
  | .lone _ => true

def validPathPrefix (path : JsString) : Bool :=
  (text "/").isPrefixOf path && !(text "//").isPrefixOf path && path.all isPathCharacter
    && (path.splitOn (.scalar '/')).all fun part => part ≠ text "." && part ≠ text ".."

def PluginSourceRoute.key (route : PluginSourceRoute) : JsString :=
  route.method ++ text " " ++ route.pathPrefix

def statusValue (status : Json × ℕ) : Except String ℤ :=
  boundedInteger status.1 ("route.retry.statuses[" ++ toString status.2 ++ "]") 100 599

def failureValue (failure : Json) : Except String JsString := do
  return trim (← stringValue failure "route.retry.failure")

def retryValue (lib : Library) (value : Json) : Except String RouteRetry := do
  let retry ← exactObject value ["max_retries", "statuses", "failures", "idempotency_header"]
    "route.retry"
  let maxRetries ← boundedInteger (field retry "max_retries") "route.retry.max_retries" 0 3
  let statuses ←
    (← arrayValue (field retry "statuses") "route.retry.statuses").zipIdx.mapM statusValue
  check (decide statuses.Nodup) "route retry statuses contain duplicates"
  let failures ← (← arrayValue (field retry "failures") "route.retry.failures").mapM failureValue
  check (failures.all (· ∈ retryFailures) && decide failures.Nodup)
    "route retry failures are invalid"
  let header := lib.toLowerCase
    (trim (← stringValue (field retry "idempotency_header") "route.retry.idempotency_header"))
  check (header = [] || headerName header) "route retry idempotency_header is invalid"
  return ⟨maxRetries, statuses, failures, header⟩

def routeValue (lib : Library) (value : Json) (index : ℕ) (seenRoutes : List JsString) :
    Except String PluginSourceRoute := do
  let object ← exactObject value
    ["method", "path_prefix", "allowed_query_names", "allowed_request_headers",
      "allowed_response_headers", "read_only", "cache", "retry"]
    ("source_connector.routes[" ++ toString index ++ "]")
  let method := lib.toUpperCase (trim (← stringValue (field object "method") "route.method"))
  check (method ∈ methods) ("route " ++ toString index ++ " method is unsupported")
  let path ← stringValue (field object "path_prefix") "route.path_prefix"
  check (validPathPrefix path) ("route " ++ toString index ++ " path_prefix is invalid")
  let queryNames ← namesValue lib (field object "allowed_query_names") false
    "route.allowed_query_names"
  let requestHeaders ← namesValue lib (field object "allowed_request_headers") true
    "route.allowed_request_headers"
  let responseHeaders ← namesValue lib (field object "allowed_response_headers") true
    "route.allowed_response_headers"
  let key := method ++ text " " ++ path
  check (key ∉ seenRoutes) ("route " ++ printed key ++ " is duplicated")
  check (!requestHeaders.any (· ∈ forbiddenRequestHeaders))
    "route has a forbidden request header"
  check (!responseHeaders.any (· ∈ forbiddenResponseHeaders))
    "route has a forbidden response header"
  check (isTrue (field object "read_only")) "query_only releases require read_only: true"
  let cache ← exactObject (field object "cache") ["ttl_ms"] "route.cache"
  let ttl ← boundedInteger (field cache "ttl_ms") "route.cache.ttl_ms" 0 3600000
  let retry ← retryValue lib (field object "retry")
  return ⟨method, path, queryNames, requestHeaders, responseHeaders, true, ttl, retry⟩

/-- The routes in order, with the keys of those before in the set of seen routes. -/
def routeValues (lib : Library) :
    List Json → ℕ → List JsString → Except String (List PluginSourceRoute)
  | [], _, _ => return []
  | raw :: rest, index, seenRoutes => do
    let route ← routeValue lib raw index seenRoutes
    return route :: (← routeValues lib rest (index + 1) (route.key :: seenRoutes))

end Routes

section Connector

structure Egress where
  allowPrivate : Bool
  allowLoopback : Bool
  allowLinkLocal : Bool
  deriving DecidableEq

structure Limits where
  timeoutMs : ℤ
  maxRequestBytes : ℤ
  maxResponseBytes : ℤ
  maxConcurrency : ℤ
  maxHeaderCount : ℤ
  maxHeaderBytes : ℤ
  deriving DecidableEq

structure CircuitBreaker where
  failures : ℤ
  openMs : ℤ
  deriving DecidableEq

/-- What the parser returns. Its secret headers are an object without keys. -/
structure PluginSourceConnector where
  id : JsString
  origin : JsString
  routes : List PluginSourceRoute
  secretHeaders : List (JsString × Empty)
  egress : Egress
  limits : Limits
  requestsPerSecond : ℚ
  circuitBreaker : CircuitBreaker
  deriving DecidableEq

def acceptsOrigin (url : Url) : Bool :=
  (url.protocol = text "http:" || url.protocol = text "https:") && url.hostname ≠ []
    && url.username = [] && url.password = [] && (url.pathname = text "/" || url.pathname = [])
    && url.search = [] && url.hash = []

def originValue (lib : Library) (value : Json) : Except String JsString := do
  let origin ← stringValue value "source_connector.origin"
  match lib.parseURL origin with
  | none => .error "source_connector.origin must be an HTTP origin"
  | some url => do
    check (acceptsOrigin url)
      "source_connector.origin must be an HTTP origin without credentials or path"
    return origin

def egressValue (value : Json) : Except String Egress := do
  let egress ← exactObject value ["allow_private", "allow_loopback", "allow_link_local"]
    "source_connector.egress"
  return ⟨← booleanValue (field egress "allow_private") "egress.allow_private",
    ← booleanValue (field egress "allow_loopback") "egress.allow_loopback",
    ← booleanValue (field egress "allow_link_local") "egress.allow_link_local"⟩

def limitsValue (value : Json) : Except String Limits := do
  let limits ← exactObject value ["timeout_ms", "max_request_bytes", "max_response_bytes",
    "max_concurrency", "max_header_count", "max_header_bytes"] "source_connector.limits"
  return ⟨← boundedInteger (field limits "timeout_ms") "limits.timeout_ms" 1 30000,
    ← boundedInteger (field limits "max_request_bytes") "limits.max_request_bytes" 1 (4 * 2 ^ 20),
    ← boundedInteger (field limits "max_response_bytes") "limits.max_response_bytes" 1
      (16 * 2 ^ 20),
    ← boundedInteger (field limits "max_concurrency") "limits.max_concurrency" 1 64,
    ← boundedInteger (field limits "max_header_count") "limits.max_header_count" 1 128,
    ← boundedInteger (field limits "max_header_bytes") "limits.max_header_bytes" 1 (256 * 2 ^ 10)⟩

def rateValue (value : Json) : Except String ℚ := do
  let rate ← exactObject value ["requests_per_second"] "source_connector.rate"
  let requestsPerSecond ← finiteNumber (field rate "requests_per_second") "rate.requests_per_second"
  check (0 ≤ requestsPerSecond && requestsPerSecond ≤ 1000)
    "rate.requests_per_second is out of range"
  return requestsPerSecond

def circuitBreakerValue (value : Json) : Except String CircuitBreaker := do
  let breaker ← exactObject value ["failures", "open_ms"] "source_connector.circuit_breaker"
  return ⟨← boundedInteger (field breaker "failures") "circuit_breaker.failures" 1 100,
    ← boundedInteger (field breaker "open_ms") "circuit_breaker.open_ms" 1 3600000⟩

def sourceConnectorValue (lib : Library) (value : Json) (pluginId : JsString) :
    Except String PluginSourceConnector := do
  let object ← exactObject value
    ["id", "origin", "routes", "secret_headers", "egress", "limits", "rate", "circuit_breaker"]
    "source_connector"
  let id ← pluginIdValue (field object "id") "source_connector.id" 50
  check (id = pluginId) "source_connector.id must equal plugin_id"
  let origin ← originValue lib (field object "origin")
  let _ ← exactObject (field object "secret_headers") [] "source_connector.secret_headers"
  let routesValues ← arrayValue (field object "routes") "source_connector.routes"
  check (!routesValues.isEmpty) "source_connector.routes must not be empty"
  let routes ← routeValues lib routesValues 0 []
  let egress ← egressValue (field object "egress")
  let limits ← limitsValue (field object "limits")
  let requestsPerSecond ← rateValue (field object "rate")
  let circuitBreaker ← circuitBreakerValue (field object "circuit_breaker")
  return ⟨id, origin, routes, [], egress, limits, requestsPerSecond, circuitBreaker⟩

end Connector

end Atlas.Cli
