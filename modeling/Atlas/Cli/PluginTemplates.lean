import Atlas.Cli.PluginCatalog
import Atlas.Lib.OrderedMap
import Atlas.Lib.Replacing

/-!
# Plugin templates

How the active files of a plugin are made from templates, in which markers stand for values of its
release.
-/

namespace Atlas.Cli

open Replacing

section Markers

def templateMarkers : List JsString :=
  ["@atlas/plugin-id@", "@atlas/plugin-service@", "@atlas/plugin-image@", "@atlas/display-name@",
    "@atlas/core-endpoint-id@", "@atlas/core-endpoint-mount@", "@atlas/core-protocol-major@",
    "@atlas/core-origin@", "@atlas/api-auth-key@", "@atlas/source-gateway-protocol-major@",
    "@atlas/atlas-protocol-revision@", "@atlas/source-connector-config-dir@",
    "@atlas/source-connector-mount@", "@atlas/source-connector-json@"].map text

/-- `[^@\s]`. -/
def isMarkerCharacter (c : CodePoint) : Bool := c ≠ .scalar '@' && !c.isSpace

/-- The match of `@atlas\/[^@\s]+@` at the start of a text. -/
def markerAt (s : JsString) : Option JsString :=
  let start := text "@atlas/"
  if start.isPrefixOf s then
    let name := (s.drop start.length).takeWhile isMarkerCharacter
    if name ≠ [] && ((s.drop start.length).drop name.length).head? = some (.scalar '@') then
      some (start ++ name ++ [.scalar '@'])
    else none
  else none

/-- A text taken apart at the matches, which do not overlap; `skip` characters are of the last. -/
def tokensFrom : ℕ → JsString → List (Token CodePoint)
  | _, [] => []
  | skip + 1, _ :: rest => tokensFrom skip rest
  | 0, c :: rest =>
    match markerAt (c :: rest) with
    | some m => .marker m :: tokensFrom (m.length - 1) rest
    | none => .literal c :: tokensFrom 0 rest

def tokens (s : JsString) : List (Token CodePoint) := tokensFrom 0 s

/-- `value.match(TEMPLATE_MARKER) ?? []`. -/
def markersOf (s : JsString) : List JsString := markers (tokens s)

end Markers

section Rendering

/-- What `replaceAll` puts in for a match of a text: `$$`, `$&` and the two for what is before and
after the match stand for something, and a dollar sign stands for itself otherwise. -/
def getSubstitution (matched before after : JsString) : JsString → JsString
  | .scalar '$' :: .scalar '$' :: rest => .scalar '$' :: getSubstitution matched before after rest
  | .scalar '$' :: .scalar '&' :: rest => matched ++ getSubstitution matched before after rest
  | .scalar '$' :: .scalar '\x60' :: rest => before ++ getSubstitution matched before after rest
  | .scalar '$' :: .scalar '\'' :: rest => after ++ getSubstitution matched before after rest
  | c :: rest => c :: getSubstitution matched before after rest
  | [] => []

abbrev Replacements : Type := List (JsString × Json)

def objectPlaceholder (marker : JsString) : String :=
  "Object placeholder " ++ printed marker ++ " must stand alone."

/-- One pass of the loop over the markers of a text. -/
def replaceMarker (replacements : Replacements) (rendered : JsString) (marker : JsString) :
    Except String JsString :=
  match replacements.lookup marker with
  | some (.str replacement) =>
    .ok (replaceAll marker (fun before after => getSubstitution marker before after replacement)
      rendered)
  | _ => .error (objectPlaceholder marker)

def renderString (replacements : Replacements) (value : JsString) : Except String Json := do
  let markers := markersOf value
  match markers.find? (· ∉ templateMarkers) with
  | some marker => throw ("Unknown Plugin template placeholder " ++ printed marker ++ ".")
  | none =>
    if markers = [value] then return (replacements.lookup value).getD .null
    else return .str (← markers.foldlM (replaceMarker replacements) value)

/-- `Object.fromEntries`: of two entries with one key the later is kept, where the first was. -/
def fromEntries (entries : List (JsString × Json)) : Json :=
  .obj (entries.foldl (fun object entry => object.set entry.1 entry.2) OrderedMap.empty).entries

def keyValue (renderedKey : Json) : Except String JsString :=
  match renderedKey with
  | .str key => .ok key
  | _ => .error "Plugin template object keys must be strings."

variable (string : JsString → Except String Json)

mutual

/-- The recursion of `renderTemplateValue`, with what becomes of a text as a parameter. -/
def renderWith : Json → Except String Json
  | .str s => string s
  | .arr items => do return .arr (← renderItems items)
  | .obj fields => do return fromEntries (← renderFields fields)
  | value => .ok value

def renderItems : List Json → Except String (List Json)
  | [] => .ok []
  | item :: rest => do return (← renderWith item) :: (← renderItems rest)

def renderFields : List (JsString × Json) → Except String (List (JsString × Json))
  | [] => .ok []
  | (key, item) :: rest => do
    let renderedKey ← keyValue (← string key)
    return (renderedKey, ← renderWith item) :: (← renderFields rest)

end

end Rendering

def renderTemplateValue (value : Json) (replacements : Replacements) : Except String Json :=
  renderWith (renderString replacements) value

section Replacements

def serviceName (pluginId : JsString) : JsString :=
  text "atlas-plugin-" ++ pluginId.map fun c => if c = .scalar '_' then .scalar '-' else c

def jsonObject (fields : List (String × Json)) : Json :=
  .obj (fields.map fun entry => (text entry.1, entry.2))

def jsonInteger (n : ℤ) : Json := .num (.finite n)

def jsonStrings (names : List JsString) : Json := .arr (names.map .str)

def PluginSourceRoute.json (route : PluginSourceRoute) : Json :=
  jsonObject
    [("method", .str route.method), ("path_prefix", .str route.pathPrefix),
      ("allowed_query_names", jsonStrings route.allowedQueryNames),
      ("allowed_request_headers", jsonStrings route.allowedRequestHeaders),
      ("allowed_response_headers", jsonStrings route.allowedResponseHeaders),
      ("read_only", .bool route.readOnly),
      ("cache", jsonObject [("ttl_ms", jsonInteger route.cacheTtlMs)]),
      ("retry", jsonObject
        [("max_retries", jsonInteger route.retry.maxRetries),
          ("statuses", .arr (route.retry.statuses.map jsonInteger)),
          ("failures", jsonStrings route.retry.failures),
          ("idempotency_header", .str route.retry.idempotencyHeader)])]

/-- The connector is an object with the keys of the release document. -/
def PluginSourceConnector.json (connector : PluginSourceConnector) : Json :=
  jsonObject
    [("id", .str connector.id), ("origin", .str connector.origin),
      ("routes", .arr (connector.routes.map PluginSourceRoute.json)),
      ("secret_headers", .obj []),
      ("egress", jsonObject [("allow_private", .bool connector.egress.allowPrivate),
        ("allow_loopback", .bool connector.egress.allowLoopback),
        ("allow_link_local", .bool connector.egress.allowLinkLocal)]),
      ("limits", jsonObject
        [("timeout_ms", jsonInteger connector.limits.timeoutMs),
          ("max_request_bytes", jsonInteger connector.limits.maxRequestBytes),
          ("max_response_bytes", jsonInteger connector.limits.maxResponseBytes),
          ("max_concurrency", jsonInteger connector.limits.maxConcurrency),
          ("max_header_count", jsonInteger connector.limits.maxHeaderCount),
          ("max_header_bytes", jsonInteger connector.limits.maxHeaderBytes)]),
      ("rate", jsonObject [("requests_per_second", .num (.finite connector.requestsPerSecond))]),
      ("circuit_breaker", jsonObject [("failures", jsonInteger connector.circuitBreaker.failures),
        ("open_ms", jsonInteger connector.circuitBreaker.openMs)])]

def orNull {α : Type} (json : α → Json) : Option α → Json
  | some a => json a
  | none => .null

/-- The replacements of `#writeActive`. -/
def replacements (release : PluginRelease) : Replacements :=
  let mount (kind directory : String) : JsString :=
    text "$\x7bATLAS_PLUGIN_CONFIG_ROOT:-plugins\x7d/" ++ release.pluginId ++ text "/active/"
      ++ text kind ++ text ".json:/app/" ++ text directory ++ text "/" ++ release.pluginId
      ++ text ".json:ro"
  [("@atlas/plugin-id@", .str release.pluginId),
    ("@atlas/plugin-service@", .str (serviceName release.pluginId)),
    ("@atlas/plugin-image@", .str release.image),
    ("@atlas/display-name@", .str release.displayName),
    ("@atlas/core-endpoint-id@", .str release.pluginId),
    ("@atlas/core-endpoint-mount@", .str (mount "core-endpoint" "plugin-endpoints")),
    ("@atlas/core-protocol-major@", jsonInteger release.coreToPluginProtocolMajor),
    ("@atlas/core-origin@",
      orNull (fun _ => .str (text "http://api:8000")) release.atlasProtocolRevision),
    ("@atlas/api-auth-key@",
      orNull (fun _ => .str (text "$\x7bATLAS_PLUGIN_API_KEY\x7d")) release.atlasProtocolRevision),
    ("@atlas/source-gateway-protocol-major@",
      jsonInteger release.pluginToSourceGatewayProtocolMajor),
    ("@atlas/atlas-protocol-revision@", .str (release.atlasProtocolRevision.getD [])),
    ("@atlas/source-connector-config-dir@",
      orNull (fun _ => .str (text "/app/source-connectors")) release.sourceConnector),
    ("@atlas/source-connector-mount@",
      orNull (fun _ => .str (mount "source-connector" "source-connectors"))
        release.sourceConnector),
    ("@atlas/source-connector-json@",
      orNull PluginSourceConnector.json release.sourceConnector)].map fun entry =>
    (text entry.1, entry.2)

end Replacements

end Atlas.Cli
