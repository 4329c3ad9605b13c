import Atlas.Cli.PluginRelease
import Atlas.Lib.Decimals

/-!
# The plugin catalog and the choice of an update

How the command line reads the plugins of a catalog and a release document, which releases it
offers as candidates, and which of them it plans an update to.
-/

namespace Atlas.Cli

section Versions

def isDigit : CodePoint → Bool := CodePoint.satisfies Char.isDigit

/-- `0|[1-9]\d*`. -/
def versionPart (part : JsString) : Bool :=
  part = text "0"
    || (part.head?.any fun c => isDigit c && c ≠ .scalar '0') && part.all isDigit

/-- `^(?:0|[1-9]\d*)\.(?:0|[1-9]\d*)\.(?:0|[1-9]\d*)$`. -/
def versionPattern (s : JsString) : Bool :=
  match s.splitOn (.scalar '.') with
  | [major, minor, patch] => versionPart major && versionPart minor && versionPart patch
  | _ => false

/-- A stable semantic version. -/
@[ext]
structure Version where
  val : JsString
  accepted : (val.map CodePoint.bytes).sum ≤ maxStringBytes ∧ versionPattern val = true
  deriving DecidableEq

def semverValue (value : Json) (name : String) : Except String Version := do
  let result ← stringValue value name
  if h : (result.map CodePoint.bytes).sum ≤ maxStringBytes ∧ versionPattern result = true then
    return ⟨result, h⟩
  else
    throw (name ++ " must be a stable Semantic Version")

def digit : CodePoint → ℕ
  | .scalar c => c.toNat - '0'.toNat
  | .lone _ => 0

/-- `left.split(".").map((part) => BigInt(part))`. -/
def Version.parts (v : Version) : List ℕ :=
  (v.val.splitOn (.scalar '.')).map (Decimals.value digit)

def compareParts : List ℕ → List ℕ → ℤ
  | a :: as, b :: bs => if a ≠ b then if b < a then 1 else -1 else compareParts as bs
  | _, _ => 0

def compareSemver (left right : Version) : ℤ := compareParts left.parts right.parts

/-- The versions passed the check before, so that it does not fail here. -/
def comparePluginVersions (left right : Version) : ℤ := compareSemver left right

end Versions

section Values

def maxPlugins : ℕ := 128

def maxReleases : ℕ := 256

def displayNameValue (value : Json) (name : String) : Except String JsString := do
  let result ← stringValue value name
  check (result ≠ [] && trim result = result && result.length ≤ 100)
    (name ++ " must be a trimmed string of 1 to 100 characters")
  return result

def isHex (c : Char) : Bool := ('0' ≤ c && c ≤ '9') || ('a' ≤ c && c ≤ 'f')

/-- `sha256:[0-9a-f]{64}`. -/
def hashPattern (s : JsString) : Bool :=
  (text "sha256:").isPrefixOf s && (s.drop 7).length = 64 && (s.drop 7).all (·.satisfies isHex)

def hashValue (value : Json) (name : String) : Except String JsString := do
  let result ← stringValue value name
  check (hashPattern result) (name ++ " must be a lowercase SHA-256 digest")
  return result

def hashOrNull (value : Json) (name : String) : Except String (Option JsString) :=
  match value with
  | .null => .ok none
  | _ => do return some (← hashValue value name)

def positiveSafeInteger (value : Json) (name : String) : Except String ℤ :=
  match value with
  | .num (.finite q) => do
    check (q.den = 1 && |q.num| < 2 ^ 53 && 1 ≤ q.num) (name ++ " must be a positive safe integer")
    return q.num
  | _ => .error (name ++ " must be a positive safe integer")

def isOne : Json → Bool
  | .num (.finite q) => q = 1
  | _ => false

def isText (s : String) : Json → Bool
  | .str t => t = text s
  | _ => false

end Values

section Catalog

structure PluginCatalogRelease where
  pluginId : JsString
  version : Version
  displayName : JsString
  documentUrl : JsString
  documentSha256 : JsString
  revoked : Bool
  revocationReason : Option JsString
  deriving DecidableEq

structure PluginCatalogPlugin where
  pluginId : JsString
  releases : List PluginCatalogRelease

def releaseUrl (pluginId : JsString) (version : Version) : JsString :=
  text "https://github.com/the-Drunken-coder/Atlas-Modernization/releases/download/atlas-plugin-"
    ++ pluginId ++ text "-v" ++ version.val ++ text "/" ++ pluginId ++ text "-" ++ version.val
    ++ text ".atlas-plugin"

def releaseUrlValue (value : Json) (pluginId : JsString) (version : Version) :
    Except String JsString := do
  let result ← stringValue value "document_url"
  check (result = releaseUrl pluginId version)
    "document_url does not match the immutable GitHub Release asset"
  return result

def revokedValue (value : Json) : Except String Bool :=
  match value with
  | .bool b => .ok b
  | _ => .error "catalog release revoked must be boolean"

def revocationReasonValue (value : Json) : Except String (Option JsString) :=
  match value with
  | .null => .ok none
  | _ => do return some (← stringValue value "revocation_reason")

def catalogReleaseValue (raw : Json) (pluginId : JsString) (releaseIndex : ℕ)
    (seenVersions : List Version) : Except String PluginCatalogRelease := do
  let release ← exactObject raw
    ["version", "display_name", "document_url", "document_sha256", "revoked", "revocation_reason"]
    ("catalog release " ++ printed pluginId ++ "[" ++ toString releaseIndex ++ "]")
  let version ← semverValue (field release "version") "catalog release version"
  check (version ∉ seenVersions)
    ("Plugin catalog contains duplicate " ++ printed pluginId ++ " version " ++ printed version.val)
  let displayName ← displayNameValue (field release "display_name") "catalog release display_name"
  let documentSha256 ← hashValue (field release "document_sha256") "document_sha256"
  let documentUrl ← releaseUrlValue (field release "document_url") pluginId version
  let revoked ← revokedValue (field release "revoked")
  let revocationReason ← revocationReasonValue (field release "revocation_reason")
  check (!revoked || revocationReason.any fun reason => reason ≠ [] && trim reason = reason)
    "revoked catalog release requires a reason"
  check (revoked || revocationReason.isNone)
    "non-revoked catalog release must not have a revocation reason"
  return ⟨pluginId, version, displayName, documentUrl, documentSha256, revoked, revocationReason⟩

/-- The releases of a plugin in order, with the versions of those before in the set of seen ones. -/
def catalogReleaseValues (pluginId : JsString) :
    List Json → ℕ → List Version → Except String (List PluginCatalogRelease)
  | [], _, _ => return []
  | raw :: rest, releaseIndex, seenVersions => do
    let release ← catalogReleaseValue raw pluginId releaseIndex seenVersions
    return release ::
      (← catalogReleaseValues pluginId rest (releaseIndex + 1) (release.version :: seenVersions))

def catalogPluginValue (entry : Json) (index : ℕ) (seenPlugins : List JsString) :
    Except String PluginCatalogPlugin := do
  let item ← exactObject entry ["plugin_id", "releases"]
    ("Plugin catalog plugins[" ++ toString index ++ "]")
  let pluginId ← pluginIdValue (field item "plugin_id")
    ("plugins[" ++ toString index ++ "].plugin_id") 50
  check (pluginId ∉ seenPlugins) ("Plugin catalog contains duplicate Plugin " ++ printed pluginId)
  let releaseValues ← arrayValue (field item "releases")
    ("plugins[" ++ toString index ++ "].releases")
  check (releaseValues.length ≤ maxReleases)
    ("Plugin catalog Plugin " ++ printed pluginId ++ " has too many releases")
  return ⟨pluginId, ← catalogReleaseValues pluginId releaseValues 0 []⟩

def catalogPluginValues :
    List Json → ℕ → List JsString → Except String (List PluginCatalogPlugin)
  | [], _, _ => return []
  | entry :: rest, index, seenPlugins => do
    let plugin ← catalogPluginValue entry index seenPlugins
    return plugin :: (← catalogPluginValues rest (index + 1) (plugin.pluginId :: seenPlugins))

/-- The `plugins` of a catalog document, as `catalogValueOf` reads them. -/
def catalogPlugins (value : Json) : Except String (List PluginCatalogPlugin) := do
  let pluginsArray ← arrayValue value "plugins"
  check (pluginsArray.length ≤ maxPlugins) "Plugin catalog may contain at most 128 Plugins"
  catalogPluginValues pluginsArray 0 []

end Catalog

section Release

inductive PluginInteraction where
  | mapArea
  deriving DecidableEq

/-- What the parser returns, but for the constant `lifecycle`. -/
structure PluginRelease where
  schema : ℤ
  pluginId : JsString
  version : Version
  displayName : JsString
  image : JsString
  coreToPluginProtocolMajor : ℤ
  pluginToSourceGatewayProtocolMajor : ℤ
  atlasProtocolRevision : Option JsString
  interactions : List PluginInteraction
  sourceConnector : Option PluginSourceConnector
  bytes : List UInt8
  deriving DecidableEq

/-- What the store and the manager are given: a strict parser of JSON, a digest and downloads. -/
structure Services where
  lib : Library
  parseStrictJson : List UInt8 → String → Except String Json
  sha256 : List UInt8 → JsString
  fetchBounded : JsString → Except String (List UInt8)

def maxReleaseBytes : ℕ := 2 ^ 20

/-- `ghcr.io/the-drunken-coder/atlas-[a-z0-9]+(?:-[a-z0-9]+)*@sha256:[0-9a-f]{64}`. -/
def imagePattern (image : JsString) : Bool :=
  let origin := text "ghcr.io/the-drunken-coder/atlas-"
  origin.isPrefixOf image &&
    match (image.drop origin.length).splitOn (.scalar '@') with
    | [name, digest] =>
      ((name.splitOn (.scalar '-')).all fun part =>
          part ≠ [] && part.all (·.satisfies isLowerAlnum))
        && hashPattern digest
    | _ => false

def expectedImage (pluginId : JsString) : JsString :=
  text "ghcr.io/the-drunken-coder/atlas-"
    ++ pluginId.map (fun c => if c = .scalar '_' then .scalar '-' else c) ++ text "@sha256:"

def interactionValue (entry : Json) : Except String PluginInteraction := do
  check (isText "map_area" entry) "unsupported Plugin interaction"
  return .mapArea

def interactionsValue (value : Json) : Except String (List PluginInteraction) := do
  let interactions ← (← arrayValue value "interactions").mapM interactionValue
  -- one interaction is known, so that a list without duplicates is sorted
  check (decide interactions.Nodup) "interactions must be sorted and duplicate-free"
  return interactions

def connectorValue (lib : Library) (value : Json) (pluginId : JsString) :
    Except String (Option PluginSourceConnector) :=
  match value with
  | .null => .ok none
  | _ => do return some (← sourceConnectorValue lib value pluginId)

def parsePluginRelease (services : Services) (bytes : List UInt8) :
    Except String PluginRelease := do
  check (bytes.length ≤ maxReleaseBytes) "Plugin release exceeds 1048576 bytes"
  let value ← services.parseStrictJson bytes "Plugin release"
  let object ← exactObject value
    ["schema", "plugin_id", "version", "display_name", "lifecycle", "image",
      "core_to_plugin_protocol_major", "plugin_to_source_gateway_protocol_major",
      "atlas_protocol_revision", "interactions", "source_connector"]
    "Plugin release"
  check (isOne (field object "schema")) "Plugin release schema must be 1"
  let pluginId ← pluginIdValue (field object "plugin_id") "plugin_id" 50
  let version ← semverValue (field object "version") "version"
  let displayName ← displayNameValue (field object "display_name") "display_name"
  check (isText "query_only" (field object "lifecycle"))
    "Plugin release lifecycle must be query_only"
  let image ← stringValue (field object "image") "image"
  check ((expectedImage pluginId).isPrefixOf image && imagePattern image)
    "Plugin release image must be a digest-pinned first-party GHCR image"
  let coreMajor ← positiveSafeInteger (field object "core_to_plugin_protocol_major")
    "core_to_plugin_protocol_major"
  let gatewayMajor ← positiveSafeInteger (field object "plugin_to_source_gateway_protocol_major")
    "plugin_to_source_gateway_protocol_major"
  let atlasRevision ← hashOrNull (field object "atlas_protocol_revision") "atlas_protocol_revision"
  let interactions ← interactionsValue (field object "interactions")
  let sourceConnector ← connectorValue services.lib (field object "source_connector") pluginId
  return ⟨1, pluginId, version, displayName, image, coreMajor, gatewayMajor, atlasRevision,
    interactions, sourceConnector, bytes⟩

structure PluginContracts where
  coreToPluginProtocolMajors : List ℤ
  pluginToSourceGatewayProtocolMajors : List ℤ
  atlasProtocolRevision : Option JsString
  supportedPackageSchemaMajors : Option (List ℤ)
  supportedInteractions : Option (List PluginInteraction)

def PluginInteraction.name : PluginInteraction → String
  | mapArea => "map_area"

def assertPluginCompatible (release : PluginRelease) (contracts : PluginContracts) :
    Except String Unit := do
  check (contracts.supportedPackageSchemaMajors.all (release.schema ∈ ·))
    ("Plugin package schema " ++ toString release.schema ++ " is not supported by this Core")
  check (release.coreToPluginProtocolMajor ∈ contracts.coreToPluginProtocolMajors)
    ("Plugin requires unsupported Core-to-Plugin protocol major "
      ++ toString release.coreToPluginProtocolMajor)
  check (release.pluginToSourceGatewayProtocolMajor ∈ contracts.pluginToSourceGatewayProtocolMajors)
    ("Plugin requires unsupported Plugin-to-Source-Gateway protocol major "
      ++ toString release.pluginToSourceGatewayProtocolMajor)
  check (release.atlasProtocolRevision.isNone
      || release.atlasProtocolRevision = contracts.atlasProtocolRevision)
    "Plugin requires a different Atlas Protocol revision"
  release.interactions.forM fun interaction =>
    check (contracts.supportedInteractions.all (interaction ∈ ·))
      ("Plugin interaction " ++ interaction.name ++ " is not supported")

def isCompatible (release : PluginRelease) (contracts : PluginContracts) : Bool :=
  (assertPluginCompatible release contracts).toBool

end Release

section Candidates

structure PluginReleaseCandidate where
  release : PluginRelease
  catalog : PluginCatalogRelease
  deriving DecidableEq

structure PluginCatalogCandidatesOptions where
  version : Option JsString := none
  currentVersion : Option JsString := none
  contracts : Option PluginContracts := none
  currentRelease : Option PluginRelease := none

def validateVersion (value : JsString) (name : String) : Except String Version :=
  semverValue (.str value) name

variable (services : Services)

def PluginCatalogRelease.describes (catalogRelease : PluginCatalogRelease) (pluginId : JsString)
    (release : PluginRelease) : Bool :=
  release.pluginId = pluginId && release.version = catalogRelease.version
    && release.displayName = catalogRelease.displayName

def downloadCandidate (pluginId : JsString) (catalogRelease : PluginCatalogRelease) :
    Except String PluginReleaseCandidate := do
  let name := "Plugin " ++ printed pluginId ++ " " ++ printed catalogRelease.version.val
  let bytes ← services.fetchBounded catalogRelease.documentUrl
  check (services.sha256 bytes = catalogRelease.documentSha256)
    (name ++ " release document hash does not match the catalog")
  let release ← parsePluginRelease services bytes
  check (catalogRelease.describes pluginId release)
    (name ++ " release document does not match the catalog")
  return ⟨release, catalogRelease⟩

def candidateFromRelease (pluginId : JsString) (catalogRelease : PluginCatalogRelease)
    (currentRelease : PluginRelease) : Except String PluginReleaseCandidate := do
  let release ← parsePluginRelease services currentRelease.bytes
  check (catalogRelease.describes pluginId release
      && services.sha256 release.bytes = catalogRelease.documentSha256)
    ("Plugin " ++ printed pluginId ++ " " ++ printed catalogRelease.version.val
      ++ " retained release does not match the catalog")
  return ⟨release, catalogRelease⟩

/-- The candidate of the revoked release in use, which stays in the list as a sentinel. -/
def currentCandidates (pluginId : JsString) (version : Option Version)
    (currentRevoked : Option PluginCatalogRelease) (currentRelease : Option PluginRelease) :
    Except String (List PluginReleaseCandidate) :=
  match currentRevoked with
  | none => return []
  | some revoked =>
    if version.all (· = revoked.version) then
      match currentRelease with
      | some release => do return [← candidateFromRelease services pluginId revoked release]
      | none => do return [← downloadCandidate services pluginId revoked]
    else return []

/-- The loop over the releases, the highest version first. -/
def releaseCandidates (pluginId : JsString) (version currentVersion : Option Version)
    (contracts : Option PluginContracts) (currentRevoked : Option PluginCatalogRelease) :
    List PluginCatalogRelease → Except String (List PluginReleaseCandidate)
  | [] => return []
  | catalogRelease :: releases =>
    let next :=
      releaseCandidates pluginId version currentVersion contracts currentRevoked releases
    if currentRevoked = some catalogRelease then next
    else if version.any (catalogRelease.version ≠ ·) then next
    else if catalogRelease.revoked
        && (contracts.isSome || version.isSome || currentVersion.isSome) then next
    else do
      let candidate ← downloadCandidate services pluginId catalogRelease
      if contracts.any fun contracts => !isCompatible candidate.release contracts then next
      else if version.isSome then return [candidate]
      else if contracts.isSome
          || currentVersion.any (0 < comparePluginVersions catalogRelease.version ·) then
        return [candidate]
      else return candidate :: (← next)

/-- Of the catalog that `read` returns. -/
def candidates (catalog : List PluginCatalogPlugin) (pluginId : JsString)
    (options : PluginCatalogCandidatesOptions) : Except String (List PluginReleaseCandidate) :=
  match catalog.find? (·.pluginId = pluginId) with
  | none => return []
  | some plugin => do
    let version ← options.version.mapM (validateVersion · "version")
    let currentVersion ← options.currentVersion.mapM (validateVersion · "currentVersion")
    let releases := plugin.releases.mergeSort fun left right =>
      comparePluginVersions right.version left.version ≤ 0
    let currentRevoked := currentVersion.bind fun current =>
      releases.find? fun release => release.version = current && release.revoked
    let sentinel ← currentCandidates services pluginId version currentRevoked options.currentRelease
    let rest ← releaseCandidates services pluginId version currentVersion options.contracts
      currentRevoked releases
    return sentinel ++ rest

end Candidates

section Plan

def PluginReleaseCandidate.matchesCatalog (candidate : PluginReleaseCandidate) : Bool :=
  candidate.catalog.describes candidate.catalog.pluginId candidate.release

/-- The candidates with the highest version first, in a sort that is stable. -/
def byVersion (candidates : List PluginReleaseCandidate) : List PluginReleaseCandidate :=
  candidates.mergeSort fun left right =>
    compareSemver right.release.version left.release.version ≤ 0

def selectPluginRelease (candidates : List PluginReleaseCandidate) (currentVersion : Option Version)
    (remediateRevoked : Bool) : Except String (Option PluginReleaseCandidate) := do
  if candidates = [] then return none
  check (candidates.all (·.matchesCatalog)) "Plugin release does not match its catalog entry"
  let sorted := byVersion candidates
  let currentCandidate := currentVersion.bind fun current =>
    sorted.find? fun candidate => candidate.release.version = current
  let remediation := remediateRevoked && currentCandidate.any (·.catalog.revoked)
  return sorted.find? fun candidate =>
    !candidate.catalog.revoked &&
      match currentVersion with
      | none => true
      | some current =>
        if remediation then candidate.release.version ≠ current
        else 0 < compareSemver candidate.release.version current

def pickUpdate (contracts : PluginContracts) (current : PluginRelease)
    (candidates : List PluginReleaseCandidate) (currentRevoked : Bool) :
    Except String (Option PluginReleaseCandidate) :=
  let candidates := candidates.filter (·.release.pluginId = current.pluginId)
  let candidates := candidates.filter fun candidate =>
    candidate.release.version = current.version || isCompatible candidate.release contracts
  let candidates := candidates.filter fun candidate =>
    !candidate.catalog.revoked || candidate.release.version = current.version
  selectPluginRelease candidates (some current.version) currentRevoked

/-- The receipt of the release in use. -/
structure SelectedReceipt where
  version : Version
  releaseDocumentSha256 : JsString
  imageIndex : JsString

/-- Of the bytes that are retained for the version of the receipt. -/
def readRelease (services : Services) (pluginId : JsString) (version : Version)
    (bytes : List UInt8) : Except String PluginRelease := do
  let release ← parsePluginRelease services bytes
  check (release.pluginId = pluginId && release.version = version)
    ("Release document identity mismatch for Plugin " ++ printed pluginId ++ ".")
  return release

def readSelectedRelease (services : Services) (pluginId : JsString) (selected : SelectedReceipt)
    (bytes : List UInt8) : Except String PluginRelease := do
  let release ← readRelease services pluginId selected.version bytes
  check (services.sha256 release.bytes = selected.releaseDocumentSha256)
    ("Selected release bytes for Plugin " ++ printed pluginId ++ " changed.")
  check (release.image = selected.imageIndex)
    ("Selected image for Plugin " ++ printed pluginId ++ " changed.")
  return release

structure UpdatePlan where
  current : PluginRelease
  currentRevoked : Bool
  candidate : Option PluginReleaseCandidate

/-- Of a list of candidates. -/
def planUpdate (services : Services) (contracts : PluginContracts) (pluginId : JsString)
    (selected : SelectedReceipt) (bytes : List UInt8) (candidates : List PluginReleaseCandidate) :
    Except String UpdatePlan := do
  let current ← readSelectedRelease services pluginId selected bytes
  let currentRevoked := candidates.any fun candidate =>
    candidate.release.pluginId = pluginId && candidate.release.version = current.version
      && candidate.catalog.revoked
  let candidate ← pickUpdate contracts current candidates currentRevoked
  return ⟨current, currentRevoked, candidate⟩

end Plan

end Atlas.Cli
