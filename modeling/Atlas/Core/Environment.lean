import Atlas.Core.Database

/-!
# Validation, and what the actions are configured with

`Env` collects what an installation of Core is configured with and the generated or third-party
functions its actions call: the Command Catalog, the configured Plugins, the protocol validators,
the JSON comparison and the construction of the stored JSON blobs. The actions use no property of
any of them.
-/

namespace Atlas.Core

/-- `unicode.IsSpace`. -/
def isSpace (c : Char) : Bool :=
  c = '\t' || c = '\n' || c.val = 0x0B || c.val = 0x0C || c = '\r' || c = ' ' || c.val = 0x85
    || c.val = 0xA0 || c.val = 0x1680 || (0x2000 ≤ c.val && c.val ≤ 0x200A) || c.val = 0x2028
    || c.val = 0x2029 || c.val = 0x202F || c.val = 0x205F || c.val = 0x3000

/-- `strings.TrimSpace`. -/
def trimSpace (s : String) : String :=
  String.ofList (((s.toList.dropWhile isSpace).reverse.dropWhile isSpace).reverse)

def isAlphanumeric (c : Char) : Bool :=
  ('a' ≤ c && c ≤ 'z') || ('A' ≤ c && c ≤ 'Z') || ('0' ≤ c && c ≤ '9')

def validIDPattern (s : String) : Bool :=
  match s.toList with
  | [] => false
  | c :: cs => isAlphanumeric c && cs.all fun c => isAlphanumeric c || c ∈ ['.', '_', '-']

def validAliasPattern (s : String) : Bool :=
  match s.toList with
  | [] => false
  | c :: cs => isAlphanumeric c && cs.all fun c => isAlphanumeric c || c ∈ [' ', '.', '_', '-']

def idMaxLength : ℕ := 50
def entityTypeMaxLength : ℕ := 50
def entitySubtypeMaxLength : ℕ := 50
def objectPathMaxLength : ℕ := 500
def objectContentMaxLength : ℕ := 100
def objectTypeMaxLength : ℕ := 50

def validateStringMaxLength (field value : String) (maxLength : ℕ) : CoreTx Unit :=
  require (value.length ≤ maxLength)
    (.validation (field ++ " must not exceed " ++ toString maxLength ++ " characters"))

def validateResourceID (id resourceType : String) : CoreTx Unit := do
  validateStringMaxLength (resourceType ++ "_id") id idMaxLength
  require (trimSpace id ≠ "") (.validation (resourceType ++ "_id is required"))
  require (validIDPattern (trimSpace id))
    (.validation (resourceType ++ "_id contains invalid characters (only alphanumeric, hyphens, "
      ++ "underscores, and dots allowed, must start with alphanumeric)"))

def validateEntityID (id : String) : CoreTx Unit := validateResourceID id "entity"
def validateTaskID (id : String) : CoreTx Unit := validateResourceID id "task"
def validateObjectID (id : String) : CoreTx Unit := validateResourceID id "object"

def validateAlias (value : String) : CoreTx Unit := do
  validateStringMaxLength "alias" value 255
  require (trimSpace value = "" || validAliasPattern (trimSpace value))
    (.validation "alias contains invalid characters")

def normalizeAlias (value : String) : CoreTx String := do
  validateAlias value
  return trimSpace value

/-- Lift a check that reads no table. -/
def check {α : Type} : Except ActionError α → CoreTx α
  | .ok a => pure a
  | .error e => throw e

def checkExpectedVersion (resourceType : String) (expected : Option ℕ) (current : ℕ) :
    CoreTx Unit :=
  require (expected.all (· = current))
    (.preconditionFailed ("If-Match precondition failed for " ++ resourceType))

/-- The JSON values of an object, by name. -/
abbrev Fields := List (String × String)

structure CreateEntityParams where
  entityID : String
  entityType : String
  subtype : String
  aliasName : Option String
  components : Option Fields
  publishedAt : Option Time
  updatedAt : Option Time
  extra : Fields
  instanceToken : String

structure UpdateEntityParams where
  entityType : Option String
  subtype : Option String
  aliasName : Option String
  components : Option Fields
  extra : Fields
  expectedVersion : Option ℕ

structure CreateObjectParams where
  objectID : String
  type : Option String
  usageHints : Option (List String)
  referencedBy : Option (List Fields)
  extra : Fields
  instanceToken : String

structure UpdateObjectParams where
  type : Option String
  usageHints : Option (List String)
  referencedBy : Option (List Fields)
  extra : Fields
  removeExtraKeys : List String
  expectedVersion : Option ℕ

structure Env where
  catalog : List CommandDefinition
  pluginIDs : List String
  storageBucket : Option String
  jsonEqual : String → String → Bool
  /-- The order of `task_id` in the database's collation. -/
  collation : String → String → Bool
  deriveToolAssetID : String → String
  toolAssetPluginID : Entity → Except String (Option String)
  sha256Hex : String → String
  validateTaskCreateRequest : String → String → String → List String
  validateRuntimeRegistrationRequest : String → List String
  validateRuntimeStopRequest : String → List String
  validateRuntimeReadyRequest : String → CommandManifest → List String
  validateDefinition : String → String → List String
  validateEntityComponents : Fields → List String
  createEntityJSON : CreateEntityParams → Except ActionError String
  patchEntityJSON : String → UpdateEntityParams → Except ActionError String
  createObjectJSON : CreateObjectParams → Except ActionError String
  patchObjectJSON : String → UpdateObjectParams → Except ActionError String
  uploadObjectJSON : Option String → String → ℕ → Option (List String) → Except ActionError String
  objectBucket : MediaObject → Option String

/-- `newTaskActions` builds a map from the catalog, so a later definition of a name wins. -/
def Env.command (env : Env) (name : String) : Option CommandDefinition :=
  env.catalog.reverse.find? (·.command = name)

def Env.pluginAsset (env : Env) (assetID : String) : Option String :=
  env.pluginIDs.reverse.find? (env.deriveToolAssetID · = assetID)

def validateToolAsset (env : Env) (entity : Entity) (configuredPluginID : Option String) :
    CoreTx Unit :=
  match env.toolAssetPluginID entity with
  | .error message => throw (.validation message)
  | .ok none =>
    require configuredPluginID.isNone
      (.validation "configured Plugin Tool Asset is missing custom_plugin ownership")
  | .ok (some pluginID) => do
    require (entity.type = "asset" && entity.subtype = some "tool")
      (.validation "Plugin Tool Asset must have entity_type asset and subtype tool")
    require (entity.entityID = env.deriveToolAssetID pluginID)
      (.validation "Plugin Tool Asset ID does not match custom_plugin.plugin_id")
    require (configuredPluginID.all (· = pluginID))
      (.validation "Plugin Tool Asset ownership does not match configured Plugin")

/-! ## Instance tokens -/

def maxResourceInstanceTokenBytes : ℕ := 256

def validateResourceInstanceToken (token : String) : CoreTx Unit := do
  require (token ≠ "") (.validation "resource instance token must not be empty")
  require (token.utf8ByteSize ≤ maxResourceInstanceTokenBytes)
    (.validation "resource instance token must be at most 256 bytes")
  require (token = trimSpace token)
    (.validation "resource instance token must not have surrounding whitespace")
  require (token.toList.all fun c => 0x20 ≤ c.val && c.val ≠ 0x7f)
    (.validation "resource instance token contains a control character")

def resourceInstanceTokenHash (env : Env) (token : String) : CoreTx String := do
  validateResourceInstanceToken token
  return env.sha256Hex token

def reserveResourceInstanceToken (tokenHash : String) (reuse : ActionError) : CoreTx Unit := do
  let db ← getDB
  require (!db.resourceInstanceTokens.contains tokenHash) reuse
  modifyDB fun db =>
    { db with resourceInstanceTokens := db.resourceInstanceTokens ++ [tokenHash] }

def checkResourceInstanceToken (env : Env) (expectedToken storedHash : Option String)
    (resourceType : String) : CoreTx Unit :=
  match expectedToken with
  | none => pure ⟨⟩
  | some token => do
    let hash ← resourceInstanceTokenHash env token
    require (storedHash = some hash)
      (.preconditionFailed ("Resource instance token precondition failed for " ++ resourceType))

end Atlas.Core
