import Atlas.Core.Resources
import Atlas.Lib.GoJsonWrite

/-!
# The JSON of a resource and how a PATCH changes it

Beside its columns a resource has one JSON object, the blob. A PATCH decodes it with its numbers
as they are written, merges the components, removes and sets extra fields, sets what belongs to
the resource itself, validates the result and writes it again. The promoted fields have their own
parameters, so extra fields and removed keys leave them alone.
-/

namespace Atlas.Core

open GoJson SortedMap

/-- A Go map of JSON values. -/
abbrev JSONMap := List (Text × Value)

/-- The validators made from the protocol, and the text of a decoder's error. -/
structure BlobRules where
  validateEntityComponents : JSONMap → List String
  validateEntityBlob : JSONMap → List String
  validateObjectBlob : JSONMap → List String
  decodeErrorText : List UInt8 → String

def maxStoredJSONBlobBytes : ℕ := 1 * 1024 * 1024

def componentsKey : Text := "components".toList

def usageHintsKey : Text := "usage_hints".toList

def referencedByKey : Text := "referenced_by".toList

def entityPromotedBlobFields (key : Text) : Bool :=
  key ∈ ["type".toList, "subtype".toList, "alias".toList, componentsKey, "version".toList]

def isObjectPromotedJSONField (key : Text) : Bool :=
  key ∈ ["path".toList, "content_type".toList, "type".toList, "size_bytes".toList, usageHintsKey,
    "bucket".toList, referencedByKey, "version".toList]

section Validation

variable (rules : BlobRules)

def validationResult (what : String) (errors : List String) : Except ActionError Unit :=
  if errors = [] then .ok ()
  else
    .error (.validation
      (what ++ " validation failed (" ++ toString errors.length ++ " errors)") errors)

def validateEntityComponents (components : JSONMap) : Except ActionError Unit :=
  validationResult "Component" (rules.validateEntityComponents components)

def validateEntityBlob (blob : JSONMap) : Except ActionError Unit :=
  validationResult "Entity" (rules.validateEntityBlob blob)

def validateObjectBlob (blob : JSONMap) : Except ActionError Unit :=
  validationResult "Object" (rules.validateObjectBlob blob)

end Validation

section Merge

mutual

/-- Objects are merged, anything else is replaced. -/
def mergeJSONValue : Value → Value → Value
  | .object existing, .object incoming => .object (mergeMembers existing incoming)
  | _, incoming => incoming

def mergeMembers : JSONMap → JSONMap → JSONMap
  | merged, [] => merged
  | merged, (key, value) :: incoming =>
    mergeMembers (assign key (mergeJSONValue ((find key merged).getD .null) value) merged) incoming

end

theorem mergeMembers_cons (merged : JSONMap) (key : Text) (value : Value) (incoming : JSONMap) :
    mergeMembers merged ((key, value) :: incoming) =
      mergeMembers (assign key (mergeJSONValue ((find key merged).getD .null) value) merged)
        incoming := by
  rw [mergeMembers]

def removeBlobExtraKeys (blob : JSONMap) (promoted : Text → Bool) (keys : List Text) : JSONMap :=
  keys.foldl (fun blob key => if promoted key then blob else erase key blob) blob

theorem removeBlobExtraKeys_cons (blob : JSONMap) (promoted : Text → Bool) (key : Text)
    (keys : List Text) : removeBlobExtraKeys blob promoted (key :: keys) =
      removeBlobExtraKeys (if promoted key then blob else erase key blob) promoted keys := rfl

def mergeBlobExtraFields (blob extra : JSONMap) (promoted : Text → Bool) : JSONMap :=
  extra.foldl (fun blob e => if promoted e.1 then blob else assign e.1 e.2 blob) blob

theorem mergeBlobExtraFields_cons (blob extra : JSONMap) (promoted : Text → Bool) (key : Text)
    (value : Value) : mergeBlobExtraFields blob ((key, value) :: extra) promoted =
      mergeBlobExtraFields (if promoted key then blob else assign key value blob) extra
        promoted := rfl

def storedComponents (blob : JSONMap) : Except ActionError JSONMap :=
  match find componentsKey blob with
  | none | some .null => .ok []
  | some (.object stored) => .ok stored
  | some _ => .error (.validation "stored entity components must be an object or null")

def mergeEntityComponents (rules : BlobRules) (blob : JSONMap) :
    Option JSONMap → Except ActionError JSONMap
  | none => .ok blob
  | some components => do
    validateEntityComponents rules components
    let existing ← storedComponents blob
    let merged := mergeMembers existing components
    validateEntityComponents rules merged
    return assign componentsKey (.object merged) blob

end Merge

section Patch

variable (rules : BlobRules)

def decodeJSONBlobForPatch : Option (List UInt8) → Except String JSONMap
  | none => .ok []
  | some raw =>
    match (parse raw).map Value.decoded with
    | some (.object data) => .ok data
    | some .null => .ok []
    | _ => .error (rules.decodeErrorText raw)

def marshalValidatedJSONBlob (blob : JSONMap) (validate : JSONMap → Except ActionError Unit) :
    Except ActionError (List UInt8) := do
  validate blob
  match marshal (.object blob) with
  | .error text => throw (.failure ("failed to marshal JSON: " ++ text))
  | .ok bytes =>
    if maxStoredJSONBlobBytes < bytes.length then
      throw (.validation "Resource JSON exceeds the stored size limit"
        ["final stored JSON must not exceed " ++ toString maxStoredJSONBlobBytes ++ " bytes"])
    else return bytes

structure JSONBlobPatch where
  rawMessage : Option (List UInt8)
  decodeError : String
  components : Option JSONMap := none
  mergeComponents : Option (JSONMap → Option JSONMap → Except ActionError JSONMap) := none
  extra : JSONMap
  removeExtraKeys : List Text := []
  promotedFields : Text → Bool
  apply : Option (JSONMap → Except ActionError JSONMap) := none
  validate : JSONMap → Except ActionError Unit

def patchValidatedJSONBlob (patch : JSONBlobPatch) : Except ActionError (List UInt8) :=
  match decodeJSONBlobForPatch rules patch.rawMessage with
  | .error text =>
    .error (.failure (if patch.decodeError ≠ "" then patch.decodeError ++ ": " ++ text else text))
  | .ok blob => do
    let blob ← patch.mergeComponents.elim (.ok blob) fun merge => merge blob patch.components
    let blob := removeBlobExtraKeys blob patch.promotedFields patch.removeExtraKeys
    let blob := mergeBlobExtraFields blob patch.extra patch.promotedFields
    let blob ← patch.apply.elim (.ok blob) fun apply => apply blob
    marshalValidatedJSONBlob blob patch.validate

/-- What a PATCH of an Entity changes in its blob. -/
structure EntityBlobUpdate where
  components : Option JSONMap
  extra : JSONMap

/-- What a PATCH of an object changes in its blob. A reference may be nil. -/
structure ObjectBlobUpdate where
  usageHints : Option (List Text)
  referencedBy : Option (List (Option JSONMap))
  extra : JSONMap
  removeExtraKeys : List Text

def entityJSONPatch (rawMessage : Option (List UInt8)) (params : EntityBlobUpdate) :
    JSONBlobPatch :=
  { rawMessage := rawMessage
    decodeError := "existing entity json is corrupt or invalid"
    components := params.components
    mergeComponents := some (mergeEntityComponents rules)
    extra := params.extra
    promotedFields := entityPromotedBlobFields
    validate := validateEntityBlob rules }

def patchEntityJSON (rawMessage : Option (List UInt8)) (params : EntityBlobUpdate) :
    Except ActionError (List UInt8) :=
  patchValidatedJSONBlob rules (entityJSONPatch rules rawMessage params)

def usageHintsValue (hints : List Text) : Value := .array (hints.map .string)

def referencedByValue (references : List (Option JSONMap)) : Value :=
  .array (references.map fun r => r.elim .null .object)

def setObjectFields (params : ObjectBlobUpdate) (blob : JSONMap) : JSONMap :=
  let blob := params.usageHints.elim blob fun hints =>
    assign usageHintsKey (usageHintsValue hints) blob
  params.referencedBy.elim blob fun references =>
    assign referencedByKey (referencedByValue references) blob

def objectJSONPatch (raw : Option (List UInt8)) (params : ObjectBlobUpdate) : JSONBlobPatch :=
  { rawMessage := raw
    decodeError := "existing object json is corrupt or invalid"
    extra := params.extra
    removeExtraKeys := params.removeExtraKeys
    promotedFields := isObjectPromotedJSONField
    validate := validateObjectBlob rules
    apply := some fun blob => .ok (setObjectFields params blob) }

end Patch

section Update

/-- The JSON values that a request has by name. -/
def readFields (fields : Fields) : JSONMap :=
  assignAll [] (fields.map fun field =>
    (field.1.toList, ((parse (utf8 field.2.toList)).map Value.decoded).getD .null))

def UpdateEntityParams.blobUpdate (params : UpdateEntityParams) : EntityBlobUpdate :=
  { components := params.components.map readFields, extra := readFields params.extra }

def UpdateObjectParams.blobUpdate (params : UpdateObjectParams) : ObjectBlobUpdate :=
  { usageHints := params.usageHints.map fun hints => hints.map String.toList
    referencedBy := params.referencedBy.map fun references =>
      references.map fun fields => some (readFields fields)
    extra := readFields params.extra
    removeExtraKeys := params.removeExtraKeys.map String.toList }

def storedText (bytes : List UInt8) : String := String.ofList (runes bytes)

/-- Core with the blobs of its rows patched as above. -/
def Env.withBlobs (env : Env) (rules : BlobRules) : Env :=
  { env with
    patchEntityJSON := fun json params =>
      (Core.patchEntityJSON rules (some (utf8 json.toList)) params.blobUpdate).map storedText
    patchObjectJSON := fun json params =>
      (patchValidatedJSONBlob rules
        (objectJSONPatch rules (some (utf8 json.toList)) params.blobUpdate)).map storedText }

end Update

end Atlas.Core
