import Atlas.Core.JsonBlobs
import Atlas.Proofs.ChangeLog

/-!
# The laws of PATCH

Merging is known by what it makes of each key (`find_mergeMembers`), and from there, by recursion
over the incoming value, by what it makes of each path: a path that leaves the incoming objects at
a key they do not have keeps its value, and a path that ends at another value of theirs has that
one. The same recursion shows that merging again changes nothing. A blob is known in the same way
by its keys (`find_blob`): the fields of the resource are its own, the extra fields are set after
the removed ones are gone. So a second PATCH finds the blob it would make (`blob_blob`), and it
reads it from what the first one wrote because nothing in it is deeper than a request may be.
-/

namespace Atlas.Core

open GoJson SortedMap

section Merge

theorem mergeJSONValue_null (v : Value) : mergeJSONValue .null v = v := by
  cases v <;> rfl

theorem mergeJSONValue_scalar {v : Value} (hv : ∀ m, v ≠ .object m) (existing : Value) :
    mergeJSONValue existing v = v := by
  cases v with
  | object m => exact absurd rfl (hv m)
  | _ => cases existing <;> rfl

theorem find_mergeMembers (k : Text) : ∀ {incoming : JSONMap}, Sorted incoming →
    ∀ merged : JSONMap, find k (mergeMembers merged incoming) =
      match find k incoming with
      | none => find k merged
      | some v => some (mergeJSONValue ((find k merged).getD .null) v)
  | [], _, _ => rfl
  | (key, value) :: incoming, h, merged => by
    obtain ⟨hkey, hincoming⟩ := sorted_cons.1 h
    rw [mergeMembers_cons, find_mergeMembers k hincoming, find_assign, find_cons]
    by_cases hk : k = key
    · subst hk
      rw [find_eq_none.2 fun e he => (hkey e he).ne', if_pos rfl, if_pos rfl]
    · rw [if_neg hk, if_neg hk]

theorem sorted_mergeMembers : ∀ {incoming merged : JSONMap}, Sorted merged →
    Sorted (mergeMembers merged incoming)
  | [], _, h => h
  | (_, _) :: _, _, h => by
    rw [mergeMembers_cons]
    exact sorted_mergeMembers (sorted_assign _ _ h)

theorem mapped_object {members : JSONMap} :
    Mapped (.object members) ↔ Sorted members ∧ ∀ e ∈ members, Mapped e.2 := by
  constructor
  · intro h
    cases h with
    | object sorted mapped => exact ⟨sorted, mapped⟩
  · exact fun h => .object h.1 h.2

/-- What the merged values have, the values of the merged map have. -/
theorem mergeMembers_forall {P : Value → Prop} (hnull : P .null) :
    ∀ {incoming merged : JSONMap}, (∀ e ∈ merged, P e.2) →
      (∀ e ∈ incoming, ∀ existing, P existing → P (mergeJSONValue existing e.2)) →
      ∀ e ∈ mergeMembers merged incoming, P e.2
  | [], _, hmerged, _ => hmerged
  | (key, value) :: incoming, merged, hmerged, hincoming => by
    obtain ⟨hvalue, hrest⟩ := List.forall_mem_cons.1 hincoming
    have hfound : P ((find key merged).getD .null) := by
      rcases hfind : find key merged with _ | v
      · exact hnull
      · exact hmerged _ (find_mem hfind)
    rw [mergeMembers_cons]
    refine mergeMembers_forall hnull (fun e he => ?_) hrest
    rcases mem_assign he with rfl | he
    · exact hvalue _ hfound
    · exact hmerged e he

theorem mapped_mergeJSONValue {incoming : Value} : Mapped incoming → ∀ {existing : Value},
    Mapped existing → Mapped (mergeJSONValue existing incoming) := by
  induction incoming using Value.recursion with
  | object members ih =>
    intro hincoming existing hexisting
    cases existing with
    | object stored =>
      obtain ⟨hsorted, hstored⟩ := mapped_object.1 hexisting
      refine .object (sorted_mergeMembers hsorted) (mergeMembers_forall .null hstored ?_)
      exact fun e he _ h => ih e he ((mapped_object.1 hincoming).2 e he) h
    | _ => exact hincoming
  | _ =>
    intro hincoming existing _
    rwa [mergeJSONValue_scalar (by simp)]

theorem fits_mergeJSONValue {incoming : Value} : ∀ {n : ℕ}, Fits n incoming →
    ∀ {existing : Value}, Fits n existing → Fits n (mergeJSONValue existing incoming) := by
  induction incoming using Value.recursion with
  | object members ih =>
    intro n hincoming existing hexisting
    cases existing with
    | object stored =>
      cases hincoming with
      | object hmembers =>
        cases hexisting with
        | object hstored =>
          exact .object (mergeMembers_forall .null hstored fun e he _ h =>
            ih e he (hmembers e he) h)
    | _ => exact hincoming
  | _ =>
    intro n hincoming existing _
    rwa [mergeJSONValue_scalar (by simp)]

theorem mergeMembers_nil {m : JSONMap} (h : Sorted m) : mergeMembers [] m = m := by
  refine ext (sorted_mergeMembers sorted_nil) h fun k => ?_
  rw [find_mergeMembers k h]
  rcases find k m with _ | v
  · rfl
  · exact congrArg some (mergeJSONValue_null v)

/-- Members that are merged again where each of them changes nothing more. -/
theorem mergeMembers_mergeMembers {merged members : JSONMap} (hmerged : Mapped (.object merged))
    (hmembers : Mapped (.object members))
    (h : ∀ e ∈ members, ∀ existing, Mapped existing →
      mergeJSONValue (mergeJSONValue existing e.2) e.2 = mergeJSONValue existing e.2) :
    mergeMembers (mergeMembers merged members) members = mergeMembers merged members := by
  obtain ⟨hsorted, hvalues⟩ := mapped_object.1 hmerged
  have hunique := (mapped_object.1 hmembers).1
  refine ext (sorted_mergeMembers (sorted_mergeMembers hsorted)) (sorted_mergeMembers hsorted)
    fun k => ?_
  rw [find_mergeMembers k hunique (mergeMembers merged members), find_mergeMembers k hunique merged]
  rcases hfind : find k members with _ | v
  · rfl
  · have hfound : Mapped ((find k merged).getD .null) := by
      rcases hstored : find k merged with _ | w
      · exact .null
      · exact hvalues _ (find_mem hstored)
    exact congrArg some (h _ (find_mem hfind) _ hfound)

/-- Merging again changes nothing. -/
theorem mergeJSONValue_mergeJSONValue {incoming : Value} : Mapped incoming →
    ∀ {existing : Value}, Mapped existing →
      mergeJSONValue (mergeJSONValue existing incoming) incoming
        = mergeJSONValue existing incoming := by
  induction incoming using Value.recursion with
  | object members ih =>
    intro hincoming existing hexisting
    obtain ⟨hsorted, hmembers⟩ := mapped_object.1 hincoming
    have hagain : ∀ e ∈ members, ∀ existing, Mapped existing →
        mergeJSONValue (mergeJSONValue existing e.2) e.2 = mergeJSONValue existing e.2 :=
      fun e he _ h => ih e he (hmembers e he) h
    cases existing with
    | object stored =>
      exact congrArg Value.object (mergeMembers_mergeMembers hexisting hincoming hagain)
    | _ =>
      have hself := mergeMembers_mergeMembers (.object sorted_nil (List.forall_mem_nil _)) hincoming
        hagain
      rw [mergeMembers_nil hsorted] at hself
      exact congrArg Value.object hself
  | _ =>
    intro _ existing _
    rw [mergeJSONValue_scalar (by simp), mergeJSONValue_scalar (by simp)]

end Merge

section Paths

/-- The value at the end of a path of keys. -/
def lookup : List Text → Value → Option Value
  | [], v => some v
  | key :: path, .object members => (find key members).bind (lookup path)
  | _ :: _, _ => none

/-- The path leaves the value's objects at a key that they do not have. -/
def Misses : List Text → Value → Prop
  | key :: path, .object members => ∀ v, find key members = some v → Misses path v
  | _, _ => False

theorem lookup_of_misses : ∀ {path : List Text} {v : Value}, Misses path v → lookup path v = none
  | [], v, h => by cases v <;> exact h.elim
  | key :: path, .object members, h => by
    rw [lookup]
    rcases hfind : find key members with _ | v
    · rfl
    · exact lookup_of_misses (h v hfind)

theorem lookup_null_of_misses {path : List Text} {v : Value} (h : Misses path v) :
    lookup path .null = none := by
  rcases path with _ | ⟨key, path⟩
  · cases v <;> exact h.elim
  · rfl

/-- A path that misses the incoming value keeps what it had. -/
theorem lookup_merge_of_misses : ∀ {path : List Text} {incoming : Value}, Mapped incoming →
    Misses path incoming → ∀ existing : Value,
      lookup path (mergeJSONValue existing incoming) = lookup path existing
  | [], incoming, _, h, _ => by cases incoming <;> exact h.elim
  | key :: path, .object members, hincoming, h, existing => by
    obtain ⟨hsorted, hmembers⟩ := mapped_object.1 hincoming
    cases existing with
    | object stored =>
      rw [mergeJSONValue, lookup, lookup, find_mergeMembers key hsorted]
      rcases hfind : find key members with _ | v
      · rfl
      · have hv := h v hfind
        have ih := lookup_merge_of_misses (hmembers _ (find_mem hfind)) hv
          ((find key stored).getD .null)
        refine ih.trans ?_
        rcases find key stored with _ | w
        · exact lookup_null_of_misses hv
        · rfl
    | _ => exact lookup_of_misses h

/-- A path of the incoming value to anything but an object ends there afterwards. -/
theorem lookup_merge_of_leaf : ∀ {path : List Text} {incoming v : Value}, Mapped incoming →
    lookup path incoming = some v → (∀ m, v ≠ .object m) → ∀ existing : Value,
      lookup path (mergeJSONValue existing incoming) = some v
  | [], incoming, v, _, h, hv, existing => by
    obtain rfl : incoming = v := Option.some.inj h
    rw [mergeJSONValue_scalar hv]
    rfl
  | key :: path, .object members, v, hincoming, h, hv, existing => by
    obtain ⟨hsorted, hmembers⟩ := mapped_object.1 hincoming
    cases existing with
    | object stored =>
      obtain ⟨w, hfind, hw⟩ := Option.bind_eq_some_iff.1 h
      rw [mergeJSONValue, lookup, find_mergeMembers key hsorted, hfind]
      exact lookup_merge_of_leaf (hmembers _ (find_mem hfind)) hw hv _
    | _ => exact h

end Paths

section Extras

variable {promoted : Text → Bool}

theorem find_removeBlobExtraKeys (k : Text) : ∀ (keys : List Text) (blob : JSONMap),
    find k (removeBlobExtraKeys blob promoted keys)
      = if promoted k = false ∧ k ∈ keys then none else find k blob
  | [], blob => by simp [removeBlobExtraKeys]
  | key :: keys, blob => by
    have ih := find_removeBlobExtraKeys k keys (if promoted key then blob else erase key blob)
    rw [removeBlobExtraKeys_cons, ih]
    by_cases hk : k = key
    · subst hk
      rcases hp : promoted k
      · simp [find_erase]
      · simp
    · rcases promoted key
      · simp [hk, find_erase]
      · simp [hk]

theorem sorted_removeBlobExtraKeys : ∀ (keys : List Text) {blob : JSONMap}, Sorted blob →
    Sorted (removeBlobExtraKeys blob promoted keys)
  | [], _, h => h
  | key :: keys, blob, h => by
    rw [removeBlobExtraKeys_cons]
    refine sorted_removeBlobExtraKeys keys ?_
    split_ifs
    · exact h
    · exact sorted_erase key h

theorem find_mergeBlobExtraFields (k : Text) : ∀ {extra : JSONMap}, Sorted extra →
    ∀ blob : JSONMap, find k (mergeBlobExtraFields blob extra promoted)
      = if promoted k then find k blob else (find k extra).or (find k blob)
  | [], _, blob => by simp [mergeBlobExtraFields]
  | (key, value) :: extra, h, blob => by
    obtain ⟨hkey, hextra⟩ := sorted_cons.1 h
    have ih := find_mergeBlobExtraFields k hextra
      (if promoted key then blob else assign key value blob)
    rw [mergeBlobExtraFields_cons, ih, find_cons]
    by_cases hk : k = key
    · subst hk
      have hnone : find k extra = none := find_eq_none.2 fun e he => (hkey e he).ne'
      rcases hp : promoted k
      · simp [hnone, find_assign]
      · simp
    · rcases promoted key
      · simp [hk, find_assign]
      · simp [hk]

theorem sorted_mergeBlobExtraFields : ∀ {extra blob : JSONMap}, Sorted blob →
    Sorted (mergeBlobExtraFields blob extra promoted)
  | [], _, h => h
  | (key, value) :: extra, blob, h => by
    rw [mergeBlobExtraFields_cons]
    refine sorted_mergeBlobExtraFields ?_
    split_ifs
    · exact h
    · exact sorted_assign key value h

theorem find_setObjectFields (params : ObjectBlobUpdate) (k : Text) (blob : JSONMap) :
    find k (setObjectFields params blob)
      = (if k = referencedByKey then params.referencedBy.map referencedByValue else none).or
        ((if k = usageHintsKey then params.usageHints.map usageHintsValue else none).or
          (find k blob)) := by
  unfold setObjectFields
  rcases params.usageHints with _ | hints <;> rcases params.referencedBy with _ | references
  · simp
  · simp only [Option.elim_none, Option.elim_some, find_assign]
    split_ifs <;> simp
  · simp only [Option.elim_none, Option.elim_some, find_assign]
    split_ifs <;> simp
  · simp only [Option.elim_some, find_assign]
    split_ifs <;> simp

theorem sorted_setObjectFields (params : ObjectBlobUpdate) {blob : JSONMap} (h : Sorted blob) :
    Sorted (setObjectFields params blob) := by
  unfold setObjectFields
  rcases params.usageHints with _ | hints <;> rcases params.referencedBy with _ | references
  · exact h
  · exact sorted_assign _ _ h
  · exact sorted_assign _ _ h
  · exact sorted_assign _ _ (sorted_assign _ _ h)

end Extras

/-! ## The blob of an update -/

/-- A PATCH of either kind of resource. -/
inductive BlobUpdate
  | entity (params : EntityBlobUpdate)
  | object (params : ObjectBlobUpdate)

namespace BlobUpdate

variable (rules : BlobRules)

def patch (raw : Option (List UInt8)) : BlobUpdate → JSONBlobPatch
  | entity params => entityJSONPatch rules raw params
  | object params => objectJSONPatch rules raw params

def validate : BlobUpdate → JSONMap → Except ActionError Unit
  | entity _ => validateEntityBlob rules
  | object _ => validateObjectBlob rules

def promoted : BlobUpdate → Text → Bool
  | entity _ => entityPromotedBlobFields
  | object _ => isObjectPromotedJSONField

def extra : BlobUpdate → JSONMap
  | entity params => params.extra
  | object params => params.extra

def removed : BlobUpdate → List Text
  | entity _ => []
  | object params => params.removeExtraKeys

/-- The components that a PATCH of an Entity mentions. -/
def mentioned : BlobUpdate → Option JSONMap
  | entity params => some (params.components.getD [])
  | object _ => none

/-- The components in a blob that may be merged into. -/
def stored (blob : JSONMap) : JSONMap :=
  match find componentsKey blob with
  | some (.object stored) => stored
  | _ => []

/-- What the parameters of the resource itself make of a field. -/
def own (before : JSONMap) : BlobUpdate → Text → Option Value
  | entity params, key =>
    if key = componentsKey then
      params.components.map fun components => .object (mergeMembers (stored before) components)
    else none
  | object params, key =>
    (if key = referencedByKey then params.referencedBy.map referencedByValue else none).or
      (if key = usageHintsKey then params.usageHints.map usageHintsValue else none)

def mergedBlob (before : JSONMap) : Option JSONMap → JSONMap
  | none => before
  | some components =>
    assign componentsKey (.object (mergeMembers (stored before) components)) before

/-- The blob that is written when nothing is refused. -/
def blob (before : JSONMap) : BlobUpdate → JSONMap
  | entity params =>
    mergeBlobExtraFields
      (removeBlobExtraKeys (mergedBlob before params.components) entityPromotedBlobFields [])
      params.extra entityPromotedBlobFields
  | object params =>
    setObjectFields params
      (mergeBlobExtraFields
        (removeBlobExtraKeys before isObjectPromotedJSONField params.removeExtraKeys)
        params.extra isObjectPromotedJSONField)

end BlobUpdate

/-- A map as a request has it: no deeper than the body it came in may be. -/
structure Incoming (levels : ℕ) (m : JSONMap) : Prop where
  mapped : Mapped (.object m)
  fits : ∀ e ∈ m, Fits levels e.2

/-- What a request hands over: its body holds the components and the extra fields, and one level
deeper the references. -/
def BlobUpdate.Requested : BlobUpdate → Prop
  | .entity params =>
    (∀ m, params.components = some m → Incoming (maxNestingDepth - 2) m) ∧
      Incoming (maxNestingDepth - 2) params.extra
  | .object params =>
    (∀ references, params.referencedBy = some references → ∀ m, some m ∈ references →
      Incoming (maxNestingDepth - 3) m) ∧ Incoming (maxNestingDepth - 2) params.extra

section Blob

variable {u : BlobUpdate} {before : JSONMap}

theorem find_mergedBlob (components : Option JSONMap) (k : Text) :
    find k (BlobUpdate.mergedBlob before components)
      = (if k = componentsKey then components.map fun components =>
          Value.object (mergeMembers (BlobUpdate.stored before) components) else none).or
        (find k before) := by
  rcases components with _ | components
  · simp [BlobUpdate.mergedBlob]
  · rw [BlobUpdate.mergedBlob, find_assign]
    split_ifs <;> simp

theorem sorted_mergedBlob (components : Option JSONMap) (h : Sorted before) :
    Sorted (BlobUpdate.mergedBlob before components) := by
  rcases components with _ | components
  · exact h
  · exact sorted_assign _ _ h

theorem sorted_blob (h : Sorted before) : Sorted (u.blob before) := by
  cases u with
  | entity params =>
    exact sorted_mergeBlobExtraFields (sorted_removeBlobExtraKeys _ (sorted_mergedBlob _ h))
  | object params =>
    exact sorted_setObjectFields _
      (sorted_mergeBlobExtraFields (sorted_removeBlobExtraKeys _ h))

/-- The resource's own fields are promoted. -/
theorem own_of_not_promoted {key : Text} (h : u.promoted key = false) :
    u.own before key = none := by
  cases u with
  | entity params =>
    refine if_neg fun hkey => ?_
    subst hkey
    cases h
  | object params =>
    have hreferences : key ≠ referencedByKey := by
      rintro rfl
      cases h
    have hhints : key ≠ usageHintsKey := by
      rintro rfl
      cases h
    rw [BlobUpdate.own, if_neg hreferences, if_neg hhints]
    rfl

/-- What a PATCH makes of each key. -/
theorem find_blob (hu : u.Requested) (k : Text) :
    find k (u.blob before) =
      if u.promoted k then (u.own before k).or (find k before)
      else (find k u.extra).or (if k ∈ u.removed then none else find k before) := by
  cases u with
  | entity params =>
    have hextra : Sorted params.extra := (mapped_object.1 hu.2.mapped).1
    rw [BlobUpdate.blob, find_mergeBlobExtraFields k hextra, find_removeBlobExtraKeys,
      find_mergedBlob]
    rcases hp : entityPromotedBlobFields k
    · have hcomponents : k ≠ componentsKey := by
        rintro rfl
        cases hp
      simp [BlobUpdate.promoted, BlobUpdate.extra, BlobUpdate.removed, hp, hcomponents]
    · simp [BlobUpdate.promoted, BlobUpdate.own, hp]
  | object params =>
    have hextra : Sorted params.extra := (mapped_object.1 hu.2.mapped).1
    rw [BlobUpdate.blob, find_setObjectFields, ← Option.or_assoc,
      find_mergeBlobExtraFields k hextra, find_removeBlobExtraKeys]
    rcases hp : isObjectPromotedJSONField k
    · have hown : BlobUpdate.own before (.object params) k = none := own_of_not_promoted hp
      rw [BlobUpdate.own] at hown
      simp [BlobUpdate.promoted, BlobUpdate.extra, BlobUpdate.removed, hp, hown]
      rfl
    · simp [BlobUpdate.promoted, BlobUpdate.own, hp]

end Blob

section Run

theorem bind_eq_ok {ε α β : Type} {x : Except ε α} {f : α → Except ε β} {r : β} :
    (x >>= f) = .ok r ↔ ∃ a, x = .ok a ∧ f a = .ok r := by
  cases x <;> simp [bind, Except.bind]

variable {rules : BlobRules} {u : BlobUpdate} {raw : Option (List UInt8)} {before : JSONMap}
  {out : List UInt8}

theorem stored_of_storedComponents {existing : JSONMap}
    (h : storedComponents before = .ok existing) :
    BlobUpdate.stored before = existing := by
  unfold storedComponents at h
  unfold BlobUpdate.stored
  rcases hfind : find componentsKey before with _ | v
  · rw [hfind] at h
    exact Except.ok.inj h
  · rw [hfind] at h
    cases v with
    | null => exact Except.ok.inj h
    | object m => exact Except.ok.inj h
    | _ => cases h

/-- What the components must pass, before and after they are merged. -/
def BlobUpdate.Admits (rules : BlobRules) (before : JSONMap) : BlobUpdate → Prop
  | .entity params => ∀ components, params.components = some components →
      validateEntityComponents rules components = .ok () ∧
      storedComponents before = .ok (stored before) ∧
      validateEntityComponents rules (mergeMembers (stored before) components) = .ok ()
  | .object _ => True

theorem mergeEntityComponents_ok {components : Option JSONMap} {blob : JSONMap} :
    mergeEntityComponents rules before components = .ok blob ↔
      (∀ c, components = some c → validateEntityComponents rules c = .ok () ∧
        storedComponents before = .ok (BlobUpdate.stored before) ∧
        validateEntityComponents rules (mergeMembers (BlobUpdate.stored before) c) = .ok ()) ∧
      BlobUpdate.mergedBlob before components = blob := by
  rcases components with _ | components
  · rw [mergeEntityComponents, Except.ok.injEq]
    simp [BlobUpdate.mergedBlob]
  · rw [mergeEntityComponents]
    simp only [bind_eq_ok]
    constructor
    · rintro ⟨_, hcomponents, existing, hstored, _, hmerged, hblob⟩
      obtain rfl := stored_of_storedComponents hstored
      refine ⟨?_, Except.ok.inj hblob⟩
      rintro _ ⟨rfl⟩
      exact ⟨hcomponents, hstored, hmerged⟩
    · rintro ⟨h, hblob⟩
      obtain ⟨hcomponents, hstored, hmerged⟩ := h components rfl
      exact ⟨(), hcomponents, _, hstored, (), hmerged, congrArg Except.ok hblob⟩

/-- A PATCH is accepted if the components are and the blob it makes may be written. -/
theorem patch_ok : patchValidatedJSONBlob rules (u.patch rules raw) = .ok out ↔
    ∃ before, decodeJSONBlobForPatch rules raw = .ok before ∧ u.Admits rules before ∧
      marshalValidatedJSONBlob (u.blob before) (u.validate rules) = .ok out := by
  cases u with
  | entity params =>
    change patchValidatedJSONBlob rules (entityJSONPatch rules raw params) = _ ↔ _
    rw [patchValidatedJSONBlob]
    simp only [entityJSONPatch]
    rcases hread : decodeJSONBlobForPatch rules raw with text | before
    · simp
    · simp only [Option.elim_some, Option.elim_none, bind_eq_ok, mergeEntityComponents_ok,
        Except.ok.injEq, exists_eq_left']
      constructor
      · rintro ⟨_, ⟨hadmits, rfl⟩, hout⟩
        exact ⟨hadmits, hout⟩
      · rintro ⟨hadmits, hout⟩
        exact ⟨_, ⟨hadmits, rfl⟩, hout⟩
  | object params =>
    change patchValidatedJSONBlob rules (objectJSONPatch rules raw params) = _ ↔ _
    rw [patchValidatedJSONBlob]
    simp only [objectJSONPatch]
    rcases hread : decodeJSONBlobForPatch rules raw with text | before
    · simp
    · simp only [Option.elim_some, Option.elim_none, bind_eq_ok, Except.ok.injEq, exists_eq_left']
      exact (and_iff_right trivial).symm

theorem marshal_of_ok {blob : JSONMap} {validate : JSONMap → Except ActionError Unit}
    (h : marshalValidatedJSONBlob blob validate = .ok out) : marshal (.object blob) = .ok out := by
  obtain ⟨-, -, h⟩ := bind_eq_ok.1 h
  split at h
  · cases h
  · rename_i bytes hbytes
    split_ifs at h
    rw [hbytes, Except.ok.inj h]

/-- A blob that was decoded is a map, no deeper than a document may be. -/
theorem decode_ok (h : decodeJSONBlobForPatch rules raw = .ok before) :
    Mapped (.object before) ∧ Fits maxNestingDepth (.object before) := by
  rcases raw with _ | bytes
  · obtain rfl := Except.ok.inj h
    exact ⟨.object sorted_nil (List.forall_mem_nil _), .object (List.forall_mem_nil _)⟩
  · rw [decodeJSONBlobForPatch] at h
    split at h
    · rename_i data hdata
      obtain rfl := Except.ok.inj h
      obtain ⟨v, hparse, hv⟩ := Option.map_eq_some_iff.1 hdata
      exact ⟨hv ▸ mapped_decoded v, hv ▸ (fits_of_parse hparse).decoded⟩
    · obtain rfl := Except.ok.inj h
      exact ⟨.object sorted_nil (List.forall_mem_nil _), .object (List.forall_mem_nil _)⟩
    · cases h

/-- What was written of a blob is decoded as it. -/
theorem decode_marshal {blob : JSONMap} (hmapped : Mapped (.object blob))
    (hfits : Fits maxNestingDepth (.object blob)) (h : marshal (.object blob) = .ok out) :
    parse out = some (.object blob) ∧ decodeJSONBlobForPatch rules (some out) = .ok blob := by
  rw [marshal_of_fits hfits] at h
  obtain rfl := Except.ok.inj h
  have hparse := parse_write hfits
  refine ⟨hparse, ?_⟩
  rw [decodeJSONBlobForPatch, hparse, Option.map_some, decoded_of_mapped hmapped]

end Run

section Again

variable {rules : BlobRules} {u : BlobUpdate} {before : JSONMap} {k : Text} {v : Value}

theorem stored_forall {P : Value → Prop} (hnil : P (.object [])) (h : ∀ e ∈ before, P e.2) :
    P (.object (BlobUpdate.stored before)) := by
  unfold BlobUpdate.stored
  rcases hfind : find componentsKey before with _ | v
  · exact hnil
  · cases v with
    | object m => exact h _ (find_mem hfind)
    | _ => exact hnil

theorem mapped_stored (h : Mapped (.object before)) : Mapped (.object (BlobUpdate.stored before)) :=
  stored_forall (.object sorted_nil (List.forall_mem_nil _)) (mapped_object.1 h).2

theorem Incoming.mono {m n : ℕ} {map : JSONMap} (h : Incoming m map) (hmn : m ≤ n) :
    Incoming n map :=
  ⟨h.mapped, fun e he => (h.fits e he).mono hmn⟩

/-- What a resource's own parameters write is a map, and no deeper than the blob may be. -/
theorem own_fits (hu : u.Requested) (hmapped : Mapped (.object before))
    (hfits : ∀ e ∈ before, Fits (maxNestingDepth - 1) e.2) (h : u.own before k = some v) :
    Mapped v ∧ Fits (maxNestingDepth - 1) v := by
  cases u with
  | entity params =>
    obtain ⟨-, h⟩ := Option.ite_none_right_eq_some.1 h
    obtain ⟨components, hcomponents, rfl⟩ := Option.map_eq_some_iff.1 h
    have hincoming := hu.1 components hcomponents
    have hstored : Fits (maxNestingDepth - 1) (.object (BlobUpdate.stored before)) :=
      stored_forall (.object (List.forall_mem_nil _)) hfits
    have hobject : Fits (maxNestingDepth - 1) (.object components) := .object hincoming.fits
    exact ⟨mapped_mergeJSONValue hincoming.mapped (mapped_stored hmapped),
      fits_mergeJSONValue hobject hstored⟩
  | object params =>
    rcases Option.or_eq_some_iff.1 h with h | ⟨-, h⟩
    · obtain ⟨-, h⟩ := Option.ite_none_right_eq_some.1 h
      obtain ⟨references, hreferences, rfl⟩ := Option.map_eq_some_iff.1 h
      have hreference : ∀ w ∈ references.map fun r => r.elim Value.null Value.object,
          Mapped w ∧ Fits (maxNestingDepth - 2) w := by
        intro w hw
        obtain ⟨_ | m, hm, rfl⟩ := List.mem_map.1 hw
        · exact ⟨.null, .null⟩
        · have hincoming := hu.1 references hreferences m hm
          exact ⟨hincoming.mapped, .object hincoming.fits⟩
      exact ⟨.array fun w hw => (hreference w hw).1, .array fun w hw => (hreference w hw).2⟩
    · obtain ⟨-, h⟩ := Option.ite_none_right_eq_some.1 h
      obtain ⟨hints, -, rfl⟩ := Option.map_eq_some_iff.1 h
      have hhint : ∀ w ∈ hints.map Value.string, Mapped w ∧ Fits (maxNestingDepth - 2) w := by
        intro w hw
        obtain ⟨hint, -, rfl⟩ := List.mem_map.1 hw
        exact ⟨.string, .string⟩
      exact ⟨.array fun w hw => (hhint w hw).1, .array fun w hw => (hhint w hw).2⟩

theorem requested_extra (hu : u.Requested) : Incoming (maxNestingDepth - 2) u.extra := by
  cases u with
  | entity params => exact hu.2
  | object params => exact hu.2

/-- The blob that a PATCH makes of a map is one, and no deeper than a document may be. -/
theorem blob_fits (hu : u.Requested) (hmapped : Mapped (.object before))
    (hfits : Fits maxNestingDepth (.object before)) :
    Mapped (.object (u.blob before)) ∧ Fits maxNestingDepth (.object (u.blob before)) := by
  have hbefore : ∀ e ∈ before, Fits (maxNestingDepth - 1) e.2 := by
    cases hfits with
    | object h => exact h
  have hlevels : maxNestingDepth - 2 ≤ maxNestingDepth - 1 := by decide
  have hextra := (requested_extra hu).mono hlevels
  have hsorted := sorted_blob (u := u) (mapped_object.1 hmapped).1
  have hvalue : ∀ e ∈ u.blob before, Mapped e.2 ∧ Fits (maxNestingDepth - 1) e.2 := by
    rintro ⟨key, v⟩ he
    have hfind := find_of_mem hsorted he
    have hfound : find key before = some v → Mapped v ∧ Fits (maxNestingDepth - 1) v := fun h =>
      ⟨(mapped_object.1 hmapped).2 _ (find_mem h), hbefore _ (find_mem h)⟩
    rw [find_blob hu] at hfind
    split_ifs at hfind
    · rcases Option.or_eq_some_iff.1 hfind with h | ⟨-, h⟩
      · exact own_fits hu hmapped hbefore h
      · exact hfound h
    · rw [Option.or_none] at hfind
      exact ⟨(mapped_object.1 hextra.mapped).2 _ (find_mem hfind), hextra.fits _ (find_mem hfind)⟩
    · rcases Option.or_eq_some_iff.1 hfind with h | ⟨-, h⟩
      · exact ⟨(mapped_object.1 hextra.mapped).2 _ (find_mem h), hextra.fits _ (find_mem h)⟩
      · exact hfound h
  exact ⟨.object hsorted fun e he => (hvalue e he).1, .object fun e he => (hvalue e he).2⟩

/-- The components that were merged are the ones the next PATCH finds. -/
theorem stored_blob {params : EntityBlobUpdate} {components : JSONMap}
    (hu : (BlobUpdate.entity params).Requested) (h : params.components = some components) :
    find componentsKey ((BlobUpdate.entity params).blob before)
        = some (.object (mergeMembers (BlobUpdate.stored before) components)) ∧
      BlobUpdate.stored ((BlobUpdate.entity params).blob before)
        = mergeMembers (BlobUpdate.stored before) components := by
  have hfind : find componentsKey ((BlobUpdate.entity params).blob before)
      = some (.object (mergeMembers (BlobUpdate.stored before) components)) := by
    rw [find_blob hu, if_pos (show (BlobUpdate.entity params).promoted componentsKey = true from
      rfl), BlobUpdate.own, if_pos rfl, h]
    rfl
  refine ⟨hfind, ?_⟩
  rw [BlobUpdate.stored, hfind]

theorem mergeMembers_again {stored components : JSONMap} (hstored : Mapped (.object stored))
    (hcomponents : Mapped (.object components)) :
    mergeMembers (mergeMembers stored components) components = mergeMembers stored components :=
  Value.object.inj (mergeJSONValue_mergeJSONValue hcomponents hstored)

theorem own_blob (hu : u.Requested) (hmapped : Mapped (.object before)) (k : Text) :
    u.own (u.blob before) k = u.own before k := by
  cases u with
  | entity params =>
    rw [BlobUpdate.own, BlobUpdate.own]
    rcases hcomponents : params.components with _ | components
    · rfl
    · rw [Option.map_some, Option.map_some, (stored_blob hu hcomponents).2,
        mergeMembers_again (mapped_stored hmapped) (hu.1 components hcomponents).mapped]
  | object params => rfl

/-- The same PATCH makes nothing else of what it made. -/
theorem blob_blob (hu : u.Requested) (hmapped : Mapped (.object before)) :
    u.blob (u.blob before) = u.blob before := by
  have hsorted := (mapped_object.1 hmapped).1
  refine ext (sorted_blob (sorted_blob hsorted)) (sorted_blob hsorted) fun k => ?_
  rw [find_blob hu k, own_blob hu hmapped, find_blob hu k]
  rcases u.promoted k
  · rcases find k u.extra with _ | v
    · simp only [Bool.false_eq_true, if_false, Option.none_or]
      split_ifs
      · rfl
      · rfl
    · rfl
  · rcases u.own before k with _ | v
    · rfl
    · rfl

theorem admits_blob (hu : u.Requested) (hmapped : Mapped (.object before))
    (h : u.Admits rules before) : u.Admits rules (u.blob before) := by
  cases u with
  | entity params =>
    intro components hcomponents
    obtain ⟨hvalid, -, hmerged⟩ := h components hcomponents
    obtain ⟨hfind, hstored⟩ := stored_blob hu hcomponents
    refine ⟨hvalid, ?_, ?_⟩
    · rw [storedComponents, hfind, hstored]
    · rw [hstored, mergeMembers_again (mapped_stored hmapped) (hu.1 components hcomponents).mapped]
      exact hmerged
  | object params => trivial

end Again

/-! ## The laws -/

/-- What a PATCH does to a blob. The values are compared with the texts of their numbers, so a
number that is kept keeps every digit. -/
structure PatchLaws (u : BlobUpdate) (before after : JSONMap) : Prop where
  /-- A path that leaves the mentioned components at a key they do not have is as it was. -/
  untouched : ∀ components, u.mentioned = some components →
    ∀ path, Misses path (.object components) →
      lookup (componentsKey :: path) (.object after)
        = lookup (componentsKey :: path) (.object before)
  leaf : ∀ components, u.mentioned = some components →
    ∀ path v, lookup path (.object components) = some v → (∀ m, v ≠ .object m) →
      lookup (componentsKey :: path) (.object after) = some v
  /-- A promoted field has what the parameters of the resource itself say, else what it had. -/
  promoted : ∀ key, u.promoted key = true →
    find key after = (u.own before key).or (find key before)
  /-- Also if the key is removed by the same PATCH. -/
  set : ∀ key v, u.promoted key = false → find key u.extra = some v → find key after = some v
  removed : ∀ key ∈ u.removed, u.promoted key = false → find key u.extra = none →
    find key after = none
  kept : ∀ key, u.promoted key = false → key ∉ u.removed → find key u.extra = none →
    find key after = find key before

section Laws

variable {rules : BlobRules} {u : BlobUpdate} {before : JSONMap}

theorem lookup_stored {path : List Text} {v : Value} (h : Misses path v) :
    lookup path (.object (BlobUpdate.stored before))
      = (find componentsKey before).bind (lookup path) := by
  rcases path with _ | ⟨key, path⟩
  · cases v <;> exact h.elim
  unfold BlobUpdate.stored
  rcases find componentsKey before with _ | v
  · rfl
  · cases v <;> rfl

theorem blob_untouched (hu : u.Requested) {components : JSONMap}
    (hmentioned : u.mentioned = some components) {path : List Text}
    (hpath : Misses path (.object components)) :
    lookup (componentsKey :: path) (.object (u.blob before))
      = lookup (componentsKey :: path) (.object before) := by
  cases u with
  | entity params =>
    rw [lookup, lookup]
    rcases hcomponents : params.components with _ | incoming
    · rw [find_blob hu, if_pos (show (BlobUpdate.entity params).promoted componentsKey = true from
        rfl), BlobUpdate.own, if_pos rfl, hcomponents]
      rfl
    · obtain rfl : incoming = components := by
        rw [BlobUpdate.mentioned, hcomponents] at hmentioned
        exact Option.some.inj hmentioned
      rw [(stored_blob hu hcomponents).1, Option.bind_some]
      have hmerge := lookup_merge_of_misses (hu.1 incoming hcomponents).mapped hpath
        (.object (BlobUpdate.stored before))
      exact hmerge.trans (lookup_stored hpath)
  | object params => cases hmentioned

theorem blob_leaf (hu : u.Requested) {components : JSONMap}
    (hmentioned : u.mentioned = some components) {path : List Text} {v : Value}
    (hpath : lookup path (.object components) = some v) (hv : ∀ m, v ≠ .object m) :
    lookup (componentsKey :: path) (.object (u.blob before)) = some v := by
  cases u with
  | entity params =>
    rcases hcomponents : params.components with _ | incoming
    · rw [BlobUpdate.mentioned, hcomponents] at hmentioned
      obtain rfl := Option.some.inj hmentioned
      rcases path with _ | ⟨key, path⟩
      · exact absurd (Option.some.inj hpath).symm (hv _)
      · cases hpath
    · obtain rfl : incoming = components := by
        rw [BlobUpdate.mentioned, hcomponents] at hmentioned
        exact Option.some.inj hmentioned
      rw [lookup, (stored_blob hu hcomponents).1, Option.bind_some]
      exact lookup_merge_of_leaf (hu.1 incoming hcomponents).mapped hpath hv
        (.object (BlobUpdate.stored before))
  | object params => cases hmentioned

theorem patchLaws_blob (hu : u.Requested) : PatchLaws u before (u.blob before) where
  untouched := fun _ hmentioned _ hpath => blob_untouched hu hmentioned hpath
  leaf := fun _ hmentioned _ _ hpath hv => blob_leaf hu hmentioned hpath hv
  promoted := fun key hkey => by rw [find_blob hu, if_pos hkey]
  set := fun key v hkey hextra => by
    rw [find_blob hu, hkey, hextra]
    rfl
  removed := fun key hremoved hkey hextra => by
    rw [find_blob hu, hkey, hextra, if_pos hremoved]
    rfl
  kept := fun key hkey hremoved hextra => by
    rw [find_blob hu, hkey, hextra, if_neg hremoved]
    rfl

/-- An accepted PATCH obeys the laws, and is accepted again with the same bytes. -/
theorem accepted_patch (hu : u.Requested) {raw : Option (List UInt8)} {out : List UInt8}
    (h : patchValidatedJSONBlob rules (u.patch rules raw) = .ok out) :
    (∃ before after, decodeJSONBlobForPatch rules raw = .ok before ∧
        parse out = some (.object after) ∧ PatchLaws u before after) ∧
      patchValidatedJSONBlob rules (u.patch rules (some out)) = .ok out := by
  obtain ⟨before, hbefore, hadmits, hmarshal⟩ := patch_ok.1 h
  obtain ⟨hmapped, hfits⟩ := decode_ok hbefore
  obtain ⟨hmapped', hfits'⟩ := blob_fits hu hmapped hfits
  obtain ⟨hparse, hdecode⟩ : parse out = some (.object (u.blob before)) ∧
      decodeJSONBlobForPatch rules (some out) = .ok (u.blob before) :=
    decode_marshal hmapped' hfits' (marshal_of_ok hmarshal)
  refine ⟨⟨before, _, hbefore, hparse, patchLaws_blob hu⟩, patch_ok.2 ⟨_, hdecode, ?_, ?_⟩⟩
  · exact admits_blob hu hmapped hadmits
  · rw [blob_blob hu hmapped]
    exact hmarshal

end Laws

section Refused

variable {α : Type} {env : Env} {rules : BlobRules} {db : DB} {id : String}

theorem lockEntity_of_find {entity : Entity} {f : Entity → CoreTx α} {R : α → DB → Prop}
    (hfind : findEntity db id = some entity) (hf : Spec (· = db) (f entity) R) :
    Spec (· = db) (lockEntity id >>= f) R := by
  refine .bind (Q := fun e db' => e = entity ∧ db' = db) ?_ fun e =>
    .of_holds (fun _ h => h.1) fun he => ?_
  · unfold lockEntity
    refine .get fun db' hdb => ?_
    subst hdb
    rw [hfind]
    exact .of_pure fun _ h => ⟨rfl, h⟩
  · subst he
    exact hf.mono (fun _ h => h.2) fun _ _ h => h

theorem lockObject_of_find {object : MediaObject} {f : MediaObject → CoreTx α}
    {R : α → DB → Prop} (hfind : findObject db id = some object)
    (hf : Spec (· = db) (f object) R) : Spec (· = db) (lockObject id >>= f) R := by
  refine .bind (Q := fun o db' => o = object ∧ db' = db) ?_ fun o =>
    .of_holds (fun _ h => h.1) fun ho => ?_
  · unfold lockObject
    refine .get fun db' hdb => ?_
    subst hdb
    rw [hfind]
    exact .of_pure fun _ h => ⟨rfl, h⟩
  · subst ho
    exact hf.mono (fun _ h => h.2) fun _ _ h => h

/-- An update whose PATCH is refused leaves every row as it was. -/
theorem updateEntity_refused {params : UpdateEntityParams} {movement : Except ActionError Unit}
    {entity : Entity} {e : ActionError} (hfind : findEntity db (trimSpace id) = some entity)
    (h : patchEntityJSON rules (some (utf8 entity.json.toList)) params.blobUpdate = .error e)
    (readings : ℕ → Time) :
    commit (EntityActions.update (env.withBlobs rules) id params movement) readings db = db := by
  refine Spec.commit (P := (· = db)) ?_ rfl
  unfold EntityActions.update
  refine .read fun _ => .read fun _ => .read fun _ => .read fun _ => lockEntity_of_find hfind ?_
  refine .read fun _ => .of_ite (fun _ => .of_pure fun _ h => h) fun _ => .read fun _ => ?_
  refine .of_check fun json hjson => ?_
  simp only [Env.withBlobs, h, Except.map] at hjson
  cases hjson

theorem updateObject_refused {params : UpdateObjectParams} {object : MediaObject} {e : ActionError}
    (hfind : findObject db (trimSpace id) = some object)
    (h : patchValidatedJSONBlob rules
      (objectJSONPatch rules (some (utf8 object.json.toList)) params.blobUpdate) = .error e)
    (readings : ℕ → Time) :
    commit (ObjectActions.update (env.withBlobs rules) id params) readings db = db := by
  refine Spec.commit (P := (· = db)) ?_ rfl
  unfold ObjectActions.update
  refine .read fun _ => .read fun _ => lockObject_of_find hfind ?_
  refine .read fun _ => .of_ite (fun _ => .of_pure fun _ h => h) fun _ => ?_
  refine .of_check fun json hjson => ?_
  simp only [Env.withBlobs, h, Except.map] at hjson
  cases hjson

end Refused

section Claims

/-- The laws of PATCH, of every update that a request asks for. A blob whose PATCH is refused stays
as it is, with everything else. -/
theorem patchValidatedJSONBlob_laws (rules : BlobRules) :
    (∀ u : BlobUpdate, u.Requested → ∀ raw out,
      patchValidatedJSONBlob rules (u.patch rules raw) = .ok out →
        (∃ before after, decodeJSONBlobForPatch rules raw = .ok before ∧
          parse out = some (.object after) ∧ PatchLaws u before after) ∧
        patchValidatedJSONBlob rules (u.patch rules (some out)) = .ok out) ∧
    ∀ (env : Env) (db : DB) (readings : ℕ → Time) (id : String),
      (∀ params movement entity e, findEntity db (trimSpace id) = some entity →
        patchEntityJSON rules (some (utf8 entity.json.toList)) params.blobUpdate = .error e →
        commit (EntityActions.update (env.withBlobs rules) id params movement) readings db = db) ∧
      ∀ params object e, findObject db (trimSpace id) = some object →
        patchValidatedJSONBlob rules
          (objectJSONPatch rules (some (utf8 object.json.toList)) params.blobUpdate) = .error e →
        commit (ObjectActions.update (env.withBlobs rules) id params) readings db = db := by
  refine ⟨fun u hu raw out h => accepted_patch hu h, fun env db readings id => ⟨?_, ?_⟩⟩
  · exact fun params movement entity e hfind h => updateEntity_refused hfind h readings
  · exact fun params object e hfind h => updateObject_refused hfind h readings

/-- Validators that accept everything. -/
def lenient : BlobRules :=
  { validateEntityComponents := fun _ => [], validateEntityBlob := fun _ => [],
    validateObjectBlob := fun _ => [], decodeErrorText := fun _ => "" }

/-- A blob whose telemetry has a number that no double holds. -/
def telemetryBlob : JSONMap :=
  [(componentsKey, .object
    [("telemetry".toList, .object [("sequence".toList, .number "9007199254740993".toList)])])]

def altitudeUpdate : BlobUpdate :=
  .entity
    { components :=
        some [("telemetry".toList, .object [("altitude_m".toList, .number "12".toList)])]
      extra := [("note".toList, .null)] }

theorem telemetryBlob_map :
    Mapped (.object telemetryBlob) ∧ Fits maxNestingDepth (.object telemetryBlob) := by
  have hnumber : Fits 1 (.number "9007199254740993".toList) :=
    .number (by decide) (List.all_eq_true.1 (by decide))
  have hfits : Fits 4 (.object telemetryBlob) :=
    .object (List.forall_mem_singleton.2 (.object (List.forall_mem_singleton.2
      (.object (List.forall_mem_singleton.2 hnumber)))))
  refine ⟨.object (List.pairwise_singleton _ _) (List.forall_mem_singleton.2 ?_),
    hfits.mono (by decide)⟩
  refine .object (List.pairwise_singleton _ _) (List.forall_mem_singleton.2 ?_)
  exact .object (List.pairwise_singleton _ _) (List.forall_mem_singleton.2 .number)

theorem altitudeUpdate_requested : altitudeUpdate.Requested := by
  have hnumber : Fits 1 (.number "12".toList) :=
    .number (by decide) (List.all_eq_true.1 (by decide))
  refine ⟨?_, ⟨.object (List.pairwise_singleton _ _) (List.forall_mem_singleton.2 .null),
    List.forall_mem_singleton.2 .null⟩⟩
  rintro _ ⟨rfl⟩
  have hfits : Fits 2 (.object [("altitude_m".toList, .number "12".toList)]) :=
    .object (List.forall_mem_singleton.2 hnumber)
  refine ⟨.object (List.pairwise_singleton _ _) (List.forall_mem_singleton.2 ?_),
    List.forall_mem_singleton.2 (hfits.mono (by decide))⟩
  exact .object (List.pairwise_singleton _ _) (List.forall_mem_singleton.2 .number)

/-- An Entity whose stored components are not an object. -/
def brokenEntity : Entity :=
  { entityID := "a", type := "asset", subtype := none, aliasName := none,
    json := String.ofList (write (.object [(componentsKey, .bool true)])), createdAt := 0,
    updatedAt := 0, version := 1, instanceTokenHash := none }

theorem brokenEntity_refused : patchEntityJSON lenient (some (utf8 brokenEntity.json.toList))
    (UpdateEntityParams.blobUpdate ⟨none, none, none, some [], [], none⟩)
      = .error (.validation "stored entity components must be an object or null") := by
  have hfits : Fits 2 (.object [(componentsKey, .bool true)]) :=
    .object (List.forall_mem_singleton.2 .bool)
  have hmapped : Mapped (.object [(componentsKey, .bool true)]) :=
    .object (List.pairwise_singleton _ _) (List.forall_mem_singleton.2 .bool)
  have hread : decodeJSONBlobForPatch lenient (some (utf8 brokenEntity.json.toList))
      = .ok [(componentsKey, .bool true)] := by
    rw [brokenEntity, String.toList_ofList]
    exact (decode_marshal hmapped (hfits.mono (by decide)) (marshal_of_fits hfits)).2
  rw [patchEntityJSON, patchValidatedJSONBlob]
  simp only [entityJSONPatch, hread]
  rfl

theorem patchValidatedJSONBlob_laws_telemetry :
    (∃ out, patchValidatedJSONBlob lenient (altitudeUpdate.patch lenient
        (some (utf8 (write (.object telemetryBlob))))) = .ok out ∧
      patchValidatedJSONBlob lenient (altitudeUpdate.patch lenient (some out)) = .ok out) ∧
    commit (EntityActions.update (plainEnv.withBlobs lenient) "a"
        ⟨none, none, none, some [], [], none⟩ (.ok ())) (fun _ => 0)
        { DB.empty with entities := [brokenEntity] }
      = { DB.empty with entities := [brokenEntity] } := by
  obtain ⟨hmapped, hfits⟩ := telemetryBlob_map
  have hread : decodeJSONBlobForPatch lenient (some (utf8 (write (.object telemetryBlob))))
      = .ok telemetryBlob := (decode_marshal hmapped hfits (marshal_of_fits hfits)).2
  have hout : marshalValidatedJSONBlob (altitudeUpdate.blob telemetryBlob)
      (altitudeUpdate.validate lenient)
        = .ok (utf8 (write (.object (altitudeUpdate.blob telemetryBlob)))) := by
    have hmarshal := marshal_of_fits (blob_fits altitudeUpdate_requested hmapped hfits).2
    have hsize : (utf8 (write (.object (altitudeUpdate.blob telemetryBlob)))).length
        ≤ maxStoredJSONBlobBytes := by decide +kernel
    refine bind_eq_ok.2 ⟨(), rfl, ?_⟩
    rw [hmarshal]
    exact if_neg (not_lt.2 hsize)
  have hadmits : altitudeUpdate.Admits lenient telemetryBlob := by
    rintro _ ⟨rfl⟩
    exact ⟨rfl, rfl, rfl⟩
  have haccepted := patch_ok.2 ⟨telemetryBlob, hread, hadmits, hout⟩
  obtain ⟨hlaws, hrefused⟩ := patchValidatedJSONBlob_laws lenient
  refine ⟨⟨_, haccepted, (hlaws _ altitudeUpdate_requested _ _ haccepted).2⟩, ?_⟩
  exact (hrefused plainEnv _ (fun _ => 0) "a").1 _ _ brokenEntity _ (by decide +kernel)
    brokenEntity_refused

end Claims

end Atlas.Core
