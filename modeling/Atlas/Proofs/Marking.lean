import Atlas.Link.Picture

/-!
# What an operation does to the entries

Marking an Asset's connectivity changes the freshness of its Tasks' records and nothing else of any
entry. Every operation is such marking, except that an accepted publication puts its own record or
tombstone at its key, and a refresh may drop a record.
-/

namespace Atlas.Picture

open Atlas.Link (LinkNode ResourceType)

variable (env : PictureEnv)

section Emitting

variable (p : SharedPicture) (type : PictureEventType) (key : String) (record : Option PictureRecord)

theorem emit_eq : ∃ events sizes retained, p.emit env type key record =
    { p with
      revision := p.revision + 1
      events := events
      eventBytes := sizes
      retainedEventBytes := retained } := by
  unfold SharedPicture.emit
  dsimp only
  split_ifs
  · exact ⟨_, _, _, rfl⟩
  · exact ⟨_, _, _, rfl⟩

@[simp]
theorem emit_records : (p.emit env type key record).records = p.records := by
  obtain ⟨events, sizes, retained, h⟩ := emit_eq env p type key record
  rw [h]

@[simp]
theorem emit_tombstones : (p.emit env type key record).tombstones = p.tombstones := by
  obtain ⟨events, sizes, retained, h⟩ := emit_eq env p type key record
  rw [h]

end Emitting

section Entries

theorem get_retainRecord (p : SharedPicture) (key : String) (record : PictureRecord) :
    (p.retainRecord env key record).records.get =
      Function.update p.records.get key (some record) := by
  funext k
  show (p.records.set key record).get k = _
  rw [OrderedMap.get_set, Function.update_apply]

theorem get_delete_eq_update {ν : Type} (m : OrderedMap String ν) (key : String) :
    (m.delete key).get = Function.update m.get key none := by
  funext k
  rw [OrderedMap.get_delete, Function.update_apply]

/-- A resource has a record or a tombstone and not both. -/
def Exclusive (p : SharedPicture) : Prop :=
  ∀ k r, p.records.get k = some r → p.tombstones.get k = none

/-- A record but for its freshness. -/
def PictureRecord.core (record : PictureRecord) : PictureRecord := { record with freshness := .fresh }

def Resource.isTask : Resource → Bool
  | .task _ => true
  | _ => false

/-- Nothing but the freshness of Tasks' records has changed. -/
structure Refreshed (p p' : SharedPicture) : Prop where
  records : ∀ k, (p'.records.get k).map PictureRecord.core = (p.records.get k).map PictureRecord.core
  others : ∀ k r, p.records.get k = some r → r.state.isTask = false → p'.records.get k = some r
  tombstones : p'.tombstones.get = p.tombstones.get

theorem Refreshed.of_eq {p p' : SharedPicture} (hr : p'.records = p.records)
    (ht : p'.tombstones = p.tombstones) : Refreshed p p' :=
  ⟨fun k => by rw [hr], fun k r h _ => by rw [hr, h], by rw [ht]⟩

theorem Refreshed.refl (p : SharedPicture) : Refreshed p p := .of_eq rfl rfl

theorem Refreshed.trans {p p' p'' : SharedPicture} (h : Refreshed p p') (h' : Refreshed p' p'') :
    Refreshed p p'' :=
  ⟨fun k => (h'.records k).trans (h.records k),
    fun k r hr ht => h'.others k r (h.others k r hr ht) ht, h'.tombstones.trans h.tombstones⟩

theorem emit_refreshed (p : SharedPicture) (type : PictureEventType) (key : String)
    (record : Option PictureRecord) : Refreshed p (p.emit env type key record) :=
  .of_eq (emit_records env p type key record) (emit_tombstones env p type key record)

theorem Refreshed.exclusive {p p' : SharedPicture} (h : Refreshed p p') (hx : Exclusive p) :
    Exclusive p' := by
  intro k r hr
  have hk := h.records k
  rw [hr, Option.map_some, eq_comm, Option.map_eq_some_iff] at hk
  obtain ⟨r', hr', -⟩ := hk
  rw [h.tombstones]
  exact hx k r' hr'

end Entries

section Marking

/-- A record once its Asset's connectivity is marked. -/
def PictureRecord.marked (assetID : String) (connected : Bool) (record : PictureRecord) :
    PictureRecord :=
  if SharedPicture.followsAsset record assetID = true ∧
      record.freshness ≠ (if connected then .fresh else .degraded) then
    { record with freshness := if connected then .fresh else .degraded }
  else record

theorem PictureRecord.marked_marked (assetID : String) (connected : Bool)
    (record : PictureRecord) :
    (record.marked assetID connected).marked assetID connected =
      record.marked assetID connected := by
  unfold PictureRecord.marked
  by_cases h : SharedPicture.followsAsset record assetID = true ∧
      record.freshness ≠ (if connected then .fresh else .degraded)
  · simp [h]
  · simp [h]

theorem markRecord_some (assetID : String) (connected : Bool) {p : SharedPicture} {key : String}
    {record : PictureRecord} (hr : p.records.get key = some record) :
    p.markRecord env assetID connected key =
      if SharedPicture.followsAsset record assetID = true ∧
          record.freshness ≠ (if connected then .fresh else .degraded) then
        (p.retainRecord env key
            { record with freshness := if connected then .fresh else .degraded }).emit env
          (if connected then .upsert else .stale) key
          (some { record with freshness := if connected then .fresh else .degraded })
      else p := by
  unfold SharedPicture.markRecord
  rw [hr]

theorem markRecord_none (assetID : String) (connected : Bool) {p : SharedPicture} {key : String}
    (hr : p.records.get key = none) : p.markRecord env assetID connected key = p := by
  unfold SharedPicture.markRecord
  rw [hr]

theorem get_markRecord (assetID : String) (connected : Bool) (p : SharedPicture)
    (key k : String) :
    (p.markRecord env assetID connected key).records.get k =
      if k = key then (p.records.get k).map (·.marked assetID connected)
      else p.records.get k := by
  rcases hr : p.records.get key with _ | record
  · rw [markRecord_none env assetID connected hr]
    by_cases hk : k = key
    · simp [hk, hr]
    · simp [hk]
  · rw [markRecord_some env assetID connected hr]
    by_cases h : SharedPicture.followsAsset record assetID = true ∧
        record.freshness ≠ (if connected then .fresh else .degraded)
    · rw [if_pos h, emit_records, get_retainRecord, Function.update_apply]
      by_cases hk : k = key
      · subst hk
        rw [if_pos rfl, if_pos rfl, hr, Option.map_some, PictureRecord.marked, if_pos h]
      · rw [if_neg hk, if_neg hk]
    · rw [if_neg h]
      by_cases hk : k = key
      · subst hk
        rw [if_pos rfl, hr, Option.map_some, PictureRecord.marked, if_neg h]
      · rw [if_neg hk]

theorem get_foldl_markRecord (assetID : String) (connected : Bool) :
    ∀ (keys : List String) (p : SharedPicture) (k : String),
      (keys.foldl (SharedPicture.markRecord env assetID connected) p).records.get k =
        if k ∈ keys then (p.records.get k).map (·.marked assetID connected)
        else p.records.get k
  | [], p, k => by simp
  | key :: keys, p, k => by
    rw [List.foldl_cons, get_foldl_markRecord assetID connected keys, get_markRecord]
    by_cases hk : k = key
    · simp [hk, Function.comp_def, PictureRecord.marked_marked]
    · simp [hk]

theorem get_markSourceConnectivity (source : LinkNode) (connected : Bool) (p : SharedPicture)
    (k : String) :
    (p.markSourceConnectivity env source connected).records.get k =
      if source.role = .asset then (p.records.get k).map (·.marked source.id connected)
      else p.records.get k := by
  unfold SharedPicture.markSourceConnectivity
  by_cases hrole : source.role = .asset
  · simp only [hrole, ne_eq, not_true_eq_false, if_false, if_true, get_foldl_markRecord]
    by_cases hk : k ∈ p.records.keys
    · rw [if_pos hk]
    · rw [if_neg hk]
      have hnone : p.records.get k = none := by
        rcases hr : p.records.get k with _ | record
        · rfl
        · exact absurd (List.mem_map.2 ⟨_, OrderedMap.get_eq_some_iff.1 hr, rfl⟩) hk
      rw [hnone]
      rfl
  · simp [hrole]

/-- Marking brings no record in and drops none. -/
theorem get_markSourceConnectivity_eq_none (source : LinkNode) (connected : Bool)
    {p : SharedPicture} {k : String} :
    (p.markSourceConnectivity env source connected).records.get k = none ↔
      p.records.get k = none := by
  rw [get_markSourceConnectivity]
  split_ifs <;> simp

theorem PictureRecord.core_marked (assetID : String) (connected : Bool) (record : PictureRecord) :
    (record.marked assetID connected).core = record.core := by
  unfold PictureRecord.marked
  split_ifs <;> rfl

theorem PictureRecord.marked_of_not_task (assetID : String) (connected : Bool)
    {record : PictureRecord} (h : record.state.isTask = false) :
    record.marked assetID connected = record := by
  unfold PictureRecord.marked SharedPicture.followsAsset
  cases hstate : record.state with
  | task t =>
    rw [hstate] at h
    cases h
  | entity e => simp
  | object o => simp

theorem markRecord_tombstones (assetID : String) (connected : Bool) {p : SharedPicture}
    (hx : Exclusive p) (key : String) :
    (p.markRecord env assetID connected key).tombstones.get = p.tombstones.get := by
  rcases hr : p.records.get key with _ | record
  · rw [markRecord_none env assetID connected hr]
  · rw [markRecord_some env assetID connected hr]
    by_cases h : SharedPicture.followsAsset record assetID = true ∧
        record.freshness ≠ (if connected then .fresh else .degraded)
    · rw [if_pos h, emit_tombstones]
      show (p.tombstones.delete key).get = _
      rw [get_delete_eq_update, ← hx key record hr, Function.update_eq_self]
    · rw [if_neg h]

theorem markRecord_refreshed (assetID : String) (connected : Bool) {p : SharedPicture}
    (hx : Exclusive p) (key : String) : Refreshed p (p.markRecord env assetID connected key) := by
  refine ⟨fun k => ?_, fun k r hr ht => ?_, markRecord_tombstones env assetID connected hx key⟩
  · rw [get_markRecord]
    split_ifs
    · simp [Function.comp_def, PictureRecord.core_marked]
    · rfl
  · rw [get_markRecord, hr]
    split_ifs
    · rw [Option.map_some, PictureRecord.marked_of_not_task assetID connected ht]
    · rfl

theorem foldl_refreshed {α : Type} {f : SharedPicture → α → SharedPicture}
    (h : ∀ p a, Exclusive p → Refreshed p (f p a)) :
    ∀ (as : List α) {p : SharedPicture}, Exclusive p → Refreshed p (as.foldl f p)
  | [], p, _ => .refl p
  | a :: as, p, hx => by
    have h₁ := h p a hx
    exact h₁.trans (foldl_refreshed h as (h₁.exclusive hx))

theorem markSourceConnectivity_refreshed (source : LinkNode) (connected : Bool)
    {p : SharedPicture} (hx : Exclusive p) :
    Refreshed p (p.markSourceConnectivity env source connected) := by
  unfold SharedPicture.markSourceConnectivity
  split_ifs
  · exact .refl p
  · have hstart : Refreshed p { p with
        assetConnectivity :=
          p.assetConnectivity.modify source.id fun c => { c with connected := connected } } :=
      .of_eq rfl rfl
    exact hstart.trans (foldl_refreshed
      (fun p key hx => markRecord_refreshed env source.id connected hx key) _
      (hstart.exclusive hx))

theorem degradeTasksForExpiredAsset_refreshed (record : PictureRecord) {p : SharedPicture}
    (hx : Exclusive p) : Refreshed p (p.degradeTasksForExpiredAsset env record) := by
  unfold SharedPicture.degradeTasksForExpiredAsset
  split
  · split_ifs
    · exact markSourceConnectivity_refreshed env _ _ hx
    · exact .refl p
  · exact .refl p

theorem degradeCurrent_refreshed (current : Option PictureRecord) {p : SharedPicture}
    (hx : Exclusive p) : Refreshed p (p.degradeCurrent env current) := by
  unfold SharedPicture.degradeCurrent
  split
  · exact degradeTasksForExpiredAsset_refreshed env _ hx
  · exact .refl p

theorem markAsset_refreshed (assetID : Option String) (connected : Bool) {p : SharedPicture}
    (hx : Exclusive p) : Refreshed p (p.markAsset env assetID connected) := by
  unfold SharedPicture.markAsset
  split
  · exact markSourceConnectivity_refreshed env _ _ hx
  · exact .refl p

theorem connectAsset_refreshed (assetID : Option String) (receivedAt : ℕ) (p : SharedPicture) :
    Refreshed p (p.connectAsset assetID receivedAt) := by
  unfold SharedPicture.connectAsset
  split
  · exact .of_eq rfl rfl
  · exact .refl p

theorem introduceAsset_refreshed (source : LinkNode) (p : SharedPicture) :
    Refreshed p (p.introduceAsset source) := by
  unfold SharedPicture.introduceAsset
  split_ifs
  · exact .of_eq rfl rfl
  · exact .refl p

theorem supersedeSource_refreshed (source : LinkNode) (generation : ℕ) {p : SharedPicture}
    (hx : Exclusive p) : Refreshed p (p.supersedeSource env source generation) := by
  unfold SharedPicture.supersedeSource
  split_ifs
  · exact (markSourceConnectivity_refreshed env source false hx).trans (.of_eq rfl rfl)
  · exact .refl p

theorem activateSource_refreshed (source : LinkNode) (generation : ℕ) (session : String)
    {p : SharedPicture} (hx : Exclusive p) :
    Refreshed p (p.activateSource env source generation session).1 := by
  have hnew := introduceAsset_refreshed source p
  unfold SharedPicture.activateSource
  dsimp only
  split_ifs
  · exact .refl p
  · exact .refl p
  · exact .refl p
  · exact hnew
  · exact (hnew.trans (supersedeSource_refreshed env source generation (hnew.exclusive hx))).trans
      (.of_eq rfl rfl)

theorem acceptSource_refreshed (context : PictureApplyContext) {p : SharedPicture}
    (hx : Exclusive p) : Refreshed p (p.acceptSource env context).1 := by
  unfold SharedPicture.acceptSource
  split_ifs
  · exact .refl p
  · exact activateSource_refreshed env _ _ _ hx

theorem expireConnectivity_refreshed (now : ℕ) {p : SharedPicture} (hx : Exclusive p)
    (id : String) : Refreshed p (p.expireConnectivity env now id) := by
  unfold SharedPicture.expireConnectivity
  split
  · exact .refl p
  · split_ifs
    · exact markSourceConnectivity_refreshed env _ _ hx
    · exact .refl p

end Marking

section Superseding

/-- A publication's own record or tombstone has taken the place of what was at its key. -/
structure Superseded (publication : StatePublication) (context : PictureApplyContext)
    (p p' : SharedPicture) : Prop where
  newer : ∀ r, p.records.get publication.key = some r → isNewer env publication r context = true
  replaces : ∀ t, p.tombstones.get publication.key = some t →
    canReplaceTombstone publication t = true
  elsewhere : ∀ k, k ≠ publication.key →
    (p'.records.get k).map PictureRecord.core = (p.records.get k).map PictureRecord.core ∧
      p'.tombstones.get k = p.tombstones.get k
  entry :
    match publication.published with
    | .deleted _ _ atlasVersion _ => p'.records.get publication.key = none ∧
        p'.tombstones.get publication.key = some (SharedPicture.tombstoneFor atlasVersion publication context)
    | .resource resource =>
      (p'.records.get publication.key).map PictureRecord.core =
          some (SharedPicture.recordFor resource publication context .fresh) ∧
        p'.tombstones.get publication.key = none
  others : ∀ resource, publication.published = .resource resource → resource.isTask = false →
    p'.records.get publication.key =
      some (SharedPicture.recordFor resource publication context .fresh)

theorem Superseded.exclusive {publication : StatePublication} {context : PictureApplyContext}
    {p p' : SharedPicture} (h : Superseded env publication context p p') (hx : Exclusive p) :
    Exclusive p' := by
  intro k r hr
  by_cases hk : k = publication.key
  · have hentry := h.entry
    subst hk
    split at hentry
    · rw [hentry.1] at hr
      cases hr
    · exact hentry.2
  · obtain ⟨hrecords, htombstones⟩ := h.elsewhere k hk
    rw [hr, Option.map_some, eq_comm, Option.map_eq_some_iff] at hrecords
    obtain ⟨r', hr', -⟩ := hrecords
    rw [htombstones]
    exact hx k r' hr'

theorem Superseded.refreshed {publication : StatePublication} {context : PictureApplyContext}
    {p p' p'' : SharedPicture} (h : Superseded env publication context p p')
    (h' : Refreshed p' p'') : Superseded env publication context p p'' where
  newer := h.newer
  replaces := h.replaces
  elsewhere k hk := by
    rw [h'.records, h'.tombstones]
    exact h.elsewhere k hk
  entry := by
    have hentry := h.entry
    split at hentry
    · refine ⟨?_, by rw [h'.tombstones]; exact hentry.2⟩
      have hk := h'.records publication.key
      rw [hentry.1, Option.map_none, Option.map_eq_none_iff] at hk
      exact hk
    · exact ⟨by rw [h'.records]; exact hentry.1, by rw [h'.tombstones]; exact hentry.2⟩
  others resource hpublished ht :=
    h'.others _ _ (h.others resource hpublished ht) ht

theorem Superseded.of_tombstone {publication : StatePublication} {context : PictureApplyContext}
    {resourceType : ResourceType} {id : String} {atlasVersion : ℕ} {hnot : resourceType ≠ .task}
    (hpublished : publication.published = .deleted resourceType id atlasVersion hnot)
    {p₀ p : SharedPicture} (hp : Refreshed p₀ p)
    (hnewer : ∀ r, p₀.records.get publication.key = some r →
      isNewer env publication r context = true)
    (hreplaces : ∀ t, p₀.tombstones.get publication.key = some t →
      canReplaceTombstone publication t = true) :
    Superseded env publication context p₀ (p.retainTombstone env publication.key
      (SharedPicture.tombstoneFor atlasVersion publication context)) where
  newer := hnewer
  replaces := hreplaces
  elsewhere k hk := by
    show ((p.records.delete publication.key).get k).map _ = _ ∧
      (p.tombstones.set publication.key _).get k = _
    rw [OrderedMap.get_delete, if_neg hk, OrderedMap.get_set_of_ne hk, hp.records, hp.tombstones]
    exact ⟨rfl, rfl⟩
  entry := by
    rw [hpublished]
    show (p.records.delete publication.key).get publication.key = none ∧
      (p.tombstones.set publication.key _).get publication.key = _
    rw [OrderedMap.get_delete, if_pos rfl, OrderedMap.get_set_self]
    exact ⟨rfl, rfl⟩
  others resource hresource _ := by
    rw [hpublished] at hresource
    cases hresource

theorem Superseded.of_record {publication : StatePublication} {context : PictureApplyContext}
    {resource : Resource} (hpublished : publication.published = .resource resource)
    {p₀ p : SharedPicture} (hp : Refreshed p₀ p) {freshness : PictureFreshness}
    (hfresh : resource.isTask = false → freshness = .fresh)
    (hnewer : ∀ r, p₀.records.get publication.key = some r →
      isNewer env publication r context = true)
    (hreplaces : ∀ t, p₀.tombstones.get publication.key = some t →
      canReplaceTombstone publication t = true) :
    Superseded env publication context p₀ (p.retainRecord env publication.key
      (SharedPicture.recordFor resource publication context freshness)) where
  newer := hnewer
  replaces := hreplaces
  elsewhere k hk := by
    show ((p.records.set publication.key _).get k).map _ = _ ∧
      (p.tombstones.delete publication.key).get k = _
    rw [OrderedMap.get_delete, if_neg hk, OrderedMap.get_set_of_ne hk, hp.records, hp.tombstones]
    exact ⟨rfl, rfl⟩
  entry := by
    rw [hpublished]
    show ((p.records.set publication.key _).get publication.key).map _ = _ ∧
      (p.tombstones.delete publication.key).get publication.key = _
    rw [OrderedMap.get_delete, if_pos rfl, OrderedMap.get_set_self]
    exact ⟨rfl, rfl⟩
  others resource' hresource ht := by
    rw [hpublished] at hresource
    cases hresource
    show (p.records.set publication.key _).get publication.key = _
    rw [OrderedMap.get_set_self, hfresh ht]

theorem canReplaceTombstone_of_not_any {publication : StatePublication}
    {tombstone : Option PictureTombstone}
    (h : ¬ (tombstone.any fun t => !canReplaceTombstone publication t) = true) (t : PictureTombstone)
    (ht : tombstone = some t) : canReplaceTombstone publication t = true := by
  subst ht
  simpa using h

/-- A publication that is not applied changes no more than the freshness of Tasks' records. -/
inductive ApplyEffect (publication : StatePublication) (context : PictureApplyContext)
    (p : SharedPicture) : SharedPicture × PictureApplyResult → Prop
  | rejected {p' : SharedPicture} {reason : PictureRejection} :
    Refreshed p p' → ApplyEffect publication context p (p', .rejected reason)
  | applied {p' : SharedPicture} :
    Superseded env publication context p p' → ApplyEffect publication context p (p', .applied)

/-- A deletion is looked at in a state whose entries are those of `p₀`, up to freshness. -/
theorem applyDeletion_effect {publication : StatePublication} {context : PictureApplyContext}
    {resourceType : ResourceType} {id : String} {atlasVersion : ℕ} {hnot : resourceType ≠ .task}
    (hpublished : publication.published = .deleted resourceType id atlasVersion hnot)
    (current : Option PictureRecord) (asset : Option String) (recordSourceKey : String)
    (before : Option RecordSourceSequence) {p₀ p : SharedPicture} (hp : Refreshed p₀ p)
    (hx : Exclusive p₀)
    (hnewer : ∀ r, p₀.records.get publication.key = some r →
      isNewer env publication r context = true) :
    ApplyEffect env publication context p₀ (p.applyDeletion env publication context atlasVersion
      current asset recordSourceKey before) := by
  unfold SharedPicture.applyDeletion SharedPicture.rejectCapacity
  dsimp only
  by_cases hreplace : ((p.tombstones.get publication.key).any fun t =>
      !canReplaceTombstone publication t) = true
  · rw [if_pos hreplace]
    exact .rejected hp
  rw [if_neg hreplace]
  by_cases hretain : (!p.canRetain publication.key (env.tombstoneBytes
      (SharedPicture.tombstoneFor atlasVersion publication context))) = true
  · rw [if_pos hretain]
    exact .rejected (hp.trans (.of_eq rfl rfl))
  rw [if_neg hretain]
  have hreplaces : ∀ t, p₀.tombstones.get publication.key = some t →
      canReplaceTombstone publication t = true := by
    rw [← hp.tombstones]
    exact canReplaceTombstone_of_not_any hreplace
  have hdegraded := hp.trans (degradeCurrent_refreshed env current (hp.exclusive hx))
  have hretained := Superseded.of_tombstone env hpublished hdegraded hnewer hreplaces
  have hmarked := hretained.refreshed env
    (markAsset_refreshed env asset false (hretained.exclusive env hx))
  refine .applied ?_
  split_ifs
  · exact hmarked.refreshed env (emit_refreshed env _ _ _ _)
  · exact hmarked

theorem applyResource_effect {publication : StatePublication} {context : PictureApplyContext}
    {resource : Resource} (hpublished : publication.published = .resource resource)
    (current : Option PictureRecord) (asset : Option String) (recordSourceKey : String)
    (before : Option RecordSourceSequence) {p₀ p : SharedPicture} (hp : Refreshed p₀ p)
    (hx : Exclusive p₀)
    (hnewer : ∀ r, p₀.records.get publication.key = some r →
      isNewer env publication r context = true) :
    ApplyEffect env publication context p₀ (p.applyResource env publication context resource current
      asset recordSourceKey before) := by
  unfold SharedPicture.applyResource SharedPicture.rejectCapacity
  dsimp only
  by_cases hreplace : ((p.tombstones.get publication.key).any fun t =>
      !canReplaceTombstone publication t) = true
  · rw [if_pos hreplace]
    exact .rejected hp
  rw [if_neg hreplace]
  by_cases hretain : (!p.canRetain publication.key (SharedPicture.retainedRecordBytes env
      (SharedPicture.recordFor resource publication context
        (p.resourceFreshness resource current)))) = true
  · rw [if_pos hretain]
    exact .rejected (hp.trans (.of_eq rfl rfl))
  rw [if_neg hretain]
  have hreplaces : ∀ t, p₀.tombstones.get publication.key = some t →
      canReplaceTombstone publication t = true := by
    rw [← hp.tombstones]
    exact canReplaceTombstone_of_not_any hreplace
  have hfresh : resource.isTask = false → p.resourceFreshness resource current = .fresh := by
    intro ht
    unfold SharedPicture.resourceFreshness
    cases resource with
    | task t => cases ht
    | entity e => rfl
    | object o => rfl
  have hretained := Superseded.of_record env hpublished hp hfresh hnewer hreplaces
  have htold := hretained.refreshed env ((connectAsset_refreshed asset context.receivedAt _).trans
    (emit_refreshed env _ .upsert publication.key (some (SharedPicture.recordFor resource
      publication context (p.resourceFreshness resource current)))))
  exact .applied <| htold.refreshed env (markAsset_refreshed env asset true (htold.exclusive env hx))

theorem apply_effect (publication : StatePublication) (context : PictureApplyContext)
    {p : SharedPicture} (hx : Exclusive p) :
    ApplyEffect env publication context p (p.apply env publication context) := by
  unfold SharedPicture.apply
  dsimp only
  split_ifs
  · exact .rejected (.refl p)
  have haccept := acceptSource_refreshed env context hx
  rcases haccepted : p.acceptSource env context with ⟨p₁, _ | reason⟩
  · rw [haccepted] at haccept
    have hpruned : Refreshed p (p₁.pruneRecordSourceSequences context.receivedAt) :=
      haccept.trans (.of_eq rfl rfl)
    simp only
    unfold SharedPicture.applyAccepted
    dsimp only
    split_ifs with hsequence hfull hstale hnew
    · exact .rejected hpruned
    · exact .rejected hpruned
    · exact .rejected (hpruned.trans (.of_eq rfl rfl))
    · exact .rejected (hpruned.trans (.of_eq rfl rfl))
    · have hnewer : ∀ r, p.records.get publication.key = some r →
          isNewer env publication r context = true := by
        intro r hr
        simpa [hr] using hnew
      split
      · rename_i hpublished
        exact applyDeletion_effect env hpublished _ _ _ _ (hpruned.trans (.of_eq rfl rfl)) hx hnewer
      · rename_i hpublished
        exact applyResource_effect env hpublished _ _ _ _ (hpruned.trans (.of_eq rfl rfl)) hx hnewer
  · rw [haccepted] at haccept
    exact .rejected haccept

end Superseding

section Fading

/-- The freshness of records has changed, and some are gone. -/
structure Faded (p p' : SharedPicture) : Prop where
  records : ∀ k,
    (p'.records.get k).map PictureRecord.core = (p.records.get k).map PictureRecord.core ∨
      p'.records.get k = none
  tombstones : p'.tombstones.get = p.tombstones.get

theorem Refreshed.faded {p p' : SharedPicture} (h : Refreshed p p') : Faded p p' :=
  ⟨fun k => .inl (h.records k), h.tombstones⟩

theorem Faded.trans {p p' p'' : SharedPicture} (h : Faded p p') (h' : Faded p' p'') :
    Faded p p'' := by
  refine ⟨fun k => ?_, h'.tombstones.trans h.tombstones⟩
  rcases h'.records k with hk | hk
  · rcases h.records k with hk' | hk'
    · exact .inl (hk.trans hk')
    · rw [hk', Option.map_none, Option.map_eq_none_iff] at hk
      exact .inr hk
  · exact .inr hk

theorem Faded.exclusive {p p' : SharedPicture} (h : Faded p p') (hx : Exclusive p) :
    Exclusive p' := by
  intro k r hr
  rw [h.tombstones]
  rcases h.records k with hk | hk
  · rw [hr, Option.map_some, eq_comm, Option.map_eq_some_iff] at hk
    obtain ⟨r', hr', -⟩ := hk
    exact hx k r' hr'
  · rw [hk] at hr
    cases hr

theorem foldl_faded {α : Type} {f : SharedPicture → α → SharedPicture}
    (h : ∀ p a, Exclusive p → Faded p (f p a)) :
    ∀ (as : List α) {p : SharedPicture}, Exclusive p → Faded p (as.foldl f p)
  | [], p, _ => (Refreshed.refl p).faded
  | a :: as, p, hx => by
    have h₁ := h p a hx
    exact h₁.trans (foldl_faded h as (h₁.exclusive hx))

theorem removeRecord_faded (key : String) (p : SharedPicture) : Faded p (p.removeRecord key) := by
  refine ⟨fun k => ?_, rfl⟩
  show ((p.records.delete key).get k).map _ = _ ∨ (p.records.delete key).get k = none
  rw [OrderedMap.get_delete]
  split_ifs
  · exact .inr rfl
  · exact .inl rfl

/-- A record is put back with another freshness. -/
theorem retainRecord_faded {p : SharedPicture} (hx : Exclusive p) {key : String}
    {record : PictureRecord}
    (hcore : (p.records.get key).map PictureRecord.core = some record.core) :
    Faded p (p.retainRecord env key record) := by
  refine ⟨fun k => .inl ?_, ?_⟩
  · rw [get_retainRecord, Function.update_apply]
    split_ifs with hk
    · subst hk
      rw [hcore]
      rfl
    · rfl
  · obtain ⟨r, hr, -⟩ := Option.map_eq_some_iff.1 hcore
    show (p.tombstones.delete key).get = _
    rw [get_delete_eq_update, ← hx key r hr, Function.update_eq_self]

theorem refreshRecord_faded (now : ℕ) {p : SharedPicture} (hx : Exclusive p) (key : String) :
    Faded p (p.refreshRecord env now key) := by
  unfold SharedPicture.refreshRecord
  dsimp only
  split
  · exact (Refreshed.refl p).faded
  · rename_i record hr
    have hdegraded := degradeTasksForExpiredAsset_refreshed env record hx
    split_ifs
    · have hremoved := hdegraded.faded.trans (removeRecord_faded key _)
      exact hremoved.trans (emit_refreshed env _ _ _ _).faded
    · set p₁ := p.degradeTasksForExpiredAsset env record
      have hcore : (p₁.records.get key).map PictureRecord.core = some record.core := by
        rw [hdegraded.records, hr, Option.map_some]
      have hstale : Faded p₁ (p₁.retainRecord env key { record with freshness := .stale }) :=
        retainRecord_faded env (hdegraded.exclusive hx) hcore
      have hfaded := hdegraded.faded.trans hstale
      exact hfaded.trans (emit_refreshed env _ _ _ _).faded
    · exact (Refreshed.refl p).faded

theorem refresh_faded (now : ℕ) {p : SharedPicture} (hx : Exclusive p) :
    Faded p (p.refresh env now) := by
  unfold SharedPicture.refresh
  dsimp only
  have hpruned : Refreshed p (p.pruneRecordSourceSequences now) := .of_eq rfl rfl
  have hexpired := hpruned.trans (foldl_refreshed
    (fun p id hx => expireConnectivity_refreshed env now hx id)
    (p.pruneRecordSourceSequences now).assetConnectivity.keys (hpruned.exclusive hx))
  exact hexpired.faded.trans (foldl_faded
    (fun p key hx => refreshRecord_faded env now hx key) _ (hexpired.exclusive hx))

/-- What an operation other than an accepted publication does to the entries. -/
theorem run_effect (op : PictureOp) {p : SharedPicture} (hx : Exclusive p) :
    Refreshed p (op.run env p) ∨
      (∃ publication context, op = .apply publication context ∧
        Superseded env publication context p (op.run env p)) ∨
      (∃ now, op = .refresh now ∧ Faded p (op.run env p)) := by
  cases op with
  | apply publication context =>
    have heffect := apply_effect env publication context hx
    have hrun : PictureOp.run env p (.apply publication context) =
        (p.apply env publication context).1 := rfl
    rcases hresult : p.apply env publication context with ⟨p', result⟩
    rw [hresult] at heffect hrun
    rw [hrun]
    cases heffect with
    | rejected h => exact .inl h
    | applied h => exact .inr (.inl ⟨publication, context, rfl, h⟩)
  | refresh now => exact .inr (.inr ⟨now, rfl, refresh_faded env now hx⟩)
  | markSourceConnectivity source connected =>
    exact .inl (markSourceConnectivity_refreshed env source connected hx)
  | activateSource source generation session _ =>
    exact .inl (activateSource_refreshed env source generation session hx)

theorem run_exclusive (op : PictureOp) {p : SharedPicture} (hx : Exclusive p) :
    Exclusive (op.run env p) := by
  rcases run_effect env op hx with h | ⟨publication, context, -, h⟩ | ⟨now, -, h⟩
  · exact h.exclusive hx
  · exact h.exclusive env hx
  · exact h.exclusive hx

theorem Reachable.exclusive {p : SharedPicture} (h : Reachable env p) : Exclusive p := by
  induction h with
  | new => intro k r hr; cases hr
  | step op _ ih => exact run_exclusive env op ih

/-- A record is under the key of its type and ID, and has a version unless it is of a Task. -/
structure PictureRecord.Sound (key : String) (record : PictureRecord) : Prop where
  key_eq : key = recordKey record.resourceType record.id
  version : record.resourceType ≠ .task → record.atlasVersion.isSome = true

theorem PictureRecord.sound_core {key : String} {record : PictureRecord} :
    record.core.Sound key ↔ record.Sound key :=
  ⟨fun h => ⟨h.key_eq, h.version⟩, fun h => ⟨h.key_eq, h.version⟩⟩

theorem sound_recordFor {publication : StatePublication} {resource : Resource}
    (hpublished : publication.published = .resource resource) (context : PictureApplyContext)
    (freshness : PictureFreshness) :
    (SharedPicture.recordFor resource publication context freshness).Sound publication.key where
  key_eq := by
    unfold StatePublication.key resourceID
    rw [hpublished]
    rfl
  version h := by
    unfold SharedPicture.recordFor resourceVersion at *
    rw [hpublished]
    cases resource
    · rfl
    · exact absurd rfl h
    · rfl

/-- A record is sound if one with the same core is. -/
theorem sound_of_core {key : String} {r : PictureRecord} {o : Option PictureRecord}
    (h : ∀ r', o = some r' → r'.Sound key)
    (hcore : (some r).map PictureRecord.core = o.map PictureRecord.core) : r.Sound key := by
  rw [Option.map_some, eq_comm, Option.map_eq_some_iff] at hcore
  obtain ⟨r', ho, hcore⟩ := hcore
  have := PictureRecord.sound_core.2 (h r' ho)
  rw [hcore] at this
  exact PictureRecord.sound_core.1 this

theorem Reachable.sound {p : SharedPicture} (h : Reachable env p) :
    ∀ k r, p.records.get k = some r → r.Sound k := by
  induction h with
  | new => intro k r hr; cases hr
  | @step p op hp ih =>
    intro k r hr
    rcases run_effect env op (hp.exclusive env) with h | ⟨publication, context, -, h⟩ | ⟨now, -, h⟩
    · exact sound_of_core (ih k) (by rw [← hr]; exact h.records k)
    · by_cases hk : k = publication.key
      · have hentry := h.entry
        subst hk
        split at hentry
        · rw [hentry.1] at hr
          cases hr
        · rename_i hpublished
          rw [hr] at hentry
          refine sound_of_core (o := some (SharedPicture.recordFor _ publication context .fresh))
            (fun r' hr' => ?_) hentry.1
          cases hr'
          exact sound_recordFor hpublished context .fresh
      · exact sound_of_core (ih k) (by rw [← hr]; exact (h.elsewhere k hk).1)
    · rcases h.records k with hk | hk
      · exact sound_of_core (ih k) (by rw [← hr]; exact hk)
      · rw [hk] at hr
        cases hr

end Fading

end Atlas.Picture
