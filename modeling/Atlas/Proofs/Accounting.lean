import Atlas.Proofs.Marking

/-!
# What a picture stores, and its bounds

The bytes of the entries and of the buffered events are counted as they come and go. The counts are
always those of what is stored, and within the limits: an entry goes in only if it fits, marking
rewrites records at the size they have, and events leave the buffer until the rest fits.
-/

namespace Atlas.Picture

open Atlas.Link (LinkNode)

variable (env : PictureEnv) {p p' : SharedPicture}

/-- The size at which what is stored under a key counts. -/
def SharedPicture.entrySize (key : String) (p : SharedPicture) : Option ℕ :=
  match p.records.get key with
  | some record => some (SharedPicture.retainedRecordBytes env record)
  | none => (p.tombstones.get key).map env.tombstoneBytes

structure EntriesFit (p : SharedPicture) : Prop where
  exclusive : Exclusive p
  sizes : ∀ key, p.entryBytes.get key = p.entrySize env key
  retained : p.retainedEntryBytes = (p.entryBytes.values.sum : ℕ)
  retained_le : p.retainedEntryBytes ≤ pictureRetainedBytesLimit
  entries_le : p.entryBytes.size ≤ pictureEntryLimit

structure SourcesFit (p : SharedPicture) : Prop where
  sources_le : p.sources.size ≤ linkSourceIdentityLimit
  connectivity_le : p.assetConnectivity.size ≤ linkSourceIdentityLimit
  positions_le : p.recordSourceSequences.size ≤ recordSourceSequenceLimit

structure EventsFit (p : SharedPicture) : Prop where
  matching : p.eventBytes = p.events.map env.eventBytes
  total : p.retainedEventBytes = (p.eventBytes.sum : ℕ)
  total_le : p.retainedEventBytes ≤ pictureEventBytesLimit
  length_le : p.events.length ≤ env.eventBufferLimit

structure Accounted (p : SharedPicture) : Prop extends
  EntriesFit env p, SourcesFit p, EventsFit env p

section Buffering

theorem trimEvents_fit (limit : ℕ) (f : PictureEvent → ℕ) : ∀ events : List PictureEvent,
    let trimmed := SharedPicture.trimEvents limit events (events.map f) ((events.map f).sum : ℕ)
    trimmed.2.1 = trimmed.1.map f ∧ trimmed.2.2 = (trimmed.2.1.sum : ℕ) ∧
      trimmed.2.2 ≤ pictureEventBytesLimit ∧ trimmed.1.length ≤ limit
  | [] => ⟨rfl, rfl, by simp [SharedPicture.trimEvents], Nat.zero_le _⟩
  | e :: rest => by
    unfold SharedPicture.trimEvents
    split_ifs with hover
    · have hrest : (((e :: rest).map f).sum : ℕ) - (((e :: rest).map f).head?.getD 0 : ℤ) =
          ((rest.map f).sum : ℕ) := by
        simp
      rw [List.map_cons, List.tail_cons, ← List.map_cons, hrest]
      exact trimEvents_fit limit f rest
    · simp only [not_or, not_lt] at hover
      exact ⟨rfl, rfl, hover.2, by simpa using hover.1⟩

theorem EventsFit.emit (h : EventsFit env p) (type : PictureEventType) (key : String)
    (record : Option PictureRecord) : EventsFit env (p.emit env type key record) := by
  unfold SharedPicture.emit
  dsimp only
  split_ifs
  · exact ⟨rfl, rfl, Int.natCast_nonneg _, Nat.zero_le _⟩
  · set event : PictureEvent := ⟨env.session, p.revision + 1, type, key, record⟩
    have hsizes : p.eventBytes ++ [env.eventBytes event] =
        (p.events ++ [event]).map env.eventBytes := by
      rw [h.matching, List.map_append, List.map_singleton]
    have hretained : p.retainedEventBytes + env.eventBytes event =
        (((p.events ++ [event]).map env.eventBytes).sum : ℕ) := by
      rw [← hsizes, h.total]
      simp
    obtain ⟨hmatching, htotal, hle, hlength⟩ :=
      trimEvents_fit env.eventBufferLimit env.eventBytes (p.events ++ [event])
    rw [← hretained, ← hsizes] at hmatching htotal hle hlength
    exact ⟨hmatching, htotal, hle, hlength⟩

theorem EventsFit.of_eq (h : EventsFit env p) (hevents : p'.events = p.events)
    (hbytes : p'.eventBytes = p.eventBytes)
    (hretained : p'.retainedEventBytes = p.retainedEventBytes) : EventsFit env p' :=
  ⟨by rw [hevents, hbytes, h.matching], by rw [hbytes, hretained, h.total],
    by rw [hretained]; exact h.total_le, by rw [hevents]; exact h.length_le⟩

end Buffering

section Storing

theorem entrySize_core {record record' : PictureRecord} (h : record'.core = record.core) :
    SharedPicture.retainedRecordBytes env record' =
      SharedPicture.retainedRecordBytes env record := by
  have hbytes : ∀ r : PictureRecord, SharedPicture.retainedRecordBytes env r =
      SharedPicture.retainedRecordBytes env r.core := fun _ => rfl
  rw [hbytes record', h, ← hbytes]

theorem Refreshed.entrySize (h : Refreshed p p') (key : String) :
    p'.entrySize env key = p.entrySize env key := by
  have hrecord := h.records key
  unfold SharedPicture.entrySize
  rw [h.tombstones]
  rcases hr : p.records.get key with _ | r
  · rw [hr, Option.map_none, Option.map_eq_none_iff] at hrecord
    rw [hrecord]
  · rw [hr, Option.map_some, Option.map_eq_some_iff] at hrecord
    obtain ⟨r', hr', hcore⟩ := hrecord
    rw [hr']
    simp only [entrySize_core env hcore]

/-- Room for an entry: its key has one already or there is a place left, and the bytes fit. -/
theorem EntriesFit.room (h : EntriesFit env p) {key : String} {bytes : ℕ}
    (hretain : p.canRetain key bytes = true) :
    (p.entryBytes.set key bytes).size ≤ pictureEntryLimit ∧
      p.retainedEntryBytes - (p.entryBytes.get key).getD 0 + bytes ≤ pictureRetainedBytesLimit := by
  unfold SharedPicture.canRetain at hretain
  dsimp only at hretain
  split_ifs at hretain with hfull
  refine ⟨?_, by simpa using hretain⟩
  by_cases hhas : p.entryBytes.has key = true
  · rw [OrderedMap.size_set_of_has hhas]
    exact h.entries_le
  · rw [Bool.not_eq_true, OrderedMap.has_eq_false_iff] at hhas
    simp only [hhas, Option.getD_none, true_and, not_le] at hfull
    have := OrderedMap.size_set_le (m := p.entryBytes) (k := key) (v := bytes)
    omega

/-- An entry that fits goes in, at the size it counts. -/
theorem EntriesFit.retain (h : EntriesFit env p) {key : String} {bytes : ℕ}
    (hretain : p.canRetain key bytes = true) (hexclusive : Exclusive p')
    (hentry : p'.entrySize env key = some bytes)
    (helsewhere : ∀ k, k ≠ key → p'.entrySize env k = p.entrySize env k)
    (hbytes : p'.entryBytes = p.entryBytes.set key bytes)
    (hretained : p'.retainedEntryBytes =
      p.retainedEntryBytes - (p.entryBytes.get key).getD 0 + bytes) : EntriesFit env p' := by
  obtain ⟨hsize, hle⟩ := h.room env hretain
  refine ⟨hexclusive, fun k => ?_, ?_, by rw [hretained]; exact hle, by rw [hbytes]; exact hsize⟩
  · rw [hbytes, OrderedMap.get_set]
    split_ifs with hk
    · rw [hk, hentry]
    · rw [helsewhere k hk, h.sizes]
  · have hbefore := OrderedMap.sum_values_delete (m := p.entryBytes) (k := key)
    rw [hretained, hbytes, OrderedMap.sum_values_set, h.retained]
    omega

theorem EntriesFit.retainRecord (h : EntriesFit env p) {key : String} {record : PictureRecord}
    (hretain : p.canRetain key (SharedPicture.retainedRecordBytes env record) = true) :
    EntriesFit env (p.retainRecord env key record) := by
  refine h.retain env hretain ?_ ?_ ?_ rfl rfl
  · intro k r hr
    show (p.tombstones.delete key).get k = none
    rw [OrderedMap.get_delete]
    split_ifs with hk
    · rfl
    · rw [get_retainRecord, Function.update_apply, if_neg hk] at hr
      exact h.exclusive k r hr
  · unfold SharedPicture.entrySize
    rw [get_retainRecord, Function.update_self]
  · intro k hk
    unfold SharedPicture.entrySize
    rw [get_retainRecord, Function.update_of_ne hk]
    show (match p.records.get k with
      | some record => _
      | none => ((p.tombstones.delete key).get k).map env.tombstoneBytes) = _
    rw [OrderedMap.get_delete, if_neg hk]

theorem EntriesFit.retainTombstone (h : EntriesFit env p) {key : String}
    {tombstone : PictureTombstone}
    (hretain : p.canRetain key (env.tombstoneBytes tombstone) = true) :
    EntriesFit env (p.retainTombstone env key tombstone) := by
  have hrecords : ∀ k, (p.retainTombstone env key tombstone).records.get k =
      if k = key then none else p.records.get k := fun k => OrderedMap.get_delete
  have htombstones : ∀ k, (p.retainTombstone env key tombstone).tombstones.get k =
      if k = key then some tombstone else p.tombstones.get k := fun k => OrderedMap.get_set
  refine h.retain env hretain ?_ ?_ ?_ rfl rfl
  · intro k r hr
    rw [hrecords] at hr
    split_ifs at hr with hk
    rw [htombstones, if_neg hk]
    exact h.exclusive k r hr
  · unfold SharedPicture.entrySize
    rw [hrecords, htombstones, if_pos rfl, if_pos rfl]
    rfl
  · intro k hk
    unfold SharedPicture.entrySize
    rw [hrecords, htombstones, if_neg hk, if_neg hk]

theorem EntriesFit.removeRecord (h : EntriesFit env p) {key : String} {record : PictureRecord}
    (hr : p.records.get key = some record) : EntriesFit env (p.removeRecord key) := by
  have hrecords : ∀ k, (p.removeRecord key).records.get k =
      if k = key then none else p.records.get k := fun k => OrderedMap.get_delete
  have hbefore := OrderedMap.sum_values_delete (m := p.entryBytes) (k := key)
  refine ⟨?_, ?_, ?_, ?_, ?_⟩
  · intro k r hk
    rw [hrecords] at hk
    split_ifs at hk
    exact h.exclusive k r hk
  · intro k
    show (p.entryBytes.delete key).get k = _
    unfold SharedPicture.entrySize
    rw [OrderedMap.get_delete, hrecords]
    split_ifs with hk
    · show none = (p.tombstones.get k).map env.tombstoneBytes
      rw [hk, h.exclusive key record hr, Option.map_none]
    · exact h.sizes k
  · show p.retainedEntryBytes - _ = ((p.entryBytes.delete key).values.sum : ℕ)
    rw [h.retained]
    omega
  · show p.retainedEntryBytes - _ ≤ _
    have := h.retained_le
    omega
  · exact OrderedMap.size_delete_le.trans h.entries_le

theorem EntriesFit.of_refreshed (h : EntriesFit env p) (hp : Refreshed p p')
    (hbytes : p'.entryBytes = p.entryBytes)
    (hretained : p'.retainedEntryBytes = p.retainedEntryBytes) : EntriesFit env p' :=
  ⟨hp.exclusive h.exclusive, fun k => by rw [hbytes, hp.entrySize, h.sizes],
    by rw [hbytes, hretained, h.retained], by rw [hretained]; exact h.retained_le,
    by rw [hbytes]; exact h.entries_le⟩

end Storing

section Marking

/-- Records may have changed their freshness, of which events have told; all else is as it was. -/
structure Kept (p p' : SharedPicture) : Prop where
  refreshed : Refreshed p p'
  entryBytes : p'.entryBytes = p.entryBytes
  retained : p'.retainedEntryBytes = p.retainedEntryBytes
  sources : p'.sources = p.sources
  connectivity : ∀ id, p'.assetConnectivity.has id = p.assetConnectivity.has id
  connectivity_size : p'.assetConnectivity.size = p.assetConnectivity.size
  positions : p'.recordSourceSequences = p.recordSourceSequences
  events : EventsFit env p → EventsFit env p'

theorem Kept.refl (p : SharedPicture) : Kept env p p :=
  ⟨.refl p, rfl, rfl, rfl, fun _ => rfl, rfl, rfl, id⟩

variable {env}

theorem Kept.trans {p'' : SharedPicture} (h : Kept env p p') (h' : Kept env p' p'') :
    Kept env p p'' where
  refreshed := h.refreshed.trans h'.refreshed
  entryBytes := h'.entryBytes.trans h.entryBytes
  retained := h'.retained.trans h.retained
  sources := h'.sources.trans h.sources
  connectivity id := (h'.connectivity id).trans (h.connectivity id)
  connectivity_size := h'.connectivity_size.trans h.connectivity_size
  positions := h'.positions.trans h.positions
  events he := h'.events (h.events he)

theorem Kept.entriesFit (h : Kept env p p') (hp : EntriesFit env p) : EntriesFit env p' :=
  hp.of_refreshed env h.refreshed h.entryBytes h.retained

theorem Kept.accounted (h : Kept env p p') (hp : Accounted env p) : Accounted env p' where
  toEntriesFit := h.entriesFit hp.toEntriesFit
  toSourcesFit := ⟨by rw [h.sources]; exact hp.sources_le,
    by rw [h.connectivity_size]; exact hp.connectivity_le,
    by rw [h.positions]; exact hp.positions_le⟩
  toEventsFit := h.events hp.toEventsFit

theorem Kept.canRetain (h : Kept env p p') (key : String) (bytes : ℕ) :
    p'.canRetain key bytes = p.canRetain key bytes := by
  unfold SharedPicture.canRetain
  rw [h.entryBytes, h.retained]

variable (env)

theorem emit_kept (p : SharedPicture) (type : PictureEventType) (key : String)
    (record : Option PictureRecord) : Kept env p (p.emit env type key record) := by
  obtain ⟨events, sizes, retained, h⟩ := emit_eq env p type key record
  refine ⟨emit_refreshed env p type key record, ?_, ?_, ?_, ?_, ?_, ?_, fun he => he.emit env _ _ _⟩
  all_goals simp [h]

/-- A record that is rewritten with another freshness counts as it did. -/
theorem retainRecord_bytes (hp : EntriesFit env p) {key : String} {record record' : PictureRecord}
    (hr : p.records.get key = some record) (hcore : record'.core = record.core) :
    (p.retainRecord env key record').entryBytes = p.entryBytes ∧
      (p.retainRecord env key record').retainedEntryBytes = p.retainedEntryBytes := by
  have hsize : p.entryBytes.get key = some (SharedPicture.retainedRecordBytes env record') := by
    rw [hp.sizes, entrySize_core env hcore]
    unfold SharedPicture.entrySize
    rw [hr]
  refine ⟨OrderedMap.set_of_get hsize, ?_⟩
  show p.retainedEntryBytes - (p.entryBytes.get key).getD 0 + _ = _
  rw [hsize, Option.getD_some]
  omega

theorem retainRecord_kept (hp : EntriesFit env p) {key : String} {record record' : PictureRecord}
    (hr : p.records.get key = some record) (hcore : record'.core = record.core)
    (htask : record.state.isTask = true) : Kept env p (p.retainRecord env key record') := by
  obtain ⟨hbytes, hretained⟩ := retainRecord_bytes env hp hr hcore
  have hexclusive : p.tombstones.get key = none := hp.exclusive key record hr
  refine ⟨⟨fun k => ?_, fun k r hk ht => ?_, ?_⟩, hbytes, hretained, rfl, fun _ => rfl, rfl, rfl,
    fun he => he.of_eq env rfl rfl rfl⟩
  · rw [get_retainRecord, Function.update_apply]
    split_ifs with hk
    · rw [hk, hr, Option.map_some, Option.map_some, hcore]
    · rfl
  · rw [get_retainRecord, Function.update_apply]
    split_ifs with hkey
    · rw [hkey, hr, Option.some.injEq] at hk
      rw [← hk, htask] at ht
      cases ht
    · exact hk
  · show (p.tombstones.delete key).get = _
    rw [get_delete_eq_update, ← hexclusive, Function.update_eq_self]

theorem isTask_of_followsAsset {record : PictureRecord} {assetID : String}
    (h : SharedPicture.followsAsset record assetID = true) : record.state.isTask = true := by
  unfold SharedPicture.followsAsset at h
  rcases hstate : record.state with e | t | o
  · simp [hstate] at h
  · rfl
  · simp [hstate] at h

theorem markRecord_kept (assetID : String) (connected : Bool) (hp : EntriesFit env p)
    (key : String) : Kept env p (p.markRecord env assetID connected key) := by
  rcases hr : p.records.get key with _ | record
  · rw [markRecord_none env assetID connected hr]
    exact .refl env p
  · rw [markRecord_some env assetID connected hr]
    by_cases h : SharedPicture.followsAsset record assetID = true ∧
        record.freshness ≠ (if connected then .fresh else .degraded)
    · rw [if_pos h]
      have hkept : Kept env p (p.retainRecord env key
          { record with freshness := if connected then .fresh else .degraded }) :=
        retainRecord_kept env hp hr rfl (isTask_of_followsAsset h.1)
      exact hkept.trans (emit_kept env _ _ _ _)
    · rw [if_neg h]
      exact .refl env p

theorem foldl_kept {α : Type} {f : SharedPicture → α → SharedPicture}
    (hf : ∀ p x, EntriesFit env p → Kept env p (f p x)) :
    ∀ (xs : List α) {p : SharedPicture}, EntriesFit env p → Kept env p (xs.foldl f p)
  | [], p, _ => .refl env p
  | x :: xs, p, hp => by
    have hx := hf p x hp
    exact hx.trans (foldl_kept hf xs (hx.entriesFit hp))

theorem markSourceConnectivity_kept (source : LinkNode) (connected : Bool)
    (hp : EntriesFit env p) : Kept env p (p.markSourceConnectivity env source connected) := by
  unfold SharedPicture.markSourceConnectivity
  split_ifs
  · exact .refl env p
  · have hmodified : Kept env p { p with
        assetConnectivity :=
          p.assetConnectivity.modify source.id fun c => { c with connected := connected } } :=
      ⟨.of_eq rfl rfl, rfl, rfl, rfl, fun _ => OrderedMap.has_modify, OrderedMap.size_modify, rfl,
        fun he => he.of_eq env rfl rfl rfl⟩
    exact hmodified.trans (foldl_kept env
      (fun p key hp => markRecord_kept env source.id connected hp key) _
      (hmodified.entriesFit hp))

theorem degradeTasksForExpiredAsset_kept (record : PictureRecord) (hp : EntriesFit env p) :
    Kept env p (p.degradeTasksForExpiredAsset env record) := by
  unfold SharedPicture.degradeTasksForExpiredAsset
  split
  · split_ifs
    · exact markSourceConnectivity_kept env _ false hp
    · exact .refl env p
  · exact .refl env p

theorem degradeCurrent_kept (current : Option PictureRecord) (hp : EntriesFit env p) :
    Kept env p (p.degradeCurrent env current) := by
  unfold SharedPicture.degradeCurrent
  split
  · exact degradeTasksForExpiredAsset_kept env _ hp
  · exact .refl env p

theorem markAsset_kept (assetID : Option String) (connected : Bool) (hp : EntriesFit env p) :
    Kept env p (p.markAsset env assetID connected) := by
  unfold SharedPicture.markAsset
  split
  · exact markSourceConnectivity_kept env _ connected hp
  · exact .refl env p

theorem expireConnectivity_kept (now : ℕ) (hp : EntriesFit env p) (id : String) :
    Kept env p (p.expireConnectivity env now id) := by
  unfold SharedPicture.expireConnectivity
  split
  · exact .refl env p
  · split_ifs
    · exact markSourceConnectivity_kept env _ false hp
    · exact .refl env p

end Marking

section Activating

theorem Accounted.introduceAsset (h : Accounted env p) {source : LinkNode}
    (hroom : source.role = .asset → p.assetConnectivity.has source.id = false →
      p.assetConnectivity.size < linkSourceIdentityLimit) :
    Accounted env (p.introduceAsset source) := by
  unfold SharedPicture.introduceAsset
  split_ifs with hnew
  · have hsize := OrderedMap.size_set_le (m := p.assetConnectivity) (k := source.id)
      (v := (⟨false, none⟩ : AssetConnectivity))
    have hlt := hroom hnew.1 hnew.2
    have hle : (p.assetConnectivity.set source.id ⟨false, none⟩).size ≤
        linkSourceIdentityLimit := by
      omega
    exact ⟨h.toEntriesFit.of_refreshed env (.of_eq rfl rfl) rfl rfl,
      ⟨h.sources_le, hle, h.positions_le⟩, h.toEventsFit.of_eq env rfl rfl rfl⟩
  · exact h

theorem Accounted.prune (h : Accounted env p) (test : String × RecordSourceSequence → Bool) :
    Accounted env { p with recordSourceSequences := p.recordSourceSequences.filter test } :=
  ⟨h.toEntriesFit.of_refreshed env (.of_eq rfl rfl) rfl rfl,
    ⟨h.sources_le, h.connectivity_le, OrderedMap.size_filter_le.trans h.positions_le⟩,
    h.toEventsFit.of_eq env rfl rfl rfl⟩

theorem Accounted.supersedeSource (h : Accounted env p) (source : LinkNode) (generation : ℕ) :
    Accounted env (p.supersedeSource env source generation) := by
  unfold SharedPicture.supersedeSource
  split_ifs
  · exact ((markSourceConnectivity_kept env source false h.toEntriesFit).accounted h).prune env _
  · exact h

theorem introduceAsset_sources (source : LinkNode) (p : SharedPicture) :
    (p.introduceAsset source).sources = p.sources := by
  unfold SharedPicture.introduceAsset
  split_ifs <;> rfl

theorem supersedeSource_sources (source : LinkNode) (generation : ℕ) (hp : EntriesFit env p) :
    (p.supersedeSource env source generation).sources = p.sources := by
  unfold SharedPicture.supersedeSource
  split_ifs
  · exact (markSourceConnectivity_kept env source false hp).sources
  · rfl

theorem Accounted.activateSource (h : Accounted env p) (source : LinkNode) (generation : ℕ)
    (session : String) : Accounted env (p.activateSource env source generation session).1 := by
  unfold SharedPicture.activateSource
  dsimp only
  split_ifs with hfull hstale hroom hsame
  · exact h
  · exact h
  · exact h
  all_goals
    have hnew : Accounted env (p.introduceAsset source) := by
      refine h.introduceAsset env fun hrole hunknown => ?_
      exact Nat.lt_of_not_le fun hle => hroom ⟨⟨hrole, hunknown⟩, hle⟩
  · exact hnew
  · have hnext := hnew.supersedeSource env source generation
    have hsources : ((p.introduceAsset source).supersedeSource env source generation).sources =
        p.sources := by
      rw [supersedeSource_sources env source generation hnew.toEntriesFit, introduceAsset_sources]
    refine ⟨hnext.toEntriesFit.of_refreshed env (.of_eq rfl rfl) rfl rfl,
      ⟨?_, hnext.connectivity_le, hnext.positions_le⟩, hnext.toEventsFit.of_eq env rfl rfl rfl⟩
    show (OrderedMap.set _ _ _).size ≤ _
    rw [hsources]
    by_cases hhas : p.sources.has (nodeKey source) = true
    · rw [OrderedMap.size_set_of_has hhas]
      exact h.sources_le
    · rw [Bool.not_eq_true, OrderedMap.has_eq_false_iff] at hhas
      have := OrderedMap.size_set_le (m := p.sources) (k := nodeKey source)
        (v := ⟨generation, session⟩)
      have hlt := Nat.lt_of_not_le fun hle => hfull ⟨hhas, hle⟩
      omega

theorem Accounted.acceptSource (h : Accounted env p) (context : PictureApplyContext) :
    Accounted env (p.acceptSource env context).1 := by
  unfold SharedPicture.acceptSource
  split_ifs
  · exact h
  · exact h.activateSource env _ _ _

theorem introduceAsset_has {source : LinkNode} (hrole : source.role = .asset) (p : SharedPicture) :
    (p.introduceAsset source).assetConnectivity.has source.id = true := by
  unfold SharedPicture.introduceAsset
  by_cases hnew : p.assetConnectivity.has source.id = false
  · rw [if_pos ⟨hrole, hnew⟩]
    exact OrderedMap.has_eq_true_iff.2 ⟨_, OrderedMap.get_set_self⟩
  · rw [if_neg fun h => hnew h.2]
    simpa using hnew

theorem supersedeSource_has (hp : EntriesFit env p) (source : LinkNode) (generation : ℕ)
    (id : String) : (p.supersedeSource env source generation).assetConnectivity.has id =
      p.assetConnectivity.has id := by
  unfold SharedPicture.supersedeSource
  split_ifs
  · exact (markSourceConnectivity_kept env source false hp).connectivity id
  · rfl

/-- A source that is no Asset changes no connectivity. -/
theorem activateSource_of_not_asset {source : LinkNode} (hrole : source.role ≠ .asset)
    (generation : ℕ) (session : String) (p : SharedPicture) :
    (p.activateSource env source generation session).1.assetConnectivity = p.assetConnectivity := by
  have hmark : ∀ p : SharedPicture, p.markSourceConnectivity env source false = p := fun p =>
    if_pos hrole
  have hintroduce : p.introduceAsset source = p := if_neg fun h => hrole h.1
  unfold SharedPicture.activateSource SharedPicture.supersedeSource
  dsimp only
  rw [hintroduce, hmark]
  split_ifs <;> rfl

/-- A source that is an Asset is known once it is accepted. -/
theorem Accounted.activateSource_has (h : Accounted env p) {source : LinkNode}
    (hrole : source.role = .asset) {generation : ℕ} {session : String}
    (haccepted : (p.activateSource env source generation session).2 = true) :
    (p.activateSource env source generation session).1.assetConnectivity.has source.id = true := by
  unfold SharedPicture.activateSource at haccepted ⊢
  dsimp only at haccepted ⊢
  split_ifs at haccepted ⊢ with hfull hstale hroom hsame
  · exact introduceAsset_has hrole p
  · have hnew : Accounted env (p.introduceAsset source) := by
      refine h.introduceAsset env fun hrole hunknown => ?_
      exact Nat.lt_of_not_le fun hle => hroom ⟨⟨hrole, hunknown⟩, hle⟩
    rw [supersedeSource_has env hnew.toEntriesFit]
    exact introduceAsset_has hrole p

end Activating

section Applying

theorem Accounted.connectAsset (h : Accounted env p) (assetID : Option String) (receivedAt : ℕ)
    (hplace : ∀ id, assetID = some id → p.canAdmitAsset id = true) :
    Accounted env (p.connectAsset assetID receivedAt) := by
  unfold SharedPicture.connectAsset
  split
  · rename_i id
    have hroom := hplace id rfl
    simp only [SharedPicture.canAdmitAsset, Bool.or_eq_true, decide_eq_true_eq] at hroom
    have hle : (p.assetConnectivity.set id ⟨true, some receivedAt⟩).size ≤
        linkSourceIdentityLimit := by
      rcases hroom with hhas | hlt
      · rw [OrderedMap.size_set_of_has hhas]
        exact h.connectivity_le
      · have := OrderedMap.size_set_le (m := p.assetConnectivity) (k := id)
          (v := (⟨true, some receivedAt⟩ : AssetConnectivity))
        omega
    exact ⟨h.toEntriesFit.of_refreshed env (.of_eq rfl rfl) rfl rfl,
      ⟨h.sources_le, hle, h.positions_le⟩, h.toEventsFit.of_eq env rfl rfl rfl⟩
  · exact h

theorem Accounted.setPosition (h : Accounted env p) (key : String)
    (position : RecordSourceSequence)
    (hroom : p.recordSourceSequences.has key = true ∨
      p.recordSourceSequences.size < recordSourceSequenceLimit) :
    Accounted env
      { p with recordSourceSequences := p.recordSourceSequences.set key position } := by
  have hle : (p.recordSourceSequences.set key position).size ≤ recordSourceSequenceLimit := by
    rcases hroom with hhas | hlt
    · rw [OrderedMap.size_set_of_has hhas]
      exact h.positions_le
    · have := OrderedMap.size_set_le (m := p.recordSourceSequences) (k := key) (v := position)
      omega
  exact ⟨h.toEntriesFit.of_refreshed env (.of_eq rfl rfl) rfl rfl,
    ⟨h.sources_le, h.connectivity_le, hle⟩, h.toEventsFit.of_eq env rfl rfl rfl⟩

theorem Accounted.rejectCapacity (h : Accounted env p) {recordSourceKey : String}
    (hhas : p.recordSourceSequences.has recordSourceKey = true)
    (before : Option RecordSourceSequence) :
    Accounted env (p.rejectCapacity recordSourceKey before).1 := by
  cases before with
  | none =>
    exact ⟨h.toEntriesFit.of_refreshed env (.of_eq rfl rfl) rfl rfl,
      ⟨h.sources_le, h.connectivity_le, OrderedMap.size_delete_le.trans h.positions_le⟩,
      h.toEventsFit.of_eq env rfl rfl rfl⟩
  | some position => exact h.setPosition env _ position (.inl hhas)

theorem Accounted.applyDeletion (h : Accounted env p) (publication : StatePublication)
    (context : PictureApplyContext) (atlasVersion : ℕ) (current : Option PictureRecord)
    (connectivityAssetID : Option String) {recordSourceKey : String}
    (hhas : p.recordSourceSequences.has recordSourceKey = true)
    (before : Option RecordSourceSequence) :
    Accounted env (p.applyDeletion env publication context atlasVersion current
      connectivityAssetID recordSourceKey before).1 := by
  unfold SharedPicture.applyDeletion
  dsimp only
  split_ifs with hreplace hretain
  · exact h
  · exact h.rejectCapacity env hhas before
  all_goals
    have hdegraded := degradeCurrent_kept env current h.toEntriesFit
    have hfits : (p.degradeCurrent env current).canRetain publication.key (env.tombstoneBytes
        (SharedPicture.tombstoneFor atlasVersion publication context)) = true := by
      rw [hdegraded.canRetain]
      simpa using hretain
    have hbefore := hdegraded.accounted h
    have hretained : Accounted env ((p.degradeCurrent env current).retainTombstone env
        publication.key (SharedPicture.tombstoneFor atlasVersion publication context)) :=
      ⟨hbefore.toEntriesFit.retainTombstone env hfits, ⟨hbefore.sources_le,
        hbefore.connectivity_le, hbefore.positions_le⟩, hbefore.toEventsFit.of_eq env rfl rfl rfl⟩
    have hmarked := markAsset_kept env connectivityAssetID false hretained.toEntriesFit
  · exact (hmarked.trans (emit_kept env _ _ _ _)).accounted hretained
  · exact hmarked.accounted hretained

theorem Accounted.applyResource (h : Accounted env p) (publication : StatePublication)
    (context : PictureApplyContext) (resource : Resource) (current : Option PictureRecord)
    (connectivityAssetID : Option String)
    (hplace : ∀ id, connectivityAssetID = some id → p.canAdmitAsset id = true)
    {recordSourceKey : String} (hhas : p.recordSourceSequences.has recordSourceKey = true)
    (before : Option RecordSourceSequence) :
    Accounted env (p.applyResource env publication context resource current connectivityAssetID
      recordSourceKey before).1 := by
  unfold SharedPicture.applyResource
  dsimp only
  split_ifs with hreplace hretain
  · exact h
  · exact h.rejectCapacity env hhas before
  have hretained : Accounted env (p.retainRecord env publication.key
      (SharedPicture.recordFor resource publication context
        (p.resourceFreshness resource current))) :=
    ⟨h.toEntriesFit.retainRecord env (by simpa using hretain), ⟨h.sources_le, h.connectivity_le,
      h.positions_le⟩, h.toEventsFit.of_eq env rfl rfl rfl⟩
  have hconnected := hretained.connectAsset env connectivityAssetID context.receivedAt hplace
  have htold := emit_kept env ((p.retainRecord env publication.key
    (SharedPicture.recordFor resource publication context
      (p.resourceFreshness resource current))).connectAsset connectivityAssetID context.receivedAt)
    .upsert publication.key (some (SharedPicture.recordFor resource publication context
      (p.resourceFreshness resource current)))
  have hmarked := markAsset_kept env connectivityAssetID true
    (htold.entriesFit hconnected.toEntriesFit)
  exact (htold.trans hmarked).accounted hconnected

theorem Accounted.applyAccepted (h : Accounted env p) (publication : StatePublication)
    (context : PictureApplyContext) (current : Option PictureRecord)
    (connectivityAssetID : Option String)
    (hplace : ∀ resource, publication.published = .resource resource →
      ∀ id, connectivityAssetID = some id → p.canAdmitAsset id = true) :
    Accounted env (p.applyAccepted env publication context current connectivityAssetID).1 := by
  unfold SharedPicture.applyAccepted
  dsimp only
  split_ifs with hsequence hfull hstale hnewer
  · exact h
  · exact h
  all_goals
    have hset := h.setPosition env (publication.key ++ "\x00" ++ nodeKey context.source)
      ⟨nodeKey context.source, context.sourceGeneration, context.serviceSession,
        context.sourceSequence, context.receivedAt⟩ (by
          by_cases hhas : p.recordSourceSequences.has
              (publication.key ++ "\x00" ++ nodeKey context.source) = true
          · exact .inl hhas
          · rw [Bool.not_eq_true, OrderedMap.has_eq_false_iff] at hhas
            exact .inr (Nat.lt_of_not_le fun hle => hfull ⟨hhas, hle⟩))
    have hhas : (p.recordSourceSequences.set (publication.key ++ "\x00" ++ nodeKey context.source)
        (⟨nodeKey context.source, context.sourceGeneration, context.serviceSession,
          context.sourceSequence, context.receivedAt⟩ : RecordSourceSequence)).has
            (publication.key ++ "\x00" ++ nodeKey context.source) = true :=
      OrderedMap.has_eq_true_iff.2 ⟨_, OrderedMap.get_set_self⟩
  · exact hset
  · exact hset
  · split
    · exact hset.applyDeletion env _ _ _ _ _ hhas _
    · rename_i resource hpublished
      exact hset.applyResource env _ _ _ _ _ (hplace resource hpublished) hhas _

/-- An Asset there was room for can still be admitted once its source is accepted. -/
theorem Accounted.acceptSource_admits (h : Accounted env p) {publication : StatePublication}
    {context : PictureApplyContext} {current : Option PictureRecord} {resource : Resource}
    (hpublished : publication.published = .resource resource) {id : String}
    (hid : p.connectivityAssetID publication context current = some id)
    (hplace : p.canAdmitAsset id = true) (haccepted : (p.acceptSource env context).2 = none) :
    (p.acceptSource env context).1.canAdmitAsset id = true := by
  unfold SharedPicture.connectivityAssetID at hid
  rw [hpublished] at hid
  unfold SharedPicture.acceptSource at haccepted ⊢
  dsimp only at hid haccepted ⊢
  split_ifs at haccepted ⊢ with hfull hactivated
  by_cases hrole : context.source.role = .asset
  · rw [if_pos hrole, Option.some.injEq] at hid
    subst hid
    have hhas := h.activateSource_has env hrole hactivated
    simp only [SharedPicture.canAdmitAsset, hhas, Bool.true_or]
  · unfold SharedPicture.canAdmitAsset at hplace ⊢
    rw [activateSource_of_not_asset env hrole]
    exact hplace

theorem Accounted.apply (h : Accounted env p) (publication : StatePublication)
    (context : PictureApplyContext) : Accounted env (p.apply env publication context).1 := by
  unfold SharedPicture.apply
  dsimp only
  split_ifs with hplace
  · exact h
  have haccept := h.acceptSource env context
  rcases haccepted : p.acceptSource env context with ⟨p₁, _ | reason⟩
  · have hadmits : ∀ resource, publication.published = .resource resource →
        ∀ id, p.connectivityAssetID publication context (p.records.get publication.key) = some id →
          p₁.canAdmitAsset id = true := by
      intro resource hpublished id hid
      have hroom : p.canAdmitAsset id = true := by simpa [hid] using hplace
      have := h.acceptSource_admits env hpublished hid hroom (by rw [haccepted])
      rwa [haccepted] at this
    rw [haccepted] at haccept
    exact (haccept.prune env _).applyAccepted env publication context _ _ hadmits
  · rw [haccepted] at haccept
    exact haccept

end Applying

section Refreshing

/-- A record put back with another freshness leaves the entries as they count. -/
theorem EntriesFit.rewrite (h : EntriesFit env p) {key : String} {record record' : PictureRecord}
    (hr : p.records.get key = some record) (hcore : record'.core = record.core) :
    EntriesFit env (p.retainRecord env key record') := by
  obtain ⟨hbytes, hretained⟩ := retainRecord_bytes env h hr hcore
  have hcores : (p.records.get key).map PictureRecord.core = some record'.core := by
    rw [hr, Option.map_some, hcore]
  have hfaded := retainRecord_faded env h.exclusive hcores
  refine ⟨hfaded.exclusive h.exclusive, fun k => ?_, by rw [hbytes, hretained, h.retained],
    by rw [hretained]; exact h.retained_le, by rw [hbytes]; exact h.entries_le⟩
  rw [hbytes, h.sizes]
  unfold SharedPicture.entrySize
  rw [hfaded.tombstones, get_retainRecord, Function.update_apply]
  split_ifs with hk
  · rw [hk, hr]
    simp only [entrySize_core env hcore]
  · rfl

theorem Accounted.refreshRecord (h : Accounted env p) (now : ℕ) (key : String) :
    Accounted env (p.refreshRecord env now key) := by
  unfold SharedPicture.refreshRecord
  dsimp only
  split
  · exact h
  · rename_i record hr
    have hdegraded := degradeTasksForExpiredAsset_kept env record h.toEntriesFit
    have hbefore := hdegraded.accounted h
    obtain ⟨record', hr', hcore⟩ : ∃ record',
        (p.degradeTasksForExpiredAsset env record).records.get key = some record' ∧
          record'.core = record.core := by
      have := hdegraded.refreshed.records key
      rwa [hr, Option.map_some, Option.map_eq_some_iff] at this
    split_ifs
    · have hremoved : Accounted env
          ((p.degradeTasksForExpiredAsset env record).removeRecord key) :=
        ⟨hbefore.toEntriesFit.removeRecord env hr', ⟨hbefore.sources_le, hbefore.connectivity_le,
          hbefore.positions_le⟩, hbefore.toEventsFit.of_eq env rfl rfl rfl⟩
      exact (emit_kept env _ .remove key none).accounted hremoved
    · have hstale : Accounted env ((p.degradeTasksForExpiredAsset env record).retainRecord env key
          { record with freshness := .stale }) :=
        ⟨hbefore.toEntriesFit.rewrite env hr' hcore.symm, ⟨hbefore.sources_le,
          hbefore.connectivity_le, hbefore.positions_le⟩, hbefore.toEventsFit.of_eq env rfl rfl rfl⟩
      exact (emit_kept env _ .stale key _).accounted hstale
    · exact h

theorem foldl_refreshRecord_accounted (now : ℕ) : ∀ (keys : List String) {p : SharedPicture},
    Accounted env p → Accounted env (keys.foldl (SharedPicture.refreshRecord env now) p)
  | [], _, h => h
  | key :: keys, _, h => foldl_refreshRecord_accounted now keys (h.refreshRecord env now key)

theorem Accounted.refresh (h : Accounted env p) (now : ℕ) : Accounted env (p.refresh env now) := by
  unfold SharedPicture.refresh
  dsimp only
  have hpruned : Accounted env (p.pruneRecordSourceSequences now) := h.prune env _
  have hexpired := foldl_kept env (fun p id hp => expireConnectivity_kept env now hp id)
    (p.pruneRecordSourceSequences now).assetConnectivity.keys hpruned.toEntriesFit
  exact foldl_refreshRecord_accounted env now _ (hexpired.accounted hpruned)

end Refreshing

theorem Accounted.run (h : Accounted env p) (op : PictureOp) : Accounted env (op.run env p) := by
  cases op with
  | apply publication context => exact h.apply env publication context
  | refresh now => exact h.refresh env now
  | markSourceConnectivity source connected =>
    exact (markSourceConnectivity_kept env source connected h.toEntriesFit).accounted h
  | activateSource source generation session _ => exact h.activateSource env source _ _

theorem accounted_new : Accounted env .new where
  exclusive := by
    intro k r hr
    cases hr
  sizes _ := rfl
  retained := rfl
  retained_le := Int.natCast_nonneg _
  entries_le := Nat.zero_le _
  sources_le := Nat.zero_le _
  connectivity_le := Nat.zero_le _
  positions_le := Nat.zero_le _
  matching := rfl
  total := rfl
  total_le := Int.natCast_nonneg _
  length_le := Nat.zero_le _

def assetPublished : PictureOp :=
  .apply ⟨.resource (.entity ⟨"uav-1", "asset", true, false, false, 1, "\x7b\x7d"⟩), "0",
      .field, .notRequired, none, none⟩
    ⟨⟨.asset, "uav-1"⟩, 1, "boot-1", 1, 0, plainBootId_ne⟩

end Atlas.Picture
