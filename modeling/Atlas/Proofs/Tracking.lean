import Atlas.Proofs.Marking

/-!
# Open Tasks follow their Asset's connectivity

A Task that is not over is not shown as fresh while its Asset counts as disconnected. Every change
of an Asset's connectivity marks its Tasks, but for one: an Asset that becomes a source starts as
disconnected, and Tasks of it that other sources have published before keep their freshness.
-/

namespace Atlas.Picture

open Atlas.Link (LinkNode)

variable (env : PictureEnv) {a : String} {p : SharedPicture}

/-- No open Task of the Asset is fresh while the Asset counts as disconnected. -/
def TracksAsset (assetID : String) (p : SharedPicture) : Prop :=
  ∀ k r c, p.records.get k = some r → SharedPicture.followsAsset r assetID = true →
    p.assetConnectivity.get assetID = some c → c.connected = false → r.freshness ≠ .fresh

def Tracks (p : SharedPicture) : Prop := ∀ assetID, TracksAsset assetID p

section Preserving

theorem followsAsset_unique {r : PictureRecord} {a b : String}
    (ha : SharedPicture.followsAsset r a = true) (hb : SharedPicture.followsAsset r b = true) :
    a = b := by
  unfold SharedPicture.followsAsset at ha hb
  rcases hstate : r.state with e | t | o
  · simp [hstate] at ha
  · simp only [hstate, Bool.and_eq_true, decide_eq_true_eq] at ha hb
    rw [← ha.2, hb.2]
  · simp [hstate] at ha

theorem followsAsset_of_state_eq {r r' : PictureRecord} (h : r'.state = r.state) (a : String) :
    SharedPicture.followsAsset r' a = SharedPicture.followsAsset r a := by
  unfold SharedPicture.followsAsset
  rw [h]

theorem PictureRecord.marked_state (assetID : String) (connected : Bool) (r : PictureRecord) :
    (r.marked assetID connected).state = r.state := by
  unfold PictureRecord.marked
  split_ifs <;> rfl

theorem PictureRecord.marked_of_not_follows {assetID : String} {r : PictureRecord}
    (h : SharedPicture.followsAsset r assetID = false) (connected : Bool) :
    r.marked assetID connected = r := by
  unfold PictureRecord.marked
  rw [if_neg (by simp [h])]

theorem PictureRecord.marked_degraded {assetID : String} {r : PictureRecord}
    (h : SharedPicture.followsAsset r assetID = true) :
    (r.marked assetID false).freshness = .degraded := by
  unfold PictureRecord.marked
  by_cases hf : r.freshness = .degraded
  · simp [hf]
  · simp [h, hf]

theorem TracksAsset.of_eq {p' : SharedPicture} (h : TracksAsset a p) (hr : p'.records = p.records)
    (hc : p'.assetConnectivity = p.assetConnectivity) : TracksAsset a p' := by
  unfold TracksAsset
  rw [hr, hc]
  exact h

@[simp]
theorem emit_assetConnectivity (p : SharedPicture) (type : PictureEventType) (key : String)
    (record : Option PictureRecord) :
    (p.emit env type key record).assetConnectivity = p.assetConnectivity := by
  obtain ⟨events, sizes, retained, h⟩ := emit_eq env p type key record
  rw [h]

theorem TracksAsset.emit (h : TracksAsset a p) (type : PictureEventType) (key : String)
    (record : Option PictureRecord) : TracksAsset a (p.emit env type key record) :=
  h.of_eq (emit_records env p type key record) (emit_assetConnectivity env p type key record)

theorem markRecord_assetConnectivity (assetID : String) (connected : Bool) (p : SharedPicture)
    (key : String) :
    (p.markRecord env assetID connected key).assetConnectivity = p.assetConnectivity := by
  rcases hr : p.records.get key with _ | record
  · rw [markRecord_none env assetID connected hr]
  · rw [markRecord_some env assetID connected hr]
    by_cases h : SharedPicture.followsAsset record assetID = true ∧
        record.freshness ≠ (if connected then .fresh else .degraded)
    · rw [if_pos h, emit_assetConnectivity]
      rfl
    · rw [if_neg h]

theorem foldl_markRecord_assetConnectivity (assetID : String) (connected : Bool) :
    ∀ (keys : List String) (p : SharedPicture),
      (keys.foldl (SharedPicture.markRecord env assetID connected) p).assetConnectivity =
        p.assetConnectivity
  | [], _ => rfl
  | key :: keys, p => by
    rw [List.foldl_cons, foldl_markRecord_assetConnectivity assetID connected keys,
      markRecord_assetConnectivity]

theorem markSourceConnectivity_assetConnectivity (source : LinkNode) (connected : Bool)
    (p : SharedPicture) :
    (p.markSourceConnectivity env source connected).assetConnectivity =
      if source.role = .asset then
        p.assetConnectivity.modify source.id fun c => { c with connected := connected }
      else p.assetConnectivity := by
  unfold SharedPicture.markSourceConnectivity
  by_cases hrole : source.role = .asset
  · rw [if_neg (not_not.2 hrole), if_pos hrole, foldl_markRecord_assetConnectivity]
  · rw [if_pos hrole, if_neg hrole]

/-- Marking an Asset's connectivity marks its open Tasks with it. -/
theorem TracksAsset.markSourceConnectivity (h : TracksAsset a p) (source : LinkNode)
    (connected : Bool) : TracksAsset a (p.markSourceConnectivity env source connected) := by
  intro k r c hr hfollows hc hdown
  rw [get_markSourceConnectivity] at hr
  rw [markSourceConnectivity_assetConnectivity] at hc
  by_cases hrole : source.role = .asset
  · rw [if_pos hrole] at hr hc
    obtain ⟨r', hr', rfl⟩ := Option.map_eq_some_iff.1 hr
    rw [followsAsset_of_state_eq (PictureRecord.marked_state source.id connected r')] at hfollows
    rw [OrderedMap.get_modify] at hc
    by_cases hasset : a = source.id
    · subst hasset
      rw [if_pos rfl] at hc
      obtain ⟨c', -, rfl⟩ := Option.map_eq_some_iff.1 hc
      have hconnected : connected = false := hdown
      rw [hconnected, PictureRecord.marked_degraded hfollows]
      simp
    · rw [if_neg hasset] at hc
      have hother : SharedPicture.followsAsset r' source.id = false := by
        by_contra hsource
        exact hasset (followsAsset_unique hfollows (by simpa using hsource))
      rw [PictureRecord.marked_of_not_follows hother]
      exact h k r' c hr' hfollows hc hdown
  · rw [if_neg hrole] at hr hc
    exact h k r c hr hfollows hc hdown

theorem TracksAsset.degradeTasksForExpiredAsset (h : TracksAsset a p)
    (record : PictureRecord) : TracksAsset a (p.degradeTasksForExpiredAsset env record) := by
  unfold SharedPicture.degradeTasksForExpiredAsset
  split
  · split_ifs
    · exact h.markSourceConnectivity env _ false
    · exact h
  · exact h

theorem TracksAsset.degradeCurrent (h : TracksAsset a p) (current : Option PictureRecord) :
    TracksAsset a (p.degradeCurrent env current) := by
  unfold SharedPicture.degradeCurrent
  split
  · exact h.degradeTasksForExpiredAsset env _
  · exact h

theorem TracksAsset.markAsset (h : TracksAsset a p) (assetID : Option String)
    (connected : Bool) : TracksAsset a (p.markAsset env assetID connected) := by
  unfold SharedPicture.markAsset
  split
  · exact h.markSourceConnectivity env _ connected
  · exact h

theorem TracksAsset.connectAsset (h : TracksAsset a p) (assetID : Option String)
    (receivedAt : ℕ) : TracksAsset a (p.connectAsset assetID receivedAt) := by
  unfold SharedPicture.connectAsset
  split
  · intro k r c hr hfollows hc hdown
    rw [OrderedMap.get_set] at hc
    split_ifs at hc with ha
    · rw [Option.some.injEq] at hc
      subst hc
      simp at hdown
    · exact h k r c hr hfollows hc hdown
  · exact h

/-- A record may go in if it is itself as its Asset's connectivity wants it. -/
theorem TracksAsset.retainRecord (h : TracksAsset a p) {key : String}
    {record : PictureRecord}
    (hrecord : ∀ c, SharedPicture.followsAsset record a = true →
      p.assetConnectivity.get a = some c → c.connected = false → record.freshness ≠ .fresh) :
    TracksAsset a (p.retainRecord env key record) := by
  intro k r c hr hfollows hc hdown
  rw [get_retainRecord, Function.update_apply] at hr
  split_ifs at hr
  · rw [Option.some.injEq] at hr
    subst hr
    exact hrecord c hfollows hc hdown
  · exact h k r c hr hfollows hc hdown

theorem TracksAsset.delete {p' : SharedPicture} (h : TracksAsset a p) {key : String}
    (hr : p'.records = p.records.delete key)
    (hc : p'.assetConnectivity = p.assetConnectivity) : TracksAsset a p' := by
  intro k r c hk hfollows hconn hdown
  rw [hr, OrderedMap.get_delete] at hk
  rw [hc] at hconn
  split_ifs at hk
  exact h k r c hk hfollows hconn hdown

end Preserving

section Introducing

/-- There is room for the source, and it is an Asset of unknown connectivity. -/
def Introduces (source : LinkNode) (p : SharedPicture) : Prop :=
  source.role = .asset ∧ p.assetConnectivity.has source.id = false ∧
    ¬ (p.sources.get (nodeKey source) = none ∧ linkSourceIdentityLimit ≤ p.sources.size) ∧
    p.assetConnectivity.size < linkSourceIdentityLimit

/-- An open Task of the Asset is in the picture, as fresh. -/
def HasFreshTask (assetID : String) (p : SharedPicture) : Prop :=
  ∃ k r, p.records.get k = some r ∧ SharedPicture.followsAsset r assetID = true ∧
    r.freshness = .fresh

/-- A source is not taken in as a new Asset while Tasks of it are fresh. -/
def Heralded (source : LinkNode) (p : SharedPicture) : Prop :=
  Introduces source p → ¬ HasFreshTask source.id p

theorem TracksAsset.introduceAsset (h : TracksAsset a p) {source : LinkNode}
    (hfresh : a = source.id → source.role = .asset → p.assetConnectivity.has source.id = false →
      ¬ HasFreshTask source.id p) : TracksAsset a (p.introduceAsset source) := by
  unfold SharedPicture.introduceAsset
  split_ifs with hnew
  · intro k r c hr hfollows hc hdown hfreshness
    rw [OrderedMap.get_set] at hc
    split_ifs at hc with hasset
    · subst hasset
      exact hfresh rfl hnew.1 hnew.2 ⟨k, r, hr, hfollows, hfreshness⟩
    · exact h k r c hr hfollows hc hdown hfreshness
  · exact h

theorem TracksAsset.supersedeSource (h : TracksAsset a p) (source : LinkNode)
    (generation : ℕ) : TracksAsset a (p.supersedeSource env source generation) := by
  unfold SharedPicture.supersedeSource
  split_ifs
  · exact (h.markSourceConnectivity env source false).of_eq rfl rfl
  · exact h

theorem TracksAsset.activateSource (h : TracksAsset a p) {source : LinkNode}
    (hsource : a = source.id → Heralded source p) (generation : ℕ) (session : String) :
    TracksAsset a (p.activateSource env source generation session).1 := by
  unfold SharedPicture.activateSource
  dsimp only
  by_cases hfull : p.sources.get (nodeKey source) = none ∧
      linkSourceIdentityLimit ≤ p.sources.size
  · rw [if_pos hfull]
    exact h
  rw [if_neg hfull]
  split_ifs with hstale hroom hsame
  · exact h
  · exact h
  all_goals
    have hnew : TracksAsset a (p.introduceAsset source) := by
      refine h.introduceAsset fun hself hrole hunknown => hsource hself ⟨hrole, hunknown, hfull, ?_⟩
      exact Nat.lt_of_not_le fun hle => hroom ⟨⟨hrole, hunknown⟩, hle⟩
  · exact hnew
  · exact (hnew.supersedeSource env source generation).of_eq rfl rfl

theorem TracksAsset.acceptSource (h : TracksAsset a p) {context : PictureApplyContext}
    (hsource : a = context.source.id → Heralded context.source p) :
    TracksAsset a (p.acceptSource env context).1 := by
  unfold SharedPicture.acceptSource
  split_ifs
  · exact h
  · exact h.activateSource env hsource _ _

end Introducing

section Applying

/-- The freshness a Task's record gets is not that of a connected Asset if its own is not. -/
theorem taskFreshness_ne_fresh {p : SharedPicture} {task : TaskResource}
    (hopen : isTerminalTask task = false) {current : Option PictureRecord} {c : AssetConnectivity}
    (hc : p.assetConnectivity.get task.assetID = some c) (hdown : c.connected = false) :
    p.taskFreshness task current ≠ .fresh := by
  unfold SharedPicture.taskFreshness
  rw [if_neg (by simp [hopen])]
  split
  · rename_i record hkept
    have hnot := (Option.filter_eq_some_iff.1 hkept).2
    simp only [Bool.and_eq_true, decide_eq_true_eq] at hnot
    exact hnot.2
  · rw [hc]
    split_ifs
    all_goals simp_all

theorem TracksAsset.rejectCapacity (h : TracksAsset a p) (recordSourceKey : String)
    (before : Option RecordSourceSequence) :
    TracksAsset a (p.rejectCapacity recordSourceKey before).1 :=
  h.of_eq rfl rfl

theorem TracksAsset.applyDeletion (h : TracksAsset a p) (publication : StatePublication)
    (context : PictureApplyContext) (atlasVersion : ℕ) (current : Option PictureRecord)
    (connectivityAssetID : Option String) (recordSourceKey : String)
    (before : Option RecordSourceSequence) :
    TracksAsset a (p.applyDeletion env publication context atlasVersion current connectivityAssetID
      recordSourceKey before).1 := by
  unfold SharedPicture.applyDeletion
  dsimp only
  split_ifs
  · exact h
  · exact h.rejectCapacity recordSourceKey before
  all_goals
    have hretained : TracksAsset a ((p.degradeCurrent env current).retainTombstone env
        publication.key (SharedPicture.tombstoneFor atlasVersion publication context)) :=
      (h.degradeCurrent env current).delete rfl rfl
    have hmarked := hretained.markAsset env connectivityAssetID false
  · exact hmarked.emit env .remove publication.key none
  · exact hmarked

/-- A record that is put in has the freshness its Asset's connectivity wants. -/
theorem resourceFreshness_ne_fresh {p : SharedPicture} {resource : Resource}
    {publication : StatePublication} {context : PictureApplyContext}
    {current : Option PictureRecord} {assetID : String} {c : AssetConnectivity}
    (hfollows : SharedPicture.followsAsset (SharedPicture.recordFor resource publication context
      (p.resourceFreshness resource current)) assetID = true)
    (hc : p.assetConnectivity.get assetID = some c) (hdown : c.connected = false) :
    p.resourceFreshness resource current ≠ .fresh := by
  unfold SharedPicture.followsAsset SharedPicture.recordFor at hfollows
  rcases resource with e | task | o
  · simp at hfollows
  · simp only [Bool.and_eq_true, Bool.not_eq_true', decide_eq_true_eq] at hfollows
    obtain ⟨hopen, rfl⟩ := hfollows
    exact taskFreshness_ne_fresh hopen hc hdown
  · simp at hfollows

theorem TracksAsset.applyResource (h : TracksAsset a p) (publication : StatePublication)
    (context : PictureApplyContext) (resource : Resource) (current : Option PictureRecord)
    (connectivityAssetID : Option String) (recordSourceKey : String)
    (before : Option RecordSourceSequence) :
    TracksAsset a (p.applyResource env publication context resource current connectivityAssetID
      recordSourceKey before).1 := by
  unfold SharedPicture.applyResource
  dsimp only
  split_ifs
  · exact h
  · exact h.rejectCapacity recordSourceKey before
  have hretained : TracksAsset a (p.retainRecord env publication.key
      (SharedPicture.recordFor resource publication context
        (p.resourceFreshness resource current))) :=
    h.retainRecord env fun _ hfollows hc hdown => resourceFreshness_ne_fresh hfollows hc hdown
  have hconnected := hretained.connectAsset connectivityAssetID context.receivedAt
  exact (hconnected.emit env _ _ _).markAsset env connectivityAssetID true

theorem TracksAsset.applyAccepted (h : TracksAsset a p) (publication : StatePublication)
    (context : PictureApplyContext) (current : Option PictureRecord)
    (connectivityAssetID : Option String) :
    TracksAsset a (p.applyAccepted env publication context current connectivityAssetID).1 := by
  unfold SharedPicture.applyAccepted
  dsimp only
  split_ifs
  · exact h
  · exact h
  all_goals
    have hset : TracksAsset a { p with
        recordSourceSequences :=
          p.recordSourceSequences.set (publication.key ++ "\x00" ++ nodeKey context.source)
            ⟨nodeKey context.source, context.sourceGeneration, context.serviceSession,
              context.sourceSequence, context.receivedAt⟩ } := h.of_eq rfl rfl
  · exact hset
  · exact hset
  · split
    · exact hset.applyDeletion env _ _ _ _ _ _ _
    · exact hset.applyResource env _ _ _ _ _ _ _

theorem TracksAsset.apply (h : TracksAsset a p) (publication : StatePublication)
    {context : PictureApplyContext}
    (hsource : a = context.source.id → Heralded context.source p) :
    TracksAsset a (p.apply env publication context).1 := by
  unfold SharedPicture.apply
  dsimp only
  split_ifs
  · exact h
  have haccept := h.acceptSource env hsource
  rcases haccepted : p.acceptSource env context with ⟨p₁, _ | reason⟩
  · rw [haccepted] at haccept
    have hpruned : TracksAsset a (p₁.pruneRecordSourceSequences context.receivedAt) :=
      haccept.of_eq rfl rfl
    exact hpruned.applyAccepted env publication context _ _
  · rw [haccepted] at haccept
    exact haccept

/-- The first publication of a source is a resource that passes every check. -/
structure Connects (publication : StatePublication) (context : PictureApplyContext)
    (resource : Resource) (p : SharedPicture) : Prop where
  published : publication.published = .resource resource
  first : p.sources.get (nodeKey context.source) = none
  position : (p.pruneRecordSourceSequences context.receivedAt).recordSourceSequences.get
    (publication.key ++ "\x00" ++ nodeKey context.source) = none
  positions : (p.pruneRecordSourceSequences context.receivedAt).recordSourceSequences.size <
    recordSourceSequenceLimit
  sequence : SharedPicture.staleSequence (p.records.get publication.key)
    (p.tombstones.get publication.key) context = false
  newer : ∀ r, p.records.get publication.key = some r → isNewer env publication r context = true
  replaces : ∀ t, p.tombstones.get publication.key = some t →
    canReplaceTombstone publication t = true
  fits : p.canRetain publication.key (SharedPicture.retainedRecordBytes env
    (SharedPicture.recordFor resource publication context .fresh)) = true

/-- An Asset that is connected is tracked, whatever its Tasks were before. -/
theorem tracksAsset_connectAsset (receivedAt : ℕ) :
    TracksAsset a (p.connectAsset (some a) receivedAt) := by
  intro k r c _ _ hc hdown
  have hset : (p.assetConnectivity.set a ⟨true, some receivedAt⟩).get a = some c := hc
  rw [OrderedMap.get_set_self, Option.some.injEq] at hset
  subst hset
  simp at hdown

/-- A first publication changes nothing but the sources and, of an Asset, their connectivity. -/
theorem acceptSource_first {context : PictureApplyContext}
    (hfirst : p.sources.get (nodeKey context.source) = none) :
    (∃ reason, p.acceptSource env context = (p, some reason)) ∨
      ∃ sources connectivity, p.acceptSource env context =
        ({ p with sources := sources, assetConnectivity := connectivity }, none) := by
  unfold SharedPicture.acceptSource SharedPicture.activateSource SharedPicture.supersedeSource
    SharedPicture.introduceAsset
  simp only [hfirst, Option.any_none, Bool.false_eq_true, if_false, true_and, reduceCtorEq]
  by_cases hfull : linkSourceIdentityLimit ≤ p.sources.size
  · rw [if_pos hfull]
    exact .inl ⟨_, rfl⟩
  rw [if_neg hfull, if_neg hfull]
  by_cases hrefused : (context.source.role = .asset ∧
      p.assetConnectivity.has context.source.id = false) ∧
        linkSourceIdentityLimit ≤ p.assetConnectivity.size
  · rw [if_pos hrefused]
    exact .inl ⟨_, rfl⟩
  rw [if_neg hrefused]
  by_cases hnew : context.source.role = .asset ∧
      p.assetConnectivity.has context.source.id = false
  · rw [if_pos hnew]
    simp only [hfirst, Option.any_none, Bool.false_eq_true, if_false]
    exact .inr ⟨_, _, rfl⟩
  · rw [if_neg hnew]
    simp only [hfirst, Option.any_none, Bool.false_eq_true, if_false]
    exact .inr ⟨_, _, rfl⟩

/-- A publication that connects its Asset ends with the Asset connected. -/
theorem TracksAsset.apply_connects (h : TracksAsset a p) {publication : StatePublication}
    {context : PictureApplyContext} {resource : Resource} (hasset : context.source.role = .asset)
    (hself : a = context.source.id) (hconnects : Connects env publication context resource p) :
    TracksAsset a (p.apply env publication context).1 := by
  subst hself
  have hconnectivity : p.connectivityAssetID publication context
      (p.records.get publication.key) = some context.source.id := by
    unfold SharedPicture.connectivityAssetID
    rw [hconnects.published]
    exact if_pos hasset
  unfold SharedPicture.apply
  dsimp only
  rw [hconnectivity]
  by_cases hplace : ((some context.source.id).any fun assetID => !p.canAdmitAsset assetID) = true
  · rw [if_pos hplace]
    exact h
  rw [if_neg hplace]
  rcases acceptSource_first env hconnects.first with
    ⟨reason, haccepted⟩ | ⟨sources, connectivity, haccepted⟩
  · rw [haccepted]
    exact h
  rw [haccepted]
  obtain ⟨hpublished, -, hposition, hpositions, hsequence, hnewer, hreplaces, hfits⟩ := hconnects
  have hnotnewer : ((p.records.get publication.key).any fun c =>
      !isNewer env publication c context) = false := by
    rcases hr : p.records.get publication.key with _ | r
    · rfl
    · simp [hnewer r hr]
  have hnotreplaces : ((p.tombstones.get publication.key).any fun t =>
      !canReplaceTombstone publication t) = false := by
    rcases ht : p.tombstones.get publication.key with _ | t
    · rfl
    · simp [hreplaces t ht]
  unfold SharedPicture.pruneRecordSourceSequences at hposition hpositions ⊢
  unfold SharedPicture.applyAccepted
  dsimp only at hposition hpositions ⊢
  rw [hposition]
  simp only [Option.any_none, Bool.false_eq_true, if_false, true_and, hpublished,
    Nat.not_le_of_lt hpositions, hsequence, hnotnewer]
  unfold SharedPicture.applyResource
  dsimp only
  rw [if_neg (by simp [hnotreplaces]), if_neg]
  swap
  · rw [Bool.not_eq_true', Bool.not_eq_false]
    exact hfits
  exact ((tracksAsset_connectAsset context.receivedAt).emit env _ _ _).markAsset env _ true

end Applying

section Refreshing

theorem TracksAsset.foldl {α : Type} {f : SharedPicture → α → SharedPicture}
    (hf : ∀ p x, TracksAsset a p → TracksAsset a (f p x)) :
    ∀ (xs : List α) {p : SharedPicture}, TracksAsset a p → TracksAsset a (xs.foldl f p)
  | [], _, h => h
  | x :: xs, p, h => TracksAsset.foldl hf xs (hf p x h)

theorem TracksAsset.expireConnectivity (h : TracksAsset a p) (now : ℕ) (id : String) :
    TracksAsset a (p.expireConnectivity env now id) := by
  unfold SharedPicture.expireConnectivity
  split
  · exact h
  · split_ifs
    · exact h.markSourceConnectivity env _ false
    · exact h

theorem TracksAsset.refreshRecord (h : TracksAsset a p) (now : ℕ) (key : String) :
    TracksAsset a (p.refreshRecord env now key) := by
  unfold SharedPicture.refreshRecord
  dsimp only
  split
  · exact h
  · rename_i record hr
    have hdegraded := h.degradeTasksForExpiredAsset env record
    split_ifs
    · have hremoved : TracksAsset a ((p.degradeTasksForExpiredAsset env record).removeRecord key) :=
        hdegraded.delete rfl rfl
      exact hremoved.emit env .remove key none
    · have hstale : TracksAsset a ((p.degradeTasksForExpiredAsset env record).retainRecord env key
          { record with freshness := .stale }) :=
        hdegraded.retainRecord env fun _ _ _ _ => PictureFreshness.noConfusion
      exact hstale.emit env .stale key _
    · exact h

theorem TracksAsset.refresh (h : TracksAsset a p) (now : ℕ) :
    TracksAsset a (p.refresh env now) := by
  unfold SharedPicture.refresh
  dsimp only
  have hpruned : TracksAsset a (p.pruneRecordSourceSequences now) := h.of_eq rfl rfl
  have hexpired := TracksAsset.foldl (fun p id hp => hp.expireConnectivity env now id)
    (p.pruneRecordSourceSequences now).assetConnectivity.keys hpruned
  exact TracksAsset.foldl (fun p key hp => hp.refreshRecord env now key) _ hexpired

end Refreshing

section Running

/-- The source that an operation activates is heralded, or what it publishes connects it. -/
def PictureOp.Heralded (p : SharedPicture) : PictureOp → Prop
  | .apply publication context => Picture.Heralded context.source p ∨
    context.source.role = .asset ∧ ∃ resource, Connects env publication context resource p
  | .activateSource source _ _ _ => Picture.Heralded source p
  | _ => True

theorem Tracks.run {p : SharedPicture} (h : Tracks p) {op : PictureOp} (hop : op.Heralded env p) :
    Tracks (op.run env p) := by
  intro a
  cases op with
  | apply publication context =>
    by_cases hself : a = context.source.id
    · rcases hop with hheralded | ⟨hasset, resource, hconnects⟩
      · exact (h a).apply env publication fun _ => hheralded
      · exact (h a).apply_connects env hasset hself hconnects
    · exact (h a).apply env publication fun heq => absurd heq hself
  | refresh now => exact (h a).refresh env now
  | markSourceConnectivity source connected =>
    exact (h a).markSourceConnectivity env source connected
  | activateSource source generation session hne =>
    exact (h a).activateSource env (fun _ => hop) generation session

/-- The states a picture reaches by operations that each activate heralded sources only. -/
inductive HeraldedReachable (env : PictureEnv) : SharedPicture → Prop
  | new : HeraldedReachable env .new
  | step {p : SharedPicture} (op : PictureOp) :
    HeraldedReachable env p → op.Heralded env p → HeraldedReachable env (op.run env p)

end Running

section TaskBeforeItsAsset

def taskPublished : PictureOp :=
  .apply
    ⟨.resource (.task ⟨"task-1", "uav-1", .pending, "0", "\x7b\x7d"⟩), "0", .gatewayFeed,
      .coreConfirmed, none, none⟩
    ⟨⟨.gateway, "gw"⟩, 1, "boot-1", 1, 0, plainBootId_ne⟩

def assetActivated : PictureOp := .activateSource ⟨.asset, "uav-1"⟩ 1 "boot-1" plainBootId_ne

end TaskBeforeItsAsset

end Atlas.Picture
