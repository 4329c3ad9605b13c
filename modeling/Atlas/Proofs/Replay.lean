import Atlas.Proofs.Marking

/-!
# Following a Shared Picture by its events

Each operation on a picture changes records one after another and tells of each change by one
event, except that a deletion tells of the removed record last. So the events an operation emits,
replayed over the records before it, give the records after it; and what the buffer holds is always
the last of the events there ever were.
-/

namespace Atlas.Picture

open Atlas.Link (LinkNode)

/-- What a follower does with an event. -/
def follow (records : OrderedMap String PictureRecord) (event : PictureEvent) :
    OrderedMap String PictureRecord :=
  match event.type, event.record with
  | .remove, _ => records.delete event.key
  | _, some record => records.set event.key record
  | _, none => records

/-- The records of a snapshot under their keys. -/
def PictureSnapshot.keyed (snapshot : PictureSnapshot) : OrderedMap String PictureRecord :=
  snapshot.records.foldl (fun m r => m.set (recordKey r.resourceType r.id) r) .empty

section Board

/-- Records by key, however they are ordered. -/
abbrev Board := String → Option PictureRecord

def PictureEvent.replay (board : Board) (event : PictureEvent) : Board :=
  match event.type, event.record with
  | .remove, _ => Function.update board event.key none
  | _, some record => Function.update board event.key (some record)
  | _, none => board

theorem get_follow (records : OrderedMap String PictureRecord) (event : PictureEvent) :
    (follow records event).get = event.replay records.get := by
  unfold follow PictureEvent.replay
  funext k
  rcases event.type <;> rcases event.record with _ | record <;>
    simp [OrderedMap.get_delete, OrderedMap.get_set, Function.update_apply]

theorem get_foldl_follow (events : List PictureEvent) (records : OrderedMap String PictureRecord) :
    (events.foldl follow records).get = events.foldl PictureEvent.replay records.get := by
  induction events generalizing records with
  | nil => rfl
  | cons event events ih =>
    rw [List.foldl_cons, List.foldl_cons, ih, get_follow]

/-- A change at a key that is removed in the end makes no difference. -/
theorem foldl_replay_update (events : List PictureEvent) (board : Board) (key : String)
    (value : Option PictureRecord) :
    Function.update (events.foldl PictureEvent.replay (Function.update board key value)) key none =
      Function.update (events.foldl PictureEvent.replay board) key none := by
  induction events using List.reverseRecOn with
  | nil => simp
  | append_singleton events event ih =>
    rw [List.foldl_append, List.foldl_append]
    simp only [List.foldl_cons, List.foldl_nil]
    generalize events.foldl PictureEvent.replay (Function.update board key value) = b₁ at ih ⊢
    generalize events.foldl PictureEvent.replay board = b₂ at ih ⊢
    funext k
    have hk := congrFun ih k
    unfold PictureEvent.replay
    by_cases h : k = key
    · simp [h]
    · simp only [Function.update_apply, h, if_false] at hk ⊢
      rcases event.type <;> rcases event.record with _ | record <;>
        simp [Function.update_apply, hk]

end Board

section Logged

variable (env : PictureEnv)

/-- The events lead from one state to the other, and the buffer holds the last of them. -/
structure Logged (p p' : SharedPicture) (events : List PictureEvent) : Prop where
  revision : p'.revision = p.revision + events.length
  revisions : events.map (·.revision) = List.range' (p.revision + 1) events.length
  records : p'.records.get = events.foldl PictureEvent.replay p.records.get
  buffer : p'.events <:+ p.events ++ events

def Follows (p p' : SharedPicture) : Prop := ∃ events, Logged p p' events

variable {env} {p p' p'' : SharedPicture} {events events' : List PictureEvent}

/-- A change outside the records, of which no event tells. -/
theorem Follows.of_eq (hrevision : p'.revision = p.revision)
    (hrecords : p'.records.get = p.records.get) (hevents : p'.events = p.events) : Follows p p' :=
  ⟨[], by simp [hrevision], by simp, hrecords, by simp [hevents]⟩

theorem Follows.refl (p : SharedPicture) : Follows p p := .of_eq rfl rfl rfl

theorem Logged.trans (h : Logged p p' events) (h' : Logged p' p'' events') :
    Logged p p'' (events ++ events') where
  revision := by
    rw [h'.revision, h.revision, List.length_append]
    omega
  revisions := by
    rw [List.map_append, h.revisions, h'.revisions, h.revision, List.length_append,
      ← List.range'_append_1]
    congr 2
    omega
  records := by rw [List.foldl_append, h'.records, h.records]
  buffer := by
    obtain ⟨dropped, hd⟩ := h.buffer
    refine h'.buffer.trans ⟨dropped, ?_⟩
    rw [← List.append_assoc, hd, List.append_assoc]

theorem Follows.trans (h : Follows p p') (h' : Follows p' p'') : Follows p p'' := by
  obtain ⟨events, h⟩ := h
  obtain ⟨events', h'⟩ := h'
  exact ⟨events ++ events', h.trans h'⟩

theorem Follows.then (h : Follows p p') (hrevision : p''.revision = p'.revision)
    (hrecords : p''.records = p'.records) (hevents : p''.events = p'.events) : Follows p p'' :=
  h.trans (.of_eq hrevision (by rw [hrecords]) hevents)

theorem trimEvents_suffix (limit : ℕ) :
    ∀ (buffer : List PictureEvent) (sizes : List ℕ) (retained : ℤ),
      (SharedPicture.trimEvents limit buffer sizes retained).1 <:+ buffer
  | [], _, _ => List.suffix_refl _
  | e :: rest, sizes, retained => by
    unfold SharedPicture.trimEvents
    split_ifs
    · exact (trimEvents_suffix limit rest _ _).trans (List.suffix_cons e rest)
    · exact List.suffix_refl _

/-- An event that tells of the change just made. -/
theorem Logged.emit {type : PictureEventType} {key : String} {record : Option PictureRecord}
    (hrevision : p'.revision = p.revision) (hevents : p'.events = p.events)
    (hrecords : p'.records.get =
      (⟨env.session, p.revision + 1, type, key, record⟩ : PictureEvent).replay p.records.get) :
    Logged p (p'.emit env type key record) [⟨env.session, p.revision + 1, type, key, record⟩] where
  revision := by
    unfold SharedPicture.emit
    dsimp only
    split_ifs <;> simp [hrevision]
  revisions := rfl
  records := by
    rw [emit_records, hrecords]
    rfl
  buffer := by
    unfold SharedPicture.emit
    dsimp only
    rw [hrevision, hevents]
    split_ifs
    · exact List.nil_suffix
    · exact trimEvents_suffix _ _ _ _

end Logged

section Operations

variable (env : PictureEnv)

/-- A record is retained and told of. -/
theorem follows_retain (p : SharedPicture) (key : String) (record : PictureRecord)
    {type : PictureEventType} (htype : type ≠ .remove) :
    Follows p ((p.retainRecord env key record).emit env type key (some record)) := by
  refine ⟨_, Logged.emit rfl rfl ?_⟩
  rw [get_retainRecord]
  cases type
  · rfl
  · rfl
  · exact absurd rfl htype

theorem markRecord_follows (assetID : String) (connected : Bool) (p : SharedPicture)
    (key : String) : Follows p (p.markRecord env assetID connected key) := by
  unfold SharedPicture.markRecord
  dsimp only
  split
  · exact .refl p
  · rename_i record _
    have htype : (if connected then .upsert else .stale : PictureEventType) ≠ .remove := by
      cases connected <;> simp
    by_cases h : SharedPicture.followsAsset record assetID = true ∧
        record.freshness ≠ (if connected then .fresh else .degraded : PictureFreshness)
    · rw [if_pos h]
      exact follows_retain env p key _ htype
    · rw [if_neg h]
      exact .refl p

theorem foldl_follows {α : Type} {f : SharedPicture → α → SharedPicture}
    (h : ∀ p a, Follows p (f p a)) : ∀ (as : List α) (p : SharedPicture), Follows p (as.foldl f p)
  | [], p => .refl p
  | a :: as, p => (h p a).trans (foldl_follows h as (f p a))

theorem markSourceConnectivity_follows (source : LinkNode) (connected : Bool) (p : SharedPicture) :
    Follows p (p.markSourceConnectivity env source connected) := by
  unfold SharedPicture.markSourceConnectivity
  split_ifs
  · exact .refl p
  · have hstart : Follows p { p with
        assetConnectivity :=
          p.assetConnectivity.modify source.id fun c => { c with connected := connected } } :=
      (Follows.refl p).then rfl rfl rfl
    exact hstart.trans (foldl_follows (markRecord_follows env source.id connected) _ _)

theorem degradeTasksForExpiredAsset_follows (record : PictureRecord) (p : SharedPicture) :
    Follows p (p.degradeTasksForExpiredAsset env record) := by
  unfold SharedPicture.degradeTasksForExpiredAsset
  split
  · split_ifs
    · exact markSourceConnectivity_follows env _ _ p
    · exact .refl p
  · exact .refl p

theorem introduceAsset_follows (source : LinkNode) (p : SharedPicture) :
    Follows p (p.introduceAsset source) := by
  unfold SharedPicture.introduceAsset
  split_ifs
  · exact .of_eq rfl rfl rfl
  · exact .refl p

theorem supersedeSource_follows (source : LinkNode) (generation : ℕ) (p : SharedPicture) :
    Follows p (p.supersedeSource env source generation) := by
  unfold SharedPicture.supersedeSource
  split_ifs
  · exact (markSourceConnectivity_follows env source false p).then rfl rfl rfl
  · exact .refl p

theorem activateSource_follows (source : LinkNode) (generation : ℕ) (session : String)
    (p : SharedPicture) : Follows p (p.activateSource env source generation session).1 := by
  have hnew := introduceAsset_follows source p
  unfold SharedPicture.activateSource
  dsimp only
  split_ifs
  · exact .refl p
  · exact .refl p
  · exact .refl p
  · exact hnew
  · exact (hnew.trans (supersedeSource_follows env source generation _)).then rfl rfl rfl

theorem acceptSource_follows (context : PictureApplyContext) (p : SharedPicture) :
    Follows p (p.acceptSource env context).1 := by
  unfold SharedPicture.acceptSource
  split_ifs
  · exact .refl p
  · exact activateSource_follows env _ _ _ p

theorem expireConnectivity_follows (now : ℕ) (p : SharedPicture) (id : String) :
    Follows p (p.expireConnectivity env now id) := by
  unfold SharedPicture.expireConnectivity
  split
  · exact .refl p
  · split_ifs
    · exact markSourceConnectivity_follows env _ _ p
    · exact .refl p

theorem refreshRecord_follows (now : ℕ) (p : SharedPicture) (key : String) :
    Follows p (p.refreshRecord env now key) := by
  unfold SharedPicture.refreshRecord
  dsimp only
  split
  · exact .refl p
  · rename_i record _
    split_ifs
    · refine (degradeTasksForExpiredAsset_follows env record p).trans ⟨_, Logged.emit rfl rfl ?_⟩
      exact get_delete_eq_update _ _
    · refine (degradeTasksForExpiredAsset_follows env record p).trans ?_
      exact follows_retain env _ key _ (by simp)
    · exact .refl p

theorem refresh_follows (now : ℕ) (p : SharedPicture) : Follows p (p.refresh env now) := by
  unfold SharedPicture.refresh
  dsimp only
  have h₁ : Follows p (p.pruneRecordSourceSequences now) := .of_eq rfl rfl rfl
  have h₂ := foldl_follows (expireConnectivity_follows env now)
    (p.pruneRecordSourceSequences now).assetConnectivity.keys (p.pruneRecordSourceSequences now)
  exact (h₁.trans h₂).trans (foldl_follows (refreshRecord_follows env now) _ _)

/-- A record is removed, other changes are told of, and then the removal. -/
theorem Logged.remove {p p₁ p₂ : SharedPicture} {events : List PictureEvent} {key : String}
    (hrevision : p₁.revision = p.revision) (hevents : p₁.events = p.events)
    (hrecords : p₁.records.get = Function.update p.records.get key none)
    (h : Logged p₁ p₂ events) (hkey : p₂.records.get key = none) :
    Logged p (p₂.emit env .remove key none)
      (events ++ [⟨env.session, p₂.revision + 1, .remove, key, none⟩]) := by
  have hrevision₂ : p₂.revision = p.revision + events.length := by rw [h.revision, hrevision]
  refine ⟨?_, ?_, ?_, ?_⟩
  · unfold SharedPicture.emit
    dsimp only
    split_ifs <;> simp [hrevision₂, Nat.add_assoc]
  · rw [List.map_append, h.revisions, hrevision, List.length_append, ← List.range'_append_1,
      hrevision₂]
    simp [Nat.add_right_comm]
  · have hlast : p₂.records.get = Function.update p₂.records.get key none := by
      rw [← hkey, Function.update_eq_self]
    rw [emit_records, hlast, h.records, hrecords, foldl_replay_update, List.foldl_append]
    rfl
  · unfold SharedPicture.emit
    dsimp only
    split_ifs
    · exact List.nil_suffix
    · refine (trimEvents_suffix _ _ _ _).trans ?_
      obtain ⟨dropped, hd⟩ := h.buffer
      refine ⟨dropped, ?_⟩
      rw [← List.append_assoc, hd, hevents, List.append_assoc]

theorem degradeCurrent_follows (current : Option PictureRecord) (p : SharedPicture) :
    Follows p (p.degradeCurrent env current) := by
  unfold SharedPicture.degradeCurrent
  split
  · exact degradeTasksForExpiredAsset_follows env _ p
  · exact .refl p

theorem markAsset_follows (assetID : Option String) (connected : Bool) (p : SharedPicture) :
    Follows p (p.markAsset env assetID connected) := by
  unfold SharedPicture.markAsset
  split
  · exact markSourceConnectivity_follows env _ _ p
  · exact .refl p

theorem get_markAsset_eq_none (assetID : Option String) (connected : Bool) {p : SharedPicture}
    {k : String} :
    (p.markAsset env assetID connected).records.get k = none ↔ p.records.get k = none := by
  unfold SharedPicture.markAsset
  split
  · exact get_markSourceConnectivity_eq_none env _ _
  · rfl

/-- A deletion removes its record first and tells of it last. -/
theorem applyDeletion_follows (publication : StatePublication) (context : PictureApplyContext)
    (atlasVersion : ℕ) (current : Option PictureRecord) (asset : Option String)
    (recordSourceKey : String) (before : Option RecordSourceSequence) (p : SharedPicture)
    (hcurrent : current = none → p.records.get publication.key = none) :
    Follows p (p.applyDeletion env publication context atlasVersion current asset recordSourceKey
      before).1 := by
  unfold SharedPicture.applyDeletion SharedPicture.rejectCapacity
  dsimp only
  split_ifs with hreplace hretain hsome
  · exact .refl p
  · exact .of_eq rfl rfl rfl
  · set p₁ := p.degradeCurrent env current
    set p₂ := p₁.retainTombstone env publication.key
      (SharedPicture.tombstoneFor atlasVersion publication context)
    obtain ⟨events, hmarked⟩ := markAsset_follows env asset false p₂
    have hdeleted : p₂.records.get = Function.update p₁.records.get publication.key none :=
      get_delete_eq_update _ _
    have hgone : (p₂.markAsset env asset false).records.get publication.key = none := by
      rw [get_markAsset_eq_none, hdeleted, Function.update_self]
    have hrevision : p₂.revision = p₁.revision := rfl
    have hevents : p₂.events = p₁.events := rfl
    exact (degradeCurrent_follows env current p).trans
      ⟨_, Logged.remove env hrevision hevents hdeleted hmarked hgone⟩
  · have hnone : current = none := by simpa using hsome
    subst hnone
    refine Follows.trans ?_ (markAsset_follows env asset false _)
    refine .of_eq rfl ?_ rfl
    show (p.records.delete publication.key).get = _
    rw [get_delete_eq_update, ← hcurrent rfl, Function.update_eq_self]

theorem applyResource_follows (publication : StatePublication) (context : PictureApplyContext)
    (resource : Resource) (current : Option PictureRecord) (asset : Option String)
    (recordSourceKey : String) (before : Option RecordSourceSequence) (p : SharedPicture) :
    Follows p (p.applyResource env publication context resource current asset recordSourceKey
      before).1 := by
  unfold SharedPicture.applyResource SharedPicture.rejectCapacity
  dsimp only
  split_ifs
  · exact .refl p
  · exact .of_eq rfl rfl rfl
  · refine Follows.trans ?_ (markAsset_follows env asset true _)
    refine ⟨_, Logged.emit ?_ ?_ ?_⟩
    · cases asset <;> rfl
    · cases asset <;> rfl
    · have hconnect : ∀ q : SharedPicture,
          (q.connectAsset asset context.receivedAt).records = q.records := by
        intro q
        cases asset <;> rfl
      rw [hconnect, get_retainRecord]
      rfl

theorem activateSource_get_eq_none (source : LinkNode) (generation : ℕ) (session : String)
    {p : SharedPicture} {k : String} (h : p.records.get k = none) :
    (p.activateSource env source generation session).1.records.get k = none := by
  have hnew : (p.introduceAsset source).records = p.records := by
    unfold SharedPicture.introduceAsset
    split_ifs <;> rfl
  have hsupersede : ∀ q : SharedPicture, q.records.get k = none →
      (q.supersedeSource env source generation).records.get k = none := by
    intro q hq
    unfold SharedPicture.supersedeSource
    split_ifs
    · exact (get_markSourceConnectivity_eq_none env source false).2 hq
    · exact hq
  unfold SharedPicture.activateSource
  dsimp only
  split_ifs
  · exact h
  · exact h
  · exact h
  · rw [hnew]
    exact h
  · exact hsupersede _ (by rw [hnew]; exact h)

theorem applyAccepted_follows (publication : StatePublication) (context : PictureApplyContext)
    (current : Option PictureRecord) (asset : Option String) (p : SharedPicture)
    (hcurrent : current = none → p.records.get publication.key = none) :
    Follows p (p.applyAccepted env publication context current asset).1 := by
  unfold SharedPicture.applyAccepted
  dsimp only
  set p₁ : SharedPicture :=
    { p with
      recordSourceSequences :=
        p.recordSourceSequences.set (publication.key ++ "\x00" ++ nodeKey context.source)
          ⟨nodeKey context.source, context.sourceGeneration, context.serviceSession,
            context.sourceSequence, context.receivedAt⟩ }
  have hset : Follows p p₁ := .of_eq rfl rfl rfl
  split_ifs
  · exact .refl p
  · exact .refl p
  · exact hset
  · exact hset
  · split
    · exact hset.trans (applyDeletion_follows env _ _ _ _ _ _ _ p₁ hcurrent)
    · exact hset.trans (applyResource_follows env _ _ _ _ _ _ _ p₁)

theorem acceptSource_get_eq_none (context : PictureApplyContext) {p : SharedPicture} {k : String}
    (h : p.records.get k = none) : (p.acceptSource env context).1.records.get k = none := by
  unfold SharedPicture.acceptSource
  split_ifs
  · exact h
  · exact activateSource_get_eq_none env _ _ _ h

theorem apply_follows (publication : StatePublication) (context : PictureApplyContext)
    (p : SharedPicture) : Follows p (p.apply env publication context).1 := by
  have haccept := acceptSource_follows env context p
  have hnone := acceptSource_get_eq_none env context (p := p) (k := publication.key)
  unfold SharedPicture.apply
  dsimp only
  split_ifs
  · exact .refl p
  · rcases haccepted : p.acceptSource env context with ⟨p₁, _ | reason⟩
    · rw [haccepted] at haccept hnone
      have hpruned : Follows p (p₁.pruneRecordSourceSequences context.receivedAt) :=
        haccept.then rfl rfl rfl
      exact hpruned.trans (applyAccepted_follows env publication context _ _ _ hnone)
    · rw [haccepted] at haccept
      exact haccept

theorem run_follows (op : PictureOp) (p : SharedPicture) : Follows p (op.run env p) := by
  cases op with
  | apply publication context => exact apply_follows env publication context p
  | refresh now => exact refresh_follows env now p
  | markSourceConnectivity source connected =>
    exact markSourceConnectivity_follows env source connected p
  | activateSource source generation session _ =>
    exact activateSource_follows env source generation session p

theorem foldl_run_follows (ops : List PictureOp) (p : SharedPicture) :
    Follows p (ops.foldl (PictureOp.run env) p) :=
  foldl_follows (fun p op => run_follows env op p) ops p

end Operations

section Cursors

variable (env : PictureEnv) {p p' : SharedPicture}

/-- The revisions that can still be read. -/
def SharedPicture.buffered (p : SharedPicture) : List ℕ := p.events.map (·.revision)

/-- The buffer holds the last events there were, without a gap. -/
theorem Reachable.buffered (h : Reachable env p) :
    ∃ n, n ≤ p.revision ∧ p.buffered = List.range' (p.revision + 1 - n) n := by
  have hfollows : Follows .new p := by
    induction h with
    | new => exact .refl _
    | @step p op _ ih => exact ih.trans (run_follows env op p)
  obtain ⟨events, hlogged⟩ := hfollows
  obtain ⟨dropped, hdropped⟩ := hlogged.buffer
  have hbuffer : dropped ++ p.events = events := hdropped
  have hlength : p.revision = events.length := by
    rw [hlogged.revision]
    exact Nat.zero_add _
  have hsplit : dropped.length + p.events.length = p.revision := by
    rw [hlength, ← hbuffer, List.length_append]
  refine ⟨p.events.length, by omega, ?_⟩
  have hrevisions : dropped.map (·.revision) ++ p.buffered = List.range' 1 p.revision := by
    have h := hlogged.revisions
    rw [← hlength, ← hbuffer, List.map_append] at h
    exact h
  rw [← hsplit, ← List.range'_append_1] at hrevisions
  have hinj := List.append_inj_right hrevisions (by simp)
  rw [hinj]
  congr 1
  omega

/-- A cursor is refused if it was never issued, or if an event after it is no longer buffered. -/
theorem eventsAfter_eq_none_iff (h : Reachable env p) (session : String) (revision : ℤ) :
    p.eventsAfter env session revision = none ↔
      session ≠ env.session ∨ revision < 0 ∨ (p.revision : ℤ) < revision ∨
        ∃ n : ℕ, revision < n ∧ n ≤ p.revision ∧ n ∉ p.buffered := by
  obtain ⟨n, hn, hbuffered⟩ := h.buffered
  have hearliest : (p.events.head?.map (·.revision)).getD (p.revision + 1) =
      p.revision + 1 - n := by
    have hhead : (p.events.head?.map (·.revision)) = p.buffered.head? := by
      unfold SharedPicture.buffered
      cases p.events <;> rfl
    rw [hhead, hbuffered]
    cases n <;> simp [List.range'_succ]
  unfold SharedPicture.eventsAfter
  dsimp only
  rw [hearliest]
  split_ifs with hcursor hexpired
  · simp only [true_iff]
    rcases hcursor with hcursor | hcursor | hcursor
    · exact .inl hcursor
    · exact .inr (.inl hcursor)
    · exact .inr (.inr (.inl hcursor))
  · simp only [not_or, not_lt] at hcursor
    obtain ⟨m, hm⟩ := Int.eq_ofNat_of_zero_le hcursor.2.1
    simp only [true_iff]
    refine .inr (.inr (.inr ⟨m + 1, by omega, by omega, ?_⟩))
    rw [hbuffered, List.mem_range'_1]
    omega
  · simp only [not_or, not_lt] at hcursor
    simp only [false_iff, not_or]
    refine ⟨hcursor.1, not_lt.2 hcursor.2.1, not_lt.2 hcursor.2.2, ?_⟩
    rintro ⟨k, hk, hle, hmem⟩
    rw [hbuffered, List.mem_range'_1] at hmem
    omega

end Cursors

section Snapshots

variable (env : PictureEnv) {p : SharedPicture}

def PictureRecord.key (record : PictureRecord) : String := recordKey record.resourceType record.id

theorem get_keyed {records : List PictureRecord} (hnodup : (records.map PictureRecord.key).Nodup)
    (k : String) (r : PictureRecord) :
    (records.foldl (fun m r => m.set (recordKey r.resourceType r.id) r)
      (.empty : OrderedMap String PictureRecord)).get k = some r ↔ r ∈ records ∧ r.key = k := by
  induction records using List.reverseRecOn with
  | nil => simp
  | append_singleton records last ih =>
    rw [List.map_append, List.nodup_append] at hnodup
    rw [List.foldl_append, List.foldl_cons, List.foldl_nil, OrderedMap.get_set]
    have hlast : recordKey last.resourceType last.id = last.key := rfl
    rw [hlast]
    split_ifs with hk
    · simp only [Option.some.injEq, List.mem_append, List.mem_singleton]
      constructor
      · rintro rfl
        exact ⟨.inr rfl, hk.symm⟩
      · rintro ⟨hmem | rfl, hr⟩
        · exact absurd (hr.trans hk) (hnodup.2.2 r.key (List.mem_map_of_mem hmem) last.key (by simp))
        · rfl
    · rw [ih hnodup.1]
      simp only [List.mem_append, List.mem_singleton]
      constructor
      · rintro ⟨hmem, hr⟩
        exact ⟨.inl hmem, hr⟩
      · rintro ⟨hmem | rfl, hr⟩
        · exact ⟨hmem, hr⟩
        · exact absurd hr.symm hk

/-- A snapshot has the picture's records. -/
theorem get_snapshot_keyed (h : Reachable env p) : (p.snapshot env).keyed.get = p.records.get := by
  have hkeys : p.records.values.map PictureRecord.key = p.records.keys := by
    unfold OrderedMap.values OrderedMap.keys
    rw [List.map_map]
    refine List.map_congr_left fun e he => ?_
    exact (h.sound env e.1 e.2 (OrderedMap.get_eq_some_iff.2 he)).key_eq.symm
  have hperm : (p.snapshot env).records.Perm p.records.values := List.mergeSort_perm _ _
  have hnodup : ((p.snapshot env).records.map PictureRecord.key).Nodup := by
    rw [(hperm.map _).nodup_iff, hkeys]
    exact p.records.nodup
  funext k
  ext r
  rw [PictureSnapshot.keyed, get_keyed hnodup, hperm.mem_iff, OrderedMap.get_eq_some_iff]
  constructor
  · rintro ⟨hmem, rfl⟩
    obtain ⟨⟨k, r'⟩, he, rfl⟩ := List.mem_map.1 hmem
    have := (h.sound env k r' (OrderedMap.get_eq_some_iff.2 he)).key_eq
    rw [PictureRecord.key, ← this]
    exact he
  · intro he
    exact ⟨List.mem_map.2 ⟨_, he, rfl⟩,
      (h.sound env k r (OrderedMap.get_eq_some_iff.2 he)).key_eq.symm⟩

end Snapshots

theorem Reachable.run (env : PictureEnv) {p : SharedPicture} (h : Reachable env p) :
    ∀ ops : List PictureOp, Reachable env (ops.foldl (PictureOp.run env) p)
  | [] => h
  | op :: ops => (h.step op).run env ops

/-- The events that can still be read after a cursor are all there were since. -/
theorem eventsAfter_eq {env : PictureEnv} {p p' : SharedPicture} {events found : List PictureEvent}
    (hp : Reachable env p) (hp' : Reachable env p') (hlogged : Logged p p' events)
    (h : p'.eventsAfter env env.session p.revision = some found) : found = events := by
  obtain ⟨n, hn, hbuffered⟩ := hp.buffered
  have hfound : p'.eventsAfter env env.session p.revision ≠ none := by simp [h]
  rw [Ne, eventsAfter_eq_none_iff env hp'] at hfound
  push Not at hfound
  obtain ⟨-, -, -, hall⟩ := hfound
  have hold : ∀ e ∈ p.events, e.revision ≤ p.revision := by
    intro e he
    have hmem : e.revision ∈ p.buffered := List.mem_map_of_mem he
    rw [hbuffered, List.mem_range'_1] at hmem
    omega
  have hnew : ∀ e ∈ events, p.revision < e.revision := by
    intro e he
    have hmem : e.revision ∈ events.map (·.revision) := List.mem_map_of_mem he
    rw [hlogged.revisions, List.mem_range'_1] at hmem
    omega
  have hfilter : found = p'.events.filter fun e => p.revision < e.revision := by
    unfold SharedPicture.eventsAfter at h
    dsimp only at h
    split_ifs at h
    simpa using (Option.some.inj h).symm
  obtain ⟨dropped, hdropped⟩ := hlogged.buffer
  have hkeep : ∀ kept, (∀ e ∈ kept, e.revision ≤ p.revision) →
      (kept ++ events).filter (fun e => p.revision < e.revision) = events := by
    intro kept hkept
    rw [List.filter_append, List.filter_eq_nil_iff.2 (by simpa using hkept),
      List.filter_eq_self.2 (by simpa using hnew), List.nil_append]
  rcases List.append_eq_append_iff.1 hdropped with ⟨kept, hkept, hbuffer⟩ | ⟨lost, -, hlost⟩
  · rw [hfilter, hbuffer]
    exact hkeep kept fun e he => hold e (by rw [hkept]; exact List.mem_append_right _ he)
  · -- Nothing of the events can be lost: each of their revisions is still buffered.
    rcases lost with _ | ⟨first, lost⟩
    · rw [hfilter, ← List.nil_append p'.events, ← hlost]
      exact hkeep [] (by simp)
    · have hfirst : first ∈ events := by rw [hlost]; simp
      have hrevision : first.revision ≤ p'.revision := by
        have hmem : first.revision ∈ events.map (·.revision) := List.mem_map_of_mem hfirst
        rw [hlogged.revisions, List.mem_range'_1] at hmem
        have := hlogged.revision
        omega
      have hagain := hall first.revision (by exact_mod_cast hnew first hfirst) hrevision
      have hnodup : (events.map (·.revision)).Nodup := by
        rw [hlogged.revisions]
        exact List.nodup_range'
      have hmem : first.revision ∈ p'.events.map (·.revision) := hagain
      rw [hlost, List.cons_append, List.map_cons, List.nodup_cons, List.map_append] at hnodup
      exact absurd (List.mem_append_right _ hmem) hnodup.1

section TrackComesAndGoes

def trackResource : Resource :=
  .entity ⟨"track-1", "track", false, false, true, 1, "{}"⟩

def trackContext (sequence : ℕ) : PictureApplyContext :=
  ⟨⟨.gateway, "gw"⟩, 1, "boot-1", sequence, 0, plainBootId_ne⟩

/-- A track is published, and then deleted. -/
def trackOps : List PictureOp :=
  [.apply ⟨.resource trackResource, "0", .gatewayFeed, .coreConfirmed, none, none⟩ (trackContext 1),
   .apply ⟨.deleted .entity "track-1" 2 (by decide), "1", .gatewayFeed, .coreConfirmed, none, none⟩
     (trackContext 2)]

def trackEvents : List PictureEvent :=
  [⟨"picture-1", 1, .upsert, "entity:track-1", some (SharedPicture.recordFor trackResource
      ⟨.resource trackResource, "0", .gatewayFeed, .coreConfirmed, none, none⟩ (trackContext 1)
      .fresh)⟩,
   ⟨"picture-1", 2, .remove, "entity:track-1", none⟩]

end TrackComesAndGoes

end Atlas.Picture
