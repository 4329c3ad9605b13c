import Atlas.Proofs.Convergence
import Atlas.Proofs.Replay

/-!
# A publication that does not fit

A rejection for capacity leaves the entries, their bytes and the events as the activation of its
source left them, and puts the sequence of its source back. So whatever happens until it comes
again, its sequence is not the reason why it would be turned down: only a publication of the same
source for the same resource that gets past the sequence check stands in its way
(`overtaken_step`), and one that has no room does not get past it.
-/

namespace Atlas.Picture

open Atlas.Link (LinkNode LinkRole)

/-- Records, tombstones, their bytes and the events are the same. -/
structure SameHoldings (p p' : SharedPicture) : Prop where
  records : p'.records = p.records
  tombstones : p'.tombstones = p.tombstones
  entryBytes : p'.entryBytes = p.entryBytes
  retainedEntryBytes : p'.retainedEntryBytes = p.retainedEntryBytes
  revision : p'.revision = p.revision
  events : p'.events = p.events
  eventBytes : p'.eventBytes = p.eventBytes
  retainedEventBytes : p'.retainedEventBytes = p.retainedEventBytes

theorem SameHoldings.refl (p : SharedPicture) : SameHoldings p p :=
  ⟨rfl, rfl, rfl, rfl, rfl, rfl, rfl, rfl⟩

theorem SameHoldings.trans {p p' p'' : SharedPicture} (h : SameHoldings p p')
    (h' : SameHoldings p' p'') : SameHoldings p p'' where
  records := h'.records.trans h.records
  tombstones := h'.tombstones.trans h.tombstones
  entryBytes := h'.entryBytes.trans h.entryBytes
  retainedEntryBytes := h'.retainedEntryBytes.trans h.retainedEntryBytes
  revision := h'.revision.trans h.revision
  events := h'.events.trans h.events
  eventBytes := h'.eventBytes.trans h.eventBytes
  retainedEventBytes := h'.retainedEventBytes.trans h.retainedEventBytes

variable (env : PictureEnv)

section Rejecting

variable {publication : StatePublication} {context : PictureApplyContext} {p : SharedPicture}

theorem applyDeletion_capacity {atlasVersion : ℕ} {current : Option PictureRecord}
    {asset : Option String} {recordSourceKey : String} {before : Option RecordSourceSequence}
    (h : (p.applyDeletion env publication context atlasVersion current asset recordSourceKey
      before).2 = .rejected .capacity) :
    p.applyDeletion env publication context atlasVersion current asset recordSourceKey before =
      p.rejectCapacity recordSourceKey before := by
  revert h
  unfold SharedPicture.applyDeletion
  dsimp only
  split_ifs <;> intro h
  · cases h
  · rfl
  · cases h
  · cases h

theorem applyResource_capacity {resource : Resource} {current : Option PictureRecord}
    {asset : Option String} {recordSourceKey : String} {before : Option RecordSourceSequence}
    (h : (p.applyResource env publication context resource current asset recordSourceKey
      before).2 = .rejected .capacity) :
    p.applyResource env publication context resource current asset recordSourceKey before =
      p.rejectCapacity recordSourceKey before := by
  revert h
  unfold SharedPicture.applyResource
  dsimp only
  split_ifs <;> intro h
  · cases h
  · rfl
  · cases h

theorem applyAccepted_capacity {current : Option PictureRecord} {asset : Option String}
    (h : (p.applyAccepted env publication context current asset).2 = .rejected .capacity) :
    SameHoldings p (p.applyAccepted env publication context current asset).1 := by
  revert h
  unfold SharedPicture.applyAccepted
  dsimp only
  split_ifs <;> intro h
  · cases h
  · exact .refl p
  · cases h
  · cases h
  · split at h
    · rw [applyDeletion_capacity env h]
      exact ⟨rfl, rfl, rfl, rfl, rfl, rfl, rfl, rfl⟩
    · rw [applyResource_capacity env h]
      exact ⟨rfl, rfl, rfl, rfl, rfl, rfl, rfl, rfl⟩

/-- Only a newer generation of a source degrades what it is followed by. -/
theorem activateSource_sameHoldings {source : LinkNode} {generation : ℕ} (session : String)
    (h : ∀ position, p.sources.get (nodeKey source) = some position →
      generation ≤ position.generation) :
    SameHoldings p (p.activateSource env source generation session).1 := by
  have hnew : SameHoldings p (p.introduceAsset source) := by
    unfold SharedPicture.introduceAsset
    split_ifs
    · exact ⟨rfl, rfl, rfl, rfl, rfl, rfl, rfl, rfl⟩
    · exact .refl p
  have hkept : (p.introduceAsset source).supersedeSource env source generation =
      p.introduceAsset source := by
    unfold SharedPicture.supersedeSource
    rw [(introduceAsset_sameBooks source p).sources, if_neg]
    rcases hposition : p.sources.get (nodeKey source) with _ | position
    · simp
    · simpa using h position hposition
  unfold SharedPicture.activateSource
  dsimp only
  split_ifs
  · exact .refl p
  · exact .refl p
  · exact .refl p
  · exact hnew
  · rw [hkept]
    exact hnew.trans ⟨rfl, rfl, rfl, rfl, rfl, rfl, rfl, rfl⟩

/-- What a rejection for capacity leaves of the picture. -/
theorem apply_capacity (h : (p.apply env publication context).2 = .rejected .capacity) :
    SameHoldings p (p.apply env publication context).1 ∨
      (∃ position, p.sources.get (nodeKey context.source) = some position ∧
          position.generation < context.sourceGeneration) ∧
        SameHoldings (p.activateSource env context.source context.sourceGeneration
          context.serviceSession).1 (p.apply env publication context).1 := by
  revert h
  unfold SharedPicture.apply
  dsimp only
  split_ifs
  · exact fun _ => .inl (.refl p)
  unfold SharedPicture.acceptSource
  split_ifs with hfull
  · exact fun _ => .inl (.refl p)
  rcases hactivated : p.activateSource env context.source context.sourceGeneration
    context.serviceSession with ⟨p₁, _ | _⟩
  · intro h
    cases h
  intro h
  have hpruned : SameHoldings p₁ (p₁.pruneRecordSourceSequences context.receivedAt) :=
    ⟨rfl, rfl, rfl, rfl, rfl, rfl, rfl, rfl⟩
  have hkept := hpruned.trans (applyAccepted_capacity env h)
  by_cases hnewer : ∃ position, p.sources.get (nodeKey context.source) = some position ∧
      position.generation < context.sourceGeneration
  · exact .inr ⟨hnewer, hkept⟩
  · have hold : ∀ position, p.sources.get (nodeKey context.source) = some position →
        context.sourceGeneration ≤ position.generation := fun position hposition =>
      Nat.le_of_not_lt fun hlt => hnewer ⟨position, hposition, hlt⟩
    have hsame := activateSource_sameHoldings env context.serviceSession hold
    rw [hactivated] at hsame
    exact .inl (hsame.trans hkept)

end Rejecting

section Overtaking

/-- What comes from the run of the source a publication comes from, at least as late. -/
structure FromSource (context : PictureApplyContext) (source : LinkNode) (generation : ℕ)
    (session : String) (sequence : ℕ) : Prop where
  source : source = context.source
  generation : generation = context.sourceGeneration
  session : session = context.serviceSession
  sequence : context.sourceSequence ≤ sequence

theorem FromSource.trans {context context' : PictureApplyContext} {source : LinkNode}
    {generation : ℕ} {session : String} {sequence : ℕ}
    (h : FromSource context context'.source context'.sourceGeneration context'.serviceSession
      context'.sourceSequence)
    (h' : FromSource context' source generation session sequence) :
    FromSource context source generation session sequence :=
  ⟨h'.source.trans h.source, h'.generation.trans h.generation, h'.session.trans h.session,
    h.sequence.trans h'.sequence⟩

theorem staleSequence_iff {current : Option PictureRecord} {tombstone : Option PictureTombstone}
    {context : PictureApplyContext} :
    SharedPicture.staleSequence current tombstone context = true ↔
      (∃ c, current = some c ∧
        FromSource context c.source c.sourceGeneration c.serviceSession c.sourceSequence) ∨
      (∃ t, tombstone = some t ∧
        FromSource context t.source t.sourceGeneration t.serviceSession t.sourceSequence) := by
  unfold SharedPicture.staleSequence sameSourceSession
  rw [Bool.or_eq_true, Option.any_eq_true, Option.any_eq_true]
  constructor
  · rintro (⟨c, rfl, hc⟩ | ⟨t, rfl, ht⟩)
    · simp only [Bool.and_eq_true, decide_eq_true_eq] at hc
      exact .inl ⟨c, rfl, hc.1.1.1, hc.1.1.2, hc.1.2, hc.2⟩
    · simp only [Bool.and_eq_true, decide_eq_true_eq] at ht
      exact .inr ⟨t, rfl, ht.1.1.1, ht.1.1.2, ht.1.2, ht.2⟩
  · rintro (⟨c, rfl, hc⟩ | ⟨t, rfl, ht⟩)
    · exact .inl ⟨c, rfl, by simp [hc.source, hc.generation, hc.session, hc.sequence]⟩
    · exact .inr ⟨t, rfl, by simp [ht.source, ht.generation, ht.session, ht.sequence]⟩

/-- The picture has, for a resource, something from the same run of the source and at least as
late: the sequence it got past the check with, or the record or tombstone it left. -/
def Overtaken (key : String) (context : PictureApplyContext) (p : SharedPicture) : Prop :=
  (∃ position, p.recordSourceSequences.get (recordSourceKey key context.source) = some position ∧
      FromSource context context.source position.generation position.session position.sequence) ∨
    SharedPicture.staleSequence (p.records.get key) (p.tombstones.get key) context = true

/-- The operation is a publication for the resource, from the same run of the source and at least
as late, that gets past the sequence check: it is applied, or older than what is held. -/
def Overtakes (key : String) (context : PictureApplyContext) (p : SharedPicture) :
    PictureOp → Prop
  | .apply publication' context' =>
    publication'.key = key ∧
      FromSource context context'.source context'.sourceGeneration context'.serviceSession
        context'.sourceSequence ∧
      ((p.apply env publication' context').2 = .applied ∨
        (p.apply env publication' context').2 = .rejected .staleRecord)
  | _ => False

/-- The IDs of Link nodes hold no colon. -/
def PictureOp.Valid : PictureOp → Prop
  | .apply _ context => ':' ∉ context.source.id.toList
  | _ => True

theorem takeWhile_colon {id : List Char} (h : ':' ∉ id) (rest : List Char) :
    (id ++ ':' :: rest).takeWhile (· ≠ ':') = id := by
  rw [List.takeWhile_append_of_pos]
  · simp
  · intro c hc
    simp only [ne_eq, decide_not, Bool.not_eq_true', decide_eq_false_iff_not]
    rintro rfl
    exact h hc

/-- Of valid nodes, the key tells resource and source apart. -/
theorem recordSourceKey_unique {key key' : String} {source source' : LinkNode}
    (hid : ':' ∉ source.id.toList) (hid' : ':' ∉ source'.id.toList)
    (h : recordSourceKey key source = recordSourceKey key' source') :
    key = key' ∧ source = source' := by
  obtain ⟨role, id⟩ := source
  obtain ⟨role', id'⟩ := source'
  have hlist := congrArg (fun s : String => s.toList.reverse) h
  simp only [recordSourceKey, nodeKey, String.toList_append, List.reverse_append] at hlist
  have hcolon : (":" : String).toList.reverse = [':'] := rfl
  simp only [hcolon, List.append_assoc, List.cons_append] at hlist
  have hids := congrArg (List.takeWhile (· ≠ ':')) hlist
  rw [takeWhile_colon (by simpa using hid), takeWhile_colon (by simpa using hid'),
    List.reverse_inj, String.toList_inj] at hids
  obtain rfl : id = id' := hids
  rw [List.append_cancel_left_eq, List.cons.injEq] at hlist
  have hrest := hlist.2
  cases role <;> cases role' <;> simp [LinkRole.text] at hrest <;>
    exact ⟨String.toList_inj.1 hrest, rfl⟩

variable {env} {p : SharedPicture}

/-- Taking a sequence back leaves those that were there before it was entered. -/
theorem rejectCapacity_positions {p₀ : SharedPicture} {key k : String}
    {entered position : RecordSourceSequence}
    (hp : p.recordSourceSequences = p₀.recordSourceSequences.set key entered)
    (h : (p.rejectCapacity key (p₀.recordSourceSequences.get key)).1.recordSourceSequences.get k =
      some position) :
    p₀.recordSourceSequences.get k = some position := by
  unfold SharedPicture.rejectCapacity at h
  rcases hbefore : p₀.recordSourceSequences.get key with _ | before
  · rw [hbefore] at h
    simp only [hp, OrderedMap.get_delete, OrderedMap.get_set] at h
    split_ifs at h
    exact h
  · rw [hbefore] at h
    simp only [hp, OrderedMap.get_set] at h
    split_ifs at h with hk
    · rw [hk, hbefore, h]
    · exact h

/-- A publication past the sequence check has entered its sequence where it is applied or turned
down as a stale record, and else leaves the sequences from before. -/
def Enters (p₀ : SharedPicture) (key : String) (entered : RecordSourceSequence)
    (outcome : SharedPicture × PictureApplyResult) : Prop :=
  ∀ k position, outcome.1.recordSourceSequences.get k = some position →
    p₀.recordSourceSequences.get k = some position ∨
      k = key ∧ position = entered ∧
        (outcome.2 = .applied ∨ outcome.2 = .rejected .staleRecord)

theorem Enters.of_eq {p₀ p' : SharedPicture} {key : String} {entered : RecordSourceSequence}
    {result : PictureApplyResult}
    (hp : p'.recordSourceSequences = p₀.recordSourceSequences.set key entered)
    (hresult : result = .applied ∨ result = .rejected .staleRecord) :
    Enters p₀ key entered (p', result) := by
  intro k position h
  simp only [hp, OrderedMap.get_set] at h
  split_ifs at h with hk
  · exact .inr ⟨hk, (Option.some.inj h).symm, hresult⟩
  · exact .inl h

theorem applyDeletion_enters {p₀ : SharedPicture} {key : String} {entered : RecordSourceSequence}
    (publication : StatePublication) (context : PictureApplyContext) (atlasVersion : ℕ)
    (current : Option PictureRecord) (asset : Option String)
    (hp : p.recordSourceSequences = p₀.recordSourceSequences.set key entered) :
    Enters p₀ key entered (p.applyDeletion env publication context atlasVersion current asset key
      (p₀.recordSourceSequences.get key)) := by
  unfold SharedPicture.applyDeletion
  dsimp only
  split_ifs
  · exact .of_eq hp (.inr rfl)
  · exact fun k position h => .inl (rejectCapacity_positions hp h)
  all_goals
    have hdegraded := degradeCurrent_sameBooks env current p
    have hretained : SameBooks (p.degradeCurrent env current)
        ((p.degradeCurrent env current).retainTombstone env publication.key
          (SharedPicture.tombstoneFor atlasVersion publication context)) := ⟨rfl, rfl⟩
    have hmarked := (hdegraded.trans hretained).trans (markAsset_sameBooks env asset false _)
  · exact .of_eq ((hmarked.trans (emit_sameBooks env _ _ _ _)).sequences.trans hp) (.inl rfl)
  · exact .of_eq (hmarked.sequences.trans hp) (.inl rfl)

theorem applyResource_enters {p₀ : SharedPicture} {key : String} {entered : RecordSourceSequence}
    (publication : StatePublication) (context : PictureApplyContext) (resource : Resource)
    (current : Option PictureRecord) (asset : Option String)
    (hp : p.recordSourceSequences = p₀.recordSourceSequences.set key entered) :
    Enters p₀ key entered (p.applyResource env publication context resource current asset key
      (p₀.recordSourceSequences.get key)) := by
  unfold SharedPicture.applyResource
  dsimp only
  split_ifs
  · exact .of_eq hp (.inr rfl)
  · exact fun k position h => .inl (rejectCapacity_positions hp h)
  · have hretained : SameBooks p (p.retainRecord env publication.key
        (SharedPicture.recordFor resource publication context
          (p.resourceFreshness resource current))) := ⟨rfl, rfl⟩
    have hconnected := hretained.trans (connectAsset_sameBooks asset context.receivedAt _)
    have htold := hconnected.trans (emit_sameBooks env _ .upsert publication.key
      (some (SharedPicture.recordFor resource publication context
        (p.resourceFreshness resource current))))
    have hmarked := htold.trans (markAsset_sameBooks env asset true _)
    exact .of_eq (hmarked.sequences.trans hp) (.inl rfl)

/-- A publication enters its sequence where it gets past the check and is not taken back. -/
theorem apply_positions (publication : StatePublication) (context : PictureApplyContext)
    (hx : Exclusive p) {k : String} {position : RecordSourceSequence}
    (h : (p.apply env publication context).1.recordSourceSequences.get k = some position) :
    p.recordSourceSequences.get k = some position ∨
      k = recordSourceKey publication.key context.source ∧ position.generation =
        context.sourceGeneration ∧ position.session = context.serviceSession ∧
        position.sequence = context.sourceSequence ∧
        ((p.apply env publication context).2 = .applied ∨
          (p.apply env publication context).2 = .rejected .staleRecord ∨
          SharedPicture.staleSequence (p.records.get publication.key)
            (p.tombstones.get publication.key) context = true) := by
  revert h
  unfold SharedPicture.apply
  dsimp only
  split_ifs
  · exact .inl
  have hsequences := @acceptSource_sequences env context p
  have htombstones := (acceptSource_refreshed env context hx).tombstones
  rcases haccepted : p.acceptSource env context with ⟨p₁, _ | reason⟩
  · rw [haccepted] at hsequences htombstones
    set p₂ := p₁.pruneRecordSourceSequences context.receivedAt
    have hpruned : ∀ {k position}, p₂.recordSourceSequences.get k = some position →
        p.recordSourceSequences.get k = some position :=
      fun h => hsequences (OrderedMap.mem_filter.1 h).1
    have hget : p₂.tombstones.get = p.tombstones.get := htombstones
    simp only
    unfold SharedPicture.applyAccepted
    dsimp only
    split_ifs with hbefore hfull hstale hnew
    · exact fun h => .inl (hpruned h)
    · exact fun h => .inl (hpruned h)
    · intro h
      rw [OrderedMap.get_set] at h
      split_ifs at h with hk
      · obtain rfl := Option.some.inj h
        exact .inr ⟨hk, rfl, rfl, rfl, .inr (.inr (hget ▸ hstale))⟩
      · exact .inl (hpruned h)
    · intro h
      rw [OrderedMap.get_set] at h
      split_ifs at h with hk
      · obtain rfl := Option.some.inj h
        exact .inr ⟨hk, rfl, rfl, rfl, .inr (.inl rfl)⟩
      · exact .inl (hpruned h)
    · split <;> intro h
      · rcases applyDeletion_enters publication context _ _ _ rfl k position h with
          h | ⟨hk, rfl, hresult⟩
        · exact .inl (hpruned h)
        · exact .inr ⟨hk, rfl, rfl, rfl, hresult.imp_right .inl⟩
      · rcases applyResource_enters publication context _ _ _ rfl k position h with
          h | ⟨hk, rfl, hresult⟩
        · exact .inl (hpruned h)
        · exact .inr ⟨hk, rfl, rfl, rfl, hresult.imp_right .inl⟩
  · rw [haccepted] at hsequences
    exact fun h => .inl (hsequences h)

/-- A publication comes too late for its sequence only where it is overtaken. -/
theorem apply_staleSequence (publication : StatePublication) (context : PictureApplyContext)
    (hx : Exclusive p) (h : (p.apply env publication context).2 = .rejected .staleSequence) :
    Overtaken publication.key context p := by
  revert h
  unfold SharedPicture.apply
  dsimp only
  split_ifs
  · intro h
    cases h
  have hsequences := @acceptSource_sequences env context p
  have htombstones := (acceptSource_refreshed env context hx).tombstones
  have hreason : (p.acceptSource env context).2 ≠ some .staleSequence := by
    unfold SharedPicture.acceptSource
    split_ifs
    · simp
    · dsimp only
      split_ifs <;> simp
  rcases haccepted : p.acceptSource env context with ⟨p₁, _ | reason⟩
  · rw [haccepted] at hsequences htombstones
    simp only
    unfold SharedPicture.applyAccepted
    dsimp only
    split_ifs with hbefore hfull hstale hnew <;> intro h
    · obtain ⟨position, hposition, hlater⟩ := (Option.any_eq_true _ _).1 hbefore
      simp only [Bool.and_eq_true, decide_eq_true_eq] at hlater
      exact .inl ⟨position, hsequences (OrderedMap.mem_filter.1 hposition).1, rfl, hlater.1.1,
        hlater.1.2, hlater.2⟩
    · cases h
    · exact .inr (htombstones ▸ hstale)
    · cases h
    · exfalso
      revert h
      unfold SharedPicture.applyDeletion SharedPicture.applyResource SharedPicture.rejectCapacity
      dsimp only
      split <;> split_ifs <;> simp
  · intro h
    rw [haccepted] at hreason
    cases h
    exact absurd rfl hreason

theorem staleSequence_core (current : Option PictureRecord) (tombstone : Option PictureTombstone)
    (context : PictureApplyContext) :
    SharedPicture.staleSequence (current.map PictureRecord.core) tombstone context =
      SharedPicture.staleSequence current tombstone context := by
  cases current <;> rfl

theorem expireConnectivity_sameBooks (now : ℕ) (p : SharedPicture) (id : String) :
    SameBooks p (p.expireConnectivity env now id) := by
  unfold SharedPicture.expireConnectivity
  split
  · exact .refl p
  · split_ifs
    · exact markSourceConnectivity_sameBooks env _ _ p
    · exact .refl p

theorem refreshRecord_sameBooks (now : ℕ) (p : SharedPicture) (key : String) :
    SameBooks p (p.refreshRecord env now key) := by
  unfold SharedPicture.refreshRecord
  dsimp only
  split
  · exact .refl p
  · rename_i record _
    have hdegraded := degradeCurrent_sameBooks env (some record) p
    split_ifs
    · have hremoved : SameBooks (p.degradeCurrent env (some record))
          ((p.degradeCurrent env (some record)).removeRecord key) := ⟨rfl, rfl⟩
      exact (hdegraded.trans hremoved).trans (emit_sameBooks env _ _ _ _)
    · have hretained : SameBooks (p.degradeCurrent env (some record))
          ((p.degradeCurrent env (some record)).retainRecord env key
            { record with freshness := .stale }) := ⟨rfl, rfl⟩
      exact (hdegraded.trans hretained).trans (emit_sameBooks env _ _ _ _)
    · exact .refl p

theorem refresh_positions (now : ℕ) {k : String} {position : RecordSourceSequence}
    (h : (p.refresh env now).recordSourceSequences.get k = some position) :
    p.recordSourceSequences.get k = some position := by
  unfold SharedPicture.refresh at h
  dsimp only at h
  rw [(foldl_sameBooks (refreshRecord_sameBooks now) _ _).sequences,
    (foldl_sameBooks (expireConnectivity_sameBooks now) _ _).sequences] at h
  exact (OrderedMap.mem_filter.1 h).1

variable {key : String} {context : PictureApplyContext}

/-- A sequence at least as late is entered by what overtakes, or beside a record or tombstone that
already was at least as late. -/
theorem position_step (hx : Exclusive p) (hid : ':' ∉ context.source.id.toList) (op : PictureOp)
    (hvalid : op.Valid) (hnot : ¬ Overtakes env key context p op) {position : RecordSourceSequence}
    (hposition : (op.run env p).recordSourceSequences.get (recordSourceKey key context.source) =
      some position)
    (hlater : FromSource context context.source position.generation position.session
      position.sequence) : Overtaken key context p := by
  cases op with
  | apply publication' context' =>
    rcases apply_positions publication' context' hx hposition with
      h | ⟨hk, hgeneration, hsession, hsequence, hresult⟩
    · exact .inl ⟨position, h, hlater⟩
    obtain ⟨rfl, hsource⟩ := recordSourceKey_unique hid hvalid hk
    have hfrom : FromSource context context'.source context'.sourceGeneration
        context'.serviceSession context'.sourceSequence :=
      ⟨hsource.symm, hgeneration.symm.trans hlater.generation, hsession.symm.trans hlater.session,
        hsequence ▸ hlater.sequence⟩
    rcases hresult with happlied | hstale | hheld
    · exact absurd ⟨rfl, hfrom, .inl happlied⟩ hnot
    · exact absurd ⟨rfl, hfrom, .inr hstale⟩ hnot
    · refine .inr (staleSequence_iff.2 ?_)
      rcases staleSequence_iff.1 hheld with ⟨c, hc, hfrom'⟩ | ⟨t, ht, hfrom'⟩
      · exact .inl ⟨c, hc, hfrom.trans hfrom'⟩
      · exact .inr ⟨t, ht, hfrom.trans hfrom'⟩
  | refresh now => exact .inl ⟨position, refresh_positions now hposition, hlater⟩
  | markSourceConnectivity source connected =>
    rw [PictureOp.run, (markSourceConnectivity_sameBooks env source connected p).sequences]
      at hposition
    exact .inl ⟨position, hposition, hlater⟩
  | activateSource source generation session _ =>
    have hsequences := activateSource_sequences env source generation session p hposition
    exact .inl ⟨position, hsequences, hlater⟩

/-- A record or tombstone at least as late is left by what overtakes. -/
theorem held_step (hx : Exclusive p) (op : PictureOp) (hnot : ¬ Overtakes env key context p op)
    (hheld : SharedPicture.staleSequence ((op.run env p).records.get key)
      ((op.run env p).tombstones.get key) context = true) :
    SharedPicture.staleSequence (p.records.get key) (p.tombstones.get key) context = true := by
  rw [← staleSequence_core] at hheld ⊢
  cases op with
  | apply publication' context' =>
    have heffect := apply_effect env publication' context' hx
    have hrun : PictureOp.run env p (.apply publication' context') =
        (p.apply env publication' context').1 := rfl
    have hnot' : ¬ (publication'.key = key ∧ FromSource context context'.source
        context'.sourceGeneration context'.serviceSession context'.sourceSequence ∧
        ((p.apply env publication' context').2 = .applied ∨
          (p.apply env publication' context').2 = .rejected .staleRecord)) := hnot
    rcases hresult : p.apply env publication' context' with ⟨p', result⟩
    rw [hrun, hresult] at hheld
    rw [hresult] at heffect hnot'
    cases heffect with
    | rejected h =>
      rw [h.records, h.tombstones] at hheld
      exact hheld
    | applied h =>
      by_cases hk : key = publication'.key
      · subst hk
        refine absurd ⟨rfl, ?_, .inl rfl⟩ hnot'
        have hentry := h.entry
        split at hentry
        · rw [hentry.1, hentry.2] at hheld
          rcases staleSequence_iff.1 hheld with ⟨c, hc, hfrom⟩ | ⟨t, ht, hfrom⟩
          · cases hc
          · cases ht
            exact hfrom
        · rw [hentry.1, hentry.2] at hheld
          rcases staleSequence_iff.1 hheld with ⟨c, hc, hfrom⟩ | ⟨t, ht, hfrom⟩
          · cases hc
            exact hfrom
          · cases ht
      · obtain ⟨hr, ht⟩ := h.elsewhere key hk
        rw [hr, ht] at hheld
        exact hheld
  | refresh now =>
    have hfaded := refresh_faded env now hx
    rw [PictureOp.run, hfaded.tombstones] at hheld
    rcases hfaded.records key with hr | hr
    · rw [hr] at hheld
      exact hheld
    · rw [hr] at hheld
      rcases staleSequence_iff.1 hheld with ⟨c, hc, -⟩ | ht
      · cases hc
      · exact staleSequence_iff.2 (.inr ht)
  | markSourceConnectivity source connected =>
    have h := markSourceConnectivity_refreshed env source connected hx
    rw [PictureOp.run, h.records, h.tombstones] at hheld
    exact hheld
  | activateSource source generation session _ =>
    have h := activateSource_refreshed env source generation session hx
    rw [PictureOp.run, h.records, h.tombstones] at hheld
    exact hheld

theorem overtaken_step (hx : Exclusive p) (hid : ':' ∉ context.source.id.toList) (op : PictureOp)
    (hvalid : op.Valid) (hnot : ¬ Overtakes env key context p op)
    (h : Overtaken key context (op.run env p)) : Overtaken key context p := by
  rcases h with ⟨position, hposition, hlater⟩ | hheld
  · exact position_step hx hid op hvalid hnot hposition hlater
  · exact .inr (held_step hx op hnot hheld)

/-- Operations none of which overtakes the publication. -/
def Undisturbed (env : PictureEnv) (key : String) (context : PictureApplyContext) :
    SharedPicture → List PictureOp → Prop
  | _, [] => True
  | p, op :: ops =>
    op.Valid ∧ ¬ Overtakes env key context p op ∧ Undisturbed env key context (op.run env p) ops

theorem overtaken_run (hid : ':' ∉ context.source.id.toList) :
    ∀ (ops : List PictureOp) {p : SharedPicture}, Exclusive p →
      Undisturbed env key context p ops →
      Overtaken key context (ops.foldl (PictureOp.run env) p) → Overtaken key context p
  | [], _, _, _, h => h
  | op :: ops, _, hx, ⟨hvalid, hnot, hrest⟩, h =>
    overtaken_step hx hid op hvalid hnot (overtaken_run hid ops (run_exclusive env op hx) hrest h)

/-- The publication is within the limits on Assets, on sources and on sequences, which are looked
at before its sequence is. -/
structure Admitted (env : PictureEnv) (publication : StatePublication)
    (context : PictureApplyContext) (p : SharedPicture) : Prop where
  asset : (p.connectivityAssetID publication context (p.records.get publication.key)).any
    (fun assetID => !p.canAdmitAsset assetID) = false
  source : ¬ (p.sources.get (nodeKey context.source) = none ∧
    linkSourceIdentityLimit ≤ p.sources.size)
  sequence : ¬ (((p.acceptSource env context).1.pruneRecordSourceSequences
        context.receivedAt).recordSourceSequences.get
          (recordSourceKey publication.key context.source) = none ∧
    recordSourceSequenceLimit ≤ ((p.acceptSource env context).1.pruneRecordSourceSequences
        context.receivedAt).recordSourceSequences.size)

/-- Taking a sequence back changes no entry. -/
theorem not_overtaken_rejectCapacity {p₀ : SharedPicture} {entered : RecordSourceSequence}
    (hp : p.recordSourceSequences =
      p₀.recordSourceSequences.set (recordSourceKey key context.source) entered)
    (hbefore : ∀ position,
      p₀.recordSourceSequences.get (recordSourceKey key context.source) = some position →
        ¬ FromSource context context.source position.generation position.session position.sequence)
    (hheld : ¬ SharedPicture.staleSequence (p.records.get key) (p.tombstones.get key) context =
      true) :
    ¬ Overtaken key context (p.rejectCapacity (recordSourceKey key context.source)
      (p₀.recordSourceSequences.get (recordSourceKey key context.source))).1 := by
  rintro (⟨position, hposition, hlater⟩ | hstale)
  · exact hbefore position (rejectCapacity_positions hp hposition) hlater
  · exact hheld hstale

/-- An entry that has no room has got past the sequence check. -/
theorem not_overtaken_of_admitted (publication : StatePublication)
    (hx : Exclusive p) (hadmitted : Admitted env publication context p)
    (h : (p.apply env publication context).2 = .rejected .capacity) :
    ¬ Overtaken publication.key context (p.apply env publication context).1 := by
  have hsequence := hadmitted.sequence
  have hrefreshed := acceptSource_refreshed env context hx
  have hsource : (p.acceptSource env context).2 ≠ some .capacity := by
    unfold SharedPicture.acceptSource
    rw [if_neg hadmitted.source]
    dsimp only
    split_ifs <;> simp
  revert h
  unfold SharedPicture.apply
  dsimp only
  rw [hadmitted.asset, if_neg Bool.false_ne_true]
  rcases haccepted : p.acceptSource env context with ⟨p₁, _ | reason⟩
  · rw [haccepted] at hsequence hrefreshed
    simp only
    unfold SharedPicture.applyAccepted
    dsimp only
    split_ifs with hbefore hfull hstale hnew <;> intro h
    · cases h
    · exact absurd hfull hsequence
    · cases h
    · cases h
    set p₂ := p₁.pruneRecordSourceSequences context.receivedAt
    have hpositions : ∀ position,
        p₂.recordSourceSequences.get (recordSourceKey publication.key context.source) =
            some position →
          ¬ FromSource context context.source position.generation position.session
            position.sequence := by
      intro position hposition hlater
      refine hbefore ((Option.any_eq_true _ _).2 ⟨position, hposition, ?_⟩)
      simp [hlater.generation, hlater.session, hlater.sequence]
    have hheld : ¬ SharedPicture.staleSequence (p₂.records.get publication.key)
        (p₂.tombstones.get publication.key) context = true := by
      rw [← staleSequence_core, show p₂.records.get = p₁.records.get from rfl, hrefreshed.records,
        staleSequence_core]
      exact hstale
    split at h
    · rw [applyDeletion_capacity env h]
      exact not_overtaken_rejectCapacity rfl hpositions hheld
    · rw [applyResource_capacity env h]
      exact not_overtaken_rejectCapacity rfl hpositions hheld
  · intro h
    rw [haccepted] at hsource
    cases h
    exact absurd rfl hsource

end Overtaking

/-- A publication turned down for capacity leaves what the activation of its source leaves, and is
not too late for its sequence when it comes again. -/
theorem capacity_keeps_sequence {env : PictureEnv} {p : SharedPicture} (hp : Reachable env p)
    (publication : StatePublication) (context : PictureApplyContext)
    (hid : ':' ∉ context.source.id.toList)
    (h : (p.apply env publication context).2 = .rejected .capacity) :
    (SameHoldings p (p.apply env publication context).1 ∨
      (∃ position, p.sources.get (nodeKey context.source) = some position ∧
          position.generation < context.sourceGeneration) ∧
        SameHoldings (p.activateSource env context.source context.sourceGeneration
          context.serviceSession).1 (p.apply env publication context).1) ∧
    (Admitted env publication context p ∨ ¬ Overtaken publication.key context p →
      ∀ ops : List PictureOp,
        Undisturbed env publication.key context (p.apply env publication context).1 ops →
        (SharedPicture.apply env publication context
          (ops.foldl (PictureOp.run env) (p.apply env publication context).1)).2 ≠
            .rejected .staleSequence) := by
  refine ⟨apply_capacity env h, fun hnew ops hops hstale => ?_⟩
  have hx := hp.exclusive env
  have hp' : Reachable env (p.apply env publication context).1 :=
    hp.step (.apply publication context)
  have hovertaken := overtaken_run hid ops (hp'.exclusive env) hops
    (apply_staleSequence publication context ((hp'.run env ops).exclusive env) hstale)
  rcases hnew with hadmitted | hnew
  · exact not_overtaken_of_admitted publication hx hadmitted h hovertaken
  · refine hnew (overtaken_step hx hid (.apply publication context) hid ?_ hovertaken)
    rintro ⟨-, -, hresult | hresult⟩
    · rw [h] at hresult
      cases hresult
    · rw [h] at hresult
      cases hresult

section SurveyTooLarge

/-- Where a survey takes all the room there is. -/
def surveyEnv : PictureEnv :=
  { plainEnv with
    recordBytes := fun record =>
      match record.state with
      | .object object => if object.content = "survey" then pictureRetainedBytesLimit else 400
      | _ => 400
    recordBytes_pos := by
      intro record
      split
      · split_ifs <;> decide
      · decide }

def mapPublication (version : ℕ) (content : String) : StatePublication :=
  ⟨.resource (.object ⟨"map-1", version, content⟩), "0", .gatewayFeed, .coreConfirmed, none, none⟩

/-- A sketch of the map, and a track that goes half a minute later. -/
def sketchedOps : List PictureOp :=
  [.apply (mapPublication 2 "sketch") (trackContext 1),
   .apply ⟨.resource trackResource, "0", .gatewayFeed, .coreConfirmed, none, none⟩ (trackContext 2)]

def sketched : SharedPicture := sketchedOps.foldl (PictureOp.run surveyEnv) .new

theorem capacity_keeps_sequence_survey :
    (SharedPicture.apply surveyEnv (mapPublication 3 "survey") (trackContext 3)
      ([PictureOp.refresh 30000].foldl (PictureOp.run surveyEnv)
        (sketched.apply surveyEnv (mapPublication 3 "survey") (trackContext 3)).1)).2 ≠
          .rejected .staleSequence :=
  (capacity_keeps_sequence (Reachable.run surveyEnv .new sketchedOps) (mapPublication 3 "survey")
    (trackContext 3) (by decide) (by decide +kernel)).2
    (.inl ⟨by decide +kernel, by decide +kernel, by decide +kernel⟩) [.refresh 30000]
    ⟨trivial, id, trivial⟩

/-- An Asset that has started again, as the source of a map that is too large. -/
def restartedContext : PictureApplyContext := ⟨⟨.asset, "uav-1"⟩, 2, "boot-2", 1, 0, by decide⟩

/-- A Task of an Asset that is connected. -/
def taskOfAsset : SharedPicture :=
  PictureOp.run surveyEnv .new (.apply
    ⟨.resource (.task ⟨"task-1", "uav-1", .pending, "0", "{}"⟩), "0", .field, .notRequired,
      none, none⟩
    ⟨⟨.asset, "uav-1"⟩, 1, "boot-1", 1, 0, plainBootId_ne⟩)

/-- Turned down for capacity, the first publication of an Asset's next run degrades its open Task
all the same; and where an older version of a resource is turned down as a stale record, an earlier
publication for which there was no room before comes too late once there is. -/
theorem capacity_rejection_disturbs :
    (Reachable surveyEnv taskOfAsset ∧
      (taskOfAsset.apply surveyEnv (mapPublication 3 "survey") restartedContext).2 =
        .rejected .capacity ∧
      (taskOfAsset.apply surveyEnv (mapPublication 3 "survey") restartedContext).1.records ≠
        taskOfAsset.records ∧
      (taskOfAsset.apply surveyEnv (mapPublication 3 "survey") restartedContext).1.revision ≠
        taskOfAsset.revision) ∧
    (Reachable surveyEnv sketched ∧
      let rejected := sketched.apply surveyEnv (mapPublication 3 "survey") (trackContext 3)
      let outdated := rejected.1.apply surveyEnv (mapPublication 1 "sketch") (trackContext 4)
      let freed := outdated.1.refresh surveyEnv 30000
      rejected.2 = .rejected .capacity ∧ outdated.2 = .rejected .staleRecord ∧
        freed.canRetain (recordKey .object "map-1") pictureRetainedBytesLimit = true ∧
        (freed.apply surveyEnv (mapPublication 3 "survey") (trackContext 3)).2 =
          .rejected .staleSequence) := by
  refine ⟨⟨.step _ .new, ?_, ?_, ?_⟩, Reachable.run surveyEnv .new sketchedOps, ?_⟩
  · decide +kernel
  · intro h
    have hfreshness := congrArg (fun records => (records.get "task:task-1").map (·.freshness)) h
    revert hfreshness
    decide +kernel
  · decide +kernel
  · decide +kernel

end SurveyTooLarge

end Atlas.Picture
