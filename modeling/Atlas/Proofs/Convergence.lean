import Mathlib.Data.Set.Finite.Lemmas
import Atlas.Proofs.Supersession

/-!
# Convergence of the Shared Picture

Publications for one entity or object are delivered in any order and any number of times. The
picture holds the newest of what it was given: what is older is turned down, by the sequence of its
source or by its version, and what is newer passes every check. So the order does not matter.
-/

namespace Atlas.Picture

open Atlas.Link (LinkNode LinkRole ResourceType)

variable (env : PictureEnv)

/-- A publication as its source sends it. -/
structure Sent where
  publication : StatePublication
  source : LinkNode
  generation : ℕ
  session : String
  sequence : ℕ
  session_ne : session ≠ ""

/-- A publication as it arrives. -/
structure Delivery where
  sent : Sent
  receivedAt : ℕ

namespace Delivery

variable (d : Delivery)

def publication : StatePublication := d.sent.publication

def context : PictureApplyContext :=
  ⟨d.sent.source, d.sent.generation, d.sent.session, d.sent.sequence, d.receivedAt,
    d.sent.session_ne⟩

def run (p : SharedPicture) : SharedPicture := PictureOp.run env p (.apply d.publication d.context)

end Delivery

def Sent.version (s : Sent) : ℕ := (resourceVersion s.publication).getD 0

/-- Publications for one entity or object, at distinct versions; each source has one generation and
session, and its sequences go up with the version. -/
structure Feed (sent : List Sent) (type : ResourceType) (id : String) : Prop where
  type_ne : type ≠ .task
  key_eq : ∀ s ∈ sent, s.publication.key = recordKey type id
  distinct : ∀ s ∈ sent, ∀ s' ∈ sent, s.version = s'.version → s = s'
  sessions : ∀ s ∈ sent, ∀ s' ∈ sent, s.source = s'.source →
    s.generation = s'.generation ∧ s.session = s'.session
  sequences : ∀ s ∈ sent, ∀ s' ∈ sent, s.source = s'.source → s.version < s'.version →
    s.sequence < s'.sequence

/-- Every publication is delivered at least once, and nothing else is. -/
structure Delivers (sent : List Sent) (deliveries : List Delivery) : Prop where
  sent_mem : ∀ d ∈ deliveries, d.sent ∈ sent
  delivered : ∀ s ∈ sent, ∃ d ∈ deliveries, d.sent = s

def deliverAll (deliveries : List Delivery) : SharedPicture :=
  deliveries.foldl (fun p d => d.run env p) .new

/-- No delivery is refused for want of capacity, and no Asset that is a source finds the table of
Assets full. -/
def WithinCapacity (deliveries : List Delivery) : Prop :=
  ∀ earlier d later, deliveries = earlier ++ d :: later →
    ((deliverAll env earlier).apply env d.publication d.context).2 ≠ .rejected .capacity ∧
      (d.sent.source.role = .asset →
        (deliverAll env earlier).canAdmitAsset d.sent.source.id = true)

/-- What the picture holds of a resource is what this delivery brought. -/
def Holds (key : String) (p : SharedPicture) (d : Delivery) : Prop :=
  match d.publication.published with
  | .deleted _ _ atlasVersion _ =>
    p.records.get key = none ∧
      p.tombstones.get key = some (SharedPicture.tombstoneFor atlasVersion d.publication d.context)
  | .resource resource =>
    p.records.get key = some (SharedPicture.recordFor resource d.publication d.context .fresh) ∧
      p.tombstones.get key = none

/-- The record and the tombstone of a resource, but for when the record was received. -/
def SharedPicture.entry (p : SharedPicture) (key : String) :
    Option PictureRecord × Option PictureTombstone :=
  ((p.records.get key).map fun record => { record with receivedAt := 0 }, p.tombstones.get key)

section Books

def recordSourceKey (key : String) (source : LinkNode) : String :=
  key ++ "\x00" ++ nodeKey source

/-- The books of the sources say nothing new, except of the publication's own source. -/
structure Entered (key : String) (context : PictureApplyContext) (p p' : SharedPicture) : Prop where
  sources : ∀ k position, p'.sources.get k = some position → p.sources.get k = some position ∨
    k = nodeKey context.source ∧ position = ⟨context.sourceGeneration, context.serviceSession⟩
  sequences : ∀ k position, p'.recordSourceSequences.get k = some position →
    p.recordSourceSequences.get k = some position ∨
      k = recordSourceKey key context.source ∧ position.sequence = context.sourceSequence

variable {key : String} {context : PictureApplyContext} {p p' p'' : SharedPicture}

theorem Entered.refl : Entered key context p p :=
  ⟨fun _ _ h => .inl h, fun _ _ h => .inl h⟩

theorem Entered.trans (h : Entered key context p p') (h' : Entered key context p' p'') :
    Entered key context p p'' := by
  refine ⟨fun k position hk => ?_, fun k position hk => ?_⟩
  · rcases h'.sources k position hk with hk | hk
    · exact h.sources k position hk
    · exact .inr hk
  · rcases h'.sequences k position hk with hk | hk
    · exact h.sequences k position hk
    · exact .inr hk

/-- The books are left as they are. -/
structure SameBooks (p p' : SharedPicture) : Prop where
  sources : p'.sources = p.sources
  sequences : p'.recordSourceSequences = p.recordSourceSequences

theorem SameBooks.refl (p : SharedPicture) : SameBooks p p := ⟨rfl, rfl⟩

theorem SameBooks.trans (h : SameBooks p p') (h' : SameBooks p' p'') : SameBooks p p'' :=
  ⟨h'.sources.trans h.sources, h'.sequences.trans h.sequences⟩

theorem SameBooks.entered (h : SameBooks p p') : Entered key context p p' :=
  ⟨fun _ _ hk => .inl (h.sources ▸ hk), fun _ _ hk => .inl (h.sequences ▸ hk)⟩

theorem emit_sameBooks (p : SharedPicture) (type : PictureEventType) (key : String)
    (record : Option PictureRecord) : SameBooks p (p.emit env type key record) := by
  obtain ⟨events, sizes, retained, h⟩ := emit_eq env p type key record
  rw [h]
  exact ⟨rfl, rfl⟩

theorem markRecord_sameBooks (assetID : String) (connected : Bool) (p : SharedPicture)
    (key : String) : SameBooks p (p.markRecord env assetID connected key) := by
  unfold SharedPicture.markRecord
  dsimp only
  split
  · exact .refl p
  · rename_i record _
    by_cases h : SharedPicture.followsAsset record assetID = true ∧
        record.freshness ≠ (if connected then .fresh else .degraded)
    · rw [if_pos h]
      have hretained : SameBooks p (p.retainRecord env key
          { record with freshness := if connected then .fresh else .degraded }) := ⟨rfl, rfl⟩
      exact hretained.trans (emit_sameBooks env _ _ _ _)
    · rw [if_neg h]
      exact .refl p

theorem foldl_sameBooks {α : Type} {f : SharedPicture → α → SharedPicture}
    (h : ∀ p a, SameBooks p (f p a)) : ∀ (as : List α) (p : SharedPicture),
      SameBooks p (as.foldl f p)
  | [], p => .refl p
  | a :: as, p => (h p a).trans (foldl_sameBooks h as (f p a))

theorem markSourceConnectivity_sameBooks (source : LinkNode) (connected : Bool)
    (p : SharedPicture) : SameBooks p (p.markSourceConnectivity env source connected) := by
  unfold SharedPicture.markSourceConnectivity
  split_ifs
  · exact .refl p
  · have hstart : SameBooks p { p with
        assetConnectivity :=
          p.assetConnectivity.modify source.id fun c => { c with connected := connected } } :=
      ⟨rfl, rfl⟩
    exact hstart.trans (foldl_sameBooks (markRecord_sameBooks env source.id connected) _ _)

theorem degradeCurrent_sameBooks (current : Option PictureRecord) (p : SharedPicture) :
    SameBooks p (p.degradeCurrent env current) := by
  unfold SharedPicture.degradeCurrent SharedPicture.degradeTasksForExpiredAsset
  split
  · split
    · split_ifs
      · exact markSourceConnectivity_sameBooks env _ _ p
      · exact .refl p
    · exact .refl p
  · exact .refl p

theorem markAsset_sameBooks (assetID : Option String) (connected : Bool) (p : SharedPicture) :
    SameBooks p (p.markAsset env assetID connected) := by
  unfold SharedPicture.markAsset
  split
  · exact markSourceConnectivity_sameBooks env _ _ p
  · exact .refl p

theorem connectAsset_sameBooks (assetID : Option String) (receivedAt : ℕ) (p : SharedPicture) :
    SameBooks p (p.connectAsset assetID receivedAt) := by
  unfold SharedPicture.connectAsset
  split
  · exact ⟨rfl, rfl⟩
  · exact .refl p

theorem introduceAsset_sameBooks (source : LinkNode) (p : SharedPicture) :
    SameBooks p (p.introduceAsset source) := by
  unfold SharedPicture.introduceAsset
  split_ifs
  · exact ⟨rfl, rfl⟩
  · exact .refl p

/-- A new generation drops the sequences of its source. -/
theorem supersedeSource_books (source : LinkNode) (generation : ℕ) (p : SharedPicture) :
    (p.supersedeSource env source generation).sources = p.sources ∧
      ∀ k position,
        (p.supersedeSource env source generation).recordSourceSequences.get k = some position →
          p.recordSourceSequences.get k = some position := by
  unfold SharedPicture.supersedeSource
  split_ifs
  · have hmarked := markSourceConnectivity_sameBooks env source false p
    refine ⟨hmarked.sources, fun k position hk => ?_⟩
    rw [← hmarked.sequences]
    exact (OrderedMap.mem_filter.1 hk).1
  · exact ⟨rfl, fun _ _ hk => hk⟩

theorem activateSource_sequences (source : LinkNode) (generation : ℕ) (session : String)
    (p : SharedPicture) {k : String} {position : RecordSourceSequence}
    (h : (p.activateSource env source generation session).1.recordSourceSequences.get k =
      some position) : p.recordSourceSequences.get k = some position := by
  have hintroduced := introduceAsset_sameBooks source p
  revert h
  unfold SharedPicture.activateSource
  dsimp only
  split_ifs <;> intro h
  · exact h
  · exact h
  · exact h
  · exact hintroduced.sequences ▸ h
  · rw [← hintroduced.sequences]
    exact (supersedeSource_books env source generation _).2 k position h

theorem acceptSource_sequences (context : PictureApplyContext) (p : SharedPicture) {k : String}
    {position : RecordSourceSequence}
    (h : (p.acceptSource env context).1.recordSourceSequences.get k = some position) :
    p.recordSourceSequences.get k = some position := by
  revert h
  unfold SharedPicture.acceptSource
  split_ifs <;> intro h
  · exact h
  · exact activateSource_sequences env _ _ _ p h

theorem activateSource_sources (context : PictureApplyContext) (p : SharedPicture) {k : String}
    {position : SourcePosition}
    (h : (p.activateSource env context.source context.sourceGeneration
      context.serviceSession).1.sources.get k = some position) :
    p.sources.get k = some position ∨
      k = nodeKey context.source ∧ position = ⟨context.sourceGeneration, context.serviceSession⟩ := by
  have hintroduced := introduceAsset_sameBooks context.source p
  revert h
  unfold SharedPicture.activateSource
  dsimp only
  split_ifs <;> intro h
  · exact .inl h
  · exact .inl h
  · exact .inl h
  · exact .inl (hintroduced.sources ▸ h)
  · rw [OrderedMap.get_set] at h
    split_ifs at h with hkey
    · exact .inr ⟨hkey, (Option.some.inj h).symm⟩
    · have hsuperseded := (supersedeSource_books env context.source context.sourceGeneration
        (p.introduceAsset context.source)).1
      rw [hsuperseded, hintroduced.sources] at h
      exact .inl h

theorem acceptSource_entered (context : PictureApplyContext) (p : SharedPicture) :
    Entered key context p (p.acceptSource env context).1 := by
  refine ⟨fun k position hk => ?_, fun k position hk => .inl (acceptSource_sequences env context p hk)⟩
  revert hk
  unfold SharedPicture.acceptSource
  split_ifs <;> intro hk
  · exact .inl hk
  · exact activateSource_sources env context p hk

theorem prune_entered (now : ℕ) (p : SharedPicture) :
    Entered key context p (p.pruneRecordSourceSequences now) :=
  ⟨fun _ _ hk => .inl hk, fun _ _ hk => .inl (OrderedMap.mem_filter.1 hk).1⟩

/-- The sequence of the publication's source is entered, or taken back. -/
theorem rejectCapacity_entered {before : Option RecordSourceSequence} {p₀ p : SharedPicture}
    (hbefore : before = p₀.recordSourceSequences.get (recordSourceKey key context.source))
    (h : Entered key context p₀ p) :
    Entered key context p₀ (p.rejectCapacity (recordSourceKey key context.source) before).1 := by
  refine ⟨h.sources, fun k position hk => ?_⟩
  unfold SharedPicture.rejectCapacity at hk
  rcases before with _ | position₀
  · have hdelete := hk
    rw [OrderedMap.get_delete] at hdelete
    split_ifs at hdelete
    exact h.sequences k position hdelete
  · have hset := hk
    rw [OrderedMap.get_set] at hset
    split_ifs at hset with hkey
    · rw [hkey, ← hbefore, hset]
      exact .inl rfl
    · exact h.sequences k position hset

theorem applyDeletion_entered (publication : StatePublication) (atlasVersion : ℕ)
    (current : Option PictureRecord) (asset : Option String)
    {before : Option RecordSourceSequence} {p₀ p : SharedPicture}
    (hbefore : before = p₀.recordSourceSequences.get (recordSourceKey key context.source))
    (h : Entered key context p₀ p) :
    Entered key context p₀ (p.applyDeletion env publication context atlasVersion current asset
      (recordSourceKey key context.source) before).1 := by
  unfold SharedPicture.applyDeletion
  dsimp only
  split_ifs
  · exact h
  · exact rejectCapacity_entered hbefore h
  all_goals
    have hdegraded := degradeCurrent_sameBooks env current p
    have hretained : SameBooks (p.degradeCurrent env current)
        ((p.degradeCurrent env current).retainTombstone env publication.key
          (SharedPicture.tombstoneFor atlasVersion publication context)) := ⟨rfl, rfl⟩
    have hmarked := (hdegraded.trans hretained).trans (markAsset_sameBooks env asset false _)
  · exact h.trans (hmarked.trans (emit_sameBooks env _ _ _ _)).entered
  · exact h.trans hmarked.entered

theorem applyResource_entered (publication : StatePublication) (resource : Resource)
    (current : Option PictureRecord) (asset : Option String)
    {before : Option RecordSourceSequence} {p₀ p : SharedPicture}
    (hbefore : before = p₀.recordSourceSequences.get (recordSourceKey key context.source))
    (h : Entered key context p₀ p) :
    Entered key context p₀ (p.applyResource env publication context resource current asset
      (recordSourceKey key context.source) before).1 := by
  unfold SharedPicture.applyResource
  dsimp only
  split_ifs
  · exact h
  · exact rejectCapacity_entered hbefore h
  · have hretained : SameBooks p (p.retainRecord env publication.key
        (SharedPicture.recordFor resource publication context
          (p.resourceFreshness resource current))) := ⟨rfl, rfl⟩
    have hconnected := hretained.trans (connectAsset_sameBooks asset context.receivedAt _)
    have htold := hconnected.trans (emit_sameBooks env _ .upsert publication.key
      (some (SharedPicture.recordFor resource publication context
        (p.resourceFreshness resource current))))
    exact h.trans (htold.trans (markAsset_sameBooks env asset true _)).entered

theorem applyAccepted_entered (publication : StatePublication) (current : Option PictureRecord)
    (asset : Option String) (p : SharedPicture) :
    Entered publication.key context p
      (p.applyAccepted env publication context current asset).1 := by
  unfold SharedPicture.applyAccepted
  dsimp only
  have hset : Entered publication.key context p { p with
      recordSourceSequences :=
        p.recordSourceSequences.set (recordSourceKey publication.key context.source)
          ⟨nodeKey context.source, context.sourceGeneration, context.serviceSession,
            context.sourceSequence, context.receivedAt⟩ } := by
    refine ⟨fun _ _ hk => .inl hk, fun k position hk => ?_⟩
    have hget := hk
    rw [OrderedMap.get_set] at hget
    split_ifs at hget with hkey
    · exact .inr ⟨hkey, by rw [← Option.some.inj hget]⟩
    · exact .inl hget
  split_ifs
  · exact .refl
  · exact .refl
  · exact hset
  · exact hset
  · split
    · exact applyDeletion_entered env publication _ current asset rfl hset
    · exact applyResource_entered env publication _ current asset rfl hset

theorem apply_entered (publication : StatePublication) (context : PictureApplyContext)
    (p : SharedPicture) :
    Entered publication.key context p (p.apply env publication context).1 := by
  unfold SharedPicture.apply
  dsimp only
  split_ifs
  · exact .refl
  · have haccepted := @acceptSource_entered env publication.key context p
    rcases hresult : p.acceptSource env context with ⟨p', _ | reason⟩
    · rw [hresult] at haccepted
      exact (haccepted.trans (prune_entered context.receivedAt p')).trans
        (applyAccepted_entered env publication _ _ _)
    · rw [hresult] at haccepted
      exact haccepted

end Books

/-- A later version is newer than any record of an earlier one. -/
theorem isNewer_of_lt {publication : StatePublication} {context : PictureApplyContext}
    {record : PictureRecord} {version version' : ℕ}
    (hnext : resourceVersion publication = some version')
    (hcurrent : record.atlasVersion = some version) (h : version < version') :
    isNewer env publication record context = true := by
  unfold isNewer
  rw [hnext, hcurrent]
  have hne : version' ≠ version := by omega
  simp [hne, h]

section Applying

variable {publication : StatePublication} {context : PictureApplyContext} {p : SharedPicture}

/-- A source that goes on in its generation and session is accepted while there is room. -/
theorem acceptSource_none
    (hsource : ∀ position, p.sources.get (nodeKey context.source) = some position →
      position = ⟨context.sourceGeneration, context.serviceSession⟩)
    (hasset : context.source.role = .asset → p.canAdmitAsset context.source.id = true) :
    (p.acceptSource env context).2 = none ∨ (p.acceptSource env context).2 = some .capacity := by
  unfold SharedPicture.acceptSource
  by_cases hfull : p.sources.get (nodeKey context.source) = none ∧
      linkSourceIdentityLimit ≤ p.sources.size
  · rw [if_pos hfull]
    exact .inr rfl
  · rw [if_neg hfull]
    refine .inl ?_
    have haccepted : (p.activateSource env context.source context.sourceGeneration
        context.serviceSession).2 = true := by
      unfold SharedPicture.activateSource
      dsimp only
      rw [if_neg hfull]
      have hfence : ¬ ((p.sources.get (nodeKey context.source)).any fun c =>
          context.sourceGeneration < c.generation ||
            (context.sourceGeneration = c.generation && context.serviceSession ≠ c.session)) := by
        rcases hposition : p.sources.get (nodeKey context.source) with _ | position
        · simp
        · simp [hsource position hposition]
      have hroom : ¬ ((context.source.role = .asset ∧
          p.assetConnectivity.has context.source.id = false) ∧
            linkSourceIdentityLimit ≤ p.assetConnectivity.size) := by
        rintro ⟨⟨hrole, hnew⟩, hsize⟩
        have hadmit := hasset hrole
        simp only [SharedPicture.canAdmitAsset, hnew, Bool.false_or, decide_eq_true_eq] at hadmit
        omega
      rw [if_neg hfence, if_neg hroom]
      split_ifs <;> rfl
    simp [haccepted]

/-- A publication that passes every check is applied. -/
theorem apply_applied
    (hcapacity : (p.apply env publication context).2 ≠ .rejected .capacity)
    (hasset : context.source.role = .asset → p.canAdmitAsset context.source.id = true)
    (hsource : ∀ position, p.sources.get (nodeKey context.source) = some position →
      position = ⟨context.sourceGeneration, context.serviceSession⟩)
    (hsequence : ∀ position,
      p.recordSourceSequences.get (recordSourceKey publication.key context.source) =
        some position → position.sequence < context.sourceSequence)
    (hx : Exclusive p)
    (hrecord : ∀ r, p.records.get publication.key = some r →
      isNewer env publication r context = true ∧
        (r.source = context.source → r.sourceSequence < context.sourceSequence))
    (htombstone : ∀ t, p.tombstones.get publication.key = some t →
      canReplaceTombstone publication t = true ∧
        (t.source = context.source → t.sourceSequence < context.sourceSequence)) :
    (p.apply env publication context).2 = .applied := by
  revert hcapacity
  unfold SharedPicture.apply
  dsimp only
  split_ifs with hadmit
  · exact fun h => absurd rfl h
  have hrefreshed := acceptSource_refreshed env context hx
  have haccept := acceptSource_none env hsource hasset
  rcases hresult : p.acceptSource env context with ⟨p₁, reason⟩
  rw [hresult] at hrefreshed haccept
  rcases haccept with rfl | rfl
  swap
  · exact fun h => absurd rfl h
  have htombstones : (p₁.pruneRecordSourceSequences context.receivedAt).tombstones.get
      publication.key = p.tombstones.get publication.key := congrFun hrefreshed.tombstones _
  have hsequence₁ : ∀ position, (p₁.pruneRecordSourceSequences context.receivedAt).recordSourceSequences.get
      (recordSourceKey publication.key context.source) = some position →
        position.sequence < context.sourceSequence := by
    intro position hposition
    have hkept : p₁.recordSourceSequences.get (recordSourceKey publication.key context.source) =
        some position := (OrderedMap.mem_filter.1 hposition).1
    refine hsequence position (acceptSource_sequences env context p ?_)
    rw [hresult]
    exact hkept
  set p₂ := p₁.pruneRecordSourceSequences context.receivedAt
  have hfence : ¬ ((p₂.recordSourceSequences.get
      (publication.key ++ "\x00" ++ nodeKey context.source)).any fun b =>
        b.generation = context.sourceGeneration && b.session = context.serviceSession &&
          context.sourceSequence ≤ b.sequence) = true := by
    show ¬ ((p₂.recordSourceSequences.get
      (recordSourceKey publication.key context.source)).any _) = true
    rcases hposition : p₂.recordSourceSequences.get
      (recordSourceKey publication.key context.source) with _ | position
    · simp
    · have := hsequence₁ position hposition
      simp [this]
  have hstale : SharedPicture.staleSequence (p.records.get publication.key)
      (p.tombstones.get publication.key) context = false := by
    have hcurrent : ((p.records.get publication.key).any fun c =>
        sameSourceSession c context && context.sourceSequence ≤ c.sourceSequence) = false := by
      rcases hr : p.records.get publication.key with _ | r
      · rfl
      · have hlt := (hrecord r hr).2
        by_cases hsame : r.source = context.source
        · have := hlt hsame
          simp [this]
        · simp [sameSourceSession, hsame]
    have hburied : ((p.tombstones.get publication.key).any fun t =>
        t.source = context.source && t.sourceGeneration = context.sourceGeneration &&
          t.serviceSession = context.serviceSession &&
            context.sourceSequence ≤ t.sourceSequence) = false := by
      rcases ht : p.tombstones.get publication.key with _ | t
      · rfl
      · have hlt := (htombstone t ht).2
        by_cases hsame : t.source = context.source
        · have := hlt hsame
          simp [this]
        · simp [hsame]
    unfold SharedPicture.staleSequence
    rw [hcurrent, hburied]
    rfl
  have hnew : ¬ ((p.records.get publication.key).any fun c =>
      !isNewer env publication c context) = true := by
    rcases hr : p.records.get publication.key with _ | r
    · simp
    · simp [(hrecord r hr).1]
  have hreplace : ¬ ((p.tombstones.get publication.key).any fun t =>
      !canReplaceTombstone publication t) = true := by
    rcases ht : p.tombstones.get publication.key with _ | t
    · simp
    · simp [(htombstone t ht).1]
  dsimp only
  unfold SharedPicture.applyAccepted
  dsimp only
  rw [if_neg hfence]
  by_cases hfull : p₂.recordSourceSequences.get
      (publication.key ++ "\x00" ++ nodeKey context.source) = none ∧
        recordSourceSequenceLimit ≤ p₂.recordSourceSequences.size
  · rw [if_pos hfull]
    exact fun h => absurd rfl h
  rw [if_neg hfull, htombstones, hstale, if_neg Bool.false_ne_true, if_neg hnew]
  split
  · unfold SharedPicture.applyDeletion SharedPicture.rejectCapacity
    dsimp only
    rw [htombstones, if_neg hreplace]
    split_ifs
    · exact fun h => absurd rfl h
    · exact fun _ => rfl
    · exact fun _ => rfl
  · unfold SharedPicture.applyResource SharedPicture.rejectCapacity
    dsimp only
    rw [htombstones, if_neg hreplace]
    split_ifs
    · exact fun h => absurd rfl h
    · exact fun _ => rfl

end Applying

section Delivering

variable {env} {sent : List Sent} {type : ResourceType} {id : String}

theorem LinkRole.nodeKey_inj {source source' : LinkNode} (h : nodeKey source = nodeKey source') :
    source = source' := by
  obtain ⟨role, id⟩ := source
  obtain ⟨role', id'⟩ := source'
  have hlist := congrArg String.toList h
  simp only [nodeKey, String.toList_append] at hlist
  cases role <;> cases role' <;> simp [LinkRole.text] at hlist <;>
    simpa [String.toList_inj] using hlist

theorem recordSourceKey_inj {key : String} {source source' : LinkNode}
    (h : recordSourceKey key source = recordSourceKey key source') : source = source' := by
  refine LinkRole.nodeKey_inj ?_
  have hlist := congrArg String.toList h
  simp only [recordSourceKey, String.toList_append, List.append_assoc, List.append_cancel_left_eq] at hlist
  exact String.toList_inj.1 hlist

theorem Feed.version_eq (hfeed : Feed sent type id) {s : Sent} (hs : s ∈ sent) :
    resourceVersion s.publication = some s.version := by
  obtain ⟨version, h⟩ := version_of_key hfeed.type_ne (hfeed.key_eq s hs)
  unfold Sent.version
  rw [h]
  rfl

/-- After some deliveries the picture holds the newest of them, and of their sources it has entered
only what they brought. -/
structure Converged (sent : List Sent) (key : String) (deliveries : List Delivery)
    (p : SharedPicture) : Prop where
  exclusive : Exclusive p
  sources : ∀ s ∈ sent, ∀ position, p.sources.get (nodeKey s.source) = some position →
    position = ⟨s.generation, s.session⟩
  sequences : ∀ source position,
    p.recordSourceSequences.get (recordSourceKey key source) = some position →
      ∃ d ∈ deliveries, d.sent.source = source ∧ d.sent.sequence = position.sequence
  untouched : deliveries = [] → p.records.get key = none ∧ p.tombstones.get key = none
  newest : deliveries ≠ [] →
    ∃ d ∈ deliveries, (∀ d' ∈ deliveries, d'.sent.version ≤ d.sent.version) ∧ Holds key p d

theorem Converged.new (sent : List Sent) (key : String) : Converged sent key [] .new where
  exclusive _ _ hr := nomatch hr
  sources _ _ _ h := nomatch h
  sequences _ _ h := nomatch h
  untouched _ := ⟨rfl, rfl⟩
  newest h := absurd rfl h

/-- What is not newer than what is held leaves it as it is. -/
theorem Holds.of_refreshed {key : String} {p p' : SharedPicture} {d : Delivery}
    (htask : ∀ resource, d.publication.published = .resource resource → resource.isTask = false)
    (h : Holds key p d) (hrefreshed : Refreshed p p') : Holds key p' d := by
  unfold Holds at *
  split at h
  · refine ⟨?_, by rw [hrefreshed.tombstones]; exact h.2⟩
    have hnone := hrefreshed.records key
    rw [h.1, Option.map_none, Option.map_eq_none_iff] at hnone
    exact hnone
  · rename_i resource hpublished
    exact ⟨hrefreshed.others key _ h.1 (htask resource hpublished),
      by rw [hrefreshed.tombstones]; exact h.2⟩

theorem Feed.isTask (hfeed : Feed sent type id) {s : Sent} (hs : s ∈ sent) {resource : Resource}
    (hpublished : s.publication.published = .resource resource) : resource.isTask = false := by
  have hkey := recordKey_inj (show recordKey _ _ = _ from hfeed.key_eq s hs)
  rw [hpublished] at hkey
  cases resource with
  | entity e => rfl
  | object o => rfl
  | task t => exact absurd hkey.symm hfeed.type_ne

variable (env) in
/-- A publication that is delivered again is not newer than itself. -/
theorem isNewer_again {d d' : Delivery} (hsame : d'.sent = d.sent) {version : ℕ}
    (hversion : resourceVersion d.publication = some version) (resource : Resource) :
    isNewer env d'.publication (SharedPicture.recordFor resource d.publication d.context .fresh)
      d'.context = false := by
  obtain ⟨s, receivedAt⟩ := d
  obtain ⟨s', receivedAt'⟩ := d'
  subst hsame
  unfold isNewer newerSourceGeneration sameSourceSession
  unfold Delivery.publication at hversion
  simp [Delivery.publication, Delivery.context, SharedPicture.recordFor, hversion]

/-- What a delivery has put in the picture is replaced only by a later version. -/
theorem Holds.lt_of_superseded (hfeed : Feed sent type id) {p p' : SharedPicture}
    {d d' : Delivery} (hd : d.sent ∈ sent) (hd' : d'.sent ∈ sent)
    (hholds : Holds (recordKey type id) p d)
    (h : Superseded env d'.publication d'.context p p') : d.sent.version < d'.sent.version := by
  have hkey : d'.publication.key = recordKey type id := hfeed.key_eq _ hd'
  have hnext : resourceVersion d'.publication = some d'.sent.version := hfeed.version_eq hd'
  have hversion : resourceVersion d.publication = some d.sent.version := hfeed.version_eq hd
  unfold Holds at hholds
  split at hholds
  · rename_i atlasVersion _ hpublished
    have hreplace := h.replaces _ (hkey ▸ hholds.2)
    rw [canReplaceTombstone_iff hnext] at hreplace
    have hsame : atlasVersion = d.sent.version := by
      unfold resourceVersion at hversion
      rw [hpublished] at hversion
      exact Option.some.inj hversion
    rcases hreplace with hlt | ⟨heq, hrank⟩
    · exact hsame ▸ hlt
    · have : d'.sent = d.sent := hfeed.distinct _ hd' _ hd (heq.trans hsame)
      unfold Delivery.publication at hrank
      rw [this] at hrank
      exact absurd hrank (lt_irrefl _)
  · have hnewer := h.newer _ (hkey ▸ hholds.1)
    have hle := le_of_isNewer env hnext hversion hnewer
    by_contra hlt
    have hsame : d'.sent = d.sent := hfeed.distinct _ hd' _ hd (by omega)
    rw [isNewer_again env hsame hversion] at hnewer
    cases hnewer

/-- What has been applied is held. -/
theorem Holds.of_superseded (hfeed : Feed sent type id) {p p' : SharedPicture} {d : Delivery}
    (hd : d.sent ∈ sent) (h : Superseded env d.publication d.context p p') :
    Holds (recordKey type id) p' d := by
  have hkey : d.publication.key = recordKey type id := hfeed.key_eq _ hd
  have hentry := h.entry
  rw [hkey] at hentry
  unfold Holds
  split
  · rename_i hpublished
    rw [hpublished] at hentry
    exact hentry
  · rename_i resource hpublished
    rw [hpublished] at hentry
    have hrecord := h.others resource hpublished (hfeed.isTask hd hpublished)
    rw [hkey] at hrecord
    exact ⟨hrecord, hentry.2⟩

/-- A delivery that is newer than all before is applied. -/
theorem Converged.applied (hfeed : Feed sent type id) {deliveries : List Delivery}
    {p : SharedPicture} (hp : Converged sent (recordKey type id) deliveries p)
    (hsent : ∀ d ∈ deliveries, d.sent ∈ sent) {d : Delivery} (hd : d.sent ∈ sent)
    (hcapacity : (p.apply env d.publication d.context).2 ≠ .rejected .capacity)
    (hasset : d.sent.source.role = .asset → p.canAdmitAsset d.sent.source.id = true)
    (hnewest : ∀ d' ∈ deliveries, d'.sent.version < d.sent.version) :
    (p.apply env d.publication d.context).2 = .applied := by
  have hkey : d.publication.key = recordKey type id := hfeed.key_eq _ hd
  have hnext : resourceVersion d.publication = some d.sent.version := hfeed.version_eq hd
  -- what came from the same source came before, with a lower version
  have hlower : ∀ d' ∈ deliveries, d'.sent.source = d.sent.source →
      d'.sent.sequence < d.sent.sequence := by
    intro d' hd' hsource
    exact hfeed.sequences _ (hsent d' hd') _ hd hsource (hnewest d' hd')
  refine apply_applied env hcapacity hasset (hp.sources _ hd) ?_ hp.exclusive ?_ ?_
  · intro position hposition
    rw [hkey] at hposition
    obtain ⟨d', hd', hsource, hsequence⟩ := hp.sequences _ position hposition
    exact hsequence ▸ hlower d' hd' hsource
  all_goals
    rw [hkey]
    intro held hheld
    by_cases hempty : deliveries = []
    · have := hp.untouched hempty
      simp_all
    obtain ⟨top, htop, -, hholds⟩ := hp.newest hempty
    have hversion : resourceVersion top.publication = some top.sent.version :=
      hfeed.version_eq (hsent top htop)
    have hlt := hnewest top htop
    unfold Holds at hholds
    split at hholds
  · rw [hholds.1] at hheld
    cases hheld
  · obtain rfl : _ = held := Option.some.inj (hholds.1.symm.trans hheld)
    refine ⟨?_, fun hsource => hlower top htop hsource⟩
    exact isNewer_of_lt env hnext hversion hlt
  · rename_i atlasVersion _ hpublished
    obtain rfl : _ = held := Option.some.inj (hholds.2.symm.trans hheld)
    refine ⟨?_, fun hsource => hlower top htop hsource⟩
    rw [canReplaceTombstone_iff hnext]
    have hsame : atlasVersion = top.sent.version := by
      unfold resourceVersion at hversion
      rw [hpublished] at hversion
      exact Option.some.inj hversion
    exact .inl (hsame ▸ hlt)
  · rw [hholds.2] at hheld
    cases hheld

theorem Converged.step (hfeed : Feed sent type id) {deliveries : List Delivery}
    {p : SharedPicture} (hp : Converged sent (recordKey type id) deliveries p)
    (hsent : ∀ d ∈ deliveries, d.sent ∈ sent) {d : Delivery} (hd : d.sent ∈ sent)
    (hcapacity : (p.apply env d.publication d.context).2 ≠ .rejected .capacity)
    (hasset : d.sent.source.role = .asset → p.canAdmitAsset d.sent.source.id = true) :
    Converged sent (recordKey type id) (deliveries ++ [d]) (d.run env p) := by
  have hkey : d.publication.key = recordKey type id := hfeed.key_eq _ hd
  have hentered := apply_entered env d.publication d.context p
  rw [hkey] at hentered
  refine ⟨run_exclusive env _ hp.exclusive, ?_, ?_, fun hempty => by simp at hempty, fun _ => ?_⟩
  · intro s hs position hposition
    rcases hentered.sources _ position hposition with hold | ⟨hsame, rfl⟩
    · exact hp.sources s hs position hold
    · obtain ⟨hgeneration, hsession⟩ := hfeed.sessions _ hd _ hs (LinkRole.nodeKey_inj hsame).symm
      show SourcePosition.mk d.sent.generation d.sent.session = _
      rw [hgeneration, hsession]
  · intro source position hposition
    rcases hentered.sequences _ position hposition with hold | ⟨hsame, hsequence⟩
    · obtain ⟨d', hd', h⟩ := hp.sequences source position hold
      exact ⟨d', List.mem_append_left _ hd', h⟩
    · exact ⟨d, by simp, (recordSourceKey_inj hsame).symm, hsequence.symm⟩
  have heffect := apply_effect env d.publication d.context hp.exclusive
  have happlied := hp.applied hfeed hsent hd hcapacity hasset
  have hrun : d.run env p = (p.apply env d.publication d.context).1 := rfl
  rcases hresult : p.apply env d.publication d.context with ⟨p', result⟩
  rw [hresult] at heffect hrun happlied
  rw [hrun]
  by_cases hnewest : ∀ d' ∈ deliveries, d'.sent.version < d.sent.version
  · refine ⟨d, by simp, ?_, ?_⟩
    · intro d' hd'
      rcases List.mem_append.1 hd' with hd' | hd'
      · exact (hnewest d' hd').le
      · rw [List.mem_singleton.1 hd']
    · cases heffect with
      | rejected h => exact absurd (happlied hnewest) (by simp)
      | applied h => exact .of_superseded hfeed hd h
  · push Not at hnewest
    obtain ⟨d₁, hd₁, hle₁⟩ := hnewest
    obtain ⟨top, htop, hmax, hholds⟩ := hp.newest (List.ne_nil_of_mem hd₁)
    have hle : d.sent.version ≤ top.sent.version := hle₁.trans (hmax d₁ hd₁)
    refine ⟨top, List.mem_append_left _ htop, ?_, ?_⟩
    · intro d' hd'
      rcases List.mem_append.1 hd' with hd' | hd'
      · exact hmax d' hd'
      · rw [List.mem_singleton.1 hd']
        exact hle
    · cases heffect with
      | rejected h =>
        exact hholds.of_refreshed (fun resource => hfeed.isTask (hsent top htop)) h
      | applied h =>
        have hlt := hholds.lt_of_superseded hfeed (hsent top htop) hd h
        omega

theorem converged (hfeed : Feed sent type id) (deliveries : List Delivery)
    (hsent : ∀ d ∈ deliveries, d.sent ∈ sent) (hcapacity : WithinCapacity env deliveries) :
    Converged sent (recordKey type id) deliveries (deliverAll env deliveries) := by
  induction deliveries using List.reverseRecOn with
  | nil => exact .new sent _
  | append_singleton deliveries d ih =>
    have hbefore : Converged sent (recordKey type id) deliveries (deliverAll env deliveries) := by
      refine ih (fun d' hd' => hsent d' (List.mem_append_left _ hd')) ?_
      intro earlier d' later heq
      exact hcapacity earlier d' (later ++ [d]) (by rw [heq]; simp)
    obtain ⟨hroom, hasset⟩ := hcapacity deliveries d [] rfl
    have hstep := hbefore.step hfeed (fun d' hd' => hsent d' (List.mem_append_left _ hd'))
      (hsent d (by simp)) hroom hasset
    unfold deliverAll at *
    rw [List.foldl_append]
    exact hstep

/-- Deliveries of one publication leave the same entry, but for the time. -/
theorem Holds.entry_eq {key : String} {p p' : SharedPicture} {d d' : Delivery}
    (h : Holds key p d) (h' : Holds key p' d') (hsame : d.sent = d'.sent) :
    p.entry key = p'.entry key := by
  obtain ⟨s, receivedAt⟩ := d
  obtain ⟨s', receivedAt'⟩ := d'
  subst hsame
  unfold Holds Delivery.publication at h h'
  unfold SharedPicture.entry
  split at h <;> rename_i hpublished <;> rw [hpublished] at h'
  · rw [h.1, h.2, h'.1, h'.2]
    rfl
  · rw [h.1, h.2, h'.1, h'.2]
    rfl

end Delivering

/-- The picture converges: whatever the order, and however often each publication is delivered, it
holds the one with the highest version. -/
theorem picture_convergence {env : PictureEnv} {sent : List Sent} {type : ResourceType}
    {id : String} (hfeed : Feed sent type id) {deliveries deliveries' : List Delivery}
    (h : Delivers sent deliveries) (h' : Delivers sent deliveries')
    (hcapacity : WithinCapacity env deliveries) (hcapacity' : WithinCapacity env deliveries') :
    (deliverAll env deliveries).entry (recordKey type id) =
        (deliverAll env deliveries').entry (recordKey type id) ∧
      ∀ top ∈ sent, (∀ s ∈ sent, s.version ≤ top.version) →
        ∃ d ∈ deliveries, d.sent = top ∧
          Holds (recordKey type id) (deliverAll env deliveries) d := by
  have hheld := converged hfeed deliveries h.sent_mem hcapacity
  have hheld' := converged hfeed deliveries' h'.sent_mem hcapacity'
  have hfind : ∀ {ds : List Delivery}, Delivers sent ds →
      Converged sent (recordKey type id) ds (deliverAll env ds) → ∀ top ∈ sent,
        (∀ s ∈ sent, s.version ≤ top.version) →
          ∃ d ∈ ds, d.sent = top ∧ Holds (recordKey type id) (deliverAll env ds) d := by
    intro ds hds hc top htop hmax
    obtain ⟨d₀, hd₀, hsent₀⟩ := hds.delivered top htop
    obtain ⟨d, hd, hnewest, hholds⟩ := hc.newest (List.ne_nil_of_mem hd₀)
    refine ⟨d, hd, hfeed.distinct _ (hds.sent_mem d hd) _ htop ?_, hholds⟩
    have hle := hnewest d₀ hd₀
    have hge := hmax d.sent (hds.sent_mem d hd)
    rw [hsent₀] at hle
    omega
  refine ⟨?_, hfind h hheld⟩
  rcases sent with _ | ⟨s₀, rest⟩
  · have hnil : ∀ {ds : List Delivery}, Delivers [] ds → ds = [] := by
      intro ds hds
      exact List.eq_nil_iff_forall_not_mem.2 fun d hd => nomatch hds.sent_mem d hd
    rw [hnil h, hnil h']
  · obtain ⟨top, htop, hmax⟩ : ∃ top ∈ s₀ :: rest, ∀ s ∈ s₀ :: rest, s.version ≤ top.version :=
      Set.exists_max_image {s | s ∈ s₀ :: rest} Sent.version (List.finite_toSet _)
        ⟨s₀, List.mem_cons_self⟩
    obtain ⟨d, -, hd, hholds⟩ := hfind h hheld top htop hmax
    obtain ⟨d', -, hd', hholds'⟩ := hfind h' hheld' top htop hmax
    exact hholds.entry_eq hholds' (hd.trans hd'.symm)

section Twice

def mapDrawn : Sent :=
  ⟨olderObject, ⟨.asset, "uav-1"⟩, 1, "boot-1", 4, plainBootId_ne⟩

def mapDeleted : Sent :=
  ⟨deletedObject, ⟨.gateway, "gw"⟩, 1, "boot-1", 9, plainBootId_ne⟩

theorem map_feed : Feed [mapDrawn, mapDeleted] .object "map-1" where
  type_ne := by decide
  key_eq := by decide +kernel
  distinct := by
    intro s hs s' hs' h
    simp only [List.mem_cons, List.not_mem_nil, or_false] at hs hs'
    rcases hs with rfl | rfl <;> rcases hs' with rfl | rfl
    · rfl
    · exact absurd h (by decide)
    · exact absurd h (by decide)
    · rfl
  sessions := by decide +kernel
  sequences := by decide +kernel

theorem withinCapacity_nil : WithinCapacity plainEnv [] := by
  intro earlier d later heq
  simp at heq

theorem WithinCapacity.snoc {env : PictureEnv} {deliveries : List Delivery} {d : Delivery}
    (h : WithinCapacity env deliveries)
    (hd : ((deliverAll env deliveries).apply env d.publication d.context).2 ≠ .rejected .capacity ∧
      (d.sent.source.role = .asset →
        (deliverAll env deliveries).canAdmitAsset d.sent.source.id = true)) :
    WithinCapacity env (deliveries ++ [d]) := by
  intro earlier d' later heq
  rcases List.eq_nil_or_concat later with rfl | ⟨later', last, rfl⟩
  · obtain ⟨rfl, hlast⟩ := List.append_inj' heq rfl
    rw [← List.singleton_inj.1 hlast]
    exact hd
  · rw [List.concat_eq_append, ← List.cons_append, ← List.append_assoc] at heq
    exact h earlier d' later' (List.append_inj_left' heq rfl)

/-- A drawn map and its deletion, in order, and with the deletion first and once more at the end. -/
theorem picture_convergence_deleted :
    (deliverAll plainEnv [⟨mapDrawn, 0⟩, ⟨mapDeleted, 5⟩]).entry (recordKey .object "map-1") =
      (deliverAll plainEnv [⟨mapDeleted, 1⟩, ⟨mapDrawn, 7⟩, ⟨mapDeleted, 9⟩]).entry
        (recordKey .object "map-1") :=
  (picture_convergence map_feed ⟨by simp, by simp⟩ ⟨by simp, by simp⟩
    (.snoc (.snoc withinCapacity_nil (d := ⟨mapDrawn, 0⟩) (by decide +kernel)) (by decide +kernel))
    (.snoc (.snoc (.snoc withinCapacity_nil (d := ⟨mapDeleted, 1⟩) (by decide +kernel))
      (d := ⟨mapDrawn, 7⟩) (by decide +kernel)) (by decide +kernel))).1

end Twice

end Atlas.Picture
