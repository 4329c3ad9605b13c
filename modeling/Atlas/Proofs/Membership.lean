import Atlas.Link.Membership

/-!
# Fresh generations

The changes of a path run one at a time: one that has begun follows on settled ones only. So the
file stays as the running change has read it until that writes it, and each generation returned for
an Asset is above those returned for it before, and never above the one in the file.
-/

namespace Atlas.Link.Membership

open MembershipStore

variable {checks : TextChecks} {s : MembershipStore} {id : ℕ} {m : Mutation}

theorem settled_iff {i : ℕ} :
    s.settled i = true ↔ ∃ m, s.mutations[i]? = some m ∧ m.stage.settled = true := by
  unfold MembershipStore.settled
  rw [Option.any_eq_true]

theorem getElem?_setStage (stage : MutationStage) (i : ℕ) :
    (s.setStage id stage).mutations[i]? =
      if i = id then (s.mutations[i]?).map fun m => { m with stage := stage }
      else s.mutations[i]? := by
  unfold setStage
  rw [List.getElem?_modify]
  by_cases hi : i = id
  · simp [hi]
  · rw [if_neg hi]
    cases s.mutations[i]? <;> simp [Ne.symm hi]

section Chaining

def MutationStage.begun : MutationStage → Bool
  | .waiting => false
  | _ => true

/-- The chain of changes: each is chained to the one before it, unless all before it are settled. -/
structure Chain (s : MembershipStore) : Prop where
  last : ∀ t, s.tail = some t → t + 1 = s.mutations.length
  dropped : s.tail = none → ∀ i < s.mutations.length, s.settled i = true
  first : ∀ i m, s.mutations[i]? = some m → m.previous = none → ∀ j < i, s.settled j = true
  next : ∀ i m p, s.mutations[i]? = some m → m.previous = some p → p + 1 = i
  begun : ∀ i m, s.mutations[i]? = some m → MutationStage.begun m.stage = true →
    ∀ j < i, s.settled j = true

theorem Chain.of_eq {s' : MembershipStore} (h : Chain s) (hmutations : s'.mutations = s.mutations)
    (htail : s'.tail = s.tail) : Chain s' := by
  have hsettled : ∀ i, s'.settled i = s.settled i := by
    intro i
    unfold MembershipStore.settled
    rw [hmutations]
  obtain ⟨hlast, hdropped, hfirst, hnext, hbegun⟩ := h
  constructor
  · rw [htail, hmutations]
    exact hlast
  · simp only [htail, hmutations, hsettled]
    exact hdropped
  · simp only [hmutations, hsettled]
    exact hfirst
  · rw [hmutations]
    exact hnext
  · simp only [hmutations, hsettled]
    exact hbegun

theorem begun_of_settled {stage : MutationStage} (h : stage.settled = true) :
    MutationStage.begun stage = true := by
  cases stage <;> first | rfl | cases h

/-- All changes up to a settled one are settled. -/
theorem Chain.settled_of_le (h : Chain s) {p j : ℕ} (hp : s.settled p = true) (hj : j ≤ p) :
    s.settled j = true := by
  rcases hj.eq_or_lt with rfl | hlt
  · exact hp
  · obtain ⟨m, hm, hsettled⟩ := settled_iff.1 hp
    exact h.begun p m hm (begun_of_settled hsettled) j hlt

theorem settled_setStage (hm : s.mutations[id]? = some m) (hunsettled : m.stage.settled = false)
    (stage : MutationStage) {j : ℕ} (hj : s.settled j = true) :
    (s.setStage id stage).settled j = true := by
  obtain ⟨m', hm', hsettled⟩ := settled_iff.1 hj
  have hne : j ≠ id := by
    rintro rfl
    rw [hm, Option.some.injEq] at hm'
    rw [← hm', hunsettled] at hsettled
    cases hsettled
  refine settled_iff.2 ⟨m', ?_, hsettled⟩
  rw [getElem?_setStage, if_neg hne, hm']

/-- A change goes on if all before it are settled. -/
theorem Chain.setStage (h : Chain s) (hm : s.mutations[id]? = some m)
    (hunsettled : m.stage.settled = false) (hready : ∀ j < id, s.settled j = true)
    (stage : MutationStage) : Chain (s.setStage id stage) := by
  have hkeep : ∀ j, s.settled j = true → (s.setStage id stage).settled j = true := fun _ hj =>
    settled_setStage hm hunsettled stage hj
  have hold : ∀ i m', (s.setStage id stage).mutations[i]? = some m' →
      ∃ m₀, s.mutations[i]? = some m₀ ∧ m'.previous = m₀.previous ∧ (i ≠ id → m' = m₀) := by
    intro i m' hi
    rw [getElem?_setStage] at hi
    split_ifs at hi with heq
    · obtain ⟨m₀, hm₀, rfl⟩ := Option.map_eq_some_iff.1 hi
      exact ⟨m₀, hm₀, rfl, fun hne => absurd heq hne⟩
    · exact ⟨m', hi, rfl, fun _ => rfl⟩
  have hlength : (s.setStage id stage).mutations.length = s.mutations.length :=
    List.length_modify ..
  refine ⟨fun t ht => ?_, fun hnone i hi => ?_, fun i m' hi hprevious j hj => ?_,
    fun i m' p hi hprevious => ?_, fun i m' hi hbegun j hj => ?_⟩
  · rw [hlength]
    exact h.last t ht
  · rw [hlength] at hi
    exact hkeep i (h.dropped hnone i hi)
  · obtain ⟨m₀, hm₀, heq, -⟩ := hold i m' hi
    exact hkeep j (h.first i m₀ hm₀ (heq ▸ hprevious) j hj)
  · obtain ⟨m₀, hm₀, heq, -⟩ := hold i m' hi
    exact h.next i m₀ p hm₀ (heq ▸ hprevious)
  · by_cases hid : i = id
    · exact hkeep j (hready j (hid ▸ hj))
    · obtain ⟨m₀, hm₀, -, heq⟩ := hold i m' hi
      rw [heq hid] at hbegun
      exact hkeep j (h.begun i m₀ hm₀ hbegun j hj)

/-- A change whose predecessor has settled follows on settled changes only. -/
theorem Chain.ready (h : Chain s) (hm : s.mutations[id]? = some m)
    (hprevious : ¬ (m.previous.any fun p => !s.settled p) = true) :
    ∀ j < id, s.settled j = true := by
  intro j hj
  rcases hp : m.previous with _ | p
  · exact h.first id m hm hp j hj
  · have hsettled : s.settled p = true := by simpa [hp] using hprevious
    have hnext := h.next id m p hm hp
    exact h.settled_of_le hsettled (by omega)

theorem Chain.mutate (h : Chain s) (kind : MutationKind) : Chain (s.mutate kind).1 := by
  have hkeep : ∀ j, s.settled j = true → (s.mutate kind).1.settled j = true := by
    intro j hj
    obtain ⟨m, hm, hsettled⟩ := settled_iff.1 hj
    refine settled_iff.2 ⟨m, ?_, hsettled⟩
    show (s.mutations ++ _)[j]? = _
    rw [List.getElem?_append_left (List.getElem?_eq_some_iff.1 hm).1, hm]
  have hold : ∀ i m, (s.mutate kind).1.mutations[i]? = some m →
      s.mutations[i]? = some m ∨ i = s.mutations.length ∧ m = ⟨kind, s.tail, .waiting⟩ := by
    intro i m hi
    have hi' : (s.mutations ++ [⟨kind, s.tail, .waiting⟩])[i]? = some m := hi
    rcases Nat.lt_trichotomy i s.mutations.length with hlt | rfl | hgt
    · rw [List.getElem?_append_left hlt] at hi'
      exact .inl hi'
    · rw [List.getElem?_concat_length, Option.some.injEq] at hi'
      exact .inr ⟨rfl, hi'.symm⟩
    · rw [List.getElem?_eq_none (by simpa using hgt)] at hi'
      cases hi'
  refine ⟨fun t ht => ?_, fun hnone => ?_, fun i m hi hprevious j hj => ?_,
    fun i m p hi hprevious => ?_, fun i m hi hbegun j hj => ?_⟩
  · have ht' : some s.mutations.length = some t := ht
    rw [← Option.some.inj ht']
    show _ = (s.mutations ++ _).length
    simp
  · have hnone' : some s.mutations.length = none := hnone
    cases hnone'
  · rcases hold i m hi with hi | ⟨rfl, rfl⟩
    · exact hkeep j (h.first i m hi hprevious j hj)
    · exact hkeep j (h.dropped hprevious j hj)
  · rcases hold i m hi with hi | ⟨rfl, rfl⟩
    · exact h.next i m p hi hprevious
    · exact h.last p hprevious
  · rcases hold i m hi with hi | ⟨rfl, rfl⟩
    · exact hkeep j (h.begun i m hi hbegun j hj)
    · cases hbegun

theorem Chain.dropTail (h : Chain s) : Chain s.dropTail := by
  unfold MembershipStore.dropTail
  split_ifs with hsettled
  · obtain ⟨t, ht, hsettled⟩ := (Option.any_eq_true _ _).1 hsettled
    refine ⟨nofun, fun _ i hi => ?_, h.first, h.next, h.begun⟩
    have hlast := h.last t ht
    have hi' : i < s.mutations.length := hi
    exact h.settled_of_le hsettled (by omega)
  · exact h

end Chaining

section Counting

/-- The generation of an Asset in the file; none has been admitted at 0. -/
def generation (file : GatewayMembership) (assetID : String) : ℕ :=
  (file.assetGenerations.get assetID).getD 0

/-- What a change at its stage holds is what the file has, but for the change it makes. -/
def Current (s : MembershipStore) (kind : MutationKind) : MutationStage → Prop
  | .preparing m sourceGeneration => m = s.file ∧
    ∀ assetID, kind = .admitAsset assetID → sourceGeneration = generation s.file assetID + 1
  | .writing m sourceGeneration =>
    match kind with
    | .activateGateway => m.assetGenerations = s.file.assetGenerations
    | .admitAsset assetID =>
      m.assetGenerations = s.file.assetGenerations.set assetID sourceGeneration ∧
        sourceGeneration = generation s.file assetID + 1
  | .syncing _ sourceGeneration =>
    ∀ assetID, kind = .admitAsset assetID → sourceGeneration = generation s.file assetID ∧
      ∀ r ∈ s.returned, r.1 = assetID → r.2 < sourceGeneration
  | _ => True

/-- The generations returned go up for each Asset, and the file's is not below them. -/
structure Counted (s : MembershipStore) : Prop where
  chain : Chain s
  current : ∀ (i : ℕ) (m : Mutation), s.mutations[i]? = some m → Current s m.kind m.stage
  persisted : ∀ r ∈ s.returned, r.2 ≤ generation s.file r.1
  increasing : s.returned.Pairwise fun r r' => r.1 = r'.1 → r.2 < r'.2

/-- A change that does not run holds nothing of the file. -/
theorem current_of_not_running {s : MembershipStore} {kind : MutationKind} {stage : MutationStage}
    (h : MutationStage.begun stage = true → stage.settled = true) : Current s kind stage := by
  unfold Current
  cases stage with
  | waiting => trivial
  | failed => trivial
  | succeeded m g => trivial
  | preparing m g => cases h rfl
  | writing m g => cases h rfl
  | syncing m g => cases h rfl

theorem generation_set (m : GatewayMembership) (assetID a : String) (g : ℕ) :
    generation { m with assetGenerations := m.assetGenerations.set assetID g } a =
      if a = assetID then g else generation m a := by
  unfold generation
  rw [OrderedMap.get_set]
  split_ifs <;> rfl

variable {s' : MembershipStore}

/-- One running change goes on; whatever it does to the file, all others hold nothing of it. -/
theorem Counted.advance (h : Counted s) (hm : s.mutations[id]? = some m)
    (hunsettled : m.stage.settled = false) (hready : ∀ j < id, s.settled j = true)
    {stage : MutationStage} (hmutations : s'.mutations = (s.setStage id stage).mutations)
    (htail : s'.tail = s.tail) (hcurrent : Current s' m.kind stage)
    (hpersisted : ∀ r ∈ s'.returned, r.2 ≤ generation s'.file r.1)
    (hincreasing : s'.returned.Pairwise fun r r' => r.1 = r'.1 → r.2 < r'.2) : Counted s' := by
  have hchain : Chain s' :=
    (h.chain.setStage hm hunsettled hready stage).of_eq hmutations htail
  refine ⟨hchain, fun i m' hi => ?_, hpersisted, hincreasing⟩
  rw [hmutations, getElem?_setStage] at hi
  split_ifs at hi with hid
  · rw [hid, hm, Option.map_some, Option.some.injEq] at hi
    rw [← hi]
    exact hcurrent
  · refine current_of_not_running fun hbegun => ?_
    by_contra hrunning
    rw [Bool.not_eq_true] at hrunning
    rcases Nat.lt_or_gt_of_ne hid with hlt | hlt
    · obtain ⟨m₁, hm₁, h₁⟩ := settled_iff.1 (hready i hlt)
      rw [hi, Option.some.injEq] at hm₁
      rw [← hm₁, hrunning] at h₁
      cases h₁
    · obtain ⟨m₁, hm₁, h₁⟩ := settled_iff.1 (h.chain.begun i m' hi hbegun id hlt)
      rw [hm, Option.some.injEq] at hm₁
      rw [← hm₁, hunsettled] at h₁
      cases h₁

/-- A change that fails leaves the file and what was returned as they are. -/
theorem Counted.fail (h : Counted s) (hm : s.mutations[id]? = some m)
    (hunsettled : m.stage.settled = false) (hready : ∀ j < id, s.settled j = true) :
    Counted (s.setStage id .failed) :=
  h.advance hm hunsettled hready rfl rfl trivial h.persisted h.increasing

theorem Counted.mutate (h : Counted s) (kind : MutationKind) : Counted (s.mutate kind).1 := by
  refine ⟨h.chain.mutate kind, fun i m hi => ?_, h.persisted, h.increasing⟩
  have hi' : (s.mutations ++ [⟨kind, s.tail, .waiting⟩])[i]? = some m := hi
  rcases List.mem_append.1 (List.mem_of_getElem? hi') with hmem | hmem
  · obtain ⟨j, hj⟩ := List.mem_iff_getElem?.1 hmem
    exact h.current j m hj
  · rw [List.mem_singleton.1 hmem]
    trivial

theorem Counted.admitAsset (h : Counted s) (assetID : String) :
    Counted (s.admitAsset checks assetID).1 := by
  unfold MembershipStore.admitAsset
  split_ifs
  · exact h.mutate _
  · exact h

theorem Counted.begin (h : Counted s) (id : ℕ) (readable : Bool) :
    Counted (s.begin checks id readable) := by
  unfold MembershipStore.begin
  split
  · rename_i kind previous hm
    split_ifs with hwait hread
    · exact h
    · refine h.advance hm rfl (h.chain.ready hm hwait) rfl rfl ?_ h.persisted h.increasing
      unfold changed
      cases kind with
      | activateGateway => exact rfl
      | admitAsset assetID =>
        simp only
        split_ifs
        · trivial
        · refine ⟨rfl, fun a ha => ?_⟩
          rw [MutationKind.admitAsset.injEq] at ha
          rw [← ha]
          rfl
    · exact h.fail hm rfl (h.chain.ready hm hwait)
  · exact h

theorem Counted.prepare (h : Counted s) (id : ℕ) (prepared : Bool) :
    Counted (s.prepare id prepared) := by
  unfold MembershipStore.prepare
  split
  · rename_i assetID previous m g hm
    have hready := h.chain.begun id _ hm rfl
    split_ifs
    · refine h.advance hm rfl hready rfl rfl ?_ h.persisted h.increasing
      obtain ⟨rfl, hg⟩ := h.current id _ hm
      exact ⟨rfl, hg assetID rfl⟩
    · exact h.fail hm rfl hready
  · exact h

theorem Counted.rename (h : Counted s) (id : ℕ) (written : Bool) :
    Counted (s.rename checks id written) := by
  unfold MembershipStore.rename
  split
  · rename_i kind previous m g hm
    have hready := h.chain.begun id _ hm rfl
    have hcurrent := h.current id _ hm
    split_ifs
    · cases kind with
      | activateGateway =>
        have hsame : ∀ a, generation m a = generation s.file a := by
          intro a
          unfold generation
          rw [show m.assetGenerations = s.file.assetGenerations from hcurrent]
        refine h.advance hm rfl hready rfl rfl ?_ (fun r hr => ?_) h.increasing
        · intro a ha
          cases ha
        · exact (h.persisted r hr).trans (hsame r.1).ge
      | admitAsset assetID =>
        obtain ⟨hset, hg⟩ := hcurrent
        have hnew : ∀ a, generation m a = if a = assetID then g else generation s.file a := by
          intro a
          rw [← generation_set s.file assetID a g]
          unfold generation
          rw [hset]
        refine h.advance hm rfl hready rfl rfl ?_ (fun r hr => ?_) h.increasing
        · intro a ha
          rw [MutationKind.admitAsset.injEq] at ha
          subst ha
          refine ⟨by rw [show (_ : MembershipStore).file = m from rfl, hnew, if_pos rfl],
            fun r hr hra => ?_⟩
          have := h.persisted r hr
          rw [hra] at this
          omega
        · have hle := h.persisted r hr
          show r.2 ≤ generation m r.1
          rw [hnew]
          split_ifs with ha
          · rw [ha] at hle
            omega
          · exact hle
    · exact h.fail hm rfl hready
  · exact h

theorem Counted.sync (h : Counted s) (id : ℕ) (synced : Bool) : Counted (s.sync id synced) := by
  unfold MembershipStore.sync
  split
  · rename_i kind previous m g hm
    have hready := h.chain.begun id _ hm rfl
    have hcurrent := h.current id _ hm
    split_ifs
    · cases kind with
      | activateGateway =>
        refine h.advance hm rfl hready rfl rfl trivial ?_ ?_
        · simpa [returns, setStage] using h.persisted
        · simpa [returns, setStage] using h.increasing
      | admitAsset assetID =>
        obtain ⟨hg, habove⟩ := hcurrent assetID rfl
        refine h.advance hm rfl hready rfl rfl trivial (fun r hr => ?_) ?_
        · rcases List.mem_append.1 hr with hr | hr
          · exact h.persisted r hr
          · rw [List.mem_singleton.1 hr]
            exact hg.le
        · refine List.pairwise_append.2 ⟨h.increasing, by simp [returns], fun r hr r' hr' heq => ?_⟩
          rw [List.mem_singleton.1 hr'] at heq ⊢
          exact habove r hr heq
    · exact h.fail hm rfl hready
  · exact h

theorem Counted.dropTail (h : Counted s) : Counted s.dropTail := by
  have hsame : s.dropTail.mutations = s.mutations ∧ s.dropTail.file = s.file ∧
      s.dropTail.returned = s.returned := by
    unfold MembershipStore.dropTail
    split_ifs <;> exact ⟨rfl, rfl, rfl⟩
  obtain ⟨hmutations, hfile, hreturned⟩ := hsame
  refine ⟨h.chain.dropTail, fun i m hi => ?_, ?_, ?_⟩
  · rw [hmutations] at hi
    have := h.current i m hi
    unfold Current at this ⊢
    rw [hfile, hreturned]
    exact this
  · rw [hreturned, hfile]
    exact h.persisted
  · rw [hreturned]
    exact h.increasing

theorem Counted.step (h : Counted s) (event : StoreEvent) : Counted (s.step checks event) := by
  cases event with
  | activateGateway => exact h.mutate _
  | admitAsset assetID => exact h.admitAsset assetID
  | begin id readable => exact h.begin id readable
  | prepare id prepared => exact h.prepare id prepared
  | rename id written => exact h.rename id written
  | sync id synced => exact h.sync id synced
  | dropTail => exact h.dropTail

theorem counted_new (file : GatewayMembership) : Counted ⟨file, [], none, []⟩ where
  chain := ⟨nofun, fun _ i hi => absurd hi (Nat.not_lt_zero i), fun i m hi => by simp at hi,
    fun i m p hi => by simp at hi, fun i m hi => by simp at hi⟩
  current i m hi := by simp at hi
  persisted r hr := by cases hr
  increasing := .nil

end Counting

end Atlas.Link.Membership
