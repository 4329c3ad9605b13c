import Atlas.Proofs.Filtering
import Atlas.Proofs.ResponseCache
import Atlas.SourceGateway.Execute

/-!
# What the calls do to a connector's attempts

Numbers of attempts are not used again, so each belongs to the call that has begun it, and is
unresolved as long as this call has not settled it. Nobody else settles it, since a call settles
only what it has begun. What the cache holds has been received by a call for the key.
-/

namespace Atlas.SourceGateway

open Config Interleaving

section Connectors

variable {settings : CircuitBreakerSettings} {c : Connector}

/-- The same attempts are unresolved, and as many have begun. -/
def Connector.SameAttempts (c c' : Connector) : Prop :=
  c'.breakerAttempts = c.breakerAttempts ∧ c'.breakerSerial = c.breakerSerial

theorem sameAttempts_settle_recompute (c : Connector) : c.SameAttempts
    ((c.settleExpiredBreakerGroupsLocked settings).recomputeBreakerLocked settings) := by
  show c.SameAttempts (c.settleExpiredBreakerGroupsLocked settings)
  unfold Connector.settleExpiredBreakerGroupsLocked
  split_ifs
  · exact ⟨rfl, rfl⟩
  · exact ⟨rfl, rfl⟩

theorem sameAttempts_expire (c : Connector) (now : ℕ) :
    c.SameAttempts (c.expireBreakerLocked settings now) := by
  unfold Connector.expireBreakerLocked
  split_ifs
  · exact ⟨rfl, rfl⟩
  · dsimp only
    split
    · split_ifs
      · exact ⟨rfl, rfl⟩
      · exact sameAttempts_settle_recompute _
      · exact ⟨rfl, rfl⟩
      · exact sameAttempts_settle_recompute _
    · split_ifs
      · exact ⟨rfl, rfl⟩
      · exact sameAttempts_settle_recompute _

theorem Connector.SameAttempts.trans {c' c'' : Connector} (h : c.SameAttempts c')
    (h' : c'.SameAttempts c'') : c.SameAttempts c'' :=
  ⟨h'.1.trans h.1, h'.2.trans h.2⟩

/-- An attempt is resolved, and no other one. -/
def Connector.Resolves (c c' : Connector) (begun : ℕ) : Prop :=
  c'.breakerAttempts = c.breakerAttempts.erase begun ∧ c'.breakerSerial = c.breakerSerial

theorem Connector.Resolves.same {c' c'' : Connector} {begun : ℕ} (h : c.Resolves c' begun)
    (h' : c'.SameAttempts c'') : c.Resolves c'' begun :=
  ⟨h'.1.trans h.1, h'.2.trans h.2⟩

theorem resolves_of_not_mem {begun : ℕ} (h : begun ∉ c.breakerAttempts) : c.Resolves c begun :=
  ⟨(Finset.erase_eq_of_notMem h).symm, rfl⟩

theorem resolves_finishBreakerFailure (c : Connector) (observedAt begun : ℕ)
    (order : BreakerOrder) :
    c.Resolves (c.finishBreakerFailure settings observedAt begun order) begun := by
  unfold Connector.finishBreakerFailure
  split_ifs with hmem
  · refine Connector.Resolves.same ?_
      ((sameAttempts_settle_recompute _).trans (sameAttempts_expire _ observedAt))
    split_ifs
    · exact ⟨rfl, rfl⟩
    · exact ⟨rfl, rfl⟩
  · exact resolves_of_not_mem hmem

theorem resolves_finishBreakerReachable (c : Connector) (observedAt begun : ℕ)
    (order : BreakerOrder) :
    c.Resolves (c.finishBreakerReachable settings observedAt begun order) begun := by
  unfold Connector.finishBreakerReachable
  split_ifs with hmem
  · refine Connector.Resolves.same ?_
      ((sameAttempts_settle_recompute _).trans (sameAttempts_expire _ observedAt))
    split_ifs
    · exact ⟨rfl, rfl⟩
    · exact ⟨rfl, rfl⟩
  · exact resolves_of_not_mem hmem

theorem resolves_discardBreakerAttempt (c : Connector) (begun : ℕ) :
    c.Resolves (c.discardBreakerAttempt settings begun) begun := by
  unfold Connector.discardBreakerAttempt
  split_ifs with hmem
  · have htake : c.Resolves (c.take begun) begun := ⟨rfl, rfl⟩
    exact htake.same (sameAttempts_settle_recompute _)
  · exact resolves_of_not_mem hmem

/-- An attempt that begins gets the next number; one that is refused changes no attempts. -/
theorem tryBeginAttempt_attempts (settings : CircuitBreakerSettings) (c : Connector)
    (expiredBefore expiredAfter : Bool) (now : ℕ) :
    match c.tryBeginAttempt settings expiredBefore expiredAfter now with
    | (c', .error _) => c.SameAttempts c'
    | (c', .ok begun) => begun = c.breakerSerial + 1 ∧ c'.breakerSerial = begun
        ∧ c'.breakerAttempts = insert begun c.breakerAttempts := by
  have hexpire : c.SameAttempts (c.expireBreakerLocked settings now) := sameAttempts_expire c now
  unfold Connector.tryBeginAttempt
  dsimp only
  split_ifs
  · exact ⟨rfl, rfl⟩
  · exact hexpire
  · exact hexpire
  · refine ⟨?_, rfl, ?_⟩
    · show _ + 1 = _ + 1
      rw [hexpire.2]
    · show insert _ _ = insert _ _
      rw [hexpire.1]

end Connectors

section Contracts

variable {lib : WireLibrary} {deployment : Deployment} (sha256 : Bytes → Bytes)

/-- How many attempts a call may make. -/
def GatewayCall.maxAttempts (call : GatewayCall lib deployment) : ℤ :=
  match call.connector.prepare call.input with
  | .ok (_, rule) => rule.retry.maxRetries + 1
  | .error _ => 0

/-- A call has received the response, which may be kept under the key. -/
def GatewayCall.Received (call : GatewayCall lib deployment) (l : Ledger) (key : GoString)
    (response : ConnectorResponse) : Prop :=
  ∃ prepared rule answer, call.connector.prepare call.input = .ok (prepared, rule) ∧
    key = requestCacheKey sha256 call.connector.config.id prepared ∧ 0 < rule.cacheTTLMS ∧
    (prepared, answer) ∈ l.received ∧ call.connector.attempt rule answer = .ok response

def Ledger.attempts (l : Ledger) : List ℕ := l.begun.map Prod.snd

def Ledger.resolved (l : Ledger) : List ℕ := l.settled.map Prod.fst

/-- A call has begun the attempt, and not settled it. -/
def Ledger.Unsettled (l : Ledger) (begun : ℕ) : Prop := begun ∈ l.attempts ∧ begun ∉ l.resolved

/-- A call begins no more attempts than it may make, settles what it has begun, and puts into the
cache what it has received. -/
def GatewayCall.contract (call : GatewayCall lib deployment) : Contract GatewayOp Ledger where
  pre
    | l, .tryBeginAttempt _ => l.begun.length < call.maxAttempts
    | l, .finishBreakerFailure _ begun _ => l.Unsettled begun
    | l, .finishBreakerReachable _ begun _ => l.Unsettled begun
    | l, .discardBreakerAttempt begun => l.Unsettled begun
    | l, .cachePut key response _ => call.Received sha256 l key response
    | _, _ => True
  post
    | l, .tryBeginAttempt _, (.ok begun, _) => begun ∉ l.attempts
    | _, _, _ => True
  after := Ledger.after

end Contracts

section Calls

variable {lib : WireLibrary} {deployment : Deployment} {sha256 : Bytes → Bytes}

theorem GatewayCall.Received.mono {call : GatewayCall lib deployment} {l l' : Ledger}
    {key : GoString} {response : ConnectorResponse} (h : call.Received sha256 l key response)
    (hreceived : l.received ⊆ l'.received) : call.Received sha256 l' key response := by
  obtain ⟨prepared, rule, answer, hprepare, hkey, httl, hanswer, hresponse⟩ := h
  exact ⟨prepared, rule, answer, hprepare, hkey, httl, hreceived hanswer, hresponse⟩

abbrev GatewayCall.connectorID (call : GatewayCall lib deployment) : GoString :=
  call.connector.config.id

variable {ι : Type} (sha256) (calls : ι → GatewayCall lib deployment)

/-- A response for the key has been received by one of the calls. -/
def ReceivedBy (known : ι → Ledger) (key : GoString) (response : ConnectorResponse) : Prop :=
  ∃ i, (calls i).Received sha256 (known i) key response

/-- What the calls have done to the connectors and the cache. -/
structure Tracked (known : ι → Ledger) (s : GatewayState) : Prop where
  bounded : ∀ i, (known i).begun.length ≤ (calls i).maxAttempts
  numbered : ∀ i, ∀ begun ∈ (known i).attempts,
    begun ≤ (s.connectors (calls i).connectorID).breakerSerial
  unresolved : ∀ i, ∀ begun ∈ (known i).attempts,
    begun ∈ (s.connectors (calls i).connectorID).breakerAttempts ↔ begun ∉ (known i).resolved
  settled : ∀ i, (known i).resolved ⊆ (known i).attempts
  apart : ∀ i j, i ≠ j → (calls i).connectorID = (calls j).connectorID →
    ∀ begun ∈ (known i).attempts, begun ∉ (known j).attempts
  owned : ∀ id, ∀ begun ∈ (s.connectors id).breakerAttempts,
    ∃ i, (calls i).connectorID = id ∧ begun ∈ (known i).attempts
  cached : ∀ key entry, s.cache.entries.get key = some entry →
    ReceivedBy sha256 calls known key entry.response
  found : ∀ i, ∀ f ∈ (known i).found, ReceivedBy sha256 calls known f.1 f.2

variable {sha256 calls} {known known' : ι → Ledger} {s s' : GatewayState}

theorem ReceivedBy.mono {key : GoString} {response : ConnectorResponse}
    (h : ReceivedBy sha256 calls known key response)
    (hreceived : ∀ i, (known i).received ⊆ (known' i).received) :
    ReceivedBy sha256 calls known' key response := by
  obtain ⟨i, hi⟩ := h
  exact ⟨i, hi.mono (hreceived i)⟩

/-- The same attempts have begun and been settled, and nothing received is forgotten. -/
structure Ledger.Extends (l l' : Ledger) : Prop where
  begun_eq : l'.begun = l.begun
  settled_eq : l'.settled = l.settled
  received : l.received ⊆ l'.received

theorem Tracked.extend (h : Tracked sha256 calls known s)
    (hknown : ∀ i, (known i).Extends (known' i))
    (hconnectors : ∀ id, (s.connectors id).SameAttempts (s'.connectors id))
    (hcached : ∀ key entry, s'.cache.entries.get key = some entry →
      s.cache.entries.get key = some entry ∨ ReceivedBy sha256 calls known key entry.response)
    (hfound : ∀ i, ∀ f ∈ (known' i).found,
      f ∈ (known i).found ∨ ReceivedBy sha256 calls known f.1 f.2) :
    Tracked sha256 calls known' s' := by
  have hattempts : ∀ i, (known' i).attempts = (known i).attempts := fun i => by
    unfold Ledger.attempts
    rw [(hknown i).begun_eq]
  have hresolved : ∀ i, (known' i).resolved = (known i).resolved := fun i => by
    unfold Ledger.resolved
    rw [(hknown i).settled_eq]
  have hreceived : ∀ i, (known i).received ⊆ (known' i).received := fun i => (hknown i).received
  refine ⟨fun i => ?_, fun i begun hbegun => ?_, fun i begun hbegun => ?_, fun i => ?_,
    fun i j hij hid begun hbegun => ?_, fun id begun hbegun => ?_, fun key entry hget => ?_,
    fun i f hf => ?_⟩
  · rw [(hknown i).begun_eq]
    exact h.bounded i
  · rw [hattempts] at hbegun
    rw [(hconnectors _).2]
    exact h.numbered i begun hbegun
  · rw [hattempts] at hbegun
    rw [(hconnectors _).1, hresolved]
    exact h.unresolved i begun hbegun
  · rw [hattempts, hresolved]
    exact h.settled i
  · rw [hattempts] at hbegun ⊢
    exact h.apart i j hij hid begun hbegun
  · rw [(hconnectors id).1] at hbegun
    obtain ⟨i, hid, hmem⟩ := h.owned id begun hbegun
    exact ⟨i, hid, (hattempts i).symm ▸ hmem⟩
  · rcases hcached key entry hget with hold | hnew
    · exact (h.cached key entry hold).mono hreceived
    · exact hnew.mono hreceived
  · rcases hfound i f hf with hold | hnew
    · exact (h.found i f hold).mono hreceived
    · exact hnew.mono hreceived

variable [DecidableEq ι]

theorem attempts_update {i : ι} {l : Ledger} (j : ι) :
    (Function.update known i l j).attempts = if j = i then l.attempts else (known j).attempts := by
  rw [Function.update_apply]
  split_ifs
  · rfl
  · rfl

theorem resolved_update {i : ι} {l : Ledger} (j : ι) :
    (Function.update known i l j).resolved = if j = i then l.resolved else (known j).resolved := by
  rw [Function.update_apply]
  split_ifs
  · rfl
  · rfl

theorem connectors_put (s : GatewayState) (id other : GoString) (c : Connector) :
    (s.put id c).connectors other = if other = id then c else s.connectors other := by
  show Function.update s.connectors id c other = _
  rw [Function.update_apply]

theorem received_update {i : ι} {l : Ledger} (h : (known i).received ⊆ l.received) (j : ι) :
    (known j).received ⊆ (Function.update known i l j).received := by
  rw [Function.update_apply]
  split_ifs with hj
  · exact hj ▸ h
  · exact List.Subset.refl _

/-- The attempt that a call begins has a number that nobody has had. -/
theorem Tracked.begins (h : Tracked sha256 calls known s) {i : ι} {c : Connector}
    {attempt begun : ℕ} (hmore : (known i).begun.length < (calls i).maxAttempts)
    (hbegun : begun = (s.connectors (calls i).connectorID).breakerSerial + 1)
    (hserial : c.breakerSerial = begun)
    (hattempts : c.breakerAttempts =
      insert begun (s.connectors (calls i).connectorID).breakerAttempts) :
    begun ∉ (known i).attempts ∧
      Tracked sha256 calls (Function.update known i
        { known i with begun := (attempt, begun) :: (known i).begun })
        (s.put (calls i).connectorID c) := by
  have hnew : ∀ j, (calls j).connectorID = (calls i).connectorID → begun ∉ (known j).attempts := by
    intro j hid hmem
    have hle := h.numbered j begun hmem
    rw [hid] at hle
    omega
  have hsubset : ∀ j, (known j).received ⊆ (Function.update known i
      { known i with begun := (attempt, begun) :: (known i).begun } j).received :=
    received_update (List.Subset.refl _)
  have hmem : ∀ j other, other ∈ (Function.update known i
      { known i with begun := (attempt, begun) :: (known i).begun } j).attempts ↔
      (j = i ∧ other = begun) ∨ other ∈ (known j).attempts := by
    intro j other
    rw [attempts_update]
    split_ifs with hj
    · subst hj
      show other ∈ begun :: (known j).attempts ↔ _
      rw [List.mem_cons]
      simp
    · simp [hj]
  have hresolved : ∀ j, (Function.update known i
      { known i with begun := (attempt, begun) :: (known i).begun } j).resolved =
      (known j).resolved := by
    intro j
    rw [resolved_update]
    split_ifs with hj
    · subst hj
      rfl
    · rfl
  refine ⟨hnew i rfl, fun j => ?_, fun j other hother => ?_, fun j other hother => ?_,
    fun j other hother => ?_, fun j k hjk hid other hother => ?_, fun id other hother => ?_,
    fun key entry hget => ?_, fun j f hf => ?_⟩
  · rw [Function.update_apply]
    split_ifs with hj
    · subst hj
      show ((_ + 1 : ℕ) : ℤ) ≤ _
      omega
    · exact h.bounded j
  · rw [connectors_put]
    rw [hmem] at hother
    split_ifs with hid
    · rw [hserial]
      rcases hother with ⟨-, rfl⟩ | hother
      · exact le_rfl
      · have hle := h.numbered j other hother
        rw [hid] at hle
        omega
    · rcases hother with ⟨rfl, -⟩ | hother
      · exact absurd rfl hid
      · exact h.numbered j other hother
  · rw [hresolved, connectors_put]
    rw [hmem] at hother
    rcases hother with ⟨rfl, rfl⟩ | hother
    · rw [if_pos rfl, hattempts]
      exact iff_of_true (Finset.mem_insert_self _ _) fun hold => hnew j rfl (h.settled j hold)
    · rw [← h.unresolved j other hother]
      split_ifs with hid
      · rw [hattempts, Finset.mem_insert, hid]
        refine ⟨fun hor => hor.resolve_left ?_, .inr⟩
        rintro rfl
        exact hnew j hid hother
      · rfl
  · rw [hresolved] at hother
    exact (hmem j other).2 (.inr (h.settled j hother))
  · rw [hmem] at hother ⊢
    rintro (⟨rfl, rfl⟩ | hk)
    · rcases hother with ⟨rfl, -⟩ | hother
      · exact hjk rfl
      · exact hnew j hid hother
    · rcases hother with ⟨rfl, rfl⟩ | hother
      · exact hnew k hid.symm hk
      · exact h.apart j k hjk hid other hother hk
  · rw [connectors_put] at hother
    split_ifs at hother with hid
    · rw [hattempts, Finset.mem_insert] at hother
      rcases hother with rfl | hother
      · exact ⟨i, hid.symm, (hmem i other).2 (.inl ⟨rfl, rfl⟩)⟩
      · obtain ⟨j, hj, hold⟩ := h.owned _ other hother
        exact ⟨j, hj.trans hid.symm, (hmem j other).2 (.inr hold)⟩
    · obtain ⟨j, hj, hold⟩ := h.owned id other hother
      exact ⟨j, hj, (hmem j other).2 (.inr hold)⟩
  · exact (h.cached key entry hget).mono hsubset
  · refine (h.found j f ?_).mono hsubset
    rw [Function.update_apply] at hf
    split_ifs at hf with hj
    · exact hj ▸ hf
    · exact hf

/-- A call settles an attempt of its own, and the breaker resolves it. -/
theorem Tracked.settles (h : Tracked sha256 calls known s) {i : ι} {c : Connector} {begun : ℕ}
    (hunsettled : (known i).Unsettled begun) (result : BreakerResult)
    (hresolves : (s.connectors (calls i).connectorID).Resolves c begun) :
    Tracked sha256 calls (Function.update known i ((known i).settle begun result))
      (s.put (calls i).connectorID c) := by
  have hsubset : ∀ j, (known j).received ⊆
      (Function.update known i ((known i).settle begun result) j).received :=
    received_update (List.Subset.refl _)
  have hattempts : ∀ j, (Function.update known i ((known i).settle begun result) j).attempts =
      (known j).attempts := by
    intro j
    rw [attempts_update]
    split_ifs with hj
    · subst hj
      rfl
    · rfl
  have hresolved : ∀ j other,
      other ∈ (Function.update known i ((known i).settle begun result) j).resolved ↔
      (j = i ∧ other = begun) ∨ other ∈ (known j).resolved := by
    intro j other
    rw [resolved_update]
    split_ifs with hj
    · subst hj
      show other ∈ begun :: (known j).resolved ↔ _
      rw [List.mem_cons]
      simp
    · simp [hj]
  -- of the connector's attempts, only the one that is settled goes
  have hmem : ∀ id other,
      other ∈ ((s.put (calls i).connectorID c).connectors id).breakerAttempts ↔
      other ∈ (s.connectors id).breakerAttempts ∧
        ¬(id = (calls i).connectorID ∧ other = begun) := by
    intro id other
    rw [connectors_put]
    split_ifs with hid
    · subst hid
      rw [hresolves.1, Finset.mem_erase]
      tauto
    · simp [hid]
  refine ⟨fun j => ?_, fun j other hother => ?_, fun j other hother => ?_,
    fun j other hother => ?_, fun j k hjk hid other hother => ?_, fun id other hother => ?_,
    fun key entry hget => ?_, fun j f hf => ?_⟩
  · rw [Function.update_apply]
    split_ifs with hj
    · subst hj
      exact h.bounded j
    · exact h.bounded j
  · rw [hattempts] at hother
    rw [connectors_put]
    split_ifs with hid
    · rw [hresolves.2, ← hid]
      exact h.numbered j other hother
    · exact h.numbered j other hother
  · rw [hattempts] at hother
    rw [hmem, hresolved, h.unresolved j other hother]
    have hsame : (calls j).connectorID = (calls i).connectorID ∧ other = begun ↔
        j = i ∧ other = begun := by
      constructor
      · rintro ⟨hid, rfl⟩
        refine ⟨by_contra fun hj => ?_, rfl⟩
        exact h.apart j i hj hid other hother hunsettled.1
      · rintro ⟨rfl, rfl⟩
        exact ⟨rfl, rfl⟩
    rw [hsame]
    tauto
  · rw [hattempts]
    rcases (hresolved j other).1 hother with ⟨rfl, rfl⟩ | hold
    · exact hunsettled.1
    · exact h.settled j hold
  · rw [hattempts] at hother ⊢
    exact h.apart j k hjk hid other hother
  · obtain ⟨j, hj, hold⟩ := h.owned id other ((hmem id other).1 hother).1
    exact ⟨j, hj, (hattempts j).symm ▸ hold⟩
  · exact (h.cached key entry hget).mono hsubset
  · refine (h.found j f ?_).mono hsubset
    rw [Function.update_apply] at hf
    split_ifs at hf with hj
    · exact hj ▸ hf
    · exact hf

/-- A call that goes on without beginning or settling an attempt. -/
theorem Tracked.goesOn (h : Tracked sha256 calls known s) {i : ι} {l : Ledger} {c : Connector}
    (hl : (known i).Extends l) (hc : (s.connectors (calls i).connectorID).SameAttempts c)
    (hfound : l.found = (known i).found) :
    Tracked sha256 calls (Function.update known i l) (s.put (calls i).connectorID c) := by
  refine h.extend (fun j => ?_) (fun id => ?_) (fun key entry hget => .inl hget) fun j f hf => ?_
  · rw [Function.update_apply]
    split_ifs with hj
    · exact hj ▸ hl
    · exact ⟨rfl, rfl, List.Subset.refl _⟩
  · rw [connectors_put]
    split_ifs with hid
    · exact hid ▸ hc
    · exact ⟨rfl, rfl⟩
  · rw [Function.update_apply] at hf
    split_ifs at hf with hj
    · rw [hfound] at hf
      exact .inl (hj ▸ hf)
    · exact .inl hf

theorem put_self (s : GatewayState) (id : GoString) : s.put id (s.connectors id) = s := by
  unfold GatewayState.put
  rw [Function.update_eq_self]

theorem Tracked.records (h : Tracked sha256 calls known s) {i : ι} {l : Ledger}
    (hl : (known i).Extends l) (hfound : l.found = (known i).found) :
    Tracked sha256 calls (Function.update known i l) s := by
  have hgoes := h.goesOn hl ⟨rfl, rfl⟩ hfound
  rwa [put_self] at hgoes

/-- What a call does within its contract keeps the calls' attempts apart, and the promises of the
contract. -/
theorem Tracked.step (h : Tracked sha256 calls known s) {i : ι} {β : Type} {op : GatewayOp β}
    {b : β} (hpre : ((calls i).contract sha256).pre (known i) op)
    (hperforms : Performs (calls i).settings (calls i).connector.config.id s op b s') :
    ((calls i).contract sha256).post (known i) op b ∧
      Tracked sha256 calls (Function.update known i ((known i).after op b)) s' := by
  have hsame : Tracked sha256 calls (Function.update known i (known i)) s := by
    rwa [Function.update_eq_self]
  cases hperforms with
  | now | timeNow | err | cause | acquire | release => exact ⟨trivial, hsame⟩
  | cacheGet key now =>
    refine ⟨trivial, h.extend (fun j => ?_) (fun _ => ⟨rfl, rfl⟩)
      (fun other entry hget => .inl (s.cache.shrinks_get key now other entry hget))
      fun j f hf => ?_⟩
    · rw [Function.update_apply]
      split_ifs with hj
      · subst hj
        rcases (s.cache.get key now).2 with _ | response
        · exact ⟨rfl, rfl, List.Subset.refl _⟩
        · exact ⟨rfl, rfl, List.Subset.refl _⟩
      · exact ⟨rfl, rfl, List.Subset.refl _⟩
    · rw [Function.update_apply] at hf
      split_ifs at hf with hj
      · subst hj
        rcases hresponse : (s.cache.get key now).2 with _ | response
        · rw [hresponse] at hf
          exact .inl hf
        · rw [hresponse] at hf
          rcases List.mem_cons.1 hf with rfl | hf
          · obtain ⟨entry, hentry, rfl, -⟩ := ResponseCache.get_entry hresponse
            exact .inr (h.cached key entry hentry)
          · exact .inl hf
      · exact .inl hf
  | cachePut key response expires cache hput =>
    refine ⟨trivial, hsame.extend (fun j => ⟨rfl, rfl, List.Subset.refl _⟩) (fun _ => ⟨rfl, rfl⟩)
      (fun other entry hget => ?_) fun j f hf => .inl hf⟩
    rcases ResponseCache.put_entries hput hget with hold | ⟨rfl, rfl⟩
    · exact .inl hold
    · refine .inr ⟨i, ?_⟩
      rw [Function.update_eq_self]
      exact hpre
  | circuitOpenWithClock now =>
    exact ⟨trivial, h.goesOn ⟨rfl, rfl, List.Subset.refl _⟩ (sameAttempts_expire _ now) rfl⟩
  | waitForRate attempt reservation =>
    refine ⟨trivial, ?_⟩
    rcases reservation with _ | reservation
    · exact hsame
    · exact h.records ⟨rfl, rfl, List.Subset.refl _⟩ rfl
  | releaseRate attempt reservation =>
    exact ⟨trivial, h.records ⟨rfl, rfl, List.Subset.refl _⟩ rfl⟩
  | tryBeginAttempt attempt expiredBefore expiredAfter now checkedAt =>
    have hspec := tryBeginAttempt_attempts (calls i).settings
      (s.connectors (calls i).connectorID) expiredBefore expiredAfter now
    generalize Connector.tryBeginAttempt (calls i).settings expiredBefore expiredAfter now
      (s.connectors (calls i).connectorID) = began at hspec ⊢
    rcases began with ⟨c, refusal | begun⟩
    · exact ⟨trivial, h.goesOn ⟨rfl, rfl, List.Subset.refl _⟩ hspec rfl⟩
    · exact h.begins hpre hspec.1 hspec.2.1 hspec.2.2
  | attempt prepared answer order =>
    exact ⟨trivial, h.records ⟨rfl, rfl, List.subset_cons_self _ _⟩ rfl⟩
  | finishBreakerFailure observedAt begun order =>
    exact ⟨trivial, h.settles hpre .failure (resolves_finishBreakerFailure _ _ _ _)⟩
  | finishBreakerReachable observedAt begun order =>
    exact ⟨trivial, h.settles hpre .reachable (resolves_finishBreakerReachable _ _ _ _)⟩
  | discardBreakerAttempt begun =>
    exact ⟨trivial, h.settles hpre .discarded (resolves_discardBreakerAttempt _ _)⟩

end Calls

end Atlas.SourceGateway
