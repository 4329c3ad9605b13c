import Atlas.Proofs.AttemptSettlement

/-!
# Answers from the cache

The parts of a key can be told apart, the cache keeps its accounts, and what is found under a key
has been received for the same request. The number of an entry wraps around, though: once as many
responses have been stored as there are numbers, the next one is taken for the oldest.
-/

namespace Atlas.SourceGateway

open Config Interleaving ResponseCache

/-- Requests are told apart by what is hashed; in any run, the bytes are the sum of the sizes, both
limits hold, and a response is found only if it has been stored last under its key, has not expired
and has not gone in between. As long as the numbers last, a response that fits is there once it is
stored. A call is answered from the cache only with what has been received for the same request on
the same connector, if digests do not collide. -/
theorem cache_answers {sha256 : Bytes → Bytes} (hsha : Function.Injective sha256)
    {maxEntries maxBytes : ℕ} (hentries : 0 < maxEntries) :
    (∀ id id' request request', requestCacheBytes id request = requestCacheBytes id' request' →
      id = id' ∧ request = request') ∧
    (∀ calls c, CacheRun maxEntries maxBytes calls c →
      c.bytes = ((c.entries.values.map CacheEntry.size).sum : ℕ) ∧
      c.entries.size ≤ maxEntries ∧ c.bytes ≤ maxBytes ∧
      (∀ key now response, (c.get key now).2 = some response → ∃ expires,
        lastStored maxBytes key calls = some (response, expires) ∧ now < expires) ∧
      (∀ later c' key entry, CacheRun maxEntries maxBytes (later ++ calls) c' →
        lastStored maxBytes key later = none → c'.entries.get key = some entry →
        c.entries.get key = some entry) ∧
      (stores maxBytes calls < maxSerial → ∀ key response expires,
        ∃ c', c.put key response expires = some c' ∧ (responseSize response ≤ maxBytes →
          ∃ entry, c'.entries.get key = some entry ∧ entry.response = response ∧
            entry.expires = expires))) ∧
    ∀ (lib : WireLibrary) (deployment : Deployment) (ι : Type) [DecidableEq ι]
      (calls : ι → GatewayCall lib deployment) (pool : GatewayPool ι),
      GatewayReached sha256 maxEntries maxBytes calls pool → ∀ i e response,
      pool.program i = .done (some e) → e.cacheResult = .hit → e.result = .ok response →
      ∃ prepared rule, (calls i).connector.prepare (calls i).input = .ok (prepared, rule) ∧
        0 < rule.cacheTTLMS ∧ ∃ j rule' answer, (calls j).connectorID = (calls i).connectorID ∧
          (calls j).connector.prepare (calls j).input = .ok (prepared, rule') ∧
          0 < rule'.cacheTTLMS ∧ (prepared, answer) ∈ (pool.known j).received ∧
          (calls j).connector.attempt rule' answer = .ok response := by
  refine ⟨fun id id' request request' h => requestCacheBytes_injective h, fun calls c h => ?_,
    fun lib deployment ι _ calls pool h i e response hdone hhit hresponse =>
      hit_received hsha h hdone hhit hresponse⟩
  have hsound := h.sound
  have hwithin := not_or.1 hsound.within
  rw [hsound.counted.maxEntries_eq, hsound.counted.maxBytes_eq, not_lt, not_lt] at hwithin
  refine ⟨hsound.counted.bytes_eq, hwithin.1, hwithin.2, fun key now response hget => ?_,
    fun later c' key entry hlater hnone hget => h.shrinks hlater hnone entry hget,
    fun hstores key response expires => h.stored hentries hstores key response expires⟩
  obtain ⟨entry, hentry, rfl, hnow⟩ := get_entry hget
  exact ⟨entry.expires, hsound.last key entry hentry, hnow⟩

theorem cache_answers_empty : ∃ c', (ResponseCache.new 1 1).put ['a'] ⟨204, [], []⟩ 5 = some c' ∧
    (responseSize ⟨204, [], []⟩ ≤ 1 → ∃ entry, c'.entries.get ['a'] = some entry ∧
      entry.response = ⟨204, [], []⟩ ∧ entry.expires = 5) := by
  have hstores : stores 1 [] < maxSerial := by
    unfold stores maxSerial
    omega
  have hanswers := (cache_answers Function.injective_id Nat.one_pos).2.1 [] (.new 1 1) .new
  exact hanswers.2.2.2.2.2 hstores ['a'] ⟨204, [], []⟩ 5

section Wrapping

def noContent : ConnectorResponse := ⟨204, [], []⟩

/-- A cache of one entry in which a response without a body has been stored so often. -/
def filled (n : ℕ) : ResponseCache :=
  ⟨OrderedMap.empty.set ['a'] ⟨noContent, 5, 0, n⟩, 1, 1, 0, n⟩

theorem put_of_insert {c c' : ResponseCache} {key : GoString}
    (hinsert : c.insert key noContent 5 = c') :
    c.put key noContent 5 = c'.evict c'.entries.size := by
  have hsize : responseSize noContent = 0 := rfl
  unfold ResponseCache.put
  rw [hsize, if_neg (Nat.not_lt_zero _), hinsert]

theorem evict_within {c : ResponseCache} (h : ¬ c.Over) : ∀ rounds, c.evict rounds = some c
  | 0 => if_neg h
  | _ + 1 => if_neg h

theorem filled_within (n : ℕ) : ¬ (filled n).Over := by
  rintro (hover | hover)
  · exact absurd hover (lt_irrefl 1)
  · exact absurd hover (by decide : ¬ ((1 : ℕ) : ℤ) < 0)

theorem insert_new : (ResponseCache.new 1 1).insert ['a'] noContent 5 = filled 1 := by
  show ResponseCache.mk (OrderedMap.set _ ['a'] ⟨_, _, _, 1 % (maxSerial + 1)⟩) _ _ _
    (1 % (maxSerial + 1)) = _
  have hone : 1 < maxSerial + 1 := by
    unfold maxSerial
    omega
  rw [Nat.mod_eq_of_lt hone]
  rfl

theorem insert_filled {n : ℕ} (h : n < maxSerial) :
    (filled n).insert ['a'] noContent 5 = filled (n + 1) := by
  have hserial : (n + 1) % (maxSerial + 1) = n + 1 := Nat.mod_eq_of_lt (Nat.add_lt_add_right h 1)
  show ResponseCache.mk (OrderedMap.set _ ['a'] ⟨_, _, _, (n + 1) % (maxSerial + 1)⟩) _ _ _
    ((n + 1) % (maxSerial + 1)) = _
  rw [hserial]
  rfl

theorem run_filled : ∀ n, n < maxSerial →
    CacheRun 1 1 (List.replicate (n + 1) (.put ['a'] noContent 5)) (filled (n + 1))
  | 0, _ => .put _ _ _ .new ((put_of_insert insert_new).trans (evict_within (filled_within 1) _))
  | n + 1, h => .put _ _ _ (run_filled n (Nat.lt_of_succ_lt h))
      ((put_of_insert (insert_filled h)).trans (evict_within (filled_within (n + 2)) _))

/-- Beside the last entry, with the largest number, the next one with the number zero. -/
def wrapped : ResponseCache :=
  ⟨(filled maxSerial).entries.set ['b'] ⟨noContent, 5, 0, 0⟩, 1, 1, 0, 0⟩

theorem insert_wrapped : (filled maxSerial).insert ['b'] noContent 5 = wrapped := by
  show ResponseCache.mk (OrderedMap.set _ ['b'] ⟨_, _, _, (maxSerial + 1) % (maxSerial + 1)⟩) _ _ _
    ((maxSerial + 1) % (maxSerial + 1)) = _
  rw [Nat.mod_self]
  rfl

theorem oldestKey_wrapped : wrapped.oldestKey = ['b'] := by
  show (oldestOf [(['a'], ⟨noContent, 5, 0, maxSerial⟩), (['b'], ⟨noContent, 5, 0, 0⟩)]
    ([], maxSerial)).1 = _
  unfold oldestOf
  rw [if_neg (lt_irrefl maxSerial)]
  have hpos : 0 < maxSerial := by
    unfold maxSerial
    omega
  unfold oldestOf
  rw [if_pos hpos]
  rfl

/-- The entry with the number zero goes at once. -/
theorem put_wrapped : ∃ c', (filled maxSerial).put ['b'] noContent 5 = some c' ∧
    c'.entries.get ['b'] = none := by
  have hover : wrapped.Over := .inl (Nat.lt_succ_self 1)
  have hwithin : ¬ (wrapped.remove ['b']).Over := by
    rintro (hover | hover)
    · exact absurd hover (lt_irrefl 1)
    · exact absurd hover (by decide : ¬ ((1 : ℕ) : ℤ) < 0)
  refine ⟨wrapped.remove ['b'], ?_, rfl⟩
  rw [put_of_insert insert_wrapped]
  show wrapped.evict 2 = _
  rw [evict, if_pos hover, oldestKey_wrapped, evict_within hwithin]

/-- What has been stored last is not there once the numbers have wrapped around. -/
theorem cache_not_stored :
    ¬ ∀ maxEntries maxBytes, 0 < maxEntries → 0 < maxBytes → ∀ calls c,
      CacheRun maxEntries maxBytes calls c → ∀ key response expires,
      responseSize response ≤ maxBytes → ∃ c', c.put key response expires = some c' ∧
        ∃ entry, c'.entries.get key = some entry ∧ entry.response = response := by
  intro h
  have hrun := run_filled (maxSerial - 1) (by unfold maxSerial; omega)
  obtain ⟨c', hput, hnone⟩ := put_wrapped
  obtain ⟨c'', hput', entry, hget, -⟩ :=
    h 1 1 Nat.one_pos Nat.one_pos _ _ hrun ['b'] noContent 5 (Nat.zero_le _)
  obtain rfl : c'' = c' := Option.some.inj (hput'.symm.trans hput)
  rw [hnone] at hget
  cases hget

end Wrapping

end Atlas.SourceGateway
