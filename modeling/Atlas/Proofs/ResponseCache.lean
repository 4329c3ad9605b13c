import Atlas.Proofs.CacheKeys

/-!
# The response cache keeps its accounts

Whatever is stored, replaced, expired or evicted, the bytes are the sum of the sizes. As long as the
serial numbers have not wrapped around, the newest entry has the largest one, and alone it is within
both limits; so while the loop goes on there is an older entry, which is the one that goes. What is
found under a key is what has last been stored there.
-/

namespace Atlas.SourceGateway

open Config

namespace ResponseCache

variable {maxEntries maxBytes : ℕ} {c c' : ResponseCache} {key : GoString}

/-- The limits and the bytes of a cache are right. -/
structure Counted (maxEntries maxBytes : ℕ) (c : ResponseCache) : Prop where
  maxEntries_eq : c.maxEntries = maxEntries
  maxBytes_eq : c.maxBytes = maxBytes
  bytes_eq : c.bytes = ((c.entries.values.map CacheEntry.size).sum : ℕ)

theorem Counted.remove (h : c.Counted maxEntries maxBytes) (key : GoString) :
    (c.remove key).Counted maxEntries maxBytes where
  maxEntries_eq := h.maxEntries_eq
  maxBytes_eq := h.maxBytes_eq
  bytes_eq := by
    have hsum := OrderedMap.sum_map_delete (m := c.entries) (k := key) CacheEntry.size
    show c.bytes - ((c.entries.get key).elim 0 CacheEntry.size : ℕ) =
      (((c.entries.delete key).values.map CacheEntry.size).sum : ℕ)
    rw [h.bytes_eq]
    omega

theorem Counted.insert (h : c.Counted maxEntries maxBytes) (key : GoString)
    (response : ConnectorResponse) (expires : ℕ) :
    (c.insert key response expires).Counted maxEntries maxBytes where
  maxEntries_eq := h.maxEntries_eq
  maxBytes_eq := h.maxBytes_eq
  bytes_eq := by
    have hsum := OrderedMap.sum_map_delete (m := c.entries) (k := key) CacheEntry.size
    show c.bytes - ((c.entries.get key).elim 0 CacheEntry.size : ℕ) + (responseSize response : ℕ) =
      (((c.entries.set key _).values.map CacheEntry.size).sum : ℕ)
    rw [OrderedMap.sum_map_set, h.bytes_eq]
    show _ = ((responseSize response + _ : ℕ) : ℤ)
    omega

/-- Some entries are gone, and the others are as they were. -/
def Shrinks (c c' : ResponseCache) : Prop :=
  ∀ key entry, c'.entries.get key = some entry → c.entries.get key = some entry

theorem shrinks_remove (c : ResponseCache) (key : GoString) : c.Shrinks (c.remove key) := by
  intro other entry h
  unfold ResponseCache.remove at h
  simp only [OrderedMap.get_delete] at h
  split_ifs at h
  exact h

/-- A loop that ends leaves the cache within its limits. -/
theorem evict_spec : ∀ {rounds : ℕ} {c c' : ResponseCache}, c.evict rounds = some c' →
    c.Shrinks c' ∧ ¬ c'.Over ∧ c'.serial = c.serial
  | 0, c, c', h => by
    unfold evict at h
    split_ifs at h with hover
    obtain rfl := Option.some.inj h
    exact ⟨fun _ _ h => h, hover, rfl⟩
  | rounds + 1, c, c', h => by
    unfold evict at h
    split_ifs at h with hover
    · obtain ⟨hshrinks, hwithin, hserial⟩ := evict_spec h
      have hall : c.Shrinks c' := fun key entry hget =>
        c.shrinks_remove _ key entry (hshrinks key entry hget)
      exact ⟨hall, hwithin, hserial⟩
    · obtain rfl := Option.some.inj h
      exact ⟨fun _ _ h => h, hover, rfl⟩

theorem Counted.evict : ∀ {rounds : ℕ} {c c' : ResponseCache}, c.Counted maxEntries maxBytes →
    c.evict rounds = some c' → c'.Counted maxEntries maxBytes
  | 0, c, c', hcounted, h => by
    unfold ResponseCache.evict at h
    split_ifs at h
    exact Option.some.inj h ▸ hcounted
  | rounds + 1, c, c', hcounted, h => by
    unfold ResponseCache.evict at h
    split_ifs at h
    · exact (hcounted.remove _).evict h
    · exact Option.some.inj h ▸ hcounted

/-- What is found to be the oldest is as old as everything, or nothing is older than the start. -/
theorem oldestOf_spec : ∀ (entries : List (GoString × CacheEntry)) (start : GoString × ℕ),
    (oldestOf entries start = start ∧ ∀ e ∈ entries, start.2 ≤ e.2.serial) ∨
      ∃ e ∈ entries, oldestOf entries start = (e.1, e.2.serial) ∧ e.2.serial < start.2
        ∧ ∀ other ∈ entries, e.2.serial ≤ other.2.serial
  | [], start => .inl ⟨rfl, nofun⟩
  | (candidate, entry) :: rest, start => by
    unfold oldestOf
    split_ifs with holder
    · rcases oldestOf_spec rest (candidate, entry.serial) with ⟨heq, hall⟩ | ⟨e, he, heq, hlt, hall⟩
      · refine .inr ⟨(candidate, entry), List.mem_cons_self, heq, holder, ?_⟩
        rw [List.forall_mem_cons]
        exact ⟨le_rfl, hall⟩
      · refine .inr ⟨e, List.mem_cons_of_mem _ he, heq, hlt.trans holder, ?_⟩
        rw [List.forall_mem_cons]
        exact ⟨hlt.le, hall⟩
    · rw [not_lt] at holder
      rcases oldestOf_spec rest start with ⟨heq, hall⟩ | ⟨e, he, heq, hlt, hall⟩
      · refine .inl ⟨heq, ?_⟩
        rw [List.forall_mem_cons]
        exact ⟨holder, hall⟩
      · refine .inr ⟨e, List.mem_cons_of_mem _ he, heq, hlt, ?_⟩
        rw [List.forall_mem_cons]
        exact ⟨hlt.le.trans holder, hall⟩

/-- The newest entry is there, within the limits on its own, and all others are older. -/
structure Newest (c : ResponseCache) (key : GoString) (entry : CacheEntry) : Prop where
  get_eq : c.entries.get key = some entry
  size_le : entry.size ≤ c.maxBytes
  serial_le : entry.serial ≤ maxSerial
  older : ∀ other e, other ≠ key → c.entries.get other = some e → e.serial < entry.serial

/-- Beside the newest entry there is another one, as long as the cache is over its limits. -/
theorem Newest.oldest {entry : CacheEntry} (h : c.Newest key entry)
    (hcounted : c.Counted maxEntries maxBytes) (hpos : 0 < maxEntries) (hover : c.Over) :
    c.oldestKey ≠ key ∧ c.entries.has c.oldestKey = true := by
  have hother : ∃ other e, other ≠ key ∧ c.entries.get other = some e := by
    by_contra hnone
    push Not at hnone
    -- alone, the newest entry would be within the limits
    have hempty : (c.entries.delete key).values = [] := by
      rw [List.eq_nil_iff_forall_not_mem]
      intro e he
      obtain ⟨other, hget⟩ := OrderedMap.mem_values.1 he
      rw [OrderedMap.get_delete] at hget
      split_ifs at hget with hother
      exact hnone other e hother hget
    have hsize : c.entries.size ≤ 1 := by
      have hset := OrderedMap.entries_set_perm (m := c.entries) (k := key) (v := entry)
      rw [OrderedMap.set_of_get h.get_eq] at hset
      have hlength := hset.length_eq
      rw [List.length_cons, List.map_eq_nil_iff.1 hempty] at hlength
      exact hlength.le
    have hbytes := OrderedMap.sum_map_delete (m := c.entries) (k := key) CacheEntry.size
    rw [hempty, h.get_eq] at hbytes
    have hentry : entry.size = (c.entries.values.map CacheEntry.size).sum := by simpa using hbytes
    have hle := h.size_le
    rcases hover with hover | hover
    · rw [hcounted.maxEntries_eq] at hover
      omega
    · rw [hcounted.bytes_eq] at hover
      omega
  obtain ⟨other, e, hne, hget⟩ := hother
  have holder := h.older other e hne hget
  have hmem := OrderedMap.get_eq_some_iff.1 hget
  have hle := h.serial_le
  rcases oldestOf_spec c.entries.entries ([], maxSerial) with ⟨-, hall⟩ | ⟨f, hf, heq, -, hall⟩
  · have hstart : maxSerial ≤ e.serial := hall _ hmem
    omega
  · have hkey : c.oldestKey = f.1 := congrArg Prod.fst heq
    have hf' : c.entries.get f.1 = some f.2 := OrderedMap.get_eq_some_iff.2 hf
    rw [hkey]
    refine ⟨fun hsame => ?_, OrderedMap.has_eq_true_iff.2 ⟨_, hf'⟩⟩
    rw [hsame, h.get_eq, Option.some.injEq] at hf'
    have hyoungest : f.2.serial ≤ e.serial := hall _ hmem
    rw [← hf'] at hyoungest
    omega

theorem Newest.remove {entry : CacheEntry} (h : c.Newest key entry) {other : GoString}
    (hne : other ≠ key) : (c.remove other).Newest key entry where
  get_eq := by
    show (c.entries.delete other).get key = some entry
    rw [OrderedMap.get_delete, if_neg hne.symm, h.get_eq]
  size_le := h.size_le
  serial_le := h.serial_le
  older k e hk hget := h.older k e hk (c.shrinks_remove other k e hget)

/-- The loop ends, and the newest entry stays. -/
theorem Newest.evict {entry : CacheEntry} (hpos : 0 < maxEntries) :
    ∀ {rounds : ℕ} {c : ResponseCache}, c.Newest key entry → c.Counted maxEntries maxBytes →
    c.entries.size ≤ rounds → ∃ c', c.evict rounds = some c' ∧ c'.entries.get key = some entry
  | 0, c, h, _, hsize => by
    have hnone : c.entries.get key = none :=
      OrderedMap.get_of_size_eq_zero (Nat.le_zero.1 hsize)
    rw [h.get_eq] at hnone
    cases hnone
  | rounds + 1, c, h, hcounted, hsize => by
    unfold ResponseCache.evict
    split_ifs with hover
    · obtain ⟨hne, hhas⟩ := h.oldest hcounted hpos hover
      have hless : (c.remove c.oldestKey).entries.size ≤ rounds := by
        have := OrderedMap.size_delete_lt hhas
        show (c.entries.delete c.oldestKey).size ≤ rounds
        omega
      exact (h.remove hne).evict hpos (hcounted.remove _) hless
    · exact ⟨c, rfl, h.get_eq⟩

theorem entries_insert (c : ResponseCache) (key other : GoString) (response : ConnectorResponse)
    (expires : ℕ) : (c.insert key response expires).entries.get other =
      if other = key then
        some ⟨response, expires, responseSize response, (c.serial + 1) % (maxSerial + 1)⟩
      else c.entries.get other := by
  show (c.entries.set key _).get other = _
  rw [OrderedMap.get_set]

/-- What is stored after a call is new, or was there before. -/
theorem put_entries {response : ConnectorResponse} {expires : ℕ}
    (h : c.put key response expires = some c') {other : GoString} {entry : CacheEntry}
    (hget : c'.entries.get other = some entry) :
    c.entries.get other = some entry ∨ other = key ∧ entry.response = response := by
  unfold ResponseCache.put at h
  split_ifs at h
  · obtain rfl := Option.some.inj h
    exact .inl hget
  · have hthere := (evict_spec h).1 other entry hget
    rw [entries_insert] at hthere
    split_ifs at hthere with hother
    · obtain rfl := Option.some.inj hthere
      exact .inr ⟨hother, rfl⟩
    · exact .inl hthere

theorem shrinks_get (c : ResponseCache) (key : GoString) (now : ℕ) :
    c.Shrinks (c.get key now).1 := by
  unfold ResponseCache.get
  rcases c.entries.get key with _ | entry
  · exact fun _ _ hget => hget
  · dsimp only
    split_ifs
    · exact fun _ _ hget => hget
    · exact c.shrinks_remove key

theorem get_entry {now : ℕ} {response : ConnectorResponse}
    (h : (c.get key now).2 = some response) :
    ∃ entry, c.entries.get key = some entry ∧ entry.response = response ∧ now < entry.expires := by
  unfold ResponseCache.get at h
  rcases hentry : c.entries.get key with _ | entry
  · rw [hentry] at h
    cases h
  · rw [hentry] at h
    dsimp only at h
    split_ifs at h with hnow
    exact ⟨entry, rfl, Option.some.inj h, hnow⟩

end ResponseCache

section Runs

open ResponseCache

variable {maxEntries maxBytes : ℕ} {calls : List CacheCall} {c c' : ResponseCache} {key : GoString}

/-- What has been stored last under a key, and when it expires. What is too large is not stored. -/
def lastStored (maxBytes : ℕ) (key : GoString) : List CacheCall → Option (ConnectorResponse × ℕ)
  | [] => none
  | .get _ _ :: calls => lastStored maxBytes key calls
  | .put other response expires :: calls =>
    if other = key ∧ responseSize response ≤ maxBytes then some (response, expires)
    else lastStored maxBytes key calls

/-- How many responses have been stored. -/
def stores (maxBytes : ℕ) : List CacheCall → ℕ
  | [] => 0
  | .get _ _ :: calls => stores maxBytes calls
  | .put _ response _ :: calls =>
    if responseSize response ≤ maxBytes then stores maxBytes calls + 1 else stores maxBytes calls

/-- The number of the cache, and with it those of all entries. -/
structure Numbered (n : ℕ) (c : ResponseCache) : Prop where
  serial_eq : c.serial = n
  serial_le : ∀ key entry, c.entries.get key = some entry → entry.serial ≤ n

/-- What holds of the cache after some calls. -/
structure Sound (maxEntries maxBytes : ℕ) (calls : List CacheCall) (c : ResponseCache) :
    Prop where
  counted : c.Counted maxEntries maxBytes
  within : ¬ c.Over
  last : ∀ key entry, c.entries.get key = some entry →
    lastStored maxBytes key calls = some (entry.response, entry.expires)
  numbered : stores maxBytes calls ≤ maxSerial → Numbered (stores maxBytes calls) c

theorem Numbered.shrinks {n : ℕ} (h : Numbered n c) (hshrinks : c.Shrinks c')
    (hserial : c'.serial = c.serial) : Numbered n c' :=
  ⟨hserial.trans h.serial_eq, fun key entry hget => h.serial_le key entry (hshrinks key entry hget)⟩

theorem Numbered.insert {n : ℕ} (h : Numbered n c) (hn : n < maxSerial) (key : GoString)
    (response : ConnectorResponse) (expires : ℕ) :
    Numbered (n + 1) (c.insert key response expires) := by
  have hserial : (c.serial + 1) % (maxSerial + 1) = n + 1 := by
    rw [h.serial_eq, Nat.mod_eq_of_lt (Nat.add_lt_add_right hn 1)]
  refine ⟨hserial, fun other entry hget => ?_⟩
  rw [entries_insert, hserial] at hget
  split_ifs at hget
  · obtain rfl := Option.some.inj hget
    exact le_rfl
  · exact (h.serial_le other entry hget).trans n.le_succ

theorem Numbered.newest {n : ℕ} (h : Numbered n c) (hn : n < maxSerial)
    (response : ConnectorResponse) (expires : ℕ) (hfits : responseSize response ≤ c.maxBytes) :
    (c.insert key response expires).Newest key
      ⟨response, expires, responseSize response, n + 1⟩ := by
  have hserial : (c.serial + 1) % (maxSerial + 1) = n + 1 := by
    rw [h.serial_eq, Nat.mod_eq_of_lt (Nat.add_lt_add_right hn 1)]
  refine ⟨?_, hfits, hn, fun other entry hne hget => ?_⟩
  · rw [entries_insert, if_pos rfl, hserial]
  · rw [entries_insert, if_neg hne] at hget
    exact Nat.lt_succ_of_le (h.serial_le other entry hget)

theorem Sound.new : Sound maxEntries maxBytes [] (.new maxEntries maxBytes) where
  counted := ⟨rfl, rfl, rfl⟩
  within := by
    rintro (hover | hover)
    · exact absurd hover (Nat.not_lt_zero _)
    · exact absurd hover (not_lt.2 (Int.natCast_nonneg maxBytes))
  last _ _ h := by cases h
  numbered _ := ⟨rfl, fun _ _ h => by cases h⟩

theorem Sound.get (h : Sound maxEntries maxBytes calls c) (key : GoString) (now : ℕ) :
    Sound maxEntries maxBytes (.get key now :: calls) (c.get key now).1 := by
  have hremove : Sound maxEntries maxBytes (.get key now :: calls) (c.remove key) := by
    refine ⟨h.counted.remove key, ?_, ?_, ?_⟩
    · rintro (hover | hover)
      · exact h.within (.inl (hover.trans_le OrderedMap.size_delete_le))
      · have hless : (c.remove key).bytes ≤ c.bytes :=
          sub_le_self _ (Int.natCast_nonneg _)
        exact h.within (.inr (hover.trans_le hless))
    · exact fun other entry hget => h.last other entry (c.shrinks_remove key other entry hget)
    · exact fun hn => (h.numbered hn).shrinks (c.shrinks_remove key) rfl
  unfold ResponseCache.get
  rcases c.entries.get key with _ | entry
  · exact ⟨h.counted, h.within, h.last, h.numbered⟩
  · dsimp only
    split_ifs
    · exact ⟨h.counted, h.within, h.last, h.numbered⟩
    · exact hremove

theorem Sound.put (h : Sound maxEntries maxBytes calls c) {response : ConnectorResponse}
    {expires : ℕ} (hput : c.put key response expires = some c') :
    Sound maxEntries maxBytes (.put key response expires :: calls) c' := by
  unfold ResponseCache.put at hput
  rw [h.counted.maxBytes_eq] at hput
  split_ifs at hput with hlarge
  · obtain rfl := Option.some.inj hput
    refine ⟨h.counted, h.within, fun other entry hget => ?_, fun hn => ?_⟩
    · rw [lastStored, if_neg (fun hsame => hlarge.not_ge hsame.2)]
      exact h.last other entry hget
    · rw [stores, if_neg hlarge.not_ge] at hn ⊢
      exact h.numbered hn
  · rw [not_lt] at hlarge
    obtain ⟨hshrinks, hwithin, hserial⟩ := evict_spec hput
    refine ⟨(h.counted.insert key response expires).evict hput, hwithin,
      fun other entry hget => ?_, fun hn => ?_⟩
    · have hthere := hshrinks other entry hget
      rw [entries_insert] at hthere
      rw [lastStored]
      split_ifs at hthere with hother
      · obtain rfl := Option.some.inj hthere
        rw [if_pos ⟨hother.symm, hlarge⟩]
      · rw [if_neg (fun hsame => hother hsame.1.symm)]
        exact h.last other entry hthere
    · rw [stores, if_pos hlarge] at hn ⊢
      exact ((h.numbered (Nat.le_of_succ_le hn)).insert hn key response expires).shrinks
        hshrinks hserial

theorem CacheRun.sound (h : CacheRun maxEntries maxBytes calls c) :
    Sound maxEntries maxBytes calls c := by
  induction h with
  | new => exact Sound.new
  | get key now _ ih => exact ih.get key now
  | put key response expires _ hput ih => exact ih.put hput

theorem CacheRun.unique (h : CacheRun maxEntries maxBytes calls c) :
    CacheRun maxEntries maxBytes calls c' → c = c' := by
  induction h generalizing c' with
  | new =>
    rintro ⟨⟩
    rfl
  | get key now _ ih =>
    rintro (_ | ⟨_, _, h'⟩)
    rw [ih h']
  | put key response expires _ hput ih =>
    rintro (_ | _ | ⟨_, _, _, h', hput'⟩)
    rw [← ih h', hput, Option.some.injEq] at hput'
    exact hput'

/-- What is not stored again only goes. -/
theorem CacheRun.shrinks (h : CacheRun maxEntries maxBytes calls c) :
    ∀ {later : List CacheCall} {c' : ResponseCache},
    CacheRun maxEntries maxBytes (later ++ calls) c' → lastStored maxBytes key later = none →
    ∀ entry, c'.entries.get key = some entry → c.entries.get key = some entry
  | [], c', hlater, _, entry, hget => by
    obtain rfl := h.unique hlater
    exact hget
  | .get other now :: later, c', hlater, hnone, entry, hget => by
    rcases hlater with _ | @⟨_, d, _, _, hrun⟩
    exact h.shrinks hrun hnone entry (d.shrinks_get other now key entry hget)
  | .put other response expires :: later, c', hlater, hnone, entry, hget => by
    rcases hlater with _ | _ | @⟨_, d, _, _, _, _, hrun, hput⟩
    rw [lastStored] at hnone
    split_ifs at hnone with hstored
    have hsame : c'.entries.get key = some entry → d.entries.get key = some entry := by
      intro hget
      have hcounted := hrun.sound.counted
      unfold ResponseCache.put at hput
      rw [hcounted.maxBytes_eq] at hput
      split_ifs at hput with hlarge
      · rwa [Option.some.inj hput]
      · have hthere := (evict_spec hput).1 key entry hget
        rwa [entries_insert, if_neg (fun heq => hstored ⟨heq.symm, not_lt.1 hlarge⟩)] at hthere
    exact h.shrinks hrun hnone entry (hsame hget)

/-- As long as the numbers last, the loop ends, and what is stored is there. -/
theorem CacheRun.stored (h : CacheRun maxEntries maxBytes calls c) (hentries : 0 < maxEntries)
    (hstores : stores maxBytes calls < maxSerial) (key : GoString) (response : ConnectorResponse)
    (expires : ℕ) : ∃ c', c.put key response expires = some c' ∧
      (responseSize response ≤ maxBytes → ∃ entry, c'.entries.get key = some entry ∧
        entry.response = response ∧ entry.expires = expires) := by
  have hsound := h.sound
  have hnumbered := hsound.numbered hstores.le
  unfold ResponseCache.put
  rw [hsound.counted.maxBytes_eq]
  split_ifs with hlarge
  · exact ⟨c, rfl, fun hfits => absurd hfits hlarge.not_ge⟩
  · have hfits : responseSize response ≤ c.maxBytes := by
      rw [hsound.counted.maxBytes_eq]
      exact not_lt.1 hlarge
    have hnewest : (c.insert key response expires).Newest key _ :=
      hnumbered.newest hstores response expires hfits
    obtain ⟨c', hevict, hget⟩ :=
      hnewest.evict hentries (hsound.counted.insert key response expires) le_rfl
    exact ⟨c', hevict, fun _ => ⟨_, hget, rfl, rfl⟩⟩

end Runs

end Atlas.SourceGateway
