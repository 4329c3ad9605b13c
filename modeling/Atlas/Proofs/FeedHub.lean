import Atlas.Feed.Hub

/-!
# What a client of the feed receives

Each event is offered to each client once, in the order of publishing, until the client is closed.
A client that wanted an event and had no room for it is closed before the next one.
-/

namespace Atlas.Feed

section Clients

variable {published : List RoutedEvent} {c : Client}

/-- What the client has received and will, is what was sent to it. -/
def Client.Delivered (c : Client) : Prop :=
  c.read ++ c.send = (c.offered.filter Offer.sent).map Offer.event

/-- Everything since the client came was offered to it, and sent where it was wanted. -/
def Client.Whole (published : List RoutedEvent) (c : Client) : Prop :=
  c.offered.map Offer.event = published.drop c.since ∧
    ∀ offer ∈ c.offered, offer.sent = offer.wanted

/-- Up to some point that was so, except that the last event may not have fitted. -/
def Client.Stopped (published : List RoutedEvent) (c : Client) : Prop :=
  c.offered.map Offer.event <+: published.drop c.since ∧
    (∀ offer ∈ c.offered.dropLast, offer.sent = offer.wanted) ∧
    ∀ offer ∈ c.offered, offer.sent = true → offer.wanted = true

theorem Client.Whole.stopped (h : c.Whole published) : c.Stopped published := by
  refine ⟨h.1 ▸ List.prefix_rfl, fun offer hmem => h.2 offer (List.mem_of_mem_dropLast hmem),
    fun offer hmem hsent => ?_⟩
  rw [← h.2 offer hmem]
  exact hsent

theorem Client.Stopped.publish (h : c.Stopped published) (hsince : c.since ≤ published.length)
    (event : RoutedEvent) : c.Stopped (published ++ [event]) := by
  refine ⟨?_, h.2⟩
  rw [List.drop_append_of_le_length hsince]
  exact h.1.trans (List.prefix_append _ _)

/-- An offered event leaves the client whole if it is sent or not wanted, and else stopped. -/
theorem Client.Whole.deliver (h : c.Whole published) (hdelivered : c.Delivered)
    (hsince : c.since ≤ published.length) (hopen : c.closed = false) (clientBuffer : ℕ)
    (event : RoutedEvent) :
    (c.deliver clientBuffer event).1.Delivered ∧ (c.deliver clientBuffer event).1.closed = false ∧
      (c.deliver clientBuffer event).1.since = c.since ∧
      (c.deliver clientBuffer event).1.Stopped (published ++ [event]) ∧
      ((c.deliver clientBuffer event).2 = true →
        (c.deliver clientBuffer event).1.Whole (published ++ [event])) := by
  have hevents : ∀ sent, (c.offered ++ [(⟨event, c.subs.values, sent⟩ : Offer)]).map Offer.event =
      (published ++ [event]).drop c.since := by
    intro sent
    rw [List.map_append, h.1, List.drop_append_of_le_length hsince]
    rfl
  have hwanted : ∀ sent, (⟨event, c.subs.values, sent⟩ : Offer).wanted = c.matchesLocked event :=
    fun _ => rfl
  have hfilter : (c.offered ++ [(⟨event, c.subs.values, false⟩ : Offer)]).filter Offer.sent =
      c.offered.filter Offer.sent := by
    rw [List.filter_append, List.filter_singleton]
    exact List.append_nil _
  unfold Client.Delivered at hdelivered
  unfold Client.deliver
  rw [hopen]
  simp only [Bool.false_eq_true, if_false]
  split_ifs with hmatches hroom
  · have hwhole : ({ c with
        offered := c.offered ++ [⟨event, c.subs.values, false⟩] } : Client).Whole
          (published ++ [event]) := by
      refine ⟨hevents false, fun offer hmem => ?_⟩
      rcases List.mem_append.1 hmem with hmem | hmem
      · exact h.2 offer hmem
      · rw [List.mem_singleton.1 hmem, hwanted]
        rw [Bool.not_eq_true'] at hmatches
        exact hmatches.symm
    refine ⟨?_, rfl, rfl, hwhole.stopped, fun _ => hwhole⟩
    unfold Client.Delivered
    rw [hfilter]
    exact hdelivered
  · have hwhole : ({ c with
        send := c.send ++ [event]
        offered := c.offered ++ [⟨event, c.subs.values, true⟩] } : Client).Whole
          (published ++ [event]) := by
      refine ⟨hevents true, fun offer hmem => ?_⟩
      rcases List.mem_append.1 hmem with hmem | hmem
      · exact h.2 offer hmem
      · rw [List.mem_singleton.1 hmem, hwanted]
        rw [Bool.not_eq_true', Bool.not_eq_false] at hmatches
        exact hmatches.symm
    refine ⟨?_, rfl, rfl, hwhole.stopped, fun _ => hwhole⟩
    unfold Client.Delivered
    rw [List.filter_append, List.map_append, ← hdelivered, ← List.append_assoc]
    rfl
  · refine ⟨?_, rfl, rfl, ⟨?_, fun offer hmem => ?_, fun offer hmem hsent => ?_⟩, nofun⟩
    · unfold Client.Delivered
      rw [hfilter]
      exact hdelivered
    · rw [hevents]
    · rw [List.dropLast_concat] at hmem
      exact h.2 offer hmem
    · rcases List.mem_append.1 hmem with hmem | hmem
      · rw [← h.2 offer hmem]
        exact hsent
      · rw [List.mem_singleton.1 hmem] at hsent
        cases hsent

end Clients

section Hubs

/-- What an open client may rely on, as far as the hub has come. -/
def HubWork.Owes (work : HubWork) (published : List RoutedEvent) (i : ℕ) (c : Client) : Prop :=
  match work with
  | .idle => c.Whole published
  | .publishing event left slow =>
    (i ∈ left → ∃ earlier, published = earlier ++ [event] ∧ c.since ≤ earlier.length ∧
      c.Whole earlier) ∧
    (i ∉ left → c.Stopped published) ∧ (i ∉ left → i ∉ slow → c.Whole published)
  | .closing left => c.Stopped published ∧ (i ∉ left → c.Whole published)

theorem Client.Whole.congr {published : List RoutedEvent} {c c' : Client} (h : c.Whole published)
    (hoffered : c'.offered = c.offered) (hsince : c'.since = c.since) : c'.Whole published := by
  unfold Client.Whole at h ⊢
  rw [hoffered, hsince]
  exact h

theorem Client.Stopped.congr {published : List RoutedEvent} {c c' : Client}
    (h : c.Stopped published) (hoffered : c'.offered = c.offered) (hsince : c'.since = c.since) :
    c'.Stopped published := by
  unfold Client.Stopped at h ⊢
  rw [hoffered, hsince]
  exact h

theorem HubWork.Owes.congr {work : HubWork} {published : List RoutedEvent} {i : ℕ}
    {c c' : Client} (h : work.Owes published i c) (hoffered : c'.offered = c.offered)
    (hsince : c'.since = c.since) : work.Owes published i c' := by
  cases work with
  | idle => exact Client.Whole.congr h hoffered hsince
  | publishing event left slow =>
    refine ⟨fun hmem => ?_, fun hmem => (h.2.1 hmem).congr hoffered hsince,
      fun hmem hslow => (h.2.2 hmem hslow).congr hoffered hsince⟩
    obtain ⟨earlier, heq, hlen, hwhole⟩ := h.1 hmem
    exact ⟨earlier, heq, hsince ▸ hlen, hwhole.congr hoffered hsince⟩
  | closing left => exact ⟨h.1.congr hoffered hsince, fun hmem =>
      (h.2 hmem).congr hoffered hsince⟩

/-- A client has received all it should have. -/
structure Served (work : HubWork) (published : List RoutedEvent) (i : ℕ) (c : Client) : Prop where
  delivered : c.Delivered
  since : c.since ≤ published.length
  closed : c.closed = true → c.Stopped published
  owed : c.closed = false → work.Owes published i c

structure Fair (h : Hub) : Prop where
  nodup : h.clients.Nodup
  bound : ∀ i ∈ h.clients, i < h.pool.length
  listed : ∀ i c, h.pool[i]? = some c → (i ∈ h.clients ↔ c.closed = false)
  served : ∀ i c, h.pool[i]? = some c → Served h.work h.published i c
  once : ∀ event left slow, h.work = .publishing event left slow → left.Nodup
  increasing : h.published.Pairwise fun earlier later => earlier.event.version < later.event.version

variable {h : Hub}

/-- A client's own methods leave alone what the hub has done. -/
theorem Fair.modify (hfair : Fair h) (i : ℕ) {f : Client → Client}
    (hclosed : ∀ c, (f c).closed = c.closed) (hoffered : ∀ c, (f c).offered = c.offered)
    (hsince : ∀ c, (f c).since = c.since)
    (hsend : ∀ c, (f c).read ++ (f c).send = c.read ++ c.send) :
    Fair { h with pool := h.pool.modify i f } := by
  have hkept : ∀ {j : ℕ} {c' : Client}, (h.pool.modify i f)[j]? = some c' →
      ∃ c : Client, h.pool[j]? = some c ∧
      c'.closed = c.closed ∧ c'.offered = c.offered ∧ c'.since = c.since ∧
        c'.read ++ c'.send = c.read ++ c.send := by
    intro j c' hget
    rw [List.getElem?_modify] at hget
    rcases hold : h.pool[j]? with - | c
    · rw [hold] at hget
      cases hget
    · rw [hold, Option.map_eq_map, Option.map_some, Option.some.injEq] at hget
      refine ⟨c, rfl, ?_⟩
      rw [← hget]
      split_ifs
      · exact ⟨hclosed c, hoffered c, hsince c, hsend c⟩
      · exact ⟨rfl, rfl, rfl, rfl⟩
  refine ⟨hfair.nodup, fun j hj => ?_, fun j c' hget => ?_, fun j c' hget => ?_, hfair.once,
    hfair.increasing⟩
  · rw [List.length_modify]
    exact hfair.bound j hj
  · obtain ⟨c, hold, hc, -⟩ := hkept hget
    rw [hc]
    exact hfair.listed j c hold
  · obtain ⟨c, hold, hc, ho, hs, hr⟩ := hkept hget
    obtain ⟨hdelivered, hle, hstopped, howed⟩ := hfair.served j c hold
    refine ⟨?_, hs ▸ hle, fun hcl => (hstopped (hc ▸ hcl)).congr ho hs, fun hop =>
      (howed (hc ▸ hop)).congr ho hs⟩
    unfold Client.Delivered at hdelivered ⊢
    rw [hr, ho]
    exact hdelivered

/-- What the hub goes on to, where each client may rely on as much. -/
theorem Fair.goOn (hfair : Fair h) (work : HubWork)
    (howes : ∀ i c, c.since ≤ h.published.length → h.work.Owes h.published i c →
      work.Owes h.published i c)
    (honce : ∀ event left slow, work = .publishing event left slow → left.Nodup) :
    Fair { h with work := work } :=
  ⟨hfair.nodup, hfair.bound, hfair.listed, fun i c hget =>
    have hserved := hfair.served i c hget
    ⟨hserved.delivered, hserved.since, hserved.closed, fun hop =>
      howes i c hserved.since (hserved.owed hop)⟩, honce, hfair.increasing⟩

/-- A client that is closed is owed nothing more. -/
theorem Fair.closeClientLocked (hfair : Fair h) {client : ℕ} {work : HubWork}
    (hstopped : ∀ c, h.pool[client]? = some c → c.closed = false → c.Stopped h.published)
    (howes : ∀ i c, i ≠ client → h.work.Owes h.published i c → work.Owes h.published i c)
    (honce : ∀ event left slow, work = .publishing event left slow → left.Nodup) :
    Fair { h.closeClientLocked client with work := work } := by
  have hget : ∀ {j : ℕ} {c' : Client}, (h.pool.modify client Client.close)[j]? = some c' →
      ∃ c, h.pool[j]? = some c ∧ c' = if client = j then c.close else c := by
    intro j c' hget
    rw [List.getElem?_modify] at hget
    rcases hold : h.pool[j]? with - | c
    · rw [hold] at hget
      cases hget
    · rw [hold, Option.map_eq_map, Option.map_some, Option.some.injEq] at hget
      exact ⟨c, rfl, hget.symm⟩
  refine ⟨hfair.nodup.erase _, fun j hj => ?_, fun j c' hj => ?_, fun j c' hj => ?_, honce,
    hfair.increasing⟩
  · show j < (h.pool.modify client Client.close).length
    rw [List.length_modify]
    exact hfair.bound j (List.mem_of_mem_erase hj)
  · obtain ⟨c, hold, rfl⟩ := hget hj
    show j ∈ h.clients.erase client ↔ _
    rw [hfair.nodup.mem_erase_iff]
    split_ifs with heq
    · exact ⟨fun hmem => absurd heq.symm hmem.1, nofun⟩
    · rw [hfair.listed j c hold]
      exact ⟨fun hmem => hmem.2, fun hop => ⟨fun hne => heq hne.symm, hop⟩⟩
  · obtain ⟨c, hold, rfl⟩ := hget hj
    obtain ⟨hdelivered, hle, hclosed, howed⟩ := hfair.served j c hold
    split_ifs with heq
    · refine ⟨hdelivered, hle, fun _ => ?_, nofun⟩
      rcases hop : c.closed with - | -
      · exact hstopped c (heq ▸ hold) hop
      · exact hclosed hop
    · exact ⟨hdelivered, hle, hclosed, fun hop => howes j c (fun hne => heq hne.symm) (howed hop)⟩

theorem Fair.newClient (hfair : Fair h) (hidle : h.work = .idle) : Fair h.newClient := by
  have hfresh : h.pool.length ∉ h.clients := fun hmem => (hfair.bound _ hmem).ne rfl
  have hget : ∀ {j : ℕ} {c : Client}, h.newClient.pool[j]? = some c → h.pool[j]? = some c ∧
      j ≠ h.pool.length ∨
        j = h.pool.length ∧ c = ⟨.empty, [], h.closed, [], [], h.published.length⟩ := by
    intro j c hget
    have hget : (h.pool ++ [(⟨.empty, [], h.closed, [], [], h.published.length⟩ : Client)])[j]? =
      some c := hget
    rw [List.getElem?_append] at hget
    split_ifs at hget with hlt
    · exact .inl ⟨hget, hlt.ne⟩
    · rw [List.getElem?_singleton] at hget
      split_ifs at hget with hzero
      exact .inr ⟨by omega, (Option.some.inj hget).symm⟩
  have hclients : h.newClient.clients =
      if h.closed then h.clients else h.clients ++ [h.pool.length] := rfl
  refine ⟨?_, fun j hj => ?_, fun j c hj => ?_, fun j c hj => ?_, hfair.once, hfair.increasing⟩
  · rw [hclients]
    split_ifs
    · exact hfair.nodup
    · exact List.nodup_append.2 ⟨hfair.nodup, List.nodup_singleton _, fun a ha b hb hab =>
        hfresh (List.mem_singleton.1 hb ▸ hab ▸ ha)⟩
  · rw [hclients] at hj
    show j < (h.pool ++ [_]).length
    rw [List.length_append, List.length_singleton]
    split_ifs at hj
    · exact (hfair.bound j hj).trans (Nat.lt_succ_self _)
    · rcases List.mem_append.1 hj with hj | hj
      · exact (hfair.bound j hj).trans (Nat.lt_succ_self _)
      · rw [List.mem_singleton.1 hj]
        exact Nat.lt_succ_self _
  · rw [hclients]
    rcases hget hj with ⟨hold, hne⟩ | ⟨rfl, rfl⟩
    · rw [← hfair.listed j c hold]
      split_ifs
      · rfl
      · simp [hne]
    · rcases hclosed : h.closed with - | -
      · simp
      · simp [hfresh]
  · rcases hget hj with ⟨hold, -⟩ | ⟨rfl, rfl⟩
    · exact hfair.served j c hold
    · have hwhole : (⟨.empty, [], h.closed, [], [], h.published.length⟩ : Client).Whole
          h.published :=
        ⟨(List.drop_length).symm, fun offer hmem => absurd hmem List.not_mem_nil⟩
      have howed : h.work.Owes h.published h.pool.length
          ⟨.empty, [], h.closed, [], [], h.published.length⟩ := by
        rw [hidle]
        exact hwhole
      have hserved : Served h.work h.published h.pool.length
          ⟨.empty, [], h.closed, [], [], h.published.length⟩ :=
        ⟨List.append_nil _, Nat.le_refl _, fun _ => hwhole.stopped, fun _ => howed⟩
      exact hserved

theorem Fair.publish (hfair : Fair h) (hidle : h.work = .idle) {event : RoutedEvent}
    (hlater : ∀ earlier ∈ h.published, earlier.event.version < event.event.version) :
    Fair (h.publish event) := by
  unfold Hub.publish
  split_ifs
  · exact hfair
  · refine ⟨hfair.nodup, hfair.bound, hfair.listed, fun i c hget => ?_, ?_, ?_⟩
    · obtain ⟨hdelivered, hsince, hclosed, howed⟩ := hfair.served i c hget
      rw [hidle] at howed
      have hmem := hfair.listed i c hget
      refine ⟨hdelivered, hsince.trans (by simp), fun hcl => (hclosed hcl).publish hsince event,
        fun hop => ⟨fun _ => ⟨h.published, rfl, hsince, howed hop⟩, fun hnot =>
          absurd (hmem.2 hop) hnot, fun hnot => absurd (hmem.2 hop) hnot⟩⟩
    · rintro _ _ _ heq
      cases heq
      exact hfair.nodup
    · refine List.pairwise_append.2 ⟨hfair.increasing, List.pairwise_singleton _ _, ?_⟩
      intro earlier hmem later hlast
      rw [List.mem_singleton.1 hlast]
      exact hlater earlier hmem

theorem Fair.deliver (hfair : Fair h) {client : ℕ} {event : RoutedEvent} {left slow : List ℕ}
    (hwork : h.work = .publishing event left slow) (hleft : client ∈ left) :
    Fair (h.deliver client event left slow) := by
  unfold Hub.deliver
  split
  swap
  · exact hfair
  rename_i c hclient
  obtain ⟨hdelivered, hsince, hstopped, howed⟩ := hfair.served client c hclient
  have hlength : client < h.pool.length := (List.getElem?_eq_some_iff.1 hclient).1
  have hdone : client ∉ left.erase client := fun hmem =>
    ((hfair.once event left slow hwork).mem_erase_iff.1 hmem).1 rfl
  -- what delivering does to the client itself
  have hown : (c.deliver h.clientBuffer event).1.closed = c.closed ∧
      Served (.publishing event (left.erase client)
        (if (c.deliver h.clientBuffer event).2 then slow else slow ++ [client])) h.published client
          (c.deliver h.clientBuffer event).1 := by
    rcases hopen : c.closed with - | -
    · have howes := howed hopen
      rw [hwork] at howes
      obtain ⟨earlier, hpublished, hlen, hwhole⟩ := howes.1 hleft
      obtain ⟨hdel, hop, hsin, hsto, hsent⟩ :=
        hwhole.deliver hdelivered hlen hopen h.clientBuffer event
      rw [← hpublished] at hsto hsent
      refine ⟨hop, hdel, hsin ▸ hsince, fun _ => hsto, fun _ =>
        ⟨fun hmem => absurd hmem hdone, fun _ => hsto, fun _ hslow => hsent ?_⟩⟩
      by_contra hfull
      rw [if_neg hfull] at hslow
      exact hslow (List.mem_append_right _ (List.mem_singleton_self client))
    · have hsame : c.deliver h.clientBuffer event = (c, false) := by
        unfold Client.deliver
        rw [if_pos hopen]
      rw [hsame]
      exact ⟨hopen, hdelivered, hsince, hstopped, fun hop => by
        rw [hopen] at hop
        cases hop⟩
  have hget : ∀ {j : ℕ} {c' : Client},
      (h.pool.set client (c.deliver h.clientBuffer event).1)[j]? = some c' →
        j = client ∧ c' = (c.deliver h.clientBuffer event).1 ∨
          j ≠ client ∧ h.pool[j]? = some c' := by
    intro j c' hget
    rw [List.getElem?_set] at hget
    split_ifs at hget with heq
    · exact .inl ⟨heq.symm, (Option.some.inj hget).symm⟩
    · exact .inr ⟨fun hne => heq hne.symm, hget⟩
  refine ⟨hfair.nodup, fun j hj => ?_, fun j c' hj => ?_, fun j c' hj => ?_, ?_, hfair.increasing⟩
  · show j < (h.pool.set _ _).length
    rw [List.length_set]
    exact hfair.bound j hj
  · rcases hget hj with ⟨rfl, rfl⟩ | ⟨-, hold⟩
    · rw [hown.1]
      exact hfair.listed j c hclient
    · exact hfair.listed j c' hold
  · rcases hget hj with ⟨rfl, rfl⟩ | ⟨hne, hold⟩
    · exact hown.2
    · obtain ⟨hdel, hsin, hsto, howe⟩ := hfair.served j c' hold
      refine ⟨hdel, hsin, hsto, fun hop => ?_⟩
      have howes := howe hop
      rw [hwork] at howes
      refine ⟨fun hmem => howes.1 (List.mem_of_mem_erase hmem),
        fun hmem => howes.2.1 fun hin => hmem ((List.mem_erase_of_ne hne).2 hin),
        fun hmem hslow => howes.2.2 (fun hin => hmem ((List.mem_erase_of_ne hne).2 hin))
          fun hin => hslow ?_⟩
      split_ifs
      · exact hin
      · exact List.mem_append_left _ hin
  · rintro _ _ _ heq
    cases heq
    exact (hfair.once event left slow hwork).erase client

theorem Fair.step (hfair : Fair h) (step : HubStep)
    (hlater : ∀ event, step = .publish event → ∀ earlier ∈ h.published,
      earlier.event.version < event.event.version) : Fair (h.step step) := by
  cases step with
  | newClient =>
    simp only [Hub.step]
    split
    · rename_i hidle
      exact hfair.newClient hidle
    · exact hfair
  | removeClient client =>
    simp only [Hub.step]
    split
    · rename_i hidle
      have hclose : Fair { h.closeClientLocked client with work := h.work } := by
        refine hfair.closeClientLocked (fun c hget hop => ?_) (fun _ _ _ howed => howed) hfair.once
        have howed := (hfair.served client c hget).owed hop
        rw [hidle] at howed
        exact Client.Whole.stopped howed
      exact hclose
    · exact hfair
  | close =>
    simp only [Hub.step]
    split
    · rename_i hidle
      unfold Hub.close
      split_ifs
      · exact hfair
      · have hgoOn := hfair.goOn (.closing h.clients) (fun i c _ howed => by
          rw [hidle] at howed
          exact ⟨Client.Whole.stopped howed, fun _ => howed⟩) (fun _ _ _ heq => by cases heq)
        exact ⟨hgoOn.nodup, hgoOn.bound, hgoOn.listed, hgoOn.served, hgoOn.once,
          hgoOn.increasing⟩
    · exact hfair
  | publish event =>
    simp only [Hub.step]
    split
    · rename_i hidle
      exact hfair.publish hidle (hlater event rfl)
    · exact hfair
  | deliver client =>
    simp only [Hub.step]
    split
    · rename_i event left slow hwork
      split_ifs with hleft
      · exact hfair.deliver hwork hleft
      · exact hfair
    · exact hfair
  | delivered =>
    simp only [Hub.step]
    split
    · rename_i event slow hwork
      refine hfair.goOn _ (fun i c _ howed => ?_) (fun _ _ _ heq => by cases heq)
      rw [hwork] at howed
      exact ⟨howed.2.1 List.not_mem_nil, howed.2.2 List.not_mem_nil⟩
    · exact hfair
  | closeClient client =>
    simp only [Hub.step]
    split
    · rename_i left hwork
      split_ifs with hleft
      · refine hfair.closeClientLocked (fun c hget hop => ?_) (fun i c hne howed => ?_)
          (fun _ _ _ heq => by cases heq)
        · have howed := (hfair.served client c hget).owed hop
          rw [hwork] at howed
          exact howed.1
        · rw [hwork] at howed
          exact ⟨howed.1, fun hmem => howed.2 fun hin => hmem ((List.mem_erase_of_ne hne).2 hin)⟩
      · exact hfair
    · exact hfair
  | unlock =>
    simp only [Hub.step]
    split
    · rename_i hwork
      refine hfair.goOn _ (fun i c _ howed => ?_) (fun _ _ _ heq => by cases heq)
      rw [hwork] at howed
      exact howed.2 List.not_mem_nil
    · exact hfair
  | subscribe client sub =>
    refine hfair.modify client ?_ ?_ ?_ ?_ <;> intro c <;> unfold Client.subscribe <;>
      split_ifs <;> rfl
  | unsubscribe client sub =>
    exact hfair.modify client (fun _ => rfl) (fun _ => rfl) (fun _ => rfl) fun _ => rfl
  | receive client =>
    refine hfair.modify client ?_ ?_ ?_ ?_ <;> intro c <;> unfold Client.receive <;> split
    all_goals first | rfl | simp_all

theorem HubRun.fair {clientBuffer : ℕ} (run : HubRun clientBuffer h) : Fair h := by
  induction run with
  | new =>
    have hnone : ∀ {i : ℕ} {c : Client} {P : Prop}, (Hub.new clientBuffer).pool[i]? = some c → P :=
      fun hget => by cases hget
    exact ⟨List.nodup_nil, fun i hmem => absurd hmem List.not_mem_nil, fun i c hget => hnone hget,
      fun i c hget => hnone hget, (fun _ _ _ heq => by cases heq), .nil⟩
  | step step _ hlater ih => exact ih.step step hlater

/-- What a client has received and will, as far as the hub has come. -/
structure Received (h : Hub) (c : Client) : Prop where
  /-- It is what was sent to the client, in the order of the versions and each event once. -/
  sent : c.read ++ c.send = (c.offered.filter Offer.sent).map Offer.event
  increasing : (c.read ++ c.send).Pairwise fun earlier later =>
    earlier.event.version < later.event.version
  /-- The events offered are those published since the client came, up to where it was closed. -/
  published : c.offered.map Offer.event <+: h.published.drop c.since
  all : h.work = .idle → c.closed = false →
    c.offered.map Offer.event = h.published.drop c.since ∧
      ∀ offer ∈ c.offered, offer.sent = offer.wanted
  /-- An event was sent if a subscription held then matched it, unless it did not fit, and then it
  was the last one. -/
  wanted : ∀ offer ∈ c.offered, offer.sent = true → offer.wanted = true
  missed : ∀ before offer after, c.offered = before ++ offer :: after → offer.wanted = true →
    offer.sent = false → after = []

theorem Fair.received (hfair : Fair h) {c : Client} (hmem : c ∈ h.pool) : Received h c := by
  obtain ⟨i, hget⟩ := List.mem_iff_getElem?.1 hmem
  obtain ⟨hdelivered, hsince, hclosed, howed⟩ := hfair.served i c hget
  have hstopped : c.Stopped h.published := by
    rcases hcl : c.closed with - | -
    · have howes := howed hcl
      cases hwork : h.work with
      | idle =>
        rw [hwork] at howes
        exact Client.Whole.stopped howes
      | publishing event left slow =>
        rw [hwork] at howes
        by_cases hleft : i ∈ left
        · obtain ⟨earlier, heq, hlen, hwhole⟩ := howes.1 hleft
          rw [heq]
          exact hwhole.stopped.publish hlen event
        · exact howes.2.1 hleft
      | closing left =>
        rw [hwork] at howes
        exact howes.1
    · exact hclosed hcl
  refine ⟨hdelivered, ?_, hstopped.1, fun hidle hcl => ?_, hstopped.2.2, ?_⟩
  · rw [hdelivered]
    have hpublished : (c.offered.map Offer.event).Pairwise fun earlier later =>
        earlier.event.version < later.event.version :=
      (hfair.increasing.sublist (List.drop_sublist _ _)).sublist hstopped.1.sublist
    exact hpublished.sublist (List.filter_sublist.map _)
  · have howes := howed hcl
    rw [hidle] at howes
    exact howes
  · intro before offer after heq hwanted hnot
    by_contra hafter
    have hdrop : offer ∈ c.offered.dropLast := by
      rw [heq, List.dropLast_append_of_ne_nil (List.cons_ne_nil offer after)]
      refine List.mem_append_right _ ?_
      rw [List.dropLast_cons_of_ne_nil hafter]
      exact List.mem_cons_self
    rw [hstopped.2.1 offer hdrop, hwanted] at hnot
    cases hnot

end Hubs

end Atlas.Feed
