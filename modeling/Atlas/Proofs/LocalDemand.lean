import Atlas.Proofs.RadioExclusion

/-!
# What the clients demand

A key is demanded while a client holds it (`hasKey_iff`). An addition, a removal and a disconnection
change what one client holds and tell what thereby changes of the keys demanded by anybody, and
`aggregate` has each of these keys once.
-/

namespace Atlas.Link

namespace LocalSubscriptionDemand

/-- What a client demands. -/
def client (d : LocalSubscriptionDemand) (clientID : String) : OrderedMap String String :=
  (d.byClient.get clientID).getD .empty

def Holds (d : LocalSubscriptionDemand) (clientID key : String) : Prop :=
  (d.client clientID).has key = true

/-- Selectors are kept under their keys. -/
def Keyed (d : LocalSubscriptionDemand) : Prop :=
  ∀ clientID key selector, (d.client clientID).get key = some selector → selectorKey selector = key

variable {d : LocalSubscriptionDemand} {clientID selector : String}

theorem client_of_get {m : OrderedMap String String} (h : d.byClient.get clientID = some m) :
    d.client clientID = m := by
  unfold client
  rw [h, Option.getD_some]

theorem hasKey_iff {key : String} : d.hasKey key = true ↔ ∃ clientID, d.Holds clientID key := by
  unfold hasKey Holds
  rw [List.any_eq_true]
  constructor
  · rintro ⟨m, hm, hkey⟩
    obtain ⟨clientID, hget⟩ := OrderedMap.mem_values.1 hm
    exact ⟨clientID, by rw [client_of_get hget, hkey]⟩
  · rintro ⟨clientID, hkey⟩
    rcases hget : d.byClient.get clientID with _ | m
    · simp [client, hget, OrderedMap.has, OrderedMap.empty] at hkey
    · rw [client_of_get hget] at hkey
      exact ⟨m, OrderedMap.mem_values.2 ⟨clientID, hget⟩, hkey⟩

theorem client_add (d : LocalSubscriptionDemand) (clientID selector c : String) :
    (d.add clientID selector).1.client c =
      if c = clientID then (d.client clientID).set (selectorKey selector) selector
      else d.client c := by
  unfold add client
  rw [OrderedMap.get_set]
  split_ifs <;> rfl

theorem add_hasKey (d : LocalSubscriptionDemand) (clientID selector key : String) :
    (d.add clientID selector).1.hasKey key = true ↔
      key = selectorKey selector ∨ d.hasKey key = true := by
  simp only [hasKey_iff, Holds, client_add]
  constructor
  · rintro ⟨c, hc⟩
    split_ifs at hc with hclient
    · rw [OrderedMap.has_set, Bool.or_eq_true, decide_eq_true_eq] at hc
      exact hc.imp_right fun hkey => ⟨clientID, hkey⟩
    · exact .inr ⟨c, hc⟩
  · rintro (hkey | ⟨c, hc⟩)
    · exact ⟨clientID, by simp [OrderedMap.has_set, hkey]⟩
    · refine ⟨c, ?_⟩
      split_ifs with hclient
      · subst hclient
        simp [OrderedMap.has_set, hc]
      · exact hc

theorem Keyed.add (h : d.Keyed) (clientID selector : String) :
    (d.add clientID selector).1.Keyed := by
  intro c key selector' hget
  rw [client_add] at hget
  split_ifs at hget with hc
  · rw [OrderedMap.get_set] at hget
    split_ifs at hget with hkey
    · cases hget
      exact hkey.symm
    · exact h clientID key selector' hget
  · exact h c key selector' hget

/-- Also where a client is dropped with its last selector, what it demands is what is left. -/
theorem get_client_remove (d : LocalSubscriptionDemand) (clientID selector c : String) :
    ((d.remove clientID selector).1.client c).get =
      if c = clientID then ((d.client clientID).delete (selectorKey selector)).get
      else (d.client c).get := by
  unfold remove
  dsimp only
  rcases hget : d.byClient.get clientID with _ | m
  · split_ifs with hc
    · subst hc
      funext key
      simp [client, hget, OrderedMap.get_delete]
    · rfl
  · rw [client_of_get hget]
    by_cases hhas : m.has (selectorKey selector) = false
    · simp only [if_pos hhas]
      split_ifs with hc
      · subst hc
        rw [client_of_get hget, OrderedMap.get_delete_of_not_has hhas]
      · rfl
    · by_cases hsize : (m.delete (selectorKey selector)).size = 0
      · simp only [if_neg hhas, if_pos hsize, client, OrderedMap.get_delete]
        split_ifs with hc
        · funext key
          rw [OrderedMap.get_of_size_eq_zero hsize]
          rfl
        · rfl
      · simp only [if_neg hhas, if_neg hsize, client, OrderedMap.get_set]
        split_ifs <;> rfl

theorem remove_holds (d : LocalSubscriptionDemand) (clientID selector c key : String) :
    (d.remove clientID selector).1.Holds c key ↔
      ¬ (c = clientID ∧ key = selectorKey selector) ∧ d.Holds c key := by
  unfold Holds
  rw [OrderedMap.has_eq_true_iff, get_client_remove, OrderedMap.has_eq_true_iff]
  split_ifs with hc
  · subst hc
    rw [OrderedMap.get_delete]
    split_ifs with hkey <;> simp [hkey]
  · simp [hc]

theorem Keyed.remove (h : d.Keyed) (clientID selector : String) :
    (d.remove clientID selector).1.Keyed := by
  intro c key selector' hget
  rw [get_client_remove] at hget
  split_ifs at hget
  · rw [OrderedMap.get_delete] at hget
    split_ifs at hget
    exact h clientID key selector' hget
  · exact h c key selector' hget

theorem remove_hasKey_of_ne (d : LocalSubscriptionDemand) (clientID selector : String)
    {key : String} (hkey : key ≠ selectorKey selector) :
    (d.remove clientID selector).1.hasKey key = true ↔ d.hasKey key = true := by
  simp only [hasKey_iff, remove_holds]
  exact exists_congr fun c => ⟨And.right, fun hc => ⟨fun heq => hkey heq.2, hc⟩⟩

/-- There is something to tell of a removal exactly when it takes a selector's last client. -/
theorem remove_transition (d : LocalSubscriptionDemand) (clientID selector : String) :
    ((d.remove clientID selector).2 = none ∧
      ((d.remove clientID selector).1.hasKey (selectorKey selector) = true ↔
        d.hasKey (selectorKey selector) = true)) ∨
    ((d.remove clientID selector).2 = some ⟨.remove, selector⟩ ∧
      d.hasKey (selectorKey selector) = true ∧
      (d.remove clientID selector).1.hasKey (selectorKey selector) = false) := by
  unfold remove
  dsimp only
  rcases hget : d.byClient.get clientID with _ | m
  · exact .inl ⟨rfl, Iff.rfl⟩
  dsimp only
  by_cases hhas : m.has (selectorKey selector) = false
  · rw [if_pos hhas]
    exact .inl ⟨rfl, Iff.rfl⟩
  · rw [if_neg hhas]
    have hheld : d.hasKey (selectorKey selector) = true :=
      hasKey_iff.2 ⟨clientID, by
        show (d.client clientID).has _ = true
        rw [client_of_get hget]
        simpa using hhas⟩
    generalize (⟨if (m.delete (selectorKey selector)).size = 0 then d.byClient.delete clientID
      else d.byClient.set clientID (m.delete (selectorKey selector))⟩ :
        LocalSubscriptionDemand) = left
    dsimp only
    split_ifs with hleft
    · exact .inl ⟨rfl, fun _ => hheld, fun _ => hleft⟩
    · exact .inr ⟨rfl, hheld, by simpa using hleft⟩

theorem client_disconnect (d : LocalSubscriptionDemand) (clientID c : String) :
    (d.disconnect clientID).1.client c = if c = clientID then .empty else d.client c := by
  unfold disconnect
  rcases hget : d.byClient.get clientID with _ | m
  · split_ifs with hc
    · subst hc
      simp [client, hget]
    · rfl
  · unfold client
    dsimp only
    rw [OrderedMap.get_delete]
    split_ifs <;> rfl

theorem Keyed.disconnect (h : d.Keyed) (clientID : String) : (d.disconnect clientID).1.Keyed := by
  intro c key selector' hget
  rw [client_disconnect] at hget
  split_ifs at hget
  · cases hget
  · exact h c key selector' hget

theorem disconnect_hasKey_le (d : LocalSubscriptionDemand) (clientID : String) {key : String}
    (h : (d.disconnect clientID).1.hasKey key = true) : d.hasKey key = true := by
  obtain ⟨c, hc⟩ := hasKey_iff.1 h
  unfold Holds at hc
  rw [client_disconnect] at hc
  split_ifs at hc
  · simp [OrderedMap.has, OrderedMap.empty] at hc
  · exact hasKey_iff.2 ⟨c, hc⟩

/-- The keys of the removals that a disconnection has to tell, each once: what nobody demands any
more. -/
theorem disconnect_keys (h : d.Keyed) (clientID : String) :
    ((d.disconnect clientID).2.map fun t => selectorKey t.selector).Nodup ∧
      (∀ t ∈ (d.disconnect clientID).2, t.action = .remove) ∧
      ∀ key, key ∈ (d.disconnect clientID).2.map (fun t => selectorKey t.selector) ↔
        d.hasKey key = true ∧ (d.disconnect clientID).1.hasKey key = false := by
  rcases hget : d.byClient.get clientID with _ | m
  · have hnone : d.disconnect clientID = (d, []) := by
      unfold disconnect
      rw [hget]
    rw [hnone]
    refine ⟨List.nodup_nil, by simp, fun key => ?_⟩
    simp
  · have hsome : d.disconnect clientID = (⟨d.byClient.delete clientID⟩,
        (m.entries.filter fun e => !hasKey e.1 ⟨d.byClient.delete clientID⟩).map
          fun e => ⟨.remove, e.2⟩) := by
      unfold disconnect
      rw [hget]
    set left : LocalSubscriptionDemand := ⟨d.byClient.delete clientID⟩
    have hclient := client_of_get hget
    have hkeys : (d.disconnect clientID).2.map (fun t => selectorKey t.selector) =
        (m.entries.filter fun e => !left.hasKey e.1).map Prod.fst := by
      rw [hsome, List.map_map]
      refine List.map_congr_left fun e he => ?_
      have hentry := OrderedMap.get_eq_some_iff.2 (List.mem_filter.1 he).1
      exact h clientID e.1 e.2 (hclient.symm ▸ hentry)
    refine ⟨?_, ?_, fun key => ?_⟩
    · rw [hkeys]
      exact m.nodup.sublist (List.filter_sublist.map _)
    · rw [hsome]
      intro t ht
      obtain ⟨e, -, rfl⟩ := List.mem_map.1 ht
      rfl
    · have hdisconnected := client_disconnect d clientID
      rw [hkeys, show (d.disconnect clientID).1 = left from by rw [hsome]] at *
      constructor
      · intro hkey
        obtain ⟨e, he, rfl⟩ := List.mem_map.1 hkey
        rw [List.mem_filter, Bool.not_eq_true'] at he
        refine ⟨hasKey_iff.2 ⟨clientID, ?_⟩, he.2⟩
        rw [Holds, hclient, OrderedMap.has_eq_true_iff]
        exact ⟨e.2, OrderedMap.get_eq_some_iff.2 he.1⟩
      · rintro ⟨hheld, hleft⟩
        obtain ⟨c, hc⟩ := hasKey_iff.1 hheld
        by_cases hcc : c = clientID
        · subst hcc
          rw [Holds, hclient, OrderedMap.has_eq_true_iff] at hc
          obtain ⟨selector, hselector⟩ := hc
          refine List.mem_map.2 ⟨(key, selector), List.mem_filter.2 ⟨?_, by simp [hleft]⟩, rfl⟩
          exact OrderedMap.get_eq_some_iff.1 hselector
        · have hstill : left.hasKey key = true := hasKey_iff.2 ⟨c, by
            rw [Holds, hdisconnected, if_neg hcc]
            exact hc⟩
          rw [hleft] at hstill
          cases hstill

section Aggregating

theorem foldl_set (entries : List (String × String)) : ∀ result : OrderedMap String String,
    (∀ key, (entries.foldl (fun result e => result.set e.1 e.2) result).has key = true ↔
      result.has key = true ∨ ∃ e ∈ entries, e.1 = key) ∧
    ((∀ key v, result.get key = some v → selectorKey v = key) →
      (∀ e ∈ entries, selectorKey e.2 = e.1) →
        ∀ key v, (entries.foldl (fun result e => result.set e.1 e.2) result).get key = some v →
          selectorKey v = key) := by
  induction entries with
  | nil => exact fun result => ⟨fun key => by simp, fun h _ => h⟩
  | cons e entries ih =>
    intro result
    obtain ⟨hhas, hkeyed⟩ := ih (result.set e.1 e.2)
    refine ⟨fun key => ?_, fun hresult hentries => hkeyed (fun key v hget => ?_)
      fun e' he' => hentries e' (List.mem_cons_of_mem e he')⟩
    · rw [List.foldl_cons, hhas, OrderedMap.has_set, Bool.or_eq_true, decide_eq_true_eq]
      simp only [List.mem_cons, exists_eq_or_imp]
      tauto
    · rw [OrderedMap.get_set] at hget
      split_ifs at hget with hkey
      · cases hget
        rw [hkey]
        exact hentries e List.mem_cons_self
      · exact hresult key v hget

theorem foldl_clients (clients : List (OrderedMap String String)) :
    ∀ result : OrderedMap String String,
      (∀ key, (clients.foldl (fun result m =>
          m.entries.foldl (fun result e => result.set e.1 e.2) result) result).has key = true ↔
        result.has key = true ∨ ∃ m ∈ clients, m.has key = true) ∧
      ((∀ key v, result.get key = some v → selectorKey v = key) →
        (∀ m ∈ clients, ∀ e ∈ m.entries, selectorKey e.2 = e.1) →
          ∀ key v, (clients.foldl (fun result m =>
            m.entries.foldl (fun result e => result.set e.1 e.2) result) result).get key = some v →
              selectorKey v = key) := by
  induction clients with
  | nil => exact fun result => ⟨fun key => by simp, fun h _ => h⟩
  | cons m clients ih =>
    intro result
    obtain ⟨hset, hsetKeyed⟩ := foldl_set m.entries result
    obtain ⟨hhas, hkeyed⟩ := ih (m.entries.foldl (fun result e => result.set e.1 e.2) result)
    refine ⟨fun key => ?_, fun hresult hclients => hkeyed
      (hsetKeyed hresult (hclients m List.mem_cons_self))
      fun m' hm' => hclients m' (List.mem_cons_of_mem m hm')⟩
    have hm : m.has key = true ↔ ∃ e ∈ m.entries, e.1 = key := by
      simp [OrderedMap.has, List.any_eq_true]
    rw [List.foldl_cons, hhas, hset, ← hm]
    simp only [List.mem_cons, exists_eq_or_imp]
    tauto

theorem aggregate_has (d : LocalSubscriptionDemand) (key : String) :
    d.aggregate.has key = true ↔ d.hasKey key = true := by
  unfold aggregate hasKey
  rw [(foldl_clients _ _).1, List.any_eq_true]
  simp [OrderedMap.has, OrderedMap.empty]

theorem aggregate_keyed (h : d.Keyed) {key selector : String}
    (hget : d.aggregate.get key = some selector) : selectorKey selector = key := by
  refine (foldl_clients d.byClient.values .empty).2 (by simp) (fun m hm e he => ?_) key selector
    hget
  obtain ⟨clientID, hclient⟩ := OrderedMap.mem_values.1 hm
  refine h clientID e.1 e.2 ?_
  rw [client_of_get hclient]
  exact OrderedMap.get_eq_some_iff.2 he

end Aggregating

end LocalSubscriptionDemand

end Atlas.Link
