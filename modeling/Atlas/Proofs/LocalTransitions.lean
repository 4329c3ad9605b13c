import Atlas.Proofs.LocalDemand

/-!
# The transitions of local demand

Whoever follows the transitions that a node's demand answers, from no keys on, has after each call
the keys that are demanded (`LocalDemandOp.runAll_follows`). A call tells what it changes of them
and nothing else: an addition its key where nobody had it, a removal its key where nobody has it any
more, and a disconnection or a clearing each key that goes, once (`Follows.removals`).
-/

namespace Atlas.Link

/-- The keys after a transition. -/
def SubscriptionTransition.after (t : SubscriptionTransition) (keys : Finset String) :
    Finset String :=
  match t.action with
  | .add => insert (selectorKey t.selector) keys
  | .remove => keys.erase (selectorKey t.selector)
  | .renew => keys

/-- Each transition changes the keys, and `keys'` is what they are in the end. -/
def Follows (keys : Finset String) : List SubscriptionTransition → Finset String → Prop
  | [], keys' => keys = keys'
  | t :: rest, keys' => t.after keys ≠ keys ∧ Follows (t.after keys) rest keys'

inductive LocalDemandOp
  | add (clientID selector : String)
  | remove (clientID selector : String)
  | disconnect (clientID : String)
  | clear
  deriving DecidableEq, Repr

def LocalDemandOp.run (d : LocalSubscriptionDemand) :
    LocalDemandOp → LocalSubscriptionDemand × List SubscriptionTransition
  | .add clientID selector =>
    let change := d.add clientID selector
    (change.1, change.2.toList)
  | .remove clientID selector =>
    let change := d.remove clientID selector
    (change.1, change.2.toList)
  | .disconnect clientID => d.disconnect clientID
  | .clear => d.clear

/-- A run of calls, with all that they answered. -/
def LocalDemandOp.runAll (d : LocalSubscriptionDemand) :
    List LocalDemandOp → LocalSubscriptionDemand × List SubscriptionTransition
  | [] => (d, [])
  | op :: ops =>
    let first := op.run d
    let rest := runAll first.1 ops
    (rest.1, first.2 ++ rest.2)

namespace LocalSubscriptionDemand

def aggregateKeys (d : LocalSubscriptionDemand) : Finset String := d.aggregate.keys.toFinset

theorem mem_aggregateKeys {d : LocalSubscriptionDemand} {key : String} :
    key ∈ d.aggregateKeys ↔ d.hasKey key = true := by
  rw [aggregateKeys, List.mem_toFinset, OrderedMap.mem_keys, aggregate_has]

end LocalSubscriptionDemand

section Following

variable {keys keys' keys'' : Finset String} {d : LocalSubscriptionDemand}

theorem Follows.append : ∀ {ts ts' : List SubscriptionTransition} {keys : Finset String},
    Follows keys ts keys' → Follows keys' ts' keys'' → Follows keys (ts ++ ts') keys''
  | [], _, _, h, h' => by
    obtain rfl := h
    exact h'
  | _ :: _, _, _, h, h' => ⟨h.1, h.2.append h'⟩

/-- Removals of keys that are there, each once. -/
theorem Follows.removals : ∀ {ts : List SubscriptionTransition} {keys : Finset String},
    (∀ t ∈ ts, t.action = .remove) → (ts.map fun t => selectorKey t.selector).Nodup →
    (∀ t ∈ ts, selectorKey t.selector ∈ keys) →
    Follows keys ts (keys \ (ts.map fun t => selectorKey t.selector).toFinset)
  | [], keys, _, _, _ => by simp [Follows]
  | t :: ts, keys, haction, hnodup, hkeys => by
    have hremove : t.after keys = keys.erase (selectorKey t.selector) := by
      rw [SubscriptionTransition.after, haction t List.mem_cons_self]
    obtain ⟨hnew, hnodup⟩ := List.nodup_cons.1 hnodup
    have hrest : ∀ s ∈ ts, selectorKey s.selector ∈ t.after keys := by
      intro s hs
      rw [hremove, Finset.mem_erase]
      refine ⟨fun heq => hnew (List.mem_map.2 ⟨s, hs, heq⟩), hkeys s (List.mem_cons_of_mem t hs)⟩
    refine ⟨?_, ?_⟩
    · rw [hremove, Ne, Finset.erase_eq_self, not_not]
      exact hkeys t List.mem_cons_self
    · have ih := Follows.removals (fun s hs => haction s (List.mem_cons_of_mem t hs)) hnodup hrest
      rw [hremove] at ih ⊢
      convert ih using 1
      ext key
      simp only [List.map_cons, List.toFinset_cons, Finset.mem_sdiff, Finset.mem_insert,
        Finset.mem_erase]
      tauto

theorem add_follows (d : LocalSubscriptionDemand) (clientID selector : String) :
    Follows d.aggregateKeys (d.add clientID selector).2.toList
      (d.add clientID selector).1.aggregateKeys := by
  have hkeys : (d.add clientID selector).1.aggregateKeys =
      insert (selectorKey selector) d.aggregateKeys := by
    ext key
    rw [LocalSubscriptionDemand.mem_aggregateKeys, LocalSubscriptionDemand.add_hasKey,
      Finset.mem_insert, LocalSubscriptionDemand.mem_aggregateKeys]
  have htransition : (d.add clientID selector).2 =
      if d.hasKey (selectorKey selector) then none else some ⟨.add, selector⟩ := rfl
  rw [hkeys, htransition]
  split_ifs with hheld
  · exact (Finset.insert_eq_self.2 (LocalSubscriptionDemand.mem_aggregateKeys.2 hheld)).symm
  · refine ⟨?_, rfl⟩
    rw [SubscriptionTransition.after, Ne, Finset.insert_eq_self,
      LocalSubscriptionDemand.mem_aggregateKeys]
    exact hheld

theorem remove_follows (d : LocalSubscriptionDemand) (clientID selector : String) :
    Follows d.aggregateKeys (d.remove clientID selector).2.toList
      (d.remove clientID selector).1.aggregateKeys := by
  have hother : ∀ key, key ≠ selectorKey selector →
      ((d.remove clientID selector).1.hasKey key = true ↔ d.hasKey key = true) :=
    fun key hkey => d.remove_hasKey_of_ne clientID selector hkey
  rcases d.remove_transition clientID selector with ⟨hnone, hsame⟩ | ⟨hsome, hheld, hleft⟩
  · rw [hnone]
    show d.aggregateKeys = _
    ext key
    rw [LocalSubscriptionDemand.mem_aggregateKeys, LocalSubscriptionDemand.mem_aggregateKeys]
    by_cases hkey : key = selectorKey selector
    · rw [hkey, hsame]
    · rw [hother key hkey]
  · rw [hsome]
    refine ⟨?_, ?_⟩
    · rw [SubscriptionTransition.after, Ne, Finset.erase_eq_self, not_not,
        LocalSubscriptionDemand.mem_aggregateKeys]
      exact hheld
    · show d.aggregateKeys.erase _ = _
      ext key
      rw [Finset.mem_erase, LocalSubscriptionDemand.mem_aggregateKeys,
        LocalSubscriptionDemand.mem_aggregateKeys]
      by_cases hkey : key = selectorKey selector
      · simp [hkey, hleft]
      · simp [hkey, hother key hkey]

theorem disconnect_follows (h : d.Keyed) (clientID : String) :
    Follows d.aggregateKeys (d.disconnect clientID).2
      (d.disconnect clientID).1.aggregateKeys := by
  obtain ⟨hnodup, haction, hkeys⟩ := LocalSubscriptionDemand.disconnect_keys h clientID
  have hfollows : Follows d.aggregateKeys _ _ := Follows.removals haction hnodup fun t ht =>
    LocalSubscriptionDemand.mem_aggregateKeys.2 ((hkeys _).1 (List.mem_map_of_mem ht)).1
  convert hfollows using 1
  ext key
  rw [Finset.mem_sdiff, List.mem_toFinset, hkeys, LocalSubscriptionDemand.mem_aggregateKeys,
    LocalSubscriptionDemand.mem_aggregateKeys]
  have hle : (d.disconnect clientID).1.hasKey key = true → d.hasKey key = true :=
    d.disconnect_hasKey_le clientID
  cases hleft : (d.disconnect clientID).1.hasKey key
  · simp
  · simp [hle hleft]

theorem clear_follows (h : d.Keyed) :
    Follows d.aggregateKeys d.clear.2 d.clear.1.aggregateKeys := by
  have hkeys : d.clear.2.map (fun t => selectorKey t.selector) = d.aggregate.keys := by
    show (d.aggregate.values.map _).map _ = _
    rw [OrderedMap.values, OrderedMap.keys, List.map_map, List.map_map]
    refine List.map_congr_left fun e he => ?_
    exact LocalSubscriptionDemand.aggregate_keyed h (OrderedMap.get_eq_some_iff.2 he)
  have haction : ∀ t ∈ d.clear.2, t.action = .remove := by
    intro t ht
    obtain ⟨selector, -, rfl⟩ := List.mem_map.1 ht
    rfl
  have hfollows : Follows d.aggregateKeys _ _ := Follows.removals haction
    (hkeys ▸ d.aggregate.nodup) fun t ht => by
      rw [LocalSubscriptionDemand.aggregateKeys, List.mem_toFinset, ← hkeys]
      exact List.mem_map_of_mem ht
  rw [hkeys] at hfollows
  convert hfollows using 1
  exact (Finset.sdiff_self _).symm

theorem LocalDemandOp.run_keyed (h : d.Keyed) : ∀ op : LocalDemandOp, (op.run d).1.Keyed
  | .add clientID selector => h.add clientID selector
  | .remove clientID selector => h.remove clientID selector
  | .disconnect clientID => h.disconnect clientID
  | .clear => fun _ _ _ hget => by cases hget

theorem LocalDemandOp.run_follows (h : d.Keyed) : ∀ op : LocalDemandOp,
    Follows d.aggregateKeys (op.run d).2 (op.run d).1.aggregateKeys
  | .add clientID selector => add_follows d clientID selector
  | .remove clientID selector => remove_follows d clientID selector
  | .disconnect clientID => disconnect_follows h clientID
  | .clear => clear_follows h

theorem LocalDemandOp.runAll_follows : ∀ {d : LocalSubscriptionDemand} (_ : d.Keyed)
    (ops : List LocalDemandOp),
    Follows d.aggregateKeys (runAll d ops).2 (runAll d ops).1.aggregateKeys
  | _, _, [] => rfl
  | _, h, op :: ops => (op.run_follows h).append (runAll_follows (op.run_keyed h) ops)

/-- After every run of calls the transitions lead from no keys to those that are demanded, and each
of them is a change. -/
theorem transitions_exact (ops : List LocalDemandOp) :
    Follows ∅ (LocalDemandOp.runAll .new ops).2
      (LocalDemandOp.runAll .new ops).1.aggregateKeys := by
  have hkeyed : LocalSubscriptionDemand.new.Keyed := fun _ _ _ hget => by cases hget
  exact LocalDemandOp.runAll_follows hkeyed ops

end Following

end Atlas.Link
