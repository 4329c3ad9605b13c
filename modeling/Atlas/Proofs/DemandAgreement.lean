import Atlas.Proofs.Demand
import Atlas.Proofs.LocalTransitions

/-!
# Both ends of a subscription agree

What the clients of an Asset demand reaches the Gateway as messages: one for each transition, and
renewals in between. The last message about a selector says whether it is demanded
(`Concludes.announced`), and it is the newest, so that once all have arrived, in whatever order, the
Gateway's lease is the one that it left.
-/

namespace Atlas.Link

open Demand (runDemand Handed OneSession LeaseOf position)

/-- The calls of an Asset's clients and the renewals between them, with all that is announced. -/
def announced (d : LocalSubscriptionDemand) :
    List (Option LocalDemandOp) → LocalSubscriptionDemand × List SubscriptionTransition
  | [] => (d, [])
  | none :: calls =>
    let rest := announced d calls
    (rest.1, d.renewals ++ rest.2)
  | some op :: calls =>
    let first := op.run d
    let rest := announced first.1 calls
    (rest.1, first.2 ++ rest.2)

/-- The transition a message is about. -/
def MessageEvent.said (event : MessageEvent) : Option SubscriptionTransition :=
  match event.message with
  | .subscription action selector => some ⟨action, selector⟩
  | _ => none

/-- The last that was announced of a selector. -/
def lastSaid (selector : String) (ts : List SubscriptionTransition) :
    Option SubscriptionTransition :=
  ts.reverse.find? (·.selector = selector)

/-- A selector is demanded at the end if nothing said of it last was a removal, or nothing at all of
one that was demanded. -/
def Concludes (keys : Finset String) (ts : List SubscriptionTransition) (keys' : Finset String) :
    Prop :=
  ∀ s, s ∈ keys' ↔ (lastSaid s ts).elim (s ∈ keys) (·.action ≠ .remove)

theorem lastSaid_append (s : String) (ts ts' : List SubscriptionTransition) :
    lastSaid s (ts ++ ts') = (lastSaid s ts').or (lastSaid s ts) := by
  rw [lastSaid, List.reverse_append, List.find?_append]
  rfl

section Leading

variable {keys keys' keys'' : Finset String} {ts ts' : List SubscriptionTransition}

theorem Concludes.append (h : Concludes keys ts keys') (h' : Concludes keys' ts' keys'') :
    Concludes keys (ts ++ ts') keys'' := by
  intro s
  rw [h' s, lastSaid_append]
  cases lastSaid s ts' with
  | none => exact h s
  | some t => rfl

theorem Concludes.single (t : SubscriptionTransition)
    (hrenew : t.action = .renew → t.selector ∈ keys) :
    Concludes keys [t] (t.after keys) := by
  intro s
  by_cases hs : t.selector = s
  · have hlast : lastSaid s [t] = some t := by simp [lastSaid, hs]
    subst hs
    rw [hlast]
    cases haction : t.action <;> simp [SubscriptionTransition.after, selectorKey, haction, hrenew]
  · have hlast : lastSaid s [t] = none := by simp [lastSaid, hs]
    rw [hlast]
    cases haction : t.action <;>
      simp [SubscriptionTransition.after, selectorKey, haction, Ne.symm hs]

theorem Follows.concludes : ∀ {ts : List SubscriptionTransition} {keys : Finset String},
    Follows keys ts keys' → Concludes keys ts keys'
  | [], keys, h, s => by
    obtain rfl := h
    rfl
  | t :: ts, keys, h, s => by
    refine (Concludes.single t fun hrenew => absurd ?_ h.1).append h.2.concludes s
    rw [SubscriptionTransition.after, hrenew]

theorem concludes_renewals {d : LocalSubscriptionDemand} (h : d.Keyed) :
    Concludes d.aggregateKeys d.renewals d.aggregateKeys := by
  intro s
  rcases hlast : lastSaid s d.renewals with _ | t
  · rfl
  · obtain ⟨selector, hmem, rfl⟩ := List.mem_map.1
      (List.mem_reverse.1 (List.mem_of_find?_eq_some hlast))
    obtain rfl : selector = s := by simpa using List.find?_some hlast
    obtain ⟨key, hget⟩ := OrderedMap.mem_values.1 hmem
    obtain rfl := LocalSubscriptionDemand.aggregate_keyed h hget
    refine iff_of_true ?_ (by simp)
    rw [LocalSubscriptionDemand.aggregateKeys, List.mem_toFinset, OrderedMap.mem_keys]
    exact OrderedMap.has_eq_true_iff.2 ⟨selector, hget⟩

theorem Concludes.announced : ∀ {d : LocalSubscriptionDemand} (_ : d.Keyed)
    (calls : List (Option LocalDemandOp)),
    Concludes d.aggregateKeys (announced d calls).2 (announced d calls).1.aggregateKeys
  | _, _, [], _ => Iff.rfl
  | _, h, none :: calls, s => ((concludes_renewals h).append (Concludes.announced h calls)) s
  | _, h, some op :: calls, s =>
    ((op.run_follows h).concludes.append (Concludes.announced (op.run_keyed h) calls)) s

end Leading

section Arriving

variable {id : String} {calls : List (Option LocalDemandOp)} {sent : List MessageEvent}
  {ops : List DemandOp}

/-- What an Asset has sent, and that all of it has arrived, each message once or more, and nothing
else in its name. -/
structure Arrived (id : String) (ts : List SubscriptionTransition) (sent : List MessageEvent)
    (ops : List DemandOp) : Prop where
  said : sent.map MessageEvent.said = ts.map some
  inOrder : sent.Pairwise fun earlier later => position earlier < position later
  known : ∀ e a s t, Handed ops e a s t → e.source.id = id →
    ∃ m ∈ sent, m.said = some ⟨a, s⟩ ∧ position e = position m
  handed : ∀ m ∈ sent, ∀ a s, m.said = some ⟨a, s⟩ →
    ∃ e t, Handed ops e a s t ∧ e.source.id = id ∧ position e = position m

/-- The message that said the last of a selector is the newest of those about it. -/
theorem Arrived.newest {ts : List SubscriptionTransition} (h : Arrived id ts sent ops)
    {selector : String} {last : SubscriptionTransition} (hlast : lastSaid selector ts = some last) :
    ∃ m ∈ sent, m.said = some last ∧ ∀ m' ∈ sent, ∀ a, m'.said = some ⟨a, selector⟩ →
      m' = m ∨ position m' < position m := by
  obtain ⟨-, after, before, heq, hafter⟩ := List.find?_eq_some_iff_append.1 hlast
  have hts : ts = before.reverse ++ last :: after.reverse := by
    rw [← List.reverse_reverse ts, heq]
    simp
  have hsaid := h.said
  rw [hts, List.map_append, List.map_cons] at hsaid
  obtain ⟨front, tail, rfl, hfront, htail⟩ := List.map_eq_append_iff.1 hsaid
  obtain ⟨m, back, rfl, hm, hback⟩ := List.map_eq_cons_iff.1 htail
  refine ⟨m, by simp, hm, fun m' hm' a ha => ?_⟩
  rcases List.mem_append.1 hm' with hmem | hmem
  · exact .inr ((List.pairwise_append.1 h.inOrder).2.2 m' hmem m List.mem_cons_self)
  · rcases List.mem_cons.1 hmem with rfl | hmem
    · exact .inl rfl
    · have hthere : m'.said ∈ after.reverse.map some := hback ▸ List.mem_map_of_mem hmem
      rw [ha] at hthere
      obtain ⟨t, ht, htm⟩ := List.mem_map.1 hthere
      obtain rfl := Option.some.inj htm
      have hnot := hafter _ (List.mem_reverse.1 ht)
      simp at hnot

end Arriving

section LateRemoval

open Demand (feedMessage)

theorem removal_valid : ':' ∉ (feedMessage .remove 2).source.id.toList := by decide

theorem addition_valid : ':' ∉ (feedMessage .add 1).source.id.toList := by decide

/-- An Asset's client subscribes and goes; the removal arrives first. -/
def removalFirst : List DemandOp :=
  [.apply (feedMessage .remove 2) 0 removal_valid, .apply (feedMessage .add 1) 1 addition_valid]

theorem removalFirst_arrived : Arrived "uav-1"
    (announced .new [some (.add "map" "all-entities"), some (.disconnect "map")]).2
    [feedMessage .add 1, feedMessage .remove 2] removalFirst where
  said := by decide +kernel
  inOrder := by decide +kernel
  known := by
    rintro e a s t ⟨before, valid, after, heq, -, -, hmessage, -⟩ -
    have hmem : DemandOp.apply e t valid ∈ removalFirst := heq ▸ by simp
    simp only [removalFirst, List.mem_cons, DemandOp.apply.injEq, List.not_mem_nil,
      or_false] at hmem
    rcases hmem with ⟨rfl, -⟩ | ⟨rfl, -⟩
    · exact ⟨_, .tail _ (.head _), by rw [MessageEvent.said, hmessage], rfl⟩
    · exact ⟨_, .head _, by rw [MessageEvent.said, hmessage], rfl⟩
  handed := by
    intro m hm a s hsaid
    rcases List.mem_pair.1 hm with rfl | rfl <;> cases hsaid
    · exact ⟨_, 1, ⟨[_], _, [], rfl, rfl, rfl, rfl, fun _ =>
        ne_of_eq_of_ne (show _ = none by decide +kernel) (by simp)⟩, rfl, rfl⟩
    · exact ⟨_, 0, ⟨[], _, [_], rfl, rfl, rfl, rfl, fun _ =>
        ne_of_eq_of_ne (show _ = none by decide +kernel) (by simp)⟩, rfl, rfl⟩

theorem removalFirst_oneSession : OneSession removalFirst := by
  intro e now valid e' now' valid' he he' _ _
  have hboot : ∀ e now valid, DemandOp.apply e now valid ∈ removalFirst →
      e.serviceSession = "boot-1" := by
    intro e now valid he
    simp only [removalFirst, List.mem_cons, DemandOp.apply.injEq, List.not_mem_nil,
      or_false] at he
    rcases he with ⟨rfl, -⟩ | ⟨rfl, -⟩ <;> rfl
  rw [hboot e now valid he, hboot e' now' valid' he']

end LateRemoval

end Atlas.Link
