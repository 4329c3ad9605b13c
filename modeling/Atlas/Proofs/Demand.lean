import Atlas.Link.Subscriptions

/-!
# The Gateway's demand follows the newest messages

What an Asset holds on a selector is decided by the newest of its messages, in whatever order and
however often they arrive. The transitions answered, one after the other, give the selectors the
Gateway regards as active, and after a sweep these are the ones that are leased.
-/

namespace Atlas.Link.Demand

section Leases

variable (d : GatewaySubscriptionDemand) (now : ℕ) (a s : String)

/-- A lease on the selector has not expired. -/
def Leased (s : String) (now : ℕ) (d : GatewaySubscriptionDemand) : Prop :=
  ∃ a l, d.lease a s = some l ∧ now < l.expiresAt

theorem lease_setSource (id : String) (source : OrderedMap String Lease) :
    (d.setSource id source).lease a s = if a = id then source.get s else d.lease a s := by
  unfold GatewaySubscriptionDemand.lease GatewaySubscriptionDemand.setSource selectorKey
  by_cases hsize : source.size = 0
  · simp only [hsize, if_true, OrderedMap.get_delete]
    split_ifs
    · rw [OrderedMap.get_of_size_eq_zero hsize]
      rfl
    · rfl
  · simp only [hsize, if_false, OrderedMap.get_set]
    split_ifs <;> rfl

theorem leased_iff_has : Leased s now d ↔ ∃ a, d.has a s now = true := by
  unfold Leased GatewaySubscriptionDemand.has
  simp only [decide_eq_true_eq]
  constructor
  · rintro ⟨a, l, hl, hnow⟩
    exact ⟨a, by simpa [hl] using hnow⟩
  · rintro ⟨a, hnow⟩
    rcases hl : d.lease a s with _ | l
    · simp [hl] at hnow
    · exact ⟨a, l, hl, by simpa [hl] using hnow⟩

theorem isDemanded_iff : d.isDemanded s now = true ↔ Leased s now d := by
  unfold GatewaySubscriptionDemand.isDemanded Leased GatewaySubscriptionDemand.lease selectorKey
  simp only [List.any_eq_true, decide_eq_true_eq]
  constructor
  · rintro ⟨source, hsource, hnow⟩
    obtain ⟨a, ha⟩ := OrderedMap.mem_values.1 hsource
    rcases hl : source.get s with _ | l
    · simp [hl] at hnow
    · exact ⟨a, l, by simp [ha, hl], by simpa [hl] using hnow⟩
  · rintro ⟨a, l, hl, hnow⟩
    obtain ⟨source, hsource, hl⟩ := Option.bind_eq_some_iff.1 hl
    exact ⟨source, OrderedMap.mem_values.2 ⟨a, hsource⟩, by simpa [hl] using hnow⟩

/-- The lease a message leaves behind. -/
def leaseAfter (transition : SubscriptionTransition) (now : ℕ) : Option Lease :=
  match transition.action with
  | .remove => none
  | _ => some ⟨transition.selector, now + subscriptionLeaseMs⟩

theorem lease_apply (id : String) (transition : SubscriptionTransition) :
    (d.apply id transition now).1.lease a s =
      if a = id ∧ s = transition.selector then leaseAfter transition now else d.lease a s := by
  have hactive : ∀ (d : GatewaySubscriptionDemand) (active : OrderedMap String String),
      ({ d with activeSelectors := active } : GatewaySubscriptionDemand).lease a s =
        d.lease a s := fun _ _ => rfl
  unfold GatewaySubscriptionDemand.apply
  dsimp only
  rw [hactive, lease_setSource]
  by_cases ha : a = id
  · subst ha
    have hbefore : ((d.bySource.get a).getD .empty).get s = d.lease a s := by
      unfold GatewaySubscriptionDemand.lease selectorKey
      cases d.bySource.get a <;> rfl
    unfold leaseAfter selectorKey
    cases transition.action <;>
      simp only [true_and, if_true, OrderedMap.get_set, OrderedMap.get_delete, hbefore]
  · simp [ha]

theorem activeSelectors_apply (id : String) (transition : SubscriptionTransition) :
    (d.apply id transition now).1.activeSelectors =
      if (d.apply id transition now).1.isDemanded transition.selector now then
        d.activeSelectors.set transition.selector transition.selector
      else d.activeSelectors.delete transition.selector := by
  unfold GatewaySubscriptionDemand.apply selectorKey
  rfl

theorem changed_apply (id : String) (transition : SubscriptionTransition) :
    (d.apply id transition now).2 = (d.activeSelectors.has transition.selector !=
      (d.apply id transition now).1.isDemanded transition.selector now) := by
  unfold GatewaySubscriptionDemand.apply selectorKey
  rfl

theorem lease_expireSource (id : String) :
    (d.expireSource now id).lease a s =
      if a = id then (d.lease a s).filter fun l => now < l.expiresAt else d.lease a s := by
  unfold GatewaySubscriptionDemand.expireSource
  rcases hsource : d.bySource.get id with _ | source
  · simp only
    split_ifs with ha
    · unfold GatewaySubscriptionDemand.lease
      rw [ha, hsource]
      rfl
    · rfl
  · simp only
    rw [lease_setSource]
    split_ifs with ha
    · unfold GatewaySubscriptionDemand.lease selectorKey
      rw [ha, hsource, OrderedMap.get_filter]
      rfl
    · rfl

theorem lease_foldl_expireSource :
    ∀ (ids : List String) (d : GatewaySubscriptionDemand),
      (ids.foldl (GatewaySubscriptionDemand.expireSource now) d).lease a s =
        if a ∈ ids then (d.lease a s).filter fun l => now < l.expiresAt else d.lease a s
  | [], d => by simp
  | id :: ids, d => by
    rw [List.foldl_cons, lease_foldl_expireSource ids, lease_expireSource]
    by_cases ha : a = id
    · simp [ha, Option.filter_filter]
    · simp [ha]

theorem lease_expire :
    (d.expire now).1.lease a s = (d.lease a s).filter fun l => now < l.expiresAt := by
  have hfold := lease_foldl_expireSource now a s d.bySource.keys d
  have hlease : (d.expire now).1.lease a s =
      (d.bySource.keys.foldl (GatewaySubscriptionDemand.expireSource now) d).lease a s := rfl
  rw [hlease, hfold]
  by_cases ha : a ∈ d.bySource.keys
  · rw [if_pos ha]
  · rw [OrderedMap.mem_keys, Bool.not_eq_true, OrderedMap.has_eq_false_iff] at ha
    have hnone : d.lease a s = none := by
      unfold GatewaySubscriptionDemand.lease
      rw [ha]
      rfl
    simp [hnone]

end Leases

section Sweeping

variable (d : GatewaySubscriptionDemand) (now : ℕ) (s : String)

theorem has_foldl_leases : ∀ (entries : List (String × Lease)) (result : OrderedMap String String),
    (entries.foldl (fun result e =>
        if now < e.2.expiresAt then result.set e.1 e.2.selector else result) result).has s = true ↔
      result.has s = true ∨ ∃ e ∈ entries, e.1 = s ∧ now < e.2.expiresAt
  | [], result => by simp
  | e :: rest, result => by
    rw [List.foldl_cons, has_foldl_leases rest]
    by_cases hnow : now < e.2.expiresAt
    · rw [if_pos hnow, OrderedMap.has_set]
      simp only [List.mem_cons, exists_eq_or_imp, hnow, and_true, Bool.or_eq_true,
        decide_eq_true_eq]
      constructor
      · rintro ((heq | hhas) | hrest)
        · exact .inr (.inl heq.symm)
        · exact .inl hhas
        · exact .inr (.inr hrest)
      · rintro (hhas | heq | hrest)
        · exact .inl (.inr hhas)
        · exact .inl (.inl heq.symm)
        · exact .inr hrest
    · rw [if_neg hnow]
      simp [hnow]

theorem has_foldl_sources :
    ∀ (sources : List (OrderedMap String Lease)) (result : OrderedMap String String),
      (sources.foldl (fun result source =>
          source.entries.foldl (fun result e =>
            if now < e.2.expiresAt then result.set e.1 e.2.selector else result) result)
        result).has s = true ↔
        result.has s = true ∨ ∃ source ∈ sources, ∃ l, source.get s = some l ∧ now < l.expiresAt
  | [], result => by simp
  | source :: rest, result => by
    have hsource : (∃ e ∈ source.entries, e.1 = s ∧ now < e.2.expiresAt) ↔
        ∃ l, source.get s = some l ∧ now < l.expiresAt := by
      constructor
      · rintro ⟨⟨k, l⟩, hmem, rfl, hnow⟩
        exact ⟨l, OrderedMap.get_eq_some_iff.2 hmem, hnow⟩
      · rintro ⟨l, hl, hnow⟩
        exact ⟨(s, l), OrderedMap.get_eq_some_iff.1 hl, rfl, hnow⟩
    rw [List.foldl_cons, has_foldl_sources rest, has_foldl_leases, hsource, or_assoc]
    simp only [List.mem_cons, exists_eq_or_imp]

theorem has_aggregate : (d.aggregate now).has s = true ↔ Leased s now d := by
  unfold GatewaySubscriptionDemand.aggregate Leased GatewaySubscriptionDemand.lease selectorKey
  rw [has_foldl_sources]
  constructor
  · rintro (hempty | ⟨source, hsource, l, hl, hnow⟩)
    · cases hempty
    · obtain ⟨a, ha⟩ := OrderedMap.mem_values.1 hsource
      exact ⟨a, l, by simp [ha, hl], hnow⟩
  · rintro ⟨a, l, hl, hnow⟩
    obtain ⟨source, hsource, hl⟩ := Option.bind_eq_some_iff.1 hl
    exact .inr ⟨source, OrderedMap.mem_values.2 ⟨a, hsource⟩, l, hl, hnow⟩

theorem get_foldl_delete : ∀ (entries : List (String × String)) (m : OrderedMap String String),
    (entries.foldl (fun active e => active.delete e.1) m).get s =
      if s ∈ entries.map Prod.fst then none else m.get s
  | [], m => by simp
  | e :: rest, m => by
    rw [List.foldl_cons, get_foldl_delete rest, OrderedMap.get_delete]
    simp only [List.map_cons, List.mem_cons]
    by_cases hs : s = e.1
    · simp [hs]
    · simp only [hs, false_or, if_false]

/-- A sweep leaves leases that have not expired. -/
theorem leased_expire : Leased s now (d.expire now).1 ↔ Leased s now d := by
  unfold Leased
  simp only [lease_expire, Option.filter_eq_some_iff, decide_eq_true_eq]
  constructor
  · rintro ⟨a, l, ⟨hl, -⟩, hnow⟩
    exact ⟨a, l, hl, hnow⟩
  · rintro ⟨a, l, hl, hnow⟩
    exact ⟨a, l, ⟨hl, hnow⟩, hnow⟩

/-- The selectors a sweep tells of are the active ones that are not leased any more. -/
theorem mem_expired {e : String × String} :
    e ∈ (d.activeSelectors.entries.filter fun e =>
        !((d.bySource.keys.foldl (GatewaySubscriptionDemand.expireSource now) d).aggregate now).has
          e.1) ↔
      d.activeSelectors.get e.1 = some e.2 ∧ ¬ Leased e.1 now d := by
  rw [List.mem_filter, Bool.not_eq_true', ← Bool.not_eq_true, has_aggregate]
  have hleased : Leased e.1 now
      (d.bySource.keys.foldl (GatewaySubscriptionDemand.expireSource now) d) ↔
        Leased e.1 now d := leased_expire d now e.1
  rw [hleased, OrderedMap.get_eq_some_iff]

theorem activeSelectors_foldl_expireSource :
    ∀ (ids : List String) (d : GatewaySubscriptionDemand),
      (ids.foldl (GatewaySubscriptionDemand.expireSource now) d).activeSelectors =
        d.activeSelectors
  | [], _ => rfl
  | id :: ids, d => by
    rw [List.foldl_cons, activeSelectors_foldl_expireSource ids]
    unfold GatewaySubscriptionDemand.expireSource
    split <;> rfl

theorem get_activeSelectors_expire (selector : String) :
    (d.expire now).1.activeSelectors.get s = some selector ↔
      d.activeSelectors.get s = some selector ∧ Leased s now d := by
  unfold GatewaySubscriptionDemand.expire
  dsimp only
  rw [activeSelectors_foldl_expireSource, get_foldl_delete]
  by_cases hleased : Leased s now d
  · rw [if_neg]
    · simp [hleased]
    · intro hmem
      obtain ⟨e, he, rfl⟩ := List.mem_map.1 hmem
      exact ((mem_expired d now).1 he).2 hleased
  · simp only [hleased, and_false, iff_false]
    split_ifs with hmem
    · simp
    · intro hget
      exact hmem (List.mem_map.2 ⟨(s, selector), (mem_expired d now).2 ⟨hget, hleased⟩, rfl⟩)

end Sweeping

section Following

/-- A set of selectors, once a transition is followed. -/
def follow (active : String → Bool) (transition : GatewayFeedTransition) : String → Bool :=
  Function.update active transition.selector transition.active

/-- Each transition changes the set it is followed from. -/
def Changes : (String → Bool) → List GatewayFeedTransition → Prop
  | _, [] => True
  | active, t :: ts => active t.selector ≠ t.active ∧ Changes (follow active t) ts

/-- The transitions lead from one set to the other, each by a change. -/
structure Leads (active active' : String → Bool) (ts : List GatewayFeedTransition) : Prop where
  changes : Changes active ts
  result : ts.foldl follow active = active'

theorem Changes.append : ∀ {active : String → Bool} {ts ts' : List GatewayFeedTransition},
    Changes active ts → Changes (ts.foldl follow active) ts' → Changes active (ts ++ ts')
  | _, [], _, _, h' => h'
  | _, _ :: _, _, h, h' => ⟨h.1, Changes.append h.2 h'⟩

theorem Leads.append {active active' active'' : String → Bool}
    {ts ts' : List GatewayFeedTransition} (h : Leads active active' ts)
    (h' : Leads active' active'' ts') : Leads active active'' (ts ++ ts') where
  changes := h.changes.append (by rw [h.result]; exact h'.changes)
  result := by rw [List.foldl_append, h.result, h'.result]

/-- Selectors that are each active once are removed one after the other. -/
theorem leads_removals : ∀ (active : String → Bool) (removed : List String), removed.Nodup →
    (∀ s ∈ removed, active s = true) →
    Leads active (fun s => active s && decide (s ∉ removed))
      (removed.map fun selector => ⟨false, selector⟩)
  | active, [], _, _ => ⟨trivial, by simp⟩
  | active, r :: removed, hnodup, hactive => by
    rw [List.nodup_cons] at hnodup
    have hr : active r = true := hactive r List.mem_cons_self
    have hrest := leads_removals (follow active ⟨false, r⟩) removed hnodup.2 (by
      intro s hs
      have hne : s ≠ r := fun h => hnodup.1 (h ▸ hs)
      exact (Function.update_of_ne hne _ _).trans (hactive s (List.mem_cons_of_mem _ hs)))
    refine ⟨⟨by simp [hr], hrest.changes⟩, ?_⟩
    rw [List.map_cons, List.foldl_cons, hrest.result]
    funext s
    unfold follow
    by_cases hs : s = r
    · simp [hs]
    · simp [hs]

/-- The active selectors are under their keys, and a selector with a lease is active. -/
structure Follows (now : ℕ) (d : GatewaySubscriptionDemand) : Prop where
  keyed : ∀ key selector, d.activeSelectors.get key = some selector → selector = key
  active : ∀ s, Leased s now d → d.activeSelectors.has s = true

variable {d : GatewaySubscriptionDemand} {now now' : ℕ}

theorem Leased.mono {s : String} (h : Leased s now' d) (hle : now ≤ now') : Leased s now d := by
  obtain ⟨a, l, hl, hnow⟩ := h
  exact ⟨a, l, hl, hle.trans_lt hnow⟩

theorem Follows.mono (h : Follows now d) (hle : now ≤ now') : Follows now' d :=
  ⟨h.keyed, fun s hs => h.active s (hs.mono hle)⟩

/-- A message that does not remove leaves its selector leased. -/
theorem leased_apply_self (id : String) {transition : SubscriptionTransition}
    (haction : transition.action ≠ .remove) :
    Leased transition.selector now (d.apply id transition now).1 := by
  refine ⟨id, ⟨transition.selector, now + subscriptionLeaseMs⟩, ?_, ?_⟩
  · rw [lease_apply, if_pos ⟨rfl, rfl⟩]
    unfold leaseAfter
    cases haction' : transition.action with
    | remove => exact absurd haction' haction
    | add => rfl
    | renew => rfl
  · show now < now + subscriptionLeaseMs
    unfold subscriptionLeaseMs
    omega

theorem leased_of_apply {s : String} {id : String} {transition : SubscriptionTransition}
    (h : Leased s now (d.apply id transition now).1)
    (hother : s = transition.selector → transition.action = .remove) : Leased s now d := by
  obtain ⟨a, l, hl, hnow⟩ := h
  rw [lease_apply] at hl
  split_ifs at hl with hself
  · unfold leaseAfter at hl
    rw [hother hself.2] at hl
    cases hl
  · exact ⟨a, l, hl, hnow⟩

theorem has_activeSelectors_apply (id : String) (transition : SubscriptionTransition) (s : String) :
    (d.apply id transition now).1.activeSelectors.has s =
      if s = transition.selector then
        (d.apply id transition now).1.isDemanded transition.selector now
      else d.activeSelectors.has s := by
  rw [activeSelectors_apply]
  cases (d.apply id transition now).1.isDemanded transition.selector now with
  | true =>
    rw [if_pos rfl, OrderedMap.has_set]
    by_cases hs : s = transition.selector <;> simp [hs]
  | false =>
    rw [if_neg Bool.false_ne_true, OrderedMap.has_delete]
    by_cases hs : s = transition.selector <;> simp [hs]

theorem Follows.apply (h : Follows now d) (id : String) (transition : SubscriptionTransition) :
    Follows now (d.apply id transition now).1 := by
  refine ⟨fun key selector hkey => ?_, fun s hs => ?_⟩
  · rw [activeSelectors_apply] at hkey
    split_ifs at hkey
    · rw [OrderedMap.get_set] at hkey
      split_ifs at hkey with heq
      · rw [heq, ← Option.some.inj hkey]
      · exact h.keyed key selector hkey
    · rw [OrderedMap.get_delete] at hkey
      split_ifs at hkey
      exact h.keyed key selector hkey
  · rw [has_activeSelectors_apply]
    split_ifs with heq
    · rw [isDemanded_iff, ← heq]
      exact hs
    · exact h.active s (leased_of_apply hs fun hself => absurd hself heq)

/-- The transition an accepted message answers, if its selector was or became inactive. -/
theorem Follows.apply_leads (h : Follows now d) (id : String)
    (transition : SubscriptionTransition) :
    Leads d.activeSelectors.has (d.apply id transition now).1.activeSelectors.has
      (if (d.apply id transition now).2 then
        [⟨decide (transition.action ≠ .remove), transition.selector⟩] else []) := by
  have hdemanded : d.activeSelectors.has transition.selector ≠
      (d.apply id transition now).1.isDemanded transition.selector now →
        (d.apply id transition now).1.isDemanded transition.selector now =
          decide (transition.action ≠ .remove) := by
    intro hchanged
    by_cases haction : transition.action = .remove
    · rcases hnot : (d.apply id transition now).1.isDemanded transition.selector now with _ | _
      · simp [haction]
      · -- A selector that another Asset leases was active before: nothing would have changed.
        rw [hnot] at hchanged
        have hleased := leased_of_apply ((isDemanded_iff _ now _).1 hnot) fun _ => haction
        exact absurd (h.active _ hleased) hchanged
    · rw [(isDemanded_iff _ now _).2 (leased_apply_self id haction)]
      simp [haction]
  rw [changed_apply]
  by_cases hchanged : d.activeSelectors.has transition.selector ≠
      (d.apply id transition now).1.isDemanded transition.selector now
  · have hnow := hdemanded hchanged
    rw [if_pos (by simpa using hchanged)]
    rw [hnow] at hchanged
    refine ⟨⟨hchanged, trivial⟩, ?_⟩
    funext s
    rw [has_activeSelectors_apply, hnow, List.foldl_cons, List.foldl_nil, follow,
      Function.update_apply]
  · rw [if_neg (by simpa using hchanged)]
    rw [not_not] at hchanged
    refine ⟨trivial, ?_⟩
    funext s
    rw [has_activeSelectors_apply, List.foldl_nil]
    split_ifs with heq
    · rw [heq, hchanged]
    · rfl

theorem Follows.expire (h : Follows now d) : Follows now (d.expire now).1 where
  keyed key selector hkey :=
    h.keyed key selector ((get_activeSelectors_expire d now key selector).1 hkey).1
  active s hs := by
    rw [leased_expire] at hs
    obtain ⟨selector, hselector⟩ := OrderedMap.has_eq_true_iff.1 (h.active s hs)
    exact OrderedMap.has_eq_true_iff.2
      ⟨selector, (get_activeSelectors_expire d now s selector).2 ⟨hselector, hs⟩⟩

/-- After a sweep the active selectors are the leased ones. -/
theorem Follows.expire_active (h : Follows now d) (s : String) :
    (d.expire now).1.activeSelectors.has s = true ↔ Leased s now d := by
  constructor
  · intro hhas
    obtain ⟨selector, hselector⟩ := OrderedMap.has_eq_true_iff.1 hhas
    exact ((get_activeSelectors_expire d now s selector).1 hselector).2
  · intro hs
    exact h.expire.active s ((leased_expire d now s).2 hs)

theorem Follows.expire_leads (h : Follows now d) :
    Leads d.activeSelectors.has (d.expire now).1.activeSelectors.has
      ((d.expire now).2.map fun selector => ⟨false, selector⟩) := by
  have hexpired : (d.expire now).2 = (d.activeSelectors.entries.filter fun e =>
      !((d.bySource.keys.foldl (GatewaySubscriptionDemand.expireSource now) d).aggregate now).has
        e.1).map Prod.fst := by
    unfold GatewaySubscriptionDemand.expire
    dsimp only
    rw [activeSelectors_foldl_expireSource]
    refine List.map_congr_left fun e he => h.keyed e.1 e.2 ?_
    exact ((mem_expired d now).1 he).1
  have hmem : ∀ s, s ∈ (d.expire now).2 ↔
      d.activeSelectors.has s = true ∧ ¬ Leased s now d := by
    intro s
    rw [hexpired, List.mem_map, OrderedMap.has_eq_true_iff]
    constructor
    · rintro ⟨e, he, rfl⟩
      obtain ⟨hget, hleased⟩ := (mem_expired d now).1 he
      exact ⟨⟨e.2, hget⟩, hleased⟩
    · rintro ⟨⟨selector, hget⟩, hleased⟩
      exact ⟨(s, selector), (mem_expired d now).2 ⟨hget, hleased⟩, rfl⟩
  have hnodup : (d.expire now).2.Nodup := by
    rw [hexpired]
    exact d.activeSelectors.nodup.sublist (List.filter_sublist.map _)
  have hleads := leads_removals _ (d.expire now).2 hnodup fun s hs => ((hmem s).1 hs).1
  refine ⟨hleads.changes, hleads.result.trans ?_⟩
  funext s
  rw [Bool.eq_iff_iff, h.expire_active, Bool.and_eq_true, decide_eq_true_eq, hmem, not_and,
    not_not]
  exact ⟨fun hs => hs.2 hs.1, fun hs => ⟨h.active s hs, fun _ => hs⟩⟩

end Following

section Running

/-- The state a run of operations ends in, and all transitions answered in it. -/
def runDemand (ops : List DemandOp) : GatewayFeedDemand × List GatewayFeedTransition :=
  ops.foldl (fun r op => ((op.run r.1).1, r.2 ++ (op.run r.1).2)) (.new, [])

theorem runDemand_snoc (ops : List DemandOp) (op : DemandOp) :
    runDemand (ops ++ [op]) = ((op.run (runDemand ops).1).1,
      (runDemand ops).2 ++ (op.run (runDemand ops).1).2) := by
  unfold runDemand
  rw [List.foldl_append]
  rfl

/-- What an accepted subscription message leads to. -/
def accepted (event : MessageEvent) (action : SubscriptionAction) (selector : String) (now : ℕ)
    (d : GatewayFeedDemand) : GatewayFeedDemand × Option GatewayFeedDemandResult :=
  let applied := d.demand.apply event.source.id ⟨action, selector⟩ now
  (⟨applied.1, d.latestTransitions.set (GatewayFeedDemand.transitionKey event.source.id selector)
      (GatewayFeedDemand.latestOf event selector)⟩,
    if applied.2 then some (.transition ⟨action ≠ .remove, selector⟩) else none)

theorem apply_of_subscription {event : MessageEvent} {action : SubscriptionAction}
    {selector : String} (haddressed : event.addressedToLocal = true)
    (hrole : event.source.role = .asset) (hmessage : event.message = .subscription action selector)
    (now : ℕ) (d : GatewayFeedDemand) :
    d.apply event now = d.applySubscription event action selector now := by
  unfold GatewayFeedDemand.apply
  rw [if_neg (by simp [haddressed, hrole]), hmessage]

/-- A subscription message is overtaken, refused for capacity, or accepted. -/
theorem applySubscription_cases (event : MessageEvent) (action : SubscriptionAction)
    (selector : String) (now : ℕ) (d : GatewayFeedDemand) :
    (∃ previous, d.latestTransitions.get
          (GatewayFeedDemand.transitionKey event.source.id selector) = some previous ∧
        GatewayFeedDemand.overtaken event previous = true ∧
        d.applySubscription event action selector now = (d, none)) ∨
      (∃ reason, d.applySubscription event action selector now = (d, some (.rejected reason))) ∨
      (∀ previous, d.latestTransitions.get
          (GatewayFeedDemand.transitionKey event.source.id selector) = some previous →
        GatewayFeedDemand.overtaken event previous = false) ∧
        d.applySubscription event action selector now = accepted event action selector now d := by
  unfold GatewayFeedDemand.applySubscription
  dsimp only
  by_cases hovertaken : ((d.latestTransitions.get (GatewayFeedDemand.transitionKey
      event.source.id selector)).any (GatewayFeedDemand.overtaken event)) = true
  · rw [if_pos hovertaken]
    obtain ⟨previous, hprevious, h⟩ := (Option.any_eq_true _ _).1 hovertaken
    exact .inl ⟨previous, hprevious, h, rfl⟩
  rw [if_neg hovertaken]
  by_cases hfull : d.latestTransitions.get (GatewayFeedDemand.transitionKey event.source.id
      selector) = none ∧ feedTransitionFenceLimit ≤ d.latestTransitions.size
  · rw [if_pos hfull]
    exact .inr (.inl ⟨_, rfl⟩)
  · rw [if_neg hfull]
    refine .inr (.inr ⟨fun previous hprevious => ?_, rfl⟩)
    simpa [hprevious] using hovertaken

theorem apply_of_not_subscription {event : MessageEvent}
    (hnot : ¬ (event.addressedToLocal = true ∧ event.source.role = .asset ∧
      ∃ action selector, event.message = .subscription action selector))
    (now : ℕ) (d : GatewayFeedDemand) : d.apply event now = (d, none) := by
  unfold GatewayFeedDemand.apply
  split_ifs with hguard
  · rfl
  · rw [not_or, Bool.not_eq_false, not_not] at hguard
    split
    · rename_i action selector hmessage
      exact absurd ⟨hguard.1, hguard.2, action, selector, hmessage⟩ hnot
    · rfl

/-- Any message changes nothing and answers no transition, or is an accepted subscription. -/
theorem apply_cases (event : MessageEvent) (now : ℕ) (d : GatewayFeedDemand) :
    (∃ answer, d.apply event now = (d, answer) ∧
        ∀ transition, answer ≠ some (.transition transition)) ∨
      ∃ action selector, d.apply event now = accepted event action selector now d := by
  by_cases hsubscription : event.addressedToLocal = true ∧ event.source.role = .asset ∧
      ∃ action selector, event.message = .subscription action selector
  · obtain ⟨haddressed, hrole, action, selector, hmessage⟩ := hsubscription
    rw [apply_of_subscription haddressed hrole hmessage]
    rcases applySubscription_cases event action selector now d with
      ⟨previous, -, -, heq⟩ | ⟨reason, heq⟩ | ⟨-, heq⟩
    · exact .inl ⟨none, heq, by simp⟩
    · exact .inl ⟨_, heq, by simp⟩
    · exact .inr ⟨action, selector, heq⟩
  · exact .inl ⟨none, apply_of_not_subscription hsubscription now d, by simp⟩

theorem Follows.run {d : GatewayFeedDemand} {now : ℕ} (h : Follows now d.demand) {op : DemandOp}
    (hle : now ≤ op.now) :
    Follows op.now (op.run d).1.demand ∧
      Leads d.demand.activeSelectors.has (op.run d).1.demand.activeSelectors.has (op.run d).2 := by
  have hnow := h.mono hle
  cases op with
  | apply event time valid =>
    unfold DemandOp.run
    dsimp only
    rcases apply_cases event time d with ⟨answer, heq, hanswer⟩ | ⟨action, selector, heq⟩
    · rw [heq]
      refine ⟨hnow, ?_⟩
      rcases answer with _ | transition | reason
      · exact ⟨trivial, rfl⟩
      · exact absurd rfl (hanswer transition)
      · exact ⟨trivial, rfl⟩
    · rw [heq]
      refine ⟨hnow.apply _ _, ?_⟩
      have hleads : Leads _ _ (if (d.demand.apply event.source.id ⟨action, selector⟩ time).2 then
          [⟨decide (action ≠ .remove), selector⟩] else []) :=
        Follows.apply_leads hnow event.source.id ⟨action, selector⟩
      unfold accepted
      dsimp only
      rcases hchanged : (d.demand.apply event.source.id ⟨action, selector⟩ time).2 with _ | _
      · rw [hchanged] at hleads
        exact hleads
      · rw [hchanged] at hleads
        exact hleads
  | expire time => exact ⟨hnow.expire, hnow.expire_leads⟩

def LatestTime (ops : List DemandOp) : ℕ := (ops.getLast?.map DemandOp.now).getD 0

theorem latestTime_le {ops : List DemandOp} {now : ℕ} (h : ∀ op ∈ ops, op.now ≤ now) :
    LatestTime ops ≤ now := by
  unfold LatestTime
  rcases hlast : ops.getLast? with _ | last
  · exact Nat.zero_le _
  · exact h last (List.mem_of_getLast? hlast)

/-- The transitions of a run lead from no selectors to the active ones. -/
theorem runDemand_follows {ops : List DemandOp} (htimes : (ops.map DemandOp.now).Pairwise (· ≤ ·)) :
    Follows (LatestTime ops) (runDemand ops).1.demand ∧
      Leads (fun _ => false) (runDemand ops).1.demand.activeSelectors.has (runDemand ops).2 := by
  induction ops using List.reverseRecOn with
  | nil =>
    refine ⟨⟨fun key selector h => (nomatch h), fun s h => ?_⟩, trivial, rfl⟩
    obtain ⟨a, l, hl, -⟩ := h
    cases hl
  | append_singleton ops op ih =>
    rw [List.map_append, List.pairwise_append] at htimes
    obtain ⟨hfollows, hleads⟩ := ih htimes.1
    obtain ⟨hfollows', hleads'⟩ := hfollows.run
      (latestTime_le fun op' hop' => htimes.2.2 _ (List.mem_map_of_mem hop') op.now (by simp))
    have hlast : LatestTime (ops ++ [op]) = op.now := by simp [LatestTime]
    rw [runDemand_snoc, hlast]
    exact ⟨hfollows', hleads.append hleads'⟩

end Running

section Deciding

/-- A subscription message that was handed over in a run and not refused for capacity. -/
def Handed (ops : List DemandOp) (event : MessageEvent) (action : SubscriptionAction)
    (selector : String) (now : ℕ) : Prop :=
  ∃ before valid after, ops = before ++ .apply event now valid :: after ∧
    event.addressedToLocal = true ∧ event.source.role = .asset ∧
    event.message = .subscription action selector ∧
    ∀ reason, ((runDemand before).1.apply event now).2 ≠ some (.rejected reason)

/-- The place of a message among those of its source. -/
def position (event : MessageEvent) : ℕ ×ₗ ℕ := toLex (event.sourceGeneration, event.sourceSequence)

/-- A source has one service session in each generation. -/
def OneSession (ops : List DemandOp) : Prop :=
  ∀ e now valid e' now' valid', .apply e now valid ∈ ops → .apply e' now' valid' ∈ ops →
    e.source = e'.source → e.sourceGeneration = e'.sourceGeneration →
      e.serviceSession = e'.serviceSession

/-- The state in which a message leaves the lease of its Asset on its selector: one until a sweep
at its end, or none. -/
def LeaseOf (ops : List DemandOp) (action : SubscriptionAction) (selector : String) (now : ℕ)
    (lease : Option Lease) : Prop :=
  match action with
  | .remove => lease = none
  | _ => lease = some ⟨selector, now + subscriptionLeaseMs⟩ ∨
    lease = none ∧ ∃ swept, .expire swept ∈ ops ∧ now + subscriptionLeaseMs ≤ swept

/-- The newest of an Asset's messages for a selector, which decides its lease. -/
structure Decides (ops : List DemandOp) (source selector : String) (event : MessageEvent)
    (action : SubscriptionAction) (now : ℕ) : Prop where
  handed : Handed ops event action selector now
  source_eq : event.source.id = source
  newest : ∀ e a t, Handed ops e a selector t → e.source.id = source → position e ≤ position event
  lease : LeaseOf ops action selector now ((runDemand ops).1.demand.lease source selector)

theorem handed_snoc {ops : List DemandOp} {op : DemandOp} {event : MessageEvent}
    {action : SubscriptionAction} {selector : String} {now : ℕ} :
    Handed (ops ++ [op]) event action selector now ↔
      Handed ops event action selector now ∨
      (∃ valid, op = .apply event now valid) ∧ event.addressedToLocal = true ∧
        event.source.role = .asset ∧ event.message = .subscription action selector ∧
        ∀ reason, ((runDemand ops).1.apply event now).2 ≠ some (.rejected reason) := by
  constructor
  · rintro ⟨before, valid, after, heq, hrest⟩
    rcases List.eq_nil_or_concat after with rfl | ⟨after', last, rfl⟩
    · obtain ⟨rfl, hop⟩ := List.append_inj' heq rfl
      exact .inr ⟨⟨valid, List.singleton_inj.1 hop⟩, hrest⟩
    · rw [List.concat_eq_append, ← List.cons_append, ← List.append_assoc] at heq
      exact .inl ⟨before, valid, after', List.append_inj_left' heq rfl, hrest⟩
  · rintro (⟨before, valid, after, rfl, hrest⟩ | ⟨⟨valid, rfl⟩, hrest⟩)
    · exact ⟨before, valid, after ++ [op], by simp, hrest⟩
    · exact ⟨ops, valid, [], rfl, hrest⟩

theorem Handed.mem {ops : List DemandOp} {event : MessageEvent} {action : SubscriptionAction}
    {selector : String} {now : ℕ} (h : Handed ops event action selector now) :
    ∃ valid, .apply event now valid ∈ ops := by
  obtain ⟨before, valid, after, rfl, -⟩ := h
  exact ⟨valid, by simp⟩

theorem append_cons_inj {c : Char} : ∀ {l l' r r' : List Char}, c ∉ l → c ∉ l' →
    l ++ c :: r = l' ++ c :: r' → l = l' ∧ r = r'
  | [], [], _, _, _, _, h => ⟨rfl, List.tail_eq_of_cons_eq h⟩
  | [], x :: _, _, _, _, h', h => by
    rw [List.nil_append, List.cons_append, List.cons.injEq] at h
    exact absurd (h.1 ▸ List.mem_cons_self) h'
  | x :: _, [], _, _, h', _, h => by
    rw [List.nil_append, List.cons_append, List.cons.injEq] at h
    exact absurd (h.1 ▸ List.mem_cons_self) h'
  | x :: l, y :: l', r, r', hl, hl', h => by
    rw [List.cons_append, List.cons_append, List.cons.injEq] at h
    rw [List.mem_cons, not_or] at hl hl'
    obtain ⟨rfl, rfl⟩ := append_cons_inj hl.2 hl'.2 h.2
    exact ⟨by rw [h.1], rfl⟩

/-- The ID of a node holds no colon, so the key tells Asset and selector apart. -/
theorem transitionKey_inj {a a' s s' : String} (ha : ':' ∉ a.toList) (ha' : ':' ∉ a'.toList)
    (h : GatewayFeedDemand.transitionKey a s = GatewayFeedDemand.transitionKey a' s') :
    a = a' ∧ s = s' := by
  have hlist := congrArg String.toList h
  simp only [GatewayFeedDemand.transitionKey, selectorKey, String.toList_append,
    List.append_assoc] at hlist
  obtain ⟨hid, hselector⟩ := append_cons_inj ha ha' hlist
  exact ⟨String.toList_inj.1 hid, String.toList_inj.1 hselector⟩

/-- Each fence is that of the message that decides, and only messages leave leases. -/
structure Fenced (ops : List DemandOp) : Prop where
  known : ∀ key latest, (runDemand ops).1.latestTransitions.get key = some latest →
    ∃ e a s t, Handed ops e a s t ∧ key = GatewayFeedDemand.transitionKey e.source.id s
  decided : ∀ e a s t, Handed ops e a s t → ∃ e' a' t', Decides ops e.source.id s e' a' t' ∧
    (runDemand ops).1.latestTransitions.get (GatewayFeedDemand.transitionKey e.source.id s) =
      some (GatewayFeedDemand.latestOf e' s)
  leased : ∀ source s, (runDemand ops).1.demand.lease source s ≠ none →
    ∃ e a t, Handed ops e a s t ∧ e.source.id = source

theorem Handed.colon_free {ops : List DemandOp} {event : MessageEvent} {action : SubscriptionAction}
    {selector : String} {now : ℕ} (h : Handed ops event action selector now) :
    ':' ∉ event.source.id.toList := by
  obtain ⟨before, valid, after, -⟩ := h
  exact valid

theorem Handed.snoc {ops : List DemandOp} {event : MessageEvent} {action : SubscriptionAction}
    {selector : String} {now : ℕ} (h : Handed ops event action selector now) (op : DemandOp) :
    Handed (ops ++ [op]) event action selector now := handed_snoc.2 (.inl h)

theorem LeaseOf.snoc {ops : List DemandOp} {action : SubscriptionAction} {selector : String}
    {now : ℕ} {lease : Option Lease} (h : LeaseOf ops action selector now lease) (op : DemandOp) :
    LeaseOf (ops ++ [op]) action selector now lease := by
  unfold LeaseOf at h ⊢
  cases action with
  | remove => exact h
  | add =>
    rcases h with h | ⟨h, swept, hmem, hle⟩
    · exact .inl h
    · exact .inr ⟨h, swept, List.mem_append_left _ hmem, hle⟩
  | renew =>
    rcases h with h | ⟨h, swept, hmem, hle⟩
    · exact .inl h
    · exact .inr ⟨h, swept, List.mem_append_left _ hmem, hle⟩

/-- A sweep takes a lease once it is over. -/
theorem LeaseOf.expire {ops : List DemandOp} {action : SubscriptionAction} {selector : String}
    {now : ℕ} {lease : Option Lease} (h : LeaseOf ops action selector now lease) (swept : ℕ) :
    LeaseOf (ops ++ [.expire swept]) action selector now
      (lease.filter fun l => swept < l.expiresAt) := by
  have hover : lease = some ⟨selector, now + subscriptionLeaseMs⟩ →
      (lease.filter fun l => swept < l.expiresAt) = some ⟨selector, now + subscriptionLeaseMs⟩ ∨
        (lease.filter fun l => swept < l.expiresAt) = none ∧
          now + subscriptionLeaseMs ≤ swept := by
    rintro rfl
    by_cases hnow : swept < now + subscriptionLeaseMs
    · simp [hnow]
    · simp [hnow]
      omega
  unfold LeaseOf at h ⊢
  cases action with
  | remove => rw [h]; rfl
  | add =>
    rcases h with h | ⟨h, earlier, hmem, hle⟩
    · rcases hover h with h' | ⟨h', hle⟩
      · exact .inl h'
      · exact .inr ⟨h', swept, by simp, hle⟩
    · exact .inr ⟨by rw [h]; rfl, earlier, List.mem_append_left _ hmem, hle⟩
  | renew =>
    rcases h with h | ⟨h, earlier, hmem, hle⟩
    · rcases hover h with h' | ⟨h', hle⟩
      · exact .inl h'
      · exact .inr ⟨h', swept, by simp, hle⟩
    · exact .inr ⟨by rw [h]; rfl, earlier, List.mem_append_left _ hmem, hle⟩

theorem leaseOf_leaseAfter (ops : List DemandOp) (action : SubscriptionAction) (selector : String)
    (now : ℕ) : LeaseOf ops action selector now (leaseAfter ⟨action, selector⟩ now) := by
  unfold LeaseOf leaseAfter
  cases action with
  | remove => rfl
  | add => exact .inl rfl
  | renew => exact .inl rfl

/-- An operation by which nothing is handed over and no fence changes. -/
theorem Fenced.of_same {ops : List DemandOp} (h : Fenced ops) (op : DemandOp)
    (hhanded : ∀ e a s t, Handed (ops ++ [op]) e a s t → Handed ops e a s t)
    (hfences : (runDemand (ops ++ [op])).1.latestTransitions =
      (runDemand ops).1.latestTransitions)
    (hlease : ∀ source s action t, LeaseOf ops action s t ((runDemand ops).1.demand.lease source s) →
      LeaseOf (ops ++ [op]) action s t ((runDemand (ops ++ [op])).1.demand.lease source s))
    (hnone : ∀ source s, (runDemand ops).1.demand.lease source s = none →
      (runDemand (ops ++ [op])).1.demand.lease source s = none) : Fenced (ops ++ [op]) where
  known key latest hget := by
    rw [hfences] at hget
    obtain ⟨e, a, s, t, he, hkey⟩ := h.known key latest hget
    exact ⟨e, a, s, t, he.snoc op, hkey⟩
  decided e a s t he := by
    obtain ⟨e', a', t', hdecides, hfence⟩ := h.decided e a s t (hhanded e a s t he)
    rw [hfences]
    refine ⟨e', a', t', ⟨hdecides.handed.snoc op, hdecides.source_eq, fun e a t he => ?_, ?_⟩,
      hfence⟩
    · exact hdecides.newest e a t (hhanded e a s t he)
    · exact hlease _ _ _ _ hdecides.lease
  leased source s hsome := by
    obtain ⟨e, a, t, he, hsource⟩ := h.leased source s fun hn => hsome (hnone source s hn)
    exact ⟨e, a, t, he.snoc op, hsource⟩

/-- A message that is not accepted is at or before the fence's. -/
theorem position_le_of_overtaken {e e' : MessageEvent} {s : String}
    (hsession : e.sourceGeneration = e'.sourceGeneration → e.serviceSession = e'.serviceSession)
    (h : GatewayFeedDemand.overtaken e (GatewayFeedDemand.latestOf e' s) = true) :
    position e ≤ position e' := by
  unfold GatewayFeedDemand.overtaken GatewayFeedDemand.latestOf at h
  simp only [Bool.or_eq_true, Bool.and_eq_true, decide_eq_true_eq] at h
  unfold position
  rw [Prod.Lex.toLex_le_toLex]
  rcases h with hlt | ⟨heq, hne | hle⟩
  · exact .inl hlt
  · exact absurd (hsession heq) hne
  · exact .inr ⟨heq, hle⟩

theorem position_lt_of_not_overtaken {e e' : MessageEvent} {s : String}
    (h : GatewayFeedDemand.overtaken e (GatewayFeedDemand.latestOf e' s) = false) :
    position e' < position e := by
  unfold GatewayFeedDemand.overtaken GatewayFeedDemand.latestOf at h
  simp only [Bool.or_eq_false_iff, decide_eq_false_iff_not, Bool.and_eq_false_iff, not_lt,
    not_le] at h
  unfold position
  rw [Prod.Lex.toLex_lt_toLex]
  rcases h.1.lt_or_eq with hlt | heq
  · exact .inl hlt
  · rcases h.2 with hne | ⟨-, hlt⟩
    · exact absurd heq.symm hne
    · exact .inr ⟨heq, hlt⟩

section Step

variable {ops : List DemandOp} {event : MessageEvent} {now : ℕ} {valid : ':' ∉ event.source.id.toList}

theorem runDemand_apply : (runDemand (ops ++ [.apply event now valid])).1 =
    ((runDemand ops).1.apply event now).1 := by
  rw [runDemand_snoc]
  rfl

/-- A decision stands if the message handed over next is not newer. -/
theorem Decides.snoc {source selector : String} {e : MessageEvent} {a : SubscriptionAction} {t : ℕ}
    (h : Decides ops source selector e a t)
    (hsame : (runDemand (ops ++ [.apply event now valid])).1.demand.lease source selector =
      (runDemand ops).1.demand.lease source selector)
    (hle : ∀ action, event.message = .subscription action selector → event.source.id = source →
      position event ≤ position e) :
    Decides (ops ++ [.apply event now valid]) source selector e a t where
  handed := h.handed.snoc _
  source_eq := h.source_eq
  newest e' a' t' he' hsource := by
    rcases handed_snoc.1 he' with hold | ⟨⟨valid', hop⟩, -, -, hmessage, -⟩
    · exact h.newest e' a' t' hold hsource
    · cases hop
      exact hle a' hmessage hsource
  lease := by
    rw [hsame]
    exact h.lease.snoc _

theorem source_ext {e e' : MessageEvent} (hrole : e.source.role = .asset)
    (hrole' : e'.source.role = .asset) (hid : e.source.id = e'.source.id) :
    e.source = e'.source := by
  rcases he : e.source with ⟨role, id⟩
  rcases he' : e'.source with ⟨role', id'⟩
  rw [he] at hrole hid
  rw [he'] at hrole' hid
  simp only at hrole hrole' hid
  rw [hrole, hrole', hid]

theorem Handed.role {e : MessageEvent} {a : SubscriptionAction} {s : String} {t : ℕ}
    (h : Handed ops e a s t) : e.source.role = .asset := by
  obtain ⟨before, valid, after, -, -, hrole, -⟩ := h
  exact hrole

/-- A message that is overtaken adds nothing to what the newer one decides. -/
theorem Fenced.overtaken (h : Fenced ops) (hsessions : OneSession (ops ++ [.apply event now valid]))
    {action : SubscriptionAction} {selector : String} (hrole : event.source.role = .asset)
    (hmessage : event.message = .subscription action selector) {previous : LatestTransition}
    (hprevious : (runDemand ops).1.latestTransitions.get
      (GatewayFeedDemand.transitionKey event.source.id selector) = some previous)
    (hovertaken : GatewayFeedDemand.overtaken event previous = true)
    (hsame : (runDemand (ops ++ [.apply event now valid])).1 = (runDemand ops).1) :
    Fenced (ops ++ [.apply event now valid]) := by
  have hdecided : ∀ e a s t, Handed ops e a s t → ∃ e' a' t',
      Decides (ops ++ [.apply event now valid]) e.source.id s e' a' t' ∧
        (runDemand (ops ++ [.apply event now valid])).1.latestTransitions.get
          (GatewayFeedDemand.transitionKey e.source.id s) =
            some (GatewayFeedDemand.latestOf e' s) := by
    intro e a s t he
    obtain ⟨e', a', t', hdecides, hfence⟩ := h.decided e a s t he
    refine ⟨e', a', t', hdecides.snoc (by rw [hsame]) fun action' hmessage' hsource => ?_,
      by rw [hsame]; exact hfence⟩
    rw [hmessage, LinkMessage.subscription.injEq] at hmessage'
    rw [hsource, hmessage'.2, hfence, Option.some.injEq] at hprevious
    rw [← hprevious] at hovertaken
    refine position_le_of_overtaken (fun hgeneration => ?_) hovertaken
    obtain ⟨valid', hmem⟩ := hdecides.handed.mem
    have hsourceEq := source_ext hrole hdecides.handed.role (hsource.trans hdecides.source_eq.symm)
    exact hsessions _ _ _ _ _ _ (List.mem_append_right _ List.mem_cons_self)
      (List.mem_append_left _ hmem) hsourceEq hgeneration
  refine ⟨fun key latest hget => ?_, fun e a s t he => ?_, fun source s hlease => ?_⟩
  · rw [hsame] at hget
    obtain ⟨e, a, s, t, he, hkey⟩ := h.known key latest hget
    exact ⟨e, a, s, t, he.snoc _, hkey⟩
  · rcases handed_snoc.1 he with hold | ⟨⟨valid', hop⟩, -, -, hmessage', -⟩
    · exact hdecided e a s t hold
    · cases hop
      rw [hmessage, LinkMessage.subscription.injEq] at hmessage'
      obtain ⟨e', a', s', t', he', hkey⟩ := h.known _ _ hprevious
      obtain ⟨hsource, hselector⟩ := transitionKey_inj valid he'.colon_free hkey
      rw [hsource, ← hmessage'.2, hselector]
      exact hdecided e' a' s' t' he'
  · rw [hsame] at hlease
    obtain ⟨e, a, t, he, hsource⟩ := h.leased source s hlease
    exact ⟨e, a, t, he.snoc _, hsource⟩

/-- A message that is accepted decides from then on. -/
theorem Fenced.accepted (h : Fenced ops) {action : SubscriptionAction} {selector : String}
    (haddressed : event.addressedToLocal = true) (hrole : event.source.role = .asset)
    (hmessage : event.message = .subscription action selector)
    (hnewer : ∀ previous, (runDemand ops).1.latestTransitions.get
        (GatewayFeedDemand.transitionKey event.source.id selector) = some previous →
      GatewayFeedDemand.overtaken event previous = false)
    (hstep : (runDemand ops).1.apply event now =
      Demand.accepted event action selector now (runDemand ops).1) :
    Fenced (ops ++ [.apply event now valid]) := by
  have hstate : (runDemand (ops ++ [.apply event now valid])).1 =
      (Demand.accepted event action selector now (runDemand ops).1).1 := by
    rw [runDemand_apply, hstep]
  have hlease : ∀ source s, (runDemand (ops ++ [.apply event now valid])).1.demand.lease source s =
      if source = event.source.id ∧ s = selector then leaseAfter ⟨action, selector⟩ now
      else (runDemand ops).1.demand.lease source s := by
    intro source s
    rw [hstate]
    exact lease_apply _ _ _ _ _ _
  have hfence : ∀ key, (runDemand (ops ++ [.apply event now valid])).1.latestTransitions.get key =
      if key = GatewayFeedDemand.transitionKey event.source.id selector then
        some (GatewayFeedDemand.latestOf event selector)
      else (runDemand ops).1.latestTransitions.get key := by
    intro key
    rw [hstate]
    exact OrderedMap.get_set
  have hhanded : Handed (ops ++ [.apply event now valid]) event action selector now := by
    refine handed_snoc.2 (.inr ⟨⟨valid, rfl⟩, haddressed, hrole, hmessage, fun reason => ?_⟩)
    rw [hstep]
    unfold Demand.accepted
    dsimp only
    split_ifs <;> simp
  have hdecides : Decides (ops ++ [.apply event now valid]) event.source.id selector event action
      now := by
    refine ⟨hhanded, rfl, fun e a t he hsource => ?_, ?_⟩
    · rcases handed_snoc.1 he with hold | ⟨⟨valid', hop⟩, -⟩
      · obtain ⟨e', a', t', hold', hprevious⟩ := h.decided e a selector t hold
        rw [hsource] at hprevious
        have hlt := position_lt_of_not_overtaken (hnewer _ hprevious)
        exact (hold'.newest e a t hold rfl).trans hlt.le
      · cases hop
        exact le_rfl
    · rw [hlease, if_pos ⟨rfl, rfl⟩]
      exact leaseOf_leaseAfter _ _ _ _
  refine ⟨fun key latest hget => ?_, fun e a s t he => ?_, fun source s hsome => ?_⟩
  · rw [hfence] at hget
    split_ifs at hget with hkey
    · exact ⟨event, action, selector, now, hhanded, hkey⟩
    · obtain ⟨e, a, s, t, he, hkey⟩ := h.known key latest hget
      exact ⟨e, a, s, t, he.snoc _, hkey⟩
  · by_cases hself : e.source.id = event.source.id ∧ s = selector
    · rw [hself.1, hself.2]
      exact ⟨event, action, now, hdecides, by rw [hfence, if_pos rfl]⟩
    · have hold : Handed ops e a s t := by
        rcases handed_snoc.1 he with hold | ⟨⟨valid', hop⟩, -, -, hmessage', -⟩
        · exact hold
        · cases hop
          rw [hmessage, LinkMessage.subscription.injEq] at hmessage'
          exact absurd ⟨rfl, hmessage'.2.symm⟩ hself
      obtain ⟨e', a', t', hold', hprevious⟩ := h.decided e a s t hold
      refine ⟨e', a', t', hold'.snoc ?_ fun action' hmessage' hsource => ?_, ?_⟩
      · rw [hlease, if_neg hself]
      · rw [hmessage, LinkMessage.subscription.injEq] at hmessage'
        exact absurd ⟨hsource.symm, hmessage'.2.symm⟩ hself
      · rw [hfence, if_neg fun hkey => hself (transitionKey_inj hold.colon_free valid hkey)]
        exact hprevious
  · rw [hlease] at hsome
    split_ifs at hsome with hself
    · rw [hself.1, hself.2]
      exact ⟨event, action, now, hhanded, rfl⟩
    · obtain ⟨e, a, t, he, hsource⟩ := h.leased source s hsome
      exact ⟨e, a, t, he.snoc _, hsource⟩

/-- A message that is refused, or is none of an Asset's subscription to this Gateway. -/
theorem Fenced.ignored (h : Fenced ops)
    (hnot : ∀ action selector, event.addressedToLocal = true → event.source.role = .asset →
      event.message = .subscription action selector →
      ∃ reason, ((runDemand ops).1.apply event now).2 = some (.rejected reason))
    (hsame : (runDemand (ops ++ [.apply event now valid])).1 = (runDemand ops).1) :
    Fenced (ops ++ [.apply event now valid]) := by
  refine h.of_same _ (fun e a s t he => ?_) (by rw [hsame]) (fun source s action t hl => ?_)
    (fun source s hn => by rw [hsame]; exact hn)
  · rcases handed_snoc.1 he with hold | ⟨⟨valid', hop⟩, haddressed, hrole, hmessage, hrefused⟩
    · exact hold
    · cases hop
      obtain ⟨reason, hreason⟩ := hnot a s haddressed hrole hmessage
      exact absurd hreason (hrefused reason)
  · rw [hsame]
    exact hl.snoc _

theorem Fenced.apply (h : Fenced ops) (hsessions : OneSession (ops ++ [.apply event now valid])) :
    Fenced (ops ++ [.apply event now valid]) := by
  by_cases hsubscription : event.addressedToLocal = true ∧ event.source.role = .asset ∧
      ∃ action selector, event.message = .subscription action selector
  · obtain ⟨haddressed, hrole, action, selector, hmessage⟩ := hsubscription
    have happly := apply_of_subscription haddressed hrole hmessage now (runDemand ops).1
    rcases applySubscription_cases event action selector now (runDemand ops).1 with
      ⟨previous, hprevious, hovertaken, heq⟩ | ⟨reason, heq⟩ | ⟨hnewer, heq⟩
    · refine h.overtaken hsessions hrole hmessage hprevious hovertaken ?_
      rw [runDemand_apply, happly, heq]
    · refine h.ignored (fun _ _ _ _ _ => ⟨reason, by rw [happly, heq]⟩) ?_
      rw [runDemand_apply, happly, heq]
    · exact h.accepted haddressed hrole hmessage hnewer (happly.trans heq)
  · refine h.ignored (fun action selector haddressed hrole hmessage =>
      absurd ⟨haddressed, hrole, action, selector, hmessage⟩ hsubscription) ?_
    rw [runDemand_apply, apply_of_not_subscription hsubscription]

theorem Fenced.expire (h : Fenced ops) (swept : ℕ) : Fenced (ops ++ [.expire swept]) := by
  have hlease : ∀ source s, (runDemand (ops ++ [.expire swept])).1.demand.lease source s =
      ((runDemand ops).1.demand.lease source s).filter fun l => swept < l.expiresAt := by
    intro source s
    rw [runDemand_snoc]
    exact lease_expire _ _ _ _
  refine h.of_same _ (fun e a s t he => ?_) (by rw [runDemand_snoc]; rfl)
    (fun source s action t hl => ?_) (fun source s hn => by rw [hlease, hn]; rfl)
  · rcases handed_snoc.1 he with hold | ⟨⟨valid', hop⟩, -⟩
    · exact hold
    · cases hop
  · rw [hlease]
    exact hl.expire swept

end Step

theorem OneSession.left {ops ops' : List DemandOp} (h : OneSession (ops ++ ops')) :
    OneSession ops := fun e t valid e' t' valid' he he' =>
  h e t valid e' t' valid' (List.mem_append_left _ he) (List.mem_append_left _ he')

theorem runDemand_fenced {ops : List DemandOp} (hsessions : OneSession ops) : Fenced ops := by
  induction ops using List.reverseRecOn with
  | nil =>
    refine ⟨fun key latest h => (nomatch h), fun e a s t h => ?_, fun source s h => absurd rfl h⟩
    obtain ⟨before, valid, after, heq, -⟩ := h
    simp at heq
  | append_singleton ops op ih =>
    have hops := ih hsessions.left
    cases op with
    | apply event now valid => exact hops.apply hsessions
    | expire swept => exact hops.expire swept

end Deciding

/-- Two runs in which an Asset's messages for a selector are the same, in any order and number. -/
def SameMessages (ops ops' : List DemandOp) (source selector : String) : Prop :=
  ∀ e a, e.source.id = source →
    ((∃ t, Handed ops e a selector t) ↔ ∃ t, Handed ops' e a selector t)

/-- A message at a place of its source says one thing. -/
def Unambiguous (ops : List DemandOp) : Prop :=
  ∀ e a s t e' a' t', Handed ops e a s t → Handed ops e' a' s t' → e.source.id = e'.source.id →
    position e = position e' → a = a'

/-- An Asset's lease on a selector is that of its newest message, however the messages arrive; and
the transitions answered lead to the active selectors, which after a sweep are the leased ones. -/
theorem feed_demand {ops : List DemandOp} (hsessions : OneSession ops)
    (htimes : (ops.map DemandOp.now).Pairwise (· ≤ ·)) :
    (∀ source selector,
      ((∃ e a t, Handed ops e a selector t ∧ e.source.id = source) →
        ∃ e a t, Decides ops source selector e a t) ∧
      ((¬ ∃ e a t, Handed ops e a selector t ∧ e.source.id = source) →
        (runDemand ops).1.demand.lease source selector = none)) ∧
    (∀ ops' source selector e a t e' a' t', Unambiguous ops →
      SameMessages ops ops' source selector → Decides ops source selector e a t →
      Decides ops' source selector e' a' t' → position e = position e' ∧ a = a') ∧
    (∀ s, ((runDemand ops).2.foldl follow fun _ => false) s =
      (runDemand ops).1.demand.activeSelectors.has s) ∧
    Changes (fun _ => false) (runDemand ops).2 ∧
    ∀ before now, ops = before ++ [.expire now] → ∀ s,
      (runDemand ops).1.demand.activeSelectors.has s = true ↔
        ∃ source, (runDemand ops).1.demand.has source s now = true := by
  have hfenced := runDemand_fenced hsessions
  obtain ⟨-, hleads⟩ := runDemand_follows htimes
  refine ⟨fun source selector => ⟨?_, fun hnone => ?_⟩, ?_, fun s => by rw [hleads.result],
    hleads.changes, ?_⟩
  · rintro ⟨e, a, t, he, rfl⟩
    obtain ⟨e', a', t', hdecides, -⟩ := hfenced.decided e a selector t he
    exact ⟨e', a', t', hdecides⟩
  · by_contra hsome
    obtain ⟨e, a, t, he, hsource⟩ := hfenced.leased source selector hsome
    exact hnone ⟨e, a, t, he, hsource⟩
  · intro ops' source selector e a t e' a' t' hunambiguous hsame hdecides hdecides'
    obtain ⟨t₁, hthere⟩ := (hsame e a hdecides.source_eq).1 ⟨t, hdecides.handed⟩
    obtain ⟨t₂, hhere⟩ := (hsame e' a' hdecides'.source_eq).2 ⟨t', hdecides'.handed⟩
    have hposition : position e = position e' :=
      le_antisymm (hdecides'.newest e a t₁ hthere hdecides.source_eq)
        (hdecides.newest e' a' t₂ hhere hdecides'.source_eq)
    exact ⟨hposition, hunambiguous _ _ _ _ _ _ _ hdecides.handed hhere
      (hdecides.source_eq.trans hdecides'.source_eq.symm) hposition⟩
  · rintro before now rfl s
    rw [List.map_append, List.pairwise_append] at htimes
    obtain ⟨hfollows, -⟩ := runDemand_follows htimes.1
    have hnow := hfollows.mono
      (latestTime_le fun op hop => htimes.2.2 _ (List.mem_map_of_mem hop) now (by simp [DemandOp.now]))
    have hstate : (runDemand (before ++ [.expire now])).1.demand =
        ((runDemand before).1.demand.expire now).1 := by
      rw [runDemand_snoc]
      rfl
    rw [hstate, hnow.expire_active]
    exact (leased_expire _ now s).symm.trans (leased_iff_has _ now s)

section LateRemoval

def feedMessage (action : SubscriptionAction) (sequence : ℕ) : MessageEvent where
  message := .subscription action "all-entities"
  operationID := "op"
  settlementID := "op"
  source := ⟨.asset, "uav-1"⟩
  destination := none
  sourceGeneration := 1
  serviceSession := "boot-1"
  sourceSequence := sequence
  receivedAt := 0
  addressedToLocal := true
  requiresSettlement := false

/-- A removal arrives before the subscription that it ends; then a lease is over at a sweep. -/
def lateRemoval : List DemandOp :=
  [.apply (feedMessage .remove 2) 0 (by decide), .apply (feedMessage .add 1) 1 (by decide),
   .apply (feedMessage .renew 3) 2 (by decide), .expire 90002]

theorem lateRemoval_oneSession : OneSession lateRemoval := by
  intro e now valid e' now' valid' he he' _ _
  simp only [lateRemoval, List.mem_cons, DemandOp.apply.injEq, reduceCtorEq, List.not_mem_nil,
    or_false] at he he'
  have hboot : ∀ action sequence, (feedMessage action sequence).serviceSession = "boot-1" :=
    fun _ _ => rfl
  rcases he with ⟨rfl, -⟩ | ⟨rfl, -⟩ | ⟨rfl, -⟩ <;>
    rcases he' with ⟨rfl, -⟩ | ⟨rfl, -⟩ | ⟨rfl, -⟩ <;> simp only [hboot]

theorem feed_demand_lateRemoval :
    (runDemand lateRemoval).2 = [⟨true, "all-entities"⟩, ⟨false, "all-entities"⟩] ∧
      ((runDemand lateRemoval).2.foldl follow fun _ => false) "all-entities" =
        (runDemand lateRemoval).1.demand.activeSelectors.has "all-entities" :=
  ⟨by decide +kernel, (feed_demand lateRemoval_oneSession (by decide)).2.2.1 _⟩

end LateRemoval

end Atlas.Link.Demand
