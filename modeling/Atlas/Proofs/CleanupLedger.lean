import Atlas.Simulations.RunStore

/-!
# What a run leaves to be cleaned up

A token of the run is `Pending` at an ID while a resource with it lives there, or a create with it
may still make one. Whatever is pending is in the ledger and in the record of the run (`Kept`), and
until the run is stopped the tokens it remembers tell which that is (`Remembers`): at most one for
an ID, for which one is remembered. Tokens are used once, so once a delete with a remembered token
has taken effect nothing is pending at its ID until it goes on. Two things break this: a create of
an ID whose entry stays though no token is remembered for it, as the one that the limit refused, and
a delete with a token of the caller's own.
-/

namespace Atlas.Simulations

section Tracking

variable {run : RunRecord} {resource : CleanupResource} {key : ResourceKey} {outcome : WriteOutcome}
  {ledger : Ledger}

theorem mem_resources {r : CleanupResource} : r ∈ run.cleanupResourcesForRun ↔
    r ∈ run.cleanupResources ∨ run.overflowCleanupResource = some r := by
  unfold RunRecord.cleanupResourcesForRun
  rw [List.mem_append, Option.mem_toList]

theorem tracks_iff : run.tracks key = true ↔ ∃ r ∈ run.cleanupResourcesForRun, r.key = key := by
  unfold RunRecord.tracks hasResource sameResource
  simp only [Bool.or_eq_true, List.any_eq_true, Option.any_some, decide_eq_true_eq,
    Option.any_eq_true, mem_resources]
  constructor
  · rintro (⟨r, hr, hkey⟩ | ⟨r, hr, hkey⟩)
    · exact ⟨r, .inl hr, hkey⟩
    · exact ⟨r, .inr hr, hkey⟩
  · rintro ⟨r, hr | hr, hkey⟩
    · exact .inl ⟨r, hr, hkey⟩
    · exact .inr ⟨r, hr, hkey⟩

/-- The ledger is as it was, or the saved resources have every one of these. -/
def Saves (ledger ledger' : Ledger) (resources : List CleanupResource) : Prop :=
  ledger' = ledger ∨ ∃ saved, ledger' = some saved ∧ (∀ r ∈ resources, r ∈ saved) ∧
    saved.length ≤ maxCreatedResourcesPerRun + 1

/-- What tracking or untracking does to the record and to the ledger, for the resources it keeps. -/
structure Tracked.Keeps (t : Tracked) (run : RunRecord) (ledger : Ledger)
    (kept : List CleanupResource) : Prop where
  frame : ∃ resources overflow, t.run =
    { run with cleanupResources := resources, overflowCleanupResource := overflow }
  resources : ∀ r ∈ kept, r ∈ t.run.cleanupResourcesForRun
  saves : Saves ledger t.ledger kept
  bound : t.run.cleanupResources.length ≤ maxCreatedResourcesPerRun

theorem resources_length (h : run.cleanupResources.length ≤ maxCreatedResourcesPerRun) :
    run.cleanupResourcesForRun.length ≤ maxCreatedResourcesPerRun + 1 := by
  unfold RunRecord.cleanupResourcesForRun
  rw [List.length_append]
  rcases run.overflowCleanupResource with _ | r <;> simp <;> omega

theorem persistRun_saves {resources kept : List CleanupResource}
    (hkept : ∀ r ∈ kept, r ∈ resources)
    (hlength : resources.length ≤ maxCreatedResourcesPerRun + 1) :
    Saves ledger (persistRun resources outcome ledger).1 kept := by
  cases outcome
  · exact .inr ⟨resources, rfl, hkept, hlength⟩
  · exact .inl rfl
  · exact .inr ⟨resources, rfl, hkept, hlength⟩

theorem persistRun_done {resources : List CleanupResource}
    (h : (persistRun resources outcome ledger).2 = true) :
    (persistRun resources outcome ledger).1 = some resources := by
  cases outcome
  · rfl
  · cases h
  · cases h

/-- A changed record takes the place of the old one when it is saved. -/
theorem Tracked.Keeps.persist (next : RunRecord) {kept : List CleanupResource}
    (hframe : ∃ resources overflow, next =
      { run with cleanupResources := resources, overflowCleanupResource := overflow })
    (hold : ∀ r ∈ kept, r ∈ run.cleanupResourcesForRun)
    (hkept : ∀ r ∈ kept, r ∈ next.cleanupResourcesForRun)
    (hbound : run.cleanupResources.length ≤ maxCreatedResourcesPerRun)
    (hnext : next.cleanupResources.length ≤ maxCreatedResourcesPerRun) (returned : Bool) :
    Tracked.Keeps ⟨if (persistRun next.cleanupResourcesForRun outcome ledger).2 then next else run,
      (persistRun next.cleanupResourcesForRun outcome ledger).1, returned⟩ run ledger kept := by
  have hsaves : Saves ledger (persistRun next.cleanupResourcesForRun outcome ledger).1 kept :=
    persistRun_saves hkept (resources_length hnext)
  by_cases hsaved : (persistRun next.cleanupResourcesForRun outcome ledger).2 = true
  · rw [if_pos hsaved]
    exact ⟨hframe, hkept, hsaves, hnext⟩
  · rw [if_neg hsaved]
    exact ⟨⟨_, _, rfl⟩, hold, hsaves, hbound⟩

theorem track_keeps (hbound : run.cleanupResources.length ≤ maxCreatedResourcesPerRun) :
    (run.trackCleanupCandidate resource outcome ledger).Keeps run ledger
      run.cleanupResourcesForRun := by
  unfold RunRecord.trackCleanupCandidate
  by_cases hquiet : (run.closed || run.tracks resource.key) = true
  · rw [if_pos hquiet]
    exact ⟨⟨_, _, rfl⟩, fun _ hr => hr, .inl rfl, hbound⟩
  rw [if_neg hquiet]
  by_cases hfull : maxCreatedResourcesPerRun ≤ run.cleanupResources.length
  · rw [if_pos hfull]
    by_cases hoverflow : run.overflowCleanupResource.isSome = true
    · rw [if_pos hoverflow]
      exact ⟨⟨_, _, rfl⟩, fun _ hr => hr, .inl rfl, hbound⟩
    · rw [if_neg hoverflow]
      refine .persist { run with overflowCleanupResource := some resource } ⟨_, _, rfl⟩
        (fun _ hr => hr) (fun r hr => ?_) hbound hbound false
      rcases mem_resources.1 hr with hr | hr
      · exact mem_resources.2 (.inl hr)
      · simp [hr] at hoverflow
  · rw [if_neg hfull]
    refine .persist { run with cleanupResources := run.cleanupResources ++ [resource] }
      ⟨_, _, rfl⟩ (fun _ hr => hr) (fun r hr => ?_) hbound ?_ _
    · rcases mem_resources.1 hr with hr | hr
      · exact mem_resources.2 (.inl (List.mem_append_left _ hr))
      · exact mem_resources.2 (.inr hr)
    · simp only [List.length_append, List.length_singleton]
      omega

theorem track_closed (hclosed : run.closed = true) :
    run.trackCleanupCandidate resource outcome ledger = ⟨run, ledger, true⟩ := by
  unfold RunRecord.trackCleanupCandidate
  rw [hclosed, Bool.true_or, if_pos rfl]

theorem untrack_closed (hclosed : run.closed = true) :
    run.untrackCleanupCandidate key outcome ledger = ⟨run, ledger, true⟩ := by
  unfold RunRecord.untrackCleanupCandidate
  rw [hclosed, Bool.true_or, if_pos rfl]

/-- A candidate that is not tracked yet is in the record and in the ledger afterwards. -/
theorem track_listed (hopen : run.closed = false) (hnew : run.tracks resource.key = false)
    (hreturned : (run.trackCleanupCandidate resource outcome ledger).returned = true) :
    resource ∈ (run.trackCleanupCandidate resource outcome ledger).run.cleanupResourcesForRun ∧
      ∃ saved, (run.trackCleanupCandidate resource outcome ledger).ledger = some saved ∧
        resource ∈ saved := by
  unfold RunRecord.trackCleanupCandidate at hreturned ⊢
  rw [hopen, hnew, if_neg (by simp)] at hreturned ⊢
  by_cases hfull : maxCreatedResourcesPerRun ≤ run.cleanupResources.length
  · rw [if_pos hfull] at hreturned
    split_ifs at hreturned
  · rw [if_neg hfull] at hreturned ⊢
    dsimp only at hreturned ⊢
    have hmem : resource ∈ ({ run with cleanupResources := run.cleanupResources ++ [resource] } :
        RunRecord).cleanupResourcesForRun := mem_resources.2 (.inl (by simp))
    rw [if_pos hreturned]
    exact ⟨hmem, _, persistRun_done hreturned, hmem⟩

theorem untrack_keeps (hbound : run.cleanupResources.length ≤ maxCreatedResourcesPerRun) :
    (run.untrackCleanupCandidate key outcome ledger).Keeps run ledger
      (run.cleanupResourcesForRun.filter (·.key ≠ key)) := by
  have hold : ∀ r ∈ run.cleanupResourcesForRun.filter (·.key ≠ key),
      r ∈ run.cleanupResourcesForRun := fun r hr => List.mem_of_mem_filter hr
  unfold RunRecord.untrackCleanupCandidate
  by_cases hquiet : (run.closed || !run.tracks key) = true
  · rw [if_pos hquiet]
    exact ⟨⟨_, _, rfl⟩, hold, .inl rfl, hbound⟩
  · rw [if_neg hquiet]
    refine .persist
      { run with
        cleanupResources := run.cleanupResources.eraseP fun r => sameResource (some r) key
        overflowCleanupResource :=
          if sameResource run.overflowCleanupResource key then none
          else run.overflowCleanupResource }
      ⟨_, _, rfl⟩ hold (fun r hr => ?_) hbound (List.length_eraseP_le.trans hbound) _
    obtain ⟨hmem, hkey⟩ := List.mem_filter.1 hr
    have hother : sameResource (some r) key = false := by simpa [sameResource] using hkey
    rcases mem_resources.1 hmem with hr | hr
    · refine mem_resources.2 (.inl ?_)
      exact (List.mem_eraseP_of_neg (by simp [hother])).2 hr
    · refine mem_resources.2 (.inr ?_)
      dsimp only
      rw [hr, if_neg (by simp [hother])]

end Tracking

namespace World

/-- A resource with a token of the run is in Core. -/
def Live (w : World) (key : ResourceKey) (n : ℕ) : Prop :=
  w.core key = some (some (.generated n))

/-- A create with the token may still take effect. -/
def Landable (w : World) (key : ResourceKey) (n : ℕ) : Prop :=
  .generated n ∉ w.used ∧ ∃ call ∈ w.creates,
    call.key = key ∧ call.token = n ∧ call.request = .sent

def Pending (w : World) (key : ResourceKey) (n : ℕ) : Prop := w.Live key n ∨ w.Landable key n

/-- The ledger has the resource with this token. -/
def Listed (w : World) (key : ResourceKey) (n : ℕ) : Prop :=
  ∃ saved, w.ledger = some saved ∧ ⟨key, n⟩ ∈ saved

end World

/-- A delete with the token that was recorded, which has taken effect and is to go on. -/
def DeleteCall.Finished (call : DeleteCall) : Prop :=
  call.waiting = true ∧ call.request = .done ∧
    ∃ n, call.recorded = some n ∧ call.token = some (.generated n)

/-- What a run that goes on remembers of its tokens. -/
structure Remembers (w : World) (run : RunRecord) : Prop where
  token : ∀ key n, run.instanceTokens.get key = some n →
    .generated n ∈ w.used ∨ ⟨key, n⟩ ∈ run.cleanupResourcesForRun ∧ w.Listed key n
  known : ∀ key n, w.Pending key n → run.instanceTokens.get key ≠ none
  same : ∀ key n m, w.Pending key n → run.instanceTokens.get key = some m →
    .generated m ∈ w.used ∨ m = n
  one : ∀ key n m, w.Pending key n → w.Pending key m → n = m
  finished : ∀ call ∈ w.deletes, call.Finished →
    (∀ n, run.instanceTokens.get call.key = some n → .generated n ∈ w.used) ∧
      ∀ n, ¬ w.Pending call.key n

/-- How a record and its cleanup stand. -/
structure RunOk (w : World) (run : RunRecord) : Prop where
  recorded : ∀ key n, w.Pending key n → ⟨key, n⟩ ∈ run.cleanupResourcesForRun
  bound : run.cleanupResources.length ≤ maxCreatedResourcesPerRun
  settled : run.settled = true → run.aborted = true
  started : run.cleanupStarted = true →
    run.aborted = true ∧ ∀ call ∈ w.creates, call.request ≠ .sent
  cleaning : ∀ rest, run.cleanup = some rest → run.cleanupStarted = true ∧
    ∀ r ∈ run.cleanupResourcesForRun, r ∈ rest ∨ ¬ w.Live r.key r.instanceToken
  cleaned : run.cleaned = true → run.cleanupStarted = true ∧ ∀ key n, ¬ w.Live key n

/-- Whatever is pending is in the ledger and in the record. -/
structure Kept (w : World) : Prop where
  used : ∀ key n, w.Live key n → .generated n ∈ w.used
  landed : ∀ call ∈ w.creates, call.request = .done → .generated call.token ∈ w.used
  listed : ∀ key n, w.Pending key n → w.Listed key n
  bound : ∀ saved, w.ledger = some saved → saved.length ≤ maxCreatedResourcesPerRun + 1
  run : ∀ run, w.run = some run → RunOk w run
  remembers : ∀ run, w.run = some run → run.aborted = false → Remembers w run

section Shrinking

variable {w w' : World}

theorem RunOk.no_landable {run : RunRecord} (h : RunOk w run) (hstarted : run.cleanupStarted = true)
    (key : ResourceKey) (n : ℕ) : ¬ w.Landable key n := by
  rintro ⟨-, call, hcall, -, -, hsent⟩
  exact (h.started hstarted).2 call hcall hsent

theorem RunOk.closed {run : RunRecord} (h : RunOk w run) (hgoes : run.aborted = false) :
    run.closed = false := by
  have hstarted : run.cleanupStarted = false := by
    by_contra hnot
    have haborted := (h.started (by simpa using hnot)).1
    simp [hgoes] at haborted
  have hcleaned : run.cleaned = false := by
    by_contra hnot
    have hagain := (h.cleaned (by simpa using hnot)).1
    simp [hstarted] at hagain
  simp [RunRecord.closed, hgoes, hstarted, hcleaned]

/-- In Core or among the requests nothing comes to be pending that was not. -/
structure Shrinks (w w' : World) : Prop where
  ledger : w'.ledger = w.ledger
  used : ∀ t ∈ w.used, t ∈ w'.used
  live : ∀ key n, w'.Live key n → .generated n ∈ w'.used
  landed : ∀ call ∈ w'.creates, call.request = .done → .generated call.token ∈ w'.used
  pending : ∀ key n, w'.Pending key n → w.Pending key n
  sent : ∀ call ∈ w'.creates, call.request = .sent → ∃ call' ∈ w.creates, call'.request = .sent

theorem RunOk.shrink {run : RunRecord} (h : RunOk w run) (hs : Shrinks w w') : RunOk w' run := by
  have hlive : run.cleanupStarted = true → ∀ key n, w'.Live key n → w.Live key n :=
    fun hstarted key n hl =>
      (hs.pending key n (.inl hl)).resolve_right (h.no_landable hstarted key n)
  refine ⟨fun key n hp => h.recorded key n (hs.pending key n hp), h.bound, h.settled,
    fun hstarted => ⟨(h.started hstarted).1, fun call hcall hsent => ?_⟩, fun rest hrest => ?_,
    fun hcleaned => ?_⟩
  · obtain ⟨call', hcall', hsent'⟩ := hs.sent call hcall hsent
    exact (h.started hstarted).2 call' hcall' hsent'
  · obtain ⟨hstarted, hrests⟩ := h.cleaning rest hrest
    refine ⟨hstarted, fun r hr => ?_⟩
    rcases hrests r hr with hleft | hgone
    · exact .inl hleft
    · exact .inr fun hl => hgone (hlive hstarted _ _ hl)
  · obtain ⟨hstarted, hnone⟩ := h.cleaned hcleaned
    exact ⟨hstarted, fun key n hl => hnone key n (hlive hstarted key n hl)⟩

theorem Remembers.shrink {run : RunRecord} (h : Remembers w run) (hs : Shrinks w w')
    (hover : ∀ call ∈ w'.deletes, call.Finished →
      (∀ n, run.instanceTokens.get call.key = some n → .generated n ∈ w'.used) ∧
        ∀ n, ¬ w'.Pending call.key n) : Remembers w' run where
  token key n hget := by
    rcases h.token key n hget with hused | ⟨hmem, saved, hsaved, hlisted⟩
    · exact .inl (hs.used _ hused)
    · exact .inr ⟨hmem, saved, hs.ledger.trans hsaved, hlisted⟩
  known key n hp := h.known key n (hs.pending key n hp)
  same key n m hp hget := (h.same key n m (hs.pending key n hp) hget).imp_left (hs.used _)
  one key n m hp hq := h.one key n m (hs.pending key n hp) (hs.pending key m hq)
  finished := hover

/-- What was over stays over. -/
theorem Remembers.over_of {run : RunRecord} (h : Remembers w run) (hs : Shrinks w w')
    {call : DeleteCall} (hcall : ∃ call' ∈ w.deletes, call'.Finished ∧ call'.key = call.key) :
    (∀ n, run.instanceTokens.get call.key = some n → .generated n ∈ w'.used) ∧
      ∀ n, ¬ w'.Pending call.key n := by
  obtain ⟨call', hcall', hfinished, hkey⟩ := hcall
  obtain ⟨hused, hnone⟩ := h.finished call' hcall' hfinished
  rw [hkey] at hused hnone
  exact ⟨fun n hget => hs.used _ (hused n hget), fun m hp => hnone m (hs.pending _ m hp)⟩

theorem Kept.shrink (h : Kept w) (hs : Shrinks w w') (hrun : w'.run = w.run)
    (hover : ∀ run, w.run = some run → run.aborted = false → ∀ call ∈ w'.deletes, call.Finished →
      (∀ n, run.instanceTokens.get call.key = some n → .generated n ∈ w'.used) ∧
        ∀ n, ¬ w'.Pending call.key n) : Kept w' where
  used := hs.live
  landed := hs.landed
  listed key n hp := by
    obtain ⟨saved, hsaved, hlisted⟩ := h.listed key n (hs.pending key n hp)
    exact ⟨saved, hs.ledger.trans hsaved, hlisted⟩
  bound saved hsaved := h.bound saved (hs.ledger.symm.trans hsaved)
  run r hr := (h.run r (hrun.symm.trans hr)).shrink hs
  remembers r hr hgoes :=
    (h.remembers r (hrun.symm.trans hr) hgoes).shrink hs (hover r (hrun.symm.trans hr) hgoes)

/-- The deletes stay as they are, or are over already. -/
theorem Kept.shrink_old (h : Kept w) (hs : Shrinks w w') (hrun : w'.run = w.run)
    (hold : ∀ call ∈ w'.deletes, call.Finished →
      ∃ call' ∈ w.deletes, call'.Finished ∧ call'.key = call.key) : Kept w' :=
  h.shrink hs hrun fun run hr hgoes call hcall hfinished =>
    (h.remembers run hr hgoes).over_of hs (hold call hcall hfinished)

end Shrinking

section Requests

variable {w : World}

/-- The requests of the creates are as they were, or fewer are under way. -/
theorem Shrinks.of_creates (h : Kept w) (run : Option RunRecord) (creates : List CreateCall)
    (deletes : List DeleteCall)
    (hold : ∀ call ∈ creates, call.request ≠ .failed → ∃ call' ∈ w.creates,
      call'.key = call.key ∧ call'.token = call.token ∧ call'.request = call.request) :
    Shrinks w { w with run := run, creates := creates, deletes := deletes } where
  ledger := rfl
  used _ ht := ht
  live key n hl := h.used key n hl
  landed call hcall hdone := by
    obtain ⟨call', hcall', -, htoken, hrequest⟩ := hold call hcall (by simp [hdone])
    exact htoken ▸ h.landed call' hcall' (hrequest.trans hdone)
  pending key n hp := by
    rcases hp with hl | ⟨hunused, call, hcall, hkey, htoken, hsent⟩
    · exact .inl hl
    · obtain ⟨call', hcall', hkey', htoken', hrequest⟩ := hold call hcall (by simp [hsent])
      exact .inr ⟨hunused, call', hcall', hkey'.trans hkey, htoken'.trans htoken,
        hrequest.trans hsent⟩
  sent call hcall hsent := by
    obtain ⟨call', hcall', -, -, hrequest⟩ := hold call hcall (by simp [hsent])
    exact ⟨call', hcall', hrequest.trans hsent⟩

theorem Shrinks.refl (h : Kept w) : Shrinks w w :=
  .of_creates h w.run w.creates w.deletes fun call hcall _ => ⟨call, hcall, rfl, rfl, rfl⟩

/-- A list with one member changed. -/
theorem mem_modify {α : Type} {f : α → α} {i : ℕ} {xs : List α} {x : α} (h : x ∈ xs.modify i f) :
    ∃ y ∈ xs, x = y ∨ xs[i]? = some y ∧ x = f y := by
  obtain ⟨j, hj⟩ := List.mem_iff_getElem?.1 h
  rw [List.getElem?_modify] at hj
  rcases hy : xs[j]? with _ | y
  · simp [hy] at hj
  · refine ⟨y, List.mem_of_getElem? hy, ?_⟩
    rw [hy] at hj
    by_cases hij : i = j
    · subst hij
      simp at hj
      exact .inr ⟨hy, hj.symm⟩
    · simp [hij] at hj
      exact .inl hj.symm

theorem createLands_shrinks (h : Kept w) (i : ℕ) : Shrinks w (w.createLands i) := by
  have hstays : Shrinks w w := .refl h
  unfold World.createLands
  rcases hcall : w.creates[i]? with _ | call
  · exact hstays
  dsimp only
  split_ifs with hlands
  swap
  · exact hstays
  obtain ⟨hsent, hfree, hunused⟩ := hlands
  have hmem : call ∈ w.creates := List.mem_of_getElem? hcall
  have hlive : ∀ key n, World.Live ({ w.setCore call.key (some (some (.generated call.token))) with
      used := .generated call.token :: w.used
      creates := w.creates.modify i fun call => { call with request := .done } }) key n →
      key = call.key ∧ n = call.token ∨ w.Live key n := by
    intro key n hl
    unfold World.Live World.setCore at hl
    by_cases hkey : key = call.key
    · subst hkey
      simp at hl
      exact .inl ⟨rfl, hl.symm⟩
    · simp [hkey] at hl
      exact .inr hl
  refine ⟨rfl, fun t ht => List.mem_cons_of_mem _ ht, fun key n hl => ?_, fun c hc hdone => ?_,
    fun key n hp => ?_, fun c hc hsent' => ?_⟩
  · rcases hlive key n hl with ⟨-, rfl⟩ | hl
    · exact List.mem_cons_self
    · exact List.mem_cons_of_mem _ (h.used key n hl)
  · obtain ⟨y, hy, rfl | ⟨hget, rfl⟩⟩ := mem_modify hc
    · exact List.mem_cons_of_mem _ (h.landed _ hy hdone)
    · rw [hcall] at hget
      cases hget
      exact List.mem_cons_self
  · rcases hp with hl | ⟨hnot, c, hc, hkey, htoken, hsent'⟩
    · rcases hlive key n hl with ⟨rfl, rfl⟩ | hl
      · exact .inr ⟨hunused, call, hmem, rfl, rfl, hsent⟩
      · exact .inl hl
    · obtain ⟨y, hy, rfl | ⟨-, rfl⟩⟩ := mem_modify hc
      · exact .inr ⟨fun hused => hnot (List.mem_cons_of_mem _ hused), _, hy, hkey, htoken, hsent'⟩
      · cases hsent'
  · obtain ⟨y, hy, rfl | ⟨-, rfl⟩⟩ := mem_modify hc
    · exact ⟨_, hy, hsent'⟩
    · cases hsent'

theorem createFails_shrinks (h : Kept w) (i : ℕ) : Shrinks w (w.createFails i) := by
  refine .of_creates h w.run _ w.deletes fun call hcall hgoes => ?_
  obtain ⟨y, hy, rfl | ⟨-, rfl⟩⟩ := mem_modify hcall
  · exact ⟨_, hy, rfl, rfl, rfl⟩
  · split_ifs at hgoes ⊢ with hsent
    · simp at hgoes
    · exact ⟨y, hy, rfl, rfl, rfl⟩

theorem Kept.createLands (h : Kept w) (i : ℕ) : Kept (w.createLands i) := by
  have hframe : (w.createLands i).run = w.run ∧ (w.createLands i).deletes = w.deletes := by
    unfold World.createLands
    rcases w.creates[i]? with _ | call
    · exact ⟨rfl, rfl⟩
    · dsimp only
      split_ifs
      · exact ⟨rfl, rfl⟩
      · exact ⟨rfl, rfl⟩
  refine h.shrink_old (createLands_shrinks h i) hframe.1 fun call hcall hfinished => ?_
  exact ⟨call, hframe.2 ▸ hcall, hfinished, rfl⟩

theorem Kept.createFails (h : Kept w) (i : ℕ) : Kept (w.createFails i) :=
  h.shrink_old (createFails_shrinks h i) rfl fun call hcall hfinished =>
    ⟨call, hcall, hfinished, rfl⟩

/-- Only the deletes change, and none of them comes to be finished. -/
theorem Kept.of_deletes (h : Kept w) (deletes : List DeleteCall)
    (hold : ∀ call ∈ deletes, call.Finished →
      ∃ call' ∈ w.deletes, call'.Finished ∧ call'.key = call.key) :
    Kept { w with deletes := deletes } :=
  h.shrink_old (.of_creates h w.run w.creates deletes fun call hcall _ =>
    ⟨call, hcall, rfl, rfl, rfl⟩) rfl hold

theorem Kept.delete (h : Kept w) (key : ResourceKey) (instanceToken : Option InstanceToken) :
    Kept (w.delete key instanceToken) := by
  unfold World.delete
  rcases hrun : w.run with _ | run
  · exact h
  dsimp only
  by_cases haborted : run.aborted = true
  · rw [if_pos haborted]
    exact h
  · rw [if_neg haborted, ← hrun]
    refine h.of_deletes _ fun call hcall hfinished => ?_
    rcases List.mem_append.1 hcall with hcall | hnew
    · exact ⟨call, hcall, hfinished, rfl⟩
    · rw [List.mem_singleton.1 hnew] at hfinished
      exact absurd hfinished.2.1 (by simp)

theorem Kept.deleteFails (h : Kept w) (i : ℕ) : Kept (w.deleteFails i) := by
  refine h.of_deletes _ fun call hcall hfinished => ?_
  obtain ⟨y, hy, rfl | ⟨-, rfl⟩⟩ := mem_modify hcall
  · exact ⟨_, hy, hfinished, rfl⟩
  · split_ifs at hfinished with hsent
    · exact absurd hfinished.2.1 (by simp)
    · rw [if_neg hsent]
      exact ⟨y, hy, hfinished, rfl⟩

/-- A resource goes from Core. -/
theorem gone_shrinks (h : Kept w) (key : ResourceKey) (deletes : List DeleteCall) :
    Shrinks w { w.setCore key none with deletes := deletes } := by
  have hlive : ∀ k n, World.Live { w.setCore key none with deletes := deletes } k n →
      w.Live k n := by
    intro k n hl
    unfold World.Live World.setCore at hl
    by_cases hkey : k = key
    · subst hkey
      simp at hl
    · simp [hkey] at hl
      exact hl
  refine ⟨rfl, fun t ht => ht, fun k n hl => h.used k n (hlive k n hl), h.landed, fun k n hp => ?_,
    fun call hcall hsent => ⟨call, hcall, hsent⟩⟩
  rcases hp with hl | hlandable
  · exact .inl (hlive k n hl)
  · exact .inr hlandable

theorem Kept.othersDelete (h : Kept w) (key : ResourceKey) : Kept (w.othersDelete key) :=
  h.shrink_old (gone_shrinks h key w.deletes) rfl fun call hcall hfinished =>
    ⟨call, hcall, hfinished, rfl⟩

/-- A delete with a remembered token leaves nothing pending at its ID. -/
theorem Kept.deleteLands (h : Kept w) (i : ℕ) : Kept (w.deleteLands i) := by
  unfold World.deleteLands
  rcases hcall : w.deletes[i]? with _ | call
  · exact h
  dsimp only
  rcases hcore : w.core call.key with _ | stored
  · exact h
  dsimp only
  split_ifs with hlands
  swap
  · exact h
  obtain ⟨hsent, htoken⟩ := hlands
  have hs := gone_shrinks h call.key
    (w.deletes.modify i fun call => { call with request := .done })
  refine h.shrink hs rfl fun run hr hgoes c hc hfinished => ?_
  have hr' := h.remembers run hr hgoes
  obtain ⟨y, hy, rfl | ⟨hget, rfl⟩⟩ := mem_modify hc
  · exact hr'.over_of hs ⟨_, hy, hfinished, rfl⟩
  · rw [hcall] at hget
    cases hget
    obtain ⟨-, -, n, -, hn⟩ := hfinished
    dsimp only at hn ⊢
    rw [hn] at htoken
    have hlive : w.Live call.key n := by
      rcases htoken with hnot | rfl
      · cases hnot
      · exact hcore
    have hused := h.used _ _ hlive
    refine ⟨fun m hm => ?_, fun m hp => ?_⟩
    · rcases hr'.same _ _ _ (.inl hlive) hm with hm | rfl
      · exact hm
      · exact hused
    · obtain rfl := hr'.one _ _ _ (.inl hlive) (hs.pending _ _ hp)
      rcases hp with hl | ⟨hunused, -⟩
      · simp [World.Live, World.setCore] at hl
      · exact hunused hused

theorem Kept.othersCreate (h : Kept w) (key : ResourceKey) (token : Option String) :
    Kept (w.othersCreate key token) := by
  unfold World.othersCreate
  split_ifs
  swap
  · exact h
  have hlive : ∀ k n, World.Live { w.setCore key (some (token.map .other)) with
      used := (token.map .other).toList ++ w.used } k n → w.Live k n := by
    intro k n hl
    unfold World.Live World.setCore at hl
    by_cases hkey : k = key
    · subst hkey
      rcases token with _ | text
      · simp at hl
      · simp at hl
    · simp [hkey] at hl
      exact hl
  refine h.shrink_old ⟨rfl, fun t ht => List.mem_append_right _ ht, fun k n hl => ?_,
    fun call hcall hdone => List.mem_append_right _ (h.landed call hcall hdone), fun k n hp => ?_,
    fun call hcall hsent => ⟨call, hcall, hsent⟩⟩ rfl fun call hcall hfinished =>
      ⟨call, hcall, hfinished, rfl⟩
  · exact List.mem_append_right _ (h.used k n (hlive k n hl))
  · rcases hp with hl | ⟨hunused, hcall⟩
    · exact .inl (hlive k n hl)
    · exact .inr ⟨fun hu => hunused (List.mem_append_right _ hu), hcall⟩

end Requests

section Recording

variable {w w' : World} {run : RunRecord} {t : Tracked} {kept : List CleanupResource}
  {key : ResourceKey} {outcome : WriteOutcome} {token : ℕ}

theorem Saves.listed {ledger' : Ledger} {n : ℕ} (h : Saves w.ledger ledger' kept)
    (hw : w'.ledger = ledger') (hmem : ⟨key, n⟩ ∈ kept) (hlisted : w.Listed key n) :
    w'.Listed key n := by
  rcases h with hsame | ⟨saved, hsaved, hkept, -⟩
  · obtain ⟨saved, hsaved, hmem⟩ := hlisted
    exact ⟨saved, (hw.trans hsame).trans hsaved, hmem⟩
  · exact ⟨saved, hw.trans hsaved, hkept _ hmem⟩

/-- The tokens are no matter to the record and to its cleanup. -/
theorem RunOk.tokens (h : RunOk w run) (tokens : OrderedMap ResourceKey ℕ) :
    RunOk w { run with instanceTokens := tokens } :=
  ⟨h.recorded, h.bound, h.settled, h.started, h.cleaning, h.cleaned⟩

theorem RunOk.frame (h : RunOk w run) (ledger : Ledger) (r : Option RunRecord) :
    RunOk { w with ledger := ledger, run := r } run :=
  ⟨h.recorded, h.bound, h.settled, h.started, h.cleaning, h.cleaned⟩

/-- A run that is over has nothing to remember. -/
theorem Kept.ended (h : Kept w) (hok : RunOk w run) (haborted : run.aborted = true) :
    Kept { w with run := some run } where
  used := h.used
  landed := h.landed
  listed := h.listed
  bound := h.bound
  run r hr := by
    obtain rfl := Option.some.inj hr
    exact hok.frame _ _
  remembers r hr hgoes := by
    obtain rfl := Option.some.inj hr
    simp [haborted] at hgoes

/-- A run that is over is removed from the ledger when nothing is pending. -/
theorem Kept.removed (h : Kept w) (hok : RunOk w run) (haborted : run.aborted = true)
    (hnone : ∀ key n, ¬ w.Pending key n) : Kept { w with ledger := none, run := some run } where
  used := h.used
  landed := h.landed
  listed key n hp := absurd hp (hnone key n)
  bound _ hsaved := by cases hsaved
  run r hr := by
    obtain rfl := Option.some.inj hr
    exact hok.frame _ _
  remembers r hr hgoes := by
    obtain rfl := Option.some.inj hr
    simp [haborted] at hgoes

theorem Remembers.set_used (h : Remembers w run) (hused : .generated token ∈ w.used) :
    Remembers w { run with instanceTokens := run.instanceTokens.set key token } := by
  refine ⟨fun k n hget => ?_, fun k n hp => ?_, fun k n m hp hget => ?_, h.one,
    fun call hcall hfinished => ⟨fun n hget => ?_, (h.finished call hcall hfinished).2⟩⟩
  · rw [OrderedMap.get_set] at hget
    split_ifs at hget
    · obtain rfl := Option.some.inj hget
      exact .inl hused
    · exact h.token k n hget
  · rw [OrderedMap.get_set]
    split_ifs
    · simp
    · exact h.known k n hp
  · rw [OrderedMap.get_set] at hget
    split_ifs at hget
    · obtain rfl := Option.some.inj hget
      exact .inl hused
    · exact h.same k n m hp hget
  · rw [OrderedMap.get_set] at hget
    split_ifs at hget
    · obtain rfl := Option.some.inj hget
      exact hused
    · exact (h.finished call hcall hfinished).1 n hget

/-- The token of an ID is forgotten while nothing is pending there. -/
theorem Remembers.forget (h : Remembers w run) (hnone : ∀ n, ¬ w.Pending key n) :
    Remembers w { run with instanceTokens := run.instanceTokens.delete key } := by
  have hget : ∀ k n, (run.instanceTokens.delete key).get k = some n →
      k ≠ key ∧ run.instanceTokens.get k = some n := by
    intro k n hget
    rw [OrderedMap.get_delete] at hget
    split_ifs at hget with hk
    exact ⟨hk, hget⟩
  refine ⟨fun k n hn => h.token k n (hget k n hn).2, fun k n hp => ?_,
    fun k n m hp hm => h.same k n m hp (hget k m hm).2, h.one, fun call hcall hfinished =>
      ⟨fun n hn => (h.finished call hcall hfinished).1 n (hget _ n hn).2,
        (h.finished call hcall hfinished).2⟩⟩
  rw [OrderedMap.get_delete]
  split_ifs with hk
  · exact absurd hp (hk ▸ hnone n)
  · exact h.known k n hp

/-- A record that is still changed has no cleanup. -/
theorem RunOk.retrack (h : RunOk w run) (hopen : run.closed = false) {ledger : Ledger}
    (ht : t.Keeps run ledger kept)
    (hrecorded : ∀ key n, w'.Pending key n → ⟨key, n⟩ ∈ t.run.cleanupResourcesForRun) :
    RunOk w' t.run := by
  simp only [RunRecord.closed, Bool.or_eq_false_iff] at hopen
  obtain ⟨⟨-, hstarted⟩, hcleaned⟩ := hopen
  obtain ⟨resources, overflow, hframe⟩ := ht.frame
  refine ⟨hrecorded, ht.bound, ?_, ?_, ?_, ?_⟩
  · rw [hframe]
    exact h.settled
  · rw [hframe]
    intro hnot
    simp [hstarted] at hnot
  · rw [hframe]
    intro rest hrest
    have hnot := (h.cleaning rest hrest).1
    simp [hstarted] at hnot
  · rw [hframe]
    intro hnot
    simp [hcleaned] at hnot

/-- The record and the ledger change, and keep what is pending and what is remembered. -/
theorem Kept.retrack (h : Kept w) (hok : RunOk w run) (hr : Remembers w run)
    (hopen : run.closed = false) (ht : t.Keeps run w.ledger kept)
    (hpending : ∀ key n, w.Pending key n → ⟨key, n⟩ ∈ kept)
    (htoken : ∀ key n, run.instanceTokens.get key = some n →
      .generated n ∈ w.used ∨ ⟨key, n⟩ ∈ kept) :
    Kept { w with ledger := t.ledger, run := some t.run } where
  used := h.used
  landed := h.landed
  listed key n hp := ht.saves.listed rfl (hpending key n hp) (h.listed key n hp)
  bound saved hsaved := by
    rcases ht.saves with hsame | ⟨saved', hsaved', -, hlength⟩
    · exact h.bound saved (hsame.symm.trans hsaved)
    · obtain rfl : saved' = saved := Option.some.inj (hsaved'.symm.trans hsaved)
      exact hlength
  run r hr' := by
    obtain rfl : t.run = r := Option.some.inj hr'
    exact hok.retrack hopen ht fun key n hp => ht.resources _ (hpending key n hp)
  remembers r hr' _ := by
    obtain rfl : t.run = r := Option.some.inj hr'
    obtain ⟨resources, overflow, hframe⟩ := ht.frame
    have hsame : t.run.instanceTokens = run.instanceTokens := by rw [hframe]
    refine ⟨fun key n hget => ?_, fun key n hp => ?_, fun key n m hp hget => ?_, hr.one,
      fun call hcall hfinished => ?_⟩
    · rw [hsame] at hget
      rcases hr.token key n hget with hused | ⟨-, hlisted⟩
      · exact .inl hused
      · refine (htoken key n hget).imp_right fun hkept => ⟨ht.resources _ hkept, ?_⟩
        exact ht.saves.listed rfl hkept hlisted
    · rw [hsame]
      exact hr.known key n hp
    · rw [hsame] at hget
      exact hr.same key n m hp hget
    · rw [hsame]
      exact hr.finished call hcall hfinished

theorem Kept.of_generated (h : Kept w) (generated : ℕ) :
    Kept { w with generated := generated } :=
  h.shrink_old ⟨rfl, fun _ ht => ht, h.used, h.landed, fun _ _ hp => hp, fun call hcall hsent =>
    ⟨call, hcall, hsent⟩⟩ rfl fun call hcall hfinished => ⟨call, hcall, hfinished, rfl⟩

/-- A create is sent, with a token that is used or tracked. -/
theorem Kept.send (h : Kept w) (hrun : w.run = some run) (hgoes : run.aborted = false)
    (htoken : .generated token ∈ w.used ∨
      ⟨key, token⟩ ∈ run.cleanupResourcesForRun ∧ w.Listed key token)
    (hsame : ∀ n, w.Pending key n → .generated token ∈ w.used ∨ token = n)
    (hover : ∀ call ∈ w.deletes, call.Finished → call.key = key → .generated token ∈ w.used) :
    Kept { w with
      run := some { run with instanceTokens := run.instanceTokens.set key token }
      creates := w.creates ++ [⟨key, token, .sent, true⟩] } := by
  have hok := h.run run hrun
  have hr := h.remembers run hrun hgoes
  have hpending : ∀ k n, World.Pending { w with
      run := some { run with instanceTokens := run.instanceTokens.set key token }
      creates := w.creates ++ [⟨key, token, .sent, true⟩] } k n →
      w.Pending k n ∨ k = key ∧ n = token ∧ .generated token ∉ w.used := by
    rintro k n (hl | ⟨hunused, call, hcall, hkey, hn, hsent⟩)
    · exact .inl (.inl hl)
    · rcases List.mem_append.1 hcall with hcall | hnew
      · exact .inl (.inr ⟨hunused, call, hcall, hkey, hn, hsent⟩)
      · rw [List.mem_singleton.1 hnew] at hkey hn
        subst hkey hn
        exact .inr ⟨rfl, rfl, hunused⟩
  refine ⟨h.used, fun call hcall hdone => ?_, fun k n hp => ?_, h.bound, fun r hr' => ?_,
    fun r hr' _ => ?_⟩
  · rcases List.mem_append.1 hcall with hcall | hnew
    · exact h.landed call hcall hdone
    · rw [List.mem_singleton.1 hnew] at hdone
      cases hdone
  · rcases hpending k n hp with hp | ⟨rfl, rfl, hunused⟩
    · exact h.listed k n hp
    · exact (htoken.resolve_left hunused).2
  · obtain rfl := Option.some.inj hr'
    have hkeeps : Tracked.Keeps ⟨run, w.ledger, true⟩ run w.ledger run.cleanupResourcesForRun :=
      ⟨⟨_, _, rfl⟩, fun _ hm => hm, .inl rfl, hok.bound⟩
    refine RunOk.tokens (hok.retrack (hok.closed hgoes) hkeeps fun k n hp => ?_) _
    rcases hpending k n hp with hp | ⟨rfl, rfl, hunused⟩
    · exact hok.recorded k n hp
    · exact (htoken.resolve_left hunused).1
  · obtain rfl := Option.some.inj hr'
    refine ⟨fun k n hget => ?_, fun k n hp => ?_, fun k n m hp hget => ?_, fun k n m hp hq => ?_,
      fun call hcall hfinished => ?_⟩
    · rw [OrderedMap.get_set] at hget
      split_ifs at hget with hk
      · obtain rfl := Option.some.inj hget
        subst hk
        exact htoken
      · exact hr.token k n hget
    · rw [OrderedMap.get_set]
      split_ifs with hk
      · simp
      · rcases hpending k n hp with hp | ⟨rfl, -⟩
        · exact hr.known k n hp
        · exact absurd rfl hk
    · rw [OrderedMap.get_set] at hget
      split_ifs at hget with hk
      · obtain rfl := Option.some.inj hget
        subst hk
        rcases hpending k n hp with hp | ⟨-, rfl, -⟩
        · exact hsame n hp
        · exact .inr rfl
      · rcases hpending k n hp with hp | ⟨rfl, -⟩
        · exact hr.same k n m hp hget
        · exact absurd rfl hk
    · rcases hpending k n hp with hold | ⟨rfl, rfl, hunused⟩
      · rcases hpending k m hq with hold' | ⟨rfl, rfl, hunused⟩
        · exact hr.one k n m hold hold'
        · exact ((hsame n hold).resolve_left hunused).symm
      · rcases hpending k m hq with hold | ⟨-, rfl, -⟩
        · exact (hsame m hold).resolve_left hunused
        · rfl
    · obtain ⟨hused, hnone⟩ := hr.finished call hcall hfinished
      refine ⟨fun n hget => ?_, fun n hp => ?_⟩
      · rw [OrderedMap.get_set] at hget
        split_ifs at hget with hk
        · obtain rfl := Option.some.inj hget
          exact hover call hcall hfinished hk
        · exact hused n hget
      · rcases hpending _ n hp with hp | ⟨hk, -, hunused⟩
        · exact hnone n hp
        · exact hunused (hover call hcall hfinished hk)

end Recording

section Steps

variable {w : World} {run : RunRecord} {key : ResourceKey} {outcome : WriteOutcome}

/-- A create of an ID for which no token is remembered finds nothing of the ID tracked, nor a delete
of it to go on. -/
theorem Kept.create (h : Kept w)
    (hnew : ∀ run, w.run = some run → run.aborted = false → run.instanceTokens.get key = none →
      run.tracks key = false ∧ ∀ call ∈ w.deletes, call.Finished → call.key ≠ key) :
    Kept (w.create key outcome) := by
  unfold World.create
  rcases hrun : w.run with _ | run
  · exact h
  dsimp only
  by_cases haborted : run.aborted = true
  · rw [if_pos haborted]
    exact h
  rw [if_neg haborted]
  have hgoes : run.aborted = false := by simpa using haborted
  have hok := h.run run hrun
  have hr := h.remembers run hrun hgoes
  have hopen := hok.closed hgoes
  have ht : (run.trackCleanupCandidate ⟨key, run.tokenFor key w.generated⟩ outcome w.ledger).Keeps
      run w.ledger run.cleanupResourcesForRun := track_keeps hok.bound
  have hkept := (h.retrack hok hr hopen ht hok.recorded fun k n hget =>
    (hr.token k n hget).imp_right And.left).of_generated
      (if run.instanceTokens.has key then w.generated else w.generated + 1)
  by_cases hreturned : (run.trackCleanupCandidate ⟨key, run.tokenFor key w.generated⟩ outcome
      w.ledger).returned = true
  swap
  · rw [if_neg hreturned]
    exact hkept
  rw [if_pos hreturned]
  obtain ⟨resources, overflow, hframe⟩ := ht.frame
  refine hkept.send rfl ?_ ?_ (fun n hp => ?_) fun call hcall hfinished hkey => ?_
  · rw [hframe]
    exact hgoes
  · rcases hget : run.instanceTokens.get key with _ | m
    · obtain ⟨hmem, saved, hsaved, hlisted⟩ :=
        track_listed hopen (hnew run hrun hgoes hget).1 hreturned
      exact .inr ⟨hmem, saved, hsaved, hlisted⟩
    · have hm : run.tokenFor key w.generated = m := by simp [RunRecord.tokenFor, hget]
      rw [hm]
      rw [hm] at ht
      exact (hr.token key m hget).imp_right fun ⟨hmem, hlisted⟩ =>
        ⟨ht.resources _ hmem, ht.saves.listed rfl hmem hlisted⟩
  · rcases hget : run.instanceTokens.get key with _ | m
    · exact absurd hget (hr.known key n hp)
    · rw [show run.tokenFor key w.generated = m by simp [RunRecord.tokenFor, hget]]
      exact hr.same key n m hp hget
  · rcases hget : run.instanceTokens.get key with _ | m
    · exact absurd hkey ((hnew run hrun hgoes hget).2 call hcall hfinished)
    · rw [show run.tokenFor key w.generated = m by simp [RunRecord.tokenFor, hget]]
      exact (hr.finished call hcall hfinished).1 m (hkey ▸ hget)

/-- A token that was used is remembered for its ID. -/
theorem Kept.track (h : Kept w) {token : ℕ} (hused : .generated token ∈ w.used) :
    Kept (w.track key token outcome) := by
  unfold World.track
  rcases hrun : w.run with _ | run
  · exact h
  dsimp only
  have hok := (h.run run hrun).tokens (run.instanceTokens.set key token)
  by_cases haborted : run.aborted = true
  · rw [track_closed (by simp [RunRecord.closed, haborted])]
    exact h.ended hok haborted
  · have hgoes : run.aborted = false := by simpa using haborted
    have hr : Remembers w { run with instanceTokens := run.instanceTokens.set key token } :=
      (h.remembers run hrun hgoes).set_used hused
    refine h.retrack hok hr (hok.closed hgoes) (track_keeps hok.bound) hok.recorded
      fun k n hget => ?_
    exact (hr.token k n hget).imp_right And.left

/-- The token of an ID is forgotten, and its entry goes, while nothing is pending there. -/
theorem Kept.untrack (h : Kept w) (hrun : w.run = some run)
    (hnone : run.aborted = false → ∀ n, ¬ w.Pending key n) :
    Kept { w with
      ledger := (RunRecord.untrackCleanupCandidate
        { run with instanceTokens := run.instanceTokens.delete key } key outcome w.ledger).ledger
      run := some (RunRecord.untrackCleanupCandidate
        { run with instanceTokens := run.instanceTokens.delete key } key outcome
        w.ledger).run } := by
  have hok := (h.run run hrun).tokens (run.instanceTokens.delete key)
  by_cases haborted : run.aborted = true
  · rw [untrack_closed (by simp [RunRecord.closed, haborted])]
    exact h.ended hok haborted
  · have hgoes : run.aborted = false := by simpa using haborted
    have hr := (h.remembers run hrun hgoes).forget (hnone hgoes)
    refine h.retrack hok hr (hok.closed hgoes) (untrack_keeps hok.bound) (fun k n hp => ?_)
      fun k n hget => ?_
    · refine List.mem_filter.2 ⟨hok.recorded k n hp, ?_⟩
      have hk : k ≠ key := fun hk => hnone hgoes n (hk ▸ hp)
      simpa using hk
    · refine (hr.token k n hget).imp_right fun hkept => List.mem_filter.2 ⟨hkept.1, ?_⟩
      rw [OrderedMap.get_delete] at hget
      split_ifs at hget with hk
      simpa using hk

theorem Kept.createReturns (h : Kept w) (i : ℕ) (answered : Bool) (outcome : WriteOutcome) :
    Kept (w.createReturns i answered outcome) := by
  unfold World.createReturns
  rcases hcall : w.creates[i]? with _ | call
  · exact h
  dsimp only
  by_cases hwaiting : call.waiting = true
  swap
  · rw [if_neg hwaiting]
    exact h
  rw [if_pos hwaiting]
  have hkept : Kept { w with creates := w.creates.modify i fun call =>
      { call with waiting := false } } := by
    refine h.shrink_old (.of_creates h w.run _ w.deletes fun c hc _ => ?_) rfl fun c hc hfinished =>
      ⟨c, hc, hfinished, rfl⟩
    obtain ⟨y, hy, rfl | ⟨-, rfl⟩⟩ := mem_modify hc
    · exact ⟨_, hy, rfl, rfl, rfl⟩
    · exact ⟨y, hy, rfl, rfl, rfl⟩
  split_ifs with hanswer
  · exact hkept.track (h.landed call (List.mem_of_getElem? hcall) hanswer.2)
  · exact hkept

/-- A delete with another token than the recorded one finds nothing pending at its ID. -/
theorem Kept.deleteReturns (h : Kept w) (i : ℕ) (answered : Bool) (outcome : WriteOutcome)
    (hother : ∀ call, w.deletes[i]? = some call → call.waiting = true → call.request = .done →
      call.recorded ≠ none → ¬ call.Finished → ∀ n, ¬ w.Pending call.key n) :
    Kept (w.deleteReturns i answered outcome) := by
  unfold World.deleteReturns
  rcases hcall : w.deletes[i]? with _ | call
  · exact h
  dsimp only
  by_cases hwaiting : call.waiting = true
  swap
  · rw [if_neg hwaiting]
    exact h
  rw [if_pos hwaiting]
  have hkept : Kept { w with deletes := w.deletes.modify i fun call =>
      { call with waiting := false } } := by
    refine h.of_deletes _ fun c hc hfinished => ?_
    obtain ⟨y, hy, rfl | ⟨-, rfl⟩⟩ := mem_modify hc
    · exact ⟨_, hy, hfinished, rfl⟩
    · cases hfinished.1
  rcases hrun : w.run with _ | run
  · rwa [hrun] at hkept
  dsimp only
  split_ifs with hanswer
  · obtain ⟨-, hdone, hrecorded⟩ := hanswer
    refine hkept.untrack hrun fun hgoes n hp => ?_
    by_cases hfinished : call.Finished
    · have hr := h.remembers run hrun hgoes
      exact (hr.finished call (List.mem_of_getElem? hcall) hfinished).2 n hp
    · exact hother call hcall hwaiting hdone hrecorded hfinished n hp
  · rwa [hrun] at hkept

theorem RunOk.abort (h : RunOk w run) (settled : Bool) :
    RunOk w { run with aborted := true, settled := settled } :=
  ⟨h.recorded, h.bound, fun _ => rfl, fun hstarted => ⟨rfl, (h.started hstarted).2⟩, h.cleaning,
    h.cleaned⟩

theorem Kept.stop (h : Kept w) : Kept w.stop := by
  rcases hrun : w.run with _ | run
  · rw [World.stop, hrun, Option.map_none, ← hrun]
    exact h
  · rw [World.stop, hrun, Option.map_some]
    exact h.ended ((h.run run hrun).abort run.settled) rfl

theorem Kept.settle (h : Kept w) : Kept w.settle := by
  rcases hrun : w.run with _ | run
  · rw [World.settle, hrun, Option.map_none, ← hrun]
    exact h
  · rw [World.settle, hrun, Option.map_some]
    exact h.ended ((h.run run hrun).abort true) rfl

theorem mem_cleanupOrder {resources : List CleanupResource} {r : CleanupResource} :
    r ∈ cleanupOrder resources ↔ r ∈ resources := by
  unfold cleanupOrder
  rw [List.mem_mergeSort, List.mem_reverse]

/-- No create is under way when the cleanup starts. -/
theorem Kept.cleanupStarts (h : Kept w) (factory : Bool)
    (hquiet : ∀ call ∈ w.creates, call.request ≠ .sent) : Kept (w.cleanupStarts factory) := by
  unfold World.cleanupStarts
  rcases hrun : w.run with _ | run
  · exact h
  dsimp only
  by_cases hrefused : run.cleaned = true ∨ run.settled = false ∨ run.cleanup ≠ none
  · rw [if_pos hrefused]
    exact h
  rw [if_neg hrefused]
  simp only [not_or, Bool.not_eq_true, Bool.not_eq_false] at hrefused
  obtain ⟨hcleaned, hsettled, -⟩ := hrefused
  have hok := h.run run hrun
  refine h.ended ⟨hok.recorded, hok.bound, hok.settled, fun _ => ⟨hok.settled hsettled, hquiet⟩,
    fun rest hrest => ⟨rfl, fun r hr => .inl ?_⟩, fun hnot => ?_⟩ (hok.settled hsettled)
  · dsimp only at hrest
    split_ifs at hrest
    obtain rfl := Option.some.inj hrest
    exact mem_cleanupOrder.2 hr
  · simp [hcleaned] at hnot

/-- The resource is not live after its delete. -/
theorem deleteOwned_shrinks (h : Kept w) (resource : CleanupResource) :
    Shrinks w (w.deleteOwned resource) ∧
      ¬ (w.deleteOwned resource).Live resource.key resource.instanceToken := by
  unfold World.deleteOwned
  split_ifs with hlive
  · exact ⟨gone_shrinks h resource.key w.deletes, by simp [World.Live, World.setCore]⟩
  · exact ⟨.refl h, hlive⟩

theorem Kept.deleteOwned (h : Kept w) (resource : CleanupResource) :
    Kept (w.deleteOwned resource) := by
  unfold World.deleteOwned
  split_ifs
  · exact h.othersDelete resource.key
  · exact h

theorem Kept.cleanupDeletes (h : Kept w) (outcome : World.CleanupOutcome) :
    Kept (w.cleanupDeletes outcome) := by
  unfold World.cleanupDeletes
  rcases hrun : w.run with _ | run
  · exact h
  dsimp only
  rcases hcleanup : run.cleanup with _ | _ | ⟨resource, rest⟩
  · exact h
  · exact h
  have hok := h.run run hrun
  obtain ⟨hstarted, hrest⟩ := hok.cleaning _ hcleanup
  have haborted := (hok.started hstarted).1
  rcases outcome with _ | took
  · obtain ⟨hs, hgone⟩ := deleteOwned_shrinks h resource
    have hok' := hok.shrink hs
    refine (h.deleteOwned resource).ended ⟨hok'.recorded, hok'.bound, hok'.settled, hok'.started,
      fun rest' hrest' => ⟨hstarted, fun r hr => ?_⟩, hok'.cleaned⟩ haborted
    obtain rfl := Option.some.inj hrest'
    rcases (hok'.cleaning _ hcleanup).2 r hr with hmem | hdead
    · rcases List.mem_cons.1 hmem with rfl | hmem
      · exact .inr hgone
      · exact .inl hmem
    · exact .inr hdead
  · have hkept : Kept (if took then w.deleteOwned resource else w) ∧
        Shrinks w (if took then w.deleteOwned resource else w) := by
      split_ifs
      · exact ⟨h.deleteOwned resource, (deleteOwned_shrinks h resource).1⟩
      · exact ⟨h, .refl h⟩
    have hok' := hok.shrink hkept.2
    exact hkept.1.ended ⟨hok'.recorded, hok'.bound, hok'.settled, hok'.started,
      fun _ hnot => (by cases hnot), hok'.cleaned⟩ haborted

/-- When there is nothing left to delete, nothing is live. -/
theorem Kept.cleanupFinishes (h : Kept w) (stopped : Bool) (outcome : WriteOutcome) :
    Kept (w.cleanupFinishes stopped outcome) := by
  unfold World.cleanupFinishes
  rcases hrun : w.run with _ | run
  · exact h
  dsimp only
  rcases hcleanup : run.cleanup with _ | _ | ⟨resource, rest⟩
  · exact h
  swap
  · exact h
  have hok := h.run run hrun
  obtain ⟨hstarted, hrest⟩ := hok.cleaning _ hcleanup
  have haborted := (hok.started hstarted).1
  have hnone : ∀ key n, ¬ w.Pending key n := by
    rintro key n hp
    rcases hrest _ (hok.recorded key n hp) with hmem | hdead
    · cases hmem
    · exact hp.elim hdead (hok.no_landable hstarted key n)
  have hok' : RunOk w { run with cleanup := none, cleaned := outcome = .done } :=
    ⟨hok.recorded, hok.bound, hok.settled, hok.started, fun _ hnot => (by cases hnot),
      fun _ => ⟨hstarted, fun key n hl => hnone key n (.inl hl)⟩⟩
  by_cases hstopped : stopped = true
  swap
  · dsimp only
    rw [if_neg hstopped]
    exact h.ended ⟨hok.recorded, hok.bound, hok.settled, hok.started,
      fun _ hnot => (by cases hnot), hok.cleaned⟩ haborted
  · dsimp only
    rw [if_pos hstopped]
    split_ifs
    · exact h.ended hok' haborted
    · exact h.removed hok' haborted hnone

theorem Kept.crash (h : Kept w) : Kept w.crash := by
  have hs : Shrinks w w.crash := by
    refine .of_creates h none _ _ fun call hcall _ => ?_
    obtain ⟨call', hcall', rfl⟩ := List.mem_map.1 hcall
    exact ⟨call', hcall', rfl, rfl, rfl⟩
  refine ⟨hs.live, hs.landed, fun key n hp => ?_, h.bound, fun run hr => ?_, fun run hr => ?_⟩
  · obtain ⟨saved, hsaved, hmem⟩ := h.listed key n (hs.pending key n hp)
    exact ⟨saved, hsaved, hmem⟩
  · cases hr
  · cases hr

theorem Kept.recover (h : Kept w) : Kept w.recover := by
  unfold World.recover
  rcases hrun : w.run with _ | run
  swap
  · exact h
  dsimp only
  rcases hledger : w.ledger with _ | saved
  · rw [Option.map_none, ← hrun, ← hledger]
    exact h
  · rw [Option.map_some, ← hledger]
    have hlength := h.bound saved hledger
    refine h.ended ⟨fun key n hp => ?_, ?_, fun _ => rfl, fun hnot => (by cases hnot),
      fun _ hnot => (by cases hnot), fun hnot => (by cases hnot)⟩ rfl
    · obtain ⟨saved', hsaved', hmem⟩ := h.listed key n hp
      obtain rfl := Option.some.inj (hledger.symm.trans hsaved')
      obtain ⟨i, hi⟩ := List.mem_iff_getElem?.1 hmem
      obtain ⟨hlt, -⟩ := List.getElem?_eq_some_iff.1 hi
      by_cases hlimit : i < maxCreatedResourcesPerRun
      · refine mem_resources.2 (.inl (List.mem_iff_getElem?.2 ⟨i, ?_⟩))
        rw [RunRecord.recoverRun, List.getElem?_take_of_lt hlimit]
        exact hi
      · obtain rfl : i = maxCreatedResourcesPerRun := by omega
        exact mem_resources.2 (.inr hi)
    · exact List.length_take_le _ _

end Steps

section Runs

/-- No create request is under way when a cleanup starts. -/
def SimulationStep.InOrder (w : World) : SimulationStep → Prop
  | .cleanupStarts _ => ∀ call ∈ w.creates, call.request ≠ .sent
  | _ => True

/-- A step in order that keeps clear of what the workbench forgets: no create of an ID for which no
token is remembered while an entry of it stays, or while a delete of it that took effect with the
remembered token is to go on, and no delete with another token going on while something is pending
at its ID. -/
def SimulationStep.Sparing (w : World) : SimulationStep → Prop
  | .create key _ => ∀ run, w.run = some run → run.aborted = false →
      run.instanceTokens.get key = none →
      run.tracks key = false ∧ ∀ call ∈ w.deletes, call.Finished → call.key ≠ key
  | .deleteReturns i _ _ => ∀ call, w.deletes[i]? = some call → call.waiting = true →
      call.request = .done → call.recorded ≠ none → ¬ call.Finished →
      ∀ n, ¬ w.Pending call.key n
  | step => step.InOrder w

/-- What a run comes to whose every step is `ok` where it is taken. -/
inductive SimulationReachable (ok : World → SimulationStep → Prop) : World → Prop
  | start (others : ResourceKey → Option (Option String)) (used : List String) :
      SimulationReachable ok (.start others used)
  | step {w : World} (h : SimulationReachable ok w) (step : SimulationStep) (hok : ok w step) :
      SimulationReachable ok (step.run w)

theorem Kept.start (others : ResourceKey → Option (Option String)) (used : List String) :
    Kept (.start others used) := by
  have hnone : ∀ key n, ¬ (World.start others used).Pending key n := by
    rintro key n (hl | ⟨-, call, hcall, -⟩)
    · unfold World.Live World.start at hl
      dsimp only at hl
      rcases hothers : others key with _ | _ | text
      · simp [hothers] at hl
      · simp [hothers] at hl
      · simp [hothers] at hl
    · cases hcall
  refine ⟨fun key n hl => absurd (.inl hl) (hnone key n), fun call hcall => (by cases hcall),
    fun key n hp => absurd hp (hnone key n), fun saved hsaved => ?_, fun run hr => ?_,
    fun run hr _ => ?_⟩
  · obtain rfl := Option.some.inj hsaved
    exact Nat.zero_le _
  · obtain rfl := Option.some.inj hr
    exact ⟨fun key n hp => absurd hp (hnone key n), Nat.zero_le _, fun hnot => (by cases hnot),
      fun hnot => (by cases hnot), fun _ hnot => (by cases hnot), fun hnot => (by cases hnot)⟩
  · obtain rfl := Option.some.inj hr
    exact ⟨fun key n hget => (by cases hget), fun key n hp => absurd hp (hnone key n),
      fun key n m hp => absurd hp (hnone key n), fun key n m hp => absurd hp (hnone key n),
      fun call hcall => (by cases hcall)⟩

theorem Kept.step {w : World} (h : Kept w) (step : SimulationStep) (hok : step.Sparing w) :
    Kept (step.run w) := by
  cases step with
  | create key outcome => exact h.create hok
  | createLands i => exact h.createLands i
  | createFails i => exact h.createFails i
  | createReturns i answered outcome => exact h.createReturns i answered outcome
  | delete key instanceToken => exact h.delete key instanceToken
  | deleteLands i => exact h.deleteLands i
  | deleteFails i => exact h.deleteFails i
  | deleteReturns i answered outcome => exact h.deleteReturns i answered outcome hok
  | stop => exact h.stop
  | settle => exact h.settle
  | cleanupStarts factory => exact h.cleanupStarts factory hok
  | cleanupDeletes outcome => exact h.cleanupDeletes outcome
  | cleanupFinishes stopped outcome => exact h.cleanupFinishes stopped outcome
  | crash => exact h.crash
  | recover => exact h.recover
  | othersCreate key token => exact h.othersCreate key token
  | othersDelete key => exact h.othersDelete key

theorem kept_of_reachable {w : World} (h : SimulationReachable SimulationStep.Sparing w) :
    Kept w := by
  induction h with
  | start others used => exact .start others used
  | step h step hok ih => exact ih.step step hok

end Runs

section Limit

/-- The IDs that a scenario goes through until the limit. -/
def candidate (i : ℕ) : ResourceKey := ⟨.entity, String.ofList (List.replicate (i + 1) 'a')⟩

/-- A run that has created as many resources, none of which Core has made yet. -/
structure Filled (w : World) (run : RunRecord) (n : ℕ) : Prop where
  current : w.run = some run
  core : ∀ key, w.core key = none
  used : w.used = []
  goes : run.closed = false
  tracked : run.cleanupResources.length = n
  overflow : run.overflowCleanupResource = none
  before : ∀ r ∈ run.cleanupResources, r.key.id.length ≤ n
  fresh : ∀ key, n < key.id.length → run.instanceTokens.get key = none

variable {w : World} {run : RunRecord} {n : ℕ}

theorem candidate_length : (candidate n).id.length = n + 1 := by simp [candidate]

theorem Filled.aborted (h : Filled w run n) : run.aborted = false := by
  have hgoes := h.goes
  simp only [RunRecord.closed, Bool.or_eq_false_iff] at hgoes
  exact hgoes.1.1

theorem Filled.tracks (h : Filled w run n) : run.tracks (candidate n) = false := by
  by_contra htracks
  obtain ⟨r, hr, hkey⟩ := tracks_iff.1 (by simpa using htracks)
  rcases mem_resources.1 hr with hr | hr
  · have hlength := h.before r hr
    rw [hkey, candidate_length] at hlength
    omega
  · simp [h.overflow] at hr

theorem Filled.tokenFor (h : Filled w run n) (fresh : ℕ) :
    run.tokenFor (candidate n) fresh = fresh := by
  have hget := h.fresh (candidate n) (by rw [candidate_length]; omega)
  rw [RunRecord.tokenFor, hget, Option.getD_none]

theorem Filled.create (h : Filled w run n) (hn : n < maxCreatedResourcesPerRun) :
    ∃ run', Filled (w.create (candidate n) .done) run' (n + 1) := by
  have hroom : ¬ maxCreatedResourcesPerRun ≤ run.cleanupResources.length := by
    rw [h.tracked]
    omega
  have htrack : run.trackCleanupCandidate ⟨candidate n, w.generated⟩ .done w.ledger =
      ⟨{ run with cleanupResources := run.cleanupResources ++ [⟨candidate n, w.generated⟩] },
        some ({ run with cleanupResources := run.cleanupResources ++
          [⟨candidate n, w.generated⟩] } : RunRecord).cleanupResourcesForRun, true⟩ := by
    unfold RunRecord.trackCleanupCandidate
    rw [h.goes, h.tracks, if_neg (by simp), if_neg hroom]
    rfl
  unfold World.create
  rw [h.current]
  dsimp only
  rw [h.tokenFor, htrack, if_neg (by simp [h.aborted]), if_pos rfl]
  refine ⟨_, rfl, h.core, h.used, h.goes, ?_, h.overflow, fun r hr => ?_, fun key hkey => ?_⟩
  · simp [h.tracked]
  · rcases List.mem_append.1 hr with hr | hr
    · have hlength := h.before r hr
      omega
    · rw [List.mem_singleton.1 hr, candidate_length]
  · have hother : key ≠ candidate n := by
      rintro rfl
      rw [candidate_length] at hkey
      omega
    dsimp only
    rw [OrderedMap.get_set_of_ne hother]
    exact h.fresh key (by omega)

theorem filled_reachable : ∀ n ≤ maxCreatedResourcesPerRun,
    ∃ w run, SimulationReachable SimulationStep.InOrder w ∧ Filled w run n
  | 0, _ => ⟨_, .new, .start (fun _ => none) [], rfl, fun _ => rfl, rfl, rfl, rfl, rfl,
      fun r hr => (by cases hr), fun _ _ => rfl⟩
  | n + 1, hn => by
    obtain ⟨w, run, hreach, hfilled⟩ := filled_reachable n (by omega)
    obtain ⟨run', hfilled'⟩ := hfilled.create hn
    exact ⟨_, run', hreach.step (.create (candidate n) .done) trivial, hfilled'⟩

/-- At the limit a create is refused, and leaves an entry with its token. -/
theorem Filled.refused (h : Filled w run maxCreatedResourcesPerRun) :
    w.create (candidate maxCreatedResourcesPerRun) .done =
      { w with
        ledger := some (run.cleanupResources ++
          [⟨candidate maxCreatedResourcesPerRun, w.generated⟩])
        run := some
          { run with
            overflowCleanupResource :=
              some ⟨candidate maxCreatedResourcesPerRun, w.generated⟩ }
        generated := w.generated + 1 } := by
  have hget := h.fresh (candidate maxCreatedResourcesPerRun) (by rw [candidate_length]; omega)
  have htrack : run.trackCleanupCandidate
      ⟨candidate maxCreatedResourcesPerRun, w.generated⟩ .done w.ledger =
      ⟨{ run with
          overflowCleanupResource := some ⟨candidate maxCreatedResourcesPerRun, w.generated⟩ },
        some (run.cleanupResources ++ [⟨candidate maxCreatedResourcesPerRun, w.generated⟩]),
        false⟩ := by
    unfold RunRecord.trackCleanupCandidate
    rw [h.goes, h.tracks, if_neg (by simp), if_pos h.tracked.ge, h.overflow]
    rfl
  unfold World.create
  rw [h.current]
  dsimp only
  rw [h.tokenFor, htrack, if_neg (by simp [h.aborted]), OrderedMap.has_eq_false_iff.2 hget]
  rfl

/-- The next create of that ID goes on, with another token. -/
theorem Filled.retried (h : Filled w run maxCreatedResourcesPerRun) :
    ∃ key n, (((w.create key .done).create key .done).createLands w.creates.length).Live key n ∧
      ¬ (((w.create key .done).create key .done).createLands w.creates.length).Listed key n := by
  refine ⟨candidate maxCreatedResourcesPerRun, w.generated + 1, ?_⟩
  set run' : RunRecord :=
    { run with
      overflowCleanupResource := some ⟨candidate maxCreatedResourcesPerRun, w.generated⟩ }
  have htracks : run'.tracks (candidate maxCreatedResourcesPerRun) = true :=
    tracks_iff.2 ⟨_, mem_resources.2 (.inr rfl), rfl⟩
  have htoken : run'.tokenFor (candidate maxCreatedResourcesPerRun) (w.generated + 1) =
      w.generated + 1 := h.tokenFor (w.generated + 1)
  have htrack : ∀ ledger, run'.trackCleanupCandidate
      ⟨candidate maxCreatedResourcesPerRun, w.generated + 1⟩ .done ledger =
      ⟨run', ledger, true⟩ := by
    intro ledger
    unfold RunRecord.trackCleanupCandidate
    rw [if_pos (by simp [htracks])]
  rw [h.refused]
  unfold World.create
  dsimp only
  rw [htoken, htrack, if_neg (by simp [h.aborted]), if_pos rfl]
  unfold World.createLands
  simp only [List.getElem?_concat_length]
  rw [if_pos ⟨trivial, h.core _, by simp [h.used]⟩]
  constructor
  · simp [World.Live, World.setCore]
  · rintro ⟨saved, hsaved, hmem⟩
    obtain rfl := Option.some.inj hsaved
    rcases List.mem_append.1 hmem with hmem | hmem
    · have hlength := h.before _ hmem
      rw [candidate_length] at hlength
      omega
    · simp at hmem

end Limit

end Atlas.Simulations
