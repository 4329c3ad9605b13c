import Atlas.Proofs.Joining
import Atlas.Proofs.Membership

/-!
# One admission for a join attempt

Every response that is honoured goes back to a discovery heard from the same node, and every
admission to such a response. As the completed record of an attempt keeps others from admitting its
Asset again, the attempt's admissions stay as they are while the record is kept.
-/

namespace Atlas.Link.Joining

open GatewayJoinService

variable {checks : TextChecks} {rendezvousChannel : ℕ} {s : GatewayJoinService} {id : ℕ}

section Tracing

/-- A discovery that has come from the radio node it names. -/
def Heard (s : GatewayJoinService) (beacon : DiscoveryBeacon) (source : ℕ) : Prop :=
  (beacon, source) ∈ s.heard ∧ beacon.radioNodeID = source

/-- What a handler goes on has been heard, or honoured. -/
def Origin (s : GatewayJoinService) : Operation → Prop
  | .challenging beacon source _ => Heard s beacon source
  | .proving beacon source _ _ => Heard s beacon source
  | .verifying join joinAttemptID source _ => (join, joinAttemptID, source) ∈ s.honoured
  | .admitting join joinAttemptID source _ _ => (join, joinAttemptID, source) ∈ s.honoured
  | .notifying join joinAttemptID source _ _ => (join, joinAttemptID, source) ∈ s.honoured
  | _ => True

/-- A join is pending for an attempt's discovery, from the node that has made it. -/
def Pends (s : GatewayJoinService) (join : PendingJoin) (joinAttemptID : String) : Prop :=
  join.beacon.joinAttemptID = joinAttemptID ∧ Heard s join.beacon join.radioNodeID

/-- Everything that is honoured or admitted goes back to a discovery. -/
structure Traced (s : GatewayJoinService) : Prop where
  pending : ∀ J join, s.pending.get J = some join → Pends s join J
  operations : ∀ operation ∈ s.operations, Origin s operation
  honoured : ∀ r ∈ s.honoured, r.1.radioNodeID = r.2.2 ∧ Pends s r.1 r.2.1
  admissions : ∀ a ∈ s.admissions, ∃ join source,
    (join, a.joinAttemptID, source) ∈ s.honoured ∧ join.beacon.assetID = a.assetID

variable {s' : GatewayJoinService}

/-- What is there already stays traced while more is heard and honoured. -/
theorem Traced.extend (h : Traced s) (hheard : s.heard ⊆ s'.heard)
    (hhonoured : s.honoured ⊆ s'.honoured)
    (hpending : ∀ J join, s'.pending.get J = some join →
      s.pending.get J = some join ∨ Pends s' join J)
    (hoperations : ∀ operation ∈ s'.operations, operation ∈ s.operations ∨ Origin s' operation)
    (hresponses : ∀ r ∈ s'.honoured,
      r ∈ s.honoured ∨ r.1.radioNodeID = r.2.2 ∧ Pends s' r.1 r.2.1)
    (hadmissions : ∀ a ∈ s'.admissions, a ∈ s.admissions ∨ ∃ join source,
      (join, a.joinAttemptID, source) ∈ s'.honoured ∧ join.beacon.assetID = a.assetID) :
    Traced s' := by
  have hpends : ∀ join J, Pends s join J → Pends s' join J := fun join J ⟨hattempt, hmem, hnode⟩ =>
    ⟨hattempt, hheard hmem, hnode⟩
  refine ⟨fun J join hget => ?_, fun operation hmem => ?_, fun r hr => ?_, fun a ha => ?_⟩
  · rcases hpending J join hget with hold | hnew
    · exact hpends _ _ (h.pending J join hold)
    · exact hnew
  · rcases hoperations operation hmem with hold | hnew
    · have horigin := h.operations operation hold
      cases operation with
      | challenging => exact ⟨hheard horigin.1, horigin.2⟩
      | proving => exact ⟨hheard horigin.1, horigin.2⟩
      | verifying => exact hhonoured horigin
      | admitting => exact hhonoured horigin
      | notifying => exact hhonoured horigin
      | sending => trivial
      | accepting => trivial
      | done => trivial
    · exact hnew
  · rcases hresponses r hr with hold | hnew
    · exact ⟨(h.honoured r hold).1, hpends _ _ (h.honoured r hold).2⟩
    · exact hnew
  · rcases hadmissions a ha with hold | hnew
    · obtain ⟨join, source, hmem, hasset⟩ := h.admissions a hold
      exact ⟨join, source, hhonoured hmem, hasset⟩
    · exact hnew

/-- Nothing is heard, honoured or admitted, and no join is pending that was not. -/
theorem Traced.keep (h : Traced s) (hheard : s'.heard = s.heard)
    (hhonoured : s'.honoured = s.honoured) (hadmissions : s'.admissions = s.admissions)
    (hpending : ∀ J join, s'.pending.get J = some join → s.pending.get J = some join)
    (hoperations : ∀ operation ∈ s'.operations, operation ∈ s.operations ∨ Origin s' operation) :
    Traced s' :=
  h.extend (fun _ hmem => hheard.symm ▸ hmem) (fun _ hmem => hhonoured.symm ▸ hmem)
    (fun J join hget => .inl (hpending J join hget)) hoperations
    (fun _ hr => .inl (hhonoured ▸ hr)) fun _ ha => .inl (hadmissions ▸ ha)

theorem Traced.start (h : Traced s) {operation : Operation} (horigin : Origin s operation) :
    Traced (s.start operation) := by
  refine h.keep rfl rfl rfl (fun _ _ hget => hget) fun operation' hmem => ?_
  rcases List.mem_append.1 hmem with hmem | hmem
  · exact .inl hmem
  · rw [List.mem_singleton.1 hmem]
    exact .inr horigin

theorem Traced.resume (h : Traced s) {operation : Operation} (horigin : Origin s operation) :
    Traced (s.resume id operation) := by
  refine h.keep rfl rfl rfl (fun _ _ hget => hget) fun operation' hmem => ?_
  rcases List.mem_or_eq_of_mem_set hmem with hmem | rfl
  · exact .inl hmem
  · exact .inr horigin

theorem Traced.send (h : Traced s) (message : JoinWireMessage) (destination : ℕ) :
    Traced (s.send message destination) := by
  unfold GatewayJoinService.send
  split_ifs
  · exact h
  · exact h.keep rfl rfl rfl (fun _ _ hget => hget) fun _ hmem => .inl hmem

theorem Traced.endChallenge (h : Traced s) (joinAttemptID : String) :
    Traced (s.endChallenge joinAttemptID id) := by
  refine Traced.resume ?_ trivial
  exact h.keep rfl rfl rfl (fun _ _ hget => hget) fun _ hmem => .inl hmem

theorem Traced.endResponse (h : Traced s) (joinAttemptID : String) :
    Traced (s.endResponse joinAttemptID id) := by
  refine Traced.resume ?_ trivial
  refine h.keep rfl rfl rfl (fun J join hget => ?_) fun _ hmem => .inl hmem
  have hget' : (s.pending.delete joinAttemptID).get J = some join := hget
  rw [OrderedMap.get_delete] at hget'
  split_ifs at hget'
  exact hget'

theorem Traced.prunePending (h : Traced s) (now : ℕ) : Traced (s.prunePending now) := by
  refine h.keep rfl rfl rfl (fun J join hget => ?_) fun _ hmem => .inl hmem
  unfold GatewayJoinService.prunePending at hget
  rw [OrderedMap.get_filter, Option.filter_eq_some_iff] at hget
  exact hget.1

theorem Traced.pruneCompleted (h : Traced s) (now : ℕ) : Traced (s.pruneCompleted now) := by
  unfold GatewayJoinService.pruneCompleted
  exact h.keep rfl rfl rfl (fun _ _ hget => hget) fun _ hmem => .inl hmem

theorem Traced.discover (h : Traced s) {beacon : DiscoveryBeacon} {source : ℕ}
    (hheard : Heard s beacon source) (receivedAt : ℕ) :
    Traced (s.discover beacon source receivedAt) := by
  unfold GatewayJoinService.discover
  split
  · split_ifs
    · exact (h.send _ _).start trivial
    · exact h
  · split
    · split_ifs
      · exact (h.send _ _).start trivial
      · exact h
    · split_ifs
      · exact h
      · exact h
      · refine Traced.start ?_ hheard
        exact h.keep rfl rfl rfl (fun _ _ hget => hget) fun _ hmem => .inl hmem

theorem Traced.respond (h : Traced s) (joinAttemptID : String) (source receivedAt : ℕ) :
    Traced (s.respond joinAttemptID source receivedAt) := by
  unfold GatewayJoinService.respond
  split
  · exact h
  · rename_i join hjoin
    split_ifs with hrefused
    · exact h
    · simp only [Bool.or_eq_true, not_or, Bool.not_eq_true, decide_eq_false_iff_not,
        not_not] at hrefused
      have hpends := h.pending joinAttemptID join hjoin
      refine Traced.start ?_ (List.mem_append_right _ (List.mem_singleton.2 rfl))
      refine h.extend (fun _ hmem => hmem) (fun _ hmem => List.mem_append_left _ hmem)
        (fun _ _ hget => .inl hget) (fun _ hmem => .inl hmem) (fun r hr => ?_)
        fun _ ha => .inl ha
      rcases List.mem_append.1 hr with hr | hr
      · exact .inl hr
      · rw [List.mem_singleton.1 hr]
        exact .inr ⟨hrefused.1, hpends⟩

theorem Traced.receive (h : Traced s) (packet : JoinPacket) :
    Traced (s.receive checks rendezvousChannel packet) := by
  unfold GatewayJoinService.receive
  split
  · exact h
  · have hpruned := h.prunePending packet.receivedAt
    split
    · simp only
      split_ifs with _ hnode
      · exact hpruned
      · exact hpruned.pruneCompleted _
      · refine Traced.discover ?_
          ⟨List.mem_append_right _ (List.mem_singleton.2 rfl), not_not.1 hnode⟩ _
        exact (hpruned.pruneCompleted packet.receivedAt).extend
          (fun _ hmem => List.mem_append_left _ hmem) (fun _ hmem => hmem)
          (fun _ _ hget => .inl hget) (fun _ hmem => .inl hmem) (fun _ hr => .inl hr)
          fun _ ha => .inl ha
    · simp only
      split_ifs
      · exact hpruned.respond _ _ _
      · exact hpruned
    · exact hpruned
    · exact h

theorem Traced.challenged (h : Traced s) (id : ℕ) (challenge : Option String) :
    Traced (s.challenged id challenge) := by
  unfold GatewayJoinService.challenged
  split
  · rename_i beacon source receivedAt hop
    have horigin := h.operations _ (List.mem_of_getElem? hop)
    split
    · split_ifs
      · exact h.endChallenge _
      · exact h.resume horigin
    · exact h.endChallenge _
  · exact h

theorem Traced.proved (h : Traced s) (id : ℕ) (proof : Option String) :
    Traced (s.proved id proof) := by
  unfold GatewayJoinService.proved
  split
  · rename_i beacon source receivedAt challenge hop
    have hheard : Heard s beacon source := h.operations _ (List.mem_of_getElem? hop)
    split
    · rename_i gatewayProof
      split_ifs
      · exact h.endChallenge _
      · refine Traced.resume (Traced.send ?_ _ _) trivial
        have hpended : Traced { s with
            pending := s.pending.set beacon.joinAttemptID
              ⟨beacon, challenge, gatewayProof, source, receivedAt + pendingJoinRetentionMs⟩ } := by
          refine h.extend (fun _ hmem => hmem) (fun _ hmem => hmem) (fun J join hget => ?_)
            (fun _ hmem => .inl hmem) (fun _ hr => .inl hr) fun _ ha => .inl ha
          rw [OrderedMap.get_set] at hget
          split_ifs at hget with hJ
          · rw [← Option.some.inj hget, hJ]
            exact .inr ⟨rfl, hheard⟩
          · exact .inl hget
        have hended : Traced ({ s with
            pending := s.pending.set beacon.joinAttemptID
              ⟨beacon, challenge, gatewayProof, source, receivedAt + pendingJoinRetentionMs⟩
            }.endChallenge beacon.joinAttemptID id) := hpended.endChallenge _
        refine hended.keep rfl rfl rfl (fun J join hget => ?_) fun _ hmem => .inl hmem
        unfold trimPending at hget
        exact OrderedMap.get_of_get_drop hget
    · exact h.endChallenge _
  · exact h

theorem Traced.verified (h : Traced s) (id : ℕ) (accepted : Option Bool) :
    Traced (s.verified checks id accepted) := by
  unfold GatewayJoinService.verified
  split
  · rename_i join J source receivedAt hop
    have horigin := h.operations _ (List.mem_of_getElem? hop)
    split_ifs
    · split
      · refine Traced.resume ?_ horigin
        exact h.keep rfl rfl rfl (fun _ _ hget => hget) fun _ hmem => .inl hmem
      · exact h.endResponse _
    · exact h.endResponse _
  · exact h

theorem Traced.admitted (h : Traced s) (id : ℕ) : Traced (s.admitted id) := by
  unfold GatewayJoinService.admitted
  split
  · rename_i join J source receivedAt mutation hop
    have hhonoured : (join, J, source) ∈ s.honoured := h.operations _ (List.mem_of_getElem? hop)
    split
    · rename_i m g _
      have hadmit : Traced { s with
          admissions := s.admissions ++ [⟨J, join.beacon.assetID, g⟩] } := by
        refine h.extend (fun _ hmem => hmem) (fun _ hmem => hmem) (fun _ _ hget => .inl hget)
          (fun _ hmem => .inl hmem) (fun _ hr => .inl hr) fun a ha => ?_
        rcases List.mem_append.1 ha with ha | ha
        · exact .inl ha
        · rw [List.mem_singleton.1 ha]
          exact .inr ⟨join, source, hhonoured, rfl⟩
      simp only
      split_ifs
      · exact hadmit.endResponse _
      · exact hadmit.resume hhonoured
    · exact h.endResponse _
    · exact h
  · exact h

theorem Traced.notified (h : Traced s) (id : ℕ) (told : Bool) : Traced (s.notified id told) := by
  unfold GatewayJoinService.notified
  split
  · split_ifs
    · refine Traced.resume (Traced.send (Traced.pruneCompleted ?_ _) _ _) trivial
      exact h.keep rfl rfl rfl (fun _ _ hget => hget) fun _ hmem => .inl hmem
    · exact h.endResponse _
  · exact h

theorem Traced.settledSend (h : Traced s) (id : ℕ) : Traced (s.settledSend id) := by
  unfold GatewayJoinService.settledSend
  split
  · exact h.resume trivial
  · exact h.endResponse _
  · exact h

theorem Traced.step (h : Traced s) (event : JoinEvent) :
    Traced (s.step checks rendezvousChannel event) := by
  cases event with
  | packet packet => exact h.receive packet
  | challenged id challenge => exact h.challenged id challenge
  | proved id proof => exact h.proved id proof
  | verified id accepted => exact h.verified id accepted
  | admitted id => exact h.admitted id
  | notified id told => exact h.notified id told
  | settledSend id => exact h.settledSend id
  | store event => exact h.keep rfl rfl rfl (fun _ _ hget => hget) fun _ hmem => .inl hmem
  | close => exact h.keep rfl rfl rfl nofun fun _ hmem => .inl hmem

theorem traced_of_reachable (h : JoinReachable checks rendezvousChannel s) : Traced s := by
  induction h with
  | new file => exact ⟨nofun, nofun, nofun, nofun⟩
  | step event _ ih => exact ih.step event

end Tracing

section Admitting

/-- What only an admission writes. -/
def ledger (s : GatewayJoinService) : List Admission × MembershipStore := (s.admissions, s.store)

@[simp] theorem ledger_start (operation : Operation) : ledger (s.start operation) = ledger s := rfl

@[simp] theorem ledger_resume (operation : Operation) :
    ledger (s.resume id operation) = ledger s := rfl

@[simp] theorem ledger_send (message : JoinWireMessage) (destination : ℕ) :
    ledger (s.send message destination) = ledger s := by
  unfold GatewayJoinService.send
  split_ifs <;> rfl

@[simp] theorem ledger_prunePending (now : ℕ) : ledger (s.prunePending now) = ledger s := rfl

@[simp] theorem ledger_pruneCompleted (now : ℕ) : ledger (s.pruneCompleted now) = ledger s := by
  unfold GatewayJoinService.pruneCompleted ledger
  simp only

@[simp] theorem ledger_trimPending : ledger s.trimPending = ledger s := by
  unfold trimPending ledger
  simp only

@[simp] theorem ledger_endChallenge (joinAttemptID : String) :
    ledger (s.endChallenge joinAttemptID id) = ledger s := rfl

theorem ledger_discover (beacon : DiscoveryBeacon) (source receivedAt : ℕ) :
    ledger (s.discover beacon source receivedAt) = ledger s := by
  unfold GatewayJoinService.discover
  split
  · split_ifs <;> simp
  · split
    · split_ifs <;> simp
    · split_ifs
      · rfl
      · rfl
      · rfl

theorem ledger_respond (joinAttemptID : String) (source receivedAt : ℕ) :
    ledger (s.respond joinAttemptID source receivedAt) = ledger s := by
  unfold GatewayJoinService.respond
  split
  · rfl
  · split_ifs <;> rfl

theorem ledger_receive (packet : JoinPacket) :
    ledger (s.receive checks rendezvousChannel packet) = ledger s := by
  unfold GatewayJoinService.receive
  split
  · rfl
  · split
    · simp only
      split_ifs
      · rfl
      · simp
      · rw [ledger_discover]
        show ledger ((s.prunePending packet.receivedAt).pruneCompleted packet.receivedAt) = _
        simp
    · simp only
      split_ifs
      · rw [ledger_respond, ledger_prunePending]
      · rfl
    · rfl
    · rfl

theorem ledger_challenged (challenge : Option String) :
    ledger (s.challenged id challenge) = ledger s := by
  unfold GatewayJoinService.challenged
  split
  · split
    · split_ifs <;> rfl
    · rfl
  · rfl

theorem ledger_proved (proof : Option String) : ledger (s.proved id proof) = ledger s := by
  unfold GatewayJoinService.proved
  split
  · split
    · split_ifs
      · rfl
      · simp only [ledger_resume, ledger_send, ledger_trimPending, ledger_endChallenge]
        rfl
    · rfl
  · rfl

theorem ledger_notified (told : Bool) : ledger (s.notified id told) = ledger s := by
  unfold GatewayJoinService.notified
  split
  · split_ifs
    · simp only [ledger_resume, ledger_send, ledger_pruneCompleted]
      rfl
    · rfl
  · rfl

theorem ledger_settledSend : ledger (s.settledSend id) = ledger s := by
  unfold GatewayJoinService.settledSend
  split <;> rfl

theorem admissions_verified (accepted : Option Bool) :
    (s.verified checks id accepted).admissions = s.admissions := by
  unfold GatewayJoinService.verified
  split
  · split_ifs
    · split <;> rfl
    · rfl
  · rfl

/-- The handler of an admission that has succeeded enters it. -/
theorem admitted_cases (s : GatewayJoinService) (id : ℕ) :
    (s.admitted id).store = s.store ∧ ((s.admitted id).admissions = s.admissions ∨
      ∃ (operation : Operation) (a : Admission), s.operations[id]? = some operation ∧
        Operation.admits operation = some a.joinAttemptID ∧
        (s.admitted id).admissions = s.admissions ++ [a]) := by
  unfold GatewayJoinService.admitted
  split
  · rename_i join J source receivedAt mutation hop
    split
    · rename_i m g _
      simp only
      split_ifs
      · exact ⟨rfl, .inr ⟨_, ⟨J, join.beacon.assetID, g⟩, hop, rfl, rfl⟩⟩
      · exact ⟨rfl, .inr ⟨_, ⟨J, join.beacon.assetID, g⟩, hop, rfl, rfl⟩⟩
    · exact ⟨rfl, .inl rfl⟩
    · exact ⟨rfl, .inl rfl⟩
  · exact ⟨rfl, .inl rfl⟩

/-- Only the handler of an admission adds to the admissions. -/
theorem admissions_step (event : JoinEvent) :
    (s.step checks rendezvousChannel event).admissions = s.admissions ∨
      ∃ (id : ℕ) (operation : Operation) (a : Admission), s.operations[id]? = some operation ∧
        Operation.admits operation = some a.joinAttemptID ∧
        (s.step checks rendezvousChannel event).admissions = s.admissions ++ [a] := by
  cases event with
  | packet packet => exact .inl (congrArg Prod.fst (ledger_receive packet))
  | challenged id challenge => exact .inl (congrArg Prod.fst (ledger_challenged challenge))
  | proved id proof => exact .inl (congrArg Prod.fst (ledger_proved proof))
  | verified id accepted => exact .inl (admissions_verified accepted)
  | admitted id => exact (admitted_cases s id).2.imp (fun heq => heq) fun hadds => ⟨id, hadds⟩
  | notified id told => exact .inl (congrArg Prod.fst (ledger_notified told))
  | settledSend id => exact .inl (congrArg Prod.fst ledger_settledSend)
  | store event => exact .inl rfl
  | close => exact .inl rfl

/-- While a completed record is kept, no handler is on the way to admit its Asset. -/
theorem settled_of_reachable (h : JoinReachable checks rendezvousChannel s) {J : String}
    (hrecord : s.completed.has J = true) :
    ∀ operation ∈ s.operations, Operation.admits operation ≠ some J := by
  intro operation hmem hadmits
  rcases kept_of_reachable h with hkept | hemptied
  · have hnone := (hkept.recorded J hrecord).1
    obtain ⟨id, hop⟩ := List.mem_iff_getElem?.1 hmem
    have hpos := countOf_pos hop hadmits
    omega
  · rw [OrderedMap.has_eq_false_iff.2 (OrderedMap.get_of_size_eq_zero hemptied.completed)]
      at hrecord
    cases hrecord

theorem admissionsOf_step (h : JoinReachable checks rendezvousChannel s) {J : String}
    (hrecord : s.completed.has J = true) (event : JoinEvent) :
    admissionsOf (s.step checks rendezvousChannel event) J = admissionsOf s J := by
  have hcases : (s.step checks rendezvousChannel event).admissions = s.admissions ∨
      ∃ (id : ℕ) (operation : Operation) (a : Admission), s.operations[id]? = some operation ∧
        Operation.admits operation = some a.joinAttemptID ∧
        (s.step checks rendezvousChannel event).admissions = s.admissions ++ [a] :=
    admissions_step event
  rcases hcases with heq | ⟨id, operation, a, hop, hadmits, heq⟩
  · unfold admissionsOf
    rw [heq]
  · have hne : a.joinAttemptID ≠ J := by
      rintro rfl
      exact settled_of_reachable h hrecord operation (List.mem_of_getElem? hop) hadmits
    unfold admissionsOf
    rw [heq, List.filter_append]
    simp [hne]

/-- What the service does on a list of events. -/
def run (checks : TextChecks) (rendezvousChannel : ℕ) (s : GatewayJoinService)
    (events : List JoinEvent) : GatewayJoinService :=
  events.foldl (GatewayJoinService.step checks rendezvousChannel) s

theorem reachable_run (h : JoinReachable checks rendezvousChannel s) (events : List JoinEvent) :
    JoinReachable checks rendezvousChannel (run checks rendezvousChannel s events) := by
  induction events generalizing s with
  | nil => exact h
  | cons event events ih => exact ih (h.step event)

/-- As long as a completed record is kept, its attempt's admissions stay as they are. -/
theorem admissionsOf_run (h : JoinReachable checks rendezvousChannel s) {J : String}
    {events : List JoinEvent}
    (hrecord : ∀ before, before <+: events →
      (run checks rendezvousChannel s before).completed.has J = true) :
    admissionsOf (run checks rendezvousChannel s events) J = admissionsOf s J := by
  induction events generalizing s with
  | nil => rfl
  | cons event events ih =>
    have hnow : s.completed.has J = true := hrecord [] List.nil_prefix
    have hlater := ih (h.step event) fun before hbefore =>
      hrecord (event :: before) (List.cons_prefix_cons.2 ⟨rfl, hbefore⟩)
    exact hlater.trans (admissionsOf_step h hnow event)

theorem counted_step (h : Membership.Counted s.store) (event : JoinEvent) :
    Membership.Counted (s.step checks rendezvousChannel event).store := by
  have hsame : ∀ {s' : GatewayJoinService}, ledger s' = ledger s →
      Membership.Counted s'.store := by
    intro s' heq
    rw [show s'.store = s.store from congrArg Prod.snd heq]
    exact h
  cases event with
  | packet packet => exact hsame (ledger_receive packet)
  | challenged id challenge => exact hsame (ledger_challenged challenge)
  | proved id proof => exact hsame (ledger_proved proof)
  | verified id accepted =>
    simp only [GatewayJoinService.step, GatewayJoinService.verified]
    split
    · rename_i join J source receivedAt hop
      split_ifs
      · have hadmit : Membership.Counted (s.store.admitAsset checks join.beacon.assetID).1 :=
          h.admitAsset join.beacon.assetID
        split
        · rename_i store mutation hstore
          rw [hstore] at hadmit
          exact hadmit
        · exact h
      · exact h
    · exact h
  | admitted id => exact (admitted_cases s id).1 ▸ h
  | notified id told => exact hsame (ledger_notified told)
  | settledSend id => exact hsame ledger_settledSend
  | store event => exact h.step event
  | close => exact h

theorem counted_of_reachable (h : JoinReachable checks rendezvousChannel s) :
    Membership.Counted s.store := by
  induction h with
  | new file => exact Membership.counted_new file
  | step event _ ih => exact counted_step ih event

/-- An attempt leads to the one admission of its completed record as long as that is kept; a
response is honoured from the node that has made the attempt's discovery; pending joins and
challenges are at most 256; and an Asset's generations returned go up, the file's not below. -/
theorem one_admission (h : JoinReachable checks rendezvousChannel s) :
    (∀ J record, s.completed.get J = some record →
      ((admissionsOf s J).getLast?.map fun a => (a.assetID, a.sourceGeneration)) =
        some (record.beacon.assetID, record.acceptance.sourceGeneration) ∧
      (∀ operation ∈ s.operations, Operation.admits operation ≠ some J) ∧
      ∀ events, (∀ before, before <+: events →
          (run checks rendezvousChannel s before).completed.has J = true) →
        admissionsOf (run checks rendezvousChannel s events) J = admissionsOf s J) ∧
    (∀ join J source, (join, J, source) ∈ s.honoured → join.radioNodeID = source ∧
      join.beacon.joinAttemptID = J ∧ join.beacon.radioNodeID = source ∧
      (join.beacon, source) ∈ s.heard) ∧
    (∀ a ∈ s.admissions, ∃ join source,
      (join, a.joinAttemptID, source) ∈ s.honoured ∧ join.beacon.assetID = a.assetID) ∧
    s.pending.size + s.pendingChallenges.size ≤ 256 ∧
    (s.store.returned.Pairwise fun r r' => r.1 = r'.1 → r.2 < r'.2) ∧
    ∀ r ∈ s.store.returned, r.2 ≤ Membership.generation s.store.file r.1 := by
  have htraced := traced_of_reachable h
  have hcounted := counted_of_reachable h
  refine ⟨fun J record hrecord => ?_, fun join J source hmem => ?_, htraced.admissions, ?_,
    hcounted.increasing, hcounted.persisted⟩
  · have hhas := OrderedMap.has_eq_true_iff.2 ⟨record, hrecord⟩
    refine ⟨?_, settled_of_reachable h hhas, fun events => admissionsOf_run h⟩
    rcases kept_of_reachable h with hkept | hemptied
    · exact hkept.record J record hrecord
    · rw [OrderedMap.get_of_size_eq_zero hemptied.completed] at hrecord
      cases hrecord
  · obtain ⟨hnode, hattempt, hheard, hbeacon⟩ := htraced.honoured _ hmem
    simp only at hnode hattempt hheard hbeacon
    rw [hnode] at hheard hbeacon
    exact ⟨hnode, hattempt, hbeacon, hheard⟩
  · rcases kept_of_reachable h with hkept | hemptied
    · exact hkept.room
    · rw [hemptied.pending, hemptied.pendingChallenges]
      exact Nat.zero_le _

def plainChecks : TextChecks where
  isBlank := fun id => id = ""
  isChannelKey := fun key => key ≠ ""

def emptyMembership : GatewayMembership where
  gatewayNodeID := "gateway"
  gatewayGeneration := 1
  channelIndex := 1
  channelName := "ATLAS"
  channelKeyBase64 := "key"
  assetGenerations := .empty

def assetBeacon : DiscoveryBeacon where
  joinAttemptID := "attempt"
  radioNodeID := 7
  assetID := "asset"
  serviceSession := "session"

/-- An Asset is discovered, challenged, heard again and admitted. -/
def assetJoins : List JoinEvent :=
  [.packet ⟨some (.discovery assetBeacon), 0, some 7, 2, false⟩, .challenged 0 (some "challenge"),
    .proved 0 (some "proof"), .settledSend 0,
    .packet ⟨some (.response "attempt" "response"), 1, some 7, 2, true⟩, .verified 1 (some true),
    .store (.begin 0 true), .store (.prepare 0 true), .store (.rename 0 true),
    .store (.sync 0 true), .store .dropTail, .admitted 1, .notified 1 true, .settledSend 1]

def assetJoined : GatewayJoinService := run plainChecks 2 (.new emptyMembership) assetJoins

/-- After an Asset has joined, its admission is that of its record, and its generation is 1. -/
theorem one_admission_assetJoined :
    (∃ record, assetJoined.completed.get "attempt" = some record ∧
      record.acceptance.sourceGeneration = 1 ∧
      ((admissionsOf assetJoined "attempt").getLast?.map fun a =>
        (a.assetID, a.sourceGeneration)) =
          some (record.beacon.assetID, record.acceptance.sourceGeneration)) ∧
    assetJoined.pending.size + assetJoined.pendingChallenges.size ≤ 256 := by
  have hreach : JoinReachable plainChecks 2 assetJoined := reachable_run (.new _) _
  have hrecord : (assetJoined.completed.get "attempt").map
      (fun record => record.acceptance.sourceGeneration) = some 1 := by decide +kernel
  obtain ⟨record, hget, hone⟩ := Option.map_eq_some_iff.1 hrecord
  exact ⟨⟨record, hget, hone, ((one_admission hreach).1 _ _ hget).1⟩,
    (one_admission hreach).2.2.2.1⟩

end Admitting

end Atlas.Link.Joining
