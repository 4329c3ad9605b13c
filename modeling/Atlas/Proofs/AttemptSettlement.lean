import Atlas.Proofs.Execution

/-!
# Every attempt is settled once

Between two rounds of the loop all attempts are settled but a pending one, and no failure has been
charged. An exit settles what is left, so it charges at most one, and none when upstream was
reachable last. Every reservation but that of the current round has led to an attempt.
-/

namespace Atlas.SourceGateway

open Config Interleaving

section Ledgers

variable {l l' : Ledger} {begun charges attempt : ℕ} {unsettled rest : List ℕ}

/-- How many failures a call has charged to the breaker. -/
def Ledger.charged (l : Ledger) : ℕ := l.settled.countP (·.2 = .failure)

/-- Of the attempts, just those listed are not settled. -/
structure Ledger.Standing (l : Ledger) (unsettled : List ℕ) (charges : ℕ) : Prop where
  nodup : l.attempts.Nodup
  perm : (unsettled ++ l.resolved).Perm l.attempts
  charged_eq : l.charged = charges

/-- All attempts are settled, with at most one failure and with none when the last was reachable. -/
def Ledger.Settled (l : Ledger) : Prop :=
  ∃ charges ≤ 1, l.Standing [] charges ∧
    ∀ s ∈ l.settled.head?, s.2 = .reachable → charges = 0

/-- Before an attempt, each reservation has led to one. -/
structure Ledger.Waited (l : Ledger) (attempt : ℕ) : Prop where
  length_eq : l.begun.length + 1 = attempt
  started : l.granted.map Prod.fst = l.begun.map Prod.fst
  below : ∀ b ∈ l.begun, b.1 < attempt
  nodup : (l.granted.map Prod.fst).Nodup
  released_eq : l.released = []

/-- What has been released is what no attempt has begun under. -/
structure Ledger.Returned (l : Ledger) : Prop where
  nodup : (l.granted.map Prod.fst).Nodup
  count_eq : ∀ g ∈ l.granted, l.released.count g = if g.1 ∈ l.begun.map Prod.fst then 0 else 1
  granted : l.released ⊆ l.granted

/-- Nothing but settlements. -/
def Ledger.OnlySettles (l l' : Ledger) : Prop := l' = { l with settled := l'.settled }

theorem Ledger.OnlySettles.refl (l : Ledger) : l.OnlySettles l := rfl

theorem Ledger.OnlySettles.trans {l'' : Ledger} (h : l.OnlySettles l') (h' : l'.OnlySettles l'') :
    l.OnlySettles l'' := by
  unfold Ledger.OnlySettles at *
  rw [h', h]

theorem Ledger.Waited.settles (h : l.Waited attempt) (hl : l.OnlySettles l') :
    l'.Waited attempt := by
  rw [hl]
  exact ⟨h.length_eq, h.started, h.below, h.nodup, h.released_eq⟩

theorem Ledger.Returned.settles (h : l.Returned) (hl : l.OnlySettles l') : l'.Returned := by
  rw [hl]
  exact ⟨h.nodup, h.count_eq, h.granted⟩

theorem Ledger.Standing.head (h : l.Standing (begun :: rest) charges) : l.Unsettled begun := by
  have hnodup := h.perm.nodup_iff.2 h.nodup
  rw [List.cons_append, List.nodup_cons, List.mem_append, not_or] at hnodup
  exact ⟨h.perm.subset List.mem_cons_self, hnodup.1.2⟩

theorem Ledger.Standing.settle (h : l.Standing (begun :: rest) charges) (result : BreakerResult) :
    (l.settle begun result).Standing rest
      (if result = .failure then charges + 1 else charges) where
  nodup := h.nodup
  perm := List.perm_middle.trans h.perm
  charged_eq := by
    rw [← h.charged_eq]
    show List.countP _ ((begun, result) :: l.settled) = _
    rw [List.countP_cons]
    unfold Ledger.charged
    split_ifs <;> simp_all

theorem Ledger.Standing.reorder (h : l.Standing unsettled charges)
    (hperm : rest.Perm unsettled) : l.Standing rest charges :=
  ⟨h.nodup, (hperm.append_right _).trans h.perm, h.charged_eq⟩

theorem Ledger.Standing.settled (h : l.Standing [] 0) : l.Settled :=
  ⟨0, Nat.zero_le _, h, fun _ _ _ => rfl⟩

/-- The last failure is the only one. -/
theorem Ledger.Standing.fails (h : l.Standing [begun] 0) : (l.settle begun .failure).Settled := by
  refine ⟨1, le_rfl, h.settle .failure, ?_⟩
  rintro s ⟨⟩ ⟨⟩

/-- An attempt that is discarded last. -/
theorem Ledger.Standing.discards (h : l.Standing [begun] charges) (hcharges : charges ≤ 1) :
    (l.settle begun .discarded).Settled := by
  refine ⟨charges, hcharges, h.settle .discarded, ?_⟩
  rintro s ⟨⟩ ⟨⟩

theorem Ledger.Settled.once (h : l.Settled) : ∀ begun ∈ l.attempts, l.resolved.count begun = 1 := by
  intro begun hbegun
  obtain ⟨charges, -, hstanding, -⟩ := h
  have hperm : l.resolved.Perm l.attempts := hstanding.perm
  rw [hperm.count_eq]
  exact List.count_eq_one_of_mem hstanding.nodup hbegun

theorem Ledger.Waited.not_started (h : l.Waited attempt) : attempt ∉ l.begun.map Prod.fst := by
  intro hmem
  obtain ⟨b, hb, rfl⟩ := List.mem_map.1 hmem
  exact lt_irrefl _ (h.below b hb)

theorem Ledger.Waited.grant (h : l.Waited attempt) (reservation : RateReservation) :
    (((attempt, reservation) :: l.granted).map Prod.fst).Nodup := by
  rw [List.map_cons, List.nodup_cons, h.started]
  exact ⟨h.not_started, h.started ▸ h.nodup⟩

theorem Ledger.Waited.returned (h : l.Waited attempt) : l.Returned := by
  refine ⟨h.nodup, fun g hg => ?_, ?_⟩
  · have hbegun : g.1 ∈ l.begun.map Prod.fst := h.started ▸ List.mem_map_of_mem hg
    rw [if_pos hbegun, h.released_eq]
    rfl
  · rw [h.released_eq]
    exact List.nil_subset _

/-- The reservation of a round without an attempt is the one that goes back. -/
theorem Ledger.Waited.release (h : l.Waited attempt) (reservation : RateReservation) :
    Ledger.Returned { l with
      granted := (attempt, reservation) :: l.granted
      released := (attempt, reservation) :: l.released } := by
  rw [h.released_eq]
  refine ⟨h.grant reservation, fun g hg => ?_, List.cons_subset_cons _ (List.nil_subset _)⟩
  rcases List.mem_cons.1 hg with rfl | hg
  · rw [if_neg h.not_started, List.count_singleton_self]
  · have hbegun : g.1 ∈ l.begun.map Prod.fst := h.started ▸ List.mem_map_of_mem hg
    rw [if_pos hbegun, List.count_singleton, if_neg]
    rintro heq
    rw [beq_iff_eq] at heq
    obtain rfl := heq
    exact h.not_started hbegun

theorem Ledger.Waited.begin (h : l.Waited attempt) (reservation : RateReservation) (begun : ℕ) :
    Ledger.Waited { l with
      granted := (attempt, reservation) :: l.granted
      begun := (attempt, begun) :: l.begun } (attempt + 1) where
  length_eq := congrArg (· + 1) h.length_eq
  started := congrArg (attempt :: ·) h.started
  below := by
    rw [List.forall_mem_cons]
    exact ⟨Nat.lt_succ_self _, fun b hb => (h.below b hb).trans (Nat.lt_succ_self _)⟩
  nodup := h.grant reservation
  released_eq := h.released_eq

end Ledgers

section Programs

variable {lib : WireLibrary} {deployment : Deployment} {sha256 : Bytes → Bytes}
  {call : GatewayCall lib deployment} {α β : Type} {Q : β → Ledger → Prop} {l : Ledger}

/-- The program does nothing that the ledger tells. -/
def Quiet (sha256 : Bytes → Bytes) (call : GatewayCall lib deployment) (p : Prog GatewayOp α) :
    Prop :=
  ∀ l, Within (call.contract sha256) (fun _ l' => l' = l) p l

theorem Quiet.pure (a : α) : Quiet sha256 call (pure a) := fun _ => rfl

theorem Quiet.within {p : Prog GatewayOp α} {f : α → Prog GatewayOp β} (h : Quiet sha256 call p)
    (hf : ∀ a, Within (call.contract sha256) Q (f a) l) :
    Within (call.contract sha256) Q (p >>= f) l := by
  refine Within.bind ((h l).mono ?_)
  rintro a _ rfl
  exact hf a

theorem Quiet.bind {p : Prog GatewayOp α} {f : α → Prog GatewayOp β} (h : Quiet sha256 call p)
    (hf : ∀ a, Quiet sha256 call (f a)) : Quiet sha256 call (p >>= f) :=
  fun l => h.within fun a => hf a l

theorem quiet_now : Quiet sha256 call (Prog.ask .now) := fun _ => ⟨trivial, fun _ _ => rfl⟩

theorem quiet_timeNow : Quiet sha256 call (Prog.ask .timeNow) :=
  fun _ => ⟨trivial, fun _ _ => rfl⟩

theorem quiet_err (ctx : Ctx) : Quiet sha256 call (Prog.ask (.err ctx)) :=
  fun _ => ⟨trivial, fun _ _ => rfl⟩

theorem quiet_cause (ctx : Ctx) : Quiet sha256 call (Prog.ask (.cause ctx)) :=
  fun _ => ⟨trivial, fun _ _ => rfl⟩

theorem quiet_circuitOpenWithClock : Quiet sha256 call (Prog.ask .circuitOpenWithClock) :=
  fun _ => ⟨trivial, fun _ _ => rfl⟩

theorem quiet_contextError (ctx : Ctx) (deadline : Option ℕ) (now : ℕ) :
    Quiet sha256 call (contextError ctx deadline now) := by
  refine (quiet_err ctx).bind fun err => ?_
  cases err with
  | none => exact Quiet.pure _
  | some err => exact Quiet.pure _

theorem quiet_contextExpired (ctx : Ctx) (deadline : Option ℕ) :
    Quiet sha256 call (contextExpired ctx deadline) :=
  quiet_timeNow.bind fun now => (quiet_contextError ctx deadline now).bind fun _ => Quiet.pure _

theorem quiet_requestCanceled (parentDeadline : Option ℕ) :
    Quiet sha256 call (requestCanceled parentDeadline) :=
  quiet_timeNow.bind fun now =>
    (quiet_contextError .parent parentDeadline now).bind fun _ => Quiet.pure _

theorem quiet_admissionFailureAt (deadlines : Deadlines) (now : ℕ) :
    Quiet sha256 call (admissionFailureAt deadlines now) := by
  refine (quiet_contextError .parent deadlines.parent now).bind fun err => ?_
  cases err with
  | none => exact (quiet_contextError .request deadlines.request now).bind fun _ => Quiet.pure _
  | some err => exact Quiet.pure _

theorem quiet_admissionFailure (deadlines : Deadlines) :
    Quiet sha256 call (admissionFailure deadlines) :=
  quiet_timeNow.bind fun now => quiet_admissionFailureAt deadlines now

theorem quiet_connectorDeadlineWon (deadlines : Deadlines) (completedAt : ℕ) :
    Quiet sha256 call (connectorDeadlineWon deadlines completedAt) := by
  unfold connectorDeadlineWon
  split_ifs
  · exact Quiet.pure _
  · exact Quiet.pure _
  · refine (quiet_cause .request).bind fun cause => ?_
    split_ifs
    · exact Quiet.pure _
    · refine (quiet_err .parent).bind fun parentErr => ?_
      split_ifs
      · exact Quiet.pure _
      · exact (quiet_cause .request).bind fun _ => Quiet.pure _

theorem quiet_attemptRefused (deadlines : Deadlines) (refusal : Connector.AttemptRefusal)
    (checkedAt : ℕ) : Quiet sha256 call (attemptRefused deadlines refusal checkedAt) := by
  cases refusal with
  | contextExpired => exact quiet_admissionFailureAt deadlines checkedAt
  | circuitOpen => exact Quiet.pure _

theorem quiet_interruptedFailure (deadlines : Deadlines) (parentError : Option ErrorName)
    (now : ℕ) : Quiet sha256 call (interruptedFailure deadlines parentError now) := by
  cases parentError with
  | none => exact (quiet_contextError .request deadlines.request now).bind fun _ => Quiet.pure _
  | some err => exact Quiet.pure _

/-- The number of the attempt that is pending. -/
def PendingFailure.numbers (pending : PendingFailure) : List ℕ := (pending.map Prod.fst).toList

variable {pending : PendingFailure} {begun : ℕ} {order : BreakerOrder} {rest : List ℕ}
  {charges : ℕ}

theorem within_discardPendingFailure (h : l.Standing (pending.numbers ++ rest) charges) :
    Within (call.contract sha256) (fun _ l' => l'.Standing rest charges ∧ l.OnlySettles l')
      (discardPendingFailure pending) l := by
  rcases pending with _ | ⟨begun, order⟩
  · exact ⟨h, Ledger.OnlySettles.refl l⟩
  · exact ⟨h.head, fun _ _ => ⟨h.settle .discarded, rfl⟩⟩

theorem within_finishFailure (h : l.Standing (pending.numbers ++ [begun]) 0) :
    Within (call.contract sha256) (fun _ l' => l'.Settled ∧ l.OnlySettles l')
      (finishFailure pending begun order) l := by
  refine Within.bind ((within_discardPendingFailure h).mono ?_)
  rintro _ l' ⟨h', hl'⟩
  refine quiet_now.within fun observedAt => ?_
  exact ⟨h'.head, fun _ _ => ⟨h'.fails, hl'.trans rfl⟩⟩

theorem within_finishReachable (h : l.Standing (pending.numbers ++ [begun]) 0) :
    Within (call.contract sha256) (fun _ l' => l'.Standing [] 0 ∧ l.OnlySettles l')
      (finishReachable pending begun order) l := by
  refine Within.bind ((within_discardPendingFailure h).mono ?_)
  rintro _ l' ⟨h', hl'⟩
  refine quiet_now.within fun observedAt => ?_
  exact ⟨h'.head, fun _ _ => ⟨h'.settle .reachable, hl'.trans rfl⟩⟩

/-- The failure that is pending is charged, if there is one. -/
theorem within_recordPendingFailure (h : l.Standing (pending.numbers ++ rest) 0) :
    Within (call.contract sha256) (fun _ l' => (∃ charges ≤ 1, l'.Standing rest charges ∧
        ∀ s ∈ l'.settled.head?, s.2 = .reachable → charges = 0) ∧ l.OnlySettles l')
      (recordPendingFailure pending) l := by
  rcases pending with _ | ⟨begun, order⟩
  · exact ⟨⟨0, Nat.zero_le _, h, fun _ _ _ => rfl⟩, Ledger.OnlySettles.refl l⟩
  · refine quiet_now.within fun observedAt => ⟨h.head, fun _ _ => ⟨?_, rfl⟩⟩
    refine ⟨1, le_rfl, h.settle .failure, ?_⟩
    rintro s ⟨⟩ ⟨⟩

theorem within_settleInterrupted {deadlines : Deadlines}
    {outcome : Except GatewayError ConnectorResponse} {parentError parentCause : Option ErrorName}
    {connectorTimedOut : Bool} (h : l.Standing (pending.numbers ++ [begun]) 0) :
    Within (call.contract sha256) (fun _ l' => l'.Settled ∧ l.OnlySettles l')
      (settleInterrupted deadlines pending begun order outcome parentError parentCause
        connectorTimedOut) l := by
  unfold settleInterrupted
  split_ifs
  · exact within_finishFailure h
  · cases outcome with
    | ok response =>
      exact (within_finishReachable h).mono fun _ _ h' => ⟨h'.1.settled, h'.2⟩
    | error failure =>
      dsimp only
      split_ifs
      · refine Within.bind ((within_recordPendingFailure h).mono ?_)
        rintro _ l' ⟨⟨charges, hcharges, h', -⟩, hl'⟩
        exact ⟨h'.head, fun _ _ => ⟨h'.discards hcharges, hl'.trans rfl⟩⟩
      · exact within_finishFailure h

end Programs

section Rounds

variable {lib : WireLibrary} {deployment : Deployment} {sha256 : Bytes → Bytes}
  {call : GatewayCall lib deployment} {l : Ledger} {key : GoString} {prepared : PreparedRequest}
  {rule : RouteRule} {deadlines : Deadlines} {pending : PendingFailure}
  {left attempt begun : ℕ} {order : BreakerOrder}

theorem within_respond {response : ConnectorResponse} {retryable : Bool}
    (h : 0 < rule.cacheTTLMS → call.Received sha256 l key response) :
    Within (call.contract sha256)
      (fun e l' => l' = l ∧ e.attempts = attempt ∧ e.cacheResult ≠ .hit)
      (respond key rule attempt response retryable) l := by
  unfold respond
  split_ifs with hcached httl
  · refine quiet_now.within fun now => ?_
    rw [Bool.and_eq_true, Bool.and_eq_true, decide_eq_true_eq] at hcached
    exact ⟨h hcached.1.1, fun _ _ => ⟨rfl, rfl, nofun⟩⟩
  · exact ⟨rfl, rfl, nofun⟩
  · exact ⟨rfl, rfl, nofun⟩

/-- The call ends with all settled, or goes on to a further round with what is pending. -/
def AfterRound (left attempt : ℕ) (l : Ledger) : Execution ⊕ PendingFailure → Prop
  | .inl e => l.Settled ∧ e.attempts = attempt ∧ e.cacheResult ≠ .hit
  | .inr pending => l.Standing pending.numbers 0 ∧ 0 < left

theorem within_afterAttempt {outcome : Except GatewayError ConnectorResponse}
    (h : l.Standing (pending.numbers ++ [begun]) 0)
    (hreceived : ∀ response, outcome = .ok response → 0 < rule.cacheTTLMS →
      call.Received sha256 l key response) :
    Within (call.contract sha256) (fun r l' => AfterRound left attempt l' r ∧ l.OnlySettles l')
      (afterAttempt key rule deadlines left attempt pending begun order outcome) l := by
  refine quiet_timeNow.within fun checkedAt =>
    (quiet_contextError .parent deadlines.parent checkedAt).within fun parentError =>
    (quiet_connectorDeadlineWon deadlines order.completedAt).within fun timedOut => ?_
  split_ifs
  · refine (quiet_interruptedFailure deadlines parentError checkedAt).within fun failure =>
      (quiet_cause .parent).within fun parentCause => ?_
    refine Within.bind ((within_settleInterrupted h).mono ?_)
    rintro _ l' ⟨h', hl'⟩
    exact ⟨⟨h', rfl, nofun⟩, hl'⟩
  · cases outcome with
    | ok response =>
      refine Within.bind ((within_finishReachable h).mono ?_)
      rintro _ l' ⟨h', hl'⟩
      dsimp only
      split_ifs with hmore
      · rw [Bool.and_eq_true, decide_eq_true_eq] at hmore
        exact ⟨⟨h', hmore.1⟩, hl'⟩
      · refine Within.bind ((within_respond fun httl => ?_).mono ?_)
        · refine (hreceived response rfl httl).mono ?_
          rw [hl']
          exact List.Subset.refl _
        · rintro e _ ⟨rfl, hattempts, hhit⟩
          exact ⟨⟨h'.settled, hattempts, hhit⟩, hl'⟩
    | error failure =>
      dsimp only
      split_ifs with hmore
      · rw [Bool.and_eq_true, decide_eq_true_eq] at hmore
        refine Within.bind ((within_discardPendingFailure h).mono ?_)
        rintro _ l' ⟨h', hl'⟩
        exact ⟨⟨h', hmore.1⟩, hl'⟩
      · refine Within.bind ((within_finishFailure h).mono ?_)
        rintro _ l' ⟨h', hl'⟩
        exact ⟨⟨h', rfl, nofun⟩, hl'⟩

/-- All that the call has begun is settled, and what it has reserved in vain is returned. -/
structure Ledger.Finished (l : Ledger) (e : Execution) : Prop where
  settled : l.Settled
  returned : l.Returned
  attempts_eq : e.attempts = l.begun.length
  not_hit : e.cacheResult ≠ .hit

theorem within_finishBeforeAttempt {failure : Prog GatewayOp GatewayError}
    (hfailure : Quiet sha256 call failure) (h : l.Standing pending.numbers 0)
    (hwaited : l.Waited attempt) (reservation : RateReservation) :
    Within (call.contract sha256) (fun r l' => ∃ e, r = .inl e ∧ l'.Finished e)
      (finishBeforeAttempt attempt pending reservation failure)
      { l with granted := (attempt, reservation) :: l.granted } := by
  have hstanding : Ledger.Standing { l with granted := (attempt, reservation) :: l.granted }
      (pending.numbers ++ []) 0 := by
    rw [List.append_nil]
    exact ⟨h.nodup, h.perm, h.charged_eq⟩
  refine Within.bind ((within_recordPendingFailure hstanding).mono ?_)
  rintro _ l' ⟨hsettled, hl'⟩
  refine Within.bind ⟨trivial, fun _ _ => ?_⟩
  refine hfailure.within fun error => ⟨_, rfl, ?_, ?_, ?_, nofun⟩
  · obtain ⟨charges, hcharges, hstanding, hlast⟩ := hsettled
    exact ⟨charges, hcharges, ⟨hstanding.nodup, hstanding.perm, hstanding.charged_eq⟩, hlast⟩
  · show Ledger.Returned { l' with released := (attempt, reservation) :: l'.released }
    rw [hl']
    exact (hwaited.release reservation).settles rfl
  · show attempt - 1 = l'.begun.length
    rw [hl']
    exact Nat.sub_eq_of_eq_add hwaited.length_eq.symm

theorem within_attemptRound
    (hprepare : call.connector.prepare call.input = .ok (prepared, rule))
    (hkey : key = requestCacheKey sha256 call.connector.config.id prepared)
    (h : l.Standing pending.numbers 0) (hwaited : l.Waited attempt)
    (hmore : l.begun.length < call.maxAttempts) :
    Within (call.contract sha256)
      (fun r l' => (∃ e, r = .inl e ∧ l'.Finished e) ∨
        ∃ pending : PendingFailure, r = .inr pending ∧ l'.Standing pending.numbers 0 ∧
          l'.Waited (attempt + 1) ∧ 0 < left)
      (attemptRound call.connector key prepared rule deadlines left attempt pending) l := by
  refine Within.bind ⟨trivial, fun reservation _ => ?_⟩
  rcases reservation with _ | reservation
  · have hstanding : l.Standing (pending.numbers ++ []) 0 := by
      rwa [List.append_nil]
    refine Within.bind ((within_recordPendingFailure hstanding).mono ?_)
    rintro _ l' ⟨hsettled, hl'⟩
    refine (quiet_admissionFailure deadlines).within fun failure =>
      .inl ⟨_, rfl, hsettled, ?_, ?_, nofun⟩
    · exact (hwaited.settles hl').returned
    · show attempt - 1 = l'.begun.length
      exact Nat.sub_eq_of_eq_add (hwaited.settles hl').length_eq.symm
  · refine (quiet_contextExpired .request deadlines.request).within fun expired => ?_
    split_ifs
    · exact (within_finishBeforeAttempt (quiet_admissionFailure deadlines) h hwaited
        reservation).mono fun _ _ h' => .inl h'
    · refine Within.bind ⟨hmore, fun began hfresh => ?_⟩
      rcases began with ⟨refusal | begun, checkedAt⟩
      · refine (quiet_attemptRefused deadlines refusal checkedAt).within fun failure => ?_
        exact (within_finishBeforeAttempt (Quiet.pure failure) h hwaited reservation).mono
          fun _ _ h' => .inl h'
      · refine Within.bind ⟨trivial, fun answer _ => ?_⟩
        obtain ⟨answer, order⟩ := answer
        let next : Ledger := { l with
          granted := (attempt, reservation) :: l.granted
          begun := (attempt, begun) :: l.begun
          received := (prepared, answer) :: l.received }
        have hstanding : next.Standing (pending.numbers ++ [begun]) 0 := by
          have hbegin : next.Standing (begun :: pending.numbers) 0 :=
            ⟨List.nodup_cons.2 ⟨hfresh, h.nodup⟩, h.perm.cons begun, h.charged_eq⟩
          exact hbegin.reorder (List.perm_append_singleton begun pending.numbers)
        have hbegun := hwaited.begin reservation begun
        have hnext : next.Waited (attempt + 1) :=
          ⟨hbegun.length_eq, hbegun.started, hbegun.below, hbegun.nodup, hbegun.released_eq⟩
        show Within _ _ (afterAttempt key rule deadlines left attempt pending begun order
          (call.connector.attempt rule answer)) next
        refine (within_afterAttempt hstanding ?_).mono ?_
        · intro response hresponse httl
          exact ⟨prepared, rule, answer, hprepare, hkey, httl, List.mem_cons_self, hresponse⟩
        · rintro r l' ⟨hround, hl'⟩
          have hwaited' : l'.Waited (attempt + 1) := hnext.settles hl'
          cases r with
          | inl e =>
            refine .inl ⟨e, rfl, hround.1, hwaited'.returned, ?_, hround.2.2⟩
            exact hround.2.1.trans (Nat.succ.inj hwaited'.length_eq).symm
          | inr pending => exact .inr ⟨pending, rfl, hround.1, hwaited', hround.2⟩

/-- The rounds that are left are as many as the call may still make, so the loop is not left without
a return. -/
theorem within_attemptRounds
    (hprepare : call.connector.prepare call.input = .ok (prepared, rule))
    (hkey : key = requestCacheKey sha256 call.connector.config.id prepared) :
    ∀ {left attempt : ℕ} {pending : PendingFailure} {l : Ledger}, 0 < left →
    l.Standing pending.numbers 0 → l.Waited attempt →
    (l.begun.length + left : ℕ) = call.maxAttempts →
    Within (call.contract sha256) (fun r l' => ∃ e, r = some e ∧ l'.Finished e)
      (attemptRounds call.connector key prepared rule deadlines left attempt pending) l
  | 0, _, _, _, hleft, _, _, _ => absurd hleft (lt_irrefl 0)
  | left + 1, attempt, pending, l, _, h, hwaited, hattempts => by
    refine Within.bind ((within_attemptRound hprepare hkey h hwaited (by omega)).mono ?_)
    rintro r l' (⟨e, rfl, hfinished⟩ | ⟨pending, rfl, h', hwaited', hleft⟩)
    · exact ⟨e, rfl, hfinished⟩
    · have hlength := hwaited'.length_eq
      have hlength' := hwaited.length_eq
      exact within_attemptRounds hprepare hkey hleft h' hwaited' (by omega)

end Rounds

section Calls

variable {lib : WireLibrary} {deployment : Deployment} {sha256 : Bytes → Bytes}
  {call : GatewayCall lib deployment} {l : Ledger} {prepared : PreparedRequest} {rule : RouteRule}

theorem maxAttempts_of_prepare
    (hprepare : call.connector.prepare call.input = .ok (prepared, rule)) :
    call.maxAttempts = rule.retry.maxRetries + 1 := by
  unfold GatewayCall.maxAttempts
  rw [hprepare]

theorem maxRetries_of_prepare
    (hprepare : call.connector.prepare call.input = .ok (prepared, rule)) :
    0 ≤ rule.retry.maxRetries := by
  have hroute := (call.connector.prepare_spec hprepare).1
  exact (call.connector.settled.routes rule (call.connector.route_spec hroute).1).retry.maxRetries.1

/-- A call that has not come to its attempts. -/
structure Ledger.Idle (l : Ledger) : Prop where
  granted_eq : l.granted = []
  released_eq : l.released = []
  begun_eq : l.begun = []
  settled_eq : l.settled = []

theorem Ledger.Idle.standing (h : l.Idle) : l.Standing [] 0 := by
  refine ⟨?_, ?_, ?_⟩
  · unfold Ledger.attempts
    rw [h.begun_eq]
    exact List.nodup_nil
  · unfold Ledger.attempts Ledger.resolved
    rw [h.begun_eq, h.settled_eq]
    exact List.Perm.refl _
  · unfold Ledger.charged
    rw [h.settled_eq]
    rfl

theorem Ledger.Idle.waited (h : l.Idle) : l.Waited 1 := by
  refine ⟨?_, ?_, ?_, ?_, h.released_eq⟩
  · rw [h.begun_eq]
    rfl
  · rw [h.begun_eq, h.granted_eq]
    rfl
  · rw [h.begun_eq]
    exact List.forall_mem_nil _
  · rw [h.granted_eq]
    exact List.nodup_nil

/-- What a call returns, with what is known of it: a response from the cache has been found there
under its own key and a rule with a lifetime. -/
structure Ledger.Answers (sha256 : Bytes → Bytes) (call : GatewayCall lib deployment) (l : Ledger)
    (e : Execution) : Prop where
  settled : l.Settled
  returned : l.Returned
  attempts_eq : e.attempts = l.begun.length
  hit : e.cacheResult = .hit → ∀ response, e.result = .ok response →
    ∃ prepared rule, call.connector.prepare call.input = .ok (prepared, rule) ∧
      0 < rule.cacheTTLMS ∧
      (requestCacheKey sha256 call.connector.config.id prepared, response) ∈ l.found

theorem Ledger.Finished.answers {e : Execution} (h : l.Finished e) : l.Answers sha256 call e :=
  ⟨h.settled, h.returned, h.attempts_eq, fun hhit => absurd hhit h.not_hit⟩

theorem Ledger.Idle.fails (h : l.Idle) (failure : GatewayError) (cacheResult : CacheResult) :
    l.Answers sha256 call ⟨.error failure, 0, cacheResult⟩ := by
  refine ⟨h.standing.settled, h.waited.returned, ?_, fun _ _ => nofun⟩
  rw [h.begun_eq]
  rfl

/-- The call returns, and is as it should be then. -/
def Returns (sha256 : Bytes → Bytes) (call : GatewayCall lib deployment) (r : Option Execution)
    (l : Ledger) : Prop :=
  ∃ e, r = some e ∧ l.Answers sha256 call e

variable {key : GoString} {deadlines : Deadlines}

theorem within_admitted (h : l.Idle)
    (hprepare : call.connector.prepare call.input = .ok (prepared, rule))
    (hkey : key = requestCacheKey sha256 call.connector.config.id prepared) :
    Within (call.contract sha256) (Returns sha256 call)
      (admitted call.connector key prepared rule deadlines) l := by
  refine (quiet_contextExpired .request deadlines.request).within fun expired => ?_
  split_ifs
  · exact (quiet_admissionFailure deadlines).within fun failure => ⟨_, rfl, h.fails failure .miss⟩
  · refine quiet_circuitOpenWithClock.within fun isOpen => ?_
    split_ifs
    · refine (quiet_contextExpired .request deadlines.request).within fun expired => ?_
      split_ifs
      · exact (quiet_admissionFailure deadlines).within fun failure =>
          ⟨_, rfl, h.fails failure .miss⟩
      · exact ⟨_, rfl, h.fails _ .miss⟩
    · have hmax := maxRetries_of_prepare hprepare
      have hattempts := maxAttempts_of_prepare hprepare
      have hstanding : l.Standing (PendingFailure.numbers none) 0 := h.standing
      refine (within_attemptRounds hprepare hkey ?_ hstanding h.waited ?_).mono ?_
      · omega
      · rw [h.begun_eq, List.length_nil]
        omega
      · rintro r l' ⟨e, rfl, hfinished⟩
        exact ⟨e, rfl, hfinished.answers⟩

theorem within_executeUpstream (h : l.Idle)
    (hprepare : call.connector.prepare call.input = .ok (prepared, rule))
    (hkey : key = requestCacheKey sha256 call.connector.config.id prepared) :
    Within (call.contract sha256) (Returns sha256 call)
      (executeUpstream call.connector key prepared rule deadlines) l := by
  refine (quiet_contextExpired .request deadlines.request).within fun expired => ?_
  split_ifs
  · exact (quiet_admissionFailure deadlines).within fun failure => ⟨_, rfl, h.fails failure .miss⟩
  · refine Within.bind ⟨trivial, fun acquired _ => ?_⟩
    show Within _ _ (if acquired = true then _ else _) l
    split_ifs
    · refine Within.bind ((within_admitted h hprepare hkey).mono ?_)
      intro execution l' hreturns
      exact ⟨trivial, fun _ _ => hreturns⟩
    · exact (quiet_admissionFailure deadlines).within fun failure =>
        ⟨_, rfl, h.fails failure .miss⟩

theorem within_executeMissed {parentDeadline : Option ℕ} (h : l.Idle)
    (hprepare : call.connector.prepare call.input = .ok (prepared, rule))
    (hkey : key = requestCacheKey sha256 call.connector.config.id prepared) :
    Within (call.contract sha256) (Returns sha256 call)
      (executeMissed call.connector key prepared rule parentDeadline) l := by
  refine quiet_circuitOpenWithClock.within fun isOpen => ?_
  split_ifs
  · refine (quiet_contextExpired .parent parentDeadline).within fun expired => ?_
    split_ifs
    · exact (quiet_requestCanceled parentDeadline).within fun failure =>
        ⟨_, rfl, h.fails failure .miss⟩
    · exact ⟨_, rfl, h.fails _ .miss⟩
  · exact quiet_timeNow.within fun started => within_executeUpstream h hprepare hkey

theorem within_lookup (h : l.Idle) :
    Within (call.contract sha256) (fun cached l' => l'.Idle ∧ ∀ response, cached = some response →
        0 < rule.cacheTTLMS ∧ (key, response) ∈ l'.found) (lookup key rule) l := by
  unfold lookup
  split_ifs with httl
  · refine quiet_now.within fun now => ⟨trivial, fun cached _ => ?_⟩
    rcases cached with _ | cached
    · exact ⟨h, nofun⟩
    · refine ⟨⟨h.granted_eq, h.released_eq, h.begun_eq, h.settled_eq⟩, ?_⟩
      rintro response ⟨⟩
      exact ⟨httl, List.mem_cons_self⟩
  · exact ⟨h, nofun⟩

theorem within_execute (h : l.Idle) :
    Within (call.contract sha256) (Returns sha256 call)
      (execute call.connector sha256 call.deadline call.input) l := by
  refine (quiet_contextExpired .parent call.deadline).within fun expired => ?_
  split_ifs
  · exact (quiet_requestCanceled call.deadline).within fun failure =>
      ⟨_, rfl, h.fails failure .bypass⟩
  · rcases hprepare : call.connector.prepare call.input with message | ⟨prepared, rule⟩
    · exact ⟨_, rfl, h.fails (rejected message) .bypass⟩
    · refine Within.bind ((within_lookup h).mono ?_)
      rintro cached l' ⟨hidle, hfound⟩
      rcases cached with _ | response
      · exact within_executeMissed hidle hprepare rfl
      · refine (quiet_contextExpired .parent call.deadline).within fun expired => ?_
        split_ifs
        · exact (quiet_requestCanceled call.deadline).within fun failure =>
            ⟨_, rfl, hidle.fails failure .hit⟩
        · refine ⟨_, rfl, hidle.standing.settled, hidle.waited.returned, ?_,
            fun _ other hother => ?_⟩
          · rw [hidle.begun_eq]
            rfl
          · obtain rfl := Except.ok.inj hother
            obtain ⟨httl, hmem⟩ := hfound response rfl
            exact ⟨prepared, rule, hprepare, httl, hmem⟩

end Calls

section Pools

variable {lib : WireLibrary} {deployment : Deployment} {sha256 : Bytes → Bytes}
  {maxEntries maxBytes : ℕ} {ι : Type} {calls : ι → GatewayCall lib deployment}

theorem tracked_new : Tracked sha256 calls (fun _ => .new) (.new maxEntries maxBytes) where
  bounded i := by
    show ((0 : ℕ) : ℤ) ≤ (calls i).maxAttempts
    rcases hprepare : (calls i).connector.prepare (calls i).input with message | ⟨prepared, rule⟩
    · unfold GatewayCall.maxAttempts
      rw [hprepare]
      exact le_rfl
    · have hmax := maxRetries_of_prepare hprepare
      rw [maxAttempts_of_prepare hprepare]
      omega
  numbered _ _ h := by cases h
  unresolved _ _ h := by cases h
  settled _ := List.Subset.refl _
  apart _ _ _ _ _ h := by cases h
  owned _ _ h := by cases h
  cached _ _ h := by cases h
  found _ _ h := by cases h

variable [DecidableEq ι] {pool : GatewayPool ι}

theorem GatewayReached.keeps (h : GatewayReached sha256 maxEntries maxBytes calls pool) :
    pool.Keeps (fun i => (calls i).contract sha256) (fun i => Returns sha256 (calls i)) ∧
      Tracked sha256 calls pool.known pool.state := by
  refine Pool.Reached.keeps h (fun _ _ _ _ => rfl) ?_ (fun i => ?_) tracked_new
  · intro β i op known s b s' htracked hpre hperforms
    exact htracked.step hpre hperforms
  · exact within_execute ⟨rfl, rfl, rfl, rfl⟩

theorem GatewayReached.returns (h : GatewayReached sha256 maxEntries maxBytes calls pool) {i : ι}
    {r : Option Execution} (hdone : pool.program i = .done r) :
    ∃ e, r = some e ∧ (pool.known i).Answers sha256 (calls i) e := by
  have hwithin := h.keeps.1 i
  rw [hdone] at hwithin
  exact hwithin

/-- However the calls of all connectors run beside each other and whatever comes from outside, a
call makes no more attempts than it may. One that returns does so with each of its attempts settled
once and none unresolved, has charged at most one failure and none if upstream was reachable last,
and has released each reservation once that no attempt began under, and no other. -/
theorem attempts_settled_once (h : GatewayReached sha256 maxEntries maxBytes calls pool) :
    (∀ i, (pool.known i).begun.length ≤ (calls i).maxAttempts) ∧
    (∀ i r, pool.program i = .done r → ∃ e, r = some e ∧
      e.attempts = (pool.known i).begun.length ∧
      (∀ begun ∈ (pool.known i).attempts, (pool.known i).resolved.count begun = 1 ∧
        begun ∉ (pool.state.connectors (calls i).connectorID).breakerAttempts) ∧
      (pool.known i).charged ≤ 1 ∧
      (∀ s ∈ (pool.known i).settled.head?, s.2 = .reachable → (pool.known i).charged = 0) ∧
      (pool.known i).Returned) ∧
    ∀ id, (∀ i, (calls i).connectorID = id → ∃ r, pool.program i = .done r) →
      (pool.state.connectors id).breakerAttempts = ∅ := by
  have htracked := h.keeps.2
  have hresolved : ∀ i r, pool.program i = .done r → ∀ begun ∈ (pool.known i).attempts,
      begun ∉ (pool.state.connectors (calls i).connectorID).breakerAttempts := by
    intro i r hdone begun hbegun
    obtain ⟨e, -, hanswers⟩ := h.returns hdone
    rw [htracked.unresolved i begun hbegun, not_not]
    exact List.count_pos_iff.1 ((hanswers.settled.once begun hbegun).symm ▸ Nat.one_pos)
  refine ⟨htracked.bounded, fun i r hdone => ?_, fun id hall => ?_⟩
  · obtain ⟨e, rfl, hanswers⟩ := h.returns hdone
    refine ⟨e, rfl, hanswers.attempts_eq, fun begun hbegun => ?_, ?_, ?_, hanswers.returned⟩
    · exact ⟨hanswers.settled.once begun hbegun, hresolved i _ hdone begun hbegun⟩
    · obtain ⟨charges, hle, hstanding, -⟩ := hanswers.settled
      exact hstanding.charged_eq ▸ hle
    · obtain ⟨charges, -, hstanding, hlast⟩ := hanswers.settled
      exact hstanding.charged_eq ▸ hlast
  · rw [Finset.eq_empty_iff_forall_notMem]
    intro begun hbegun
    obtain ⟨i, rfl, hmem⟩ := htracked.owned id begun hbegun
    obtain ⟨r, hdone⟩ := hall i rfl
    exact hresolved i r hdone begun hmem hbegun

def keyedCall : GatewayCall sampleWire sampleDeployment where
  connector := keyedConnector
  settings := ⟨3, 30000, by decide, by decide, by decide, by decide⟩
  failures_eq := rfl
  openMS_eq := rfl
  deadline := none
  input := sampleRequest

theorem keyedCall_prepare :
    keyedConnector.prepare sampleRequest = .ok (samplePrepared, sampleRule) := by
  decide +kernel

theorem put_new (id : GoString) : (GatewayState.new 1 1).put id .new = .new 1 1 := put_self _ id

/-- The call makes one attempt, which fails. -/
theorem keyedCall_fails : ∃ pool : GatewayPool Unit,
    GatewayReached id 1 1 (fun _ => keyedCall) pool ∧
      (∃ r, pool.program () = .done r) ∧ (pool.known ()).begun = [(1, 1)] := by
  have h : GatewayReached id 1 1 (fun _ : Unit => keyedCall)
    (GatewayPool.new id 1 1 fun _ => keyedCall) := .start
  have hp : (GatewayPool.new id 1 1 fun _ : Unit => keyedCall).program () =
    execute keyedConnector id none sampleRequest := rfl
  unfold execute at hp
  rw [keyedCall_prepare] at hp
  obtain ⟨p1, h1, hp, hk1, hs1⟩ := h.call hp (.timeNow 0)
  obtain ⟨p2, h2, hp, hk2, hs2⟩ := h1.call hp (.err .parent none)
  obtain ⟨p3, h3, hp, hk3, hs3⟩ := h2.call hp (.circuitOpenWithClock 0)
  rw [hs2, hs1] at hp hs3
  replace hs3 : p3.state = .new 1 1 := hs3.trans (put_new _)
  obtain ⟨p4, h4, hp, hk4, hs4⟩ := h3.call hp (.timeNow 0)
  obtain ⟨p5, h5, hp, hk5, hs5⟩ := h4.call hp (.timeNow 0)
  obtain ⟨p6, h6, hp, hk6, hs6⟩ := h5.call hp (.err .request none)
  obtain ⟨p7, h7, hp, hk7, hs7⟩ := h6.call hp (.acquire true)
  obtain ⟨p8, h8, hp, hk8, hs8⟩ := h7.call hp (.timeNow 0)
  obtain ⟨p9, h9, hp, hk9, hs9⟩ := h8.call hp (.err .request none)
  obtain ⟨p10, h10, hp, hk10, hs10⟩ := h9.call hp (.circuitOpenWithClock 0)
  rw [hs9, hs8, hs7, hs6, hs5, hs4, hs3] at hp hs10
  replace hs10 : p10.state = .new 1 1 := hs10.trans (put_new _)
  obtain ⟨p11, h11, hp, hk11, hs11⟩ := h10.call hp (.waitForRate 1 (some ⟨0, 0⟩))
  obtain ⟨p12, h12, hp, hk12, hs12⟩ := h11.call hp (.timeNow 0)
  obtain ⟨p13, h13, hp, hk13, hs13⟩ := h12.call hp (.err .request none)
  obtain ⟨p14, h14, hp, hk14, hs14⟩ := h13.call hp (.tryBeginAttempt 1 false false 0 0)
  rw [hs13, hs12, hs11, hs10] at hp hk14
  obtain ⟨p15, h15, hp, hk15, -⟩ := h14.call hp
    (.attempt samplePrepared (.failed [.deadlineExceeded]) ⟨0, 1⟩)
  obtain ⟨p16, h16, hp, hk16, -⟩ := h15.call hp (.timeNow 0)
  obtain ⟨p17, h17, hp, hk17, -⟩ := h16.call hp (.err .parent none)
  obtain ⟨p18, h18, hp, hk18, -⟩ := h17.call hp (.now 0)
  obtain ⟨p19, h19, hp, hk19, -⟩ := h18.call hp (.finishBreakerFailure 0 1 ⟨0, 1⟩)
  obtain ⟨p20, h20, hp, hk20, -⟩ := h19.call hp .release
  refine ⟨p20, h20, ⟨_, hp⟩, ?_⟩
  rw [hk20, hk19, hk18, hk17, hk16, hk15, hk14, hk13, hk12, hk11, hk10, hk9, hk8, hk7, hk6, hk5,
    hk4, hk3, hk2, hk1]
  rfl

theorem attempts_settled_once_keyedCall : ∃ pool : GatewayPool Unit,
    (pool.known ()).begun = [(1, 1)] ∧ (pool.known ()).charged ≤ 1 ∧
      (pool.state.connectors keyedCall.connectorID).breakerAttempts = ∅ := by
  obtain ⟨pool, h, ⟨r, hdone⟩, hbegun⟩ := keyedCall_fails
  obtain ⟨-, hreturns, hclear⟩ := attempts_settled_once h
  obtain ⟨e, -, -, -, hcharged, -⟩ := hreturns () r hdone
  exact ⟨pool, hbegun, hcharged, hclear _ fun _ _ => ⟨r, hdone⟩⟩

/-- A response from the cache has been received for the same prepared request on the same
connector, under a rule with a lifetime. -/
theorem hit_received (hsha : Function.Injective sha256)
    (h : GatewayReached sha256 maxEntries maxBytes calls pool) {i : ι} {e : Execution}
    (hdone : pool.program i = .done (some e)) (hhit : e.cacheResult = .hit)
    {response : ConnectorResponse} (hresponse : e.result = .ok response) :
    ∃ prepared rule, (calls i).connector.prepare (calls i).input = .ok (prepared, rule) ∧
      0 < rule.cacheTTLMS ∧ ∃ j rule' answer, (calls j).connectorID = (calls i).connectorID ∧
        (calls j).connector.prepare (calls j).input = .ok (prepared, rule') ∧
        0 < rule'.cacheTTLMS ∧ (prepared, answer) ∈ (pool.known j).received ∧
        (calls j).connector.attempt rule' answer = .ok response := by
  obtain ⟨e', heq, hanswers⟩ := h.returns hdone
  obtain rfl := Option.some.inj heq
  obtain ⟨prepared, rule, hprepare, httl, hfound⟩ := hanswers.hit hhit response hresponse
  obtain ⟨j, prepared', rule', answer, hprepare', hkey, httl', hanswer, hreceived⟩ :=
    h.keeps.2.found i _ hfound
  obtain ⟨hid, rfl⟩ := requestCacheKey_injective hsha hkey
  exact ⟨prepared, rule, hprepare, httl, j, rule', answer, hid.symm, hprepare', httl', hanswer,
    hreceived⟩

end Pools

end Atlas.SourceGateway
