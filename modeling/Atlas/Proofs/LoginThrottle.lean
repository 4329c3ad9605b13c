import Atlas.Core.Login

/-!
# Logins beside each other

The advisory locks keep apart the transactions of calls that share a username or an IP, so each
counts on the rows it has looked at: what a commit writes is what one atomic step on these rows
would have written (`failureRecord`). A call that is past its second look (`StageOk`) is one for
which neither username nor IP was barred, and still is when it commits. The locks are taken in
increasing order, so what a call waits for is above all that it holds.
-/

namespace Atlas.Core.Admin

section Waiting

variable {ι Λ : Type*} [Preorder Λ] {W : ι → ι → Prop} {wants : ι → Λ → Prop}

/-- Where each waits for something that is below all that whoever has it waits for, there is no
cycle. -/
theorem no_cycle (h : ∀ i j, W i j → ∃ l, wants i l ∧ ∀ l', wants j l' → l < l') (i : ι) :
    ¬ Relation.TransGen W i i := by
  have hbelow : ∀ {i j}, Relation.TransGen W i j →
      ∃ l, wants i l ∧ ∀ l', wants j l' → l < l' := by
    intro i j hij
    induction hij with
    | single hij => exact h _ _ hij
    | tail _ hjk ih =>
      obtain ⟨l, hl, hj⟩ := ih
      obtain ⟨m, hm, hk⟩ := h _ _ hjk
      exact ⟨l, hl, fun l' hl' => (hj m hm).trans (hk l' hl')⟩
  intro hcycle
  obtain ⟨l, hl, hlt⟩ := hbelow hcycle
  exact lt_irrefl l (hlt l hl)

end Waiting

section Names

theorem mem_failureKeys {username ip key : String} :
    key ∈ failureKeys username ip ↔
      key = "login_fail:user:" ++ username ∨ ip ≠ "" ∧ key = "login_fail:ip:" ++ ip := by
  unfold failureKeys
  split_ifs with hip <;> simp [hip]

theorem user_ne_ip (username ip : String) :
    "login_fail:user:" ++ username ≠ "login_fail:ip:" ++ ip := by
  intro h
  have hlist := congrArg String.toList h
  simp at hlist

variable (loginAdmissionLockID : String → ℤ)

theorem mem_locks {c : LoginCall} {lock : ℤ} :
    lock ∈ c.locks loginAdmissionLockID ↔
      lock = loginAdmissionLockID ("user:" ++ c.username) ∨
        c.ip ≠ "" ∧ lock = loginAdmissionLockID ("ip:" ++ c.ip) := by
  unfold LoginCall.locks
  dsimp only
  split_ifs with hone hlt
  · rcases hone with hip | hsame
    · simp [hip]
    · simp [hsame]
  · rw [not_or] at hone
    simp [hone.1, or_comm]
  · rw [not_or] at hone
    simp [hone.1]

theorem locks_increasing (c : LoginCall) :
    (c.locks loginAdmissionLockID).Pairwise (· < ·) := by
  unfold LoginCall.locks
  dsimp only
  split_ifs with hone hlt
  · simp
  · simpa using hlt
  · rw [not_or] at hone
    simp only [List.pairwise_cons, List.mem_singleton, forall_eq, List.not_mem_nil,
      IsEmpty.forall_iff, implies_true, List.Pairwise.nil, and_self, and_true]
    omega

/-- Calls that are counted in one record take one lock. -/
theorem shared_lock {c d : LoginCall} {key : String} (hc : key ∈ c.keys) (hd : key ∈ d.keys) :
    ∃ lock, lock ∈ c.locks loginAdmissionLockID ∧ lock ∈ d.locks loginAdmissionLockID := by
  unfold LoginCall.keys at hc hd
  rw [mem_failureKeys] at hc hd
  rcases hc with rfl | ⟨hip, rfl⟩
  · rcases hd with hd | ⟨-, hd⟩
    · have husername : c.username = d.username := by simpa using hd
      refine ⟨_, (mem_locks _).2 (.inl rfl), (mem_locks _).2 (.inl ?_)⟩
      rw [husername]
    · exact absurd hd (user_ne_ip _ _)
  · rcases hd with hd | ⟨hip', hd⟩
    · exact absurd hd.symm (user_ne_ip _ _)
    · have hsame : c.ip = d.ip := by simpa using hd
      refine ⟨_, (mem_locks _).2 (.inr ⟨hip, rfl⟩), (mem_locks _).2 (.inr ⟨hip', ?_⟩)⟩
      rw [hsame]

end Names

/-- The record that is left when what happened to it happened in one step each. -/
def failureRecord (key : String) : List LoginEvent → Option LoginFailureRecord
  | [] => none
  | .cleaned now :: log =>
    if Expired (failureRecord key log) now then none else failureRecord key log
  | .rejected _ keys now :: log =>
    if key ∈ keys then some (upsertLoginFailure (failureRecord key log) now)
    else failureRecord key log
  | .admitted _ keys _ :: log => if key ∈ keys then none else failureRecord key log

section Stages

variable (loginAdmissionLockID : String → ℤ)

/-- Neither the username nor the IP is barred. -/
def Admissible (records : String → Option LoginFailureRecord) (c : LoginCall) : Prop :=
  ∀ key ∈ c.keys, ¬ Throttled (records key) c.now

/-- The rows a call that failed leaves. -/
def counted (records : String → Option LoginFailureRecord) (now : Time) (keys : List String) :
    Changes :=
  keys.map fun key => (key, some (upsertLoginFailure (records key) now))

/-- What a call has found out and written, at each stage, still is so. -/
def StageOk (records : String → Option LoginFailureRecord) (c : LoginCall) : Prop :=
  match c.stage with
  | .locking _ held wanted => held ++ wanted = c.locks loginAdmissionLockID
  | .lockedChecking _ keys => ∀ key ∈ c.keys, key ∈ keys ∨ ¬ Throttled (records key) c.now
  | .recording keys changes =>
    Admissible records c ∧ ∃ done, done ++ keys = c.keys ∧ changes = counted records c.now done
  | .clearing => Admissible records c
  | .committing false changes => Admissible records c ∧ changes = counted records c.now c.keys
  | .committing true changes =>
    Admissible records c ∧ changes = c.keys.map fun key => (key, none)
  | _ => True

/-- What others may do to the rows that a call has locked: clean up those it has not changed. -/
def Undisturbed (records records' : String → Option LoginFailureRecord) (c : LoginCall) : Prop :=
  ∀ key ∈ c.keys, records' key = records key ∨
    records' key = none ∧ key ∉ c.changes.map Prod.fst

variable {loginAdmissionLockID} {records records' : String → Option LoginFailureRecord}
  {c : LoginCall}

theorem not_throttled_none (now : Time) : ¬ Throttled none now := by
  rintro ⟨r, hr, -⟩
  cases hr

theorem Admissible.undisturbed (h : Admissible records c) (hun : Undisturbed records records' c) :
    Admissible records' c := by
  intro key hkey
  rcases hun key hkey with heq | ⟨heq, -⟩
  · rw [heq]
    exact h key hkey
  · rw [heq]
    exact not_throttled_none c.now

@[simp]
theorem counted_keys (now : Time) (keys : List String) :
    (counted records now keys).map Prod.fst = keys := by
  unfold counted
  rw [List.map_map]
  exact List.map_id keys

theorem counted_undisturbed (hun : Undisturbed records records' c) {done : List String}
    (hdone : ∀ key ∈ done, key ∈ c.keys) (hchanges : c.changes = counted records c.now done) :
    counted records c.now done = counted records' c.now done := by
  refine List.map_congr_left fun key hkey => ?_
  rcases hun key (hdone key hkey) with heq | ⟨-, hnot⟩
  · rw [heq]
  · rw [hchanges, counted_keys] at hnot
    exact absurd hkey hnot

theorem StageOk.undisturbed (h : StageOk loginAdmissionLockID records c)
    (hun : Undisturbed records records' c) : StageOk loginAdmissionLockID records' c := by
  unfold StageOk at h ⊢
  rcases hstage : c.stage with _ | _ | _ | _ | ⟨passed, keys⟩ | ⟨keys, changes⟩ | _ |
    ⟨passed, changes⟩ | _ | _ <;> simp only [hstage] at h ⊢
  · exact h
  · intro key hkey
    rcases h key hkey with hleft | hfree
    · exact .inl hleft
    · rcases hun key hkey with heq | ⟨heq, -⟩
      · rw [heq]
        exact .inr hfree
      · rw [heq]
        exact .inr (not_throttled_none c.now)
  · obtain ⟨hfree, done, hdone, hchanges⟩ := h
    refine ⟨hfree.undisturbed hun, done, hdone, hchanges.trans ?_⟩
    refine counted_undisturbed hun (fun key hkey => ?_) ?_
    · rw [← hdone]
      exact List.mem_append_left keys hkey
    · simp only [LoginCall.changes, hstage]
      exact hchanges
  · exact h.undisturbed hun
  · cases passed
    · refine ⟨h.1.undisturbed hun, h.2.trans ?_⟩
      refine counted_undisturbed hun (fun key hkey => hkey) ?_
      simp only [LoginCall.changes, hstage]
      exact h.2
    · exact ⟨h.1.undisturbed hun, h.2⟩

/-- A call holds locks it takes, and only in its transaction. -/
theorem held_prefix (h : StageOk loginAdmissionLockID records c) :
    c.held loginAdmissionLockID <+: c.locks loginAdmissionLockID := by
  unfold StageOk at h
  unfold LoginCall.held
  rcases hstage : c.stage with _ | _ | _ | ⟨_, held, wanted⟩ | _ | _ | _ | _ | _ | _ <;>
    simp only [hstage] at h ⊢
  all_goals first | exact List.nil_prefix | exact List.prefix_rfl | exact ⟨wanted, h⟩

/-- Of the rows only those count that a transaction has locked. -/
theorem StageOk.locked (h : StageOk loginAdmissionLockID records c)
    (hun : c.held loginAdmissionLockID = c.locks loginAdmissionLockID →
      Undisturbed records records' c) : StageOk loginAdmissionLockID records' c := by
  by_cases hall : c.held loginAdmissionLockID = c.locks loginAdmissionLockID
  · exact h.undisturbed (hun hall)
  · unfold StageOk at h ⊢
    unfold LoginCall.held at hall
    rcases hstage : c.stage with _ | _ | _ | _ | _ | _ | _ | _ | _ | _ <;>
      simp only [hstage] at h hall ⊢
    all_goals first | exact h | exact absurd trivial hall

end Stages

section Holding

variable (loginAdmissionLockID : String → ℤ)

structure LoginOk (s : LoginSystem) : Prop where
  told : ∀ key, s.records key = failureRecord key s.log
  stages : ∀ (i : ℕ) (c : LoginCall), s.calls[i]? = some c →
    StageOk loginAdmissionLockID s.records c
  exclusive : ∀ (i j : ℕ) (c d : LoginCall), s.calls[i]? = some c → s.calls[j]? = some d → i ≠ j →
    ∀ lock ∈ c.held loginAdmissionLockID, lock ∉ d.held loginAdmissionLockID

variable {loginAdmissionLockID} {s : LoginSystem} {i : ℕ} {c : LoginCall}

theorem setStage_get (stage : LoginStage) (j : ℕ) :
    (s.setStage i stage).calls[j]? =
      if j = i then (s.calls[i]?).map fun c => { c with stage := stage } else s.calls[j]? := by
  unfold LoginSystem.setStage
  rw [List.getElem?_modify]
  by_cases hij : j = i
  · simp [hij]
  · simp [hij, Ne.symm hij]

/-- A call goes on: what is asked of its new stage, of the others, and of the locks it has taken. -/
theorem LoginOk.go (h : LoginOk loginAdmissionLockID s) (hi : s.calls[i]? = some c)
    {records : String → Option LoginFailureRecord} {log : List LoginEvent} {stage : LoginStage}
    (htold : ∀ key, records key = failureRecord key log)
    (hstage : StageOk loginAdmissionLockID records { c with stage := stage })
    (hothers : ∀ j d, s.calls[j]? = some d → j ≠ i → StageOk loginAdmissionLockID records d)
    (hheld : ∀ lock ∈ ({ c with stage := stage } : LoginCall).held loginAdmissionLockID,
      lock ∈ c.held loginAdmissionLockID ∨ ¬ s.Locked loginAdmissionLockID lock) :
    LoginOk loginAdmissionLockID ({ s with records := records, log := log }.setStage i stage) := by
  have hget : ∀ j d, ({ s with records := records, log := log }.setStage i stage).calls[j]? =
      some d → j = i ∧ d = { c with stage := stage } ∨ j ≠ i ∧ s.calls[j]? = some d := by
    intro j d hj
    rw [setStage_get] at hj
    split_ifs at hj with hji
    · dsimp only at hj
      rw [hi] at hj
      exact .inl ⟨hji, (Option.some.inj hj).symm⟩
    · exact .inr ⟨hji, hj⟩
  -- What the call has taken no other holds.
  have hfree : ∀ j d, s.calls[j]? = some d → j ≠ i →
      ∀ lock ∈ ({ c with stage := stage } : LoginCall).held loginAdmissionLockID,
        lock ∉ d.held loginAdmissionLockID := by
    intro j d hj hji lock hlock hd
    rcases hheld lock hlock with hold | hnew
    · exact h.exclusive i j c d hi hj (Ne.symm hji) lock hold hd
    · exact hnew ⟨d, List.mem_of_getElem? hj, hd⟩
  refine ⟨htold, fun j d hj => ?_, fun j k d e hj hk hjk lock hd he => ?_⟩
  · rcases hget j d hj with ⟨-, rfl⟩ | ⟨hji, hj⟩
    · exact hstage
    · exact hothers j d hj hji
  · rcases hget j d hj with ⟨hji, rfl⟩ | ⟨hji, hj'⟩ <;>
      rcases hget k e hk with ⟨hki, rfl⟩ | ⟨hki, hk'⟩
    · exact hjk (hji.trans hki.symm)
    · exact hfree k e hk' hki lock hd he
    · exact hfree j d hj' hji lock he hd
    · exact h.exclusive j k d e hj' hk' hjk lock hd he

/-- A call goes on and the rows stay as they are. -/
theorem LoginOk.move (h : LoginOk loginAdmissionLockID s) (hi : s.calls[i]? = some c)
    {stage : LoginStage}
    (hstage : StageOk loginAdmissionLockID s.records { c with stage := stage })
    (hheld : ∀ lock ∈ ({ c with stage := stage } : LoginCall).held loginAdmissionLockID,
      lock ∈ c.held loginAdmissionLockID ∨ ¬ s.Locked loginAdmissionLockID lock) :
    LoginOk loginAdmissionLockID (s.setStage i stage) :=
  h.go hi h.told hstage (fun j d hj _ => h.stages j d hj) hheld

theorem apply_map (f : String → Option LoginFailureRecord) (key : String) :
    ∀ (keys : List String) (records : String → Option LoginFailureRecord),
      Changes.apply (keys.map fun key => (key, f key)) records key =
        if key ∈ keys then f key else records key
  | [], records => by simp [Changes.apply]
  | k :: keys, records => by
    have hrest := apply_map f key keys (Function.update records k (f k))
    rw [List.map_cons]
    refine hrest.trans ?_
    by_cases hk : key = k
    · subst hk
      simp
    · simp [hk]

/-- A cleanup leaves alone what a transaction has changed. -/
theorem cleanup_undisturbed {now : Time} (hblocked : ¬ s.Blocked now) {d : LoginCall}
    (hd : d ∈ s.calls) : Undisturbed s.records (s.cleanup now).records d := by
  intro key _
  unfold LoginSystem.cleanup
  dsimp only
  split_ifs with hexpired
  · exact .inr ⟨rfl, fun hkey => hblocked ⟨d, hd, key, hkey, hexpired⟩⟩
  · exact .inl rfl

theorem cleanup_told (h : LoginOk loginAdmissionLockID s) (now : Time) (key : String) :
    (s.cleanup now).records key = failureRecord key (s.cleanup now).log := by
  unfold LoginSystem.cleanup failureRecord
  dsimp only
  rw [h.told key]

theorem cleanup_ok (h : LoginOk loginAdmissionLockID s) {now : Time} (hblocked : ¬ s.Blocked now) :
    LoginOk loginAdmissionLockID (s.cleanup now) :=
  ⟨cleanup_told h now,
    fun i c hi => (h.stages i c hi).undisturbed
      (cleanup_undisturbed hblocked (List.mem_of_getElem? hi)),
    h.exclusive⟩

/-- The rows of a call that is past its second look are those it has left to the others. -/
theorem commit_undisturbed (h : LoginOk loginAdmissionLockID s) (hi : s.calls[i]? = some c)
    (hheld : c.held loginAdmissionLockID = c.locks loginAdmissionLockID)
    (f : String → Option LoginFailureRecord) {j : ℕ} {d : LoginCall} (hj : s.calls[j]? = some d)
    (hji : j ≠ i) (hd : d.held loginAdmissionLockID = d.locks loginAdmissionLockID) :
    Undisturbed s.records (Changes.apply (c.keys.map fun key => (key, f key)) s.records) d := by
  intro key hkey
  have hnot : key ∉ c.keys := by
    intro hc
    obtain ⟨lock, hlock, hlock'⟩ := shared_lock loginAdmissionLockID hc hkey
    rw [← hheld] at hlock
    rw [← hd] at hlock'
    exact h.exclusive i j c d hi hj (Ne.symm hji) lock hlock hlock'
  rw [apply_map, if_neg hnot]
  exact .inl rfl

theorem commit_ok (h : LoginOk loginAdmissionLockID s) (hi : s.calls[i]? = some c)
    {passed : Bool} {changes : Changes} (hstage : c.stage = .committing passed changes) :
    LoginOk loginAdmissionLockID ((s.commit i c passed changes).setStage i
      (if passed then .storing else .answered .invalidCredentials)) := by
  have hok := h.stages i c hi
  have hheld : c.held loginAdmissionLockID = c.locks loginAdmissionLockID := by
    simp only [LoginCall.held, hstage]
  unfold StageOk at hok
  have hothers : ∀ f : String → Option LoginFailureRecord, ∀ j d, s.calls[j]? = some d → j ≠ i →
      StageOk loginAdmissionLockID
        (Changes.apply (c.keys.map fun key => (key, f key)) s.records) d := fun f j d hj hji =>
    (h.stages j d hj).locked (commit_undisturbed h hi hheld f hj hji)
  cases passed <;> simp only [hstage] at hok <;> obtain ⟨-, rfl⟩ := hok
  · refine h.go hi (fun key => ?_) (by simp [StageOk]) (hothers _) (by simp [LoginCall.held])
    unfold counted
    rw [apply_map fun key => some (upsertLoginFailure (s.records key) c.now), h.told key]
    rfl
  · refine h.go hi (fun key => ?_) (by simp [StageOk]) (hothers _) (by simp [LoginCall.held])
    rw [apply_map fun _ => none, h.told key]
    rfl

/-- The statements of a login, one case for each. -/
theorem advance_ok (h : LoginOk loginAdmissionLockID s) (hi : s.calls[i]? = some c)
    (passed : Bool) : LoginOk loginAdmissionLockID (s.advance loginAdmissionLockID i c passed) := by
  have hok := h.stages i c hi
  unfold StageOk at hok
  unfold LoginSystem.advance
  rcases hstage : c.stage with _ | keys | _ | ⟨passed, held, wanted⟩ | ⟨passed, keys⟩ |
    ⟨keys, changes⟩ | _ | ⟨passed, changes⟩ | _ | result <;> simp only [hstage] at hok ⊢
  case cleaning =>
    split_ifs with hblocked
    · exact h
    · exact (cleanup_ok h hblocked).move (c := c) hi (by simp [StageOk]) (by simp [LoginCall.held])
  case checking =>
    rcases keys with _ | ⟨key, keys⟩
    · exact h.move hi (by simp [StageOk]) (by simp [LoginCall.held])
    · dsimp only
      split_ifs
      · exact h.move hi (by simp [StageOk]) (by simp [LoginCall.held])
      · exact h.move hi (by simp [StageOk]) (by simp [LoginCall.held])
  case verifying =>
    exact h.move hi (by simp [StageOk, LoginCall.locks]) (by simp [LoginCall.held])
  case locking =>
    rcases wanted with _ | ⟨lock, wanted⟩
    · refine h.move hi (fun key hkey => .inl hkey) fun lock hlock => .inl ?_
      rw [List.append_nil] at hok
      simp only [LoginCall.held, hstage, hok]
      exact hlock
    · dsimp only
      split_ifs with hlocked
      · exact h
      · refine h.move hi ?_ fun l hl => ?_
        · unfold StageOk
          dsimp only
          rw [List.append_assoc]
          exact hok
        · simp only [LoginCall.held, List.mem_append, List.mem_singleton] at hl
          rcases hl with hl | rfl
          · simp only [LoginCall.held, hstage]
            exact .inl hl
          · exact .inr hlocked
  case lockedChecking =>
    have hheld : c.held loginAdmissionLockID = c.locks loginAdmissionLockID := by
      simp only [LoginCall.held, hstage]
    rcases keys with _ | ⟨key, keys⟩
    · have hfree : Admissible s.records c := fun key hkey => by simpa using hok key hkey
      dsimp only
      split_ifs
      · exact h.move hi hfree fun lock hlock => .inl (by rw [hheld]; exact hlock)
      · exact h.move hi ⟨hfree, [], by simp [LoginCall.keys], rfl⟩ fun lock hlock =>
          .inl (by rw [hheld]; exact hlock)
    · dsimp only
      split_ifs with hthrottled
      · exact h.move hi (by simp [StageOk]) (by simp [LoginCall.held])
      · refine h.move hi (fun k hk => ?_) fun lock hlock => .inl (by rw [hheld]; exact hlock)
        rcases hok k hk with hleft | hfree
        · rcases List.mem_cons.1 hleft with rfl | hleft
          · exact .inr hthrottled
          · exact .inl hleft
        · exact .inr hfree
  case recording =>
    have hheld : c.held loginAdmissionLockID = c.locks loginAdmissionLockID := by
      simp only [LoginCall.held, hstage]
    obtain ⟨hfree, done, hdone, hchanges⟩ := hok
    rcases keys with _ | ⟨key, keys⟩
    · rw [List.append_nil] at hdone
      rw [hdone] at hchanges
      exact h.move hi ⟨hfree, hchanges⟩ fun lock hlock => .inl (by rw [hheld]; exact hlock)
    · dsimp only
      split_ifs
      · exact h
      · refine h.move hi ⟨hfree, done ++ [key], ?_, ?_⟩ fun lock hlock =>
          .inl (by rw [hheld]; exact hlock)
        · rw [List.append_assoc]
          exact hdone
        · unfold counted
          rw [List.map_append, hchanges]
          rfl
  case clearing =>
    have hheld : c.held loginAdmissionLockID = c.locks loginAdmissionLockID := by
      simp only [LoginCall.held, hstage]
    split_ifs
    · exact h
    · exact h.move hi ⟨hok, rfl⟩ fun lock hlock => .inl (by rw [hheld]; exact hlock)
  case committing => exact commit_ok h hi hstage
  case storing => exact h.move hi (by simp [StageOk]) (by simp [LoginCall.held])
  case answered => exact h

theorem begin_ok (h : LoginOk loginAdmissionLockID s) (username password ip : String)
    (now : Time) : LoginOk loginAdmissionLockID (s.begin username password ip now) := by
  have hget : ∀ (j : ℕ) (d : LoginCall), (s.begin username password ip now).calls[j]? = some d →
      s.calls[j]? = some d ∨ d.held loginAdmissionLockID = [] ∧
        StageOk loginAdmissionLockID s.records d := by
    intro j d hj
    unfold LoginSystem.begin at hj
    dsimp only at hj
    rw [List.getElem?_append] at hj
    split_ifs at hj with hlt hempty
    · exact .inl hj
    all_goals
      rw [List.getElem?_singleton] at hj
      split_ifs at hj
      cases hj
      exact .inr ⟨rfl, trivial⟩
  refine ⟨h.told, fun j d hj => ?_, fun j k d e hj hk hjk lock hd he => ?_⟩
  · rcases hget j d hj with hj | ⟨-, hok⟩
    · exact h.stages j d hj
    · exact hok
  · rcases hget j d hj with hj | ⟨hnone, -⟩
    · rcases hget k e hk with hk | ⟨hnone, -⟩
      · exact h.exclusive j k d e hj hk hjk lock hd he
      · simp [hnone] at he
    · simp [hnone] at hd

theorem step_ok (h : LoginOk loginAdmissionLockID s) (step : LoginStep) :
    LoginOk loginAdmissionLockID (step.run loginAdmissionLockID s) := by
  cases step with
  | begin username password ip now => exact begin_ok h username password ip now
  | proceed call passed error =>
    unfold LoginStep.run LoginSystem.proceed
    dsimp only
    split
    · exact h
    · rename_i c hi
      split_ifs
      · unfold LoginSystem.fail
        split
        · exact h
        · exact h.move hi (by simp [StageOk]) (by simp [LoginCall.held])
      · exact advance_ok h hi passed
  | cleanup now =>
    unfold LoginStep.run
    dsimp only
    split_ifs with hblocked
    · exact h
    · exact cleanup_ok h hblocked

theorem LoginReachable.ok {s : LoginSystem} (h : LoginReachable loginAdmissionLockID s) :
    LoginOk loginAdmissionLockID s := by
  induction h with
  | new => exact ⟨fun _ => rfl, by simp [LoginSystem.new], by simp [LoginSystem.new]⟩
  | step step _ ih => exact step_ok ih step

end Holding

def LoginEvent.call : LoginEvent → Option ℕ
  | .cleaned _ => none
  | .rejected call _ _ | .admitted call _ _ => some call

section Answers

/-- What is answered has happened, and to each call at most once. -/
structure Answers (calls : List LoginCall) (log : List LoginEvent) : Prop where
  session : ∀ (i : ℕ) (c : LoginCall), calls[i]? = some c →
    c.stage = .storing ∨ c.stage = .answered .session → .admitted i c.keys c.now ∈ log
  invalid : ∀ (i : ℕ) (c : LoginCall), calls[i]? = some c →
    c.stage = .answered .invalidCredentials →
      c.username = "" ∨ c.password = "" ∨ .rejected i c.keys c.now ∈ log
  rejected : ∀ (i : ℕ) (keys : List String) (now : Time), .rejected i keys now ∈ log →
    ∃ c, calls[i]? = some c ∧ c.stage = .answered .invalidCredentials ∧ c.keys = keys ∧ c.now = now
  admitted : ∀ (i : ℕ) (keys : List String) (now : Time), .admitted i keys now ∈ log →
    ∃ c, calls[i]? = some c ∧ (c.stage = .storing ∨ ∃ result, c.stage = .answered result) ∧
      c.keys = keys ∧ c.now = now
  once : (log.filterMap LoginEvent.call).Nodup

variable {loginAdmissionLockID : String → ℤ} {s : LoginSystem} {i : ℕ} {c : LoginCall}

/-- A call goes on to a stage at which nothing is answered that was not before. -/
theorem Answers.move (h : Answers s.calls s.log) (hi : s.calls[i]? = some c) {stage : LoginStage}
    (hopen : ∀ result, c.stage ≠ .answered result)
    (hsession : stage = .storing ∨ stage = .answered .session → c.stage = .storing)
    (hinvalid : stage ≠ .answered .invalidCredentials)
    (hlast : c.stage = .storing → ∃ result, stage = .answered result) :
    Answers (s.setStage i stage).calls s.log := by
  have hget : ∀ j d, (s.setStage i stage).calls[j]? = some d →
      j = i ∧ d = { c with stage := stage } ∨ s.calls[j]? = some d := by
    intro j d hj
    rw [setStage_get] at hj
    split_ifs at hj with hji
    · rw [hi] at hj
      exact .inl ⟨hji, (Option.some.inj hj).symm⟩
    · exact .inr hj
  refine ⟨fun j d hj hd => ?_, fun j d hj hd => ?_, fun j keys now hj => ?_,
    fun j keys now hj => ?_, h.once⟩
  · rcases hget j d hj with ⟨rfl, rfl⟩ | hj
    · exact h.session j c hi (.inl (hsession hd))
    · exact h.session j d hj hd
  · rcases hget j d hj with ⟨rfl, rfl⟩ | hj
    · exact absurd hd hinvalid
    · exact h.invalid j d hj hd
  · obtain ⟨d, hj, hd, hkeys⟩ := h.rejected j keys now hj
    refine ⟨d, ?_, hd, hkeys⟩
    have hji : j ≠ i := by
      rintro rfl
      rw [hi] at hj
      cases hj
      exact hopen _ hd
    rw [setStage_get, if_neg hji]
    exact hj
  · obtain ⟨d, hj, hd, hkeys⟩ := h.admitted j keys now hj
    by_cases hji : j = i
    · subst hji
      rw [hi] at hj
      cases hj
      refine ⟨{ c with stage := stage }, ?_, .inr (hlast ?_), hkeys⟩
      · rw [setStage_get, if_pos rfl, hi]
        rfl
      · exact hd.resolve_right fun ⟨result, hresult⟩ => hopen result hresult
    · refine ⟨d, ?_, hd, hkeys⟩
      rw [setStage_get, if_neg hji]
      exact hj

theorem Answers.clean (h : Answers s.calls s.log) (now : Time) :
    Answers s.calls (.cleaned now :: s.log) := by
  refine ⟨fun j d hj hd => List.mem_cons_of_mem _ (h.session j d hj hd), fun j d hj hd => ?_,
    fun j keys now hj => ?_, fun j keys now hj => ?_, h.once⟩
  · rcases h.invalid j d hj hd with hempty | hempty | hmem
    · exact .inl hempty
    · exact .inr (.inl hempty)
    · exact .inr (.inr (List.mem_cons_of_mem _ hmem))
  · exact h.rejected j keys now (by simpa using hj)
  · exact h.admitted j keys now (by simpa using hj)

/-- A call that commits has not been answered before. -/
theorem Answers.fresh (h : Answers s.calls s.log) (hi : s.calls[i]? = some c) {passed : Bool}
    {changes : Changes} (hstage : c.stage = .committing passed changes) :
    i ∉ s.log.filterMap LoginEvent.call := by
  intro hmem
  obtain ⟨e, he, hcall⟩ := List.mem_filterMap.1 hmem
  rcases e with now | ⟨j, keys, now⟩ | ⟨j, keys, now⟩ <;> simp only [LoginEvent.call] at hcall
  · cases hcall
  · cases hcall
    obtain ⟨d, hj, hd, -⟩ := h.rejected i keys now he
    rw [hi] at hj
    cases hj
    rw [hstage] at hd
    cases hd
  · cases hcall
    obtain ⟨d, hj, hd, -⟩ := h.admitted i keys now he
    rw [hi] at hj
    cases hj
    rw [hstage] at hd
    rcases hd with hd | ⟨result, hd⟩ <;> cases hd

theorem Answers.commit (h : Answers s.calls s.log) (hi : s.calls[i]? = some c) {passed : Bool}
    {changes : Changes} (hstage : c.stage = .committing passed changes) :
    Answers ((s.commit i c passed changes).setStage i
        (if passed then .storing else .answered .invalidCredentials)).calls
      (s.commit i c passed changes).log := by
  obtain ⟨stage, hnext⟩ : ∃ stage : LoginStage,
    stage = if passed then .storing else .answered .invalidCredentials := ⟨_, rfl⟩
  obtain ⟨e, he⟩ : ∃ e : LoginEvent,
    e = if passed then .admitted i c.keys c.now else .rejected i c.keys c.now := ⟨_, rfl⟩
  have hgot : ((s.commit i c passed changes).setStage i stage).calls[i]? =
      some { c with stage := stage } := by
    rw [setStage_get, if_pos rfl]
    show (s.calls[i]?).map _ = _
    rw [hi]
    rfl
  have hkept : ∀ j, j ≠ i →
      ((s.commit i c passed changes).setStage i stage).calls[j]? = s.calls[j]? := by
    intro j hji
    rw [setStage_get, if_neg hji]
    rfl
  have hother : ∀ (j : ℕ) (d : LoginCall), s.calls[j]? = some d →
      (d.stage = .storing ∨ ∃ result, d.stage = .answered result) → j ≠ i := by
    rintro j d hj hd rfl
    rw [hi] at hj
    cases hj
    rw [hstage] at hd
    rcases hd with hd | ⟨result, hd⟩ <;> cases hd
  show Answers _ ((if passed then .admitted i c.keys c.now else .rejected i c.keys c.now) :: s.log)
  rw [← hnext, ← he]
  refine ⟨fun j d hj hd => ?_, fun j d hj hd => ?_, fun j keys now hj => ?_,
    fun j keys now hj => ?_, ?_⟩
  · by_cases hji : j = i
    · subst hji
      rw [hgot] at hj
      cases hj
      rw [hnext] at hd
      cases passed
      · simp at hd
      · rw [he]
        exact List.mem_cons_self
    · rw [hkept j hji] at hj
      exact List.mem_cons_of_mem _ (h.session j d hj hd)
  · by_cases hji : j = i
    · subst hji
      rw [hgot] at hj
      cases hj
      rw [hnext] at hd
      cases passed
      · rw [he]
        exact .inr (.inr List.mem_cons_self)
      · simp at hd
    · rw [hkept j hji] at hj
      rcases h.invalid j d hj hd with hempty | hempty | hmem
      · exact .inl hempty
      · exact .inr (.inl hempty)
      · exact .inr (.inr (List.mem_cons_of_mem _ hmem))
  · rcases List.mem_cons.1 hj with hnew | hj
    · cases passed <;> rw [he] at hnew <;> simp only [if_true, Bool.false_eq_true, if_false] at hnew
      · cases hnew
        exact ⟨_, hgot, by simp [hnext], rfl, rfl⟩
      · cases hnew
    · obtain ⟨d, hj, hd, hkeys⟩ := h.rejected j keys now hj
      exact ⟨d, by rw [hkept j (hother j d hj (.inr ⟨_, hd⟩))]; exact hj, hd, hkeys⟩
  · rcases List.mem_cons.1 hj with hnew | hj
    · cases passed <;> rw [he] at hnew <;> simp only [if_true, Bool.false_eq_true, if_false] at hnew
      · cases hnew
      · cases hnew
        exact ⟨_, hgot, .inl (by simp [hnext]), rfl, rfl⟩
    · obtain ⟨d, hj, hd, hkeys⟩ := h.admitted j keys now hj
      exact ⟨d, by rw [hkept j (hother j d hj hd)]; exact hj, hd, hkeys⟩
  · have hfresh := h.fresh hi hstage
    have hcall : e.call = some i := by
      cases passed <;> rw [he] <;> rfl
    rw [List.filterMap_cons, hcall]
    exact List.nodup_cons.2 ⟨hfresh, h.once⟩

theorem Answers.advance (h : Answers s.calls s.log) (hi : s.calls[i]? = some c) (passed : Bool) :
    Answers (s.advance loginAdmissionLockID i c passed).calls
      (s.advance loginAdmissionLockID i c passed).log := by
  unfold LoginSystem.advance
  rcases hstage : c.stage with _ | keys | _ | ⟨passed, held, wanted⟩ | ⟨passed, keys⟩ |
    ⟨keys, changes⟩ | _ | ⟨passed, changes⟩ | _ | result
  case cleaning =>
    dsimp only
    split_ifs
    · exact h
    · exact (h.clean c.now).move (s := s.cleanup c.now) hi (by simp [hstage]) (by simp) (by simp)
        (by simp [hstage])
  case checking =>
    rcases keys with _ | ⟨key, keys⟩ <;> dsimp only
    · exact h.move hi (by simp [hstage]) (by simp) (by simp) (by simp [hstage])
    · split_ifs <;> exact h.move hi (by simp [hstage]) (by simp) (by simp) (by simp [hstage])
  case verifying => exact h.move hi (by simp [hstage]) (by simp) (by simp) (by simp [hstage])
  case locking =>
    rcases wanted with _ | ⟨lock, wanted⟩ <;> dsimp only
    · exact h.move hi (by simp [hstage]) (by simp) (by simp) (by simp [hstage])
    · split_ifs
      · exact h
      · exact h.move hi (by simp [hstage]) (by simp) (by simp) (by simp [hstage])
  case lockedChecking =>
    rcases keys with _ | ⟨key, keys⟩ <;> dsimp only <;> split_ifs <;>
      exact h.move hi (by simp [hstage]) (by simp) (by simp) (by simp [hstage])
  case recording =>
    rcases keys with _ | ⟨key, keys⟩ <;> dsimp only
    · exact h.move hi (by simp [hstage]) (by simp) (by simp) (by simp [hstage])
    · split_ifs
      · exact h
      · exact h.move hi (by simp [hstage]) (by simp) (by simp) (by simp [hstage])
  case clearing =>
    dsimp only
    split_ifs
    · exact h
    · exact h.move hi (by simp [hstage]) (by simp) (by simp) (by simp [hstage])
  case committing => exact h.commit hi hstage
  case storing => exact h.move hi (by simp [hstage]) (fun _ => hstage) (by simp) (by simp)
  case answered => exact h

theorem Answers.begin (h : Answers s.calls s.log) (username password ip : String) (now : Time) :
    Answers (s.begin username password ip now).calls s.log := by
  have hold : ∀ (j : ℕ) (d : LoginCall), s.calls[j]? = some d →
      (s.begin username password ip now).calls[j]? = some d := by
    intro j d hj
    unfold LoginSystem.begin
    dsimp only
    rw [List.getElem?_append_left (List.getElem?_eq_some_iff.1 hj).1]
    exact hj
  have hget : ∀ (j : ℕ) (d : LoginCall), (s.begin username password ip now).calls[j]? = some d →
      s.calls[j]? = some d ∨ d.stage = .cleaning ∨
        d.stage = .answered .invalidCredentials ∧ (d.username = "" ∨ d.password = "") := by
    intro j d hj
    unfold LoginSystem.begin at hj
    dsimp only at hj
    rw [List.getElem?_append] at hj
    split_ifs at hj with hlt hempty
    · exact .inl hj
    all_goals
      rw [List.getElem?_singleton] at hj
      split_ifs at hj
      cases hj
    · exact .inr (.inr ⟨rfl, hempty⟩)
    · exact .inr (.inl rfl)
  refine ⟨fun j d hj hd => ?_, fun j d hj hd => ?_, fun j keys now hj => ?_,
    fun j keys now hj => ?_, h.once⟩
  · rcases hget j d hj with hj | hstage | ⟨hstage, -⟩
    · exact h.session j d hj hd
    all_goals simp [hstage] at hd
  · rcases hget j d hj with hj | hstage | ⟨-, hempty⟩
    · exact h.invalid j d hj hd
    · simp [hstage] at hd
    · rcases hempty with hempty | hempty
      · exact .inl hempty
      · exact .inr (.inl hempty)
  · obtain ⟨d, hj, hrest⟩ := h.rejected j keys now hj
    exact ⟨d, hold j d hj, hrest⟩
  · obtain ⟨d, hj, hrest⟩ := h.admitted j keys now hj
    exact ⟨d, hold j d hj, hrest⟩

theorem step_answers (h : Answers s.calls s.log) (step : LoginStep) :
    Answers (step.run loginAdmissionLockID s).calls (step.run loginAdmissionLockID s).log := by
  cases step with
  | begin username password ip now => exact h.begin username password ip now
  | proceed call passed error =>
    unfold LoginStep.run LoginSystem.proceed
    dsimp only
    split
    · exact h
    · rename_i c hi
      split_ifs
      · unfold LoginSystem.fail
        split
        · exact h
        · rename_i hopen
          exact h.move hi hopen (by simp) (by simp) (by simp)
      · exact h.advance hi passed
  | cleanup now =>
    unfold LoginStep.run
    dsimp only
    split_ifs
    · exact h
    · exact h.clean now

theorem LoginReachable.answers {s : LoginSystem} (h : LoginReachable loginAdmissionLockID s) :
    Answers s.calls s.log := by
  induction h with
  | new => exact ⟨by simp [LoginSystem.new], by simp [LoginSystem.new], by simp [LoginSystem.new],
      by simp [LoginSystem.new], by simp [LoginSystem.new]⟩
  | step step _ ih => exact step_answers ih step

end Answers

section Counting

/-- The rejection makes a new record: there was none, or one that had expired. -/
def Opens (key : String) (first : LoginEvent) (earlier : List LoginEvent) : Prop :=
  first.Rejects key ∧
    (failureRecord key earlier = none ∨ Expired (failureRecord key earlier) first.now)

/-- The record that the first rejection made is still there: it is not cleared, and neither a
cleanup nor a rejection finds it expired. -/
def Keeps (key : String) (first : LoginEvent) : LoginEvent → Prop
  | .cleaned now => now < first.now + loginWindow
  | .rejected _ keys now => key ∈ keys → now < first.now + loginWindow
  | .admitted _ keys _ => key ∉ keys

variable {key : String}

@[simp]
theorem rejects_cleaned (now : Time) : ¬ (LoginEvent.cleaned now).Rejects key := id

@[simp]
theorem rejects_rejected (i : ℕ) (keys : List String) (now : Time) :
    (LoginEvent.rejected i keys now).Rejects key ↔ key ∈ keys := Iff.rfl

@[simp]
theorem rejects_admitted (i : ℕ) (keys : List String) (now : Time) :
    ¬ (LoginEvent.admitted i keys now).Rejects key := id

theorem upsert_open {record : Option LoginFailureRecord} {now : Time}
    (h : record = none ∨ Expired record now) :
    upsertLoginFailure record now = ⟨1, now + loginWindow⟩ := by
  rcases h with rfl | ⟨r, rfl, hr⟩
  · rfl
  · unfold upsertLoginFailure
    dsimp only
    rw [if_pos hr]

theorem upsert_kept {r : LoginFailureRecord} {now : Time} (h : now < r.resetAt) :
    upsertLoginFailure (some r) now = ⟨r.count + 1, r.resetAt⟩ := by
  unfold upsertLoginFailure
  dsimp only
  rw [if_neg (not_le.2 h)]

theorem record_kept {first : LoginEvent} {earlier : List LoginEvent}
    (hopens : Opens key first earlier) : ∀ later : List LoginEvent,
    (∀ e ∈ later, Keeps key first e) →
      failureRecord key (later ++ first :: earlier) =
        some ⟨(later.countP fun e => e.Rejects key) + 1, first.now + loginWindow⟩
  | [], _ => by
    obtain ⟨hrejects, hnew⟩ := hopens
    rcases first with now | ⟨i, keys, now⟩ | ⟨i, keys, now⟩
    · cases hrejects
    · rw [List.nil_append]
      unfold failureRecord
      rw [if_pos (show key ∈ keys from hrejects)]
      exact congrArg some (upsert_open hnew)
    · cases hrejects
  | e :: later, hkeeps => by
    have hrest := record_kept hopens later fun e he => hkeeps e (List.mem_cons_of_mem _ he)
    have he : Keeps key first e := hkeeps e List.mem_cons_self
    rcases e with now | ⟨i, keys, now⟩ | ⟨i, keys, now⟩
    · simp only [List.cons_append, failureRecord, hrest]
      rw [if_neg]
      · simp
      · rintro ⟨r, hr, hle⟩
        cases hr
        exact absurd he (not_lt.2 hle)
    · simp only [List.cons_append, failureRecord, hrest]
      by_cases hkey : key ∈ keys
      · rw [if_pos hkey, upsert_kept (he hkey)]
        simp [hkey]
      · rw [if_neg hkey]
        simp [hkey]
    · simp only [List.cons_append, failureRecord, hrest]
      rw [if_neg he]
      simp

theorem kept_of_record : ∀ {log : List LoginEvent} {r : LoginFailureRecord},
    failureRecord key log = some r → ∃ later first earlier, log = later ++ first :: earlier ∧
      Opens key first earlier ∧ (∀ e ∈ later, Keeps key first e) ∧
      r = ⟨(later.countP fun e => e.Rejects key) + 1, first.now + loginWindow⟩
  | [], r, h => by cases h
  | e :: log, r, h => by
    -- An event that leaves the record as it is.
    have hquiet : ∀ {r₀ : LoginFailureRecord}, failureRecord key log = some r₀ →
        (∀ first : LoginEvent, r₀.resetAt = first.now + loginWindow → Keeps key first e) →
        r = (if e.Rejects key then ⟨r₀.count + 1, r₀.resetAt⟩ else r₀) →
        ∃ later first earlier, e :: log = later ++ first :: earlier ∧
          Opens key first earlier ∧ (∀ e ∈ later, Keeps key first e) ∧
          r = ⟨(later.countP fun e => e.Rejects key) + 1, first.now + loginWindow⟩ := by
      intro r₀ hlog hkeeps hr
      obtain ⟨later, first, earlier, rfl, hopens, hlater, rfl⟩ := kept_of_record hlog
      refine ⟨e :: later, first, earlier, rfl, hopens, fun e' he' => ?_, ?_⟩
      · rcases List.mem_cons.1 he' with rfl | he'
        · exact hkeeps first rfl
        · exact hlater e' he'
      · rw [hr, List.countP_cons]
        split_ifs with hrejects <;> simp_all
    rcases e with now | ⟨i, keys, now⟩ | ⟨i, keys, now⟩ <;> unfold failureRecord at h
    · split_ifs at h with hexpired
      refine hquiet h (fun first hfirst => ?_) (by simp)
      by_contra hnot
      refine hexpired ⟨r, h, ?_⟩
      rw [hfirst]
      exact not_lt.1 hnot
    · split_ifs at h with hkey
      · by_cases hnew : failureRecord key log = none ∨ Expired (failureRecord key log) now
        · rw [upsert_open hnew] at h
          cases h
          exact ⟨[], .rejected i keys now, log, rfl, ⟨hkey, hnew⟩, by simp, rfl⟩
        · rcases hlog : failureRecord key log with _ | r₀
          · exact absurd (.inl hlog) hnew
          · have hlt : now < r₀.resetAt := by
              by_contra hnot
              exact hnew (.inr ⟨r₀, hlog, not_lt.1 hnot⟩)
            rw [hlog, upsert_kept hlt] at h
            cases h
            refine hquiet hlog (fun first hfirst _ => hfirst ▸ hlt) ?_
            rw [if_pos (show (LoginEvent.rejected i keys now).Rejects key from hkey)]
      · exact hquiet h (fun _ _ hmem => absurd hmem hkey) (by simp [hkey])
    · split_ifs at h with hkey
      exact hquiet h (fun _ _ => hkey) (by simp)

end Counting

section Throttling

variable {loginAdmissionLockID : String → ℤ} {s : LoginSystem}

/-- What a step does to the rows: nothing, a cleanup, or the commit of one call. -/
theorem step_cases (s : LoginSystem) (step : LoginStep) :
    ((step.run loginAdmissionLockID s).records = s.records ∧
        (step.run loginAdmissionLockID s).log = s.log) ∨
      (∃ now, (step.run loginAdmissionLockID s).records = (s.cleanup now).records ∧
        (step.run loginAdmissionLockID s).log = .cleaned now :: s.log) ∨
      ∃ i c passed changes, s.calls[i]? = some c ∧ c.stage = .committing passed changes ∧
        (step.run loginAdmissionLockID s).records = (s.commit i c passed changes).records ∧
        (step.run loginAdmissionLockID s).log = (s.commit i c passed changes).log := by
  cases step with
  | begin username password ip now => exact .inl ⟨rfl, rfl⟩
  | proceed call passed error =>
    unfold LoginStep.run LoginSystem.proceed
    dsimp only
    split
    · exact .inl ⟨rfl, rfl⟩
    · rename_i c hi
      split_ifs
      · unfold LoginSystem.fail
        split <;> exact .inl ⟨rfl, rfl⟩
      · unfold LoginSystem.advance
        split
        · split_ifs
          · exact .inl ⟨rfl, rfl⟩
          · exact .inr (.inl ⟨c.now, rfl, rfl⟩)
        case h_12 passed' changes hstage =>
          exact .inr (.inr ⟨call, c, passed', changes, hi, hstage, rfl, rfl⟩)
        all_goals first | exact .inl ⟨rfl, rfl⟩ | (split_ifs <;> exact .inl ⟨rfl, rfl⟩)
  | cleanup now =>
    unfold LoginStep.run
    dsimp only
    split_ifs
    · exact .inl ⟨rfl, rfl⟩
    · exact .inr (.inl ⟨now, rfl, rfl⟩)

/-- The stages past the second look. -/
def LoginStage.Decided : LoginStage → Prop
  | .recording _ _ | .clearing | .committing _ _ => True
  | _ => False

theorem decided_admissible (h : LoginOk loginAdmissionLockID s) {i : ℕ} {c : LoginCall}
    (hi : s.calls[i]? = some c) (hdecided : c.stage.Decided) : Admissible s.records c := by
  have hok := h.stages i c hi
  unfold StageOk at hok
  rcases hstage : c.stage with _ | _ | _ | _ | _ | ⟨keys, changes⟩ | _ | ⟨passed, changes⟩ | _ | _
    <;> simp only [hstage] at hok hdecided
  case recording => exact hok.1
  case clearing => exact hok
  case committing => cases passed <;> exact hok.1
  all_goals exact hdecided.elim

/-- A rejection of a call that is not barred counts up to the limit. -/
theorem upsert_count_le {record : Option LoginFailureRecord} {now : Time}
    (hfree : ¬ Throttled record now) : (upsertLoginFailure record now).count ≤ loginMaxFails := by
  rcases record with _ | r
  · simp [upsertLoginFailure, loginMaxFails]
  · unfold upsertLoginFailure
    dsimp only
    split_ifs with hexpired
    · simp [loginMaxFails]
    · have hlt : ¬ loginMaxFails ≤ r.count := fun hle =>
        hfree ⟨r, rfl, hle, not_le.1 hexpired⟩
      dsimp only
      omega

/-- What a commit leaves of a record. -/
theorem commit_record (h : LoginOk loginAdmissionLockID s) {i : ℕ} {c : LoginCall}
    (hi : s.calls[i]? = some c) {passed : Bool} {changes : Changes}
    (hstage : c.stage = .committing passed changes) (key : String) :
    (s.commit i c passed changes).records key =
      if key ∈ c.keys then
        if passed then none else some (upsertLoginFailure (s.records key) c.now)
      else s.records key := by
  have hok := h.stages i c hi
  unfold StageOk at hok
  cases passed <;> simp only [hstage] at hok <;> obtain ⟨-, rfl⟩ := hok
  · exact apply_map (fun key => some (upsertLoginFailure (s.records key) c.now)) key c.keys
      s.records
  · exact apply_map (fun _ => none) key c.keys s.records

theorem LoginReachable.count_le {s : LoginSystem} (h : LoginReachable loginAdmissionLockID s)
    {key : String} {r : LoginFailureRecord} (hr : s.records key = some r) :
    r.count ≤ loginMaxFails := by
  induction h generalizing r with
  | new => cases hr
  | @step s step h ih =>
    rcases @step_cases loginAdmissionLockID s step with
      ⟨hrecords, -⟩ | ⟨now, hrecords, -⟩ | ⟨i, c, passed, changes, hi, hstage, hrecords, -⟩
    · rw [hrecords] at hr
      exact ih hr
    · rw [hrecords] at hr
      unfold LoginSystem.cleanup at hr
      dsimp only at hr
      split_ifs at hr
      exact ih hr
    · rw [hrecords, commit_record h.ok hi hstage] at hr
      split_ifs at hr with hkey hpassed
      · cases hr
        exact upsert_count_le
          (decided_admissible h.ok hi (by simp [hstage, LoginStage.Decided]) key hkey)
      · exact ih hr

/-- Nothing is admitted or rejected while it is barred. -/
theorem decides_free (h : LoginOk loginAdmissionLockID s) {step : LoginStep} {e : LoginEvent}
    (hlog : (step.run loginAdmissionLockID s).log = e :: s.log) {key : String}
    (he : e.Rejects key ∨ e.Admits key) : ¬ Throttled (s.records key) e.now := by
  rcases @step_cases loginAdmissionLockID s step with
    ⟨-, hsame⟩ | ⟨now, -, hsame⟩ | ⟨i, c, passed, changes, hi, hstage, -, hsame⟩ <;>
    rw [hlog] at hsame
  · exact absurd hsame.symm (List.ne_cons_self)
  · cases hsame
    rcases he with he | he <;> exact he.elim
  · have hfree := decided_admissible h hi (by simp [hstage, LoginStage.Decided])
    unfold LoginSystem.commit at hsame
    cases passed <;> cases hsame
    · exact hfree key (he.resolve_right id)
    · exact hfree key (he.resolve_left id)

/-- A call waits for a lock that another holds. -/
def Waits (loginAdmissionLockID : String → ℤ) (s : LoginSystem) (i j : ℕ) : Prop :=
  ∃ c d passed held lock wanted, s.calls[i]? = some c ∧
    c.stage = .locking passed held (lock :: wanted) ∧ s.calls[j]? = some d ∧
    lock ∈ d.held loginAdmissionLockID

theorem waits_below (h : LoginOk loginAdmissionLockID s) (i j : ℕ)
    (hw : Waits loginAdmissionLockID s i j) :
    ∃ lock, (∃ c passed held wanted, s.calls[i]? = some c ∧
        c.stage = .locking passed held (lock :: wanted)) ∧
      ∀ lock', (∃ c passed held wanted, s.calls[j]? = some c ∧
        c.stage = .locking passed held (lock' :: wanted)) → lock < lock' := by
  obtain ⟨c, d, passed, held, lock, wanted, hi, hstage, hj, hlock⟩ := hw
  refine ⟨lock, ⟨c, passed, held, wanted, hi, hstage⟩, ?_⟩
  rintro lock' ⟨d', passed', held', wanted', hj', hstage'⟩
  rw [hj] at hj'
  cases hj'
  have hok := h.stages j d hj
  simp only [StageOk, hstage'] at hok
  simp only [LoginCall.held, hstage'] at hlock
  have hincreasing := locks_increasing loginAdmissionLockID d
  rw [← hok, List.pairwise_append] at hincreasing
  exact hincreasing.2.2 lock hlock lock' List.mem_cons_self

end Throttling

/-- Logins beside each other count every wrong guess, and no more than the limit. -/
theorem login_throttle (loginAdmissionLockID : String → ℤ) {s : LoginSystem}
    (h : LoginReachable loginAdmissionLockID s) :
    (∀ key, s.records key = failureRecord key s.log) ∧
    (∀ key r, s.records key = some r ↔ ∃ later first earlier, s.log = later ++ first :: earlier ∧
      Opens key first earlier ∧ (∀ e ∈ later, Keeps key first e) ∧
      r = ⟨(later.countP fun e => e.Rejects key) + 1, first.now + loginWindow⟩) ∧
    Answers s.calls s.log ∧
    (∀ key r, s.records key = some r → r.count ≤ loginMaxFails) ∧
    (∀ (i : ℕ) (c : LoginCall), s.calls[i]? = some c → c.stage.Decided →
      ∀ key ∈ c.keys, ¬ Throttled (s.records key) c.now) ∧
    (∀ (step : LoginStep) (e : LoginEvent) (key : String),
      (step.run loginAdmissionLockID s).log = e :: s.log → e.Rejects key ∨ e.Admits key →
        ¬ Throttled (s.records key) e.now) ∧
    (∀ (i : ℕ) (c : LoginCall), s.calls[i]? = some c →
      (c.locks loginAdmissionLockID).Pairwise (· < ·) ∧
        c.held loginAdmissionLockID <+: c.locks loginAdmissionLockID) ∧
    ∀ i, ¬ Relation.TransGen (Waits loginAdmissionLockID s) i i := by
  have hok := h.ok
  refine ⟨hok.told, fun key r => ⟨fun hr => ?_, ?_⟩, h.answers, fun key r => h.count_le,
    fun i c hi hdecided => decided_admissible hok hi hdecided,
    fun step e key hlog he => decides_free hok hlog he,
    fun i c hi => ⟨locks_increasing _ c, held_prefix (hok.stages i c hi)⟩,
    no_cycle (waits_below hok)⟩
  · rw [hok.told key] at hr
    exact kept_of_record hr
  · rintro ⟨later, first, earlier, hlog, hopens, hkeeps, rfl⟩
    rw [hok.told key, hlog]
    exact record_kept hopens later hkeeps

section Guessing

theorem LoginReachable.run {loginAdmissionLockID : String → ℤ} :
    ∀ (steps : List LoginStep) {s : LoginSystem}, LoginReachable loginAdmissionLockID s →
      LoginReachable loginAdmissionLockID (steps.foldl (LoginStep.run loginAdmissionLockID) s)
  | [], _, h => h
  | next :: steps, _, h => run steps (h.step next)

/-- A login with the right password, up to its session. -/
def rightGuess : List LoginStep :=
  .begin "root" "right" "" 0 :: List.replicate 10 (.proceed 0 true false)

def wrongGuess (i : ℕ) : List LoginStep :=
  .begin "root" "wrong" "" 0 :: List.replicate 11 (.proceed i false false)

def wrongGuesses : List LoginStep := (List.range 8).flatMap fun i => wrongGuess (i + 1)

/-- Eight wrong guesses come between the commit of a login and its session. -/
def guessed : LoginSystem :=
  (rightGuess ++ wrongGuesses).foldl (LoginStep.run fun _ => 0) .new

theorem guessed_reachable : LoginReachable (fun _ => 0) guessed :=
  LoginReachable.run (rightGuess ++ wrongGuesses) .new

theorem login_throttle_guessed :
    ∃ r, guessed.records "login_fail:user:root" = some r ∧ r.count ≤ loginMaxFails :=
  ⟨⟨8, loginWindow⟩, by decide +kernel,
    (login_throttle (fun _ => 0) guessed_reachable).2.2.2.1 "login_fail:user:root" _
      (by decide +kernel)⟩

/-- The session of a login that was admitted before comes while its username is barred. -/
theorem session_while_throttled :
    ¬ ∀ (loginAdmissionLockID : String → ℤ) (s : LoginSystem) (step : LoginStep) (i : ℕ)
        (c c' : LoginCall), LoginReachable loginAdmissionLockID s →
      (s.log.map LoginEvent.now).Pairwise (· ≥ ·) → s.calls[i]? = some c →
      (step.run loginAdmissionLockID s).calls[i]? = some c' → c.stage ≠ .answered .session →
      c'.stage = .answered .session → ∀ key ∈ c.keys, ¬ Throttled (s.records key) c.now := by
  intro h
  exact h (fun _ => 0) guessed (.proceed 0 true false) 0 ⟨"root", "right", "", 0, .storing⟩
    ⟨"root", "right", "", 0, .answered .session⟩ guessed_reachable (by decide +kernel)
    (by decide +kernel) (by decide +kernel) (by decide) rfl "login_fail:user:root"
    (by decide +kernel) (by decide +kernel)

end Guessing

end Atlas.Core.Admin
