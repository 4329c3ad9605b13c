import Atlas.Proofs.Outward

/-!
# The inbound half and its contracts

A contract on what a transport takes in speaks of its reassemblies, its settlements, the notes and
the time. It is checked against the handlers that change these; that the other handlers keep it,
and that it then holds whatever the listeners call, is shown here once.
-/

namespace Atlas.Link

open Handlers

variable {P : Parts}

/-- What a contract on the inbound half may speak of. -/
structure Intake where
  reassemblies : OrderedMap String Reassembly
  pendingInbound : OrderedMap String PendingInbound
  settledInbound : OrderedMap String SettledInbound
  notes : List Note
  stopped : Bool
  now : ℕ

def State.intake (s : State P) : Intake :=
  ⟨s.inbound.reassemblies, s.inbound.pendingInbound, s.inbound.settledInbound, s.notes, s.stopped,
    s.clock.now⟩

instance : OfView (State.intake : State P → Intake) :=
  ⟨fun v => ⟨v.inbound.reassemblies, v.inbound.pendingInbound, v.inbound.settledInbound, v.notes,
    v.stopped, v.now⟩, fun _ => rfl⟩

/-- An update of the inbound side that leaves the reassemblies and the settlements alone. -/
theorem modifyInbound_silent {f : Inbound P → Inbound P}
    (hr : ∀ i, (f i).reassemblies = i.reassemblies)
    (hp : ∀ i, (f i).pendingInbound = i.pendingInbound)
    (hs : ∀ i, (f i).settledInbound = i.settledInbound) :
    Silent State.intake (modifyInbound f) where
  silent s := by
    show State.intake { s with inbound := f s.inbound } = s.intake
    simp only [State.intake, hr, hp, hs]

instance (message : LinkMessage) (identity : FrameIdentity) :
    Silent State.intake (acceptTaskDeliverySequence message identity : Handler P _) := by
  unfold acceptTaskDeliverySequence
  split
  · refine .past fun i => ?_
    dsimp only
    have h : ∀ sequences, Silent State.intake
        (modifyInbound fun i : Inbound P => { i with taskDeliverySequences := sequences }) :=
      fun sequences => modifyInbound_silent (fun _ => rfl) (fun _ => rfl) (fun _ => rfl)
    infer_instance
  · infer_instance

instance (use : SourceUse) (source : LinkNode) (under : SourceFence) :
    Silent State.intake (noteFence use source under : Handler P Unit) := ⟨fun _ => rfl⟩

theorem modifyDecoder_silent (f : Inbound P → P.Decoder) :
    Silent State.intake (modifyInbound fun i : Inbound P => { i with stateDecoder := f i }) :=
  modifyInbound_silent (fun _ => rfl) (fun _ => rfl) (fun _ => rfl)

theorem modifyPicture_silent (f : Inbound P → Option P.Picture) :
    Silent State.intake (modifyInbound fun i : Inbound P => { i with picture := f i }) :=
  modifyInbound_silent (fun _ => rfl) (fun _ => rfl) (fun _ => rfl)

theorem modifyFences_silent (f : Inbound P → OrderedMap String SourceFence) :
    Silent State.intake (modifyInbound fun i : Inbound P => { i with sourceFences := f i }) :=
  modifyInbound_silent (fun _ => rfl) (fun _ => rfl) (fun _ => rfl)

instance (w : Wiring P) (identity : FrameIdentity) (bytes : Bytes) :
    Silent State.intake (decodeComplete w identity bytes) := by
  unfold decodeComplete
  split
  · infer_instance
  · split
    · refine .past fun i => ?_
      dsimp only
      have := modifyDecoder_silent (P := P)
      infer_instance
    · infer_instance

section Contract

variable (w : Wiring P) (C : Contract Intake) [hemit : ∀ event, Keeps State.intake C (emit w event)]

instance (source : LinkNode) (generation : ℕ) (session : String) :
    Keeps State.intake C (activateInPicture w source generation session) := by
  unfold activateInPicture
  refine .past fun i => ?_
  split
  · infer_instance
  · dsimp only
    have := modifyPicture_silent (P := P)
    infer_instance

instance (message : LinkMessage) (identity : FrameIdentity) :
    Keeps State.intake C (updatePicture w message identity) := by
  unfold updatePicture
  refine .past fun now => .past fun i => ?_
  split
  · infer_instance
  · have := modifyPicture_silent (P := P)
    exact .forM (fun publication => inferInstance) _

/-- The contract lets reassemblies be dropped. -/
class Discards (P : Parts) (C : Contract Intake) : Prop where
  discard : ∀ p : String × Reassembly → Bool, Keeps State.intake C
    (modifyInbound fun i : Inbound P => { i with reassemblies := i.reassemblies.filter p })

variable [hdiscard : Discards P C]

instance (source : LinkNode) (generation : ℕ) (session : String) :
    Keeps State.intake C (activateSourceFence w source generation session) := by
  unfold activateSourceFence
  have := modifyFences_silent (P := P)
  have := hdiscard.discard
  refine .past fun i => ?_
  split
  · infer_instance
  · split
    · refine .past fun accepted => ?_
      split
      · refine .past fun _ => .past fun _ => .past fun i => ?_
        have : Silent State.view (i.reassemblies.values.forM fun r =>
            (if supersededBy source generation session r then cancelTimer r.timer else pure () :
              Handler P Unit)) := .forM (fun r => inferInstance) _
        infer_instance
      · infer_instance
    · infer_instance

instance (message : ControlMessage) (identity : FrameIdentity) :
    Keeps State.intake C (handleControl w message identity) := by
  unfold handleControl
  split
  · infer_instance
  · split
    · refine .past fun o => ?_
      split <;> infer_instance
    · infer_instance
  · split
    · refine .past fun o => ?_
      split <;> infer_instance
    · infer_instance

instance (identity : FrameIdentity) : Keeps State.intake C (handleCompoundReceipt w identity) := by
  unfold handleCompoundReceipt
  split <;> infer_instance

instance (identity : FrameIdentity) (bytes : Bytes) :
    Keeps State.intake C (openMessage w identity bytes) := by
  unfold openMessage
  have := modifyDecoder_silent (P := P)
  refine .past fun decoded => ?_
  split
  · infer_instance
  · split
    · infer_instance
    · split
      · infer_instance
      · refine .past fun refused => ?_
        split
        · infer_instance
        · dsimp only
          split <;> infer_instance

instance (identity : FrameIdentity) (message : Option LinkMessage) :
    Keeps State.intake C (interceptControl w identity message) := by
  unfold interceptControl
  split <;> infer_instance

instance (source : LinkNode) (generation : ℕ) (session : String) :
    Keeps State.intake C (announceSourceActivation w source generation session) := by
  unfold announceSourceActivation
  split
  · infer_instance
  · refine .past fun refused => ?_
    split <;> infer_instance

/-- The handlers that change what the contract speaks of keep it. -/
class Upheld (w : Wiring P) (C : Contract Intake) : Prop where
  expireReassembly : ∀ key, Keeps State.intake C (expireReassembly w key)
  settleInbound : ∀ settlementID accepted reason,
    Keeps State.intake C (settleInbound w settlementID accepted reason)
  settleInboundWithTaskReport : ∀ settlementID report destination operationID,
    Keeps State.intake C (settleInboundWithTaskReport w settlementID report destination operationID)
  expirePendingInbound : ∀ settlementID, Keeps State.intake C (expirePendingInbound w settlementID)
  stop : ∀ reason, Keeps State.intake C (stop w reason)

variable [hupheld : Upheld w C]

instance call_keeps (call : Call P) : Keeps State.intake C (call.run w) := by
  have := hupheld.settleInbound
  have := hupheld.settleInboundWithTaskReport
  have := hupheld.stop
  have := modifyPicture_silent (P := P)
  cases call <;> unfold Call.run <;> infer_instance

instance (task : TimerTask) : Keeps State.intake C (fire w task) := by
  have := hupheld.expireReassembly
  have := hupheld.expirePendingInbound
  cases task <;> unfold fire <;> infer_instance

instance (handle : ℕ) : Keeps State.intake C (fireTimer w handle) := by
  unfold fireTimer
  refine .past fun s => ?_
  split <;> infer_instance

instance (reason : String) : Keeps State.intake C (handleRadioDisconnect w reason) := by
  have := hupheld.stop
  unfold handleRadioDisconnect
  infer_instance

/-- Every step keeps the invariant if a packet and the passing of time do. -/
theorem step_invariant {s : State P}
    (hpacket : ∀ packet, C.Inv s.intake → C.Inv (receive w packet s).2.intake)
    (helapse : ∀ v ms, C.Inv v → C.Inv { v with now := v.now + ms }) (step : Step P)
    (hs : C.Inv s.intake) : C.Inv (step.run w s).2.intake := by
  cases step with
  | call call => exact ((call_keeps w C call).keeps s hs).1
  | packet packet => exact hpacket packet hs
  | timer handle =>
    have h : Keeps State.intake C (fireTimer w handle) := inferInstance
    exact (h.keeps s hs).1
  | radioDone result =>
    have h : Keeps State.intake C (resumePump w result) := inferInstance
    exact (h.keeps s hs).1
  | disconnect reason =>
    have h : Keeps State.intake C (handleRadioDisconnect w reason) := inferInstance
    exact (h.keeps s hs).1
  | elapse ms => exact helapse s.intake ms hs

end Contract

/-- Listeners keep what the calls they make keep, however deep these nest. -/
theorem emit_wired {C : Contract Intake} {env : Env P}
    (hcall : ∀ w : Wiring P, w.toEnv = env → (∀ event, Keeps State.intake C (emit w event)) →
      ∀ call : Call P, Keeps State.intake C (call.run w))
    (listeners : Listeners P) (depth : ℕ) (event : Event) :
    Keeps State.intake C (emit (env.wired listeners depth) event) := by
  induction depth generalizing event with
  | zero => exact .modify fun s hs => ⟨hs, C.refl _⟩
  | succ depth ih =>
    have hrun := hcall (env.wired listeners depth) (by cases depth <;> rfl) ih
    have hfold : ∀ (calls : List (Call P)) (s : State P), C.Inv s.intake →
        C.Inv (calls.foldl (fun s call => (call.run (env.wired listeners depth) s).2) s).intake ∧
          C.Rel s.intake
            (calls.foldl (fun s call => (call.run (env.wired listeners depth) s).2) s).intake := by
      intro calls
      induction calls with
      | nil => exact fun s hs => ⟨hs, C.refl _⟩
      | cons call calls ihc =>
        intro s hs
        have h₁ := (hrun call).keeps s hs
        have h₂ := ihc _ h₁.1
        exact ⟨h₂.1, C.trans h₁.2 h₂.2⟩
    exact .modify fun s hs => hfold _ s hs

theorem Run.invariant {w : Wiring P} {Guard : State P → Step P → Prop} {Inv : State P → Prop}
    (hbegin : ∀ b : Beginning P, Inv b.state)
    (hstep : ∀ s step, Guard s step → Inv s → Inv (step.run w s).2) {s : State P}
    (h : Run w Guard s) : Inv s := by
  induction h with
  | begin b => exact hbegin b
  | step step _ hguard ih => exact hstep _ step hguard ih

end Atlas.Link
