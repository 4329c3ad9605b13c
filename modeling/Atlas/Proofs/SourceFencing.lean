import Atlas.Proofs.Inward

/-!
# Source fencing

The fence of a source only moves to a newer generation, and what is handed over or applied for a
source is of the fence's generation and session. Between the check of the fence and the use of the
message listeners are told of operation results and of changes of the picture; one that then
activates a newer generation moves the fence under the message. So the statement is about listeners
that do not.
-/

namespace Atlas.Link

open Handlers

variable {P : Parts}

/-- What a contract on source fences may speak of. -/
structure Fencing where
  fences : OrderedMap String SourceFence
  notes : List FenceNote

def State.fencing (s : State P) : Fencing := ⟨s.inbound.sourceFences, s.fenceNotes⟩

instance : OfView (State.fencing : State P → Fencing) :=
  ⟨fun v => ⟨v.inbound.sourceFences, v.fenceNotes⟩, fun _ => rfl⟩

/-- The fence is the same or of a newer generation. -/
def SourceFence.Later (f f' : SourceFence) : Prop := f' = f ∨ f.generation < f'.generation

theorem SourceFence.Later.trans {f f' f'' : SourceFence} (h : f.Later f') (h' : f'.Later f'') :
    f.Later f'' := by
  rcases h with rfl | h
  · exact h'
  · rcases h' with rfl | h'
    · exact .inr h
    · exact .inr (h.trans h')

/-- A fence is set for the first time, again, or to a newer generation; a message is handed over and
a publication applied under the fence of its source. -/
def FenceNote.Admissible (n : FenceNote) : Prop :=
  match n.use with
  | .fenced => ∀ f, n.fence = some f → f.Later n.under
  | .delivered | .applied => n.fence = some n.under

/-- What is done for a fenced source is done under its fence or a newer one. -/
theorem FenceNote.Admissible.later {n : FenceNote} {f : SourceFence} (h : n.Admissible)
    (hfence : n.fence = some f) : f.Later n.under := by
  unfold FenceNote.Admissible at h
  split at h
  · exact h f hfence
  · rw [hfence, Option.some.injEq] at h
    exact .inl h.symm
  · rw [hfence, Option.some.injEq] at h
    exact .inl h.symm

structure Fenced (v : Fencing) : Prop where
  size : v.fences.size ≤ linkSourceIdentityLimit
  notes : ∀ n ∈ v.notes, n.Admissible

/-- Fences only move to newer generations, and what is noted since was noted under such fences. -/
structure Moves (v v' : Fencing) : Prop where
  fences : ∀ key f, v.fences.get key = some f → ∃ f', v'.fences.get key = some f' ∧ f.Later f'
  notes : ∃ news, v'.notes = news ++ v.notes ∧ ∀ n ∈ news, ∀ f,
    v.fences.get (nodeKey n.source) = some f → ∃ f', n.fence = some f' ∧ f.Later f'

theorem Moves.refl (v : Fencing) : Moves v v :=
  ⟨fun _ f h => ⟨f, h, .inl rfl⟩, [], rfl, fun _ h => nomatch h⟩

theorem Moves.trans {v v' v'' : Fencing} (h : Moves v v') (h' : Moves v' v'') : Moves v v'' := by
  obtain ⟨news, hnews, hfence⟩ := h.notes
  obtain ⟨news', hnews', hfence'⟩ := h'.notes
  constructor
  · intro key f hget
    obtain ⟨f₁, hget₁, h₁⟩ := h.fences key f hget
    obtain ⟨f₂, hget₂, h₂⟩ := h'.fences key f₁ hget₁
    exact ⟨f₂, hget₂, h₁.trans h₂⟩
  · refine ⟨news' ++ news, by rw [hnews', hnews, List.append_assoc], fun n hn f hget => ?_⟩
    rcases List.mem_append.1 hn with hn | hn
    · obtain ⟨f₁, hget₁, h₁⟩ := h.fences _ f hget
      obtain ⟨f₂, hget₂, h₂⟩ := hfence' n hn f₁ hget₁
      exact ⟨f₂, hget₂, h₁.trans h₂⟩
    · exact hfence n hn f hget

def fenced : Contract Fencing where
  Inv := Fenced
  Rel := Moves
  refl := Moves.refl
  trans := Moves.trans

/-- Fences stay where they are. -/
structure Stays (v v' : Fencing) : Prop where
  fences : v'.fences = v.fences
  moves : Moves v v'

theorem Stays.refl (v : Fencing) : Stays v v := ⟨rfl, Moves.refl v⟩

theorem Stays.trans {v v' v'' : Fencing} (h : Stays v v') (h' : Stays v' v'') : Stays v v'' :=
  ⟨h'.fences.trans h.fences, h.moves.trans h'.moves⟩

def steady : Contract Fencing where
  Inv := Fenced
  Rel := Stays
  refl := Stays.refl
  trans := Stays.trans

/-- Fences stay where they are, that of one source at what is done under it. -/
def holding (source : LinkNode) (under : SourceFence) : Contract Fencing where
  Inv v := Fenced v ∧ v.fences.get (nodeKey source) = some under
  Rel := Stays
  refl := Stays.refl
  trans := Stays.trans

theorem holding_of_steady {α : Type} {m : Handler P α} {source : LinkNode} {under : SourceFence}
    (h : Keeps State.fencing steady m) : Keeps State.fencing (holding source under) m where
  keeps s hs := by
    obtain ⟨hinv, hrel⟩ := h.keeps s hs.1
    exact ⟨⟨hinv, by rw [hrel.fences]; exact hs.2⟩, hrel⟩

section Silent

theorem modifyInbound_fencing {f : Inbound P → Inbound P}
    (h : ∀ i, (f i).sourceFences = i.sourceFences) : Silent State.fencing (modifyInbound f) where
  silent s := by
    show State.fencing { s with inbound := f s.inbound } = s.fencing
    simp only [State.fencing, h]

instance (n : Note) : Silent State.fencing (note n : Handler P Unit) := ⟨fun _ => rfl⟩

instance : Silent State.fencing (pruneSettledInbound : Handler P Unit) := ⟨fun _ => rfl⟩

instance (settlementID : String) (outcome : SettlementOutcome) :
    Silent State.fencing (recordSettledInbound settlementID outcome : Handler P Unit) where
  silent s := by
    show (s.pruneSettledInbound.recordSettledInbound settlementID outcome).fencing = s.fencing
    unfold State.recordSettledInbound
    dsimp only
    split_ifs <;> rfl

instance (settlementID : String) :
    Silent State.fencing (releasePending settlementID : Handler P Unit) :=
  modifyInbound_fencing fun _ => rfl

instance (key : String) : Silent State.fencing (deleteReassembly key : Handler P Unit) :=
  modifyInbound_fencing fun _ => rfl

instance (key : String) (r : Reassembly) :
    Silent State.fencing (setReassembly key r : Handler P Unit) :=
  modifyInbound_fencing fun _ => rfl

instance (message : LinkMessage) (identity : FrameIdentity) :
    Silent State.fencing (acceptTaskDeliverySequence message identity : Handler P _) := by
  unfold acceptTaskDeliverySequence
  split
  · refine .past fun i => ?_
    dsimp only
    have h : ∀ sequences, Silent State.fencing
        (modifyInbound fun i : Inbound P => { i with taskDeliverySequences := sequences }) :=
      fun sequences => modifyInbound_fencing fun _ => rfl
    infer_instance
  · infer_instance

variable (w : Wiring P)

instance (identity : FrameIdentity) (bytes : Bytes) :
    Silent State.fencing (decodeComplete w identity bytes) := by
  unfold decodeComplete
  split
  · infer_instance
  · split
    · refine .past fun i => ?_
      dsimp only
      have h : ∀ f : Inbound P → P.Decoder, Silent State.fencing
          (modifyInbound fun i : Inbound P => { i with stateDecoder := f i }) :=
        fun f => modifyInbound_fencing fun _ => rfl
      infer_instance
    · infer_instance

instance (message : LinkMessage) (identity : FrameIdentity) (radioPacketID : Option ℕ) :
    Silent State.fencing (admitPending w message identity radioPacketID) := by
  unfold admitPending
  have h : ∀ f : Inbound P → OrderedMap String PendingInbound, Silent State.fencing
      (modifyInbound fun i : Inbound P => { i with pendingInbound := f i }) :=
    fun f => modifyInbound_fencing fun _ => rfl
  infer_instance

instance : Silent State.fencing (makeReassemblyRoom w) := by
  unfold makeReassemblyRoom
  refine .past fun i => ?_
  split
  · infer_instance
  · split <;> infer_instance

instance (frame : LinkFrame) (packet : RadioPacket) :
    Silent State.fencing (openReassembly w frame packet) := by
  unfold openReassembly
  refine .past fun i => ?_
  split
  · infer_instance
  · dsimp only
    refine .past fun _ => .past fun timer => .past fun now => .past fun _ => ?_
    infer_instance

instance (r : Reassembly) (frame : LinkFrame) (packet : RadioPacket) :
    Silent State.fencing (addChunk w r frame packet) := by
  unfold addChunk
  dsimp only
  infer_instance

instance (frame : LinkFrame) : Silent State.fencing (expectsObjectContent w frame) := by
  unfold expectsObjectContent
  dsimp only
  infer_instance

instance (frame : LinkFrame) : Silent State.fencing (admitsFrame w frame) := by
  unfold admitsFrame
  infer_instance

instance (packet : RadioPacket) : Silent State.fencing (receiveFrame w packet) := by
  unfold receiveFrame
  refine .past fun stopped => ?_
  split
  · infer_instance
  · split <;> infer_instance

instance : Silent State.fencing (beginStop : Handler P Unit) := by
  have hstop : Silent State.fencing
      (modify fun s : State P => { s with stopped := true } : Handler P Unit) := ⟨fun _ => rfl⟩
  have hempty : Silent State.fencing
      (modifyInbound fun i : Inbound P => { i with reassemblies := .empty }) :=
    modifyInbound_fencing fun _ => rfl
  have hcancel : ∀ rs : List Reassembly,
      Silent State.view (rs.forM fun r => (cancelTimer r.timer : Handler P Unit)) :=
    fun rs => .forM (fun r => inferInstance) _
  unfold beginStop
  refine .past fun _ => .past fun s => .past fun _ => .past fun _ => .past fun _ => ?_
  infer_instance

end Silent

section Emitting

variable (w : Wiring P) (C : Contract Fencing) [hemit : ∀ event, Keeps State.fencing C (emit w event)]

instance (settlementID : String) (destination : LinkNode) (outcome : SettlementOutcome)
    (operationID messageID : String) (reason : Option String) (radioPacketID : Option ℕ) :
    Keeps State.fencing C
      (answer w settlementID destination outcome operationID messageID reason radioPacketID) := by
  unfold answer
  refine .past fun sent => ?_
  infer_instance

instance (settlementID : String) (accepted : Bool) (reason : Option String) :
    Keeps State.fencing C (settleInbound w settlementID accepted reason) := by
  unfold settleInbound
  refine .past fun i => ?_
  split
  · infer_instance
  · dsimp only
    infer_instance

instance (settlementID : String) :
    Keeps State.fencing C (expirePendingInbound w settlementID) := by
  unfold expirePendingInbound
  refine .past fun i => ?_
  split <;> infer_instance

instance (identity : FrameIdentity) (reason : String) (radioPacketID : Option ℕ) :
    Keeps State.fencing C (rejectInbound w identity reason radioPacketID) := by
  unfold rejectInbound
  infer_instance

instance (settlementID fingerprint : String) (pending : PendingInbound)
    (receipt report : PreparedOutbound P) :
    Keeps State.fencing C (commitAtomic w settlementID fingerprint pending receipt report) := by
  have h : ∀ f : Inbound P → OrderedMap String SettledInbound, Silent State.fencing
      (modifyInbound fun i : Inbound P => { i with settledInbound := f i }) :=
    fun f => modifyInbound_fencing fun _ => rfl
  unfold commitAtomic
  refine .past fun receiptResult => .past fun i => .past fun _ => .past fun reportResult => ?_
  refine .past fun _ => .past fun _ => .past fun _ => .past fun _ => .past fun _ => ?_
  dsimp only
  infer_instance

instance (settlementID : String) (report : TaskReport) (destination : LinkNode)
    (operationID : Option String) :
    Keeps State.fencing C
      (settleInboundWithTaskReport w settlementID report destination operationID) := by
  unfold settleInboundWithTaskReport
  refine .past fun reportOperationID => .past fun receiptOperationID => ?_
  dsimp only
  refine .past fun stopped => ?_
  split
  · infer_instance
  split
  · infer_instance
  split
  · infer_instance
  split
  · infer_instance
  split
  · infer_instance
  refine .past fun _ => .past fun i => ?_
  split
  · infer_instance
  refine .past fun pending => ?_
  split
  · infer_instance
  refine .past fun prepared => ?_
  split <;> infer_instance

instance (key : String) : Keeps State.fencing C (expireReassembly w key) := by
  unfold expireReassembly
  refine .past fun i => ?_
  split
  · infer_instance
  · refine .past fun now => ?_
    dsimp only
    split
    · refine .past fun _ => .past fun timer => .past fun i => ?_
      split <;> infer_instance
    · infer_instance

instance (reason : String) : Keeps State.fencing C (stop w reason) := by
  have hfail : ∀ rs : List ℕ,
      Keeps State.fencing C (rs.forM fun r => failForStop w reason r) :=
    fun rs => .forM (fun r => inferInstance) _
  have hcancel : ∀ ps : List PendingInbound,
      Silent State.view (ps.forM fun p => (cancelTimer p.timer : Handler P Unit)) :=
    fun ps => .forM (fun p => inferInstance) _
  have hempty : Silent State.fencing
      (modifyInbound fun i : Inbound P => { i with pendingInbound := .empty }) :=
    modifyInbound_fencing fun _ => rfl
  unfold stop
  refine .past fun stopped => ?_
  split
  · infer_instance
  · refine .past fun _ => .past fun o => .past fun _ => .past fun _ => .past fun i => ?_
    infer_instance

/-- The calls other than the announcement of an activation touch no fence. -/
theorem call_fencing {call : Call P}
    (hcall : ∀ source generation session,
      call ≠ .announceSourceActivation source generation session) :
    Keeps State.fencing C (call.run w) := by
  have h : ∀ f : Inbound P → Option P.Picture, Silent State.fencing
      (modifyInbound fun i : Inbound P => { i with picture := f i }) :=
    fun f => modifyInbound_fencing fun _ => rfl
  cases call with
  | announceSourceActivation source generation session =>
    exact absurd rfl (hcall source generation session)
  | _ => unfold Call.run; infer_instance

end Emitting

section Activation

/-- A message or an activation may still be under way when listeners are told of the event. -/
def Event.isEarly : Event → Bool
  | .operation _ | .pictureChanged => true
  | _ => false

/-- The transport with listeners that hear early events only. -/
def Wiring.early (w : Wiring P) : Wiring P :=
  { w with
    react := fun event s => match event with
      | .operation result => w.react (.operation result) s
      | .pictureChanged => w.react .pictureChanged s
      | _ => s }

/-- Listeners leave the fences where they are when they hear of an early event, and only move them
to newer generations when they hear of another. -/
class Respects (w : Wiring P) : Prop where
  early : ∀ event, Keeps State.fencing steady (emit w.early event)
  all : ∀ event, Keeps State.fencing fenced (emit w event)

instance (w : Wiring P) [h : Respects w] (event : Event) :
    Keeps State.fencing fenced (emit w event) := h.all event

variable (w : Wiring P) [hw : Respects w]

theorem activateInPicture_steady (source : LinkNode) (generation : ℕ) (session : String) :
    Keeps State.fencing steady (activateInPicture w source generation session) := by
  have hearly := hw.early
  have hpicture : ∀ f : Inbound P → Option P.Picture, Silent State.fencing
      (modifyInbound fun i : Inbound P => { i with picture := f i }) :=
    fun f => modifyInbound_fencing fun _ => rfl
  show Keeps State.fencing steady (activateInPicture w.early source generation session)
  unfold activateInPicture
  refine .past fun i => ?_
  split
  · infer_instance
  · dsimp only
    infer_instance

variable {source : LinkNode} {generation : ℕ} {session : String} {s : State P}

theorem checkSourceFence_of_get {f : SourceFence}
    (hget : s.inbound.sourceFences.get (nodeKey source) = some f)
    (hcheck : checkSourceFence s.inbound source generation session = none) :
    f.generation < generation ∨ f = ⟨generation, session⟩ := by
  unfold checkSourceFence at hcheck
  rw [hget] at hcheck
  simp only [ite_eq_right_iff, reduceCtorEq, imp_false, not_or, not_and, not_lt, ne_eq,
    not_not] at hcheck
  rcases hcheck.1.lt_or_eq with h | h
  · exact .inl h
  · obtain ⟨fgeneration, fsession⟩ := f
    dsimp only at h
    subst h
    rw [hcheck.2 rfl]
    exact .inr rfl

theorem checkSourceFence_of_none
    (hget : s.inbound.sourceFences.get (nodeKey source) = none)
    (hcheck : checkSourceFence s.inbound source generation session = none) :
    s.inbound.sourceFences.size < linkSourceIdentityLimit := by
  unfold checkSourceFence at hcheck
  rw [hget] at hcheck
  simpa using hcheck

/-- The fences and notes once the fence of a source is set. -/
def Fencing.set (v : Fencing) (source : LinkNode) (under : SourceFence) : Fencing :=
  ⟨v.fences.set (nodeKey source) under,
    ⟨.fenced, source, under, v.fences.get (nodeKey source)⟩ :: v.notes⟩

/-- An activation is refused and moves no fence, or it passes the check and sets the fence. -/
theorem activateSourceFence_spec (hs : Fenced s.fencing) :
    let r := activateSourceFence w source generation session s
    (r.1.isSome = true ∧ Fenced r.2.fencing ∧ Stays s.fencing r.2.fencing) ∨
      r.1 = none ∧ checkSourceFence s.inbound source generation session = none ∧
        ∃ v, Fenced v ∧ Stays s.fencing v ∧
          r.2.fencing = v.set source ⟨generation, session⟩ := by
  generalize hr : activateSourceFence w source generation session s = r
  unfold activateSourceFence at hr
  rw [bind_of_eq (show getInbound s = (s.inbound, s) from rfl)] at hr
  rcases hcheck : checkSourceFence s.inbound source generation session with _ | rejection
  · rw [hcheck] at hr
    dsimp only at hr
    split_ifs at hr with hnewer
    · obtain ⟨hfenced, hsame⟩ := (activateInPicture_steady w source generation session).keeps s hs
      rcases hrun : activateInPicture w source generation session s with ⟨accepted, s₁⟩
      rw [hrun] at hfenced hsame
      rw [bind_of_eq hrun] at hr
      cases accepted with
      | false =>
        obtain rfl := hr
        exact .inl ⟨rfl, hfenced, hsame⟩
      | true =>
        refine .inr ?_
        have hcancel : ∀ rs : List Reassembly, Silent State.view (rs.forM fun r =>
            (if supersededBy source generation session r then cancelTimer r.timer else pure () :
              Handler P Unit)) := fun rs => .forM (fun r => inferInstance) _
        have hdrop : ∀ f : Inbound P → OrderedMap String Reassembly, Silent State.fencing
            (modifyInbound fun i : Inbound P => { i with reassemblies := f i }) :=
          fun f => modifyInbound_fencing fun _ => rfl
        have htail : Ends State.fencing (s₁.fencing.set source ⟨generation, session⟩)
            (do
              let i ← (getInbound : Handler P (Inbound P))
              i.reassemblies.values.forM fun r =>
                if supersededBy source generation session r then cancelTimer r.timer else pure ()
              modifyInbound fun i =>
                { i with
                  reassemblies := i.reassemblies.filter
                    fun e => !supersededBy source generation session e.2 }
              return none : Handler P (Option SourceAdmissionFailure))
            fun r s => r = none ∧
              s.fencing = s₁.fencing.set source ⟨generation, session⟩ :=
          .past fun i => .past fun _ => .past fun _ => .pure fun s hs => ⟨rfl, hs⟩
        obtain ⟨hnone, hset⟩ := htail
          { s₁ with
            inbound :=
              { s₁.inbound with
                sourceFences := s₁.inbound.sourceFences.set (nodeKey source) ⟨generation, session⟩ }
            fenceNotes := ⟨.fenced, source, ⟨generation, session⟩,
              s₁.inbound.sourceFences.get (nodeKey source)⟩ :: s₁.fenceNotes } rfl
        obtain rfl := hr
        exact ⟨hnone, rfl, s₁.fencing, hfenced, hsame, hset⟩
    · obtain rfl := hr
      exact .inr ⟨rfl, rfl, s.fencing, hs, Stays.refl _, rfl⟩
  · rw [hcheck] at hr
    obtain rfl := hr
    exact .inl ⟨rfl, hs, Stays.refl _⟩

/-- An activation that passes the check keeps the bound, and moves the fence to a newer generation
if it moves it. -/
theorem fenced_set {v : Fencing} (hv : Fenced v) (hstays : Stays s.fencing v)
    (hcheck : checkSourceFence s.inbound source generation session = none) :
    Fenced (v.set source ⟨generation, session⟩) ∧ Moves v (v.set source ⟨generation, session⟩) := by
  have hsame : v.fences = s.inbound.sourceFences := hstays.fences
  have hmoves : ∀ f, v.fences.get (nodeKey source) = some f → f.Later ⟨generation, session⟩ := by
    intro f hget
    rcases checkSourceFence_of_get (hsame ▸ hget) hcheck with h | h
    · exact .inr h
    · exact .inl h.symm
  refine ⟨⟨?_, ?_⟩, ?_, ?_⟩
  · show (v.fences.set (nodeKey source) ⟨generation, session⟩).size ≤ _
    rcases hget : v.fences.get (nodeKey source) with _ | f
    · have hroom := checkSourceFence_of_none (hsame ▸ hget) hcheck
      rw [← hsame] at hroom
      have hgrow : (v.fences.set (nodeKey source) ⟨generation, session⟩).size ≤
          v.fences.size + 1 := OrderedMap.size_set_le
      omega
    · rw [OrderedMap.size_set_of_has (OrderedMap.has_eq_true_iff.2 ⟨f, hget⟩)]
      exact hv.size
  · intro n hn
    rcases List.mem_cons.1 hn with rfl | hn
    · exact hmoves
    · exact hv.notes n hn
  · intro key f hget
    show ∃ f', (v.fences.set (nodeKey source) ⟨generation, session⟩).get key = some f' ∧ _
    rw [OrderedMap.get_set]
    split_ifs with hkey
    · subst hkey
      exact ⟨_, rfl, hmoves f hget⟩
    · exact ⟨f, hget, .inl rfl⟩
  · refine ⟨[_], rfl, fun n hn f hget => ?_⟩
    rw [List.mem_singleton.1 hn] at hget ⊢
    exact ⟨f, hget, .inl rfl⟩

instance (source : LinkNode) (generation : ℕ) (session : String) :
    Keeps State.fencing fenced (activateSourceFence w source generation session) where
  keeps s hs := by
    rcases @activateSourceFence_spec P w hw source generation session s hs with
      ⟨-, hfenced, hstays⟩ | ⟨-, hcheck, v, hv, hstays, hset⟩
    · exact ⟨hfenced, hstays.moves⟩
    · rw [hset]
      obtain ⟨hfenced, hmoves⟩ := fenced_set hv hstays hcheck
      exact ⟨hfenced, hstays.moves.trans hmoves⟩

/-- An activation that is not newer than the source's fence moves no fence. -/
theorem activateSourceFence_steady (hs : Fenced s.fencing)
    (hold : ∃ f, s.inbound.sourceFences.get (nodeKey source) = some f ∧
      ¬f.generation < generation) :
    Fenced (activateSourceFence w source generation session s).2.fencing ∧
      Stays s.fencing (activateSourceFence w source generation session s).2.fencing := by
  rcases @activateSourceFence_spec P w hw source generation session s hs with
    ⟨-, hfenced, hstays⟩ | ⟨-, hcheck, v, hv, hstays, hset⟩
  · exact ⟨hfenced, hstays⟩
  · rw [hset]
    obtain ⟨hfenced, hmoves⟩ := fenced_set hv hstays hcheck
    refine ⟨hfenced, ?_, hstays.moves.trans hmoves⟩
    obtain ⟨f, hget, hnot⟩ := hold
    rcases checkSourceFence_of_get hget hcheck with h | rfl
    · exact absurd h hnot
    · have hget' : v.fences.get (nodeKey source) = some ⟨generation, session⟩ := by
        rw [hstays.fences]
        exact hget
      exact (OrderedMap.set_of_get hget').trans hstays.fences

/-- A source whose activation is accepted has its fence there. -/
theorem activateSourceFence_accepted (hs : Fenced s.fencing)
    (hnone : (activateSourceFence w source generation session s).1 = none) :
    (activateSourceFence w source generation session s).2.fencing.fences.get (nodeKey source) =
      some ⟨generation, session⟩ := by
  rcases @activateSourceFence_spec P w hw source generation session s hs with
    ⟨hsome, -, -⟩ | ⟨-, -, v, -, -, hset⟩
  · rw [hnone] at hsome
    cases hsome
  · rw [hset]
    exact OrderedMap.get_set_self

end Activation

section Messages

variable (w : Wiring P) [hw : Respects w] (source : LinkNode) (under : SourceFence)

/-- The handler may rely on the fence of the source being there when it begins. -/
class Uses (m : Handler P Unit) : Prop where
  uses : ∀ s, (holding source under).Inv s.fencing →
    fenced.Inv (m s).2.fencing ∧ fenced.Rel s.fencing (m s).2.fencing

instance (priority := low) uses_of_keeps {m : Handler P Unit}
    [h : Keeps State.fencing fenced m] : Uses source under m :=
  ⟨fun s hs => h.keeps s hs.1⟩

variable {source under}

instance uses_bind {α : Type} {m : Handler P α} {f : α → Handler P Unit}
    [hm : Keeps State.fencing (holding source under) m] [hf : ∀ a, Uses source under (f a)] :
    Uses source under (m >>= f) where
  uses s hs := by
    obtain ⟨hinv, hstays⟩ := hm.keeps s hs
    obtain ⟨hfenced, hmoves⟩ := (hf (m s).1).uses (m s).2 hinv
    exact ⟨hfenced, hstays.moves.trans hmoves⟩

theorem Uses.past {α : Type} {m : Handler P α} {f : α → Handler P Unit}
    [hm : Silent State.fencing m] (hf : ∀ a, Uses source under (f a)) :
    Uses source under (m >>= f) := by
  have := hf
  exact uses_bind

instance {c : Prop} [Decidable c] {m n : Handler P Unit} [hm : Uses source under m]
    [hn : Uses source under n] : Uses source under (if c then m else n) := by
  split
  · exact hm
  · exact hn

/-- Under the fence of its source a use is noted as it may. -/
theorem noteFence_holding (use : SourceUse) (huse : use ≠ .fenced) :
    Keeps State.fencing (holding source under) (noteFence use source under : Handler P Unit) where
  keeps s hs := by
    refine ⟨⟨⟨hs.1.size, fun n hn => ?_⟩, hs.2⟩, rfl, fun key f hget => ⟨f, hget, .inl rfl⟩, [_], rfl,
      fun n hn f hget => ?_⟩
    swap
    · rw [List.mem_singleton.1 hn] at hget ⊢
      exact ⟨f, hget, .inl rfl⟩
    rcases List.mem_cons.1 hn with rfl | hn
    · cases use with
      | fenced => exact absurd rfl huse
      | delivered => exact hs.2
      | applied => exact hs.2
    · exact hs.1.notes n hn

theorem early_holding (event : Event) (hevent : event.isEarly = true) :
    Keeps State.fencing (holding source under) (emit w event) := by
  have hearly : Keeps State.fencing (holding source under) (emit w.early event) :=
    holding_of_steady (hw.early event)
  cases event with
  | operation result => exact hearly
  | pictureChanged => exact hearly
  | _ => cases hevent

theorem updatePicture_holding (message : LinkMessage) (identity : FrameIdentity) :
    Keeps State.fencing
      (holding identity.source ⟨identity.sourceGeneration, identity.serviceSession⟩)
      (updatePicture w message identity) := by
  have hnote := @noteFence_holding P identity.source
    ⟨identity.sourceGeneration, identity.serviceSession⟩ .applied (by decide)
  have hpicture : ∀ f : Inbound P → Option P.Picture, Silent State.fencing
      (modifyInbound fun i : Inbound P => { i with picture := f i }) :=
    fun f => modifyInbound_fencing fun _ => rfl
  have hemit := @early_holding P w hw identity.source
    ⟨identity.sourceGeneration, identity.serviceSession⟩ .pictureChanged rfl
  unfold updatePicture
  refine .past fun now => .past fun i => ?_
  split
  · infer_instance
  · exact .forM (fun publication => inferInstance) _

theorem completeDataRequest_holding (message : LinkMessage) (identity : FrameIdentity) :
    Keeps State.fencing (holding source under) (completeDataRequest w message identity) := by
  have hearly : ∀ event, Keeps State.fencing (holding source under) (emit w.early event) :=
    fun event => holding_of_steady (hw.early event)
  show Keeps State.fencing _ (completeDataRequest w.early message identity)
  infer_instance

/-- A message is handed over under the fence of its source. -/
theorem emitMessage_uses (event : MessageEvent) :
    Uses event.source ⟨event.sourceGeneration, event.serviceSession⟩ (emitMessage w event) := by
  have hnote := @noteFence_holding P event.source
    ⟨event.sourceGeneration, event.serviceSession⟩ .delivered (by decide)
  unfold emitMessage
  split
  · refine .past fun _ => ?_
    infer_instance
  · infer_instance

instance (message : LinkMessage) (identity : FrameIdentity) (order : Option TaskDeliveryOrder)
    (requiresSettlement : Bool) :
    Uses identity.source ⟨identity.sourceGeneration, identity.serviceSession⟩
      (deliver w message identity order requiresSettlement) := by
  have hpicture := updatePicture_holding w message identity
  have hrequest := @completeDataRequest_holding P w hw identity.source
    ⟨identity.sourceGeneration, identity.serviceSession⟩ message identity
  have hlast : ∀ event : MessageEvent, event.source = identity.source →
      event.sourceGeneration = identity.sourceGeneration →
      event.serviceSession = identity.serviceSession →
      Uses identity.source ⟨identity.sourceGeneration, identity.serviceSession⟩
        (emitMessage w event) := by
    intro event hsource hgeneration hsession
    rw [← hsource, ← hgeneration, ← hsession]
    exact emitMessage_uses w event
  unfold deliver
  dsimp only
  split
  · split
    · refine @uses_bind P _ _ _ _ _ hrequest fun _ => .past fun now => ?_
      exact hlast _ rfl rfl rfl
    · refine .past fun now => ?_
      exact hlast _ rfl rfl rfl
  · refine @uses_bind P _ _ _ _ _ hpicture fun _ => ?_
    split
    · refine @uses_bind P _ _ _ _ _ hrequest fun _ => .past fun now => ?_
      exact hlast _ rfl rfl rfl
    · refine .past fun now => ?_
      exact hlast _ rfl rfl rfl

instance (message : LinkMessage) (identity : FrameIdentity) (order : Option TaskDeliveryOrder)
    (radioPacketID : Option ℕ) :
    Uses identity.source ⟨identity.sourceGeneration, identity.serviceSession⟩
      (admitConfirmed w message identity order radioPacketID) := by
  unfold admitConfirmed rejectInboundCapacity
  refine .past fun s => ?_
  dsimp only
  have hdeliver : Uses identity.source ⟨identity.sourceGeneration, identity.serviceSession⟩ (do
      admitPending w message identity radioPacketID
      deliver w message identity order true) := .past fun _ => inferInstance
  infer_instance

instance (message : LinkMessage) (identity : FrameIdentity) (order : Option TaskDeliveryOrder)
    (radioPacketID : Option ℕ) :
    Uses identity.source ⟨identity.sourceGeneration, identity.serviceSession⟩
      (settleOrDeliver w message identity order radioPacketID) := by
  unfold settleOrDeliver
  split
  · refine .past fun _ => .past fun i => ?_
    split
    · infer_instance
    · split
      · infer_instance
      · exact .past fun o => inferInstance
  · exact .past fun o => inferInstance

instance (message : LinkMessage) (identity : FrameIdentity) (radioPacketID : Option ℕ) :
    Uses identity.source ⟨identity.sourceGeneration, identity.serviceSession⟩
      (acceptMessage w message identity radioPacketID) := by
  unfold acceptMessage rejectAddressedMessage
  dsimp only
  split
  · infer_instance
  · refine .past fun i => ?_
    split
    · infer_instance
    · exact .past fun order => inferInstance

instance (message : ControlMessage) (identity : FrameIdentity) :
    Keeps State.fencing fenced (handleControl w message identity) := by
  unfold handleControl
  split
  · infer_instance
  · split
    · refine .past fun o => ?_
      split <;> infer_instance
    · infer_instance
  · split
    · refine .past fun o => ?_
      split <;> infer_instance
    · infer_instance

theorem handleCompoundReceipt_holding (identity : FrameIdentity) :
    Keeps State.fencing (holding source under) (handleCompoundReceipt w identity) := by
  have hearly : ∀ event, Keeps State.fencing (holding source under) (emit w.early event) :=
    fun event => holding_of_steady (hw.early event)
  unfold handleCompoundReceipt
  split
  · infer_instance
  · split
    · rename_i receipt _ _
      show Keeps State.fencing _ (handleControl w.early
        (.settled .confirmed receipt.operationID receipt.messageID none) identity)
      unfold handleControl
      dsimp only
      split
      · refine .past fun o => ?_
        split <;> infer_instance
      · infer_instance
    · infer_instance

theorem accepted_of_keeps {m : Handler P (Option LinkMessage)}
    (hm : Keeps State.fencing (holding source under) m) {s s₁ : State P}
    (hs₁ : (holding source under).Inv s₁.fencing) (hrel : fenced.Rel s.fencing s₁.fencing) :
    Fenced (m s₁).2.fencing ∧ fenced.Rel s.fencing (m s₁).2.fencing ∧
      ((m s₁).1.isSome = true →
        (m s₁).2.fencing.fences.get (nodeKey source) = some under) := by
  obtain ⟨hinv, hstays⟩ := hm.keeps s₁ hs₁
  exact ⟨hinv.1, fenced.trans hrel hstays.moves, fun _ => hinv.2⟩

/-- A message that is gone on with has passed the fence of its source. -/
theorem openMessage_accepted (identity : FrameIdentity) (bytes : Bytes) (s : State P)
    (hs : Fenced s.fencing) :
    let r := openMessage w identity bytes s
    Fenced r.2.fencing ∧ fenced.Rel s.fencing r.2.fencing ∧ (r.1.isSome = true →
      r.2.fencing.fences.get (nodeKey identity.source) =
        some ⟨identity.sourceGeneration, identity.serviceSession⟩) := by
  have hrefused : ∀ s₁ : State P, s₁.fencing = s.fencing →
      Fenced s₁.fencing ∧ fenced.Rel s.fencing s₁.fencing ∧
        ((none : Option LinkMessage).isSome = true →
          s₁.fencing.fences.get (nodeKey identity.source) =
            some ⟨identity.sourceGeneration, identity.serviceSession⟩) := by
    intro s₁ hsame
    rw [hsame]
    exact ⟨hs, fenced.refl _, fun h => nomatch h⟩
  generalize hr : openMessage w identity bytes s = r
  unfold openMessage at hr
  have hdecode : (decodeComplete w identity bytes s).2.fencing = s.fencing :=
    Silent.silent s
  rcases hrun : decodeComplete w identity bytes s with ⟨decoded, s₁⟩
  rw [hrun] at hdecode
  rw [bind_of_eq hrun] at hr
  cases decoded with
  | none =>
    obtain rfl := hr
    exact hrefused s₁ hdecode
  | some decoded =>
    obtain ⟨message, fullState⟩ := decoded
    dsimp only at hr
    by_cases hform : message.type ≠ identity.messageType ∨
      messagePriority message ≠ identity.priority
    · rw [if_pos hform] at hr
      obtain rfl := hr
      exact hrefused s₁ hdecode
    rw [if_neg hform] at hr
    by_cases hsource : (!validStateSource message identity.source) = true
    · rw [if_pos hsource] at hr
      obtain rfl := hr
      exact hrefused s₁ hdecode
    rw [if_neg hsource] at hr
    have hs₁ : Fenced s₁.fencing := by
      rw [hdecode]
      exact hs
    have hkeeps : Keeps State.fencing fenced (activateSourceFence w identity.source
      identity.sourceGeneration identity.serviceSession) := inferInstance
    obtain ⟨hs₂, hrel⟩ := hkeeps.keeps s₁ hs₁
    have haccepted := @activateSourceFence_accepted P w hw identity.source
      identity.sourceGeneration identity.serviceSession s₁ hs₁
    rcases hact : activateSourceFence w identity.source identity.sourceGeneration
      identity.serviceSession s₁ with ⟨refusal, s₂⟩
    rw [hact] at hs₂ hrel
    rw [bind_of_eq hact] at hr
    have hrel₂ : fenced.Rel s.fencing s₂.fencing := hdecode ▸ hrel
    cases refusal with
    | some refusal =>
      obtain rfl := hr
      exact ⟨hs₂, hrel₂, fun h => nomatch h⟩
    | none =>
      have hfence := haccepted (congrArg Prod.fst hact)
      rw [hact] at hfence
      have hreceipt := @handleCompoundReceipt_holding P w hw identity.source
        ⟨identity.sourceGeneration, identity.serviceSession⟩ identity
      have hdecoder : ∀ f : Inbound P → P.Decoder, Silent State.fencing
          (modifyInbound fun i : Inbound P => { i with stateDecoder := f i }) :=
        fun f => modifyInbound_fencing fun _ => rfl
      dsimp only at hr
      obtain rfl := hr
      refine accepted_of_keeps ?_ ⟨hs₂, hfence⟩ hrel₂
      split <;> infer_instance

instance (identity : FrameIdentity) (bytes : Bytes) (radioPacketID : Option ℕ) :
    Keeps State.fencing fenced (handleCompleteMessage w identity bytes radioPacketID) where
  keeps s hs := by
    have hopened := openMessage_accepted w identity bytes (note (.completed identity bytes) s).2 hs
    rcases hopen : openMessage w identity bytes (note (.completed identity bytes) s).2 with
      ⟨message, s₁⟩
    have hcomplete : openComplete w identity bytes s = interceptControl w identity message s₁ := by
      unfold openComplete
      rw [bind_of_eq (show note (.completed identity bytes) s =
        ((), (note (.completed identity bytes) s).2) from rfl), bind_of_eq hopen]
    rw [hopen] at hopened
    obtain ⟨hs₁, hrel, hfence⟩ := hopened
    unfold handleCompleteMessage
    cases message with
    | none =>
      rw [bind_of_eq hcomplete]
      exact ⟨hs₁, hrel⟩
    | some message =>
      by_cases hcontrol : ∃ control, message = .control control
      · obtain ⟨control, rfl⟩ := hcontrol
        have hkeeps : Keeps State.fencing fenced
            (interceptControl w identity (some (.control control))) := by
          unfold interceptControl
          infer_instance
        obtain ⟨hs₂, hrel₂⟩ := hkeeps.keeps s₁ hs₁
        have hnone : (interceptControl w identity (some (.control control)) s₁).1 = none := by
          unfold interceptControl
          dsimp only
          split <;> rfl
        rcases hrun : interceptControl w identity (some (.control control)) s₁ with ⟨next, s₂⟩
        rw [hrun] at hs₂ hrel₂ hnone
        obtain rfl := hnone
        rw [bind_of_eq (hcomplete.trans hrun)]
        exact ⟨hs₂, fenced.trans hrel hrel₂⟩
      · have hpassed : interceptControl w identity (some message) s₁ = (some message, s₁) := by
          unfold interceptControl
          cases message with
          | control control => exact absurd ⟨control, rfl⟩ hcontrol
          | _ => rfl
        rw [bind_of_eq (hcomplete.trans hpassed)]
        have huses : Uses identity.source ⟨identity.sourceGeneration, identity.serviceSession⟩
          (acceptMessage w message identity radioPacketID) := inferInstance
        obtain ⟨hs₂, hrel₂⟩ := huses.uses s₁ ⟨hs₁, hfence rfl⟩
        exact ⟨hs₂, fenced.trans hrel hrel₂⟩

instance (packet : RadioPacket) : Keeps State.fencing fenced (receive w packet) := by
  unfold receive
  refine .past fun complete => ?_
  split <;> infer_instance

end Messages

section Steps

variable (w : Wiring P) [hw : Respects w]

instance (source : LinkNode) (generation : ℕ) (session : String) :
    Keeps State.fencing fenced (announceSourceActivation w source generation session) := by
  unfold announceSourceActivation
  split
  · infer_instance
  · refine .past fun refused => ?_
    split <;> infer_instance

instance (call : Call P) : Keeps State.fencing fenced (call.run w) := by
  cases call with
  | announceSourceActivation source generation session => unfold Call.run; infer_instance
  | _ => exact call_fencing w fenced fun _ _ _ h => nomatch h

instance (task : TimerTask) : Keeps State.fencing fenced (fire w task) := by
  cases task <;> unfold fire <;> infer_instance

instance (handle : ℕ) : Keeps State.fencing fenced (fireTimer w handle) := by
  unfold fireTimer
  refine .past fun s => ?_
  split <;> infer_instance

instance (reason : String) : Keeps State.fencing fenced (handleRadioDisconnect w reason) := by
  unfold handleRadioDisconnect
  infer_instance

theorem step_fenced (step : Step P) : Keeps State.fencing fenced (step.run w) := by
  cases step with
  | call call =>
    have h : Keeps State.fencing fenced (call.run w) := inferInstance
    exact h
  | packet packet =>
    have h : Keeps State.fencing fenced (receive w packet) := inferInstance
    exact h
  | timer handle =>
    have h : Keeps State.fencing fenced (fireTimer w handle) := inferInstance
    exact h
  | radioDone result =>
    have h : Keeps State.fencing fenced (resumePump w result) := inferInstance
    exact h
  | disconnect reason =>
    have h : Keeps State.fencing fenced (handleRadioDisconnect w reason) := inferInstance
    exact h
  | elapse ms => exact .of_silent (h := ⟨fun _ => rfl⟩)

end Steps

section Listeners

/-- In this state the call would activate a newer generation than the source's fence, or one of a
source without a fence. -/
def Call.activates (s : State P) : Call P → Prop
  | .announceSourceActivation source generation _ =>
    ∀ f, s.inbound.sourceFences.get (nodeKey source) = some f → f.generation < generation
  | _ => False

/-- Listeners that hear of an operation result or of a change of the picture do not activate a newer
generation of a source from inside that event. -/
def Listeners.Patient (listeners : Listeners P) : Prop :=
  ∀ depth event s, event.isEarly = true → ∀ call ∈ listeners depth event s, ¬call.activates s

theorem announceSourceActivation_steady (w : Wiring P) [hw : Respects w] {source : LinkNode}
    {generation : ℕ} {session : String} {s : State P} (hs : Fenced s.fencing)
    (hold : ∃ f, s.inbound.sourceFences.get (nodeKey source) = some f ∧
      ¬f.generation < generation) :
    Fenced (announceSourceActivation w source generation session s).2.fencing ∧
      Stays s.fencing (announceSourceActivation w source generation session s).2.fencing := by
  unfold announceSourceActivation
  split
  · exact ⟨hs, Stays.refl _⟩
  · obtain ⟨hs₁, hsame⟩ := @activateSourceFence_steady P w hw source generation session s hs hold
    rcases hrun : activateSourceFence w source generation session s with ⟨refusal, s₁⟩
    rw [hrun] at hs₁ hsame
    rw [bind_of_eq hrun]
    cases refusal with
    | some refusal => exact ⟨hs₁, hsame⟩
    | none =>
      have hearly := hw.early
      have hsubmit : Keeps State.fencing steady (do
          let _ ← submit w.early (.control (.sourceActive ("source_active_" ++ source.id ++ "_" ++
            toString generation) source generation session)) none none) := inferInstance
      obtain ⟨hs₂, hsame₂⟩ := hsubmit.keeps s₁ hs₁
      exact ⟨hs₂, hsame.trans hsame₂⟩

theorem call_steady (w : Wiring P) [hw : Respects w] {call : Call P} {s : State P}
    (hs : Fenced s.fencing) (hcall : ¬call.activates s) :
    Fenced (call.run w s).2.fencing ∧ Stays s.fencing (call.run w s).2.fencing := by
  have hearly := hw.early
  have hother : (∀ source generation session,
      call ≠ .announceSourceActivation source generation session) →
      Keeps State.fencing steady (call.run w.early) := call_fencing w.early steady
  cases call with
  | announceSourceActivation source generation session =>
    refine announceSourceActivation_steady w hs ?_
    by_contra hnone
    refine hcall fun f hget => ?_
    by_contra hnot
    exact hnone ⟨f, hget, hnot⟩
  | submit => exact (hother fun _ _ _ h => nomatch h).keeps s hs
  | reserveTaskDelivery => exact (hother fun _ _ _ h => nomatch h).keeps s hs
  | dispatchReservation => exact (hother fun _ _ _ h => nomatch h).keeps s hs
  | cancelReservation => exact (hother fun _ _ _ h => nomatch h).keeps s hs
  | settleInbound => exact (hother fun _ _ _ h => nomatch h).keeps s hs
  | settleInboundWithTaskReport => exact (hother fun _ _ _ h => nomatch h).keeps s hs
  | cancel => exact (hother fun _ _ _ h => nomatch h).keeps s hs
  | pause => exact (hother fun _ _ _ h => nomatch h).keeps s hs
  | resume => exact (hother fun _ _ _ h => nomatch h).keeps s hs
  | stop => exact (hother fun _ _ _ h => nomatch h).keeps s hs
  | updatePicture => exact (hother fun _ _ _ h => nomatch h).keeps s hs

theorem calls_steady (w : Wiring P) [hw : Respects w] :
    ∀ (calls : List (Call P)) (s : State P), Fenced s.fencing →
      (∀ call ∈ calls, ¬call.activates s) →
      Fenced (calls.foldl (fun s call => (call.run w s).2) s).fencing ∧
        Stays s.fencing (calls.foldl (fun s call => (call.run w s).2) s).fencing
  | [], _, hs, _ => ⟨hs, Stays.refl _⟩
  | call :: calls, s, hs, hcalls => by
    obtain ⟨hs₁, hsame₁⟩ := call_steady w hs (hcalls call List.mem_cons_self)
    have hrest : ∀ call' ∈ calls, ¬call'.activates (call.run w s).2 := by
      intro call' hmem hactivates
      refine hcalls call' (List.mem_cons_of_mem _ hmem) ?_
      cases call' with
      | announceSourceActivation source generation session =>
        intro f hget
        refine hactivates f ?_
        have hfences : (call.run w s).2.inbound.sourceFences = s.inbound.sourceFences :=
          hsame₁.fences
        rw [hfences]
        exact hget
      | _ => exact hactivates
    obtain ⟨hs₂, hsame₂⟩ := calls_steady w calls _ hs₁ hrest
    exact ⟨hs₂, hsame₁.trans hsame₂⟩

variable {env : Env P} {listeners : Listeners P}

theorem calls_fenced (w : Wiring P) [hw : Respects w] :
    ∀ (calls : List (Call P)) (s : State P), Fenced s.fencing →
      Fenced (calls.foldl (fun s call => (call.run w s).2) s).fencing ∧
        fenced.Rel s.fencing (calls.foldl (fun s call => (call.run w s).2) s).fencing
  | [], _, hs => ⟨hs, fenced.refl _⟩
  | call :: calls, s, hs => by
    have hkeeps : Keeps State.fencing fenced (call.run w) := inferInstance
    obtain ⟨hs₁, hrel₁⟩ := hkeeps.keeps s hs
    obtain ⟨hs₂, hrel₂⟩ := calls_fenced w calls _ hs₁
    exact ⟨hs₂, fenced.trans hrel₁ hrel₂⟩

/-- Patient listeners respect the fences, however deep their calls nest. -/
theorem wired_respects (hpatient : listeners.Patient) :
    ∀ depth, Respects (env.wired listeners depth)
  | 0 => ⟨fun event => .modify fun s hs => by cases event <;> exact ⟨hs, Stays.refl _⟩,
      fun event => .modify fun s hs => ⟨hs, fenced.refl _⟩⟩
  | depth + 1 => by
    have ih := wired_respects hpatient depth
    constructor
    · refine fun event => .modify fun s hs => ?_
      cases event with
      | operation result =>
        exact calls_steady (env.wired listeners depth) _ s hs (hpatient depth _ s rfl)
      | pictureChanged =>
        exact calls_steady (env.wired listeners depth) _ s hs (hpatient depth _ s rfl)
      | _ => exact ⟨hs, Stays.refl _⟩
    · exact fun event => .modify fun s hs => calls_fenced (env.wired listeners depth) _ s hs

end Listeners

section Runs

/-- In every run at most as many sources as the limit are fenced, and every fence that was set, and
every message and publication, was noted under a fence as it may; and from each state on a fence
stays or moves to newer generations, and nothing older than it is handed over or applied. -/
theorem source_fencing (env : Env P) (listeners : Listeners P) (depth : ℕ)
    (hpatient : listeners.Patient) {s : State P}
    (h : Run (env.wired listeners depth) (fun _ _ => True) s) :
    s.inbound.sourceFences.size ≤ linkSourceIdentityLimit ∧
      (∀ n ∈ s.fenceNotes, n.Admissible) ∧
      ∀ steps, let s' := runSteps (env.wired listeners depth) steps s
        (∀ key f, s.inbound.sourceFences.get key = some f →
          ∃ f', s'.inbound.sourceFences.get key = some f' ∧ f.Later f') ∧
        ∃ news, s'.fenceNotes = news ++ s.fenceNotes ∧ ∀ n ∈ news, ∀ f,
          s.inbound.sourceFences.get (nodeKey n.source) = some f → f.Later n.under := by
  have : Respects (env.wired listeners depth) := wired_respects hpatient depth
  have hs : Fenced s.fencing := by
    induction h with
    | begin b => exact ⟨Nat.zero_le _, fun n hn => nomatch hn⟩
    | step step _ _ ih => exact ((step_fenced _ step).keeps _ ih).1
  have hlater : ∀ steps s, Fenced s.fencing →
      Fenced (runSteps (env.wired listeners depth) steps s).fencing ∧
        Moves s.fencing (runSteps (env.wired listeners depth) steps s).fencing := by
    intro steps
    induction steps with
    | nil => exact fun s hs => ⟨hs, Moves.refl _⟩
    | cons step steps ih =>
      intro s hs
      obtain ⟨hs₁, hrel⟩ := (step_fenced (env.wired listeners depth) step).keeps s hs
      obtain ⟨hs₂, hrel₂⟩ := ih _ hs₁
      exact ⟨hs₂, Moves.trans hrel hrel₂⟩
  refine ⟨hs.size, hs.notes, fun steps => ?_⟩
  obtain ⟨hs', hmoves⟩ := hlater steps s hs
  refine ⟨hmoves.fences, ?_⟩
  obtain ⟨news, hnews, hfences⟩ := hmoves.notes
  refine ⟨news, hnews, fun n hn f hget => ?_⟩
  obtain ⟨f', hfence, hlater'⟩ := hfences n hn f hget
  have hadmissible : n.Admissible := hs'.notes n (by rw [hnews]; exact List.mem_append_left _ hn)
  exact hlater'.trans (hadmissible.later hfence)

end Runs

section Overtaken

def goneIdentity : FrameIdentity where
  messageType := .state
  source := ⟨.asset, "uav-7"⟩
  destination := none
  sourceGeneration := 1
  serviceSession := "boot-1"
  sourceSequence := 1
  operationID := "op-1"
  messageID := "m-1"
  receipt := none
  priority := .resource

/-- An Asset's publication that its Entity is gone, as it is sent. -/
def goneText : String :=
  "\x7b\"atlas_version\":2,\"confirmation\":\"not_required\",\"deleted\":true,\"observation_time\":\"2026-09-02T12:00:02Z\",\"path\":\"field\",\"resource_id\":\"uav-7\",\"resource_type\":\"entity\",\"type\":\"state\"\x7d"

def gone : LinkMessage :=
  .state
    { resourceType := .entity, resourceID := "uav-7", deleted := true, entityType := none,
      path := .field, confirmation := .notRequired, operationID := none, content := goneText }

def goneChunk (index : ℕ) : Bytes := (goneText.toUTF8.toList.drop (index * 84)).take 84

theorem goneFrame_count : 3 ≤ maxLinkFragments := by decide

def goneFrame (index : Fin 3) : LinkFrame :=
  ⟨goneIdentity, index, 3, goneChunk index, index.isLt, goneFrame_count⟩

def goneFrames : List (String × LinkFrame) :=
  [("\x7b\"g\":1,\"i\":0,\"k\":\"s\",\"m\":\"m-1\",\"n\":3,\"o\":\"op-1\",\"p\":\"eyJhdGxhc192ZXJzaW9uIjoyLCJjb25maXJtYXRpb24iOiJub3RfcmVxdWlyZWQiLCJkZWxldGVkIjp0cnVlLCJvYnNlcnZhdGlvbl90aW1lIjoi\",\"q\":1,\"s\":\"a:uav-7\",\"v\":1,\"x\":\"boot-1\",\"y\":\"r\"\x7d",
    goneFrame 0),
   ("\x7b\"g\":1,\"i\":1,\"k\":\"s\",\"m\":\"m-1\",\"n\":3,\"o\":\"op-1\",\"p\":\"MjAyNi0wOS0wMlQxMjowMDowMloiLCJwYXRoIjoiZmllbGQiLCJyZXNvdXJjZV9pZCI6InVhdi03IiwicmVzb3VyY2VfdHlwZSI6ImVudGl0eSIs\",\"q\":1,\"s\":\"a:uav-7\",\"v\":1,\"x\":\"boot-1\",\"y\":\"r\"\x7d",
    goneFrame 1),
   ("\x7b\"g\":1,\"i\":2,\"k\":\"s\",\"m\":\"m-1\",\"n\":3,\"o\":\"op-1\",\"p\":\"InR5cGUiOiJzdGF0ZSJ9\",\"q\":1,\"s\":\"a:uav-7\",\"v\":1,\"x\":\"boot-1\",\"y\":\"r\"\x7d",
    goneFrame 2)]

/-- A Gateway with a picture that the publication changes. -/
def goneEnv : Env plainParts :=
  { plainEnv ⟨.gateway, "gw"⟩ goneFrames [(goneText, gone)] [] with
    messagePublications := fun _ _ _ _ => [()] }

/-- Once the Asset is fenced under its first generation, a change of the picture makes the listener
announce its second. -/
def goneListeners : Listeners plainParts := fun _ event s =>
  match event with
  | .pictureChanged =>
    if s.inbound.sourceFences.get "asset:uav-7" = some ⟨1, "boot-1"⟩ then
      [.announceSourceActivation ⟨.asset, "uav-7"⟩ 2 "boot-2"]
    else []
  | _ => []

def gonePackets : List (Step plainParts) :=
  goneFrames.map fun f => .packet ⟨f.1.toUTF8.toList, 0, none, 1⟩

def goneBeginning : Beginning plainParts := { plainBeginning with picture := some () }

def goneReceived (listeners : Listeners plainParts) : State plainParts :=
  runSteps (goneEnv.wired listeners 1) gonePackets goneBeginning.state

/-- What is noted of the fences without listeners, and what is noted last with these. -/
theorem goneReceived_eq :
    (goneReceived fun _ _ _ => []).fenceNotes.map FenceNote.use = [.delivered, .applied, .fenced] ∧
      (goneReceived goneListeners).fenceNotes.head?.map (fun n => (n.use, n.under, n.fence)) =
        some (.delivered, ⟨1, "boot-1"⟩, some ⟨2, "boot-2"⟩) := by
  rw [goneReceived, goneReceived, gonePackets, goneEnv, plainEnv_byBytes, goneFrames]
  simp only [byBytes, List.map_cons, List.map_nil, goneText]
  rw [toUTF8_ofList, toUTF8_ofList, toUTF8_ofList, toUTF8_ofList]
  decide +kernel

/-- Without listeners the publication is applied and handed over under its source's fence. -/
theorem source_fencing_gone :
    (goneReceived fun _ _ _ => []).fenceNotes.map FenceNote.use = [.delivered, .applied, .fenced] ∧
      ∀ n ∈ (goneReceived fun _ _ _ => []).fenceNotes, n.Admissible := by
  refine ⟨goneReceived_eq.1, ?_⟩
  exact (source_fencing goneEnv (fun _ _ _ => []) 1 (fun _ _ _ _ call h => nomatch h)
    (Run.steps gonePackets (.begin goneBeginning) fun _ _ _ _ => trivial)).2.1

/-- The listener's activation moves the fence before the message is handed over. -/
theorem source_fencing_overtaken :
    Run (goneEnv.wired goneListeners 1) (fun _ _ => True) (goneReceived goneListeners) ∧
      ∃ n ∈ (goneReceived goneListeners).fenceNotes, n.use = .delivered ∧
        n.under = ⟨1, "boot-1"⟩ ∧ n.fence = some ⟨2, "boot-2"⟩ ∧ ¬n.Admissible := by
  refine ⟨Run.steps gonePackets (.begin goneBeginning) fun _ _ _ _ => trivial, ?_⟩
  obtain ⟨n, hn, heq⟩ := Option.map_eq_some_iff.1 goneReceived_eq.2
  obtain ⟨huse, hunder, hfence⟩ : n.use = .delivered ∧ n.under = ⟨1, "boot-1"⟩ ∧
      n.fence = some ⟨2, "boot-2"⟩ := by simpa using heq
  refine ⟨n, List.mem_of_mem_head? hn, huse, hunder, hfence, ?_⟩
  unfold FenceNote.Admissible
  rw [huse, hunder, hfence]
  decide

end Overtaken

end Atlas.Link
