import Atlas.Proofs.Inward

/-!
# Reassembly

Frames of any number of messages come interleaved, twice, or not at all. A reassembly holds chunks
of one message only: its key has the message in it, but joined with the rest of the identity, and
the comparison of a frame with the reassembly has the rest. So what is handed on as complete is
the chunks of one message in their order.
-/

namespace Atlas.Link

open Handlers

variable {P : Parts}

/-- Two identities of one message; a receipt may ride along with one and not with the other. -/
structure SameMessage (a b : FrameIdentity) : Prop where
  source : a.source = b.source
  sourceGeneration : a.sourceGeneration = b.sourceGeneration
  serviceSession : a.serviceSession = b.serviceSession
  messageID : a.messageID = b.messageID
  sourceSequence : a.sourceSequence = b.sourceSequence
  operationID : a.operationID = b.operationID
  destination : a.destination = b.destination
  messageType : a.messageType = b.messageType
  priority : a.priority = b.priority

/-- The bytes are the chunks of one message, one for each index, in their order; each came in a
frame that was received. -/
def Assembled (notes : List Note) (identity : FrameIdentity) (bytes : Bytes) : Prop :=
  ∃ frames : List LinkFrame,
    frames.map (·.chunkIndex) = List.range frames.length ∧
    (∀ frame ∈ frames, Note.received frame ∈ notes ∧ frame.chunkCount = frames.length ∧
      SameMessage frame.identity identity) ∧
    bytes = frames.flatMap (·.payload)

/-- Whatever was handed on as complete was assembled from frames received before. -/
def CompletionsAssembled (notes : List Note) : Prop :=
  ∀ later identity bytes earlier, notes = later ++ .completed identity bytes :: earlier →
    Assembled earlier identity bytes

/-- The chunks of a reassembly came in frames of its message, and its length is theirs. -/
structure Reassembly.Sound (notes : List Note) (key : String) (r : Reassembly) : Prop where
  key_eq : key = reassemblyKey r.identity
  chunk : ∀ index payload, r.chunks.get index = some payload →
    ∃ frame, Note.received frame ∈ notes ∧ frame.chunkIndex = index ∧ frame.payload = payload ∧
      frame.chunkCount = r.chunkCount ∧ SameMessage frame.identity r.identity
  byteLength_eq : r.byteLength = (r.chunks.values.map List.length).sum
  byteLength_le : r.byteLength ≤ maxLinkMessageBytes

structure AssemblyInv (limit : ℕ) (v : Intake) : Prop where
  sound : ∀ key r, v.reassemblies.get key = some r → r.Sound v.notes key
  size_le : v.reassemblies.size ≤ limit
  assembled : CompletionsAssembled v.notes

/-- What was noted stays noted. -/
def assembly (limit : ℕ) : Contract Intake where
  Inv := AssemblyInv limit
  Rel v v' := v.notes ⊆ v'.notes
  refl _ := List.Subset.refl _
  trans h h' := List.Subset.trans h h'

section Notes

def Note.isCompleted : Note → Bool
  | .completed _ _ => true
  | _ => false

theorem Reassembly.Sound.mono {notes notes' : List Note} {key : String} {r : Reassembly}
    (h : r.Sound notes key) (hsub : notes ⊆ notes') : r.Sound notes' key where
  key_eq := h.key_eq
  chunk index payload hget := by
    obtain ⟨frame, hreceived, hrest⟩ := h.chunk index payload hget
    exact ⟨frame, hsub hreceived, hrest⟩
  byteLength_eq := h.byteLength_eq
  byteLength_le := h.byteLength_le

/-- A note other than of a completion asks for nothing. -/
theorem CompletionsAssembled.cons {notes : List Note} {n : Note} (h : CompletionsAssembled notes)
    (hn : ∀ identity bytes, n = .completed identity bytes → Assembled notes identity bytes) :
    CompletionsAssembled (n :: notes) := by
  intro later identity bytes earlier heq
  cases later with
  | nil =>
    simp only [List.nil_append, List.cons.injEq] at heq
    rw [← heq.2]
    exact hn identity bytes heq.1
  | cons n' later =>
    simp only [List.cons_append, List.cons.injEq] at heq
    exact h later identity bytes earlier heq.2

theorem CompletionsAssembled.append {notes news : List Note} (h : CompletionsAssembled notes)
    (hnews : ∀ n ∈ news, n.isCompleted = false) : CompletionsAssembled (news ++ notes) := by
  induction news with
  | nil => exact h
  | cons n news ih =>
    refine (ih fun m hm => hnews m (List.mem_cons_of_mem _ hm)).cons fun identity bytes hn => ?_
    have := hnews n List.mem_cons_self
    simp [hn, Note.isCompleted] at this

/-- A handler that leaves the reassemblies alone, or drops some, and notes no completion. -/
theorem assembly_keeps {α : Type} {m : Handler P α} {limit : ℕ}
    (h : ∀ s, ((m s).2.inbound.reassemblies.size ≤ s.inbound.reassemblies.size ∧
      (∀ key r, (m s).2.inbound.reassemblies.get key = some r →
        s.inbound.reassemblies.get key = some r)) ∧
      ∃ news, (m s).2.notes = news ++ s.notes ∧ ∀ n ∈ news, Note.isCompleted n = false) :
    Keeps State.intake (assembly limit) m where
  keeps s hs := by
    obtain ⟨⟨hsize, hget⟩, news, hnotes, hnews⟩ := h s
    have hsub : s.notes ⊆ (m s).2.notes := by
      rw [hnotes]
      exact List.subset_append_right news s.notes
    refine ⟨⟨fun key r hr => ?_, hsize.trans hs.size_le, ?_⟩, hsub⟩
    · exact (hs.sound key r (hget key r hr)).mono hsub
    · show CompletionsAssembled (m s).2.notes
      rw [hnotes]
      exact hs.assembled.append hnews

end Notes

section Settlements

variable {limit : ℕ}

/-- A handler that only adds a note, not of a completion. -/
theorem note_keeps {n : Note} (hn : n.isCompleted = false) :
    Keeps State.intake (assembly limit) (note n : Handler P Unit) :=
  assembly_keeps fun s => ⟨⟨le_rfl, fun _ _ h => h⟩, [n], rfl, by simpa using hn⟩

/-- A handler that updates the inbound side outside the reassemblies. -/
theorem modifyInbound_keeps {f : Inbound P → Inbound P}
    (hf : ∀ i, (f i).reassemblies = i.reassemblies) :
    Keeps State.intake (assembly limit) (modifyInbound f) :=
  assembly_keeps fun s => by
    refine ⟨⟨?_, fun key r h => ?_⟩, [], rfl, by simp⟩
    · show (f s.inbound).reassemblies.size ≤ _
      rw [hf]
    · rw [← hf]
      exact h

theorem notesPruned_eq (entries : List (String × SettledInbound)) (now : ℕ) (notes : List Note) :
    ∃ news, entries.foldl (fun notes e => Note.pruned e.1 now :: notes) notes = news ++ notes ∧
      ∀ n ∈ news, Note.isCompleted n = false := by
  induction entries generalizing notes with
  | nil => exact ⟨[], rfl, by simp⟩
  | cons e entries ih =>
    obtain ⟨news, heq, hnews⟩ := ih (.pruned e.1 now :: notes)
    refine ⟨news ++ [.pruned e.1 now], by simp [heq], fun n hn => ?_⟩
    rcases List.mem_append.1 hn with hn | hn
    · exact hnews n hn
    · rw [List.mem_singleton.1 hn]
      rfl

instance : Keeps State.intake (assembly limit) (pruneSettledInbound : Handler P Unit) :=
  assembly_keeps fun _ => ⟨⟨le_rfl, fun _ _ h => h⟩, notesPruned_eq _ _ _⟩

instance (settlementID : String) (result : SettlementOutcome) :
    Keeps State.intake (assembly limit)
      (recordSettledInbound settlementID result : Handler P Unit) := by
  unfold recordSettledInbound
  refine .past fun _ => assembly_keeps fun s => ?_
  show ((s.recordSettledInbound settlementID result).inbound.reassemblies.size ≤ _ ∧ ∀ key r,
      (s.recordSettledInbound settlementID result).inbound.reassemblies.get key = some r → _) ∧
    ∃ news, (s.recordSettledInbound settlementID result).notes = _ ∧ _
  unfold State.recordSettledInbound
  dsimp only
  split_ifs
  · exact ⟨⟨le_rfl, fun _ _ h => h⟩, [], rfl, by simp⟩
  · exact ⟨⟨le_rfl, fun _ _ h => h⟩, [], rfl, by simp⟩
  · exact ⟨⟨le_rfl, fun _ _ h => h⟩, [.recorded settlementID result s.clock.now], rfl,
      by simp [Note.isCompleted]⟩

instance (settlementID : String) :
    Keeps State.intake (assembly limit) (releasePending settlementID : Handler P Unit) :=
  modifyInbound_keeps fun _ => rfl

variable (w : Wiring P) [hemit : ∀ event, Keeps State.intake (assembly limit) (emit w event)]

instance (settlementID : String) (destination : LinkNode) (outcome : SettlementOutcome)
    (operationID messageID : String) (reason : Option String) (radioPacketID : Option ℕ) :
    Keeps State.intake (assembly limit)
      (answer w settlementID destination outcome operationID messageID reason radioPacketID) := by
  unfold answer
  have h : ∀ held, Keeps State.intake (assembly limit)
      (note (.answered settlementID outcome held) : Handler P Unit) := fun held => note_keeps rfl
  infer_instance

instance (settlementID : String) (accepted : Bool) (reason : Option String) :
    Keeps State.intake (assembly limit) (settleInbound w settlementID accepted reason) := by
  unfold settleInbound
  refine .past fun i => ?_
  split
  · infer_instance
  · dsimp only
    infer_instance

instance (settlementID fingerprint : String) (pending : PendingInbound)
    (receipt report : PreparedOutbound P) :
    Keeps State.intake (assembly limit)
      (commitAtomic w settlementID fingerprint pending receipt report) := by
  unfold commitAtomic
  have h : ∀ held, Keeps State.intake (assembly limit)
      (note (.answered settlementID .confirmed held) : Handler P Unit) := fun held => note_keeps rfl
  have h' : ∀ f : Inbound P → OrderedMap String SettledInbound, Keeps State.intake (assembly limit)
      (modifyInbound fun i : Inbound P => { i with settledInbound := f i }) :=
    fun f => modifyInbound_keeps fun _ => rfl
  refine .past fun receiptResult => .past fun i => .past fun _ => .past fun reportResult => ?_
  refine .past fun _ => .past fun _ => .past fun _ => .past fun _ => .past fun _ => ?_
  dsimp only
  infer_instance

instance (settlementID : String) (report : TaskReport) (destination : LinkNode)
    (operationID : Option String) :
    Keeps State.intake (assembly limit)
      (settleInboundWithTaskReport w settlementID report destination operationID) := by
  unfold settleInboundWithTaskReport
  refine .past fun reportOperationID => .past fun id => ?_
  dsimp only
  refine .past fun stopped => ?_
  split
  · infer_instance
  split
  · infer_instance
  split
  · infer_instance
  split
  · infer_instance
  split
  · infer_instance
  refine .past fun _ => .past fun i => ?_
  split
  · infer_instance
  refine .past fun settlement => ?_
  split
  · infer_instance
  refine .past fun prepared => ?_
  split <;> infer_instance

instance (settlementID : String) :
    Keeps State.intake (assembly limit) (expirePendingInbound w settlementID) := by
  unfold expirePendingInbound
  refine .past fun i => ?_
  split <;> infer_instance

instance (identity : FrameIdentity) (reason : String) (radioPacketID : Option ℕ) :
    Keeps State.intake (assembly limit) (rejectInbound w identity reason radioPacketID) := by
  unfold rejectInbound
  infer_instance

instance (message : LinkMessage) (identity : FrameIdentity) (radioPacketID : Option ℕ) :
    Keeps State.intake (assembly limit) (admitPending w message identity radioPacketID) := by
  unfold admitPending
  have h : ∀ f : Inbound P → OrderedMap String PendingInbound, Keeps State.intake (assembly limit)
      (modifyInbound fun i : Inbound P => { i with pendingInbound := f i }) :=
    fun f => modifyInbound_keeps fun _ => rfl
  infer_instance

instance (message : LinkMessage) (identity : FrameIdentity) (order : Option TaskDeliveryOrder)
    (requiresSettlement : Bool) :
    Keeps State.intake (assembly limit)
      (deliver w message identity order requiresSettlement) := by
  unfold deliver emitMessage
  have h : ∀ settlementID, Keeps State.intake (assembly limit)
      (note (.delivered settlementID) : Handler P Unit) := fun settlementID => note_keeps rfl
  infer_instance

instance (message : LinkMessage) (identity : FrameIdentity) (order : Option TaskDeliveryOrder)
    (radioPacketID : Option ℕ) :
    Keeps State.intake (assembly limit)
      (admitConfirmed w message identity order radioPacketID) := by
  unfold admitConfirmed rejectInboundCapacity
  refine .past fun s => ?_
  dsimp only
  infer_instance

instance (message : LinkMessage) (identity : FrameIdentity) (order : Option TaskDeliveryOrder)
    (radioPacketID : Option ℕ) :
    Keeps State.intake (assembly limit)
      (settleOrDeliver w message identity order radioPacketID) := by
  unfold settleOrDeliver
  split
  · refine .past fun _ => .past fun i => ?_
    split <;> infer_instance
  · infer_instance

instance (message : LinkMessage) (identity : FrameIdentity) (radioPacketID : Option ℕ) :
    Keeps State.intake (assembly limit) (acceptMessage w message identity radioPacketID) := by
  unfold acceptMessage rejectAddressedMessage
  dsimp only
  split
  · infer_instance
  · refine .past fun i => ?_
    split <;> infer_instance

end Settlements

section Packets

variable {limit : ℕ}

instance (key : String) :
    Keeps State.intake (assembly limit) (deleteReassembly key : Handler P Unit) :=
  assembly_keeps fun s => by
    refine ⟨⟨OrderedMap.size_delete_le, fun key' r h => ?_⟩, [], rfl, by simp⟩
    have hr : (s.inbound.reassemblies.delete key).get key' = some r := h
    rw [OrderedMap.get_delete] at hr
    split_ifs at hr
    exact hr

instance : Discards P (assembly limit) where
  discard p := assembly_keeps fun s =>
    ⟨⟨OrderedMap.size_filter_le, fun _ _ h => (OrderedMap.mem_filter.1 h).1⟩, [], rfl, by simp⟩

/-- A sound reassembly takes the place of the one under its key, or a free place. -/
theorem AssemblyInv.set {s : State P} {key : String} {r : Reassembly}
    (hs : AssemblyInv limit s.intake) (hr : r.Sound s.notes key)
    (hroom : s.inbound.reassemblies.has key = true ∨ s.inbound.reassemblies.size < limit) :
    AssemblyInv limit (setReassembly key r s).2.intake where
  sound key' r' h := by
    have hget : (s.inbound.reassemblies.set key r).get key' = some r' := h
    rw [OrderedMap.get_set] at hget
    split_ifs at hget with hk
    · cases hget
      exact hk ▸ hr
    · exact hs.sound key' r' hget
  size_le := by
    show (s.inbound.reassemblies.set key r).size ≤ limit
    rcases hroom with h | h
    · rw [OrderedMap.size_set_of_has h]
      exact hs.size_le
    · exact OrderedMap.size_set_le.trans h
  assembled := hs.assembled

variable (w : Wiring P)

theorem oldestReassembly_mem {entries : List (String × Reassembly)} {e : String × Reassembly}
    (h : oldestReassembly entries = some e) : e ∈ entries := by
  induction entries generalizing e with
  | nil => exact nomatch h
  | cons e' rest ih =>
    rw [oldestReassembly] at h
    rcases ho : oldestReassembly rest with _ | oldest
    · rw [ho] at h
      exact Option.some.inj h ▸ List.mem_cons_self
    · simp only [ho] at h
      split_ifs at h
      · exact Option.some.inj h ▸ List.mem_cons_of_mem _ (ih ho)
      · exact Option.some.inj h ▸ List.mem_cons_self

theorem oldestReassembly_eq_none {entries : List (String × Reassembly)} :
    oldestReassembly entries = none → entries = [] := by
  cases entries with
  | nil => simp
  | cons e rest =>
    unfold oldestReassembly
    split
    · simp
    · split_ifs <;> simp

/-- There is room for one more reassembly, and nothing else has changed. -/
theorem makeReassemblyRoom_spec {s : State P} (hs : AssemblyInv w.reassemblyLimit s.intake) :
    AssemblyInv w.reassemblyLimit (makeReassemblyRoom w s).2.intake ∧
      (makeReassemblyRoom w s).2.inbound.reassemblies.size < w.reassemblyLimit ∧
      (makeReassemblyRoom w s).2.notes = s.notes := by
  by_cases hroom : s.inbound.reassemblies.size < w.reassemblyLimit
  · have h : makeReassemblyRoom w s = ((), s) := by
      show (if s.inbound.reassemblies.size < w.reassemblyLimit then pure ()
        else _ : Handler P Unit) s = _
      rw [if_pos hroom]
      rfl
    rw [h]
    exact ⟨hs, hroom, rfl⟩
  · rcases ho : oldestReassembly s.inbound.reassemblies.entries with _ | ⟨key, r⟩
    · have := oldestReassembly_eq_none ho
      have hpos := w.reassemblyLimit_pos
      simp only [OrderedMap.size, this, List.length_nil] at hroom
      omega
    · have h : makeReassemblyRoom w s = (do cancelTimer r.timer; deleteReassembly key) s := by
        unfold makeReassemblyRoom
        rw [bind_of_eq (rfl : getInbound s = (s.inbound, s)), if_neg hroom, ho]
      have hkeeps : Keeps State.intake (assembly w.reassemblyLimit)
          (do cancelTimer r.timer; deleteReassembly key : Handler P Unit) := inferInstance
      rw [h]
      refine ⟨(hkeeps.keeps s hs).1, ?_, rfl⟩
      have hhas : s.inbound.reassemblies.has key = true :=
        OrderedMap.has_eq_true_iff.2 ⟨r, OrderedMap.get_eq_some_iff.2 (oldestReassembly_mem ho)⟩
      exact (OrderedMap.size_delete_lt hhas).trans_le hs.size_le

/-- A reassembly that is begun has nothing in it. -/
theorem sound_begun (frame : LinkFrame) (packet : RadioPacket) (expiresAt timer : ℕ)
    (notes : List Note) :
    Reassembly.Sound notes (reassemblyKey frame.identity)
      { identity := frame.identity, chunks := .empty, chunkCount := frame.chunkCount,
        byteLength := 0, expiresAt := expiresAt, lastReceivedAt := packet.receivedAt,
        radioPacketID := packet.radioPacketID, timer := timer } where
  key_eq := rfl
  chunk index payload h := by simp at h
  byteLength_eq := rfl
  byteLength_le := Nat.zero_le _

theorem openReassembly_spec (frame : LinkFrame) (packet : RadioPacket) {s : State P}
    (hs : AssemblyInv w.reassemblyLimit s.intake) :
    AssemblyInv w.reassemblyLimit (openReassembly w frame packet s).2.intake ∧
      (openReassembly w frame packet s).2.inbound.reassemblies.get (reassemblyKey frame.identity) =
        some (openReassembly w frame packet s).1 ∧
      (openReassembly w frame packet s).2.notes = s.notes := by
  rcases hget : s.inbound.reassemblies.get (reassemblyKey frame.identity) with _ | r
  · have hroom := makeReassemblyRoom_spec w hs
    set s₁ := (makeReassemblyRoom w s).2
    set s₂ : State P :=
      { s₁ with
        clock := s₁.clock.schedule w.reassemblyTimeoutMs
          (.expireReassembly (reassemblyKey frame.identity)) }
    set r : Reassembly :=
      { identity := frame.identity, chunks := .empty, chunkCount := frame.chunkCount,
        byteLength := 0, expiresAt := s₂.clock.now + deadlineMs frame.identity.priority,
        lastReceivedAt := packet.receivedAt, radioPacketID := packet.radioPacketID,
        timer := s₁.clock.nextHandle }
    have hopen : openReassembly w frame packet s =
        (r, (setReassembly (reassemblyKey frame.identity) r s₂).2) := by
      unfold openReassembly
      dsimp only
      rw [bind_of_eq (rfl : getInbound s = (s.inbound, s)), hget]
      rfl
    have hs₂ : AssemblyInv w.reassemblyLimit s₂.intake := hroom.1
    rw [hopen]
    exact ⟨hs₂.set (sound_begun frame packet _ _ _) (.inr hroom.2.1), OrderedMap.get_set_self,
      hroom.2.2⟩
  · have hopen : openReassembly w frame packet s = (r, s) := by
      unfold openReassembly
      dsimp only
      rw [bind_of_eq (rfl : getInbound s = (s.inbound, s)), hget]
      rfl
    rw [hopen]
    exact ⟨hs, hget, rfl⟩

/-- The key tells message IDs apart once the rest of the identity agrees, and the rest is what the
comparison of a frame with the reassembly looks at. -/
theorem sameMessage_of_sameFrameSet {r : Reassembly} {frame : LinkFrame}
    (hkey : reassemblyKey frame.identity = reassemblyKey r.identity)
    (hsame : sameFrameSet r frame = true) :
    frame.chunkCount = r.chunkCount ∧ SameMessage frame.identity r.identity := by
  simp only [sameFrameSet, Bool.and_eq_true, decide_eq_true_eq] at hsame
  obtain ⟨⟨⟨⟨⟨⟨⟨⟨hcount, htype⟩, hsource⟩, hdestination⟩, hgeneration⟩, hsession⟩, hsequence⟩,
    hoperation⟩, hpriority⟩ := hsame
  have hmessage : frame.identity.messageID = r.identity.messageID := by
    simp only [reassemblyKey, hsource, hgeneration, hsession] at hkey
    exact String.append_right_inj _ |>.1 hkey
  exact ⟨hcount.symm, hsource.symm, hgeneration.symm, hsession.symm, hmessage, hsequence.symm,
    hoperation.symm, hdestination.symm, htype.symm, hpriority.symm⟩

/-- A reassembly with a frame's chunk added. -/
def Reassembly.with (r : Reassembly) (frame : LinkFrame) (packet : RadioPacket) : Reassembly :=
  { r with
    chunks := r.chunks.set frame.chunkIndex frame.payload
    byteLength := r.byteLength + frame.payload.length
    lastReceivedAt := packet.receivedAt
    radioPacketID := packet.radioPacketID <|> r.radioPacketID }

theorem Reassembly.Sound.with {notes : List Note} {r : Reassembly} {frame : LinkFrame}
    (packet : RadioPacket) (h : r.Sound notes (reassemblyKey frame.identity))
    (hreceived : Note.received frame ∈ notes) (hsame : sameFrameSet r frame = true)
    (hnew : r.chunks.has frame.chunkIndex = false)
    (hlength : r.byteLength + frame.payload.length ≤ maxLinkMessageBytes) :
    (r.with frame packet).Sound notes (reassemblyKey frame.identity) where
  key_eq := h.key_eq
  chunk index payload hget := by
    have hget' : (r.chunks.set frame.chunkIndex frame.payload).get index = some payload := hget
    rw [OrderedMap.get_set] at hget'
    split_ifs at hget' with hindex
    · obtain ⟨hcount, hmessage⟩ := sameMessage_of_sameFrameSet h.key_eq hsame
      exact ⟨frame, hreceived, hindex.symm, Option.some.inj hget', hcount, hmessage⟩
    · exact h.chunk index payload hget'
  byteLength_eq := by
    show r.byteLength + frame.payload.length =
      ((r.chunks.set frame.chunkIndex frame.payload).values.map List.length).sum
    rw [OrderedMap.values_set_of_not_has hnew, h.byteLength_eq]
    simp
  byteLength_le := hlength

/-- As many chunks as the message has, with indices below that number, are all of them. -/
theorem Reassembly.Sound.has_chunk {notes : List Note} {key : String} {r : Reassembly}
    (h : r.Sound notes key) (hfull : r.chunks.size = r.chunkCount) {index : ℕ}
    (hindex : index < r.chunkCount) : ∃ payload, r.chunks.get index = some payload := by
  have hsub : r.chunks.keys.toFinset ⊆ Finset.range r.chunkCount := by
    intro i hi
    obtain ⟨⟨i', payload⟩, he, rfl⟩ := List.mem_map.1 (List.mem_toFinset.1 hi)
    obtain ⟨frame, -, hi', -, hcount, -⟩ := h.chunk i' payload (OrderedMap.get_eq_some_iff.2 he)
    have := frame.index_lt
    rw [Finset.mem_range]
    show i' < r.chunkCount
    omega
  have hcard : r.chunks.keys.toFinset.card = r.chunkCount := by
    have hnodup : r.chunks.keys.Nodup := r.chunks.nodup
    rw [List.toFinset_card_of_nodup hnodup, ← hfull]
    exact List.length_map _
  have heq : r.chunks.keys.toFinset = Finset.range r.chunkCount :=
    Finset.eq_of_subset_of_card_le hsub (by rw [hcard, Finset.card_range])
  have hmem : index ∈ r.chunks.keys.toFinset := by
    rw [heq, Finset.mem_range]
    exact hindex
  obtain ⟨⟨i', payload⟩, he, rfl⟩ := List.mem_map.1 (List.mem_toFinset.1 hmem)
  exact ⟨payload, OrderedMap.get_eq_some_iff.2 he⟩

theorem Reassembly.Sound.assembled {notes : List Note} {key : String} {r : Reassembly}
    (h : r.Sound notes key) (hfull : r.chunks.size = r.chunkCount) :
    Assembled notes r.identity (joinChunks r) := by
  have hframe : ∀ index : Fin r.chunkCount, ∃ frame : LinkFrame, Note.received frame ∈ notes ∧
      frame.chunkIndex = index ∧ r.chunks.get index = some frame.payload ∧
      frame.chunkCount = r.chunkCount ∧ SameMessage frame.identity r.identity := by
    intro index
    obtain ⟨payload, hget⟩ := h.has_chunk hfull index.2
    obtain ⟨frame, hreceived, hindex, hpayload, hrest⟩ := h.chunk index payload hget
    exact ⟨frame, hreceived, hindex, hpayload ▸ hget, hrest⟩
  choose frames hreceived hindex hpayload hcount hmessage using hframe
  have hrange : List.range r.chunkCount = List.ofFn fun index : Fin r.chunkCount => (index : ℕ) :=
    List.ext_getElem (by simp) (by simp)
  refine ⟨List.ofFn frames, ?_, ?_, ?_⟩
  · rw [List.map_ofFn, List.length_ofFn, hrange]
    exact congrArg List.ofFn (funext hindex)
  · intro frame hmem
    obtain ⟨index, rfl⟩ := List.mem_ofFn.1 hmem
    rw [List.length_ofFn]
    exact ⟨hreceived index, hcount index, hmessage index⟩
  · unfold joinChunks
    rw [List.flatMap, List.flatMap, hrange, List.map_ofFn, List.map_ofFn]
    refine congrArg (fun f => (List.ofFn f).flatten) (funext fun index => ?_)
    simp [hpayload]

theorem addChunk_spec {r : Reassembly} {frame : LinkFrame} (packet : RadioPacket) {s : State P}
    (hs : AssemblyInv w.reassemblyLimit s.intake)
    (hget : s.inbound.reassemblies.get (reassemblyKey frame.identity) = some r)
    (hreceived : Note.received frame ∈ s.notes) :
    AssemblyInv w.reassemblyLimit (addChunk w r frame packet s).2.intake ∧
      ∀ complete, (addChunk w r frame packet s).1 = some complete →
        Assembled (addChunk w r frame packet s).2.notes complete.identity complete.bytes := by
  have hsound := hs.sound _ r hget
  have hhas : s.inbound.reassemblies.has (reassemblyKey frame.identity) = true :=
    OrderedMap.has_eq_true_iff.2 ⟨r, hget⟩
  have hdelete : Keeps State.intake (assembly w.reassemblyLimit)
      (do cancelTimer r.timer; deleteReassembly (reassemblyKey frame.identity) : Handler P Unit) :=
    inferInstance
  unfold addChunk
  dsimp only
  split_ifs with hsame hnew hlength hfull
  · exact ⟨hs, fun complete h => nomatch h⟩
  · exact ⟨hs, fun complete h => nomatch h⟩
  · exact ⟨(hdelete.keeps s hs).1, fun complete h => nomatch h⟩
  · -- The chunk is not the last one.
    have hwith := hsound.with packet hreceived (by simpa using hsame) (by simpa using hnew)
      (not_lt.1 hlength)
    refine ⟨?_, fun complete h => nomatch h⟩
    refine AssemblyInv.set (s := { s with clock := _ }) hs ?_ (.inl hhas)
    exact ⟨hwith.key_eq, hwith.chunk, hwith.byteLength_eq, hwith.byteLength_le⟩
  · have hwith := hsound.with packet hreceived (by simpa using hsame) (by simpa using hnew)
      (not_lt.1 hlength)
    refine ⟨(hdelete.keeps s hs).1, fun complete h => ?_⟩
    obtain rfl := Option.some.inj h
    exact hwith.assembled (not_not.1 hfull)

instance (frame : LinkFrame) :
    Keeps State.intake (assembly w.reassemblyLimit) (expectsObjectContent w frame) := by
  unfold expectsObjectContent
  dsimp only
  infer_instance

instance (frame : LinkFrame) :
    Keeps State.intake (assembly w.reassemblyLimit) (admitsFrame w frame) := by
  unfold admitsFrame
  infer_instance

theorem receiveFrame_spec (packet : RadioPacket) {s : State P}
    (hs : AssemblyInv w.reassemblyLimit s.intake) :
    AssemblyInv w.reassemblyLimit (receiveFrame w packet s).2.intake ∧
      ∀ complete, (receiveFrame w packet s).1 = some complete →
        Assembled (receiveFrame w packet s).2.notes complete.identity complete.bytes := by
  by_cases hskip : s.stopped = true ∨ packet.channel ≠ w.privateChannel
  · have h : receiveFrame w packet s = (none, s) := by
      show (if s.stopped = true ∨ packet.channel ≠ w.privateChannel then pure none
        else _ : Handler P (Option Complete)) s = _
      rw [if_pos hskip]
      rfl
    rw [h]
    exact ⟨hs, fun complete h => by cases h⟩
  rcases hdecode : w.decodeFrame packet.payload with _ | frame
  · have h : receiveFrame w packet s = (none, s) := by
      unfold receiveFrame
      rw [bind_of_eq (rfl : isStopped s = (s.stopped, s)), if_neg hskip, hdecode]
      rfl
    rw [h]
    exact ⟨hs, fun complete h => by cases h⟩
  set s₁ : State P := { s with notes := .received frame :: s.notes }
  have hnote : Keeps State.intake (assembly w.reassemblyLimit)
      (note (.received frame) : Handler P Unit) := note_keeps rfl
  have hadmit : Keeps State.intake (assembly w.reassemblyLimit) (admitsFrame w frame) :=
    inferInstance
  obtain ⟨hs₂, hsub⟩ := hadmit.keeps s₁ (hnote.keeps s hs).1
  have hreceive : receiveFrame w packet s =
      (if (admitsFrame w frame s₁).1 = true then do
          let r ← openReassembly w frame packet
          addChunk w r frame packet
        else pure none : Handler P (Option Complete)) (admitsFrame w frame s₁).2 := by
    unfold receiveFrame
    rw [bind_of_eq (rfl : isStopped s = (s.stopped, s)), if_neg hskip, hdecode]
    rfl
  rw [hreceive]
  split_ifs
  · obtain ⟨hs₃, hget, hnotes⟩ := openReassembly_spec w frame packet hs₂
    have hreceived : Note.received frame ∈ (openReassembly w frame packet
        (admitsFrame w frame s₁).2).2.notes := by
      rw [hnotes]
      exact hsub List.mem_cons_self
    exact addChunk_spec w packet hs₃ hget hreceived
  · exact ⟨hs₂, fun complete h => by cases h⟩

section Whole

variable [hemit : ∀ event, Keeps State.intake (assembly w.reassemblyLimit) (emit w event)]

/-- What is complete is noted and handed on. -/
theorem receive_invariant (packet : RadioPacket) {s : State P}
    (hs : AssemblyInv w.reassemblyLimit s.intake) :
    AssemblyInv w.reassemblyLimit (receive w packet s).2.intake := by
  obtain ⟨hs₁, hassembled⟩ := receiveFrame_spec w packet hs
  rcases hrun : receiveFrame w packet s with ⟨found, s₁⟩
  rw [hrun] at hs₁ hassembled
  unfold receive
  rw [bind_of_eq hrun]
  cases found with
  | none => exact hs₁
  | some complete =>
    set s₂ : State P := { s₁ with notes := .completed complete.identity complete.bytes :: s₁.notes }
    have hs₂ : AssemblyInv w.reassemblyLimit s₂.intake := by
      refine ⟨fun key r hr => (hs₁.sound key r hr).mono (List.subset_cons_self _ _), hs₁.size_le,
        hs₁.assembled.cons fun identity bytes heq => ?_⟩
      cases heq
      exact hassembled complete rfl
    have hopened : Keeps State.intake (assembly w.reassemblyLimit) (do
        let message ← openMessage w complete.identity complete.bytes
        interceptControl w complete.identity message) := inferInstance
    have hs₃ : AssemblyInv w.reassemblyLimit
        (openComplete w complete.identity complete.bytes s₁).2.intake := (hopened.keeps s₂ hs₂).1
    show AssemblyInv w.reassemblyLimit (handleCompleteMessage w _ _ _ s₁).2.intake
    unfold handleCompleteMessage
    rcases hopen : openComplete w complete.identity complete.bytes s₁ with ⟨message, s₃⟩
    rw [hopen] at hs₃
    rw [bind_of_eq hopen]
    cases message with
    | none => exact hs₃
    | some message =>
      have haccept : Keeps State.intake (assembly w.reassemblyLimit)
          (acceptMessage w message complete.identity complete.radioPacketID) := inferInstance
      exact (haccept.keeps s₃ hs₃).1

omit hemit in
/-- A reassembly is given a new timer. -/
theorem rearm_keeps (key : String) (timer : ℕ) : Keeps State.intake (assembly limit) (do
    match (← getInbound).reassemblies.get key with
    | none => pure ()
    | some r => setReassembly key { r with timer := timer } : Handler P Unit) where
  keeps s hs := by
    show (assembly limit).Inv (State.intake ((match s.inbound.reassemblies.get key with
      | none => pure ()
      | some r => setReassembly key { r with timer := timer } : Handler P Unit) s).2) ∧
        s.notes ⊆ ((match s.inbound.reassemblies.get key with
      | none => pure ()
      | some r => setReassembly key { r with timer := timer } : Handler P Unit) s).2.notes
    rcases hget : s.inbound.reassemblies.get key with _ | r
    · exact ⟨hs, List.Subset.refl _⟩
    · have hr := hs.sound key r hget
      have hr' : Reassembly.Sound s.notes key { r with timer := timer } :=
        ⟨hr.key_eq, hr.chunk, hr.byteLength_eq, hr.byteLength_le⟩
      exact ⟨hs.set hr' (.inl (OrderedMap.has_eq_true_iff.2 ⟨r, hget⟩)), List.Subset.refl _⟩

instance (key : String) :
    Keeps State.intake (assembly w.reassemblyLimit) (expireReassembly w key) := by
  unfold expireReassembly
  refine .past fun i => ?_
  split
  · infer_instance
  · refine .past fun now => ?_
    dsimp only
    split
    · refine .past fun _ => .past fun timer => ?_
      exact rearm_keeps key timer
    · infer_instance

omit hemit in
instance : Keeps State.intake (assembly w.reassemblyLimit) (beginStop : Handler P Unit) := by
  have hstop : Keeps State.intake (assembly w.reassemblyLimit)
      (modify fun s : State P => { s with stopped := true } : Handler P Unit) :=
    assembly_keeps fun s => ⟨⟨le_rfl, fun _ _ h => h⟩, [], rfl, by simp⟩
  have hempty : Keeps State.intake (assembly w.reassemblyLimit)
      (modifyInbound fun i : Inbound P => { i with reassemblies := .empty }) :=
    assembly_keeps fun s => ⟨⟨Nat.zero_le _, fun _ _ h => nomatch h⟩, [], rfl, by simp⟩
  have hcancel : ∀ rs : List Reassembly,
      Silent State.view (rs.forM fun r => (cancelTimer r.timer : Handler P Unit)) :=
    fun rs => .forM (fun r => inferInstance) _
  unfold beginStop
  refine .past fun _ => .past fun s => .past fun _ => .past fun _ => .past fun _ => ?_
  infer_instance

instance (reason : String) : Keeps State.intake (assembly w.reassemblyLimit) (stop w reason) := by
  have hfail : ∀ rs : List ℕ,
      Keeps State.intake (assembly w.reassemblyLimit) (rs.forM fun r => failForStop w reason r) :=
    fun rs => .forM (fun r => inferInstance) _
  have hcancel : ∀ ps : List PendingInbound,
      Silent State.view (ps.forM fun p => (cancelTimer p.timer : Handler P Unit)) :=
    fun ps => .forM (fun p => inferInstance) _
  have hempty : Keeps State.intake (assembly w.reassemblyLimit)
      (modifyInbound fun i : Inbound P => { i with pendingInbound := .empty }) :=
    modifyInbound_keeps fun _ => rfl
  have hnote : Keeps State.intake (assembly w.reassemblyLimit) (note .stopped : Handler P Unit) :=
    note_keeps rfl
  unfold stop
  refine .past fun stopped => ?_
  split
  · infer_instance
  · refine .past fun _ => .past fun o => .past fun _ => .past fun _ => .past fun i => ?_
    infer_instance

instance : Upheld w (assembly w.reassemblyLimit) where
  expireReassembly _ := inferInstance
  settleInbound _ _ _ := inferInstance
  settleInboundWithTaskReport _ _ _ _ := inferInstance
  expirePendingInbound _ := inferInstance
  stop _ := inferInstance

end Whole

end Packets

/-- Whatever frames come and whatever else happens, a message is handed on only with the chunks of
that message in their order, and what is being reassembled stays within its bounds. -/
theorem reassembly_integrity {env : Env P} {listeners : Listeners P} {depth : ℕ}
    {Guard : State P → Step P → Prop} {s : State P} (h : Run (env.wired listeners depth) Guard s) :
    CompletionsAssembled s.notes ∧
      s.inbound.reassemblies.size ≤ env.reassemblyLimit ∧
      ∀ key r, s.inbound.reassemblies.get key = some r →
        r.byteLength = (r.chunks.values.map List.length).sum ∧
          r.byteLength ≤ maxLinkMessageBytes := by
  set w := env.wired listeners depth
  have hw : w.toEnv = env := by cases depth <;> rfl
  have hemit : ∀ event, Keeps State.intake (assembly w.reassemblyLimit) (emit w event) := by
    rw [hw]
    refine emit_wired (fun w' hw' hemit' call => ?_) listeners depth
    subst hw'
    exact call_keeps w' _ call
  have hinv : AssemblyInv w.reassemblyLimit s.intake := by
    refine @Run.invariant P w Guard (fun s => AssemblyInv w.reassemblyLimit s.intake) ?_ ?_ s h
    · intro b
      refine ⟨fun key r hr => (nomatch hr), Nat.zero_le _, ?_⟩
      intro later identity bytes earlier heq
      simp [State.intake, Beginning.state] at heq
    · intro s step _ hs
      exact step_invariant w (assembly w.reassemblyLimit)
        (fun packet hs => receive_invariant w packet hs)
        (fun v ms hv => ⟨hv.sound, hv.size_le, hv.assembled⟩) step hs
  rw [hw] at hinv
  refine ⟨hinv.assembled, hinv.size_le, fun key r hr => ?_⟩
  have := hinv.sound key r hr
  exact ⟨this.byteLength_eq, this.byteLength_le⟩

section TwoChunks

def twoChunksIdentity : FrameIdentity where
  messageType := .taskReport
  source := ⟨.asset, "uav-7"⟩
  destination := some ⟨.gateway, "gw"⟩
  sourceGeneration := 1
  serviceSession := "boot-1"
  sourceSequence := 4
  operationID := "op-4"
  messageID := "m-4"
  receipt := none
  priority := .task

def twoChunksFrames : List (String × LinkFrame) :=
  [("\x7b\"d\":\"g:gw\",\"g\":1,\"i\":0,\"k\":\"p\",\"m\":\"m-4\",\"n\":2,\"o\":\"op-4\",\"p\":\"ew\",\"q\":4,\"s\":\"a:uav-7\",\"v\":1,\"x\":\"boot-1\",\"y\":\"t\"\x7d",
    ⟨twoChunksIdentity, 0, 2, [0x7b], by decide, by decide⟩),
   ("\x7b\"d\":\"g:gw\",\"g\":1,\"i\":1,\"k\":\"p\",\"m\":\"m-4\",\"n\":2,\"o\":\"op-4\",\"p\":\"fQ\",\"q\":4,\"s\":\"a:uav-7\",\"v\":1,\"x\":\"boot-1\",\"y\":\"t\"\x7d",
    ⟨twoChunksIdentity, 1, 2, [0x7d], by decide, by decide⟩)]

/-- The second chunk of a message comes first, twice, and then the first one. -/
def twoChunks : State plainParts :=
  runSteps ((plainEnv ⟨.gateway, "gw"⟩ twoChunksFrames [] []).wired (fun _ _ _ => []) 0)
    ([1, 1, 0].map fun i =>
      .packet ⟨((twoChunksFrames.map Prod.fst).getD i "").toUTF8.toList, 0, none, 1⟩)
    plainBeginning.state

def Note.completedBytes : Note → Option Bytes
  | .completed _ bytes => some bytes
  | _ => none

theorem twoChunks_completed :
    twoChunks.notes.filterMap Note.completedBytes = [[0x7b, 0x7d]] := by
  rw [twoChunks, plainEnv_byBytes, twoChunksFrames]
  simp only [byBytes, List.map_cons, List.map_nil, List.getD_cons_succ, List.getD_cons_zero]
  rw [toUTF8_ofList, toUTF8_ofList]
  decide +kernel

theorem reassembly_integrity_two_chunks :
    twoChunks.notes.filterMap Note.completedBytes = [[0x7b, 0x7d]] ∧
      CompletionsAssembled twoChunks.notes ∧ twoChunks.inbound.reassemblies.size ≤ 64 ∧
      ∀ key r, twoChunks.inbound.reassemblies.get key = some r →
        r.byteLength = (r.chunks.values.map List.length).sum ∧
          r.byteLength ≤ maxLinkMessageBytes :=
  ⟨twoChunks_completed,
    @reassembly_integrity plainParts (plainEnv ⟨.gateway, "gw"⟩ twoChunksFrames [] [])
      (fun _ _ _ => []) 0 (fun _ _ => True) twoChunks
      (Run.steps _ (.begin plainBeginning) fun _ _ _ _ => trivial)⟩

end TwoChunks

end Atlas.Link
