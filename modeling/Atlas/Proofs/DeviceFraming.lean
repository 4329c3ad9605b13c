import Atlas.Link.DeviceFraming

/-!
# Device framing does not depend on chunking

What the loop makes of a buffer it also makes of any longer one, up to where it stopped
(`parseFrames_append`): an incomplete frame is looked at again from its first byte, and a byte that
was dropped would have been skipped. So after any chunks the stream has done what the loop does with
their bytes in one piece (`feed_sound`). A frame of which a byte is missing is at most as long as
its header lets it be, which bounds what is kept.
-/

namespace Atlas.Link

namespace Parsed

/-- A parse that comes after one that gave these packets. -/
def after (packets : List Bytes) (p : Parsed) : Parsed := { p with packets := packets ++ p.packets }

@[simp]
theorem after_nil (p : Parsed) : p.after [] = p := rfl

end Parsed

section Parsing

variable {allowDebug : Bool}

theorem length_lt_two {buffer : Bytes}
    (h : ∀ (first second : UInt8) (rest : Bytes), buffer = first :: second :: rest → False) :
    buffer.length < 2 := by
  rcases buffer with _ | ⟨first, _ | ⟨second, rest⟩⟩
  · simp
  · simp
  · exact absurd rfl (h first second rest)

/-- A buffer of less than two bytes is kept as it is. -/
theorem parseFrames_of_length_lt {buffer : Bytes} (h : buffer.length < 2) :
    parseFrames allowDebug buffer = ⟨[], buffer, none⟩ := by
  rcases buffer with _ | ⟨first, _ | ⟨second, rest⟩⟩
  · rw [parseFrames.eq_def]
  · rw [parseFrames.eq_def]
  · simp only [List.length_cons] at h
    omega

theorem parseFrames_skip {first second : UInt8} {rest : Bytes}
    (h : allowDebug = true ∧ (first ≠ markerFirst ∨ second ≠ markerSecond)) :
    parseFrames allowDebug (first :: second :: rest) = parseFrames allowDebug (second :: rest) := by
  rw [parseFrames_cons_cons, if_pos h]

/-- With less than a header nothing is decided. -/
theorem parseFrames_few {first second : UInt8} {rest : Bytes}
    (hd : ¬(allowDebug = true ∧ (first ≠ markerFirst ∨ second ≠ markerSecond)))
    (h : rest.length < 2) :
    parseFrames allowDebug (first :: second :: rest) = ⟨[], first :: second :: rest, none⟩ := by
  rcases rest with _ | ⟨high, _ | ⟨low, body⟩⟩
  · rw [parseFrames_cons_cons, if_neg hd]
  · rw [parseFrames_cons_cons, if_neg hd]
  · simp only [List.length_cons] at h
    omega

theorem parseFrames_short {first second high low : UInt8} {body : Bytes}
    (h : ¬(first ≠ markerFirst ∨ second ≠ markerSecond))
    (hl : body.length < high.toNat * 256 + low.toNat) :
    parseFrames allowDebug (first :: second :: high :: low :: body) =
      ⟨[], first :: second :: high :: low :: body, none⟩ := by
  rw [parseFrames_cons_cons, if_neg fun hd => h hd.2]
  simp only [if_neg h, if_pos hl]

theorem parseFrames_invalid {first second high low : UInt8} {body : Bytes}
    (hd : ¬(allowDebug = true ∧ (first ≠ markerFirst ∨ second ≠ markerSecond)))
    (h : first ≠ markerFirst ∨ second ≠ markerSecond) :
    parseFrames allowDebug (first :: second :: high :: low :: body) =
      ⟨[], first :: second :: high :: low :: body, some .invalidHeader⟩ := by
  rw [parseFrames_cons_cons, if_neg hd]
  simp only [if_pos h]

theorem parseFrames_frame {first second high low : UInt8} {body : Bytes}
    (h : ¬(first ≠ markerFirst ∨ second ≠ markerSecond))
    (hl : high.toNat * 256 + low.toNat ≤ body.length) :
    parseFrames allowDebug (first :: second :: high :: low :: body) =
      (parseFrames allowDebug (body.drop (high.toNat * 256 + low.toNat))).packet
        (body.take (high.toNat * 256 + low.toNat)) := by
  rw [parseFrames_cons_cons, if_neg fun hd => h hd.2]
  simp only [if_neg h, if_neg (Nat.not_lt.2 hl)]

/-- A longer buffer is parsed like its beginning, and then on from where that stopped. -/
theorem parseFrames_append (buffer more : Bytes) :
    (∀ error, (parseFrames allowDebug buffer).error = some error →
        (parseFrames allowDebug (buffer ++ more)).packets =
            (parseFrames allowDebug buffer).packets
          ∧ (parseFrames allowDebug (buffer ++ more)).error = some error)
      ∧ ((parseFrames allowDebug buffer).error = none →
        parseFrames allowDebug (buffer ++ more) =
          (parseFrames allowDebug ((parseFrames allowDebug buffer).rest ++ more)).after
            (parseFrames allowDebug buffer).packets) := by
  induction buffer using parseFrames.induct allowDebug with
  | case1 first second rest hskip ih =>
    simp only [List.cons_append, parseFrames_skip hskip] at ih ⊢
    exact ih
  | case2 first second hd high low body hbad =>
    simp [parseFrames_invalid hd hbad]
  | case3 first second hd high low body hgood length hshort =>
    simp [parseFrames_short hgood hshort]
  | case4 first second hd high low body hgood length hlong ih =>
    have hl : length ≤ body.length := Nat.not_lt.1 hlong
    have hl' : length ≤ (body ++ more).length := by
      rw [List.length_append]
      omega
    simp only [List.cons_append]
    rw [parseFrames_frame hgood hl, parseFrames_frame hgood hl', List.drop_append_of_le_length hl,
      List.take_append_of_le_length hl]
    constructor
    · intro error he
      obtain ⟨hp, hr⟩ := ih.1 error he
      exact ⟨congrArg (List.cons _) hp, hr⟩
    · intro he
      rw [ih.2 he]
      rfl
  | case5 first second rest hd hfew =>
    simp [parseFrames_few hd (length_lt_two hfew)]
  | case6 buffer hfew =>
    simp [parseFrames_of_length_lt (length_lt_two hfew)]

/-- A byte that is not kept would have been skipped. -/
theorem parseFrames_retained (rest more : Bytes) :
    (parseFrames allowDebug (retained allowDebug rest ++ more)).packets =
        (parseFrames allowDebug (rest ++ more)).packets
      ∧ (parseFrames allowDebug (retained allowDebug rest ++ more)).error =
        (parseFrames allowDebug (rest ++ more)).error
      ∧ retained allowDebug (parseFrames allowDebug (retained allowDebug rest ++ more)).rest =
        retained allowDebug (parseFrames allowDebug (rest ++ more)).rest := by
  unfold retained
  split
  · rename_i byte
    split_ifs with h
    · rcases more with _ | ⟨next, more⟩
      · simp [parseFrames_of_length_lt, h]
      · have hskip : parseFrames allowDebug ([byte] ++ next :: more) =
            parseFrames allowDebug (next :: more) := parseFrames_skip ⟨h.1, .inl h.2⟩
        rw [hskip]
        exact ⟨rfl, rfl, rfl⟩
    · exact ⟨rfl, rfl, rfl⟩
  · exact ⟨rfl, rfl, rfl⟩

/-- A frame of which something is missing has at most all bytes but one. -/
theorem parseFrames_rest_le : ∀ buffer : Bytes, (parseFrames allowDebug buffer).error = none →
    (parseFrames allowDebug buffer).rest.length ≤ 65538
  | [], _ => by simp [parseFrames_of_length_lt]
  | [_], _ => by simp [parseFrames_of_length_lt]
  | first :: second :: rest, h => by
    by_cases hd : allowDebug = true ∧ (first ≠ markerFirst ∨ second ≠ markerSecond)
    · rw [parseFrames_skip hd] at h ⊢
      exact parseFrames_rest_le (second :: rest) h
    rcases hrest : rest with _ | ⟨high, _ | ⟨low, body⟩⟩
    · simp [parseFrames_few hd]
    · simp [parseFrames_few hd]
    rw [hrest] at h
    by_cases hbad : first ≠ markerFirst ∨ second ≠ markerSecond
    · simp [parseFrames_invalid hd hbad] at h
    by_cases hshort : body.length < high.toNat * 256 + low.toNat
    · rw [parseFrames_short hbad hshort]
      have hhigh : high.toNat < 256 := high.toNat_lt
      have hlow : low.toNat < 256 := low.toNat_lt
      simp only [List.length_cons]
      omega
    · rw [parseFrames_frame hbad (Nat.not_lt.1 hshort)] at h ⊢
      exact parseFrames_rest_le (body.drop (high.toNat * 256 + low.toNat)) h
  termination_by buffer => buffer.length
  decreasing_by
    · simp
    · rw [hrest]
      simp only [List.length_drop, List.length_cons]
      omega

theorem retained_length_le (rest : Bytes) : (retained allowDebug rest).length ≤ rest.length := by
  unfold retained
  split
  · split_ifs <;> simp
  · exact le_rfl

end Parsing

namespace DeviceFrameStream

variable {allowDebug : Bool}

/-- The stream has done with some bytes what the loop does with them in one piece. -/
structure Sound (allowDebug : Bool) (bytes : Bytes) (s : DeviceFrameStream) : Prop where
  packets : s.packets = (parseFrames allowDebug bytes).packets
  error : s.error = (parseFrames allowDebug bytes).error
  pending : s.error = none → s.pending = retained allowDebug (parseFrames allowDebug bytes).rest

theorem Sound.transform {bytes : Bytes} {s : DeviceFrameStream} (h : Sound allowDebug bytes s)
    (chunk : Bytes) : Sound allowDebug (bytes ++ chunk) (s.transform allowDebug chunk) := by
  obtain ⟨hfailed, hgoes⟩ := @parseFrames_append allowDebug bytes chunk
  unfold DeviceFrameStream.transform
  split_ifs with hs
  · obtain ⟨error, he⟩ := Option.isSome_iff_exists.1 hs
    obtain ⟨hp, hr⟩ := hfailed error (h.error ▸ he)
    refine ⟨by rw [h.packets, hp], by rw [he, hr], fun hn => ?_⟩
    rw [he] at hn
    exact absurd hn (by simp)
  · have hn : s.error = none := by simpa using hs
    have hall := hgoes (h.error ▸ hn)
    obtain ⟨hp, hr, hk⟩ := @parseFrames_retained allowDebug
      (parseFrames allowDebug bytes).rest chunk
    rw [h.pending hn]
    simp only []
    split
    · rename_i error he
      refine ⟨?_, ?_, fun hno => by simp at hno⟩
      · rw [hall, h.packets, hp]
        rfl
      · rw [hall, ← he, hr]
        rfl
    · rename_i he
      refine ⟨?_, ?_, fun _ => ?_⟩
      · rw [hall, h.packets, hp]
        rfl
      · rw [hall, ← he, hr]
        rfl
      · rw [hall]
        exact hk

theorem feed_sound (chunks : List Bytes) :
    Sound allowDebug chunks.flatten (feed allowDebug chunks) := by
  induction chunks using List.reverseRecOn with
  | nil =>
    have hempty : parseFrames allowDebug [] = ⟨[], [], none⟩ := parseFrames_of_length_lt (by simp)
    exact ⟨by simp [feed, new, hempty], by simp [feed, new, hempty],
      fun _ => by simp [feed, new, hempty, retained]⟩
  | append_singleton chunks chunk ih =>
    have := ih.transform chunk
    simpa [feed] using this

theorem transform_pending_le {s : DeviceFrameStream} (h : s.pending.length ≤ 65538)
    (chunk : Bytes) : (s.transform allowDebug chunk).pending.length ≤ 65538 := by
  unfold DeviceFrameStream.transform
  split_ifs
  · exact h
  · simp only []
    split
    · exact h
    · rename_i he
      exact (retained_length_le _).trans (parseFrames_rest_le _ he)

theorem foldl_pending_le :
    ∀ (chunks : List Bytes) (s : DeviceFrameStream), s.pending.length ≤ 65538 →
      (chunks.foldl (transform allowDebug) s).pending.length ≤ 65538
  | [], _, h => h
  | chunk :: chunks, _, h => foldl_pending_le chunks _ (transform_pending_le h chunk)

/-- What a stream emits and how it ends is said by its bytes alone. -/
theorem decode_eq (chunks : List Bytes) :
    (decode allowDebug chunks).packets = (parseFrames allowDebug chunks.flatten).packets
      ∧ (decode allowDebug chunks).error =
        match (parseFrames allowDebug chunks.flatten).error with
        | some error => some error
        | none =>
          if retained allowDebug (parseFrames allowDebug chunks.flatten).rest ≠ [] then
            some .truncated
          else none := by
  have h := @feed_sound allowDebug chunks
  unfold decode flush
  rw [← h.error, ← h.packets]
  cases he : (feed allowDebug chunks).error with
  | some error => simp [he]
  | none =>
    rw [← h.pending he]
    by_cases hp : (feed allowDebug chunks).pending = [] <;> simp [hp, he]

/-- However a stream of bytes is cut into chunks, the same packets come out of it, up to the same
error if there is one, and never more than an incomplete frame is kept. -/
theorem framing_ignores_chunks (allowDebug : Bool) :
    (∀ chunks chunks' : List Bytes, chunks.flatten = chunks'.flatten →
        (decode allowDebug chunks).packets = (decode allowDebug chunks').packets
          ∧ (decode allowDebug chunks).error = (decode allowDebug chunks').error)
      ∧ ∀ chunks : List Bytes, (feed allowDebug chunks).pending.length ≤ 65538 := by
  refine ⟨fun chunks chunks' h => ?_, fun chunks => foldl_pending_le chunks new (by simp [new])⟩
  obtain ⟨hp, he⟩ := @decode_eq allowDebug chunks
  obtain ⟨hp', he'⟩ := @decode_eq allowDebug chunks'
  rw [hp, he, hp', he', h]
  exact ⟨rfl, rfl⟩

/-- Boot text, a marker cut in two and a payload that holds half a marker. -/
theorem framing_ignores_chunks_bootText :
    (decode true [[98, 0x94], [0xc3, 0, 1], [0x94]]).packets =
        (decode true [[98, 0x94, 0xc3, 0, 1, 0x94]]).packets
      ∧ (decode true [[98, 0x94], [0xc3, 0, 1], [0x94]]).error =
        (decode true [[98, 0x94, 0xc3, 0, 1, 0x94]]).error :=
  (framing_ignores_chunks true).1 _ _ rfl

section Grammar

/-- The frame of a packet: the marker, the length and the bytes. -/
def frameOf (data : Bytes) : Bytes :=
  markerFirst :: markerSecond :: UInt8.ofNat (data.length / 256) :: UInt8.ofNat (data.length % 256)
    :: data

theorem frameOf_eq {high low : UInt8} {data : Bytes}
    (h : data.length = high.toNat * 256 + low.toNat) :
    frameOf data = markerFirst :: markerSecond :: high :: low :: data := by
  have hlow := low.toNat_lt
  have hdiv : data.length / 256 = high.toNat := by omega
  have hmod : data.length % 256 = low.toNat := by omega
  rw [frameOf, hdiv, hmod, UInt8.ofNat_toNat, UInt8.ofNat_toNat]

/-- What a device may send, and the packets in it: frames, and on a serial line bytes of text, of
which none can be taken for the start of a frame. -/
inductive DeviceStream (allowDebug : Bool) : Bytes → List Bytes → Prop
  | nil : DeviceStream allowDebug [] []
  | packet {data bytes packets} : data.length < 65536 → DeviceStream allowDebug bytes packets →
    DeviceStream allowDebug (frameOf data ++ bytes) (data :: packets)
  | text {byte bytes packets} : allowDebug = true →
    (byte = markerFirst → ∃ next rest, bytes = next :: rest ∧ next ≠ markerSecond) →
    DeviceStream allowDebug bytes packets → DeviceStream allowDebug (byte :: bytes) packets

variable {bytes : Bytes} {packets : List Bytes}

theorem DeviceStream.parsed (h : DeviceStream allowDebug bytes packets) :
    (parseFrames allowDebug bytes).packets = packets ∧
      (parseFrames allowDebug bytes).error = none ∧
      retained allowDebug (parseFrames allowDebug bytes).rest = [] := by
  induction h with
  | nil => simp [parseFrames_of_length_lt, retained]
  | @packet data bytes packets hdata _ ih =>
    have hlength : (UInt8.ofNat (data.length / 256)).toNat * 256 +
        (UInt8.ofNat (data.length % 256)).toNat = data.length := by
      rw [UInt8.toNat_ofNat', UInt8.toNat_ofNat']
      omega
    simp only [frameOf, List.cons_append]
    rw [parseFrames_frame (by simp) (by simp only [hlength, List.length_append]; omega), hlength,
      List.drop_left, List.take_left]
    exact ⟨congrArg (List.cons data) ih.1, ih.2⟩
  | @text byte bytes packets hdebug hbyte _ ih =>
    rcases bytes with _ | ⟨next, rest⟩
    · have hne : byte ≠ markerFirst := fun heq => by simpa using hbyte heq
      rw [parseFrames_of_length_lt (by simp)] at ih ⊢
      exact ⟨ih.1, rfl, by simp [retained, hdebug, hne]⟩
    · rw [parseFrames_skip ⟨hdebug, ?_⟩]
      · exact ih
      · by_contra! hmarker
        obtain ⟨next', rest', heq, hne⟩ := hbyte hmarker.1
        exact hne ((List.cons.inj heq).1 ▸ hmarker.2)

/-- What has been read to its end is such a stream. -/
theorem deviceStream_of_parsed (bytes : Bytes) (hnone : (parseFrames allowDebug bytes).error = none)
    (hrest : retained allowDebug (parseFrames allowDebug bytes).rest = []) :
    DeviceStream allowDebug bytes (parseFrames allowDebug bytes).packets := by
  induction bytes using parseFrames.induct allowDebug with
  | case1 first second rest hskip ih =>
    rw [parseFrames_skip hskip] at hnone hrest ⊢
    refine .text hskip.1 (fun heq => ⟨second, rest, rfl, ?_⟩) (ih hnone hrest)
    exact hskip.2.resolve_left (not_not.2 heq)
  | case2 first second hd high low body hbad => simp [parseFrames_invalid hd hbad] at hnone
  | case3 first second hd high low body hgood length hshort =>
    simp [parseFrames_short hgood hshort, retained] at hrest
  | case4 first second hd high low body hgood length hlong ih =>
    have hl : length ≤ body.length := Nat.not_lt.1 hlong
    rw [parseFrames_frame hgood hl] at hnone hrest ⊢
    obtain ⟨rfl, rfl⟩ : first = markerFirst ∧ second = markerSecond := by simpa using hgood
    have hhigh := high.toNat_lt
    have hlow := low.toNat_lt
    have htake : (body.take length).length = length := List.length_take_of_le hl
    have hshort : (body.take length).length < 65536 := by omega
    have hpacket := DeviceStream.packet hshort (ih hnone hrest)
    simp only [frameOf_eq htake, List.cons_append, List.take_append_drop] at hpacket
    exact hpacket
  | case5 first second rest hd hfew =>
    simp [parseFrames_few hd (length_lt_two hfew), retained] at hrest
  | case6 buffer hfew =>
    rw [parseFrames_of_length_lt (length_lt_two hfew)] at hrest ⊢
    rcases buffer with _ | ⟨byte, _ | ⟨second, rest⟩⟩
    · exact .nil
    · simp only [retained, ite_eq_left_iff, reduceCtorEq, imp_false, not_not] at hrest
      exact .text hrest.1 (fun heq => absurd heq hrest.2) .nil
    · exact (hfew byte second rest rfl).elim

/-- However it is cut, a stream is decoded without an error, and into these packets, exactly if it
is their frames, with text between them only on a serial line. -/
theorem decodes_iff (allowDebug : Bool) (chunks packets : List Bytes) :
    (decode allowDebug chunks).packets = packets ∧ (decode allowDebug chunks).error = none ↔
      DeviceStream allowDebug chunks.flatten packets := by
  obtain ⟨hpackets, herror⟩ := @decode_eq allowDebug chunks
  rw [hpackets, herror]
  constructor
  · rintro ⟨rfl, hnone⟩
    split at hnone
    · cases hnone
    · rename_i hparsed
      exact deviceStream_of_parsed _ hparsed (by simpa using hnone)
  · intro h
    obtain ⟨hread, hnone, hrest⟩ := h.parsed
    simp [hread, hnone, hrest]

end Grammar

end DeviceFrameStream

end Atlas.Link
