import Atlas.Link.Zstandard

/-!
# What the Zstandard boundary check accepts

The loop stands at the end of the blocks it has read (`skipBlocks_block`), so what it has walked
over is a sequence of blocks of which the last alone is marked (`skipBlocks_iff`), and the check
accepts just the frames (`zstandard_boundary`).
-/

namespace Atlas.Link.Zstandard

section Bytes

theorem getUint8_append (before rest : Bytes) (i : ℕ) :
    getUint8 (before ++ rest) (before.length + i) = getUint8 rest i := by
  unfold getUint8
  rw [List.getD_append_right _ _ _ _ (Nat.le_add_right _ _), Nat.add_sub_cancel_left]

/-- Bytes put together with shifts are the digits of a number. -/
theorem or_shiftLeft {low high n : ℕ} (h : low < 2 ^ n) :
    low ||| high <<< n = low + 2 ^ n * high := by
  have hadd := Nat.shiftLeft_add_eq_or_of_lt h high
  rw [Nat.or_comm, ← hadd, Nat.shiftLeft_eq]
  ring

theorem getUint16_eq (bytes : Bytes) (i : ℕ) :
    getUint16 bytes i = getUint8 bytes i + 2 ^ 8 * getUint8 bytes (i + 1) :=
  or_shiftLeft (UInt8.toNat_lt _)

theorem getUint16_lt (bytes : Bytes) (i : ℕ) : getUint16 bytes i < 2 ^ 16 := by
  have hlow : getUint8 bytes i < 2 ^ 8 := UInt8.toNat_lt _
  have hhigh : getUint8 bytes (i + 1) < 2 ^ 8 := UInt8.toNat_lt _
  rw [getUint16_eq]
  omega

theorem toNat_ofNat {n : ℕ} (h : n < 2 ^ 8) : (UInt8.ofNat n).toNat = n := by
  rw [UInt8.toNat_ofNat']
  exact Nat.mod_eq_of_lt h

end Bytes

section Blocks

/-- The number of a block's header, of its three bytes. -/
def headerOf (bytes : Bytes) : ℕ :=
  getUint8 bytes 0 + 2 ^ 8 * getUint8 bytes 1 + 2 ^ 16 * getUint8 bytes 2

theorem headerOf_lt (bytes : Bytes) : headerOf bytes < 2 ^ 24 := by
  have h0 : getUint8 bytes 0 < 2 ^ 8 := UInt8.toNat_lt _
  have h1 : getUint8 bytes 1 < 2 ^ 8 := UInt8.toNat_lt _
  have h2 : getUint8 bytes 2 < 2 ^ 8 := UInt8.toNat_lt _
  unfold headerOf
  omega

theorem getUint_header (before rest : Bytes) :
    getUint16 (before ++ rest) before.length
      ||| getUint8 (before ++ rest) (before.length + 2) <<< 16 = headerOf rest := by
  rw [or_shiftLeft (getUint16_lt _ _), getUint16_eq, getUint8_append, getUint8_append]
  have h0 := getUint8_append before rest 0
  rw [Nat.add_zero] at h0
  rw [h0, headerOf]

/-- The length of the content that a header announces. -/
def contentLength (header : ℕ) : ℕ := if header / 2 % 4 = 1 then 1 else header / 8

/-- One round of the loop. -/
theorem skipBlocks_append (before rest : Bytes) : skipBlocks (before ++ rest) before.length
    = if rest.length < 3 then .error .truncatedHeader
      else if headerOf rest / 2 % 4 = 3 then .error .reservedBlockType
      else if rest.length < 3 + contentLength (headerOf rest) then .error .truncatedBlock
      else if headerOf rest % 2 = 1 then .ok (before.length + 3 + contentLength (headerOf rest))
      else skipBlocks (before ++ rest) (before.length + 3 + contentLength (headerOf rest)) := by
  have htype : headerOf rest >>> 1 &&& 3 = headerOf rest / 2 % 4 := by
    rw [Nat.shiftRight_eq_div_pow, Nat.pow_one]
    exact Nat.and_two_pow_sub_one_eq_mod _ 2
  have hlast : headerOf rest &&& 1 ≠ 0 ↔ headerOf rest % 2 = 1 := by
    rw [Nat.and_one_is_mod]
    omega
  have hlength : (if headerOf rest / 2 % 4 = 1 then 1 else headerOf rest >>> 3)
      = contentLength (headerOf rest) := by
    rw [Nat.shiftRight_eq_div_pow]
    rfl
  rw [skipBlocks]
  simp only [getUint_header, htype, hlength, hlast, List.length_append, Nat.add_assoc,
    Nat.add_lt_add_iff_left]

theorem headerOf_bytes (b : Block) (rest : Bytes) : headerOf (b.bytes ++ rest) = b.header := by
  have hsize := b.size.isLt
  have hlast := Bool.toNat_le b.last
  have hlt : b.header < 2 ^ 24 := by
    unfold Block.header
    cases b.type <;> simp only [BlockType.number] <;> omega
  have h0 : getUint8 (b.bytes ++ rest) 0 = b.header % 2 ^ 8 := UInt8.toNat_ofNat'
  have h1 : getUint8 (b.bytes ++ rest) 1 = b.header / 2 ^ 8 % 2 ^ 8 := UInt8.toNat_ofNat'
  have h2 : getUint8 (b.bytes ++ rest) 2 = b.header / 2 ^ 16 % 2 ^ 8 := UInt8.toNat_ofNat'
  unfold headerOf
  omega

theorem Block.header_eq (b : Block) : b.header / 2 % 4 = b.type.number ∧ b.header / 8 = b.size.val
    ∧ b.header % 2 = b.last.toNat := by
  have hlast := Bool.toNat_le b.last
  unfold Block.header
  cases b.type <;> simp only [BlockType.number] <;> omega

theorem Block.contentLength_header (b : Block) : contentLength b.header = b.content.length := by
  obtain ⟨htype, hsize, -⟩ := b.header_eq
  rw [contentLength, htype, hsize, b.length_content]
  cases b.type <;> rfl

theorem Block.length_bytes (b : Block) : b.bytes.length = 3 + b.content.length := by
  unfold Block.bytes
  simp only [List.length_cons]
  omega

/-- The loop goes over a block that is all there, and ends behind it if it is the last. -/
theorem skipBlocks_block (before : Bytes) (b : Block) (rest : Bytes) :
    skipBlocks (before ++ (b.bytes ++ rest)) before.length
      = if b.last then .ok (before ++ b.bytes).length
        else skipBlocks ((before ++ b.bytes) ++ rest) (before ++ b.bytes).length := by
  obtain ⟨htype, -, hlast⟩ := b.header_eq
  have hlength : before.length + 3 + b.content.length = (before ++ b.bytes).length := by
    rw [List.length_append, b.length_bytes, Nat.add_assoc]
  have hrest : 3 + b.content.length ≤ (b.bytes ++ rest).length := by
    rw [List.length_append, b.length_bytes]
    exact Nat.le_add_right _ _
  have hnumber : b.type.number ≠ 3 := by cases b.type <;> decide
  rw [skipBlocks_append, headerOf_bytes, b.contentLength_header, htype, hlast, hlength,
    if_neg (by omega), if_neg hnumber, if_neg (by omega), List.append_assoc]
  cases b.last <;> rfl

theorem Block.ext_bytes {b : Block} {a0 a1 a2 : UInt8} {content : Bytes}
    (hheader : b.header = a0.toNat + 2 ^ 8 * a1.toNat + 2 ^ 16 * a2.toNat)
    (hcontent : b.content = content) : b.bytes = a0 :: a1 :: a2 :: content := by
  have h0 := a0.toNat_lt
  have h1 := a1.toNat_lt
  have h2 := a2.toNat_lt
  have hbyte : ∀ {n : ℕ} {a : UInt8}, n % 2 ^ 8 = a.toNat → UInt8.ofNat n = a := fun h =>
    UInt8.toNat_inj.1 (UInt8.toNat_ofNat'.trans h)
  unfold Block.bytes
  rw [hbyte (a := a0) (by omega), hbyte (a := a1) (by omega), hbyte (a := a2) (by omega), hcontent]

/-- Three bytes that announce no more than what is there are the header of a block. -/
theorem block_of_header {rest : Bytes} (hthree : ¬rest.length < 3)
    (htype : ¬headerOf rest / 2 % 4 = 3)
    (hcontent : ¬rest.length < 3 + contentLength (headerOf rest)) :
    ∃ (b : Block) (tail : Bytes), rest = b.bytes ++ tail := by
  have hlt := headerOf_lt rest
  obtain ⟨type, hnumber⟩ : ∃ type : BlockType, type.number = headerOf rest / 2 % 4 := by
    have hcases : headerOf rest / 2 % 4 = 0 ∨ headerOf rest / 2 % 4 = 1
        ∨ headerOf rest / 2 % 4 = 2 := by omega
    rcases hcases with h | h | h
    · exact ⟨.raw, h.symm⟩
    · exact ⟨.rle, h.symm⟩
    · exact ⟨.compressed, h.symm⟩
  match rest with
  | [] => exact absurd (by decide) hthree
  | [_] => exact absurd (by simp) hthree
  | [_, _] => exact absurd (by simp) hthree
  | a0 :: a1 :: a2 :: content =>
    have hrle : (if type = .rle then 1 else headerOf (a0 :: a1 :: a2 :: content) / 8)
        = contentLength (headerOf (a0 :: a1 :: a2 :: content)) := by
      rw [contentLength, ← hnumber]
      cases type <;> rfl
    have hheader : headerOf (a0 :: a1 :: a2 :: content)
        = a0.toNat + 2 ^ 8 * a1.toNat + 2 ^ 16 * a2.toNat := rfl
    generalize headerOf (a0 :: a1 :: a2 :: content) = header at *
    simp only [List.length_cons] at hcontent
    let b : Block := ⟨decide (header % 2 = 1), type, ⟨header / 8, by omega⟩,
      content.take (contentLength header), by
        rw [List.length_take, hrle]
        omega⟩
    have hbytes : b.bytes = a0 :: a1 :: a2 :: content.take (contentLength header) := by
      refine Block.ext_bytes ?_ rfl
      have hlast : b.last.toNat = header % 2 := by
        by_cases h : header % 2 = 1
        · simp [b, h]
        · simp [b, h]
          omega
      have hsize : b.size.val = header / 8 := rfl
      have htype : b.type.number = header / 2 % 4 := hnumber
      rw [Block.header, hlast, hsize, htype, ← hheader]
      omega
    exact ⟨b, content.drop (contentLength header), by
      rw [hbytes, List.cons_append, List.cons_append, List.cons_append, List.take_append_drop]⟩

/-- What the loop goes over is a block. -/
theorem exists_block {before rest : Bytes} {offset : ℕ}
    (h : skipBlocks (before ++ rest) before.length = .ok offset) :
    ∃ (b : Block) (tail : Bytes), rest = b.bytes ++ tail := by
  rw [skipBlocks_append] at h
  split_ifs at h with hthree htype hcontent
  · exact block_of_header hthree htype hcontent
  · exact block_of_header hthree htype hcontent

/-- The loop ends behind a sequence of blocks of which the last alone is marked. -/
theorem skipBlocks_iff {before rest : Bytes} {offset : ℕ} :
    skipBlocks (before ++ rest) before.length = .ok offset
      ↔ ∃ (blocks : List Block) (lastBlock : Block) (tail : Bytes),
        (∀ b ∈ blocks, b.last = false) ∧ lastBlock.last = true
          ∧ rest = blocks.flatMap Block.bytes ++ (lastBlock.bytes ++ tail)
          ∧ offset + tail.length = (before ++ rest).length := by
  constructor
  · intro h
    induction hlength : rest.length using Nat.strong_induction_on generalizing before rest with
    | _ length ih =>
      obtain ⟨b, tail, rfl⟩ := exists_block h
      rw [skipBlocks_block] at h
      cases hlast : b.last with
      | true =>
        rw [hlast, if_pos rfl] at h
        refine ⟨[], b, tail, by simp, hlast, rfl, ?_⟩
        rw [← Except.ok.inj h]
        simp only [List.length_append]
        omega
      | false =>
        rw [hlast, if_neg Bool.false_ne_true] at h
        have hshort : tail.length < length := by
          rw [← hlength, List.length_append, b.length_bytes]
          omega
        obtain ⟨blocks, lastBlock, tail', hblocks, hlastBlock, rfl, hoffset⟩ :=
          ih tail.length hshort h rfl
        refine ⟨b :: blocks, lastBlock, tail', ?_, hlastBlock, ?_, ?_⟩
        · exact List.forall_mem_cons.2 ⟨hlast, hblocks⟩
        · rw [List.flatMap_cons, List.append_assoc]
        · rw [hoffset, List.append_assoc]
  · rintro ⟨blocks, lastBlock, tail, hblocks, hlastBlock, rfl, hoffset⟩
    induction blocks generalizing before with
    | nil =>
      rw [List.flatMap_nil, List.nil_append] at hoffset ⊢
      rw [skipBlocks_block, hlastBlock, if_pos rfl]
      congr 1
      simp only [List.length_append] at hoffset ⊢
      omega
    | cons b blocks ih =>
      obtain ⟨hb, hblocks⟩ := List.forall_mem_cons.1 hblocks
      rw [List.flatMap_cons, List.append_assoc] at hoffset ⊢
      rw [skipBlocks_block, hb, if_neg Bool.false_ne_true]
      refine ih hblocks ?_
      rw [hoffset, List.append_assoc]

end Blocks

section Header

theorem Descriptor.number_bits (d : Descriptor) : d.number < 2 ^ 8 ∧ d.number &&& 8 = 0
    ∧ (d.number &&& 32 ≠ 0 ↔ d.singleSegment = true) ∧ d.number >>> 6 = d.contentSizeFlag.val
    ∧ d.number &&& 3 = d.dictionaryIdFlag.val ∧ (d.number &&& 4 ≠ 0 ↔ d.checksum = true) := by
  obtain ⟨contentSizeFlag, singleSegment, unused, checksum, dictionaryIdFlag⟩ := d
  revert contentSizeFlag singleSegment unused checksum dictionaryIdFlag
  decide

/-- A byte without the reserved bit is a descriptor. -/
theorem exists_descriptor : ∀ n < 2 ^ 8, n &&& 8 = 0 → ∃ d : Descriptor, d.number = n := by
  have hfields : ∀ n < 2 ^ 8, n &&& 8 = 0 → Descriptor.number ⟨Fin.ofNat 4 (n / 64),
      decide (n / 32 % 2 = 1), decide (n / 16 % 2 = 1), decide (n / 4 % 2 = 1),
      Fin.ofNat 4 n⟩ = n := by
    decide +kernel
  exact fun n hn h => ⟨_, hfields n hn h⟩

/-- Where the blocks start, as the check computes it. -/
def blocksOffset (descriptor : ℕ) : ℕ :=
  let windowBytes := if descriptor &&& 32 ≠ 0 then 0 else 1
  let sizeFlag := descriptor >>> 6
  let contentSizeBytes :=
    if sizeFlag = 0 then if descriptor &&& 32 ≠ 0 then 1 else 0 else 2 ^ sizeFlag
  let dictionaryFlag := descriptor &&& 3
  let dictionaryBytes := if dictionaryFlag = 3 then 4 else dictionaryFlag
  5 + windowBytes + dictionaryBytes + contentSizeBytes

theorem Descriptor.blocksOffset (d : Descriptor) : blocksOffset d.number
    = 5 + (!d.singleSegment).toNat + d.dictionaryIdBytes + d.contentSizeBytes := by
  obtain ⟨contentSizeFlag, singleSegment, unused, checksum, dictionaryIdFlag⟩ := d
  revert contentSizeFlag singleSegment unused checksum dictionaryIdFlag
  decide

theorem Frame.length_header (f : Frame) :
    f.header.length = Zstandard.blocksOffset f.descriptor.number := by
  rw [f.descriptor.blocksOffset, Frame.header]
  simp only [List.length_append, List.length_cons, f.length_window, f.length_dictionaryId,
    f.length_contentSize, magicNumber, List.length_nil]
  omega

theorem assertZstandardBoundary_iff {bytes : Bytes} : assertZstandardBoundary bytes = .ok ()
    ↔ 6 ≤ bytes.length ∧ getUint32 bytes 0 = 0xfd2fb528 ∧ getUint8 bytes 4 &&& 8 = 0
      ∧ ∃ offset, skipBlocks bytes (blocksOffset (getUint8 bytes 4)) = .ok offset
        ∧ bytes.length = if getUint8 bytes 4 &&& 4 ≠ 0 then offset + 4 else offset := by
  unfold assertZstandardBoundary
  by_cases hshort : bytes.length < 6 ∨ getUint32 bytes 0 ≠ 0xfd2fb528
  · rw [if_pos hshort]
    refine iff_of_false (by simp) fun h => ?_
    rcases hshort with hshort | hmagic
    · omega
    · exact hmagic h.2.1
  · rw [if_neg hshort]
    rw [not_or, not_lt, not_not] at hshort
    by_cases hreserved : getUint8 bytes 4 &&& 8 = 0
    · rw [if_neg (not_not.2 hreserved)]
      generalize hskip : skipBlocks bytes (blocksOffset (getUint8 bytes 4)) = walked
      unfold blocksOffset at hskip
      dsimp only at hskip ⊢
      rw [hskip]
      cases walked with
      | error e => simp
      | ok offset => simp [hshort, hreserved, eq_comm]
    · simp [hreserved]

/-- The first four bytes are the magic number. -/
theorem magicNumber_prefix {bytes : Bytes} (hlength : 6 ≤ bytes.length)
    (h : getUint32 bytes 0 = 0xfd2fb528) : ∃ rest, bytes = magicNumber ++ rest := by
  match bytes with
  | a0 :: a1 :: a2 :: a3 :: rest =>
    have h0 := a0.toNat_lt
    have h1 := a1.toNat_lt
    have h2 := a2.toNat_lt
    have h3 := a3.toNat_lt
    have hsum : a0.toNat + 2 ^ 8 * a1.toNat + 2 ^ 16 * (a2.toNat + 2 ^ 8 * a3.toNat)
        = 0xfd2fb528 := by
      rw [getUint32, or_shiftLeft (getUint16_lt _ _), getUint16_eq, getUint16_eq] at h
      exact h
    have ha0 : a0 = 0x28 := UInt8.toNat_inj.1 (by change _ = 0x28; omega)
    have ha1 : a1 = 0xb5 := UInt8.toNat_inj.1 (by change _ = 0xb5; omega)
    have ha2 : a2 = 0x2f := UInt8.toNat_inj.1 (by change _ = 0x2f; omega)
    have ha3 : a3 = 0xfd := UInt8.toNat_inj.1 (by change _ = 0xfd; omega)
    exact ⟨rest, by rw [ha0, ha1, ha2, ha3]; rfl⟩

theorem skipBlocks_le {bytes : Bytes} {start offset : ℕ} (h : skipBlocks bytes start = .ok offset) :
    start ≤ bytes.length := by
  by_contra hlt
  rw [skipBlocks, if_pos (by omega)] at h
  cases h

/-- What is read of a frame's header. -/
theorem Frame.getUint8_bytes (f : Frame) : getUint32 f.bytes 0 = 0xfd2fb528
    ∧ getUint8 f.bytes 4 = f.descriptor.number := by
  obtain ⟨hlt, -⟩ := f.descriptor.number_bits
  refine ⟨?_, toNat_ofNat hlt⟩
  change ((0x28 ||| 0xb5 <<< 8) ||| (0x2f ||| 0xfd <<< 8) <<< 16 : ℕ) = 0xfd2fb528
  decide

theorem Frame.accepted (f : Frame) : assertZstandardBoundary f.bytes = .ok () := by
  obtain ⟨hmagic, hdescriptor⟩ := f.getUint8_bytes
  obtain ⟨-, hreserved, -, -, -, hchecksum⟩ := f.descriptor.number_bits
  rw [assertZstandardBoundary_iff, hdescriptor, ← f.length_header]
  refine ⟨?_, hmagic, hreserved, f.bytes.length - f.checksum.length,
    skipBlocks_iff.2 ⟨f.blocks, f.lastBlock, f.checksum, f.not_last, f.last, rfl, ?_⟩, ?_⟩
  · have hlast := f.lastBlock.length_bytes
    simp only [Frame.bytes, Frame.header, magicNumber, List.length_append, List.length_cons]
    omega
  · have hle : f.checksum.length ≤ f.bytes.length := by
      simp only [Frame.bytes, List.length_append]
      omega
    exact Nat.sub_add_cancel hle
  · have hlength := f.length_checksum
    have hle : f.checksum.length ≤ f.bytes.length := by
      simp only [Frame.bytes, List.length_append]
      omega
    cases hc : f.descriptor.checksum with
    | true =>
      rw [hc] at hlength
      rw [if_pos (hchecksum.2 hc), hlength]
      rw [hlength] at hle
      exact (Nat.sub_add_cancel hle).symm
    | false =>
      rw [hc] at hlength
      rw [if_neg (by rw [hchecksum, hc]; exact Bool.false_ne_true), hlength]
      rfl

/-- The check ends, and accepts just the frames with nothing behind them. -/
theorem zstandard_boundary (bytes : Bytes) :
    assertZstandardBoundary bytes = .ok () ↔ ∃ f : Frame, f.bytes = bytes := by
  constructor
  · intro h
    obtain ⟨hlength, hmagic, hreserved, offset, hskip, hend⟩ := assertZstandardBoundary_iff.1 h
    obtain ⟨rest, rfl⟩ := magicNumber_prefix hlength hmagic
    cases rest with
    | nil => exact absurd hlength (by decide)
    | cons byte rest =>
      have hbyte : getUint8 (magicNumber ++ byte :: rest) 4 = byte.toNat := rfl
      rw [hbyte] at hreserved hskip hend
      obtain ⟨d, hd⟩ := exists_descriptor byte.toNat byte.toNat_lt hreserved
      obtain ⟨-, -, -, -, -, hchecksum⟩ := d.number_bits
      have hstart := d.blocksOffset
      have hle := skipBlocks_le hskip
      rw [← hd, hstart] at hskip hle
      -- the fields of the header are the first bytes behind the descriptor
      obtain ⟨fields, blocks, rfl, hfields⟩ : ∃ fields blocks, rest = fields ++ blocks
          ∧ fields.length
            = (!d.singleSegment).toNat + d.dictionaryIdBytes + d.contentSizeBytes := by
        refine ⟨_, _, (List.take_append_drop _ rest).symm, List.length_take_of_le ?_⟩
        simp only [magicNumber, List.length_append, List.length_cons, List.length_nil] at hle
        omega
      have hbefore : 5 + (!d.singleSegment).toNat + d.dictionaryIdBytes + d.contentSizeBytes
          = (magicNumber ++ byte :: fields).length := by
        simp only [magicNumber, List.length_append, List.length_cons, List.length_nil, hfields]
        omega
      have hbytes : magicNumber ++ byte :: (fields ++ blocks)
          = (magicNumber ++ byte :: fields) ++ blocks := by
        rw [List.append_assoc, List.cons_append]
      rw [hbytes] at hskip hend ⊢
      rw [hbefore] at hskip
      obtain ⟨blocks, lastBlock, checksum, hblocks, hlast, rfl, hoffset⟩ := skipBlocks_iff.1 hskip
      refine ⟨⟨d, fields.take (!d.singleSegment).toNat,
        (fields.drop (!d.singleSegment).toNat).take d.dictionaryIdBytes,
        (fields.drop (!d.singleSegment).toNat).drop d.dictionaryIdBytes, blocks, lastBlock,
        checksum, ?_, ?_, ?_, hblocks, hlast, ?_⟩, ?_⟩
      · rw [List.length_take]
        omega
      · rw [List.length_take, List.length_drop]
        omega
      · rw [List.length_drop, List.length_drop]
        omega
      · rw [← hd, ← hoffset] at hend
        cases hc : d.checksum with
        | true =>
          rw [if_pos (hchecksum.2 hc)] at hend
          exact Nat.add_left_cancel hend
        | false =>
          rw [if_neg (by rw [hchecksum, hc]; exact Bool.false_ne_true)] at hend
          exact Nat.add_left_cancel hend
      · have hdescriptor : UInt8.ofNat d.number = byte := by rw [hd, UInt8.ofNat_toNat]
        simp only [Frame.bytes, Frame.header, hdescriptor, List.append_assoc,
          List.take_append_drop, List.cons_append]
  · rintro ⟨f, rfl⟩
    exact f.accepted

end Header

end Atlas.Link.Zstandard
