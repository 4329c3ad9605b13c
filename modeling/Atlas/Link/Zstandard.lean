import Mathlib

/-!
# The boundary of a Zstandard frame

The walk over a compressed body before the decoder gets it, and what the body should be: one frame,
of which the descriptor tells the fields, with a sequence of blocks and nothing behind it.
-/

namespace Atlas.Link.Zstandard

abbrev Bytes : Type := List UInt8

inductive BoundaryError where
  | invalidBoundary
  | reservedFlag
  | truncatedHeader
  | reservedBlockType
  | truncatedBlock
  deriving DecidableEq, Repr

section Walk

/-- `getUint8`, of an offset inside the view. -/
def getUint8 (bytes : Bytes) (offset : ℕ) : ℕ := (bytes.getD offset 0).toNat

def getUint16 (bytes : Bytes) (offset : ℕ) : ℕ :=
  getUint8 bytes offset ||| getUint8 bytes (offset + 1) <<< 8

def getUint32 (bytes : Bytes) (offset : ℕ) : ℕ :=
  getUint16 bytes offset ||| getUint16 bytes (offset + 2) <<< 16

/-- The loop over the blocks: the offset behind the last of them. -/
def skipBlocks (bytes : Bytes) (offset : ℕ) : Except BoundaryError ℕ :=
  if bytes.length < offset + 3 then .error .truncatedHeader
  else
    let header := getUint16 bytes offset ||| getUint8 bytes (offset + 2) <<< 16
    let type := header >>> 1 &&& 3
    let next := offset + 3 + if type = 1 then 1 else header >>> 3
    if type = 3 then .error .reservedBlockType
    else if bytes.length < next then .error .truncatedBlock
    else if header &&& 1 ≠ 0 then .ok next
    else skipBlocks bytes next
  termination_by bytes.length - offset

def assertZstandardBoundary (bytes : Bytes) : Except BoundaryError Unit :=
  if bytes.length < 6 ∨ getUint32 bytes 0 ≠ 0xfd2fb528 then .error .invalidBoundary
  else
    let descriptor := getUint8 bytes 4
    if descriptor &&& 8 ≠ 0 then .error .reservedFlag
    else
      let windowBytes := if descriptor &&& 32 ≠ 0 then 0 else 1
      let sizeFlag := descriptor >>> 6
      let contentSizeBytes :=
        if sizeFlag = 0 then if descriptor &&& 32 ≠ 0 then 1 else 0 else 2 ^ sizeFlag
      let dictionaryFlag := descriptor &&& 3
      let dictionaryBytes := if dictionaryFlag = 3 then 4 else dictionaryFlag
      match skipBlocks bytes (5 + windowBytes + dictionaryBytes + contentSizeBytes) with
      | .error e => .error e
      | .ok offset =>
        let offset := if descriptor &&& 4 ≠ 0 then offset + 4 else offset
        if offset ≠ bytes.length then .error .invalidBoundary else .ok ()

end Walk

section Format

inductive BlockType where
  | raw
  | rle
  | compressed
  deriving DecidableEq, Repr

def BlockType.number : BlockType → ℕ
  | raw => 0
  | rle => 1
  | compressed => 2

/-- A block with all of its content: one byte when it is to be repeated. -/
structure Block where
  last : Bool
  type : BlockType
  size : Fin (2 ^ 21)
  content : Bytes
  length_content : content.length = if type = .rle then 1 else size.val

def Block.header (b : Block) : ℕ := b.last.toNat + 2 * b.type.number + 8 * b.size.val

/-- The header is written with its lowest byte first. -/
def Block.bytes (b : Block) : Bytes :=
  .ofNat b.header :: .ofNat (b.header / 2 ^ 8) :: .ofNat (b.header / 2 ^ 16) :: b.content

/-- The fields of the frame header's first byte. The bit of 8 is reserved and not set, the bit of 16
has no meaning. -/
structure Descriptor where
  contentSizeFlag : Fin 4
  singleSegment : Bool
  unused : Bool
  checksum : Bool
  dictionaryIdFlag : Fin 4

def Descriptor.number (d : Descriptor) : ℕ :=
  64 * d.contentSizeFlag.val + 32 * d.singleSegment.toNat + 16 * d.unused.toNat
    + 4 * d.checksum.toNat + d.dictionaryIdFlag.val

/-- The bytes of the content size. Without a window it is always there. -/
def Descriptor.contentSizeBytes (d : Descriptor) : ℕ :=
  match d.contentSizeFlag with
  | 0 => d.singleSegment.toNat
  | 1 => 2
  | 2 => 4
  | 3 => 8

def Descriptor.dictionaryIdBytes (d : Descriptor) : ℕ :=
  match d.dictionaryIdFlag with
  | 0 => 0
  | 1 => 1
  | 2 => 2
  | 3 => 4

structure Frame where
  descriptor : Descriptor
  window : Bytes
  dictionaryId : Bytes
  contentSize : Bytes
  blocks : List Block
  lastBlock : Block
  checksum : Bytes
  length_window : window.length = (!descriptor.singleSegment).toNat
  length_dictionaryId : dictionaryId.length = descriptor.dictionaryIdBytes
  length_contentSize : contentSize.length = descriptor.contentSizeBytes
  not_last : ∀ b ∈ blocks, b.last = false
  last : lastBlock.last = true
  length_checksum : checksum.length = 4 * descriptor.checksum.toNat

def magicNumber : Bytes := [0x28, 0xb5, 0x2f, 0xfd]

def Frame.header (f : Frame) : Bytes :=
  magicNumber ++ .ofNat f.descriptor.number :: (f.window ++ f.dictionaryId ++ f.contentSize)

def Frame.bytes (f : Frame) : Bytes :=
  f.header ++ (f.blocks.flatMap Block.bytes ++ (f.lastBlock.bytes ++ f.checksum))

end Format

end Atlas.Link.Zstandard
