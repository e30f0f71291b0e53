import Concordance.GapList.Basic

/-!
# The wire format of gap lists

Written out, a gap list is the number of members, then for every block its head and the number of
its gap bytes, and then the gaps of all blocks; every number is a varint.

- `GapList.encodeOnto`, `GapList.encode`: the bytes of a list, behind those of a buffer or alone.
- `GapList.decode`: the list at the start of a stream and the number of bytes it took. The bytes
  are not trusted: whatever is accepted has strictly ascending members, one gap for every member
  that is not a head, and no byte left over in any block.
-/

namespace Concordance.GapList

/-- The number of gap bytes of a block. -/
def blockBytes (list : GapList) (block : Nat) : UInt32 :=
  list.blockStop block - list.blockStart block

/-- The written form of a block's entry in the directory: its head and its number of gap bytes. -/
def encodeEntry (list : GapList) (block : Nat) : List UInt8 :=
  Varint.encode (list.head block).toUInt64 ++ Varint.encode (list.blockBytes block).toUInt64

/-- Appends the written form of a list to a buffer. -/
def encodeOnto (buffer : Array UInt8) (list : GapList) : Array UInt8 :=
  let counted : Array UInt8 := buffer ++ Varint.encode list.length.toUInt64
  let listed := (List.range list.heads.size).foldl
    (fun (buffer : Array UInt8) block => (buffer ++ list.encodeEntry block : Array UInt8)) counted
  listed ++ list.gaps

/-- The written form of a list. -/
def encode (list : GapList) : List UInt8 := (list.encodeOnto #[]).toList

/-- What the start of a stream says about the blocks of a list. -/
structure Directory where
  /-- The head and the number of gap bytes of every block. -/
  entries : List (UInt32 × UInt32)
  /-- The number of gap bytes of all blocks together. -/
  gapBytes : Nat
  /-- The bytes behind the directory. -/
  rest : List UInt8

/-- Reads the directory of `count` blocks when the blocks before them have `before` gap bytes. -/
def readDirectory : Nat → Nat → List UInt8 → Except DecodeError Directory
  | 0, before, bytes => .ok ⟨[], before, bytes⟩
  | count + 1, before, bytes => do
    let (head, headUsed) ← Varint.decode32 bytes
    let bytes := bytes.drop headUsed
    let (size, sizeUsed) ← Varint.decode32 bytes
    let bytes := bytes.drop sizeUsed
    if UInt32.size ≤ before + size.toNat then throw .gapBytesOverflow
    let later ← readDirectory count (before + size.toNat) bytes
    return { later with entries := (head, size) :: later.entries }

/-- Reads `count` gaps behind the member `value`: the last member and the bytes behind its gap. -/
def readGaps : Nat → UInt32 → List UInt8 → Except DecodeError (UInt32 × List UInt8)
  | 0, value, bytes => .ok (value, bytes)
  | count + 1, value, bytes => do
    let (gap, used) ← Varint.decode32 bytes
    if gap = 0 then throw .zeroGap
    if UInt32.size ≤ value.toNat + gap.toNat then throw .gapOverflow
    readGaps count (value + gap) (bytes.drop used)

/-- Checks the blocks of a directory from number `block` on, with `length` members in them, behind
the member `last`: the last member of all. -/
def checkBlocks (block length : Nat) (last : Option UInt32) (gaps : List UInt8) :
    List (UInt32 × UInt32) → Except DecodeError (Option UInt32)
  | [] => .ok last
  | (head, size) :: later => do
    if last.any (head ≤ ·) then throw (.headNotAscending block head)
    let (value, left) ← readGaps (min length blockLength - 1) head (gaps.take size.toNat)
    if left.length ≠ 0 then throw (.trailingBytes block left.length)
    checkBlocks (block + 1) (length - blockLength) (some value) (gaps.drop size.toNat) later

/-- Where blocks of the given numbers of bytes start, the first one at `start`. -/
def startsOf (start : UInt32) : List (UInt32 × UInt32) → List UInt32
  | [] => []
  | (_, size) :: later => start :: startsOf (start + size) later

/-- The list at the start of a stream and the number of bytes it took. -/
def decode (bytes : List UInt8) : Except DecodeError (GapList × Nat) := do
  let (length, lengthUsed) ← Varint.decode32 bytes
  let body := bytes.drop lengthUsed
  let blocks := blocksFor length.toNat
  if body.length < blocks then throw (.tooManyBlocks blocks)
  let directory ← readDirectory blocks 0 body
  if directory.rest.length < directory.gapBytes then throw .gapsTruncated
  let gaps := directory.rest.take directory.gapBytes
  let last ← checkBlocks 0 length.toNat none gaps directory.entries
  let list : GapList :=
    { length
      heads := (directory.entries.map (·.1)).toArray
      blockStarts := (startsOf 0 directory.entries).toArray
      gaps := gaps.toArray
      last }
  return (list, bytes.length - directory.rest.length + directory.gapBytes)

end Concordance.GapList
