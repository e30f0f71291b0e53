import Concordance.GapList.Wire

/-!
# Scanning a written gap list

`decode` says what is read from bytes; a scan says how. It goes through the bytes by positions, adds
what every varint takes, and looks up the heads and the block starts that it has read before. Bytes
are refused for the same reasons. Besides, each of these steps might go wrong by itself: a look-up
might miss, a difference might fall below zero, a sum might need more than 64 bits.

- `Halt`: why a scan stops, by a refusal of the bytes or by a step that goes wrong.
- `GapList.scan`: the list at the start of a stream and the position behind it.
-/

namespace Concordance

/-- Why a scan stops. -/
inductive Halt where
  /-- The bytes are refused. -/
  | refused (cause : DecodeError)
  /-- There is nothing at the index of a look-up. -/
  | outOfBounds (index size : Nat)
  /-- More is taken from a number than it has. -/
  | belowZero (number taken : Nat)
  /-- A number needs more than 64 bits. -/
  | tooLarge (number : Nat)
  deriving DecidableEq, Repr

namespace Halt

/-- A read whose refusal stops the scan. -/
def orRefused {α : Type} (read : Except DecodeError α) : Except Halt α := read.mapError .refused

/-- The number at an index, which has to be there. -/
def lookUp (numbers : Array UInt32) (index : Nat) : Except Halt UInt32 :=
  match numbers[index]? with
  | some number => .ok number
  | none => .error (.outOfBounds index numbers.size)

/-- What is left of a number, which must not be less than what is taken. -/
def subtract (number taken : Nat) : Except Halt Nat :=
  if taken ≤ number then .ok (number - taken) else .error (.belowZero number taken)

/-- A number that 64 bits have to hold. -/
def within64 (number : Nat) : Except Halt Nat :=
  if number < UInt64.size then .ok number else .error (.tooLarge number)

end Halt

namespace GapList

open Halt

/-- What a scan has read of a directory. -/
structure Listing where
  /-- Where the scan goes on. -/
  position : Nat
  /-- The heads of the blocks. -/
  heads : Array UInt32
  /-- Where the gaps of the blocks start. -/
  blockStarts : Array UInt32
  /-- The number of gap bytes of the blocks. -/
  gapBytes : UInt32
  deriving DecidableEq, Repr

/-- Appends a block, behind which the scan goes on at a position. -/
def Listing.push (listing : Listing) (position : Nat) (head size : UInt32) : Listing where
  position
  heads := listing.heads.push head
  blockStarts := listing.blockStarts.push listing.gapBytes
  gapBytes := listing.gapBytes + size

/-- Scans the entry of one more block. -/
def scanEntry (bytes : List UInt8) (listing : Listing) : Except Halt Listing := do
  let (head, used) ← orRefused (Varint.decode32 (bytes.drop listing.position))
  let position ← within64 (listing.position + used)
  let (size, used) ← orRefused (Varint.decode32 (bytes.drop position))
  let position ← within64 (position + used)
  if UInt32.size ≤ listing.gapBytes.toNat + size.toNat then throw (.refused .gapBytesOverflow)
  return listing.push position head size

/-- Scans the entries of `count` more blocks. -/
def scanEntries (bytes : List UInt8) : Nat → Listing → Except Halt Listing
  | 0, listing => .ok listing
  | count + 1, listing => do
    let listing ← scanEntry bytes listing
    scanEntries bytes count listing

/-- The bytes from one position to another; none if there are no such positions. -/
def bytesFrom (bytes : List UInt8) (position stop : Nat) : List UInt8 :=
  if position ≤ stop ∧ stop ≤ bytes.length then (bytes.take stop).drop position else []

/-- Scans `count` gaps of a block that stops at a position: the position behind them and the last
member. -/
def scanGaps (gaps : List UInt8) (stop : Nat) : Nat → Nat → UInt32 → Except Halt (Nat × UInt32)
  | 0, position, value => .ok (position, value)
  | count + 1, position, value => do
    let (gap, used) ← orRefused (Varint.decode32 (bytesFrom gaps position stop))
    let position ← within64 (position + used)
    if gap = 0 then throw (.refused .zeroGap)
    if UInt32.size ≤ value.toNat + gap.toNat then throw (.refused .gapOverflow)
    scanGaps gaps stop count position (value + gap)

/-- Scans a block of a list with `length` members behind the member `last`: its last member. -/
def scanBlock (length : UInt32) (listing : Listing) (gaps : List UInt8) (block : Nat)
    (last : Option UInt32) : Except Halt UInt32 := do
  let before ← within64 (block * blockLength)
  let left ← subtract length.toNat before
  let next ← within64 (block + 1)
  let stop := (listing.blockStarts[next]?.getD listing.gapBytes).toNat
  let start ← lookUp listing.blockStarts block
  let head ← lookUp listing.heads block
  if last.any (head ≤ ·) then throw (.refused (.headNotAscending block head))
  let (position, value) ← scanGaps gaps stop (min left blockLength - 1) start.toNat head
  if position ≠ stop then
    let count ← subtract stop position
    throw (.refused (.trailingBytes block count))
  return value

/-- Scans `count` blocks from number `block` on: the last member of all. -/
def scanBlocks (length : UInt32) (listing : Listing) (gaps : List UInt8) :
    Nat → Nat → Option UInt32 → Except Halt (Option UInt32)
  | 0, _, last => .ok last
  | count + 1, block, last => do
    let value ← scanBlock length listing gaps block last
    scanBlocks length listing gaps count (block + 1) (some value)

/-- Scans the list at the start of a stream: the list and the position behind it. -/
def scan (bytes : List UInt8) : Except Halt (GapList × Nat) := do
  let (length, position) ← orRefused (Varint.decode32 bytes)
  let blocks := blocksFor length.toNat
  if bytes.length - position < blocks then throw (.refused (.tooManyBlocks blocks))
  let listing ← scanEntries bytes blocks ⟨position, #[], #[], 0⟩
  let stop ← within64 (listing.position + listing.gapBytes.toNat)
  if bytes.length < stop then throw (.refused .gapsTruncated)
  let gaps := (bytes.take stop).drop listing.position
  let last ← scanBlocks length listing gaps blocks 0 none
  let list : GapList :=
    { length
      heads := listing.heads
      blockStarts := listing.blockStarts
      gaps := gaps.toArray
      last }
  return (list, stop)

end GapList

end Concordance
