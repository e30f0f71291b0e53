import Concordance.Contract
import Concordance.Bytes.Varint

/-!
# Gap lists

A gap list holds a strictly ascending list of 32-bit numbers in little space. The members are cut
into blocks of `blockLength`; the first member of a block, its head, is kept as it is, and every
other member is kept as a varint of its distance from the member before it.

```text
members:  [3, 5, 9, 200, ‖ 260, 261, …]
heads:    [3,            ‖ 260, …]
gaps:     [2, 4, 191,    ‖ 1, …]         varint bytes, block after block
```

The heads make look-ups cheap: a range query searches them and reads one block at most. The number
of members is a 32-bit number, so that no list holds all 32-bit numbers.

- `GapList.push`: appends a member that is greater than all before it, and refuses any other.
- `GapList.pushAll`: pushes members until one is refused, and keeps those before it.
-/

namespace Concordance

/-- A strictly ascending list of numbers as heads and gaps. -/
structure GapList where
  /-- The number of members. -/
  length : UInt32
  /-- The first member of every block. -/
  heads : Array UInt32
  /-- Where the gaps of every block start in `gaps`. -/
  blockStarts : Array UInt32
  /-- The gaps of all blocks, as varints. -/
  gaps : Array UInt8
  /-- The greatest member. -/
  last : Option UInt32
  deriving DecidableEq, Repr, Inhabited

namespace GapList

/-- The number of members of a full block. -/
def blockLength : Nat := 64

/-- The number of blocks of `length` members. -/
def blocksFor (length : Nat) : Nat := (length + (blockLength - 1)) / blockLength

/-- The list without members. -/
def empty : GapList := ⟨0, #[], #[], #[], none⟩

/-- Whether there are no members. -/
def isEmpty (list : GapList) : Bool := list.length == 0

/-- The bytes that the members take: eight for each block and the gaps. -/
def byteLength (list : GapList) : Nat := list.heads.size * 8 + list.gaps.size

/-- Appends a member as the head of a new block. -/
def pushHead (list : GapList) (value : UInt32) : GapList :=
  { length := list.length + 1
    heads := list.heads.push value
    blockStarts := list.blockStarts.push (UInt32.ofNat list.gaps.size)
    gaps := list.gaps
    last := some value }

/-- Appends a member to the last block, as its gap from the member `previous`. -/
def pushGap (list : GapList) (previous value : UInt32) : GapList :=
  { length := list.length + 1
    heads := list.heads
    blockStarts := list.blockStarts
    gaps := list.gaps ++ Varint.encode (value - previous).toUInt64
    last := some value }

/-- Appends a member that is greater than the last one. -/
def append (list : GapList) (value : UInt32) : GapList :=
  match list.last with
  | none => list.pushHead value
  | some previous =>
    if list.length.toNat % blockLength = 0 then list.pushHead value
    else list.pushGap previous value

/-- Whether a member is out of order: it is not greater than the last one. -/
def disorder? (list : GapList) (value : UInt32) : Option ContractViolation :=
  match list.last with
  | none => none
  | some previous => if previous < value then none else some (.notAscending value previous)

/-- Whether one member more would be too many for a 32-bit number of members. -/
def overflow? (list : GapList) : Option ContractViolation :=
  if list.length = 0xFFFFFFFF then some .lengthOverflow else none

/-- Why a member cannot be appended: it is out of order, or the list is full. -/
def refusal? (list : GapList) (value : UInt32) : Option ContractViolation :=
  (list.disorder? value).or list.overflow?

/-- Appends a member, which has to be greater than the last one. -/
def push (list : GapList) (value : UInt32) : Except ContractViolation GapList :=
  match list.refusal? value with
  | none => .ok (list.append value)
  | some violation => .error violation

/-- Pushes members until one is refused. The list holds all members before that one. -/
def pushAll (list : GapList) : List UInt32 → GapList × Option ContractViolation
  | [] => (list, none)
  | value :: rest =>
    match list.refusal? value with
    | none => (list.append value).pushAll rest
    | some violation => (list, some violation)

/-- The gap list of strictly ascending members. -/
def ofMembers (members : List UInt32) : Except ContractViolation GapList :=
  match empty.pushAll members with
  | (list, none) => .ok list
  | (_, some violation) => .error violation

/-- Where the gaps of a block end: where the next block's start, or at the end of all gaps. -/
def blockStop (list : GapList) (block : Nat) : UInt32 :=
  list.blockStarts.getD (block + 1) (UInt32.ofNat list.gaps.size)

/-- Where the gaps of a block start. -/
def blockStart (list : GapList) (block : Nat) : UInt32 :=
  list.blockStarts.getD block 0

/-- The head of a block. -/
def head (list : GapList) (block : Nat) : UInt32 :=
  list.heads.getD block 0

/-- The gap that starts at a place of the gap bytes, and the number of its bytes. The bytes are read
from there on whatever block they are of, as far as a varint can reach. -/
def gapAt (list : GapList) (position : Nat) : Except DecodeError (UInt32 × Nat) :=
  Varint.decode32 (list.gaps.extract position (position + Varint.maxBytes)).toList

end GapList

end Concordance
