import Concordance.Mask.Machine
import Concordance.Posting.Merge

/-!
# Intersections and unions by 64-bit offsets

The operations of `Merge` as they are offered on their own, for any signed 64-bit offset and not
only for the offsets between two positions of a query. Members are widened to 64 bits before they
move.

| first | second | intersection | union |
|-------|--------|--------------|-------|
| list  | list   | `intersectLists` | `uniteLists` |
| mask  | list   | `maskedMembers`  | `addMembers` |
| mask  | mask   | `intersectMasks` | `uniteMasks` |
-/

namespace Concordance.Kernel

/-- A 32-bit number as a signed 64-bit one. -/
def widen (value : UInt32) : Int64 := value.toUInt64.toInt64

/-- The last 32 bits of a signed 64-bit number. -/
def narrow (position : Int64) : UInt32 := position.toUInt64.toUInt32

/-- A signed 64-bit number as a 32-bit one, if it is one. -/
def narrow? (position : Int64) : Option UInt32 :=
  if 0 ≤ position ∧ position ≤ widen 0xFFFFFFFF then some (narrow position) else none

/-- A signed 64-bit number as an unsigned one; below zero there is only zero. -/
def clamp (position : Int64) : UInt64 := if position < 0 then 0 else position.toUInt64

/-- The number of words that cover a number of positions. -/
def wordsFor (positions : UInt64) : UInt64 :=
  if positions % 32 = 0 then positions / 32 else positions / 32 + 1

/-- The size of an offset, whatever its sign. -/
def magnitude (offset : Int64) : UInt64 := UInt64.ofNat offset.toInt.natAbs

/-- The members `c` of the first list for which `c - offset` is in the second. -/
def intersectLists (offset : Int64) : List UInt32 → List UInt32 → List UInt32
  | [], _ => []
  | _, [] => []
  | a :: first, b :: second =>
    let left := widen a
    let right := widen b + offset
    if left < right then intersectLists offset first (b :: second)
    else if right < left then intersectLists offset (a :: first) second
    else a :: intersectLists offset first second
termination_by first second => first.length + second.length

/-- The members of a list moved by `offset`, as far as the mask has them. -/
def maskedMembers (offset : Int64) (mask : Mask) (list : List UInt32) : List UInt32 :=
  ((list.map fun member => widen member + offset).filter mask.testAt).map narrow

/-- The positions of the first mask that the second one, moved by `offset`, has as well. The result
has the length of the first. -/
def intersectMasks (offset : Int64) (first second : Mask) : Mask :=
  if second.size = 0
      ∨ (UInt64.ofNat second.size + UInt64.ofNat first.size) * 32 ≤ magnitude offset then
    Mask.zeros first.size
  else
    ⟨(Array.range first.size).map fun (index : Nat) =>
      first.word index &&& second.shiftedWordBy index offset⟩

/-- A member moved by an offset, if it still is a 32-bit number. -/
def moved (offset : Int64) (member : UInt32) : Option UInt32 := narrow? (widen member + offset)

/-- The union of a list with a second one moved by `offset`. Members moved out of the 32-bit numbers
are dropped. -/
def uniteLists (offset : Int64) (first second : List UInt32) : List UInt32 :=
  Merge.mergeLists first (second.filterMap (moved offset))

/-- The union of a mask with a list moved by `offset`. The mask grows as needed; members moved out
of the 32-bit numbers are dropped. -/
def addMembers (offset : Int64) (mask : Mask) (list : List UInt32) : Mask :=
  (list.filterMap (moved offset)).foldl Merge.addMember mask

/-- The number of words that a mask takes after it has moved by `offset`. -/
def movedSize (offset : Int64) (mask : Mask) : Nat :=
  (wordsFor (clamp (Int64.ofNat mask.size * 32 + offset))).toNat

/-- The union of two masks, the second one moved by `offset`, long enough for both. Positions moved
below zero are dropped. -/
def uniteMasks (offset : Int64) (first second : Mask) : Mask :=
  let count := if second.size = 0 then first.size else max first.size (movedSize offset second)
  ⟨(Array.range count).map fun (index : Nat) =>
    first.word index ||| second.shiftedWordBy index offset⟩

end Concordance.Kernel
