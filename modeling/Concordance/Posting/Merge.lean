import Concordance.Mask.Shift

/-!
# Intersections and unions under a shift

Each operation combines the members of a first operand with those of a second one moved by a signed
offset: `c` of the first is in the intersection when `c - offset` is in the second, and `f` of the
second contributes `f + offset` to the union. The operands are ascending lists or masks.

| first | second | intersection | union |
|-------|--------|--------------|-------|
| list  | list   | `intersectLists` | `uniteLists` |
| mask  | list   | `maskedMembers`  | `addMembers` |
| mask  | mask   | `intersectMasks` | `uniteMasks` |

Two lists are intersected in two ways: `intersectLists` walks through both of them alike, and
`streamLists` goes from one member of the first to the next and keeps its place in the second.
-/

namespace Concordance.Merge

/-- A member moved by an offset, if it still is a 32-bit number. -/
def moved (offset : Int) (member : UInt32) : Option UInt32 :=
  let position := (member.toNat : Int) + offset
  if 0 ≤ position ∧ position < UInt32.size then some (UInt32.ofNat position.toNat) else none

/-- The members `c` of the first list for which `c - offset` is in the second. -/
def intersectLists (offset : Int) : List UInt32 → List UInt32 → List UInt32
  | [], _ => []
  | _, [] => []
  | a :: first, b :: second =>
    let target := (b.toNat : Int) + offset
    if (a.toNat : Int) < target then intersectLists offset first (b :: second)
    else if target < (a.toNat : Int) then intersectLists offset (a :: first) second
    else a :: intersectLists offset first second
termination_by first second => first.length + second.length

/-- The ascending candidates `c` for which the ascending filter has `c - offset`. Filter members
below the target of a candidate are passed over for good. The next one is only looked at: it stays
for the candidates to come, also when it matches. Without one the search ends. -/
def streamLists (offset : Int) : List UInt32 → List UInt32 → List UInt32
  | [], _ => []
  | candidate :: candidates, filter =>
    let target := (candidate.toNat : Int) - offset
    match filter.dropWhile fun member => (member.toNat : Int) < target with
    | [] => []
    | member :: later =>
      if (member.toNat : Int) = target then
        candidate :: streamLists offset candidates (member :: later)
      else streamLists offset candidates (member :: later)

/-- The ascending merge of two ascending lists in which a common member appears once. -/
def mergeLists : List UInt32 → List UInt32 → List UInt32
  | [], second => second
  | first, [] => first
  | a :: first, b :: second =>
    if a < b then a :: mergeLists first (b :: second)
    else if b < a then b :: mergeLists (a :: first) second
    else a :: mergeLists first second
termination_by first second => first.length + second.length

/-- The union of a list with a second one moved by `offset`. Members moved out of the 32-bit numbers
are dropped. -/
def uniteLists (offset : Int) (first second : List UInt32) : List UInt32 :=
  mergeLists first (second.filterMap (moved offset))

/-- The members of a list moved by `offset`, as far as the mask has them. -/
def maskedMembers (offset : Int) (mask : Mask) (list : List UInt32) : List UInt32 :=
  (list.map fun member => (member.toNat : Int) + offset).filter mask.test
    |>.map fun position => UInt32.ofNat position.toNat

/-- The positions of the first mask that the second one, moved by `offset`, has as well. The result
has the length of the first. Masks that are too far apart to meet are told by their lengths, without
a look at the words. -/
def intersectMasks (offset : Int) (first second : Mask) : Mask :=
  if second.size = 0 ∨ (second.size + first.size) * 32 ≤ offset.natAbs then
    Mask.zeros first.size
  else
    ⟨(Array.range first.size).map fun (index : Nat) =>
      first.word index &&& second.shiftedWord index offset⟩

/-- Sets a position in a mask that is made long enough for it. -/
def addMember (mask : Mask) (position : UInt32) : Mask :=
  (mask.extend (position.toNat / Mask.wordBits + 1)).insert position.toNat

/-- The union of a mask with a list moved by `offset`. The mask grows as needed; members moved out
of the 32-bit numbers are dropped. -/
def addMembers (offset : Int) (mask : Mask) (list : List UInt32) : Mask :=
  (list.filterMap (moved offset)).foldl addMember mask

/-- The number of words that a mask takes after it has moved by `offset`. -/
def movedSize (offset : Int) (mask : Mask) : Nat :=
  if mask.size = 0 then 0
  else Mask.wordsFor (32 * (mask.size : Int) + offset).toNat

/-- The union of a mask with a second one moved by `offset`, long enough for both. Positions moved
below zero are dropped. -/
def uniteMasks (offset : Int) (first second : Mask) : Mask :=
  ⟨(Array.range (max first.size (movedSize offset second))).map fun (index : Nat) =>
    first.word index ||| second.shiftedWord index offset⟩

end Concordance.Merge
