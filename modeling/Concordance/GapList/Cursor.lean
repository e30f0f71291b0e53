import Concordance.GapList.Basic
import Concordance.Search

/-!
# Reading gap lists

A `GapList.Cursor` stands before a member and yields the members from there on, one at a time. At
the start of a block it takes the head and goes to the first gap of the block; inside a block it
reads the gap where the last one ended. Nothing says where the gaps of a block end: the number of
members does. A block without a head, a gap that does not decode, and one that leads past 32 bits
are broken promises: lists made by `push` have none.

- `GapList.members`: all members, in ascending order.
- `GapList.meetsRange`: whether some member lies in a range. The heads are searched for the last
  block that starts within the range's end, and only that block is read.
-/

namespace Concordance.GapList

/-- A place between two members of a list. -/
structure Cursor where
  /-- The list that is read. -/
  list : GapList
  /-- The number of members before the cursor. -/
  index : Nat
  /-- The number of members before the end of the reading. -/
  stop : Nat
  /-- Where the next gap of the current block starts. -/
  position : Nat
  /-- The member before the cursor. -/
  current : UInt32

namespace Cursor

/-- The number of members that are still to come. -/
def remaining (cursor : Cursor) : Nat := cursor.stop - cursor.index

/-- The next member and the cursor behind it, or nothing at the end. -/
def next (cursor : Cursor) : Except ContractViolation (Option (UInt32 × Cursor)) :=
  if cursor.stop ≤ cursor.index then .ok none
  else if cursor.index % blockLength = 0 then
    let block := cursor.index / blockLength
    match cursor.list.blockStarts[block]?, cursor.list.heads[block]? with
    | some start, some value => .ok (some (value, { cursor with
        index := cursor.index + 1, position := start.toNat, current := value }))
    | _, _ => .error (.missingBlock block)
  else
    match cursor.list.gapAt cursor.position with
    | .error cause => .error (.corruptGaps cause)
    | .ok (gap, used) =>
      if UInt32.size ≤ cursor.current.toNat + gap.toNat then .error (.corruptGaps .gapOverflow)
      else
        let value := cursor.current + gap
        .ok (some (value, { cursor with
          index := cursor.index + 1, position := cursor.position + used, current := value }))

/-- The next `count` members, or all that are left, and the cursor behind them. -/
def take (cursor : Cursor) : Nat → Except ContractViolation (List UInt32 × Cursor)
  | 0 => .ok ([], cursor)
  | count + 1 => do
    match ← cursor.next with
    | none => return ([], cursor)
    | some (value, behind) =>
      let (values, last) ← behind.take count
      return (value :: values, last)

/-- All members that are still to come. -/
def rest (cursor : Cursor) : Except ContractViolation (List UInt32) := do
  let (values, _) ← cursor.take cursor.remaining
  return values

end Cursor

/-- The cursor before the first member. -/
def cursor (list : GapList) : Cursor :=
  { list, index := 0, stop := list.length.toNat, position := 0, current := 0 }

/-- The cursor before the head of a block, which stops at the end of the block. -/
def blockCursor (list : GapList) (block : Nat) : Cursor :=
  { list, index := block * blockLength
    stop := min ((block + 1) * blockLength) list.length.toNat, position := 0, current := 0 }

/-- All members in ascending order. -/
def members (list : GapList) : Except ContractViolation (List UInt32) :=
  list.cursor.rest

/-- Whether some member lies in `[first, final]`. -/
def meetsRange (list : GapList) (first final : UInt32) : Except ContractViolation Bool :=
  if final < first || list.isEmpty then .ok false
  else
    match partitionPoint list.heads (· ≤ final) with
    | 0 => .ok false
    | block + 1 =>
      if first ≤ list.head block then .ok true
      else do
        let values ← (list.blockCursor block).rest
        return (values.find? (first ≤ ·)).any (· ≤ final)

/-- Whether a number is a member. -/
def contains (list : GapList) (value : UInt32) : Except ContractViolation Bool :=
  list.meetsRange value value

end Concordance.GapList
