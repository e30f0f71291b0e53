import Concordance.Mask.Basic

/-!
# Reading masks

A `Mask.Cursor` stands in a word of a mask and knows the bits of the word that have not been read.
It yields the lowest of them and clears it; when none is left, it goes on to the next word that has
any. Whoever needs only the first members reads no further.

- `Mask.cursor`: the cursor before the first member.
- `Mask.Cursor.next`, `Mask.Cursor.take`: the next member, and the next few.
-/

namespace Concordance.Mask

/-- The index of the lowest set bit of a word that is not zero. -/
def lowestBit (word : UInt32) : Nat := word.toBitVec.ctz.toNat

/-- The word without its lowest set bit. -/
def clearLowest (word : UInt32) : UInt32 := word &&& (word - 1)

/-- A place between two members of a mask. -/
structure Cursor where
  /-- The mask that is read. -/
  mask : Mask
  /-- The index of the word that is read. -/
  index : Nat
  /-- The bits of this word that have not been read. -/
  unread : UInt32

namespace Cursor

/-- The cursor at the next word with a bit that has not been read, or nothing if there is none. -/
def advance (cursor : Cursor) : Option Cursor :=
  if cursor.unread ≠ 0 then some cursor
  else if h : cursor.index + 1 < cursor.mask.words.size then
    advance { cursor with
      index := cursor.index + 1, unread := cursor.mask.words[cursor.index + 1] }
  else none
termination_by cursor.mask.words.size - cursor.index
decreasing_by omega

/-- The next member and the cursor behind it, or nothing at the end. -/
def next (cursor : Cursor) : Option (UInt32 × Cursor) :=
  match cursor.advance with
  | none => none
  | some ahead =>
    some (UInt32.ofNat (wordBits * ahead.index + lowestBit ahead.unread),
      { ahead with unread := clearLowest ahead.unread })

/-- The next `count` members, or all that are left, and the cursor behind them. -/
def take (cursor : Cursor) : Nat → List UInt32 × Cursor
  | 0 => ([], cursor)
  | count + 1 =>
    match cursor.next with
    | none => ([], cursor)
    | some (member, behind) =>
      let (members, last) := behind.take count
      (member :: members, last)

end Cursor

/-- The cursor before the first member. -/
def cursor (mask : Mask) : Cursor :=
  { mask, index := 0, unread := mask.words.getD 0 0 }

end Concordance.Mask
