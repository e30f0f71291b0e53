import Concordance.Contract

/-!
# Masks

A mask holds a set of token positions as bits: bit `i` of word `w` stands for position `32 * w + i`.
Positions outside the words read as unset, negative ones included, so that shifted look-ups need no
bounds of their own.

- `Mask.test`: membership of an integer position.
- `Mask.ofMembers`: the mask of given members over a number of positions.
- `Mask.members`: the set positions in ascending order.
-/

namespace Concordance

/-- A set of positions, one bit each, in 32-bit words. -/
structure Mask where
  /-- The words, lowest positions first. -/
  words : Array UInt32
  deriving DecidableEq, Repr, Inhabited

namespace Mask

/-- The number of bits of a word. -/
def wordBits : Nat := 32

/-- The number of words that cover `positions` positions. -/
def wordsFor (positions : Nat) : Nat := (positions + (wordBits - 1)) / wordBits

/-- The mask of `count` words with no bit set. -/
def zeros (count : Nat) : Mask := ⟨Array.replicate count 0⟩

/-- The number of words. -/
def size (mask : Mask) : Nat := mask.words.size

/-- The word at an index; words outside the mask are zero. -/
def word (mask : Mask) (index : Int) : UInt32 :=
  if index < 0 then 0 else mask.words.getD index.toNat 0

/-- Whether a position is set. -/
def test (mask : Mask) (position : Int) : Bool :=
  (mask.word (position / 32)).toNat.testBit (position % 32).toNat

/-- The word whose only set bit is `bit`. -/
def bitWord (bit : Nat) : UInt32 := 1 <<< UInt32.ofNat bit

/-- Sets a position that the words cover; other positions change nothing. -/
def insert (mask : Mask) (position : Nat) : Mask :=
  ⟨mask.words.modify (position / 32) (· ||| bitWord (position % 32))⟩

/-- Appends zero words up to `count` words; a longer mask stays as it is. -/
def extend (mask : Mask) (count : Nat) : Mask :=
  ⟨mask.words ++ Array.replicate (count - mask.words.size) 0⟩

/-- Keeps the first `count` words. -/
def truncate (mask : Mask) (count : Nat) : Mask :=
  ⟨mask.words.take count⟩

/-- The mask of `members` over `positions` positions. The members may come in any order. -/
def ofMembers (members : List UInt32) (positions : UInt32) : Except ContractViolation Mask :=
  members.foldlM
    (fun mask member =>
      if member < positions then .ok (mask.insert member.toNat)
      else .error (.outsideMask member positions))
    (zeros (wordsFor positions.toNat))

/-- The set bits of a word in ascending order. -/
def bitsOf (word : UInt32) : List Nat :=
  (List.range wordBits).filter word.toNat.testBit

/-- The set positions in ascending order. -/
def members (mask : Mask) : List UInt32 :=
  mask.words.toList.zipIdx.flatMap fun (word, index) =>
    (bitsOf word).map fun bit => UInt32.ofNat (wordBits * index + bit)

/-- The number of set bits of a word. -/
def popCount (word : UInt32) : Nat :=
  (List.range wordBits).countP word.toNat.testBit

/-- The number of set positions. -/
def count (mask : Mask) : Nat :=
  (mask.words.toList.map popCount).foldr (· + ·) 0

/-- Whether no position is set. -/
def isEmpty (mask : Mask) : Bool :=
  mask.words.all (· == 0)

/-- The number of positions the words cover, at most the greatest 32-bit number. -/
def width (mask : Mask) : Nat :=
  min (wordBits * mask.size) (UInt32.size - 1)

end Mask

end Concordance
