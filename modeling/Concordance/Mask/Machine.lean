import Concordance.Mask.Shift

/-!
# Shifts in 64-bit arithmetic

Positions and distances are signed 64-bit numbers, whose sums and products wrap around. A word of a
shifted mask is found by rounding the position of its first bit down to a word, also where the
position is negative.

- `Mask.testAt`: membership of a 64-bit position.
- `Mask.shiftedWordBy`: one word of a mask shifted by a 64-bit distance.
- `Mask.shiftBy`: the whole shifted mask, of the same number of words.
- `Mask.addShiftedBy`: the union of a mask with its own shift, word by word in place.
-/

namespace Concordance.Mask

/-- The index of the word that covers a position. -/
def wordOf (position : Int64) : Int64 := Int64.ofInt (position.toInt / 32)

/-- The bit that stands for a position in its word. -/
def bitOf (position : Int64) : Nat := (position.toInt % 32).toNat

/-- The word at an index; words outside the mask are zero. -/
def wordAt (mask : Mask) (index : Int64) : UInt32 :=
  if index < 0 then 0 else mask.words.getD index.toNatClampNeg 0

/-- Whether a position is set. -/
def testAt (mask : Mask) (position : Int64) : Bool :=
  if position < 0 then false
  else
    match mask.words[(position / 32).toNatClampNeg]? with
    | some word => word &&& bitWord (position % 32).toNatClampNeg != 0
    | none => false

/-- The word at `index` of the mask shifted by `distance`. -/
def shiftedWordBy (mask : Mask) (index : Nat) (distance : Int64) : UInt32 :=
  let start := Int64.ofNat index * 32 - distance
  let source := wordOf start
  let bit := bitOf start
  let low := mask.wordAt source >>> UInt32.ofNat bit
  if bit = 0 then low
  else low ||| (mask.wordAt (source + 1) <<< UInt32.ofNat (32 - bit))

/-- The mask with every member moved by `distance`. -/
def shiftBy (mask : Mask) (distance : Int64) : Mask :=
  ⟨(Array.range mask.size).map fun index => mask.shiftedWordBy index distance⟩

/-- Unites one word of a mask with the same word of the mask's shift. -/
def addShiftedWordBy (distance : Int64) (mask : Mask) (index : Nat) : Mask :=
  let shifted := mask.shiftedWordBy index distance
  ⟨mask.words.modify index (· ||| shifted)⟩

/-- The union of a mask with its shift by `distance`. -/
def addShiftedBy (mask : Mask) (distance : Int64) : Mask :=
  if distance = 0 ∨ mask.size = 0 then mask
  else if 0 < distance then
    (List.range mask.size).reverse.foldl (addShiftedWordBy distance) mask
  else (List.range mask.size).foldl (addShiftedWordBy distance) mask

end Concordance.Mask
