import Concordance.Mask.Basic

/-!
# Shifting masks

A shift by `distance` moves every member from position `p` to `p + distance`; members that leave
the words are dropped. A word of the result is put together from two neighbouring words of the
input.

- `Mask.shiftedWord`: one word of the shifted mask.
- `Mask.shift`: the whole shifted mask, of the same number of words.
- `Mask.addShifted`: the union of a mask with its own shift, word by word in place. Words are
  visited in the order in which none is read after it has changed: from the highest for a shift
  toward higher positions, from the lowest otherwise.
-/

namespace Concordance.Mask

/-- The word at `index` of the mask shifted by `distance`. -/
def shiftedWord (mask : Mask) (index : Nat) (distance : Int) : UInt32 :=
  let start := 32 * (index : Int) - distance
  let source := start / 32
  let bit := (start % 32).toNat
  let low := mask.word source >>> UInt32.ofNat bit
  if bit = 0 then low
  else low ||| (mask.word (source + 1) <<< UInt32.ofNat (32 - bit))

/-- The mask with every member moved by `distance`. -/
def shift (mask : Mask) (distance : Int) : Mask :=
  ⟨(Array.range mask.size).map fun index => mask.shiftedWord index distance⟩

/-- Unites one word of a mask with the same word of the mask's shift. -/
def addShiftedWord (distance : Int) (mask : Mask) (index : Nat) : Mask :=
  let shifted := mask.shiftedWord index distance
  ⟨mask.words.modify index (· ||| shifted)⟩

/-- The order in which the words of a mask may change in place under a shift by `distance`. -/
def visitOrder (count : Nat) (distance : Int) : List Nat :=
  if 0 < distance then (List.range count).reverse else List.range count

/-- The union of a mask with its shift by `distance`. -/
def addShifted (mask : Mask) (distance : Int) : Mask :=
  if distance = 0 then mask
  else (visitOrder mask.size distance).foldl (addShiftedWord distance) mask

end Concordance.Mask
