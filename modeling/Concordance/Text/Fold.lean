import Concordance.Text.Decomposition
import Concordance.Text.CombiningClass
import Concordance.Text.LetterCase

/-!
# Search keys

Editions mark the length of vowels, breves and diaereses; none of them separates entries of the
index. The search key of a word is its text without such marks and in lower case, so that
`"rēgīna"`, `"Regina"` and `"regina"` share one key.

A key is made in three steps: canonical decomposition with the marks in canonical order, removal
of the characters of five blocks of combining marks, and lower case character by character.

- `Fold.reorder`: the canonical order of marks.
- `Fold.decomposed`: the canonical decomposition of a text.
- `Fold.searchKey`: the search key of a word.
-/

namespace Concordance.Fold

/-- Puts a code point in front of ordered ones. A mark moves behind the marks of lower classes that
follow it directly. -/
def place (code : Nat) : List Nat → List Nat
  | [] => [code]
  | next :: rest =>
    if 0 < CombiningClass.ofCode next ∧ CombiningClass.ofCode next < CombiningClass.ofCode code then
      next :: place code rest
    else code :: next :: rest

/-- The canonical order: between characters of class 0, marks stand in the order of their classes,
and marks of one class in their own order. -/
def reorder (codes : List Nat) : List Nat := codes.foldr place []

/-- The canonical decomposition of a sequence of code points. -/
def decomposed (codes : List Nat) : List Nat :=
  reorder (codes.flatMap Decomposition.ofCode)

/-- The blocks of combining marks that keys leave out. -/
def markBlocks : List (Nat × Nat) :=
  [(0x0300, 0x036F), (0x1AB0, 0x1AFF), (0x1DC0, 0x1DFF), (0x20D0, 0x20FF), (0xFE20, 0xFE2F)]

/-- Whether a code point is in a block of combining marks. -/
def isMark (code : Nat) : Bool :=
  markBlocks.any fun (first, last) => first ≤ code && code ≤ last

/-- The search key of a sequence of code points. -/
def keyOfCodes (codes : List Nat) : List Nat :=
  ((decomposed codes).filter fun code => !isMark code).flatMap LetterCase.lower

/-- The search key of a word. -/
def searchKey (word : String) : String :=
  String.ofList ((keyOfCodes (word.toList.map Char.toNat)).map Char.ofNat)

/-- A text in upper case, character by character. -/
def upperCase (text : String) : String :=
  String.ofList ((text.toList.flatMap fun c => LetterCase.upper c.toNat).map Char.ofNat)

end Concordance.Fold
