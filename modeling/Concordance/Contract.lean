import Concordance.Bytes.DecodeError

/-!
# What callers owe a list of members

Gap lists take members in strictly ascending order, and one fewer than there are 32-bit numbers;
masks take members below their length. A caller that breaks such a promise gets the
`ContractViolation`.

Names of enumerated things (`Direction`, `Dimension`) are read with one failure, `UnknownName`.
-/

namespace Concordance

/-- A promise that a caller broke. -/
inductive ContractViolation where
  /-- A member was given after one that is not smaller. -/
  | notAscending (value last : UInt32)
  /-- A member does not lie below the number of positions of its mask. -/
  | outsideMask (index positions : UInt32)
  /-- The bytes of a gap list do not decode. -/
  | corruptGaps (cause : DecodeError)
  /-- A gap list has members of a block that it has no head for. -/
  | missingBlock (block : Nat)
  /-- A member was given to a gap list of `2 ^ 32 - 1` members. -/
  | lengthOverflow
  deriving DecidableEq, Repr

/-- The wording of a broken promise. -/
def ContractViolation.message : ContractViolation → String
  | .notAscending value last =>
    s!"packed naturals must be strictly ascending: {value} after {last}"
  | .outsideMask index positions => s!"index {index} does not fit a mask of length {positions}"
  | .corruptGaps cause => "corrupted sparse posting list: " ++ cause.message
  | .missingBlock block => s!"corrupted sparse posting list: no block {block}"
  | .lengthOverflow => "attempt to add with overflow"

/-- A name that stands for no value of its kind. -/
structure UnknownName where
  /-- What the name should have named. -/
  kind : String
  /-- The name as given. -/
  name : String
  deriving DecidableEq, Repr

/-- The wording of an unknown name. -/
def UnknownName.message (unknown : UnknownName) : String :=
  "Unknown " ++ unknown.kind ++ " '" ++ unknown.name ++ "'"

end Concordance
