import Concordance.Mask.Basic
import Concordance.GapList.Cursor

/-!
# Posting lists

A posting list is a strictly ascending list of token indices, in the one of two forms that is
smaller for its density. A sparse list takes a byte or two for each member, whatever the size of
the corpus; a dense list takes one bit for each token of the corpus, whatever the number of
members. A list of `n` members is stored densely when `n * ratio` exceeds the number of tokens.

- `Posting.members`: the members of a list in either form.
- `Posting.pack`: the list of given members in the form that their density asks for.
- `Posting.meetsRange`: whether some member lies in a range, without reading the whole list.
-/

namespace Concordance

/-- A posting list in one of two forms. -/
inductive Posting where
  /-- Heads and gaps. -/
  | sparse (list : GapList)
  /-- One bit for each token. -/
  | dense (mask : Mask)
  deriving DecidableEq, Repr

namespace Posting

/-- The ratio above which lists are dense unless another one is asked for. -/
def defaultRatio : UInt32 := 32

/-- The list without members. -/
def empty : Posting := .sparse .empty

/-- The sparse list of ascending members. -/
def ofMembersSparse (members : List UInt32) : Except ContractViolation Posting :=
  (GapList.ofMembers members).map .sparse

/-- The dense list of members below a number of tokens. -/
def ofMembersDense (members : List UInt32) (tokens : UInt32) : Except ContractViolation Posting :=
  (Mask.ofMembers members tokens).map .dense

/-- Whether a list of `count` members is stored densely. -/
def wantsDense (count : Nat) (tokens ratio : UInt32) : Bool :=
  tokens.toNat < count * ratio.toNat

/-- The list of ascending members below a number of tokens. -/
def pack (members : List UInt32) (tokens ratio : UInt32) : Except ContractViolation Posting :=
  if wantsDense members.length tokens ratio then ofMembersDense members tokens
  else ofMembersSparse members

/-- Whether a list is stored densely. -/
def isDense : Posting → Bool
  | .sparse _ => false
  | .dense _ => true

/-- The number of members. -/
def length : Posting → Nat
  | .sparse list => list.length.toNat
  | .dense mask => mask.count

/-- Whether there are no members. -/
def isEmpty : Posting → Bool
  | .sparse list => list.isEmpty
  | .dense mask => mask.isEmpty

/-- The number of bytes that the members take. -/
def byteLength : Posting → Nat
  | .sparse list => list.byteLength
  | .dense mask => mask.size * 4

/-- The members in ascending order. -/
def members : Posting → Except ContractViolation (List UInt32)
  | .sparse list => list.members
  | .dense mask => .ok mask.members

/-- The members of a list that may be absent, in which case there are none. -/
def membersOf : Option Posting → Except ContractViolation (List UInt32)
  | none => .ok []
  | some posting => posting.members

/-- The bits of a word at `bit` and above. -/
def bitsFrom (bit : Nat) : UInt32 := 0xFFFFFFFF <<< UInt32.ofNat bit

/-- The bits of a word at `bit` and below. -/
def bitsUpTo (bit : Nat) : UInt32 :=
  if bit < 31 then (1 <<< UInt32.ofNat (bit + 1)) - 1 else 0xFFFFFFFF

/-- The bits of the word at an index that stand for positions in `[first, final]`, where the index
is that of a word from the first to the final position. -/
def rangeBits (first final index : Nat) (word : UInt32) : UInt32 :=
  let word := if index = first / 32 then word &&& bitsFrom (first % 32) else word
  if index = final / 32 then word &&& bitsUpTo (final % 32) else word

/-- The indices of the words of a mask that have positions in `[first, final]`, for
`first ≤ final`. -/
def rangeWords (mask : Mask) (first final : Nat) : List Nat :=
  if mask.size ≤ first / 32 then []
  else List.range' (first / 32) (min (final / 32) (mask.size - 1) + 1 - first / 32)

/-- Whether some set position of a mask lies in `[first, final]`, for `first ≤ final`. -/
def maskMeetsRange (mask : Mask) (first final : Nat) : Bool :=
  (rangeWords mask first final).any fun index =>
    rangeBits first final index (mask.word index) != 0

/-- Whether some member lies in `[first, final]`. -/
def meetsRange (posting : Posting) (first final : UInt32) : Except ContractViolation Bool :=
  if final < first then .ok false
  else
    match posting with
    | .sparse list => list.meetsRange first final
    | .dense mask => .ok (maskMeetsRange mask first.toNat final.toNat)

/-- Whether some member of a list that may be absent lies in `[first, final]`. -/
def rangeMeets (posting : Option Posting) (first final : UInt32) :
    Except ContractViolation Bool :=
  match posting with
  | none => .ok false
  | some posting => posting.meetsRange first final

end Posting

end Concordance
