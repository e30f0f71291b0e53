import Concordance.BuildError

/-!
# Spans of records

A `RecordSpan` says where the records of a word form lie in the buffer of all records. Written out
it takes 32 bits: 24 for the offset and 8 for the length.
-/

namespace Concordance

/-- A part of the buffer of all records. -/
structure RecordSpan where
  /-- The index of the first record. -/
  offset : UInt32
  /-- The number of records. -/
  length : UInt32
  deriving DecidableEq, Repr, Inhabited

namespace RecordSpan

/-- The first offset that does not fit 24 bits. -/
def offsetLimit : Nat := 0x1000000

/-- The first length that does not fit 8 bits. -/
def lengthLimit : Nat := 0x100

/-- The span of forms without grammatical values. -/
def empty : RecordSpan := ⟨0, 0⟩

/-- The written form of a span. The offset is checked first. -/
def pack (span : RecordSpan) : Except BuildError UInt32 :=
  if offsetLimit ≤ span.offset.toNat then .error (.offsetOverflow span.offset.toNat)
  else if lengthLimit ≤ span.length.toNat then
    .error (.lengthOverflow s!"<slot at {span.offset}>" span.length.toNat)
  else .ok ((span.offset <<< 8) ||| span.length)

/-- The span of a written form. -/
def unpack (entry : UInt32) : RecordSpan :=
  ⟨entry >>> 8, entry &&& 0xFF⟩

end RecordSpan

end Concordance
