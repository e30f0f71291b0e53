import Concordance.GapList.Basic

/-!
# Pushing in place

A list that is held in a state changes field by field. When a push fails, the state stays as it is
at that point, so that it matters in what order the fields change and when the member is compared
with the last one. A member is counted last. A list that is full has then changed in all its other
fields: what it refuses for its order leaves no trace, what it cannot count does.

- `GapList.pushInPlace`: `GapList.push` on a list in a state. A loop of it, as in
  `values.forM pushInPlace`, ends at the first member that is refused.
-/

namespace Concordance.GapList

/-- Refuses a member that is not greater than the one before it. -/
def expectAfter (previous value : UInt32) : EStateM ContractViolation GapList Unit :=
  if previous < value then pure () else throw (.notAscending value previous)

/-- Refuses a member that is not greater than the last one, if there is one. -/
def expectAfterLast (value : UInt32) : EStateM ContractViolation GapList Unit := do
  match (← get).last with
  | some previous => expectAfter previous value
  | none => pure ()

/-- Writes a member as the head of a new block. -/
def writeHead (value : UInt32) : EStateM ContractViolation GapList Unit := do
  expectAfterLast value
  modify fun list => { list with heads := list.heads.push value }
  modify fun list =>
    { list with blockStarts := list.blockStarts.push (UInt32.ofNat list.gaps.size) }

/-- Writes a member as its gap from the one before it. -/
def writeGap (value : UInt32) : EStateM ContractViolation GapList Unit := do
  let previous := (← get).last.getD 0
  expectAfter previous value
  modify fun list => { list with gaps := list.gaps ++ Varint.encode (value - previous).toUInt64 }

/-- Writes a member into the block that it belongs to. -/
def writeMember (value : UInt32) : EStateM ContractViolation GapList Unit := do
  if (← get).length.toNat % blockLength = 0 then writeHead value else writeGap value

/-- Counts a member, as far as 32 bits can say the number. -/
def countMember : EStateM ContractViolation GapList Unit := do
  if (← get).length = 0xFFFFFFFF then throw .lengthOverflow
  modify fun list => { list with length := list.length + 1 }

/-- Appends a member, which has to be greater than the last one. -/
def pushInPlace (value : UInt32) : EStateM ContractViolation GapList Unit := do
  writeMember value
  modify fun list => { list with last := some value }
  countMember

end Concordance.GapList
