import Concordance.Mask.Shift

/-!
# Smearing masks

Smearing by a radius turns every member into a run of members: toward lower positions, toward higher
ones, or both ways. Runs merge where they meet and end at the bounds of the mask.

A run grows by doubling: the union with a copy shifted by one more than is covered leaves no gap, so
a radius costs a logarithmic number of passes.

- `Direction`: which way a run extends.
- `Mask.smear`: the smeared mask, of the same number of words. Both ways, the run to the right is
  made on a longer mask, because the pass to the left needs the whole of it.
-/

namespace Concordance

/-- The way in which a run extends from a member. -/
inductive Direction where
  /-- Toward lower positions. -/
  | left
  /-- Toward higher positions. -/
  | right
  /-- Both ways. -/
  | both
  deriving DecidableEq, Repr

namespace Direction

/-- The name of a direction. -/
def name : Direction → String
  | .left => "left"
  | .right => "right"
  | .both => "both"

/-- All directions. -/
def all : List Direction := [.left, .right, .both]

/-- The direction of a name. -/
def ofName (name : String) : Except UnknownName Direction :=
  match all.find? (·.name == name) with
  | some direction => .ok direction
  | none => .error ⟨"smear direction", name⟩

end Direction

namespace Mask

/-- Extends runs that cover `covered` positions beyond their member until they cover `radius`; the
sign of `unit` is the way they extend. -/
def extendRuns (unit : Int) (radius covered : Nat) (mask : Mask) : Mask :=
  if covered < radius then
    let step := min (covered + 1) (radius - covered)
    extendRuns unit radius (covered + step) (mask.addShifted (unit * step))
  else mask
termination_by radius - covered
decreasing_by omega

/-- The mask of all positions within `radius` of a member in the given direction. -/
def smear (mask : Mask) (radius : UInt32) (direction : Direction) : Mask :=
  let reach := min radius.toNat mask.width
  match direction with
  | .left => mask.extendRuns (-1) reach 0
  | .right => mask.extendRuns 1 reach 0
  | .both =>
    let grown := mask.extend (mask.size + wordsFor reach)
    ((grown.extendRuns 1 reach 0).addShifted (-reach)).truncate mask.size

end Mask

end Concordance
