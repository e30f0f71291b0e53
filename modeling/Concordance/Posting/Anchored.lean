import Concordance.Posting.Basic
import Concordance.Posting.Merge
import Concordance.Mask.Smear

/-!
# Posting lists at positions of a query

The terms of a phrase stand at positions relative to each other. An `Anchored` list is a posting
list with the position of its term; two of them combine in the frame of the first, the candidates,
whose position the result keeps. With `offset` the position of the candidates less that of the
filter, a candidate `c` matches a filter that has `c - offset`.

```text
arma@0   virum@1   cano@2
(arma@0 and virum@1) is at 0, and so is ((arma@0 and virum@1) and cano@2)
```

- `Anchored.intersect`: candidates that the filter has at their offset. Dense if both lists are.
- `Anchored.unite`: candidates and moved filter members together. Dense if one list is.
- `Anchored.near`: candidates with a filter member within a radius of their offset.

Lists that match nothing are no error, so that a chain of terms may end up empty.
-/

namespace Concordance

/-- A posting list with the position of its term. -/
structure Anchored where
  /-- The tokens that match the term. -/
  posting : Posting
  /-- The position of the term in its query. -/
  position : UInt32
  deriving DecidableEq, Repr

namespace Anchored

/-- How far the members of the filter move into the frame of the candidates. -/
def offset (candidates filter : Anchored) : Int :=
  (candidates.position.toNat : Int) - (filter.position.toNat : Int)

/-- The list with other members at the same position. -/
def withPosting (anchored : Anchored) (posting : Posting) : Anchored :=
  { anchored with posting }

/-- The candidates that the filter has at their offset. -/
def intersect (candidates filter : Anchored) : Except ContractViolation Anchored := do
  let offset := candidates.offset filter
  let posting ← match candidates.posting, filter.posting with
    | .sparse c, .sparse f => do
      Posting.ofMembersSparse (Merge.streamLists offset (← c.members) (← f.members))
    | .sparse c, .dense f => do
      let matched := Merge.maskedMembers (-offset) f (← c.members)
      Posting.ofMembersSparse
        (matched.map fun position => UInt32.ofInt ((position.toNat : Int) + offset))
    | .dense c, .sparse f => do
      Posting.ofMembersSparse (Merge.maskedMembers offset c (← f.members))
    | .dense c, .dense f => pure (.dense (Merge.intersectMasks offset c f))
  return candidates.withPosting posting

/-- The candidates together with the members of the filter moved by the offset. -/
def unite (candidates filter : Anchored) : Except ContractViolation Anchored := do
  let offset := candidates.offset filter
  let posting ← match candidates.posting, filter.posting with
    | .sparse c, .sparse f => do
      Posting.ofMembersSparse (Merge.uniteLists offset (← c.members) (← f.members))
    | .sparse c, .dense f => do
      pure (.dense (Merge.addMembers 0 (Merge.uniteMasks offset (Mask.zeros 0) f) (← c.members)))
    | .dense c, .sparse f => do
      pure (.dense (Merge.addMembers offset c (← f.members)))
    | .dense c, .dense f => pure (.dense (Merge.uniteMasks offset c f))
  return candidates.withPosting posting

/-- The ascending candidates `c` with `0 ≤ c - offset` for which the ascending filter has a member
in `[c - offset - behind, c - offset + ahead]`. Filter members that are too small for a candidate
are too small for all later ones. -/
def nearLists (offset : Int) (behind ahead : Nat) : List UInt32 → List UInt32 → List UInt32
  | [], _ => []
  | candidate :: candidates, filter =>
    let target := (candidate.toNat : Int) - offset
    if target < 0 then nearLists offset behind ahead candidates filter
    else
      match filter.dropWhile fun member => (member.toNat : Int) < target - behind with
      | [] => []
      | member :: later =>
        if (member.toNat : Int) ≤ target + ahead then
          candidate :: nearLists offset behind ahead candidates (member :: later)
        else nearLists offset behind ahead candidates (member :: later)

/-- How far a filter member may lie behind and ahead of a candidate's target. A filter whose runs
extend to the right matches from behind. -/
def window (radius : UInt32) : Direction → Nat × Nat
  | .left => (0, radius.toNat)
  | .right => (radius.toNat, 0)
  | .both => (radius.toNat, radius.toNat)

/-- A bound above all members of a list. -/
def bound : Posting → Nat
  | .sparse list => match list.last with
    | none => 0
    | some last => last.toNat + 1
  | .dense mask => mask.width

/-- The mask of all positions near a filter's members, made longer as far as runs to the right reach
and candidates below `bound` can be. -/
def reachable (mask : Mask) (bound : Nat) (offset : Int) (radius : UInt32)
    (direction : Direction) : Mask :=
  let grown := match direction with
    | .left => mask
    | _ =>
      let needed := Mask.wordsFor ((bound : Int) - offset).toNat
      let limit := mask.size + Mask.wordsFor radius.toNat
      mask.extend (min limit (max mask.size needed))
  grown.smear radius direction

/-- The candidates with a filter member near their offset: within `radius` positions before it,
after it or either, as the direction says of the runs that extend from filter members. -/
def near (candidates filter : Anchored) (radius : UInt32) (direction : Direction) :
    Except ContractViolation Anchored :=
  if radius = 0 then candidates.intersect filter
  else
    let offset := candidates.offset filter
    match filter.posting with
    | .dense mask =>
      candidates.intersect (filter.withPosting
        (.dense (reachable mask (bound candidates.posting) offset radius direction)))
    | .sparse list => do
      let (behind, ahead) := window radius direction
      let matched := nearLists offset behind ahead (← candidates.posting.members) (← list.members)
      return candidates.withPosting (← Posting.ofMembersSparse matched)

end Anchored

end Concordance
