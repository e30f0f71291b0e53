/-!
# Binary search

`partitionPoint` finds where a property stops in an array whose elements that have it all come
first. It looks at a logarithmic number of elements.
-/

namespace Concordance

/-- The first index in `[low, high)` whose element lacks the property `p`, or `high`. -/
def partitionPointIn {α : Type} (items : Array α) (p : α → Bool) (low high : Nat) : Nat :=
  if h : low < high then
    let middle := low + (high - low) / 2
    if items[middle]?.any p then partitionPointIn items p (middle + 1) high
    else partitionPointIn items p low middle
  else low
termination_by high - low
decreasing_by all_goals omega

/-- The number of leading elements that have the property `p`, for an array in which all elements
with `p` come first. -/
def partitionPoint {α : Type} (items : Array α) (p : α → Bool) : Nat :=
  partitionPointIn items p 0 items.size

end Concordance
