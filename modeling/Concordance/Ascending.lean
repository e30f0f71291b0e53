/-!
# Ascending lists without repetition

`ascending` sorts a list and keeps each value once.
-/

namespace Concordance

/-- Keeps the last of neighbouring equal values. -/
def dropRepeats {α : Type} [DecidableEq α] : List α → List α
  | [] => []
  | [value] => [value]
  | value :: next :: rest =>
    if value = next then dropRepeats (next :: rest) else value :: dropRepeats (next :: rest)

/-- The values of a list in ascending order, each once. -/
def ascending {α : Type} [DecidableEq α] [LE α] [DecidableLE α] (values : List α) : List α :=
  dropRepeats (values.mergeSort fun a b => decide (a ≤ b))

end Concordance
