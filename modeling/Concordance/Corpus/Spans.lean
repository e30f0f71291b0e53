/-!
# Spans of tokens

The rows of a work, the works, and the works of an author each cover a run of tokens that are
numbered through the whole corpus. A span gives the first token and the one behind the last.
-/

namespace Concordance

/-- The tokens of a row. -/
structure RowSpan where
  /-- The section id of the row, as it is cited. -/
  sectionId : String
  /-- The first token. -/
  start : Nat
  /-- The token behind the last. -/
  stop : Nat
  deriving DecidableEq, Repr

/-- The tokens of a work. -/
structure WorkSpan where
  /-- The name by which the work is cited. -/
  id : String
  /-- The title. -/
  name : String
  /-- The name of the author. -/
  author : String
  /-- The name by which the author is cited. -/
  authorCode : String
  /-- The first token. -/
  start : Nat
  /-- The token behind the last. -/
  stop : Nat
  /-- The tokens of every row. -/
  rows : Array RowSpan
  deriving DecidableEq, Repr

/-- The works and the tokens of an author. -/
structure AuthorSpan where
  /-- The name of the author. -/
  name : String
  /-- The number of the first work. -/
  firstWork : Nat
  /-- The number of the last work. -/
  lastWork : Nat
  /-- The first token. -/
  start : Nat
  /-- The token behind the last. -/
  stop : Nat
  deriving DecidableEq, Repr

end Concordance
