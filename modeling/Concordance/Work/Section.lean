/-!
# Sections of a work

Rows of a work carry hierarchical section ids. The step from one row to the next is soft when it
leads to another last part under the same parents (`1.2.3` to `1.2.4`); any other step crosses a
boundary of the work's structure and is hard (`1.2.3` to `1.3.1`, or `1.2` to `1.2.1`).
-/

namespace Concordance

/-- The parts of a section id, outermost first. -/
abbrev SectionId : Type := List String

/-- How two neighbouring rows are separated. -/
inductive Boundary where
  /-- By a new line only. -/
  | soft
  /-- By a boundary of the work's structure. -/
  | hard
  deriving DecidableEq, Repr

/-- Why a section id is not accepted. -/
inductive SectionProblem where
  /-- It has no parts, or an empty part. -/
  | empty
  /-- It is the section id of the row before. -/
  | repeated
  deriving DecidableEq, Repr

namespace SectionId

/-- Whether a section id has parts and none of them is empty. -/
def isWellFormed (id : SectionId) : Bool := !id.isEmpty && id.all fun part => !part.isEmpty

/-- Accepts a section id that is well formed. -/
def check (id : SectionId) : Except SectionProblem Unit :=
  if id.isWellFormed then .ok () else .error .empty

/-- The boundary between two rows by their section ids. -/
def boundary (previous current : SectionId) : Except SectionProblem Boundary :=
  if !current.isWellFormed then .error .empty
  else if previous = current then .error .repeated
  else if previous.length = current.length ∧ previous.dropLast = current.dropLast then .ok .soft
  else .ok .hard

/-- A section id in the form in which rows are cited. -/
def label (id : SectionId) : String := String.intercalate "." id

end SectionId

end Concordance
