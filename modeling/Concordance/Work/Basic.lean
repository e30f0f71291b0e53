import Concordance.Json.Fields
import Concordance.Json.Parser
import Concordance.Text.Fold
import Concordance.Work.Section

/-!
# Works

A work is a sequence of rows of text, each with its section id, under a title and an author.

- `Work.ofJson?`, `Work.toJson`: the written form of a work.
- `Work.numbered`, `Work.sectioned`: works from rows alone, for trying things out.
-/

namespace Concordance

/-- A work as it comes to be indexed. -/
structure Work where
  /-- The name by which the work is cited. -/
  id : String
  /-- The title. -/
  name : String
  /-- The name of the author. -/
  author : String
  /-- The name by which the author is cited. -/
  authorCode : String
  /-- The text of the rows in reading order. -/
  rows : List String
  /-- The section id of every row. -/
  rowIds : List SectionId
  deriving DecidableEq, Repr

namespace Work

/-- The names of the fields, in the order in which they are written. -/
def fieldNames : List String := ["id", "workName", "author", "authorCode", "rows", "rowIds"]

/-- The work that a JSON value writes. -/
def ofJson? (value : Json) : Option Work := do
  match ← value.fields? fieldNames with
  | [some id, some name, some author, some authorCode, some rows, some rowIds] =>
    return {
      id := ← id.text?
      name := ← name.text?
      author := ← author.text?
      authorCode := ← authorCode.text?
      rows := ← rows.texts?
      rowIds := ← rowIds.list? Json.texts? }
  | _ => none

/-- The work that a JSON text writes. -/
def parse (text : String) : Option Work := do
  ofJson? (← Json.parse text)

/-- The written form of a work. -/
def toJson (work : Work) : Json :=
  .record [
    ("id", .text work.id),
    ("workName", .text work.name),
    ("author", .text work.author),
    ("authorCode", .text work.authorCode),
    ("rows", .texts work.rows),
    ("rowIds", .array (work.rowIds.map Json.texts))]

/-- The parts of a section id in the form in which rows are cited. -/
def sectionParts (label : String) : SectionId := label.splitOn "."

/-- A work whose name and author are made from the names by which they are cited. -/
def titled (id authorCode : String) (rows : List String) (rowIds : List SectionId) : Work :=
  { id, name := "Work " ++ id, author := Fold.upperCase authorCode, authorCode, rows, rowIds }

/-- A work of rows that are numbered from 1 on. -/
def numbered (id authorCode : String) (rows : List String) : Work :=
  titled id authorCode rows
    ((List.range rows.length).map fun index => [Nat.repr (index + 1)])

/-- A work of rows that are given with their section ids. -/
def sectioned (id authorCode : String) (rows : List (String × String)) : Work :=
  titled id authorCode (rows.map (·.2)) (rows.map fun row => sectionParts row.1)

end Work

end Concordance
