import Concordance.Grammar.Category
import Concordance.Json.Fields

/-!
# Analyses of word forms

An analysis says what a word form can be: a form of a headword with some grammatical values. A
field of an analysis is absent, a single value, or a list of values that the form may have alike.

- `Reading`: a single value or a list of alternatives.
- `Analysis`: a headword with eight fields.
- `Analysis.ofJson?`, `Analysis.toJson`: the written form of an analysis. Absent fields are left
  out.
-/

namespace Concordance

/-- A field with a value: one value, or alternatives. -/
inductive Reading (α : Type) where
  /-- A single value. -/
  | one (value : α)
  /-- Any of several values. -/
  | many (values : List α)
  deriving DecidableEq, Repr

namespace Reading

/-- The values that a field may have. -/
def values {α : Type} : Reading α → List α
  | .one value => [value]
  | .many values => values

/-- The value that a key names. A key also stands for its value as the only entry of an object,
without anything beside it. -/
def valueOfJson? {α : Type} [Category α] : Json → Option α
  | .string (some key) => Category.ofKey? key
  | .object [(some key, .null)] => Category.ofKey? key
  | _ => none

/-- The field of a key or a list of keys. -/
def ofJson? {α : Type} [Category α] : Json → Option (Reading α)
  | .array items => (items.mapM valueOfJson?).map .many
  | value => (valueOfJson? value).map .one

/-- The field as a key or a list of keys. -/
def toJson {α : Type} [Category α] : Reading α → Json
  | .one value => .text (Category.key value)
  | .many values => .texts (values.map Category.key)

end Reading

/-- What a word form can be. -/
structure Analysis where
  /-- The word under which a dictionary lists the form. -/
  headword : String
  case : Option (Reading Case) := none
  number : Option (Reading Number) := none
  gender : Option (Reading Gender) := none
  tense : Option (Reading Tense) := none
  person : Option (Reading Person) := none
  mood : Option (Reading Mood) := none
  voice : Option (Reading Voice) := none
  degree : Option (Reading Degree) := none
  deriving DecidableEq, Repr

namespace Analysis

/-- The names of the fields, in the order in which they are written. -/
def fieldNames : List String :=
  ["lemma", "case", "number", "gender", "tense", "person", "mood", "voice", "degree"]

/-- The values of a field, of which there are none if it is absent. -/
def valuesOf {α : Type} (field : Option (Reading α)) : List α :=
  (field.map Reading.values).getD []

/-- Reads a field that may be missing or null. -/
def fieldOfJson? {α : Type} [Category α] : Option Json → Option (Option (Reading α))
  | none => some none
  | some .null => some none
  | some value => (Reading.ofJson? value).map some

/-- The analysis that a JSON value writes. -/
def ofJson? (value : Json) : Option Analysis := do
  match ← value.fields? fieldNames with
  | [headword, case, number, gender, tense, person, mood, voice, degree] =>
    return {
      headword := ← (← headword).text?
      case := ← fieldOfJson? case
      number := ← fieldOfJson? number
      gender := ← fieldOfJson? gender
      tense := ← fieldOfJson? tense
      person := ← fieldOfJson? person
      mood := ← fieldOfJson? mood
      voice := ← fieldOfJson? voice
      degree := ← fieldOfJson? degree }
  | _ => none

/-- The entry of a field, if it is not absent. -/
def fieldEntry {α : Type} [Category α] (name : String) (field : Option (Reading α)) :
    List (String × Json) :=
  match field with
  | none => []
  | some reading => [(name, reading.toJson)]

/-- The written form of an analysis. -/
def toJson (analysis : Analysis) : Json :=
  .record (("lemma", .text analysis.headword)
    :: (fieldEntry "case" analysis.case
      ++ fieldEntry "number" analysis.number
      ++ fieldEntry "gender" analysis.gender
      ++ fieldEntry "tense" analysis.tense
      ++ fieldEntry "person" analysis.person
      ++ fieldEntry "mood" analysis.mood
      ++ fieldEntry "voice" analysis.voice
      ++ fieldEntry "degree" analysis.degree))

end Analysis

end Concordance
