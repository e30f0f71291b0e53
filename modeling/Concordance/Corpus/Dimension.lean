import Concordance.Contract

/-!
# Dimensions of the index

The index has a posting list for every value that occurs in one of ten dimensions: the search keys
and the headwords of words, the structure of the text, and seven grammatical categories.

- `Dimension`: an axis of the index.
- `IndexKey`: a value in a dimension. Keys are ordered by dimension and then by value.
-/

namespace Concordance

/-- An axis of the index. -/
inductive Dimension where
  | word
  | headword
  | breaks
  | case
  | number
  | gender
  | tense
  | person
  | mood
  | voice
  deriving DecidableEq, Repr

namespace Dimension

/-- All dimensions in their order. -/
def all : List Dimension :=
  [.word, .headword, .breaks, .case, .number, .gender, .tense, .person, .mood, .voice]

/-- The name of a dimension. -/
def name : Dimension → String
  | .word => "word"
  | .headword => "lemma"
  | .breaks => "breaks"
  | .case => "case"
  | .number => "number"
  | .gender => "gender"
  | .tense => "tense"
  | .person => "person"
  | .mood => "mood"
  | .voice => "voice"

/-- The dimension of a name. -/
def ofName (name : String) : Except UnknownName Dimension :=
  match all.find? (·.name == name) with
  | some dimension => .ok dimension
  | none => .error ⟨"dimension", name⟩

/-- The place of a dimension among all of them. -/
def rank : Dimension → Nat
  | .word => 0
  | .headword => 1
  | .breaks => 2
  | .case => 3
  | .number => 4
  | .gender => 5
  | .tense => 6
  | .person => 7
  | .mood => 8
  | .voice => 9

end Dimension

/-- A value in a dimension. -/
structure IndexKey where
  /-- The dimension. -/
  dimension : Dimension
  /-- The value. -/
  value : String
  deriving DecidableEq, Repr

namespace IndexKey

/-- Keys are ordered by dimension and then by value. -/
def compare : IndexKey → IndexKey → Ordering :=
  compareLex (compareOn fun key => key.dimension.rank) (compareOn fun key => key.value)

/-- The key of a word with a search key. -/
def ofWord (word : String) : IndexKey := ⟨.word, word⟩

/-- The key of a headword. -/
def ofHeadword (headword : String) : IndexKey := ⟨.headword, headword⟩

/-- The key of the tokens that stand before a hard boundary. -/
def hardBreak : IndexKey := ⟨.breaks, "hard"⟩

end IndexKey

end Concordance
