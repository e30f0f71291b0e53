/-!
# Grammatical categories

A word form is described by values of eight categories. Every value has a key, its name in written
analyses and in the index, and a code from 1 on, its place in packed records; the code 0 stands
for no value.

- `Category`: the values of a category with their codes and keys.
- `Category.ofCode?`, `Category.ofKey?`: the value of a code or of a key.
- `Category.maxCode`: the greatest code of a category.
-/

namespace Concordance

/-- A grammatical category: its values, each with a code and a key. -/
class Category (α : Type) where
  /-- The values in the order of their codes. -/
  all : List α
  /-- The code of a value, which is not zero. -/
  code : α → UInt32
  /-- The name of a value. -/
  key : α → String

/-- The value of a code. -/
def Category.ofCode? {α : Type} [Category α] (code : UInt32) : Option α :=
  (Category.all : List α).find? fun value => Category.code value == code

/-- The value of a key. -/
def Category.ofKey? {α : Type} [Category α] (key : String) : Option α :=
  (Category.all : List α).find? fun value => Category.key value == key

/-- The greatest code of a category, or zero if there are no values. -/
def Category.maxCode (α : Type) [Category α] : Nat :=
  ((Category.all : List α).map fun value => (Category.code value).toNat).max?.getD 0

/-- The case of a noun. -/
inductive Case where
  | nominative
  | accusative
  | dative
  | genitive
  | ablative
  | vocative
  | locative
  deriving DecidableEq, Repr

instance : Category Case where
  all := [.nominative, .accusative, .dative, .genitive, .ablative, .vocative, .locative]
  code
    | .nominative => 1
    | .accusative => 2
    | .dative => 3
    | .genitive => 4
    | .ablative => 5
    | .vocative => 6
    | .locative => 7
  key
    | .nominative => "nominative"
    | .accusative => "accusative"
    | .dative => "dative"
    | .genitive => "genitive"
    | .ablative => "ablative"
    | .vocative => "vocative"
    | .locative => "locative"

/-- Grammatical number. -/
inductive Number where
  | singular
  | plural
  deriving DecidableEq, Repr

instance : Category Number where
  all := [.singular, .plural]
  code
    | .singular => 1
    | .plural => 2
  key
    | .singular => "singular"
    | .plural => "plural"

/-- The gender of a noun. -/
inductive Gender where
  | masculine
  | feminine
  | neuter
  | adverbial
  deriving DecidableEq, Repr

instance : Category Gender where
  all := [.masculine, .feminine, .neuter, .adverbial]
  code
    | .masculine => 1
    | .feminine => 2
    | .neuter => 3
    | .adverbial => 4
  key
    | .masculine => "masculine"
    | .feminine => "feminine"
    | .neuter => "neuter"
    | .adverbial => "adverbial"

/-- The person of a verb. -/
inductive Person where
  | first
  | second
  | third
  deriving DecidableEq, Repr

instance : Category Person where
  all := [.first, .second, .third]
  code
    | .first => 1
    | .second => 2
    | .third => 3
  key
    | .first => "first"
    | .second => "second"
    | .third => "third"

/-- The mood of a verb, infinite forms included. -/
inductive Mood where
  | indicative
  | imperative
  | subjunctive
  | participle
  | gerundive
  | infinitive
  | supine
  deriving DecidableEq, Repr

instance : Category Mood where
  all := [.indicative, .imperative, .subjunctive, .participle, .gerundive, .infinitive, .supine]
  code
    | .indicative => 1
    | .imperative => 2
    | .subjunctive => 3
    | .participle => 4
    | .gerundive => 5
    | .infinitive => 6
    | .supine => 7
  key
    | .indicative => "indicative"
    | .imperative => "imperative"
    | .subjunctive => "subjunctive"
    | .participle => "participle"
    | .gerundive => "gerundive"
    | .infinitive => "infinitive"
    | .supine => "supine"

/-- The voice of a verb. -/
inductive Voice where
  | active
  | passive
  deriving DecidableEq, Repr

instance : Category Voice where
  all := [.active, .passive]
  code
    | .active => 1
    | .passive => 2
  key
    | .active => "active"
    | .passive => "passive"

/-- The tense of a verb. -/
inductive Tense where
  | present
  | imperfect
  | perfect
  | futurePerfect
  | future
  | pluperfect
  deriving DecidableEq, Repr

instance : Category Tense where
  all := [.present, .imperfect, .perfect, .futurePerfect, .future, .pluperfect]
  code
    | .present => 1
    | .imperfect => 2
    | .perfect => 3
    | .futurePerfect => 4
    | .future => 5
    | .pluperfect => 6
  key
    | .present => "present"
    | .imperfect => "imperfect"
    | .perfect => "perfect"
    | .futurePerfect => "future_perfect"
    | .future => "future"
    | .pluperfect => "pluperfect"

/-- The degree of an adjective or an adverb. -/
inductive Degree where
  | positive
  | comparative
  | superlative
  deriving DecidableEq, Repr

instance : Category Degree where
  all := [.positive, .comparative, .superlative]
  code
    | .positive => 1
    | .comparative => 2
    | .superlative => 3
  key
    | .positive => "positive"
    | .comparative => "comparative"
    | .superlative => "superlative"

end Concordance
