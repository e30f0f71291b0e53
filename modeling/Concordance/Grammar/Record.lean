import Concordance.Grammar.Analysis

/-!
# Packed records

A record is an analysis without its headword in 32 bits. Six fields hold one code each, the case
and the gender hold a set of codes:

```text
 31        24 23        16 15  14   11 10    8 7   6 5   4 3   2 1   0
┌────────────┬────────────┬───┬───────┬───────┬─────┬─────┬─────┬─────┐
│ gender set │  case set  │   │ mood  │ tense │ deg │voice│ per │ num │
└────────────┴────────────┴───┴───────┴───────┴─────┴─────┴─────┴─────┘
```

Alternatives in a field with one code need a record each, so that an analysis packs to the product
of its alternatives.

- `Analysis.records`: the records of an analysis, the number varying slowest and the mood fastest.
- `Record.features`: the grammatical values of a record.
-/

namespace Concordance

/-- A packed analysis without its headword. -/
abbrev Record : Type := UInt32

namespace Record

/-- The bits of a record from `shift` on, as many as `mask` covers. -/
def field (record : Record) (shift mask : UInt32) : UInt32 := (record >>> shift) &&& mask

/-- The code of the number. -/
def numberCode (record : Record) : UInt32 := record.field 0 0x3

/-- The code of the person. -/
def personCode (record : Record) : UInt32 := record.field 2 0x3

/-- The code of the voice. -/
def voiceCode (record : Record) : UInt32 := record.field 4 0x3

/-- The code of the degree. -/
def degreeCode (record : Record) : UInt32 := record.field 6 0x3

/-- The code of the tense. -/
def tenseCode (record : Record) : UInt32 := record.field 8 0x7

/-- The code of the mood. -/
def moodCode (record : Record) : UInt32 := record.field 11 0x7

/-- The set of the cases' codes. -/
def caseSet (record : Record) : UInt32 := record.field 16 0xFF

/-- The set of the genders' codes. -/
def genderSet (record : Record) : UInt32 := record.field 24 0xFF

end Record

/-- The set of the codes of a field's values. -/
def codeSet {α : Type} [Category α] (field : Option (Reading α)) : UInt32 :=
  (Analysis.valuesOf field).foldl (fun set value => set ||| (1 <<< Category.code value)) 0

/-- The codes that a set of codes may have members for. -/
def valueCodes : List UInt32 := [1, 2, 3, 4, 5, 6, 7]

/-- The values whose codes are in a set, in ascending order of their codes. -/
def valuesOfSet {α : Type} [Category α] (set : UInt32) : List α :=
  (valueCodes.filter fun code => set &&& ((1 : UInt32) <<< code) != 0).filterMap Category.ofCode?

/-- Each record with each alternative of a field; without values the records stay as they are. -/
def withField {α : Type} [Category α] (field : Option (Reading α)) (shift : UInt32)
    (records : List Record) : List Record :=
  match Analysis.valuesOf field with
  | [] => records
  | values => records.flatMap fun record =>
    values.map fun value => record ||| (Category.code value <<< shift)

/-- The records of an analysis. There is at least one, which is zero without any values. -/
def Analysis.records (analysis : Analysis) : List Record :=
  let single := [(0 : Record)]
    |> withField analysis.number 0
    |> withField analysis.person 2
    |> withField analysis.voice 4
    |> withField analysis.degree 6
    |> withField analysis.tense 8
    |> withField analysis.mood 11
  let sets := (codeSet analysis.case <<< 16) ||| (codeSet analysis.gender <<< 24)
  single.map (· ||| sets)

/-- The grammatical values of a record. -/
structure Features where
  number : Option Number
  person : Option Person
  voice : Option Voice
  degree : Option Degree
  tense : Option Tense
  mood : Option Mood
  cases : List Case
  genders : List Gender
  deriving DecidableEq, Repr

/-- The grammatical values of a record. Codes without a value are read as absent. -/
def Record.features (record : Record) : Features where
  number := Category.ofCode? record.numberCode
  person := Category.ofCode? record.personCode
  voice := Category.ofCode? record.voiceCode
  degree := Category.ofCode? record.degreeCode
  tense := Category.ofCode? record.tenseCode
  mood := Category.ofCode? record.moodCode
  cases := valuesOfSet record.caseSet
  genders := valuesOfSet record.genderSet

end Concordance
