import Mathlib.Data.List.Nodup
import Mathlib.Data.List.ProdSigma
import Concordance.Proofs.Ascending
import Concordance.Proofs.Grammar.Record

/-!
# The records of an analysis one by one

The alternatives of the six single fields of an analysis combine as the digits of a number do: the
mood changes from one record to the next, the number only when all that follows it has been gone
through. The record at each place reads back as the combination at this place
(`Analysis.records_read_back`), so that packing loses nothing of an analysis but its headword.

- `Analysis.combinations`: the product of the alternatives.
- `valuesOfSet_pairwise`: the values of a set come in the order of their codes, each once.
-/

namespace Concordance

/-- The values of a set ascend by their codes. -/
theorem valuesOfSet_pairwise {α : Type} [Category α] (set : UInt32) :
    (valuesOfSet set : List α).Pairwise fun first second =>
      Category.code first < Category.code second := by
  have hcodes : valueCodes.Pairwise (· < ·) := by decide
  refine List.pairwise_filterMap.mpr ((hcodes.filter _).imp ?_)
  intro code other hlt first hfirst second hsecond
  rw [Category.code_of_ofCode? hfirst, Category.code_of_ofCode? hsecond]
  exact hlt

/-- A value for each of the six single fields, any of which may be absent. -/
abbrev Combination : Type :=
  Option Number × Option Person × Option Voice × Option Degree × Option Tense × Option Mood

/-- The grammatical values of a combination with some cases and genders. -/
def Combination.features (cases : List Case) (genders : List Gender) : Combination → Features
  | (number, person, voice, degree, tense, mood) =>
    ⟨number, person, voice, degree, tense, mood, cases, genders⟩

namespace Analysis

/-- A field has as many alternatives as values, or one if it has none. -/
theorem length_alternatives {α : Type} (field : Option (Reading α)) :
    (alternatives field).length = max 1 (valuesOf field).length := by
  unfold alternatives
  cases valuesOf field with
  | nil => rfl
  | cons first values =>
    rw [List.length_map, List.length_cons]
    omega

/-- The combinations of the alternatives of the single fields, the number varying slowest and the
mood fastest. -/
def combinations (analysis : Analysis) : List Combination :=
  alternatives analysis.number ×ˢ alternatives analysis.person ×ˢ alternatives analysis.voice
    ×ˢ alternatives analysis.degree ×ˢ alternatives analysis.tense ×ˢ alternatives analysis.mood

theorem length_combinations (analysis : Analysis) :
    analysis.combinations.length
      = max 1 (valuesOf analysis.number).length * (max 1 (valuesOf analysis.person).length
        * (max 1 (valuesOf analysis.voice).length * (max 1 (valuesOf analysis.degree).length
        * (max 1 (valuesOf analysis.tense).length * max 1 (valuesOf analysis.mood).length)))) := by
  simp only [combinations, List.length_product, length_alternatives]

/-- The records read back as the combinations, each with all cases and genders. -/
theorem map_features_records_eq (analysis : Analysis) :
    analysis.records.map Record.features = analysis.combinations.map
      (Combination.features (valuesOfSet (codeSet analysis.case))
        (valuesOfSet (codeSet analysis.gender))) := by
  rw [map_features_records]
  simp only [combinations, SProd.sprod, List.product, List.map_flatMap, List.map_map,
    Function.comp_def, Combination.features]

/-- Different combinations have different records. -/
theorem nodup_records {analysis : Analysis} (h : analysis.combinations.Nodup) :
    analysis.records.Nodup := by
  have hinjective : ∀ cases genders, Function.Injective (Combination.features cases genders) := by
    rintro cases genders ⟨_, _, _, _, _, _⟩ ⟨_, _, _, _, _, _⟩ hfeatures
    cases hfeatures
    rfl
  refine List.Nodup.of_map Record.features ?_
  rw [map_features_records_eq]
  exact h.map (hinjective _ _)

/-- Packing an analysis loses nothing but its headword. There are as many records as the single
fields have combinations of values, of which a field without values has one. The record at a place
reads back as the combination at this place. All records have the same cases and genders: those of
the analysis, each once, in the order of their codes. -/
theorem records_read_back (analysis : Analysis) :
    analysis.records.length
        = max 1 (valuesOf analysis.number).length * max 1 (valuesOf analysis.person).length
          * max 1 (valuesOf analysis.voice).length * max 1 (valuesOf analysis.degree).length
          * max 1 (valuesOf analysis.tense).length * max 1 (valuesOf analysis.mood).length
      ∧ ∃ (cases : List Case) (genders : List Gender),
        (∀ place : Nat, analysis.records[place]?.map Record.features
          = analysis.combinations[place]?.map (Combination.features cases genders))
        ∧ cases.Pairwise (fun first second => Category.code first < Category.code second)
        ∧ (∀ value, value ∈ cases ↔ value ∈ valuesOf analysis.case)
        ∧ genders.Pairwise (fun first second => Category.code first < Category.code second)
        ∧ ∀ value, value ∈ genders ↔ value ∈ valuesOf analysis.gender := by
  have hrecords := map_features_records_eq analysis
  refine ⟨?_, valuesOfSet (codeSet analysis.case), valuesOfSet (codeSet analysis.gender),
    fun place => ?_, valuesOfSet_pairwise _, fun _ => mem_valuesOfSet_codeSet,
    valuesOfSet_pairwise _, fun _ => mem_valuesOfSet_codeSet⟩
  · have hlength := congrArg List.length hrecords
    rw [List.length_map, List.length_map, length_combinations] at hlength
    simp only [hlength, Nat.mul_assoc]
  · rw [← List.getElem?_map, ← List.getElem?_map, hrecords]

example :
    let analysis : Analysis := {
      headword := "rex"
      number := some (.many [.singular, .plural])
      tense := some (.many [.future, .present])
      mood := some (.many [])
      gender := some (.many [.neuter, .masculine, .neuter]) }
    analysis.records.map Record.features
      = [⟨some .singular, none, none, none, some .future, none, [], [.masculine, .neuter]⟩,
        ⟨some .singular, none, none, none, some .present, none, [], [.masculine, .neuter]⟩,
        ⟨some .plural, none, none, none, some .future, none, [], [.masculine, .neuter]⟩,
        ⟨some .plural, none, none, none, some .present, none, [], [.masculine, .neuter]⟩] := by
  decide

/-- An analysis of a verb that leaves its person, degree, tense and mood open. -/
def openVerb : Analysis where
  headword := "verbum"
  person := some (.many Category.all)
  degree := some (.many Category.all)
  tense := some (.many Category.all)
  mood := some (.many Category.all)

theorem nodup_records_openVerb : openVerb.records.Nodup :=
  nodup_records (.product (by decide) (.product (by decide) (.product (by decide)
    (.product (by decide) (.product (by decide) (by decide))))))

/-- It has a record for each combination of the values that it leaves open. -/
theorem length_ascending_openVerb : (ascending openVerb.records).length = 378 := by
  rw [(ascending_perm nodup_records_openVerb).length_eq]
  decide +kernel

end Analysis

end Concordance
