import Concordance.Corpus.Draft
import Concordance.Proofs.Forms.Table
import Concordance.Proofs.Grammar.Record

/-!
# The index keys of a word

The index is fed with the records that the form table keeps, not with analyses. Both lead to the
same keys: a grammatical value is the key of some record of an analysis exactly if the analysis has
the value (`Analysis.mem_flatMap_indexKeys`), and neither joining the records of several analyses
nor leaving out a lone record without values changes the keys (`Draft.mem_keysOf`).

- `Record.indexKeys`, `Analysis.valueKeys`: the keys of the grammatical values of a record and of an
  analysis.
- `Draft.keysOf`: the keys under which a draft files a token.
- `keysOfForm`: the keys of a form, which are its own, and the headwords and values of its analyses.
- `IndexKey.key_mem_ofValues`: keys tell the values of a category apart.
-/

namespace Concordance

namespace IndexKey

/-- The keys of values of a grammatical category. -/
def ofValues {α : Type} [Category α] (dimension : Dimension) (values : List α) : List IndexKey :=
  values.map fun value => ⟨dimension, Category.key value⟩

variable {α : Type} [Category α] {dimension : Dimension} {values : List α}

theorem mem_ofValues {key : IndexKey} :
    key ∈ ofValues dimension values ↔ ∃ value ∈ values, ⟨dimension, Category.key value⟩ = key := by
  rw [ofValues, List.mem_map]

/-- The keys of a dimension lie in it. -/
theorem not_mem_ofValues {other : Dimension} (h : other ≠ dimension) (value : String) :
    (⟨other, value⟩ : IndexKey) ∉ ofValues dimension values := by
  rw [mem_ofValues]
  rintro ⟨_, _, heq⟩
  exact h (congrArg IndexKey.dimension heq).symm

/-- In their dimension, the keys of values are those that the category has for them. -/
theorem mem_ofValues_iff {key : String} :
    ⟨dimension, key⟩ ∈ ofValues dimension values ↔ key ∈ values.map Category.key := by
  simp [mem_ofValues]

/-- The key of a value is among the keys of the values of a list only if the value is in it. -/
theorem key_mem_ofValues [LawfulCategory α] {value : α} :
    ⟨dimension, Category.key value⟩ ∈ ofValues dimension values ↔ value ∈ values := by
  rw [mem_ofValues]
  constructor
  · rintro ⟨other, hother, heq⟩
    rwa [← Category.key_injective (congrArg IndexKey.value heq)]
  · intro hvalue
    exact ⟨value, hvalue, rfl⟩

end IndexKey

/-- The keys of grammatical values. The degree is not indexed. -/
def Features.indexKeys (features : Features) : List IndexKey :=
  IndexKey.ofValues .case features.cases
    ++ IndexKey.ofValues .gender features.genders
    ++ IndexKey.ofValues .number features.number.toList
    ++ IndexKey.ofValues .tense features.tense.toList
    ++ IndexKey.ofValues .person features.person.toList
    ++ IndexKey.ofValues .mood features.mood.toList
    ++ IndexKey.ofValues .voice features.voice.toList

/-- The keys of the grammatical values of a record. The degree is not indexed. -/
def Record.indexKeys (record : Record) : List IndexKey := record.features.indexKeys

/-- The record without values has no keys. -/
theorem Record.indexKeys_zero : (0 : Record).indexKeys = [] := by decide

namespace Analysis

/-- The keys of the grammatical values of an analysis. The degree is not indexed. -/
def valueKeys (analysis : Analysis) : List IndexKey :=
  IndexKey.ofValues .case (valuesOf analysis.case)
    ++ IndexKey.ofValues .gender (valuesOf analysis.gender)
    ++ IndexKey.ofValues .number (valuesOf analysis.number)
    ++ IndexKey.ofValues .tense (valuesOf analysis.tense)
    ++ IndexKey.ofValues .person (valuesOf analysis.person)
    ++ IndexKey.ofValues .mood (valuesOf analysis.mood)
    ++ IndexKey.ofValues .voice (valuesOf analysis.voice)

section

variable {α : Type} [Category α]

/-- The alternatives of a field have the keys of its values between them. -/
theorem exists_alternative_key (dimension : Dimension) (field : Option (Reading α))
    (key : IndexKey) :
    (∃ value ∈ alternatives field, key ∈ IndexKey.ofValues dimension value.toList)
      ↔ key ∈ IndexKey.ofValues dimension (valuesOf field) := by
  simp only [IndexKey.mem_ofValues, Option.mem_toList]
  constructor
  · rintro ⟨_, hmem, value, rfl, heq⟩
    exact ⟨value, some_mem_alternatives.mp hmem, heq⟩
  · rintro ⟨value, hvalue, heq⟩
    exact ⟨some value, some_mem_alternatives.mpr hvalue, value, rfl, heq⟩

theorem mem_ofValues_codeSet [LawfulCategory α] (dimension : Dimension) (field : Option (Reading α))
    (key : IndexKey) :
    key ∈ IndexKey.ofValues dimension (valuesOfSet (codeSet field) : List α)
      ↔ key ∈ IndexKey.ofValues dimension (valuesOf field) := by
  simp only [IndexKey.mem_ofValues, mem_valuesOfSet_codeSet]

end

/-- The records of an analysis have the keys of its values between them. -/
theorem mem_flatMap_indexKeys (analysis : Analysis) (key : IndexKey) :
    key ∈ analysis.records.flatMap Record.indexKeys ↔ key ∈ analysis.valueKeys := by
  have hfeatures : analysis.records.flatMap Record.indexKeys
      = (analysis.records.map Record.features).flatMap Features.indexKeys := by
    rw [List.flatMap_map]
    rfl
  -- each field has an alternative, so a key of one field is a key of some choice from all fields
  have hne : ∀ {α : Type} (field : Option (Reading α)), ∃ value, value ∈ alternatives field :=
    fun field => List.exists_mem_of_ne_nil _ (alternatives_ne_nil field)
  rw [hfeatures, map_features_records]
  simp only [List.flatMap_assoc, List.flatMap_map, List.mem_flatMap, Features.indexKeys,
    List.mem_append, mem_ofValues_codeSet, and_or_left, exists_or, exists_and_right,
    exists_alternative_key, valueKeys, hne, true_and]

/-- The keys of an analysis: its headword and its grammatical values. -/
def keys (analysis : Analysis) : List IndexKey :=
  .ofHeadword analysis.headword :: analysis.valueKeys

end Analysis

/-- The keys under which a form is to be found. -/
def keysOfForm (analyze : String → List Analysis) (form : String) : List IndexKey :=
  .ofWord form :: (analyze form).flatMap Analysis.keys

section

variable {analyze : String → List Analysis} {form : String}

theorem word_mem_keysOfForm {word : String} :
    (⟨.word, word⟩ : IndexKey) ∈ keysOfForm analyze form ↔ word = form := by
  simp [keysOfForm, Analysis.keys, Analysis.valueKeys, IndexKey.ofWord, IndexKey.ofHeadword,
    IndexKey.not_mem_ofValues]

theorem headword_mem_keysOfForm {headword : String} :
    (⟨.headword, headword⟩ : IndexKey) ∈ keysOfForm analyze form
      ↔ ∃ analysis ∈ analyze form, analysis.headword = headword := by
  simp [keysOfForm, Analysis.keys, Analysis.valueKeys, IndexKey.ofWord, IndexKey.ofHeadword,
    IndexKey.not_mem_ofValues, @eq_comm _ headword]

/-- Outside the words and headwords, a form has the values of its analyses. -/
theorem mem_keysOfForm {dimension : Dimension} {value : String} (hword : dimension ≠ .word)
    (hheadword : dimension ≠ .headword) :
    (⟨dimension, value⟩ : IndexKey) ∈ keysOfForm analyze form
      ↔ ∃ analysis ∈ analyze form, ⟨dimension, value⟩ ∈ analysis.valueKeys := by
  simp [keysOfForm, Analysis.keys, IndexKey.ofWord, IndexKey.ofHeadword, hword, hheadword]

end

/-- The records that the form table keeps have the keys of all values of the analyses. -/
theorem FormTable.mem_keptRecords_keys (analyses : List Analysis) (key : IndexKey) :
    key ∈ (keptRecords analyses).flatMap Record.indexKeys
      ↔ ∃ analysis ∈ analyses, key ∈ analysis.valueKeys := by
  have hkept : (keptRecords analyses).flatMap Record.indexKeys
      = (ascending (analyses.flatMap Analysis.records) : List Record).flatMap Record.indexKeys := by
    unfold keptRecords
    simp only
    split
    case isFalse => rfl
    case isTrue hnone =>
      -- what is left out has no keys
      rcases hnone with hnil | hzero
      · rw [hnil]
      · rw [hzero, List.flatMap_singleton, Record.indexKeys_zero, List.flatMap_nil]
  rw [hkept]
  simp only [← Analysis.mem_flatMap_indexKeys, List.mem_flatMap, mem_ascending]
  constructor
  · rintro ⟨record, ⟨analysis, hanalysis, hrecord⟩, hkey⟩
    exact ⟨analysis, hanalysis, record, hrecord, hkey⟩
  · rintro ⟨analysis, hanalysis, record, hrecord, hkey⟩
    exact ⟨record, ⟨analysis, hanalysis, hrecord⟩, hkey⟩

/-- The keys of a word with headwords and records. -/
def Draft.keysOf (word : String) (headwords : List String) (records : List Record) :
    List IndexKey :=
  .ofWord word :: (headwords.map .ofHeadword ++ records.flatMap Record.indexKeys)

section

variable {word value : String} {headwords : List String} {records : List Record}

theorem Draft.word_mem_keysOf : ⟨.word, value⟩ ∈ keysOf word headwords records ↔ value = word := by
  simp [keysOf, IndexKey.ofWord, IndexKey.ofHeadword, Record.indexKeys, Features.indexKeys,
    IndexKey.not_mem_ofValues]

theorem Draft.headword_mem_keysOf :
    ⟨.headword, value⟩ ∈ keysOf word headwords records ↔ value ∈ headwords := by
  simp [keysOf, IndexKey.ofWord, IndexKey.ofHeadword, Record.indexKeys, Features.indexKeys,
    IndexKey.not_mem_ofValues]

/-- No word has a key of the text's structure. -/
theorem Draft.breaks_not_mem_keysOf : ⟨.breaks, value⟩ ∉ keysOf word headwords records := by
  simp [keysOf, IndexKey.ofWord, IndexKey.ofHeadword, Record.indexKeys, Features.indexKeys,
    IndexKey.not_mem_ofValues]

/-- The keys of a category are those of the records. -/
theorem Draft.value_mem_keysOf {dimension : Dimension} (hword : dimension ≠ .word)
    (hheadword : dimension ≠ .headword) :
    ⟨dimension, value⟩ ∈ keysOf word headwords records
      ↔ ⟨dimension, value⟩ ∈ records.flatMap Record.indexKeys := by
  simp [keysOf, IndexKey.ofWord, IndexKey.ofHeadword, hword, hheadword.symm]

end

/-- A token gets the keys of its form if the entry describes the form. -/
theorem Draft.mem_keysOf {analyze : String → List Analysis} {table : FormTable} {form : String}
    {entry : FormEntry} (h : table.Describes entry (analyze form)) (key : IndexKey) :
    key ∈ keysOf form entry.headwords ((table.recordsAt? entry.span).getD [])
      ↔ key ∈ keysOfForm analyze form := by
  rw [keysOf, keysOfForm, h.recordsAt_eq, h.headwords_eq, Option.getD_some, List.mem_cons,
    List.mem_cons, List.mem_append, FormTable.mem_keptRecords_keys]
  refine or_congr_right ?_
  simp only [List.mem_map, mem_ascending, exists_exists_and_eq_and, List.mem_flatMap, Analysis.keys,
    List.mem_cons, and_or_left, exists_or, @eq_comm _ key]

end Concordance
