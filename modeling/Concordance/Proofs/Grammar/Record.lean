import Mathlib.Data.Nat.Bitwise
import Concordance.Ascending
import Concordance.Proofs.Grammar.Category

/-!
# What the records of an analysis say

Packing loses nothing but the headword: the records of an analysis read back as the product of the
alternatives of its single fields, each with the analysis's cases and genders
(`Analysis.map_features_records`).

- `Record.ofCodes`: a record by the codes of its fields. As a number it is the sum of the codes at
  their places (`Record.toNat_ofCodes`), from which every field reads back.
- `mem_valuesOfSet_codeSet`: a set of codes has the values it was made from.
- `Analysis.alternatives`: what a field contributes to the product.
-/

namespace Concordance

/-! ## Fields -/

namespace Record

/-- A field is a run of binary digits. -/
theorem field_eq {record : Record} {code mask : UInt32} (place width : Nat) (hplace : place < 32)
    (hmask : mask.toNat = 2 ^ width - 1)
    (hcode : record.toNat / 2 ^ place % 2 ^ width = code.toNat) :
    record.field (UInt32.ofNat place) mask = code := by
  have hshift : (UInt32.ofNat place).toNat = place :=
    UInt32.toNat_ofNat_of_lt' (Nat.lt_trans hplace (by decide))
  rw [← UInt32.toNat_inj, ← hcode, field, UInt32.toNat_and, UInt32.toNat_shiftRight, hshift,
    Nat.mod_eq_of_lt hplace, hmask, Nat.shiftRight_eq_div_pow, Nat.and_two_pow_sub_one_eq_mod]

/-- A code above all bits of a record is added at its place. -/
theorem toNat_or_shiftLeft {record code : UInt32} {below : Nat} (place width : Nat)
    (hrecord : record.toNat = below) (hbelow : below < 2 ^ place) (hcode : code.toNat < 2 ^ width)
    (hplace : place < 32) (hfits : place + width ≤ 32) :
    (record ||| (code <<< UInt32.ofNat place)).toNat = below + 2 ^ place * code.toNat := by
  have hlt : 2 ^ place * code.toNat < 2 ^ 32 := calc
    2 ^ place * code.toNat < 2 ^ place * 2 ^ width :=
      Nat.mul_lt_mul_of_pos_left hcode (Nat.two_pow_pos _)
    _ = 2 ^ (place + width) := (Nat.pow_add 2 _ _).symm
    _ ≤ 2 ^ 32 := Nat.pow_le_pow_right (by decide) hfits
  have hshift : (UInt32.ofNat place).toNat = place :=
    UInt32.toNat_ofNat_of_lt' (Nat.lt_trans hplace (by decide))
  have hplaced : (code <<< UInt32.ofNat place).toNat = 2 ^ place * code.toNat := by
    rw [UInt32.toNat_shiftLeft, hshift, Nat.mod_eq_of_lt hplace, Nat.shiftLeft_eq, Nat.mul_comm,
      Nat.mod_eq_of_lt hlt]
  rw [UInt32.toNat_or, hplaced, hrecord, Nat.or_comm, ← Nat.two_pow_add_eq_or_of_lt hbelow,
    Nat.add_comm]

/-- The record of the codes of its fields. -/
def ofCodes (number person voice degree tense mood cases genders : UInt32) : Record :=
  (0 : Record) ||| (number <<< 0) ||| (person <<< 2) ||| (voice <<< 4) ||| (degree <<< 6)
    ||| (tense <<< 8) ||| (mood <<< 11) ||| ((cases <<< 16) ||| (genders <<< 24))

section

variable {number person voice degree tense mood cases genders : UInt32}

/-- Codes that fit their fields do not touch each other. -/
theorem toNat_ofCodes (hnumber : number.toNat < 2 ^ 2) (hperson : person.toNat < 2 ^ 2)
    (hvoice : voice.toNat < 2 ^ 2) (hdegree : degree.toNat < 2 ^ 2) (htense : tense.toNat < 2 ^ 3)
    (hmood : mood.toNat < 2 ^ 3) (hcases : cases.toNat < 2 ^ 8) (hgenders : genders.toNat < 2 ^ 8) :
    (ofCodes number person voice degree tense mood cases genders).toNat
      = number.toNat + 2 ^ 2 * person.toNat + 2 ^ 4 * voice.toNat + 2 ^ 6 * degree.toNat
        + 2 ^ 8 * tense.toNat + 2 ^ 11 * mood.toNat + 2 ^ 16 * cases.toNat
        + 2 ^ 24 * genders.toNat := by
  -- the fields are put on from the lowest to the highest, each above all bits so far
  have h0 := toNat_or_shiftLeft 0 2 UInt32.toNat_zero (by decide) hnumber (by decide) (by decide)
  rw [Nat.pow_zero, Nat.one_mul, Nat.zero_add] at h0
  have h2 := toNat_or_shiftLeft 2 2 h0 hnumber hperson (by decide) (by decide)
  have h4 := toNat_or_shiftLeft 4 2 h2 (by omega) hvoice (by decide) (by decide)
  have h6 := toNat_or_shiftLeft 6 2 h4 (by omega) hdegree (by decide) (by decide)
  have h8 := toNat_or_shiftLeft 8 3 h6 (by omega) htense (by decide) (by decide)
  have h11 := toNat_or_shiftLeft 11 3 h8 (by omega) hmood (by decide) (by decide)
  have h16 := toNat_or_shiftLeft 16 8 h11 (by omega) hcases (by decide) (by decide)
  have h24 := toNat_or_shiftLeft 24 8 h16 (by omega) hgenders (by decide) (by decide)
  rw [ofCodes, ← UInt32.or_assoc]
  exact h24

end

/-- A record reads back as the values whose codes it was made of. -/
theorem features_ofCodes (number : Option Number) (person : Option Person) (voice : Option Voice)
    (degree : Option Degree) (tense : Option Tense) (mood : Option Mood) {cases genders : UInt32}
    (hcases : cases.toNat < 2 ^ 8) (hgenders : genders.toNat < 2 ^ 8) :
    (ofCodes (Category.codeOf number) (Category.codeOf person) (Category.codeOf voice)
        (Category.codeOf degree) (Category.codeOf tense) (Category.codeOf mood) cases
        genders).features
      = ⟨number, person, voice, degree, tense, mood, valuesOfSet cases, valuesOfSet genders⟩ := by
  have hnumber := Category.codeOf_lt number (2 ^ 2) (by decide)
  have hperson := Category.codeOf_lt person (2 ^ 2) (by decide)
  have hvoice := Category.codeOf_lt voice (2 ^ 2) (by decide)
  have hdegree := Category.codeOf_lt degree (2 ^ 2) (by decide)
  have htense := Category.codeOf_lt tense (2 ^ 3) (by decide)
  have hmood := Category.codeOf_lt mood (2 ^ 3) (by decide)
  have htotal := toNat_ofCodes hnumber hperson hvoice hdegree htense hmood hcases hgenders
  generalize hrecord : ofCodes _ _ _ _ _ _ _ _ = record at htotal ⊢
  have h0 : record.numberCode = Category.codeOf number := field_eq 0 2 (by decide) rfl (by omega)
  have h2 : record.personCode = Category.codeOf person := field_eq 2 2 (by decide) rfl (by omega)
  have h4 : record.voiceCode = Category.codeOf voice := field_eq 4 2 (by decide) rfl (by omega)
  have h6 : record.degreeCode = Category.codeOf degree := field_eq 6 2 (by decide) rfl (by omega)
  have h8 : record.tenseCode = Category.codeOf tense := field_eq 8 3 (by decide) rfl (by omega)
  have h11 : record.moodCode = Category.codeOf mood := field_eq 11 3 (by decide) rfl (by omega)
  have h16 : record.caseSet = cases := field_eq 16 8 (by decide) rfl (by omega)
  have h24 : record.genderSet = genders := field_eq 24 8 (by decide) rfl (by omega)
  rw [features, h0, h2, h4, h6, h8, h11, h16, h24]
  simp only [Category.ofCode?_codeOf]

end Record

/-! ## Sets of codes -/

/-- A set meets the union of two sets if it meets one of them. -/
theorem or_and_ne_zero (first second set : UInt32) :
    (first ||| second) &&& set ≠ 0 ↔ first &&& set ≠ 0 ∨ second &&& set ≠ 0 := by
  have hdistrib : (first ||| second) &&& set = (first &&& set) ||| (second &&& set) :=
    UInt32.toBitVec_inj.mp (BitVec.and_or_distrib_right ..)
  rw [hdistrib, Ne, UInt32.or_eq_zero_iff, not_and_or]

/-- The codes of which there are sets are those from 1 to 7. -/
theorem mem_valueCodes {code : UInt32} (hpos : 0 < code.toNat) (hle : code.toNat ≤ 7) :
    code ∈ valueCodes := by
  obtain ⟨value, rfl⟩ : ∃ value : Fin 8, code = UInt32.ofNat value :=
    ⟨⟨code.toNat, by omega⟩, (UInt32.ofNat_toNat).symm⟩
  revert value
  decide

/-- Sets of one code meet only if the codes are equal. -/
theorem shiftLeft_and_ne_zero {first second : UInt32} (hfirst : first ∈ valueCodes)
    (hsecond : second ∈ valueCodes) :
    ((1 : UInt32) <<< first) &&& ((1 : UInt32) <<< second) ≠ 0 ↔ first = second := by
  have hall : (valueCodes.all fun first => valueCodes.all fun second =>
      decide (((1 : UInt32) <<< first) &&& ((1 : UInt32) <<< second) ≠ 0
        ↔ first = second)) = true := by
    decide
  simp only [List.all_eq_true, decide_eq_true_eq] at hall
  exact hall first hfirst second hsecond

/-- A set of one code fits eight bits. -/
theorem shiftLeft_lt {code : UInt32} (hcode : code ∈ valueCodes) :
    ((1 : UInt32) <<< code).toNat < 2 ^ 8 := by
  have hall :
      (valueCodes.all fun code => decide (((1 : UInt32) <<< code).toNat < 2 ^ 8)) = true := by
    decide
  simp only [List.all_eq_true, decide_eq_true_eq] at hall
  exact hall code hcode

section

variable {α : Type} [Category α] [LawfulCategory α]

theorem code_mem_valueCodes (value : α) : Category.code value ∈ valueCodes :=
  mem_valueCodes (LawfulCategory.code_pos value)
    (Nat.le_trans (LawfulCategory.code_le value) LawfulCategory.length_all_le)

/-- Adding the codes of values to a set adds just these. -/
theorem foldl_codes_and_ne_zero (values : List α) (set : UInt32) (value : α) :
    (values.foldl (fun set value => set ||| (1 <<< Category.code value)) set)
        &&& (1 <<< Category.code value) ≠ 0
      ↔ set &&& (1 <<< Category.code value) ≠ 0 ∨ value ∈ values := by
  -- every value adds its own code to the set that the others are added to
  induction values generalizing set with
  | nil => simp
  | cons first values ih =>
    have hcode : Category.code first = Category.code value ↔ value = first :=
      ⟨fun h => (Category.code_injective h).symm, fun h => by rw [h]⟩
    rw [List.foldl_cons, ih, or_and_ne_zero,
      shiftLeft_and_ne_zero (code_mem_valueCodes first) (code_mem_valueCodes value), hcode,
      List.mem_cons, or_assoc]

/-- The set of a field's codes fits eight bits. -/
theorem codeSet_lt (field : Option (Reading α)) : (codeSet field).toNat < 2 ^ 8 := by
  have hfold : ∀ (values : List α) (set : UInt32), set.toNat < 2 ^ 8 →
      (values.foldl (fun set value => set ||| (1 <<< Category.code value)) set).toNat < 2 ^ 8 := by
    intro values
    induction values with
    | nil => exact fun set hset => hset
    | cons value values ih =>
      intro set hset
      refine ih _ ?_
      rw [UInt32.toNat_or]
      exact Nat.or_lt_two_pow hset (shiftLeft_lt (code_mem_valueCodes value))
  exact hfold _ 0 (by decide)

/-- The values of a set are those whose codes are in it. -/
theorem mem_valuesOfSet {set : UInt32} {value : α} :
    value ∈ valuesOfSet set ↔ set &&& ((1 : UInt32) <<< Category.code value) ≠ 0 := by
  unfold valuesOfSet
  simp only [List.mem_filterMap, List.mem_filter, bne_iff_ne]
  constructor
  · rintro ⟨code, ⟨_, hset⟩, hvalue⟩
    rw [Category.code_of_ofCode? hvalue]
    exact hset
  · intro hset
    exact ⟨_, ⟨code_mem_valueCodes value, hset⟩, LawfulCategory.ofCode?_code value⟩

/-- The set of a field's codes has the values of the field. -/
theorem mem_valuesOfSet_codeSet {field : Option (Reading α)} {value : α} :
    value ∈ valuesOfSet (codeSet field) ↔ value ∈ Analysis.valuesOf field := by
  rw [mem_valuesOfSet, codeSet, foldl_codes_and_ne_zero, UInt32.zero_and]
  simp

end

/-! ## Records -/

namespace Analysis

/-- What a field contributes to the records of an analysis: each of its values, or nothing once. -/
def alternatives {α : Type} (field : Option (Reading α)) : List (Option α) :=
  match valuesOf field with
  | [] => [none]
  | values => values.map some

/-- A value is one of the alternatives if it is one of the field. -/
theorem some_mem_alternatives {α : Type} {field : Option (Reading α)} {value : α} :
    some value ∈ alternatives field ↔ value ∈ valuesOf field := by
  unfold alternatives
  cases valuesOf field with
  | nil => simp
  | cons first values => simp

theorem alternatives_ne_nil {α : Type} (field : Option (Reading α)) : alternatives field ≠ [] := by
  unfold alternatives
  cases valuesOf field with
  | nil => simp
  | cons first values => simp

/-- A field multiplies the records by its alternatives. -/
theorem withField_eq {α : Type} [Category α] (field : Option (Reading α)) (shift : UInt32)
    (records : List Record) :
    withField field shift records = records.flatMap fun record =>
      (alternatives field).map fun value => record ||| (Category.codeOf value <<< shift) := by
  unfold withField alternatives
  cases valuesOf field with
  | nil =>
    -- a field without values is one alternative of the code 0, which changes nothing
    have hzero : ∀ record : Record,
        record ||| (Category.codeOf (none : Option α) <<< shift) = record := by
      intro record
      rw [Category.codeOf, UInt32.zero_shiftLeft, UInt32.or_zero]
    simp only [List.map_cons, List.map_nil, hzero, List.flatMap_singleton']
  | cons first values =>
    simp only [List.map_map, Function.comp_def, Category.codeOf]

/-- The records of an analysis read back as the product of the alternatives of its single fields,
the number varying slowest and the mood fastest. Each has all cases and genders. -/
theorem map_features_records (analysis : Analysis) :
    analysis.records.map Record.features =
      (alternatives analysis.number).flatMap fun number =>
      (alternatives analysis.person).flatMap fun person =>
      (alternatives analysis.voice).flatMap fun voice =>
      (alternatives analysis.degree).flatMap fun degree =>
      (alternatives analysis.tense).flatMap fun tense =>
      (alternatives analysis.mood).map fun mood =>
        ⟨number, person, voice, degree, tense, mood, valuesOfSet (codeSet analysis.case),
          valuesOfSet (codeSet analysis.gender)⟩ := by
  have hfeatures := fun number person voice degree tense mood =>
    Record.features_ofCodes number person voice degree tense mood (codeSet_lt analysis.case)
      (codeSet_lt analysis.gender)
  simp only [← hfeatures, Record.ofCodes, records, withField_eq, List.flatMap_cons,
    List.flatMap_nil, List.append_nil, List.flatMap_assoc, List.flatMap_map, List.map_flatMap,
    List.map_map, Function.comp_def]

end Analysis

end Concordance
