import Concordance.Grammar.Record

/-!
# Laws of grammatical categories

The codes and the keys of a category tell its values apart: each reads back as its value. Codes are
the places of values from 1 on, so that 0 is no value's code, and a set of codes fits eight bits.

- `LawfulCategory`: the laws, which hold of each of the eight categories.
- `Category.codeOf`: the code of a value that may be absent, and `ofCode?_codeOf` reads it back.
-/

namespace Concordance

/-- A category whose codes and keys read back as their values. -/
class LawfulCategory (α : Type) [Category α] : Prop where
  /-- The code of a value reads back as the value. -/
  ofCode?_code : ∀ value : α, Category.ofCode? (Category.code value) = some value
  /-- The key of a value reads back as the value. -/
  ofKey?_key : ∀ value : α, Category.ofKey? (Category.key value) = some value
  /-- The code 0 stands for no value. -/
  code_pos : ∀ value : α, 0 < (Category.code value).toNat
  /-- Codes are places among all values. -/
  code_le : ∀ value : α, (Category.code value).toNat ≤ (Category.all : List α).length
  /-- Codes fit a set of eight bits. -/
  length_all_le : (Category.all : List α).length ≤ 7

/-- The laws are checked on the list of all values. -/
theorem LawfulCategory.ofAll {α : Type} [Category α]
    (hmem : ∀ value : α, value ∈ (Category.all : List α))
    (hlength : (Category.all : List α).length ≤ 7)
    (hlaws : ∀ value ∈ (Category.all : List α),
      Category.ofCode? (Category.code value) = some value
        ∧ Category.ofKey? (Category.key value) = some value
        ∧ 0 < (Category.code value).toNat
        ∧ (Category.code value).toNat ≤ (Category.all : List α).length) :
    LawfulCategory α where
  ofCode?_code value := (hlaws value (hmem value)).1
  ofKey?_key value := (hlaws value (hmem value)).2.1
  code_pos value := (hlaws value (hmem value)).2.2.1
  code_le value := (hlaws value (hmem value)).2.2.2
  length_all_le := hlength

instance : LawfulCategory Case :=
  .ofAll (by rintro ⟨⟩ <;> decide) (by decide) (by decide)

instance : LawfulCategory Number :=
  .ofAll (by rintro ⟨⟩ <;> decide) (by decide) (by decide)

instance : LawfulCategory Gender :=
  .ofAll (by rintro ⟨⟩ <;> decide) (by decide) (by decide)

instance : LawfulCategory Person :=
  .ofAll (by rintro ⟨⟩ <;> decide) (by decide) (by decide)

instance : LawfulCategory Mood :=
  .ofAll (by rintro ⟨⟩ <;> decide) (by decide) (by decide)

instance : LawfulCategory Voice :=
  .ofAll (by rintro ⟨⟩ <;> decide) (by decide) (by decide)

instance : LawfulCategory Tense :=
  .ofAll (by rintro ⟨⟩ <;> decide) (by decide) (by decide)

instance : LawfulCategory Degree :=
  .ofAll (by rintro ⟨⟩ <;> decide) (by decide) (by decide)

namespace Category

variable {α : Type} [Category α]

/-- The value that a code reads as has that code. -/
theorem code_of_ofCode? {code : UInt32} {value : α} (h : ofCode? code = some value) :
    Category.code value = code := by
  have hfound := List.find?_some h
  exact eq_of_beq hfound

/-- The value that a key reads as has that key. -/
theorem key_of_ofKey? {key : String} {value : α} (h : ofKey? key = some value) :
    Category.key value = key := by
  have hfound := List.find?_some h
  exact eq_of_beq hfound

/-- 32 bits say the greatest code. -/
theorem maxCode_lt (α : Type) [Category α] : maxCode α < UInt32.size := by
  unfold maxCode
  cases hmax : ((all : List α).map fun value => (code value).toNat).max? with
  | none => decide
  | some greatest =>
    obtain ⟨value, -, rfl⟩ := List.mem_map.mp (List.max?_mem hmax)
    exact UInt32.toNat_lt_size _

/-- The code of a value that may be absent. -/
def codeOf : Option α → UInt32
  | none => 0
  | some value => Category.code value

variable [LawfulCategory α]

theorem mem_all (value : α) : value ∈ (all : List α) :=
  List.mem_of_find?_eq_some (LawfulCategory.ofCode?_code value)

/-- No code is above the greatest one. -/
theorem code_le_maxCode (value : α) : (code value).toNat ≤ maxCode α :=
  List.le_max?_getD_of_mem (List.mem_map_of_mem (mem_all value))

theorem code_injective {first second : α} (h : Category.code first = Category.code second) :
    first = second := by
  have heq := LawfulCategory.ofCode?_code first
  rw [h, LawfulCategory.ofCode?_code] at heq
  exact (Option.some.inj heq).symm

theorem key_injective {first second : α} (h : Category.key first = Category.key second) :
    first = second := by
  have heq := LawfulCategory.ofKey?_key first
  rw [h, LawfulCategory.ofKey?_key] at heq
  exact (Option.some.inj heq).symm

theorem ofCode?_zero : (ofCode? 0 : Option α) = none := by
  cases h : (ofCode? 0 : Option α) with
  | none => rfl
  | some value =>
    have hpos := LawfulCategory.code_pos value
    rw [code_of_ofCode? h] at hpos
    exact absurd hpos (Nat.lt_irrefl 0)

/-- What may be absent reads back from its code. -/
theorem ofCode?_codeOf (value : Option α) : ofCode? (codeOf value) = value := by
  cases value with
  | none => exact ofCode?_zero
  | some value => exact LawfulCategory.ofCode?_code value

/-- The code of a value that may be absent fits the bits that count all values. -/
theorem codeOf_lt (value : Option α) (bound : Nat) (h : (Category.all : List α).length < bound) :
    (codeOf value).toNat < bound := by
  cases value with
  | none => exact Nat.zero_lt_of_lt h
  | some value => exact Nat.lt_of_le_of_lt (LawfulCategory.code_le value) h

end Category

end Concordance
