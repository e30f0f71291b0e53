import Mathlib.Data.List.Flatten
import Concordance.Proofs.Search
import Concordance.Proofs.Text.CodeSet
import Concordance.Text.Decomposition

/-!
# Canonical decompositions go all the way

What a code point decomposes into decomposes no further (`whole_of_mem_ofCode`). This is a fact
about every row of the table, which is evaluated, and about the search in the table: it finds the
rows that are there (`ofCode_of_row`), as the rows ascend, and no others.

- `Whole`: a code point that is its own decomposition.
- `whole_or_isSyllable_or_row`: where a decomposition comes from.
- `isValidChar_of_mem_ofCode`: what a character decomposes into are characters.
-/

namespace Concordance.Decomposition

/-- The code point is its own decomposition. -/
def Whole (code : Nat) : Prop := ofCode code = [code]

/-- The code point is a Korean syllable. -/
def IsSyllable (code : Nat) : Prop := syllableBase ≤ code ∧ code < syllableBase + syllableCount

instance (code : Nat) : Decidable (IsSyllable code) := inferInstanceAs (Decidable (_ ∧ _))

/-! ## The table -/

/-- The tables of the scripts in the order in which they make up the table. -/
def scripts : List (List (Nat × List Nat)) :=
  [latinTable, easternTable, extendedTable, kanaTable, ideographTable, upperTable]

/-- The code points that the table decomposes. -/
def keySet : Nat := CodeSet.union scripts fun rows => CodeSet.ofList (rows.map Prod.fst)

theorem table_toList : table.toList = scripts.flatten := by
  simp only [table, scripts, List.flatten_cons, List.flatten_nil, List.append_nil,
    List.append_assoc]

theorem testBit_keySet (code : Nat) :
    keySet.testBit code ↔ ∃ row ∈ table.toList, row.1 = code := by
  rw [keySet, CodeSet.testBit_union, table_toList]
  constructor
  · rintro ⟨rows, hrows, hcode⟩
    obtain ⟨row, hrow, hkey⟩ := List.mem_map.mp ((CodeSet.testBit_ofList _ _).mp hcode)
    exact ⟨row, List.mem_flatten.mpr ⟨rows, hrows, hrow⟩, hkey⟩
  · rintro ⟨row, hrow, hkey⟩
    obtain ⟨rows, hrows, hrow⟩ := List.mem_flatten.mp hrow
    exact ⟨rows, hrows, (CodeSet.testBit_ofList _ _).mpr (List.mem_map.mpr ⟨row, hrow, hkey⟩)⟩

/-- The rows ascend. -/
theorem table_ascending : table.toList.Pairwise (·.1 < ·.1) := by
  have hchain : table.toList.IsChain (·.1 < ·.1) := by
    -- within the scripts, and from each of them to the next
    rw [table_toList, List.isChain_flatten (by decide +kernel)]
    exact ⟨by decide +kernel, by decide +kernel⟩
  have : IsTrans (Nat × List Nat) (·.1 < ·.1) := ⟨fun _ _ _ => Nat.lt_trans⟩
  exact hchain.pairwise

/-- No code point of the table is below those that are searched for, or is a syllable. -/
theorem keys_searched : ∀ row ∈ table.toList, ¬ row.1 < 0xC0 ∧ ¬ IsSyllable row.1 := by
  decide +kernel

/-- The parts in the rows are characters that are in no row and are no syllables. -/
theorem parts_whole : ∀ row ∈ table.toList, ∀ part ∈ row.2,
    ¬ keySet.testBit part ∧ ¬ IsSyllable part ∧ part.isValidChar := by
  decide +kernel

/-- The letters that syllables are made of are in no row. -/
theorem letters_whole : ∀ row ∈ table.toList, row.1 < 0x1100 ∨ 0x1200 ≤ row.1 := by
  decide +kernel

/-! ## Looking up -/

theorem ofCode_of_lt {code : Nat} (hlow : code < 0xC0) : ofCode code = [code] := if_pos hlow

theorem ofCode_of_isSyllable {code : Nat} (h : IsSyllable code) :
    ofCode code = syllableParts (code - syllableBase) := by
  have hlow : ¬ code < 0xC0 := Nat.not_lt_of_le (Nat.le_trans (by decide) h.1)
  rw [ofCode, if_neg hlow]
  exact if_pos h

/-- Another code point is searched for. -/
theorem ofCode_of_searched {code : Nat} (hlow : ¬ code < 0xC0) (hsyllable : ¬ IsSyllable code) :
    ofCode code = ((table[partitionPoint table (·.1 < code)]?).elim [code] fun row =>
      if row.1 = code then row.2 else [code]) := by
  unfold IsSyllable at hsyllable
  rw [ofCode, if_neg hlow, if_neg hsyllable]
  cases table[partitionPoint table (·.1 < code)]? <;> rfl

/-- The search finds the rows of the table. -/
theorem ofCode_of_row {row : Nat × List Nat} (hrow : row ∈ table.toList) :
    ofCode row.1 = row.2 := by
  obtain ⟨hlow, hsyllable⟩ := keys_searched row hrow
  obtain ⟨index, hindex, rfl⟩ := List.getElem_of_mem hrow
  rw [Array.length_toList] at hindex
  rw [Array.getElem_toList] at hlow hsyllable ⊢
  have hpoint : partitionPoint table (·.1 < table[index].1) = index :=
    partitionPoint_of_ascending (fun _ _ => Nat.lt_asymm) table_ascending hindex
  rw [ofCode_of_searched hlow hsyllable, hpoint, Array.getElem?_eq_getElem hindex, Option.elim_some,
    if_pos rfl]

/-- A code point is whole, a syllable, or there is a row for it. -/
theorem whole_or_isSyllable_or_row (code : Nat) :
    Whole code ∨ IsSyllable code ∨ (code, ofCode code) ∈ table.toList := by
  by_cases hlow : code < 0xC0
  · exact .inl (ofCode_of_lt hlow)
  by_cases hsyllable : IsSyllable code
  · exact .inr (.inl hsyllable)
  have hsearch := ofCode_of_searched hlow hsyllable
  cases hfound : table[partitionPoint table (·.1 < code)]? with
  | none => exact .inl (by rw [Whole, hsearch, hfound, Option.elim_none])
  | some row =>
    rw [hfound, Option.elim_some] at hsearch
    by_cases hkey : row.1 = code
    · refine .inr (.inr ?_)
      rw [hsearch, if_pos hkey, ← hkey]
      exact Array.mem_toList_iff.mpr (Array.mem_of_getElem? hfound)
    · exact .inl (by rw [Whole, hsearch, if_neg hkey])

/-- The parts by place are letters of one block. -/
theorem mem_syllableParts {place part : Nat} (hplace : place < syllableCount)
    (hpart : part ∈ syllableParts place) : 0x1100 ≤ part ∧ part < 0x1200 := by
  unfold syllableCount at hplace
  simp only [syllableParts, List.mem_append, List.mem_cons, List.not_mem_nil, or_false] at hpart
  rcases hpart with (rfl | rfl) | htrailing
  · omega
  · omega
  · split at htrailing
    next => cases htrailing
    next =>
      have := List.mem_singleton.mp htrailing
      omega

/-- The parts of a syllable are letters of one block. -/
theorem IsSyllable.mem_ofCode {code part : Nat} (h : IsSyllable code)
    (hpart : part ∈ ofCode code) : 0x1100 ≤ part ∧ part < 0x1200 := by
  rw [ofCode_of_isSyllable h] at hpart
  exact mem_syllableParts (Nat.sub_lt_left_of_lt_add h.1 h.2) hpart

/-! ## What is whole -/

/-- A code point without a row that is no syllable is whole. -/
theorem whole_of_not_key {code : Nat} (hkey : ¬ keySet.testBit code)
    (hsyllable : ¬ IsSyllable code) : Whole code := by
  rcases whole_or_isSyllable_or_row code with hwhole | h | hrow
  · exact hwhole
  · exact absurd h hsyllable
  · exact absurd ((testBit_keySet code).mpr ⟨_, hrow, rfl⟩) hkey

/-- A whole code point has no row, since the parts in the rows have none. -/
theorem Whole.not_key {code : Nat} (h : Whole code) : ¬ keySet.testBit code := by
  intro hkey
  obtain ⟨row, hrow, rfl⟩ := (testBit_keySet code).mp hkey
  have hparts : row.2 = [row.1] := (ofCode_of_row hrow).symm.trans h
  exact (parts_whole row hrow row.1 (hparts ▸ .head _)).1 hkey

/-- The only part of a whole code point is the code point. -/
theorem Whole.eq_of_mem {code part : Nat} (h : Whole code) (hpart : part ∈ ofCode code) :
    part = code := by
  rw [show ofCode code = [code] from h] at hpart
  exact List.mem_singleton.mp hpart

/-- The parts of a code point are whole. -/
theorem whole_of_mem_ofCode {code part : Nat} (hpart : part ∈ ofCode code) : Whole part := by
  rcases whole_or_isSyllable_or_row code with hwhole | hsyllable | hrow
  · rwa [hwhole.eq_of_mem hpart]
  · have hletter := hsyllable.mem_ofCode hpart
    refine whole_of_not_key (fun hkey => ?_) (fun h => ?_)
    · obtain ⟨row, hrow, rfl⟩ := (testBit_keySet part).mp hkey
      have := letters_whole row hrow
      omega
    · exact Nat.not_le_of_lt hletter.2 (Nat.le_trans (by decide) h.1)
  · obtain ⟨hkey, hsyllable, -⟩ := parts_whole _ hrow part hpart
    exact whole_of_not_key hkey hsyllable

/-- The parts of a character are characters. -/
theorem isValidChar_of_mem_ofCode {code part : Nat} (hcode : code.isValidChar)
    (hpart : part ∈ ofCode code) : part.isValidChar := by
  rcases whole_or_isSyllable_or_row code with hwhole | hsyllable | hrow
  · rwa [hwhole.eq_of_mem hpart]
  · have hletter := hsyllable.mem_ofCode hpart
    exact .inl (Nat.lt_trans hletter.2 (by decide))
  · exact (parts_whole _ hrow part hpart).2.2

end Concordance.Decomposition
