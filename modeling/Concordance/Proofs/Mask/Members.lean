import Concordance.Proofs.Mask.Shifting

/-!
# What a mask reads as

As long as 32 bits hold every position, a mask holds just the members that it reads as
(`holds_members`), they ascend, and the mask made of them is the mask itself (`ofMembers_members`):
two masks of as many words with the same positions set are equal (`ext_of_test`).

However many words there are, counting the bits of every word counts the members
(`length_members`), and a mask whose words are all zero is one without members (`isEmpty_eq`).
-/

namespace Concordance.Mask

/-! ## The members of a mask -/

/-- The positions of at most `2 ^ 27` words are 32-bit numbers. -/
theorem toNat_ofNat_position {mask : Mask} (hsize : mask.size ≤ 2 ^ 27) {position : Nat}
    (h : mask.test position = true) : (UInt32.ofNat position).toNat = position := by
  have hlt := (test_bounds h).2
  exact UInt32.toNat_ofNat_of_lt' (by unfold UInt32.size; omega)

/-- A mask holds the members that it reads as. -/
theorem holds_members {mask : Mask} (hsize : mask.size ≤ 2 ^ 27) : mask.Holds mask.members := by
  intro position
  rw [members_eq_map_positions]
  constructor
  · intro h
    obtain ⟨index, rfl⟩ := Int.eq_ofNat_of_zero_le (test_bounds h).1
    exact ⟨UInt32.ofNat index, List.mem_map_of_mem ((mask.mem_positions index).mpr h),
      congrArg _ (toNat_ofNat_position hsize h)⟩
  · rintro ⟨member, hmember, rfl⟩
    obtain ⟨index, hindex, rfl⟩ := List.mem_map.mp hmember
    have h := (mask.mem_positions index).mp hindex
    rw [toNat_ofNat_position hsize h]
    exact h

/-- A mask reads as an ascending list. -/
theorem members_ascending {mask : Mask} (hsize : mask.size ≤ 2 ^ 27) :
    mask.members.Pairwise (· < ·) := by
  rw [members_eq_map_positions, List.pairwise_map]
  refine mask.positions_ascending.imp_of_mem fun {first second} hfirst hsecond hlt => ?_
  rw [UInt32.lt_iff_toNat_lt, toNat_ofNat_position hsize ((mask.mem_positions _).mp hfirst),
    toNat_ofNat_position hsize ((mask.mem_positions _).mp hsecond)]
  exact hlt

/-! ## Masks from their members -/

/-- Masks of as many words are equal if the same positions are set in them. -/
theorem ext_of_test {mask other : Mask} (hsize : mask.size = other.size)
    (h : ∀ position : Int, mask.test position = true ↔ other.test position = true) :
    mask = other := by
  have hword (index : Nat) : mask.word index = other.word index := by
    refine UInt32.toNat_inj.mp (Nat.eq_of_testBit_eq fun bit => ?_)
    by_cases hbit : bit < 32
    · rw [← mask.test_mul_add index hbit, ← other.test_mul_add index hbit]
      exact Bool.eq_iff_iff.mpr (h _)
    · have hge := Nat.le_of_not_lt hbit
      rw [testBit_word_of_le _ hge, testBit_word_of_le _ hge]
  refine congrArg Mask.mk (Array.ext hsize fun index hindex hother => ?_)
  have hsame := hword index
  rw [word_natCast, word_natCast, Array.getD_eq_getD_getElem?, Array.getD_eq_getD_getElem?,
    Array.getElem?_eq_getElem hindex, Array.getElem?_eq_getElem hother] at hsame
  exact hsame

/-- The mask made of the members of a mask, over all its positions, is the mask. -/
theorem ofMembers_members {mask : Mask} (hsize : mask.size < 2 ^ 27) :
    ofMembers mask.members (UInt32.ofNat (wordBits * mask.size)) = .ok mask := by
  have hpositions : (UInt32.ofNat (wordBits * mask.size)).toNat = 32 * mask.size :=
    UInt32.toNat_ofNat_of_lt' (by unfold wordBits UInt32.size; omega)
  have hholds := holds_members (Nat.le_of_lt hsize)
  have hlt : ∀ member ∈ mask.members, member < UInt32.ofNat (wordBits * mask.size) := by
    intro member hmember
    rw [UInt32.lt_iff_toNat_lt, hpositions]
    exact hholds.lt_of_mem hmember
  obtain ⟨made, hmade⟩ := exists_ofMembers hlt
  obtain ⟨hmadeHolds, hmadeSize⟩ := holds_of_ofMembers hmade
  have hsame : made = mask := by
    refine ext_of_test ?_ fun position => ?_
    · rw [hmadeSize, hpositions]
      unfold wordsFor wordBits
      omega
    · rw [hmadeHolds position, hholds position]
  rw [hmade, hsame]

/-! ## Counting -/

/-- A word counts as many bits as it reads as. -/
theorem length_bitsOf (word : UInt32) : (bitsOf word).length = popCount word :=
  List.countP_eq_length_filter.symm

/-- The number of members is the number of set bits of all words. -/
theorem length_members (mask : Mask) : mask.members.length = mask.count := by
  have hwords : mask.words.toList.zipIdx.map (popCount ∘ Prod.fst)
      = mask.words.toList.map popCount := by
    rw [← List.map_map, List.zipIdx_map_fst]
  rw [members, List.length_flatMap]
  simp only [List.length_map, length_bitsOf]
  exact congrArg List.sum hwords

/-- A word is not zero when one of its bits is set. -/
theorem ne_zero_iff_exists_testBit (word : UInt32) :
    word ≠ 0 ↔ ∃ bit < 32, word.toNat.testBit bit = true := by
  constructor
  · intro h
    by_contra hnone
    refine h (UInt32.toNat_inj.mp (Nat.eq_of_testBit_eq fun bit => ?_))
    rw [UInt32.toNat_zero, Nat.zero_testBit]
    by_cases hbit : bit < 32
    · exact Bool.eq_false_of_not_eq_true fun hset => hnone ⟨bit, hbit, hset⟩
    · exact testBit_word_of_le word (Nat.le_of_not_lt hbit)
  · rintro ⟨bit, -, hset⟩ rfl
    simp at hset

theorem bitsOf_eq_nil_iff (word : UInt32) : bitsOf word = [] ↔ word = 0 := by
  rw [← not_iff_not, ← ne_eq word, ne_zero_iff_exists_testBit, bitsOf, List.filter_eq_nil_iff]
  simp only [List.mem_range, not_forall, not_not, exists_prop, wordBits]

/-- All words of a mask are zero when it has no members. -/
theorem isEmpty_eq (mask : Mask) : mask.isEmpty = mask.members.isEmpty := by
  rw [Bool.eq_iff_iff, isEmpty, Array.all_eq_true_iff_forall_mem, List.isEmpty_iff, members,
    List.flatMap_eq_nil_iff]
  simp only [beq_iff_eq, List.map_eq_nil_iff, bitsOf_eq_nil_iff]
  constructor
  · rintro h ⟨word, index⟩ hentry
    exact h word (Array.mem_toList_iff.mp (List.fst_mem_of_mem_zipIdx hentry))
  · intro h word hword
    obtain ⟨index, hindex⟩ := List.mem_iff_getElem?.mp (Array.mem_toList_iff.mpr hword)
    exact h (word, index) (List.mem_zipIdx_iff_getElem?.mpr hindex)

end Concordance.Mask
