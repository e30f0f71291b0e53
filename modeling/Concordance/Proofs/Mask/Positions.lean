import Mathlib.Data.List.Sort
import Mathlib.Data.Nat.Bitwise
import Mathlib.Tactic
import Concordance.Mask.Basic

/-!
# The positions of a mask

What a mask is, is told by `Mask.test`: each operation is described by the positions that are set
after it, and a position is set only inside the words (`test_bounds`).

`Holds mask members` says that exactly the positions of `members` are set. A mask that holds
ascending members reads back as them (`Holds.members_eq`), and making a mask of members sets
exactly their positions (`holds_of_ofMembers`).
-/

namespace Concordance.Mask

/-! ## Words -/

/-- The words of a mask as a function of natural indices. -/
theorem word_natCast (mask : Mask) (index : Nat) :
    mask.word (index : Int) = mask.words.getD index 0 := by
  rw [word, if_neg (by omega), Int.toNat_natCast]

theorem word_of_neg (mask : Mask) {index : Int} (h : index < 0) : mask.word index = 0 := by
  rw [word, if_pos h]

/-- There are no words behind the last. -/
theorem word_of_size_le (mask : Mask) {index : Int} (h : (mask.size : Int) ≤ index) :
    mask.word index = 0 := by
  obtain ⟨index, rfl⟩ := Int.eq_ofNat_of_zero_le (by omega : 0 ≤ index)
  rw [word_natCast, Array.getD_eq_getD_getElem?,
    Array.getElem?_eq_none (by unfold size at h; omega)]
  rfl

/-- The words of a mask that is given word by word. -/
theorem word_mk_range (count : Nat) (f : Nat → UInt32) (index : Nat) :
    (Mask.mk ((Array.range count).map f)).word (index : Int)
      = if index < count then f index else 0 := by
  rw [word_natCast, Array.getD_eq_getD_getElem?, Array.getElem?_map, Array.getElem?_range]
  by_cases h : index < count
  · rw [if_pos h, if_pos h]
    rfl
  · rw [if_neg h, if_neg h]
    rfl

theorem size_mk_range (count : Nat) (f : Nat → UInt32) :
    (Mask.mk ((Array.range count).map f)).size = count := by
  rw [size, Array.size_map, Array.size_range]

/-! ## Look-ups -/

/-- A look-up reads one bit of one word. -/
theorem test_mul_add (mask : Mask) (index : Int) {bit : Nat} (h : bit < 32) :
    mask.test (32 * index + bit) = (mask.word index).toNat.testBit bit := by
  rw [test, show (32 * index + (bit : Int)) / 32 = index by omega,
    show ((32 * index + (bit : Int)) % 32).toNat = bit by omega]

/-- A position outside the words is not set. -/
theorem test_bounds {mask : Mask} {position : Int} (h : mask.test position = true) :
    0 ≤ position ∧ position < 32 * mask.size := by
  by_contra hout
  have hword : mask.word (position / 32) = 0 := by
    by_cases hneg : position < 0
    · exact mask.word_of_neg (by omega)
    · exact mask.word_of_size_le (by omega)
  rw [test, hword] at h
  simp at h

/-- Masks are told apart by look-ups word by word: the bits of one word of a mask that is given
word by word are those of the function. -/
theorem test_mk_range (count : Nat) (f : Nat → UInt32) (position : Int) :
    (Mask.mk ((Array.range count).map f)).test position = true
      ↔ 0 ≤ position ∧ position < 32 * count
        ∧ (f (position / 32).toNat).toNat.testBit (position % 32).toNat = true := by
  by_cases hneg : position < 0
  · rw [test, word_of_neg _ (by omega)]
    simp only [UInt32.toNat_zero, Nat.zero_testBit, Bool.false_eq_true, false_iff]
    omega
  · obtain ⟨index, hindex⟩ := Int.eq_ofNat_of_zero_le (by omega : 0 ≤ position / 32)
    rw [test, hindex, word_mk_range, Int.toNat_natCast]
    by_cases hlt : index < count
    · rw [if_pos hlt]
      constructor
      · intro h
        exact ⟨by omega, by omega, h⟩
      · exact fun h => h.2.2
    · rw [if_neg hlt]
      simp only [UInt32.toNat_zero, Nat.zero_testBit, Bool.false_eq_true, false_iff]
      omega

/-- Words beyond the last one read as unset, so that zero words at the end change no look-up. -/
@[simp] theorem test_extend (mask : Mask) (count : Nat) (position : Int) :
    (mask.extend count).test position = mask.test position := by
  have hword : (mask.extend count).word (position / 32) = mask.word (position / 32) := by
    by_cases hneg : position / 32 < 0
    · rw [word_of_neg _ hneg, word_of_neg _ hneg]
    · obtain ⟨index, hindex⟩ := Int.eq_ofNat_of_zero_le (by omega : 0 ≤ position / 32)
      rw [hindex, word_natCast, word_natCast, extend, Array.getD_eq_getD_getElem?,
        Array.getD_eq_getD_getElem?]
      by_cases hlt : index < mask.words.size
      · rw [Array.getElem?_append_left hlt]
      · rw [Array.getElem?_append_right (by omega), Array.getElem?_replicate,
          Array.getElem?_eq_none (show mask.words.size ≤ index by omega)]
        split
        · rfl
        · rfl
  rw [test, test, hword]

theorem size_extend (mask : Mask) (count : Nat) :
    (mask.extend count).size = max mask.size count := by
  rw [extend, size, size, Array.size_append, Array.size_replicate]
  omega

/-- Truncating unsets the positions of the words that go. -/
theorem test_truncate (mask : Mask) (count : Nat) (position : Int) :
    (mask.truncate count).test position = true
      ↔ position < 32 * count ∧ mask.test position = true := by
  by_cases hneg : position / 32 < 0
  · rw [test, word_of_neg _ hneg, test, word_of_neg _ hneg]
    simp
  · obtain ⟨index, hindex⟩ := Int.eq_ofNat_of_zero_le (by omega : 0 ≤ position / 32)
    rw [test, test, hindex, word_natCast, word_natCast, truncate, Array.getD_eq_getD_getElem?,
      Array.getD_eq_getD_getElem?, Array.take_eq_extract, Array.getElem?_extract]
    by_cases hlt : index < count
    · by_cases hsize : index < mask.words.size
      · rw [if_pos (by omega), Nat.zero_add]
        have : position < 32 * count := by omega
        simp only [this, true_and]
      · rw [if_neg (by omega), Array.getElem?_eq_none (by omega)]
        simp
    · rw [if_neg (by omega)]
      have : ¬ position < 32 * count := by omega
      simp [this]

theorem size_truncate (mask : Mask) (count : Nat) :
    (mask.truncate count).size = min count mask.size := by
  rw [truncate, size, size, Array.take_eq_extract, Array.size_extract]
  omega

theorem test_zeros (count : Nat) (position : Int) : (zeros count).test position = false := by
  have hword : (zeros count).word (position / 32) = 0 := by
    by_cases hneg : position / 32 < 0
    · exact word_of_neg _ hneg
    · obtain ⟨index, hindex⟩ := Int.eq_ofNat_of_zero_le (by omega : 0 ≤ position / 32)
      rw [hindex, word_natCast, zeros, Array.getD_eq_getD_getElem?, Array.getElem?_replicate]
      split
      · rfl
      · rfl
  rw [test, hword, UInt32.toNat_zero, Nat.zero_testBit]

theorem size_zeros (count : Nat) : (zeros count).size = count := Array.size_replicate

/-! ## Setting positions -/

theorem toNat_bitWord {bit : Nat} (h : bit < 32) : (bitWord bit).toNat = 2 ^ bit := by
  have hpow : 2 ^ bit < 2 ^ 32 := Nat.pow_lt_pow_right (by decide) h
  rw [bitWord, UInt32.toNat_shiftLeft, UInt32.toNat_ofNat_of_lt' (by unfold UInt32.size; omega),
    Nat.mod_eq_of_lt h, Nat.shiftLeft_eq]
  show 1 * 2 ^ bit % 2 ^ 32 = 2 ^ bit
  rw [Nat.one_mul, Nat.mod_eq_of_lt hpow]

theorem size_insert (mask : Mask) (position : Nat) : (mask.insert position).size = mask.size :=
  Array.size_modify

/-- Setting a position inside the words sets it and no other. -/
theorem test_insert (mask : Mask) {position : Nat} (h : position < 32 * mask.size)
    (other : Int) :
    (mask.insert position).test other = true ↔ other = position ∨ mask.test other = true := by
  by_cases hneg : other / 32 < 0
  · rw [test, word_of_neg _ hneg, test, word_of_neg _ hneg]
    simp only [UInt32.toNat_zero, Nat.zero_testBit, Bool.false_eq_true, or_false, false_iff]
    omega
  · obtain ⟨index, hindex⟩ := Int.eq_ofNat_of_zero_le (by omega : 0 ≤ other / 32)
    unfold size at h
    rw [test, test, hindex, word_natCast, word_natCast, insert, Array.getD_eq_getD_getElem?,
      Array.getD_eq_getD_getElem?, Array.getElem?_modify]
    -- only the word of the position changes, and in it only one bit
    by_cases hword : position / 32 = index
    · have hlt : index < mask.words.size := by omega
      rw [if_pos hword, Array.getElem?_eq_getElem hlt]
      show (mask.words[index] ||| bitWord (position % 32)).toNat.testBit _ = true ↔ _
      rw [UInt32.toNat_or, Nat.testBit_or, toNat_bitWord (Nat.mod_lt _ (by decide)),
        Nat.testBit_two_pow, Bool.or_eq_true, decide_eq_true_eq, or_comm]
      refine or_congr ?_ Iff.rfl
      omega
    · rw [if_neg hword]
      have hne : other ≠ position := by omega
      simp only [hne, false_or]

/-! ## Members -/

/-- The set positions in ascending order, as numbers without a bound. -/
def positions (mask : Mask) : List Nat :=
  (List.range (wordBits * mask.size)).filter fun position => mask.test (position : Int)

theorem positions_ascending (mask : Mask) : mask.positions.Pairwise (· < ·) :=
  List.Pairwise.filter _ List.pairwise_lt_range

theorem mem_positions (mask : Mask) (position : Nat) :
    position ∈ mask.positions ↔ mask.test position = true := by
  rw [positions, List.mem_filter, List.mem_range]
  refine ⟨fun h => h.2, fun h => ⟨?_, h⟩⟩
  have := (test_bounds h).2
  unfold wordBits
  omega

/-- The positions of the first `count` words, word by word. -/
theorem range_words (count : Nat) : List.range (wordBits * count)
    = (List.range count).flatMap fun index =>
        (List.range wordBits).map fun bit => wordBits * index + bit := by
  induction count with
  | zero => rfl
  | succ count ih =>
    rw [Nat.mul_succ, List.range_add, ih, List.range_succ, List.flatMap_append,
      List.flatMap_singleton]

/-- Reading the words one after the other gives the positions in order. -/
theorem members_eq_map_positions (mask : Mask) :
    mask.members = mask.positions.map UInt32.ofNat := by
  have hzip : mask.words.toList.zipIdx
      = (List.range mask.size).map fun index => (mask.words.getD index 0, index) := by
    refine List.ext_getElem (by simp [size]) fun index h₁ h₂ => ?_
    rw [List.length_zipIdx, Array.length_toList] at h₁
    simp [Array.getD_eq_getD_getElem?, Array.getElem?_eq_getElem h₁]
  -- both sides go through the words, and through the bits of each word
  rw [members, hzip, List.flatMap_map, positions, range_words, List.filter_flatMap,
    List.map_flatMap]
  refine List.flatMap_congr fun index _ => ?_
  show (bitsOf (mask.words.getD index 0)).map _ = _
  rw [bitsOf, List.filter_map, List.map_map]
  refine congrArg (List.map _) (List.filter_congr fun bit hbit => ?_)
  have htest := mask.test_mul_add (index : Int) (List.mem_range.mp hbit)
  rw [word_natCast] at htest
  rw [← htest]
  show _ = mask.test ((wordBits * index + bit : Nat) : Int)
  rw [Nat.cast_add, Nat.cast_mul]
  rfl

/-- Exactly the positions of `members` are set. -/
def Holds (mask : Mask) (members : List UInt32) : Prop :=
  ∀ position : Int, mask.test position = true ↔ ∃ member ∈ members, (member.toNat : Int) = position

namespace Holds

variable {mask : Mask} {members : List UInt32}

/-- The positions of a mask that holds ascending members. -/
theorem positions_eq (h : mask.Holds members) (hasc : members.Pairwise (· < ·)) :
    mask.positions = members.map UInt32.toNat := by
  refine List.Pairwise.eq_of_mem_iff mask.positions_ascending (List.pairwise_map.mpr hasc)
    fun position => ?_
  rw [mem_positions, h position, List.mem_map]
  simp only [Int.natCast_inj]

/-- A mask that holds ascending members reads back as them. -/
theorem members_eq (h : mask.Holds members) (hasc : members.Pairwise (· < ·)) :
    mask.members = members := by
  rw [members_eq_map_positions, h.positions_eq hasc, List.map_map]
  refine (List.map_congr_left fun member _ => ?_).trans (List.map_id members)
  exact UInt32.ofNat_toNat

/-- Members lie inside the words. -/
theorem lt_of_mem (h : mask.Holds members) {member : UInt32} (hmember : member ∈ members) :
    member.toNat < 32 * mask.size := by
  have := (test_bounds ((h member.toNat).mpr ⟨member, hmember, rfl⟩)).2
  omega

end Holds

/-- Inserting members one after the other, as `ofMembers` does, adds them to those that the mask
held before. -/
theorem Holds.foldlM_insert {positions : UInt32} {start mask : Mask} {taken rest : List UInt32}
    (h : start.Holds taken) (hsize : start.size = wordsFor positions.toNat)
    (hok : rest.foldlM (fun (mask : Mask) (member : UInt32) =>
        if member < positions then Except.ok (mask.insert member.toNat)
        else Except.error (ContractViolation.outsideMask member positions)) start = .ok mask) :
    mask.Holds (taken ++ rest) ∧ mask.size = wordsFor positions.toNat := by
  -- the members move one by one from those to come to those taken
  induction rest generalizing start taken with
  | nil =>
    cases hok
    rw [List.append_nil]
    exact ⟨h, hsize⟩
  | cons member rest ih =>
    rw [List.foldlM_cons] at hok
    by_cases hlt : member < positions
    · rw [if_pos hlt] at hok
      have hlt' : member.toNat < positions.toNat := hlt
      have hinside : member.toNat < 32 * start.size := by
        rw [hsize]
        unfold wordsFor wordBits
        omega
      have hinsert : (start.insert member.toNat).Holds (taken ++ [member]) := by
        intro position
        rw [start.test_insert hinside, h position]
        simp only [List.mem_append, List.mem_singleton, or_and_right, exists_or, exists_eq_left]
        rw [or_comm, eq_comm]
      rw [List.append_cons]
      exact ih hinsert ((start.size_insert _).trans hsize) hok
    · rw [if_neg hlt] at hok
      cases hok

/-- Members below the number of positions make a mask. -/
theorem exists_ofMembers {members : List UInt32} {positions : UInt32}
    (h : ∀ member ∈ members, member < positions) : ∃ mask, ofMembers members positions = .ok mask := by
  unfold ofMembers
  -- whatever has been set before, the next member is taken
  generalize zeros (wordsFor positions.toNat) = start
  induction members generalizing start with
  | nil => exact ⟨start, rfl⟩
  | cons member members ih =>
    rw [List.foldlM_cons, if_pos (h member List.mem_cons_self)]
    exact ih (fun other hother => h other (List.mem_cons_of_mem _ hother)) _

/-- The mask made of members holds them. -/
theorem holds_of_ofMembers {members : List UInt32} {positions : UInt32} {mask : Mask}
    (h : ofMembers members positions = .ok mask) :
    mask.Holds members ∧ mask.size = wordsFor positions.toNat := by
  have hzeros : (zeros (wordsFor positions.toNat)).Holds [] := by
    intro position
    rw [test_zeros]
    simp
  exact hzeros.foldlM_insert (size_zeros _) h

end Concordance.Mask
