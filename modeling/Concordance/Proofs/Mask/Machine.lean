import Concordance.Mask.Machine
import Concordance.Proofs.Mask.Members

/-!
# Exactness of 64-bit arithmetic on masks

Look-ups at 64-bit positions are look-ups (`testAt_eq`). Shifts by 64-bit distances are shifts as
long as no position leaves the 64-bit numbers, which `Exact distance index` says of the first
position of the word at `index` (`shiftedWordBy_eq`, `shiftBy_eq`, `addShiftedBy_eq`). Every word of
a mask is exact when the mask has at most `2 ^ 57` words and the distance is at most `2 ^ 53`
(`exact_of_le`).

Put together, every bit of a shifted mask is the bit that has moved there, and in place every word
is united with what the shift of the old words has at its index (`shift_exact_in_place`).
-/

namespace Concordance.Mask

/-! ## Look-ups -/

theorem toInt_wordOf (position : Int64) : (wordOf position).toInt = position.toInt / 32 := by
  have hlow := position.le_toInt
  have hhigh := position.toInt_lt
  exact Int64.toInt_ofInt_of_le (by omega) (by omega)

/-- Words are read as at integer indices. -/
theorem wordAt_eq (mask : Mask) (index : Int64) : mask.wordAt index = mask.word index.toInt := by
  unfold wordAt word
  rw [← Int64.toNat_toInt]
  by_cases h : index.toInt < 0
  · rw [if_pos h, if_pos (Int64.lt_iff_toInt_lt.mpr h)]
  · rw [if_neg h, if_neg (mt Int64.lt_iff_toInt_lt.mp h)]

/-- One bit of a word is told apart by the word that has just this bit. -/
theorem and_bitWord_ne_zero (word : UInt32) {bit : Nat} (h : bit < 32) :
    (word &&& bitWord bit != 0) = word.toNat.testBit bit := by
  rw [Bool.eq_iff_iff, bne_iff_ne, ne_eq, ← UInt32.toNat_inj, UInt32.toNat_and, toNat_bitWord h,
    UInt32.toNat_zero, Nat.and_two_pow]
  cases word.toNat.testBit bit with
  | false => simp
  | true => simp

/-- A position that is not negative has its word and its bit as quotient and remainder. -/
theorem toNat_div_mod {position : Int64} (h : 0 ≤ position.toInt) :
    (position / 32).toNatClampNeg = (position.toInt / 32).toNat
      ∧ (position % 32).toNatClampNeg = (position.toInt % 32).toNat := by
  have h32 : (32 : Int64).toInt = 32 := rfl
  have hhigh := position.toInt_lt
  rw [← Int64.toNat_toInt, ← Int64.toNat_toInt, Int64.toInt_div, Int64.toInt_mod, h32,
    Int.tdiv_eq_ediv_of_nonneg h, Int.tmod_eq_emod_of_nonneg h]
  exact ⟨congrArg Int.toNat (Int.bmod_eq_of_le (by omega) (by omega)), rfl⟩

/-- Look-ups at 64-bit positions are look-ups. -/
theorem testAt_eq (mask : Mask) (position : Int64) :
    mask.testAt position = mask.test position.toInt := by
  unfold testAt test
  by_cases hneg : position.toInt < 0
  · rw [if_pos (Int64.lt_iff_toInt_lt.mpr hneg), word_of_neg _ (by omega)]
    simp
  · obtain ⟨hword, hbit⟩ := toNat_div_mod (not_lt.mp hneg)
    obtain ⟨index, hindex⟩ := Int.eq_ofNat_of_zero_le (by omega : 0 ≤ position.toInt / 32)
    rw [if_neg (mt Int64.lt_iff_toInt_lt.mp hneg), hword, hbit, hindex, Int.toNat_natCast,
      word_natCast, Array.getD_eq_getD_getElem?]
    cases mask.words[index]? with
    | none => simp
    | some word => exact and_bitWord_ne_zero word (by omega)

/-! ## Shifts -/

/-- The first position of the word at `index`, moved back by `distance`, is a 64-bit number, and so
are its two parts. -/
def Exact (distance : Int64) (index : Nat) : Prop :=
  32 * (index : Int) + |distance.toInt| < 2 ^ 63

/-- Every word is exact when neither the words nor the distance are too many. -/
theorem exact_of_le {distance : Int64} {index : Nat} (hdistance : |distance.toInt| ≤ 2 ^ 53)
    (hindex : index < 2 ^ 57) : Exact distance index := by
  unfold Exact
  omega

/-- The position is computed without wrapping around. -/
theorem toInt_start {distance : Int64} {index : Nat} (h : Exact distance index) :
    (Int64.ofNat index * 32 - distance).toInt = 32 * index - distance.toInt := by
  unfold Exact at h
  have hdistance := abs_le.mp (le_refl |distance.toInt|)
  have h32 : (32 : Int64).toInt = 32 := rfl
  have hindex : (Int64.ofNat index).toInt = index := Int64.toInt_ofNat_of_lt (by omega)
  have hmul : (Int64.ofNat index * 32).toInt = 32 * index := by
    rw [Int64.toInt_mul, hindex, h32, Int.mul_comm]
    exact Int.bmod_eq_of_le (by omega) (by omega)
  rw [Int64.toInt_sub, hmul]
  exact Int.bmod_eq_of_le (by omega) (by omega)

/-- The word behind the one that covers a position. -/
theorem toInt_wordOf_add_one (position : Int64) :
    (wordOf position + 1).toInt = position.toInt / 32 + 1 := by
  have hlow := position.le_toInt
  have hhigh := position.toInt_lt
  have h1 : (1 : Int64).toInt = 1 := rfl
  rw [Int64.toInt_add, toInt_wordOf, h1]
  exact Int.bmod_eq_of_le (by omega) (by omega)

/-- An exact word of a mask shifted by a 64-bit distance is the word of the shifted mask. -/
theorem shiftedWordBy_eq (mask : Mask) {distance : Int64} {index : Nat}
    (h : Exact distance index) :
    mask.shiftedWordBy index distance = mask.shiftedWord index distance.toInt := by
  unfold shiftedWordBy shiftedWord bitOf
  simp only [wordAt_eq, toInt_wordOf, toInt_wordOf_add_one, toInt_start h]

/-- A shift by a 64-bit distance is the shift by this distance. -/
theorem shiftBy_eq (mask : Mask) {distance : Int64}
    (h : ∀ index < mask.size, Exact distance index) :
    mask.shiftBy distance = mask.shift distance.toInt := by
  refine congrArg Mask.mk (Array.map_congr_left fun index hindex => ?_)
  exact mask.shiftedWordBy_eq (h index (Array.mem_range.mp hindex))

/-- In place, as long as the words are exact that change, they change as under a shift. -/
theorem foldl_addShiftedWordBy {distance : Int64} (order : List Nat)
    (h : ∀ index ∈ order, Exact distance index) (mask : Mask) :
    order.foldl (addShiftedWordBy distance) mask
      = order.foldl (addShiftedWord distance.toInt) mask := by
  refine List.foldl_ext _ _ mask fun words index hindex => ?_
  unfold addShiftedWordBy addShiftedWord
  rw [words.shiftedWordBy_eq (h index hindex)]

/-- The union in place with a shift by a 64-bit distance is that with the shift by this distance. -/
theorem addShiftedBy_eq (mask : Mask) {distance : Int64}
    (h : ∀ index < mask.size, Exact distance index) :
    mask.addShiftedBy distance = mask.addShifted distance.toInt := by
  have hzero : distance = 0 ↔ distance.toInt = 0 := Int64.toInt_inj.symm
  have hpos : 0 < distance ↔ 0 < distance.toInt := Int64.lt_iff_toInt_lt
  unfold addShiftedBy addShifted visitOrder
  by_cases hskip : distance.toInt = 0
  · rw [if_pos (Or.inl (hzero.mpr hskip)), if_pos hskip]
  rw [if_neg hskip]
  by_cases hempty : mask.size = 0
  · rw [if_pos (Or.inr hempty), hempty]
    split
    · rfl
    · rfl
  · rw [if_neg (by rw [hzero]; tauto)]
    by_cases hup : 0 < distance.toInt
    · rw [if_pos (hpos.mpr hup), if_pos hup]
      exact foldl_addShiftedWordBy _ (fun index hindex =>
        h index (List.mem_range.mp (List.mem_reverse.mp hindex))) mask
    · rw [if_neg (mt hpos.mp hup), if_neg hup]
      exact foldl_addShiftedWordBy _ (fun index hindex => h index (List.mem_range.mp hindex)) mask

/-! ## What a shift does -/

/-- What has changed in place before a word does is not read for it. -/
theorem not_reads_before {count : Nat} {distance : Int} (hzero : distance ≠ 0)
    {before after : List Nat} {index : Nat}
    (horder : visitOrder count distance = before ++ index :: after) :
    ∀ earlier ∈ before, earlier ≠ index ∧ ¬ Reads distance index earlier := by
  have hpairs := visitOrder_pairwise count hzero
  rw [horder, List.pairwise_append] at hpairs
  exact fun earlier hearlier => hpairs.2.2 earlier hearlier index List.mem_cons_self

/-- A word of the shifted mask, by its index. -/
theorem word_shift (mask : Mask) (distance : Int) {index : Nat} (h : index < mask.size) :
    (mask.shift distance).word index = mask.shiftedWord index distance := by
  rw [shift, word_mk_range, if_pos h]

/-- In place, every word is united with what the shift of the old words has at its index. -/
theorem word_addShifted_eq (mask : Mask) (distance : Int) {index : Nat} (h : index < mask.size) :
    (mask.addShifted distance).word index
      = mask.word index ||| (mask.shift distance).word index := by
  by_cases hzero : distance = 0
  · -- nothing is done, and nothing has moved
    subst hzero
    have hsame : mask.shift 0 = mask :=
      ext_of_test (mask.size_shift 0) fun position => by
        rw [test_shift, Int.sub_zero]
        exact ⟨fun hset => hset.2.2, fun hset => ⟨(test_bounds hset).1, (test_bounds hset).2, hset⟩⟩
    rw [hsame, addShifted, if_pos rfl, UInt32.or_self]
  · rw [mask.word_addShifted hzero, if_pos h, mask.word_shift distance h]

/-- A shift keeps the number of words, and each of its bits is the bit of the mask that is the
distance before it, if there is one. In place, every word becomes the union of the old word and that
of the shift of the old words: no word is read for another one after it has changed. In 64 bits, for
masks of up to `2 ^ 57` words and distances of up to `2 ^ 53`, the same is computed. -/
theorem shift_exact_in_place (mask : Mask) (distance : Int) :
    (mask.shift distance).size = mask.size
      ∧ (∀ position : Int, 0 ≤ position → position < 32 * mask.size →
        ((mask.shift distance).test position = true
          ↔ (0 ≤ position - distance ∧ position - distance < 32 * mask.size)
            ∧ mask.test (position - distance) = true))
      ∧ (mask.addShifted distance).size = mask.size
      ∧ (∀ index < mask.size, (mask.addShifted distance).word index
        = mask.word index ||| (mask.shift distance).word index)
      ∧ (∀ before index after, distance ≠ 0 →
        visitOrder mask.size distance = before ++ index :: after →
          ∀ earlier ∈ before, earlier ≠ index ∧ ¬ Reads distance index earlier)
      ∧ (|distance| ≤ 2 ^ 53 → mask.size ≤ 2 ^ 57 →
        mask.shiftBy (Int64.ofInt distance) = mask.shift distance
          ∧ mask.addShiftedBy (Int64.ofInt distance) = mask.addShifted distance) := by
  refine ⟨mask.size_shift distance, fun position hpos hlt => ?_, mask.size_addShifted distance,
    fun index hindex => mask.word_addShifted_eq distance hindex,
    fun before index after hzero horder => not_reads_before hzero horder, fun hdistance hsize => ?_⟩
  · rw [test_shift]
    exact ⟨fun hset => ⟨test_bounds hset.2.2, hset.2.2⟩, fun hset => ⟨hpos, hlt, hset.2⟩⟩
  · have hwide := abs_le.mp hdistance
    have hto : (Int64.ofInt distance).toInt = distance :=
      Int64.toInt_ofInt_of_le (by omega) (by omega)
    have hexact : ∀ index < mask.size, Exact (Int64.ofInt distance) index := fun index hindex =>
      exact_of_le (by rwa [hto]) (by omega)
    rw [mask.shiftBy_eq hexact, mask.addShiftedBy_eq hexact, hto]
    exact ⟨rfl, rfl⟩

/-- A shift by less than a word reads every word that it changes. -/
theorem shift_exact_in_place_by_one :
    let mask := Mask.mk #[0x80000001, 0x80000001]
    (mask.addShiftedBy (Int64.ofInt 1)).words = #[0x80000003, 0x80000003]
      ∧ mask.shiftBy (Int64.ofInt 1) = mask.shift 1
      ∧ (mask.addShifted 1).word 1 = mask.word 1 ||| (mask.shift 1).word 1 := by
  intro mask
  obtain ⟨-, -, -, hwords, -, hexact⟩ := shift_exact_in_place mask 1
  obtain ⟨hshift, hadd⟩ := hexact (by decide) (by decide)
  refine ⟨?_, hshift, hwords 1 (by decide)⟩
  rw [hadd]
  decide

end Concordance.Mask
