import Concordance.Mask.Shift
import Concordance.Proofs.Mask.Positions

/-!
# Shifted masks

Bit by bit, `shiftedWord` reads the mask at the position less the distance (`testBit_shiftedWord`),
whatever the distance and wherever the two words lie that it is put together from.

In place, the words change one after the other. `Reads distance index other` says which words the
word at `index` is put together from; no word in `visitOrder` reads one that was visited before it,
so that the union in place is the union with the shifted mask (`word_addShifted`,
`test_addShifted`).
-/

namespace Concordance.Mask

/-! ## One word -/

theorem testBit_shiftRight_word (word : UInt32) {amount : Nat} (h : amount < 32) (bit : Nat) :
    (word >>> UInt32.ofNat amount).toNat.testBit bit = word.toNat.testBit (amount + bit) := by
  rw [UInt32.toNat_shiftRight, UInt32.toNat_ofNat_of_lt' (by unfold UInt32.size; omega),
    Nat.mod_eq_of_lt h, Nat.testBit_shiftRight]

theorem testBit_shiftLeft_word (word : UInt32) {amount bit : Nat} (h : amount < 32)
    (hbit : bit < 32) : (word <<< UInt32.ofNat amount).toNat.testBit bit
      = (decide (amount ≤ bit) && word.toNat.testBit (bit - amount)) := by
  rw [UInt32.toNat_shiftLeft, UInt32.toNat_ofNat_of_lt' (by unfold UInt32.size; omega),
    Nat.mod_eq_of_lt h, Nat.testBit_mod_two_pow, Nat.testBit_shiftLeft]
  simp only [hbit, decide_true, Bool.true_and]

/-- A word has no bits behind its last. -/
theorem testBit_word_of_le (word : UInt32) {bit : Nat} (h : 32 ≤ bit) :
    word.toNat.testBit bit = false :=
  Nat.testBit_lt_two_pow
    (Nat.lt_of_lt_of_le word.toNat_lt (Nat.pow_le_pow_right (by decide) h))

/-- A bit of a shifted word is the bit of the mask at the position less the distance. -/
theorem testBit_shiftedWord (mask : Mask) (index : Nat) (distance : Int) {bit : Nat}
    (h : bit < 32) : (mask.shiftedWord index distance).toNat.testBit bit
      = mask.test (32 * index + bit - distance) := by
  -- the position lies `from` bits behind the start of the word `source`
  generalize hsource : (32 * (index : Int) - distance) / 32 = source
  obtain ⟨first, hfirst⟩ :=
    Int.eq_ofNat_of_zero_le (by omega : 0 ≤ (32 * (index : Int) - distance) % 32)
  have hlt : first < 32 := by omega
  have hposition : 32 * (index : Int) + bit - distance = 32 * source + (first + bit : Nat) := by
    omega
  unfold shiftedWord
  simp only [hsource, hfirst, Int.toNat_natCast, hposition]
  by_cases hnext : first + bit < 32
  · rw [mask.test_mul_add source hnext]
    by_cases hzero : first = 0
    · rw [if_pos hzero, testBit_shiftRight_word _ hlt]
    · rw [if_neg hzero, UInt32.toNat_or, Nat.testBit_or, testBit_shiftRight_word _ hlt,
        testBit_shiftLeft_word _ (by omega) h]
      have hle : ¬ 32 - first ≤ bit := by omega
      simp only [hle, decide_false, Bool.false_and, Bool.or_false]
  · have hzero : ¬ first = 0 := by omega
    have hle : 32 - first ≤ bit := by omega
    rw [if_neg hzero, UInt32.toNat_or, Nat.testBit_or, testBit_shiftRight_word _ hlt,
      testBit_shiftLeft_word _ (by omega) h, testBit_word_of_le _ (by omega),
      show 32 * source + ((first + bit : Nat) : Int)
        = 32 * (source + 1) + (bit - (32 - first) : Nat) by omega,
      mask.test_mul_add (source + 1) (by omega)]
    simp only [hle, decide_true, Bool.true_and, Bool.false_or]

/-- In the word that covers a position, the bit of the position says whether it is set. -/
theorem testBit_word_of_nonneg (mask : Mask) {position : Int} (h : 0 ≤ position) :
    (mask.word (position / 32).toNat).toNat.testBit (position % 32).toNat = mask.test position := by
  rw [← mask.test_mul_add _ (by omega),
    show 32 * ((position / 32).toNat : Int) + ((position % 32).toNat : Int) = position by omega]

/-- The same of a shifted word, where the position is moved back. -/
theorem testBit_shiftedWord_of_nonneg (mask : Mask) (distance : Int) {position : Int}
    (h : 0 ≤ position) :
    (mask.shiftedWord (position / 32).toNat distance).toNat.testBit (position % 32).toNat
      = mask.test (position - distance) := by
  rw [mask.testBit_shiftedWord _ _ (by omega),
    show 32 * ((position / 32).toNat : Int) + ((position % 32).toNat : Int) = position by omega]

/-! ## The whole mask -/

theorem size_shift (mask : Mask) (distance : Int) : (mask.shift distance).size = mask.size :=
  size_mk_range _ _

/-- Shifting moves the set positions by the distance and drops those that leave the words. -/
theorem test_shift (mask : Mask) (distance position : Int) :
    (mask.shift distance).test position = true
      ↔ 0 ≤ position ∧ position < 32 * mask.size ∧ mask.test (position - distance) = true := by
  rw [shift, test_mk_range]
  refine and_congr_right fun hpos => and_congr_right fun _ => ?_
  rw [mask.testBit_shiftedWord_of_nonneg distance hpos]

/-! ## In place -/

/-- The word at `index` of the shifted mask is put together from the word at `other`. -/
def Reads (distance : Int) (index other : Nat) : Prop :=
  (32 * (index : Int) - distance) / 32 = other
    ∨ ((32 * (index : Int) - distance) % 32 ≠ 0 ∧ (32 * (index : Int) - distance) / 32 + 1 = other)

/-- A shifted word depends only on the words that it reads. -/
theorem shiftedWord_congr {mask other : Mask} {index : Nat} {distance : Int}
    (h : ∀ source : Nat, Reads distance index source → mask.word source = other.word source) :
    mask.shiftedWord index distance = other.shiftedWord index distance := by
  have hword : ∀ source : Int, (∀ n : Nat, source = n → Reads distance index n) →
      mask.word source = other.word source := by
    intro source hreads
    by_cases hneg : source < 0
    · rw [word_of_neg _ hneg, word_of_neg _ hneg]
    · obtain ⟨n, rfl⟩ := Int.eq_ofNat_of_zero_le (by omega : 0 ≤ source)
      exact h n (hreads n rfl)
  have hlow := hword _ fun n hn => Or.inl hn
  unfold shiftedWord
  simp only [hlow]
  by_cases hzero : ((32 * (index : Int) - distance) % 32).toNat = 0
  · rw [if_pos hzero, if_pos hzero]
  · have hhigh := hword _ fun n hn => Or.inr ⟨by omega, hn⟩
    rw [if_neg hzero, if_neg hzero, hhigh]

theorem size_addShiftedWord (distance : Int) (mask : Mask) (index : Nat) :
    (addShiftedWord distance mask index).size = mask.size := Array.size_modify

/-- A step changes one word. -/
theorem word_addShiftedWord (distance : Int) (mask : Mask) {index : Nat} (h : index < mask.size)
    (other : Nat) : (addShiftedWord distance mask index).word other
      = if other = index then mask.word other ||| mask.shiftedWord other distance
        else mask.word other := by
  rw [word_natCast, word_natCast, addShiftedWord, Array.getD_eq_getD_getElem?,
    Array.getD_eq_getD_getElem?, Array.getElem?_modify]
  by_cases heq : other = index
  · subst heq
    rw [if_pos rfl, if_pos rfl, Array.getElem?_eq_getElem h]
    rfl
  · rw [if_neg (Ne.symm heq), if_neg heq]

/-- Words that change in an order in which none reads one before it change as if all were read at
the start. -/
theorem word_foldl_addShiftedWord (distance : Int) (order : List Nat) (mask : Mask)
    (hsize : ∀ index ∈ order, index < mask.size)
    (horder : order.Pairwise fun earlier later =>
      earlier ≠ later ∧ ¬ Reads distance later earlier) (other : Nat) :
    (order.foldl (addShiftedWord distance) mask).word other
      = if other ∈ order then mask.word other ||| mask.shiftedWord other distance
        else mask.word other := by
  -- the first word of the order changes before the others, but none of these reads it
  induction order generalizing mask with
  | nil => rfl
  | cons index order ih =>
    obtain ⟨hfirst, hrest⟩ := List.pairwise_cons.mp horder
    have hstep := mask.word_addShiftedWord distance (hsize index List.mem_cons_self)
    rw [List.foldl_cons, ih _ (fun later hlater => by
      rw [size_addShiftedWord]
      exact hsize later (List.mem_cons_of_mem _ hlater)) hrest]
    by_cases hmem : other ∈ order
    · have hne := (hfirst other hmem).1
      have hreads : (addShiftedWord distance mask index).shiftedWord other distance
          = mask.shiftedWord other distance := by
        refine shiftedWord_congr fun source hsource => ?_
        rw [hstep, if_neg]
        rintro rfl
        exact (hfirst other hmem).2 hsource
      rw [if_pos hmem, if_pos (List.mem_cons_of_mem _ hmem), hreads, hstep, if_neg (Ne.symm hne)]
    · rw [if_neg hmem, hstep]
      by_cases heq : other = index
      · rw [if_pos heq, if_pos (heq ▸ List.mem_cons_self)]
      · rw [if_neg heq, if_neg (by simp [heq, hmem])]

theorem size_foldl_addShiftedWord (distance : Int) (order : List Nat) (mask : Mask) :
    (order.foldl (addShiftedWord distance) mask).size = mask.size := by
  induction order generalizing mask with
  | nil => rfl
  | cons index order ih => rw [List.foldl_cons, ih, size_addShiftedWord]

theorem mem_visitOrder (count : Nat) (distance : Int) (index : Nat) :
    index ∈ visitOrder count distance ↔ index < count := by
  unfold visitOrder
  split
  · rw [List.mem_reverse, List.mem_range]
  · rw [List.mem_range]

/-- A shift upward reads words below, a shift downward words above: neither reads one that was
visited before. -/
theorem visitOrder_pairwise (count : Nat) {distance : Int} (h : distance ≠ 0) :
    (visitOrder count distance).Pairwise fun earlier later =>
      earlier ≠ later ∧ ¬ Reads distance later earlier := by
  unfold visitOrder
  by_cases hpos : 0 < distance
  · rw [if_pos hpos, List.pairwise_reverse]
    refine List.pairwise_lt_range.imp fun {later earlier} hlt => ⟨by omega, ?_⟩
    rintro (hread | ⟨_, hread⟩)
    · omega
    · omega
  · have hneg : distance < 0 := lt_of_le_of_ne (not_lt.mp hpos) h
    rw [if_neg hpos]
    refine List.pairwise_lt_range.imp fun {earlier later} hlt => ⟨by omega, ?_⟩
    rintro (hread | ⟨_, hread⟩)
    · omega
    · omega

theorem size_addShifted (mask : Mask) (distance : Int) :
    (mask.addShifted distance).size = mask.size := by
  unfold addShifted
  split
  · rfl
  · exact size_foldl_addShiftedWord _ _ _

/-- Every word in place becomes the union of the old word and the word of the old mask's shift. -/
theorem word_addShifted (mask : Mask) {distance : Int} (h : distance ≠ 0) (index : Nat) :
    (mask.addShifted distance).word index
      = if index < mask.size then mask.word index ||| mask.shiftedWord index distance
        else mask.word index := by
  rw [addShifted, if_neg h, word_foldl_addShiftedWord _ _ _
    (fun index hindex => (mem_visitOrder _ _ _).mp hindex) (visitOrder_pairwise _ h)]
  simp only [mem_visitOrder]

/-- The union of a mask with its shift. -/
theorem test_addShifted (mask : Mask) (distance position : Int) :
    (mask.addShifted distance).test position = true
      ↔ mask.test position = true
        ∨ (0 ≤ position ∧ position < 32 * mask.size ∧ mask.test (position - distance) = true) := by
  by_cases hzero : distance = 0
  · rw [addShifted, if_pos hzero, hzero, Int.sub_zero]
    refine ⟨Or.inl, ?_⟩
    rintro (h | ⟨_, _, h⟩)
    · exact h
    · exact h
  by_cases hin : 0 ≤ position ∧ position < 32 * mask.size
  · obtain ⟨index, hindex⟩ := Int.eq_ofNat_of_zero_le (by omega : 0 ≤ position / 32)
    obtain ⟨bit, hbit⟩ := Int.eq_ofNat_of_zero_le (by omega : 0 ≤ position % 32)
    have hposition : position = 32 * (index : Int) + (bit : Int) := by omega
    have hlt : bit < 32 := by omega
    rw [hposition, test_mul_add _ _ hlt, test_mul_add _ _ hlt, mask.word_addShifted hzero,
      if_pos (by omega), UInt32.toNat_or, Nat.testBit_or, mask.testBit_shiftedWord _ _ hlt,
      Bool.or_eq_true]
    refine or_congr Iff.rfl ⟨fun h => ⟨by omega, by omega, h⟩, fun h => h.2.2⟩
  · constructor
    · intro h
      have := test_bounds h
      rw [size_addShifted] at this
      exact absurd this hin
    · rintro (h | ⟨h₁, h₂, _⟩)
      · exact absurd (test_bounds h) hin
      · exact absurd ⟨h₁, h₂⟩ hin

end Concordance.Mask
