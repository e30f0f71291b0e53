import Concordance.Proofs.GapList.Ranges
import Concordance.Proofs.Mask.Members
import Concordance.Proofs.Posting.Holds

/-!
# Looking for a range in a posting list

In a mask, `rangeBits` keeps just the bits of a word that stand for positions of the range
(`testBit_rangeBits`), and `rangeWords` goes through just the words that have such positions, all of
which are there (`mem_rangeWords`), so that a mask meets a range when one of its set positions lies
in it (`maskMeetsRange_iff`).

In either form, a range query finds out whether some member lies in the range
(`Holds.meetsRange_eq`, `rangeMeets_agrees_with_members`).
-/

namespace Concordance.Posting

/-! ## The bits of a range -/

theorem testBit_fullWord {bit : Nat} (h : bit < 32) :
    (0xFFFFFFFF : UInt32).toNat.testBit bit = true := by
  show (2 ^ 32 - 1).testBit bit = true
  rw [Nat.testBit_two_pow_sub_one]
  exact decide_eq_true h

theorem testBit_bitsFrom {first bit : Nat} (hfirst : first < 32) (h : bit < 32) :
    (bitsFrom first).toNat.testBit bit = true ↔ first ≤ bit := by
  rw [bitsFrom, Mask.testBit_shiftLeft_word _ hfirst h, testBit_fullWord (by omega), Bool.and_true,
    decide_eq_true_iff]

theorem testBit_bitsUpTo {final bit : Nat} (hfinal : final < 32) (h : bit < 32) :
    (bitsUpTo final).toNat.testBit bit = true ↔ bit ≤ final := by
  unfold bitsUpTo
  by_cases hlast : final < 31
  · have hword := @Mask.toNat_bitWord (final + 1) (by omega)
    have hone : (1 : UInt32) ≤ Mask.bitWord (final + 1) := by
      rw [UInt32.le_iff_toNat_le, hword]
      exact Nat.one_le_two_pow
    rw [if_pos hlast]
    show (Mask.bitWord (final + 1) - 1).toNat.testBit bit = true ↔ _
    rw [UInt32.toNat_sub_of_le _ _ hone, hword, UInt32.toNat_one, Nat.testBit_two_pow_sub_one,
      decide_eq_true_iff, Nat.lt_succ_iff]
  · rw [if_neg hlast, testBit_fullWord h]
    simp only [true_iff]
    omega

/-- Of a word from the first to the last one of a range, the bits stay that stand for positions in
the range. -/
theorem testBit_rangeBits {first final index bit : Nat} (hfirst : first / 32 ≤ index)
    (hfinal : index ≤ final / 32) (hbit : bit < 32) (word : UInt32) :
    (rangeBits first final index word).toNat.testBit bit = true
      ↔ (first ≤ 32 * index + bit ∧ 32 * index + bit ≤ final)
        ∧ word.toNat.testBit bit = true := by
  -- only the first word has positions below the range, and only the last one has some beyond it
  have hlow : (if index = first / 32 then word &&& bitsFrom (first % 32) else word).toNat.testBit bit
      = true ↔ first ≤ 32 * index + bit ∧ word.toNat.testBit bit = true := by
    by_cases hword : index = first / 32
    · rw [if_pos hword, UInt32.toNat_and, Nat.testBit_and, Bool.and_eq_true,
        testBit_bitsFrom (Nat.mod_lt _ (by decide)) hbit, and_comm]
      exact and_congr_left fun _ => by omega
    · rw [if_neg hword]
      exact (and_iff_right (by omega)).symm
  have hhigh (word : UInt32) :
      (if index = final / 32 then word &&& bitsUpTo (final % 32) else word).toNat.testBit bit = true
        ↔ 32 * index + bit ≤ final ∧ word.toNat.testBit bit = true := by
    by_cases hword : index = final / 32
    · rw [if_pos hword, UInt32.toNat_and, Nat.testBit_and, Bool.and_eq_true,
        testBit_bitsUpTo (Nat.mod_lt _ (by decide)) hbit, and_comm]
      exact and_congr_left fun _ => by omega
    · rw [if_neg hword]
      exact (and_iff_right (by omega)).symm
  unfold rangeBits
  rw [hhigh, hlow, and_left_comm, and_assoc]

/-! ## Masks -/

/-- A range query reads just the words of the mask that have positions of the range. -/
theorem mem_rangeWords (mask : Mask) (first final index : Nat) :
    index ∈ rangeWords mask first final
      ↔ first / 32 ≤ index ∧ index ≤ final / 32 ∧ index < mask.size := by
  unfold rangeWords
  split
  case isTrue hbehind =>
    simp only [List.not_mem_nil, false_iff]
    omega
  case isFalse hinside =>
    rw [List.mem_range'_1]
    omega

/-- A mask meets a range when one of its set positions lies in it. -/
theorem maskMeetsRange_iff (mask : Mask) (first final : Nat) :
    maskMeetsRange mask first final = true
      ↔ ∃ position : Nat, (first ≤ position ∧ position ≤ final) ∧ mask.test position = true := by
  unfold maskMeetsRange
  simp only [List.any_eq_true, bne_iff_ne, Mask.ne_zero_iff_exists_testBit]
  constructor
  · rintro ⟨index, hindex, bit, hbit, hset⟩
    obtain ⟨hfirst, hfinal, -⟩ := (mem_rangeWords _ _ _ _).mp hindex
    obtain ⟨hrange, hword⟩ := (testBit_rangeBits hfirst hfinal hbit _).mp hset
    refine ⟨32 * index + bit, hrange, ?_⟩
    rw [← mask.test_mul_add index hbit] at hword
    exact_mod_cast hword
  · rintro ⟨position, hrange, hset⟩
    have hbounds := Mask.test_bounds hset
    have hposition : 32 * (position / 32) + position % 32 = position := Nat.div_add_mod _ _
    have hbit : position % 32 < 32 := Nat.mod_lt _ (by decide)
    refine ⟨position / 32, (mem_rangeWords _ _ _ _).mpr ⟨by omega, by omega, by omega⟩,
      position % 32, hbit, ?_⟩
    rw [testBit_rangeBits (by omega) (by omega) hbit, hposition, ← mask.test_mul_add _ hbit]
    refine ⟨hrange, ?_⟩
    rw [← hposition] at hset
    exact_mod_cast hset

/-! ## Either form -/

/-- A range query on a list that holds members finds out whether one of them lies in the range. -/
theorem Holds.meetsRange_eq {posting : Posting} {members : List UInt32} (h : posting.Holds members)
    (first final : UInt32) : posting.meetsRange first final
      = .ok (decide (first ≤ final ∧ ∃ member ∈ members, first ≤ member ∧ member ≤ final)) := by
  unfold meetsRange
  by_cases hempty : final < first
  · rw [if_pos hempty, decide_eq_false]
    exact fun hrange => absurd hrange.1 (UInt32.not_le.mpr hempty)
  · have hle : first ≤ final := UInt32.not_lt.mp hempty
    simp only [if_neg hempty, hle, true_and]
    cases posting with
    | sparse list => exact (GapList.laidOut_of_ofMembers h.2).meetsRange_eq first final
    | dense mask =>
      have hmask : mask.Holds members := h.2
      refine congrArg Except.ok (Bool.eq_iff_iff.mpr ?_)
      rw [maskMeetsRange_iff, decide_eq_true_iff]
      constructor
      · rintro ⟨position, ⟨hfirst, hfinal⟩, hset⟩
        obtain ⟨member, hmember, hposition⟩ := (hmask position).mp hset
        rw [Int.natCast_inj] at hposition
        subst hposition
        exact ⟨member, hmember, hfirst, hfinal⟩
      · rintro ⟨member, hmember, hfirst, hfinal⟩
        exact ⟨member.toNat, ⟨hfirst, hfinal⟩, (hmask member.toNat).mpr ⟨member, hmember, rfl⟩⟩

/-- The lists that have 32-bit members: sparse lists to which ascending members were pushed, and
masks of which 32 bits hold every position. -/
def Readable : Posting → Prop
  | .sparse list => ∃ members, GapList.ofMembers members = .ok list
  | .dense mask => mask.size ≤ 2 ^ 27

/-- A list with 32-bit members holds them. -/
theorem Readable.exists_holds {posting : Posting} (h : posting.Readable) :
    ∃ members, posting.Holds members := by
  cases posting with
  | sparse list =>
    obtain ⟨members, hlist⟩ := h
    exact ⟨members, (GapList.laidOut_of_ofMembers hlist).ascending, hlist⟩
  | dense mask => exact ⟨mask.members, Mask.members_ascending h, Mask.holds_members h⟩

/-- Range queries agree with the members that a list reads as, in either form and for any range: an
absent list meets none, any other list one that has a member of the list from its first to its final
value. The words that are read of a mask are there, wherever the range lies. -/
theorem rangeMeets_agrees_with_members (first final : UInt32) :
    rangeMeets none first final = .ok false
      ∧ ∀ posting : Posting, posting.Readable → ∃ members, posting.members = .ok members
        ∧ posting.meetsRange first final
          = .ok (decide (first ≤ final ∧ ∃ member ∈ members, first ≤ member ∧ member ≤ final))
        ∧ rangeMeets (some posting) first final = posting.meetsRange first final
        ∧ ∀ mask, posting = .dense mask →
          ∀ index ∈ rangeWords mask first.toNat final.toNat, index < mask.size := by
  refine ⟨rfl, fun posting hreadable => ?_⟩
  obtain ⟨members, h⟩ := hreadable.exists_holds
  refine ⟨members, h.members_eq, h.meetsRange_eq first final, rfl, fun mask _ index hindex => ?_⟩
  exact ((mem_rangeWords _ _ _ _).mp hindex).2.2

/-- Between two members of a mask, from the first bit of a word on. -/
theorem rangeMeets_agrees_between_words :
    Readable (.dense ⟨#[0x80000008, 0x40]⟩)
      ∧ members (.dense ⟨#[0x80000008, 0x40]⟩) = .ok [3, 31, 38]
      ∧ rangeMeets (some (.dense ⟨#[0x80000008, 0x40]⟩)) 32 37 = .ok false := by
  have hreadable : Readable (.dense ⟨#[0x80000008, 0x40]⟩) :=
    show 2 ≤ 2 ^ 27 by decide
  have hmembers : members (.dense ⟨#[0x80000008, 0x40]⟩) = .ok [3, 31, 38] := by rfl
  obtain ⟨found, hfound, hmeets, hsome, -⟩ :=
    (rangeMeets_agrees_with_members 32 37).2 _ hreadable
  rw [hmembers] at hfound
  cases hfound
  exact ⟨hreadable, hmembers, hsome.trans (hmeets.trans (by decide))⟩

end Concordance.Posting
