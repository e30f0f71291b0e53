import Concordance.Posting.Kernel
import Concordance.Proofs.Mask.Machine
import Concordance.Proofs.Posting.Pairings

/-!
# Kernels at far offsets

Offsets of up to `2 ^ 53` in either direction are far beyond those between two positions of a query.
No sum of such an offset and a position of a mask of at most `2 ^ 27` words leaves the 64-bit
numbers, so that every operation of `Kernel` is that of `Merge` (`intersectLists_eq`,
`maskedMembers_eq`, `intersectMasks_eq`, `moved_eq`, `uniteMasks_eq`).

The three forms of an intersection and the three forms of a union then tell the same members
(`kernels_agree`).
-/

namespace Concordance

namespace Kernel

/-! ## Numbers of 32 and of 64 bits -/

theorem toInt_widen (value : UInt32) : (widen value).toInt = value.toNat := by
  have hlt := value.toNat_lt
  unfold widen
  rw [← UInt64.ofNat_toNat (x := value.toUInt64), UInt64.toInt64_ofNat', UInt32.toNat_toUInt64]
  exact Int64.toInt_ofNat_of_lt (by omega)

theorem toNat_toUInt64 {position : Int64} (h : 0 ≤ position.toInt) :
    position.toUInt64.toNat = position.toInt.toNat := by
  rw [Int64.toNat_toInt]
  exact Int64.toNat_toUInt64_of_le (Int64.le_iff_toInt_le.mpr h)

/-- A number that is not negative is narrowed to its last 32 bits. -/
theorem narrow_eq {position : Int64} (h : 0 ≤ position.toInt) :
    narrow position = UInt32.ofNat position.toInt.toNat := by
  refine UInt32.toNat_inj.mp ?_
  rw [narrow, UInt64.toNat_toUInt32, toNat_toUInt64 h, UInt32.toNat_ofNat']

theorem toNat_clamp (position : Int64) : (clamp position).toNat = position.toInt.toNat := by
  have h0 : (0 : Int64).toInt = 0 := rfl
  unfold clamp
  by_cases h : position.toInt < 0
  · rw [if_pos (Int64.lt_iff_toInt_lt.mpr h), UInt64.toNat_zero]
    omega
  · rw [if_neg (mt Int64.lt_iff_toInt_lt.mp h), toNat_toUInt64 (not_lt.mp h)]

/-- Rounding up to whole words is the same in 64 bits as without a bound. -/
theorem toNat_wordsFor (positions : UInt64) :
    (wordsFor positions).toNat = Mask.wordsFor positions.toNat := by
  have hlt := positions.toNat_lt
  have h32 : (32 : UInt64).toNat = 32 := rfl
  have h1 : (1 : UInt64).toNat = 1 := rfl
  have hrest : positions % 32 = 0 ↔ positions.toNat % 32 = 0 := by
    rw [← UInt64.toNat_inj, UInt64.toNat_mod, h32, UInt64.toNat_zero]
  unfold wordsFor Mask.wordsFor Mask.wordBits
  by_cases h : positions.toNat % 32 = 0
  · rw [if_pos (hrest.mpr h), UInt64.toNat_div, h32]
    omega
  · rw [if_neg (mt hrest.mp h), UInt64.toNat_add, UInt64.toNat_div, h32, h1]
    omega

/-- Moving a member by a far offset does not wrap around. -/
theorem toInt_widen_add {offset : Int64} (hoffset : |offset.toInt| ≤ 2 ^ 53) (member : UInt32) :
    (widen member + offset).toInt = member.toNat + offset.toInt := by
  have hlt := member.toNat_lt
  have hwide := abs_le.mp hoffset
  rw [Int64.toInt_add, toInt_widen]
  exact Int.bmod_eq_of_le (by omega) (by omega)

section

variable {offset : Int64} (hoffset : |offset.toInt| ≤ 2 ^ 53)

include hoffset

/-! ## Intersections -/

theorem intersectLists_eq (first second : List UInt32) :
    intersectLists offset first second = Merge.intersectLists offset.toInt first second := by
  have hbelow (a b : UInt32) :
      widen a < widen b + offset ↔ (a.toNat : Int) < b.toNat + offset.toInt := by
    rw [Int64.lt_iff_toInt_lt, toInt_widen, toInt_widen_add hoffset]
  have habove (a b : UInt32) :
      widen b + offset < widen a ↔ (b.toNat : Int) + offset.toInt < a.toNat := by
    rw [Int64.lt_iff_toInt_lt, toInt_widen, toInt_widen_add hoffset]
  -- both go through the lists in the same way
  induction first, second using intersectLists.induct offset with
  | case1 second => rw [intersectLists, Merge.intersectLists]
  | case2 first hne =>
    rw [intersectLists, Merge.intersectLists]
    · exact hne
    · exact hne
  | case3 a first b second left right hlt ih =>
    rw [intersectLists, if_pos hlt, ih, Merge.intersectLists, if_pos ((hbelow a b).mp hlt)]
  | case4 a first b second left right hle hlt ih =>
    rw [intersectLists, if_neg hle, if_pos hlt, ih, Merge.intersectLists,
      if_neg (mt (hbelow a b).mpr hle), if_pos ((habove a b).mp hlt)]
  | case5 a first b second left right hle hge ih =>
    rw [intersectLists, if_neg hle, if_neg hge, ih, Merge.intersectLists,
      if_neg (mt (hbelow a b).mpr hle), if_neg (mt (habove a b).mpr hge)]

theorem maskedMembers_eq (mask : Mask) (list : List UInt32) :
    maskedMembers offset mask list = Merge.maskedMembers offset.toInt mask list := by
  have htest : ∀ member : UInt32, mask.testAt (widen member + offset)
      = mask.test (member.toNat + offset.toInt) := fun member => by
    rw [mask.testAt_eq, toInt_widen_add hoffset]
  rw [Merge.maskedMembers_eq, maskedMembers, List.filter_map, List.map_map]
  have hfilter : list.filter (mask.testAt ∘ fun member => widen member + offset)
      = list.filter fun member => mask.test (member.toNat + offset.toInt) :=
    List.filter_congr fun member _ => htest member
  rw [hfilter]
  refine List.map_congr_left fun member hmember => ?_
  -- what the mask has is not negative
  have hpos := (Mask.test_bounds (List.mem_filter.mp hmember).2).1
  have hmoved := toInt_widen_add hoffset member
  show narrow (widen member + offset) = _
  rw [narrow_eq (by rwa [hmoved]), hmoved]

/-- Lengths and far offsets of masks compare in 64 bits as they do without bounds. -/
theorem far_iff {first second : Mask} (hfirst : first.size ≤ 2 ^ 27)
    (hsecond : second.size ≤ 2 ^ 27) :
    (UInt64.ofNat second.size + UInt64.ofNat first.size) * 32 ≤ magnitude offset
      ↔ (second.size + first.size) * 32 ≤ offset.toInt.natAbs := by
  rw [Int.abs_eq_natAbs] at hoffset
  have hmagnitude : (magnitude offset).toNat = offset.toInt.natAbs :=
    UInt64.toNat_ofNat_of_lt' (by unfold UInt64.size; omega)
  have hlength : ((UInt64.ofNat second.size + UInt64.ofNat first.size) * 32).toNat
      = (second.size + first.size) * 32 := by
    rw [UInt64.toNat_mul, UInt64.toNat_add, UInt64.toNat_ofNat_of_lt' (by unfold UInt64.size; omega),
      UInt64.toNat_ofNat_of_lt' (by unfold UInt64.size; omega)]
    show (second.size + first.size) % 2 ^ 64 * 32 % 2 ^ 64 = _
    omega
  rw [UInt64.le_iff_toNat_le, hmagnitude, hlength]

theorem intersectMasks_eq {first second : Mask} (hfirst : first.size ≤ 2 ^ 27)
    (hsecond : second.size ≤ 2 ^ 27) :
    intersectMasks offset first second = Merge.intersectMasks offset.toInt first second := by
  have hfar := or_congr_right (a := second.size = 0) (far_iff hoffset hfirst hsecond)
  unfold intersectMasks Merge.intersectMasks
  by_cases hskip : second.size = 0 ∨ (second.size + first.size) * 32 ≤ offset.toInt.natAbs
  · rw [if_pos hskip, if_pos (hfar.mpr hskip)]
  · rw [if_neg hskip, if_neg (mt hfar.mp hskip)]
    refine congrArg Mask.mk (Array.map_congr_left fun index hindex => ?_)
    have hlt := Array.mem_range.mp hindex
    rw [second.shiftedWordBy_eq (Mask.exact_of_le hoffset (by omega))]

/-! ## Unions -/

/-- A member that has moved far is a 32-bit number in 64 bits if it is one without bounds. -/
theorem moved_eq : moved offset = Merge.moved offset.toInt := by
  funext member
  have hmoved := toInt_widen_add hoffset member
  have hrange : (0 ≤ widen member + offset ∧ widen member + offset ≤ widen 0xFFFFFFFF)
      ↔ 0 ≤ (member.toNat : Int) + offset.toInt
        ∧ (member.toNat : Int) + offset.toInt < UInt32.size := by
    rw [Int64.le_iff_toInt_le, Int64.le_iff_toInt_le, hmoved, toInt_widen]
    show (0 ≤ _ ∧ _ ≤ (4294967295 : Int)) ↔ 0 ≤ _ ∧ _ < (4294967296 : Int)
    omega
  unfold moved narrow? Merge.moved
  by_cases h : 0 ≤ (member.toNat : Int) + offset.toInt
      ∧ (member.toNat : Int) + offset.toInt < UInt32.size
  · rw [if_pos (hrange.mpr h), if_pos h, narrow_eq (by rw [hmoved]; exact h.1), hmoved]
  · rw [if_neg (mt hrange.mp h), if_neg h]

theorem uniteLists_eq (first second : List UInt32) :
    uniteLists offset first second = Merge.uniteLists offset.toInt first second := by
  rw [uniteLists, moved_eq hoffset, Merge.uniteLists]

theorem addMembers_eq (mask : Mask) (list : List UInt32) :
    addMembers offset mask list = Merge.addMembers offset.toInt mask list := by
  rw [addMembers, moved_eq hoffset, Merge.addMembers]

/-- The words that a mask takes after it has moved far. -/
theorem movedSize_eq {mask : Mask} (hsize : mask.size ≤ 2 ^ 27) :
    movedSize offset mask = Mask.wordsFor (32 * (mask.size : Int) + offset.toInt).toNat := by
  have hwide := abs_le.mp hoffset
  have h32 : (32 : Int64).toInt = 32 := rfl
  have hlength : (Int64.ofNat mask.size * 32).toInt = 32 * mask.size := by
    rw [Int64.toInt_mul, Int64.toInt_ofNat_of_lt (by omega), h32, Int.mul_comm]
    exact Int.bmod_eq_of_le (by omega) (by omega)
  have hmoved : (Int64.ofNat mask.size * 32 + offset).toInt = 32 * mask.size + offset.toInt := by
    rw [Int64.toInt_add, hlength]
    exact Int.bmod_eq_of_le (by omega) (by omega)
  rw [movedSize, toNat_wordsFor, toNat_clamp, hmoved]

theorem uniteMasks_eq {first second : Mask} (hfirst : first.size ≤ 2 ^ 27)
    (hsecond : second.size ≤ 2 ^ 27) :
    uniteMasks offset first second = Merge.uniteMasks offset.toInt first second := by
  have hwide := abs_le.mp hoffset
  have hcount : (if second.size = 0 then first.size else max first.size (movedSize offset second))
      = max first.size (Merge.movedSize offset.toInt second) := by
    rw [movedSize_eq hoffset hsecond, Merge.movedSize]
    split
    · exact (Nat.max_zero _).symm
    · rfl
  unfold uniteMasks Merge.uniteMasks
  rw [hcount]
  refine congrArg Mask.mk (Array.map_congr_left fun index hindex => ?_)
  have hlt := Array.mem_range.mp hindex
  have hindex' : index < 2 ^ 57 := by
    unfold Merge.movedSize Mask.wordsFor Mask.wordBits at hlt
    split at hlt
    · omega
    · omega
  rw [second.shiftedWordBy_eq (Mask.exact_of_le hoffset hindex')]

end

/-! ## Agreement -/

section

variable {offset : Int64} {first second : List UInt32} {firstMask secondMask : Mask}

/-- Looking the second list up in the mask of the first gives what the first has of it. -/
theorem maskedMembers_eq_meeting (hoffset : |offset.toInt| ≤ 2 ^ 53)
    (hfirst : first.Pairwise (· < ·)) (hsecond : second.Pairwise (· < ·))
    (hmask : firstMask.Holds first) :
    maskedMembers offset firstMask second = Anchored.meeting offset.toInt first second := by
  rw [maskedMembers_eq hoffset]
  refine List.Pairwise.eq_of_mem_iff (Merge.maskedMembers_ascending hmask hsecond)
    (Anchored.meeting_ascending hfirst) fun value => ?_
  rw [Merge.mem_maskedMembers hmask, Anchored.mem_meeting]

/-- The intersection of two masks holds what their members have in common. -/
theorem intersectMasks_holds (hoffset : |offset.toInt| ≤ 2 ^ 53)
    (hfirst : firstMask.Holds first) (hsecond : secondMask.Holds second)
    (hfirstSize : firstMask.size ≤ 2 ^ 27) (hsecondSize : secondMask.size ≤ 2 ^ 27) :
    (intersectMasks offset firstMask secondMask).Holds
      (Anchored.meeting offset.toInt first second) := by
  intro position
  rw [intersectMasks_eq hoffset hfirstSize hsecondSize, Merge.test_intersectMasks, hfirst, hsecond]
  simp only [Anchored.mem_meeting]
  constructor
  · rintro ⟨⟨member, hmember, rfl⟩, hmeets⟩
    exact ⟨member, ⟨hmember, hmeets⟩, rfl⟩
  · rintro ⟨member, ⟨hmember, hmeets⟩, rfl⟩
    exact ⟨⟨member, hmember, rfl⟩, hmeets⟩

/-- The mask of the first list, with the second one added to it, holds their union. -/
theorem addMembers_holds (hoffset : |offset.toInt| ≤ 2 ^ 53) (hmask : firstMask.Holds first) :
    (addMembers offset firstMask second).Holds (Merge.uniteLists offset.toInt first second) := by
  intro position
  rw [addMembers_eq hoffset, Merge.test_addMembers, hmask position,
    Anchored.exists_mem_uniteLists]
  simp only [Merge.mem_filterMap_moved]

/-- The union of two masks holds the union of their members, if all of these stay 32-bit numbers. -/
theorem uniteMasks_holds (hoffset : |offset.toInt| ≤ 2 ^ 53)
    (hfirst : firstMask.Holds first) (hsecond : secondMask.Holds second)
    (hfirstSize : firstMask.size ≤ 2 ^ 27) (hsecondSize : secondMask.size ≤ 2 ^ 27)
    (hfits : ∀ b ∈ second, (b.toNat : Int) + offset.toInt < 2 ^ 32) :
    (uniteMasks offset firstMask secondMask).Holds
      (Merge.uniteLists offset.toInt first second) := by
  intro position
  rw [uniteMasks_eq hoffset hfirstSize hsecondSize, Merge.test_uniteMasks, hfirst position,
    Anchored.moved_test_iff hsecond hfits, Anchored.exists_mem_uniteLists]

end

/-- At every offset of up to `2 ^ 53`, whatever the lengths of the masks, the three intersections of
two ascending lists, of a mask and a list and of two masks all give the members of the first that
the second has at the offset, and the mask keeps its number of words. The three unions all give the
ascending list of the first members and the moved second ones that are 32-bit numbers; that of two
masks does as long as no member moves beyond the 32-bit numbers. -/
theorem kernels_agree (first second : List UInt32) (firstMask secondMask : Mask) (offset : Int64)
    (hfirst : first.Pairwise (· < ·)) (hsecond : second.Pairwise (· < ·))
    (hfirstMask : firstMask.Holds first) (hsecondMask : secondMask.Holds second)
    (hfirstSize : firstMask.size ≤ 2 ^ 27) (hsecondSize : secondMask.size ≤ 2 ^ 27)
    (hoffset : |offset.toInt| ≤ 2 ^ 53) :
    let meeting := first.filter fun a =>
      ∃ b ∈ second, (b.toNat : Int) = a.toNat - offset.toInt
    (intersectLists offset first second = meeting
        ∧ maskedMembers offset firstMask second = meeting
        ∧ (intersectMasks offset firstMask secondMask).members = meeting
        ∧ (intersectMasks offset firstMask secondMask).size = firstMask.size)
      ∧ ∃ united : List UInt32, united.Pairwise (· < ·)
        ∧ (∀ value, value ∈ united
          ↔ value ∈ first ∨ ∃ b ∈ second, (value.toNat : Int) = b.toNat + offset.toInt)
        ∧ uniteLists offset first second = united
        ∧ (addMembers offset firstMask second).members = united
        ∧ ((∀ b ∈ second, (b.toNat : Int) + offset.toInt < 2 ^ 32) →
          (uniteMasks offset firstMask secondMask).members = united) := by
  intro meeting
  have hmeeting : meeting.Pairwise (· < ·) := Anchored.meeting_ascending hfirst
  have hunited := Merge.uniteLists_ascending offset.toInt hfirst hsecond
  refine ⟨⟨?_, ?_, ?_, ?_⟩, Merge.uniteLists offset.toInt first second, hunited, ?_, ?_, ?_, ?_⟩
  · rw [intersectLists_eq hoffset, Merge.intersectLists_eq _ _ _ hfirst hsecond]
  · exact maskedMembers_eq_meeting hoffset hfirst hsecond hfirstMask
  · exact (intersectMasks_holds hoffset hfirstMask hsecondMask hfirstSize hsecondSize).members_eq
      hmeeting
  · rw [intersectMasks_eq hoffset hfirstSize hsecondSize, Merge.size_intersectMasks]
  · exact fun value => Merge.mem_uniteLists offset.toInt first second value
  · exact uniteLists_eq hoffset first second
  · exact (addMembers_holds hoffset hfirstMask).members_eq hunited
  · exact fun hfits => (uniteMasks_holds hoffset hfirstMask hsecondMask hfirstSize hsecondSize
      hfits).members_eq hunited

/-- Members 8 and 40 with 1 and 48 that move down by more than a word: 1 falls below zero, and 48
meets 8. -/
theorem kernels_agree_downward :
    let first := Mask.mk #[0x100, 0x100]
    let second := Mask.mk #[2, 0x10000]
    first.Holds [8, 40] ∧ second.Holds [1, 48] ∧ |(-40 : Int64).toInt| ≤ 2 ^ 53
      ∧ (intersectLists (-40) [8, 40] [1, 48] = [8] ∧ maskedMembers (-40) first [1, 48] = [8]
        ∧ (intersectMasks (-40) first second).members = [8]
        ∧ (intersectMasks (-40) first second).size = 2)
      ∧ ∃ united : List UInt32, united.Pairwise (· < ·)
        ∧ (∀ value, value ∈ united
          ↔ value ∈ [(8 : UInt32), 40] ∨ ∃ b ∈ [(1 : UInt32), 48], (value.toNat : Int) = b.toNat - 40)
        ∧ uniteLists (-40) [8, 40] [1, 48] = united
        ∧ (addMembers (-40) first [1, 48]).members = united
        ∧ (uniteMasks (-40) first second).members = united := by
  intro first second
  have hmade : Mask.ofMembers [8, 40] 64 = .ok first := by decide
  have hfirst : first.Holds [8, 40] := (Mask.holds_of_ofMembers hmade).1
  have hmadeSecond : Mask.ofMembers [1, 48] 64 = .ok second := by decide
  have hsecond : second.Holds [1, 48] := (Mask.holds_of_ofMembers hmadeSecond).1
  have hoffset : |(-40 : Int64).toInt| ≤ 2 ^ 53 := by decide
  have hfits : ∀ b ∈ [(1 : UInt32), 48], (b.toNat : Int) + (-40 : Int64).toInt < 2 ^ 32 := by
    rw [List.forall_mem_cons, List.forall_mem_singleton]
    decide
  obtain ⟨⟨hlists, hmasked, hmasks, hsize⟩, united, hasc, hmem, hunite, hadded, hunited⟩ :=
    kernels_agree [8, 40] [1, 48] first second (-40) (by decide) (by decide) hfirst hsecond
      (by decide) (by decide) hoffset
  have hmeeting : ([(8 : UInt32), 40].filter fun a =>
      ∃ b ∈ [(1 : UInt32), 48], (b.toNat : Int) = a.toNat - (-40 : Int64).toInt) = [8] := by
    decide
  rw [hmeeting] at hlists hmasked hmasks
  exact ⟨hfirst, hsecond, hoffset, ⟨hlists, hmasked, hmasks, hsize⟩, united, hasc, hmem, hunite,
    hadded, hunited hfits⟩

end Kernel

end Concordance
