import Concordance.Posting.Merge
import Concordance.Proofs.Mask.Shifting

/-!
# Members of intersections and unions under a shift

Every kernel is described by the members of its result: the list kernels as lists
(`intersectLists_eq`, `streamLists_eq`, `mergeLists_ascending`, `mem_uniteLists`), the mask kernels
by the positions that are set (`test_intersectMasks`, `test_uniteMasks`, `test_addMembers`). The
list kernels need ascending operands; the mask kernels work at any distance and with masks of any
two lengths.

The stream passes over filter members that are too small for a candidate, and these are too small
for all later candidates as well. On ascending lists it finds what the merge finds
(`streamLists_eq_intersectLists`).
-/

namespace Concordance.Merge

/-! ## Intersections -/

/-- In an ascending list, what cannot match the first member's target matches none of the later
ones. -/
theorem not_matched_of_lt {offset : Int} {a b : UInt32} {second : List UInt32}
    (hasc : (b :: second).Pairwise (· < ·)) (h : (a.toNat : Int) < b.toNat + offset) :
    ¬ ∃ other ∈ b :: second, (other.toNat : Int) = a.toNat - offset := by
  rintro ⟨other, hother, heq⟩
  rcases List.mem_cons.mp hother with rfl | hmem
  · omega
  · have hlt : b.toNat < other.toNat := (List.pairwise_cons.mp hasc).1 other hmem
    omega

/-- A member of the second list below the target of a member of the first matches neither it nor any
later member of the first. -/
theorem matched_cons_iff {offset : Int} {b : UInt32} {second : List UInt32} {x : UInt32}
    (h : (b.toNat : Int) + offset < x.toNat) :
    (∃ other ∈ b :: second, (other.toNat : Int) = x.toNat - offset)
      ↔ ∃ other ∈ second, (other.toNat : Int) = x.toNat - offset := by
  constructor
  · rintro ⟨other, hother, heq⟩
    rcases List.mem_cons.mp hother with rfl | hmem
    · omega
    · exact ⟨other, hmem, heq⟩
  · rintro ⟨other, hother, heq⟩
    exact ⟨other, List.mem_cons_of_mem _ hother, heq⟩

/-- The merge of two ascending lists keeps the members of the first that the second has at their
offset. -/
theorem intersectLists_eq (offset : Int) (first second : List UInt32)
    (hfirst : first.Pairwise (· < ·)) (hsecond : second.Pairwise (· < ·)) :
    intersectLists offset first second = first.filter fun member =>
      ∃ other ∈ second, (other.toNat : Int) = member.toNat - offset := by
  -- the cases are those of the merge: the target of the first member is below, above or at the
  -- second
  induction first, second using intersectLists.induct offset with
  | case1 second => rw [intersectLists, List.filter_nil]
  | case2 first hne =>
    rw [intersectLists]
    · simp
    · exact hne
  | case3 a first b second target hlt ih =>
    rw [intersectLists, if_pos hlt, ih (List.pairwise_cons.mp hfirst).2 hsecond,
      List.filter_cons_of_neg (by simpa using not_matched_of_lt hsecond hlt)]
  | case4 a first b second target hle hlt ih =>
    rw [intersectLists, if_neg hle, if_pos hlt, ih hfirst (List.pairwise_cons.mp hsecond).2]
    refine List.filter_congr fun x hx => decide_eq_decide.mpr (matched_cons_iff ?_).symm
    rcases List.mem_cons.mp hx with rfl | hmem
    · exact hlt
    · have hax : a.toNat < x.toNat := (List.pairwise_cons.mp hfirst).1 x hmem
      omega
  | case5 a first b second target hle hge ih =>
    have hmatched : decide (∃ other ∈ b :: second, (other.toNat : Int) = a.toNat - offset) = true :=
      decide_eq_true ⟨b, List.mem_cons_self, by omega⟩
    rw [intersectLists, if_neg hle, if_neg hge,
      ih (List.pairwise_cons.mp hfirst).2 (List.pairwise_cons.mp hsecond).2, List.filter_cons,
      if_pos hmatched]
    refine congrArg (a :: ·) (List.filter_congr fun x hx =>
      decide_eq_decide.mpr (matched_cons_iff ?_).symm)
    have hax : a.toNat < x.toNat := (List.pairwise_cons.mp hfirst).1 x hx
    omega

/-! ## Streaming -/

/-- What is dropped from the front of an ascending list are exactly the members below a number. -/
theorem mem_dropWhile_lt (low : Int) {list : List UInt32} (h : list.Pairwise (· < ·))
    (value : UInt32) : value ∈ list.dropWhile (fun member => decide ((member.toNat : Int) < low))
      ↔ value ∈ list ∧ low ≤ value.toNat := by
  induction list with
  | nil => simp
  | cons member list ih =>
    obtain ⟨hfirst, hrest⟩ := List.pairwise_cons.mp h
    by_cases hlt : (member.toNat : Int) < low
    · rw [List.dropWhile_cons, if_pos (decide_eq_true hlt), ih hrest, List.mem_cons]
      constructor
      · rintro ⟨hmem, hle⟩
        exact ⟨.inr hmem, hle⟩
      · rintro ⟨rfl | hmem, hle⟩
        · omega
        · exact ⟨hmem, hle⟩
    · rw [List.dropWhile_cons, if_neg (by simpa using hlt)]
      refine ⟨fun hmem => ⟨hmem, ?_⟩, And.left⟩
      rcases List.mem_cons.mp hmem with rfl | hmem
      · omega
      · have hlt' : member.toNat < value.toNat := hfirst value hmem
        omega

/-- Filter members below a candidate's target may be passed over: neither it nor a later candidate
matches one of them. -/
theorem filter_matched_dropWhile {offset : Int} {candidate : UInt32} {candidates list : List UInt32}
    (hcandidates : (candidate :: candidates).Pairwise (· < ·)) (hlist : list.Pairwise (· < ·)) :
    ((candidate :: candidates).filter fun x =>
        ∃ other ∈ list, (other.toNat : Int) = x.toNat - offset)
      = (candidate :: candidates).filter fun x =>
        ∃ other ∈ list.dropWhile (fun member : UInt32 =>
          decide ((member.toNat : Int) < (candidate.toNat : Int) - offset)),
          (other.toNat : Int) = x.toNat - offset := by
  refine List.filter_congr fun x hx => decide_eq_decide.mpr (exists_congr fun other => ?_)
  have hle : candidate.toNat ≤ x.toNat := by
    rcases List.mem_cons.mp hx with rfl | hmem
    · exact Nat.le_refl _
    · exact Nat.le_of_lt ((List.pairwise_cons.mp hcandidates).1 x hmem)
  rw [mem_dropWhile_lt _ hlist]
  constructor
  · rintro ⟨hmem, heq⟩
    exact ⟨⟨hmem, by omega⟩, heq⟩
  · rintro ⟨⟨hmem, _⟩, heq⟩
    exact ⟨hmem, heq⟩

/-- In an ascending list without members below a target, the first one decides whether the target is
in the list. -/
theorem matched_head_iff {target : Int} {member : UInt32} {later : List UInt32}
    (hasc : (member :: later).Pairwise (· < ·)) (hle : target ≤ member.toNat) :
    (∃ other ∈ member :: later, (other.toNat : Int) = target) ↔ (member.toNat : Int) = target := by
  constructor
  · rintro ⟨other, hother, heq⟩
    rcases List.mem_cons.mp hother with rfl | hmem
    · exact heq
    · have hlt : member.toNat < other.toNat := (List.pairwise_cons.mp hasc).1 other hmem
      omega
  · intro heq
    exact ⟨member, List.mem_cons_self, heq⟩

/-- The stream keeps the candidates that the filter has at their offset. -/
theorem streamLists_eq (offset : Int) (candidates list : List UInt32)
    (hcandidates : candidates.Pairwise (· < ·)) (hlist : list.Pairwise (· < ·)) :
    streamLists offset candidates list = candidates.filter fun member =>
      ∃ other ∈ list, (other.toNat : Int) = member.toNat - offset := by
  -- the list loses only members that are too small for all candidates still to come
  induction candidates generalizing list with
  | nil => rfl
  | cons candidate candidates ih =>
    have hrest := (List.pairwise_cons.mp hcandidates).2
    have hleft := hlist.sublist (List.dropWhile_sublist fun member : UInt32 =>
      decide ((member.toNat : Int) < (candidate.toNat : Int) - offset))
    have hlow := fun member hmember => ((mem_dropWhile_lt
      ((candidate.toNat : Int) - offset) hlist member).mp hmember).2
    rw [filter_matched_dropWhile hcandidates hlist, streamLists]
    generalize (list.dropWhile fun member =>
      decide ((member.toNat : Int) < (candidate.toNat : Int) - offset)) = left at hleft hlow
    cases left with
    | nil =>
      refine (List.filter_eq_nil_iff.mpr fun x _ => ?_).symm
      simp
    | cons member later =>
      have hiff := matched_head_iff hleft (hlow member List.mem_cons_self)
      show (if (member.toNat : Int) = candidate.toNat - offset then _ else _) = _
      rw [List.filter_cons, ih _ hrest hleft]
      by_cases heq : (member.toNat : Int) = candidate.toNat - offset
      · rw [if_pos heq, if_pos (decide_eq_true (hiff.mpr heq))]
      · rw [if_neg heq, if_neg (by simpa using mt hiff.mp heq)]

/-- On ascending lists the stream finds what the merge finds. -/
theorem streamLists_eq_intersectLists (offset : Int) (first second : List UInt32)
    (hfirst : first.Pairwise (· < ·)) (hsecond : second.Pairwise (· < ·)) :
    streamLists offset first second = intersectLists offset first second := by
  rw [streamLists_eq offset first second hfirst hsecond,
    intersectLists_eq offset first second hfirst hsecond]

/-! ## Masks and lists -/

/-- The members of a list that the mask has, moved into the frame of the mask. -/
theorem maskedMembers_eq (offset : Int) (mask : Mask) (list : List UInt32) :
    maskedMembers offset mask list
      = (list.filter fun member => mask.test (member.toNat + offset)).map
        fun member => UInt32.ofNat ((member.toNat : Int) + offset).toNat := by
  rw [maskedMembers, List.filter_map, List.map_map]
  rfl

/-- A mask has at most all members of a list. -/
theorem length_maskedMembers_le (offset : Int) (mask : Mask) (list : List UInt32) :
    (maskedMembers offset mask list).length ≤ list.length := by
  rw [maskedMembers_eq, List.length_map]
  exact List.length_filter_le _ _

/-- Moved into the frame of the mask and back, a member is the same again, also where the position
in between has wrapped around. -/
theorem moved_back (offset : Int) {member : UInt32} (h : 0 ≤ (member.toNat : Int) - offset) :
    UInt32.ofInt (((UInt32.ofNat ((member.toNat : Int) + -offset).toNat).toNat : Int) + offset)
      = member := by
  have hlt := member.toNat_lt
  refine UInt32.toNat_inj.mp ?_
  rw [UInt32.ofInt, UInt32.toNat_ofNat', UInt32.toNat_ofNat']
  omega

/-- Looking members up in a mask and moving them back keeps those that the mask has at their
offset. -/
theorem map_maskedMembers (offset : Int) (mask : Mask) (list : List UInt32) :
    (maskedMembers (-offset) mask list).map
        (fun position => UInt32.ofInt ((position.toNat : Int) + offset))
      = list.filter fun member => mask.test (member.toNat - offset) := by
  rw [maskedMembers_eq, List.map_map]
  refine (List.map_congr_left fun member hmember => ?_).trans (List.map_id _)
  have htest := (List.mem_filter.mp hmember).2
  exact moved_back offset (Mask.test_bounds htest).1

/-- The positions of a list's members in a mask, in ascending order. -/
theorem maskedMembers_ascending {offset : Int} {mask : Mask} {members list : List UInt32}
    (hmask : mask.Holds members) (hlist : list.Pairwise (· < ·)) :
    (maskedMembers offset mask list).Pairwise (· < ·) := by
  rw [maskedMembers_eq, List.pairwise_map]
  refine (hlist.filter _).imp_of_mem ?_
  intro a b ha hb hab
  obtain ⟨x, _, hx⟩ := (hmask _).mp (List.mem_filter.mp ha).2
  obtain ⟨y, _, hy⟩ := (hmask _).mp (List.mem_filter.mp hb).2
  have hlt : a.toNat < b.toNat := hab
  rw [← hx, ← hy, Int.toNat_natCast, Int.toNat_natCast, UInt32.ofNat_toNat, UInt32.ofNat_toNat]
  show x.toNat < y.toNat
  omega

/-- Looking a list up in a mask gives the mask's members that the list has at their offset. -/
theorem mem_maskedMembers {offset : Int} {mask : Mask} {members list : List UInt32}
    (hmask : mask.Holds members) (value : UInt32) :
    value ∈ maskedMembers offset mask list
      ↔ value ∈ members ∧ ∃ other ∈ list, (other.toNat : Int) = value.toNat - offset := by
  rw [maskedMembers_eq, List.mem_map]
  constructor
  · rintro ⟨other, hother, rfl⟩
    obtain ⟨hmem, htest⟩ := List.mem_filter.mp hother
    obtain ⟨member, hmember, heq⟩ := (hmask _).mp htest
    rw [← heq, Int.toNat_natCast, UInt32.ofNat_toNat]
    exact ⟨hmember, other, hmem, by omega⟩
  · rintro ⟨hmember, other, hother, heq⟩
    have hposition : (other.toNat : Int) + offset = value.toNat := by omega
    refine ⟨other, List.mem_filter.mpr ⟨hother, ?_⟩, ?_⟩
    · rw [hposition]
      exact (hmask _).mpr ⟨value, hmember, rfl⟩
    · rw [hposition, Int.toNat_natCast, UInt32.ofNat_toNat]

theorem size_intersectMasks (offset : Int) (first second : Mask) :
    (intersectMasks offset first second).size = first.size := by
  unfold intersectMasks
  split
  case isTrue => exact Mask.size_zeros _
  case isFalse => exact Mask.size_mk_range _ _

/-- Masks whose distance is at least the length of both together have no position in common. -/
theorem not_both_of_far {first second : Mask} {offset position : Int}
    (h : second.size = 0 ∨ (second.size + first.size) * 32 ≤ offset.natAbs) :
    ¬ (first.test position = true ∧ second.test (position - offset) = true) := by
  rintro ⟨hfirst, hsecond⟩
  -- the two positions are in their masks, and as far apart as the offset
  have hin := Mask.test_bounds hfirst
  have hmoved := Mask.test_bounds hsecond
  omega

/-- The intersection of two masks has the positions of the first that the second has at their
offset. -/
theorem test_intersectMasks (offset : Int) (first second : Mask) (position : Int) :
    (intersectMasks offset first second).test position = true
      ↔ first.test position = true ∧ second.test (position - offset) = true := by
  have hbits (h₁ : 0 ≤ position) :
      ((first.word (position / 32).toNat &&& second.shiftedWord (position / 32).toNat offset).toNat
          |>.testBit (position % 32).toNat)
        = (first.test position && second.test (position - offset)) := by
    rw [UInt32.toNat_and, Nat.testBit_and, first.testBit_word_of_nonneg h₁,
      second.testBit_shiftedWord_of_nonneg offset h₁]
  unfold intersectMasks
  by_cases hfar : second.size = 0 ∨ (second.size + first.size) * 32 ≤ offset.natAbs
  · rw [if_pos hfar, Mask.test_zeros]
    exact iff_of_false Bool.false_ne_true (not_both_of_far hfar)
  rw [if_neg hfar, Mask.test_mk_range]
  constructor
  · rintro ⟨h₁, _, h⟩
    rw [hbits h₁] at h
    exact Bool.and_eq_true_iff.mp h
  · rintro ⟨hfirst, hsecond⟩
    have hbounds := Mask.test_bounds hfirst
    refine ⟨hbounds.1, hbounds.2, ?_⟩
    rw [hbits hbounds.1, hfirst, hsecond]
    rfl

/-! ## Unions -/

/-- A moved member, if it still is a 32-bit number. -/
theorem moved_eq_some_iff (offset : Int) (member value : UInt32) :
    moved offset member = some value ↔ (value.toNat : Int) = member.toNat + offset := by
  have hlt := value.toNat_lt
  have hsize : UInt32.size = 2 ^ 32 := rfl
  unfold moved
  by_cases h : 0 ≤ (member.toNat : Int) + offset ∧ (member.toNat : Int) + offset < UInt32.size
  · rw [if_pos h, Option.some.injEq, ← UInt32.toNat_inj, UInt32.toNat_ofNat']
    omega
  · rw [if_neg h]
    simp only [reduceCtorEq, false_iff]
    omega

/-- Moving keeps members in order. -/
theorem filterMap_moved_ascending (offset : Int) {list : List UInt32}
    (h : list.Pairwise (· < ·)) : (list.filterMap (moved offset)).Pairwise (· < ·) := by
  refine List.Pairwise.filterMap _ ?_ h
  intro a b hab x hx y hy
  rw [moved_eq_some_iff] at hx hy
  have hlt : a.toNat < b.toNat := hab
  show x.toNat < y.toNat
  omega

theorem mem_filterMap_moved (offset : Int) (list : List UInt32) (value : UInt32) :
    value ∈ list.filterMap (moved offset)
      ↔ ∃ other ∈ list, (value.toNat : Int) = other.toNat + offset := by
  simp only [List.mem_filterMap, moved_eq_some_iff]

/-- A merge has the members of both lists. -/
theorem mem_mergeLists (first second : List UInt32) (value : UInt32) :
    value ∈ mergeLists first second ↔ value ∈ first ∨ value ∈ second := by
  induction first, second using mergeLists.induct with
  | case1 second => rw [mergeLists]; simp
  | case2 first hne =>
    rw [mergeLists]
    · simp
    · exact hne
  | case3 a first b second hlt ih =>
    rw [mergeLists, if_pos hlt, List.mem_cons, ih]
    simp only [List.mem_cons]
    tauto
  | case4 a first b second hle hlt ih =>
    rw [mergeLists, if_neg hle, if_pos hlt, List.mem_cons, ih]
    simp only [List.mem_cons]
    tauto
  | case5 a first b second hle hge ih =>
    have heq : a = b := UInt32.le_antisymm (UInt32.not_lt.mp hge) (UInt32.not_lt.mp hle)
    rw [mergeLists, if_neg hle, if_neg hge, List.mem_cons, ih, heq]
    simp only [List.mem_cons]
    tauto

/-- The merge of ascending lists is ascending; a common member appears once. -/
theorem mergeLists_ascending (first second : List UInt32)
    (hfirst : first.Pairwise (· < ·)) (hsecond : second.Pairwise (· < ·)) :
    (mergeLists first second).Pairwise (· < ·) := by
  -- what comes first is below everything that is left of both lists
  induction first, second using mergeLists.induct with
  | case1 second => rwa [mergeLists]
  | case2 first hne =>
    rw [mergeLists]
    · exact hfirst
    · exact hne
  | case3 a first b second hlt ih =>
    obtain ⟨ha, hfirst'⟩ := List.pairwise_cons.mp hfirst
    have hb := (List.pairwise_cons.mp hsecond).1
    rw [mergeLists, if_pos hlt]
    refine List.pairwise_cons.mpr ⟨fun x hx => ?_, ih hfirst' hsecond⟩
    rcases (mem_mergeLists _ _ _).mp hx with hx | hx
    · exact ha x hx
    · rcases List.mem_cons.mp hx with rfl | hx
      · exact hlt
      · exact UInt32.lt_trans hlt (hb x hx)
  | case4 a first b second hle hlt ih =>
    have ha := (List.pairwise_cons.mp hfirst).1
    obtain ⟨hb, hsecond'⟩ := List.pairwise_cons.mp hsecond
    rw [mergeLists, if_neg hle, if_pos hlt]
    refine List.pairwise_cons.mpr ⟨fun x hx => ?_, ih hfirst hsecond'⟩
    rcases (mem_mergeLists _ _ _).mp hx with hx | hx
    · rcases List.mem_cons.mp hx with rfl | hx
      · exact hlt
      · exact UInt32.lt_trans hlt (ha x hx)
    · exact hb x hx
  | case5 a first b second hle hge ih =>
    obtain ⟨ha, hfirst'⟩ := List.pairwise_cons.mp hfirst
    obtain ⟨hb, hsecond'⟩ := List.pairwise_cons.mp hsecond
    have heq : a = b := UInt32.le_antisymm (UInt32.not_lt.mp hge) (UInt32.not_lt.mp hle)
    rw [mergeLists, if_neg hle, if_neg hge]
    refine List.pairwise_cons.mpr ⟨fun x hx => ?_, ih hfirst' hsecond'⟩
    rcases (mem_mergeLists _ _ _).mp hx with hx | hx
    · exact ha x hx
    · exact heq ▸ hb x hx

theorem uniteLists_ascending (offset : Int) {first second : List UInt32}
    (hfirst : first.Pairwise (· < ·)) (hsecond : second.Pairwise (· < ·)) :
    (uniteLists offset first second).Pairwise (· < ·) :=
  mergeLists_ascending _ _ hfirst (filterMap_moved_ascending offset hsecond)

/-- A union has the members of the first list and the moved members of the second. -/
theorem mem_uniteLists (offset : Int) (first second : List UInt32) (value : UInt32) :
    value ∈ uniteLists offset first second
      ↔ value ∈ first ∨ ∃ other ∈ second, (value.toNat : Int) = other.toNat + offset := by
  rw [uniteLists, mem_mergeLists, mem_filterMap_moved]

/-- Adding a member sets its position in a mask that grows for it. -/
theorem test_addMember (mask : Mask) (value : UInt32) (position : Int) :
    (addMember mask value).test position = true
      ↔ position = value.toNat ∨ mask.test position = true := by
  rw [addMember, Mask.test_insert, Mask.test_extend]
  rw [Mask.size_extend]
  unfold Mask.wordBits
  omega

/-- Adding members sets their moved positions, as far as these are 32-bit numbers. -/
theorem test_addMembers (offset : Int) (mask : Mask) (list : List UInt32) (position : Int) :
    (addMembers offset mask list).test position = true ↔ mask.test position = true
      ∨ ∃ value ∈ list.filterMap (moved offset), (value.toNat : Int) = position := by
  rw [addMembers]
  induction list.filterMap (moved offset) generalizing mask with
  | nil => simp
  | cons value values ih =>
    rw [List.foldl_cons, ih, test_addMember]
    simp only [List.mem_cons, exists_eq_or_imp]
    rw [eq_comm (a := position), or_assoc, or_left_comm]

/-- The union of two masks has the positions of the first and the moved positions of the second,
except for those that have moved below zero. -/
theorem test_uniteMasks (offset : Int) (first second : Mask) (position : Int) :
    (uniteMasks offset first second).test position = true
      ↔ first.test position = true ∨ (0 ≤ position ∧ second.test (position - offset) = true) := by
  have hbits (h₁ : 0 ≤ position) :
      ((first.word (position / 32).toNat ||| second.shiftedWord (position / 32).toNat offset).toNat
          |>.testBit (position % 32).toNat)
        = (first.test position || second.test (position - offset)) := by
    rw [UInt32.toNat_or, Nat.testBit_or, first.testBit_word_of_nonneg h₁,
      second.testBit_shiftedWord_of_nonneg offset h₁]
  rw [uniteMasks, Mask.test_mk_range]
  constructor
  · rintro ⟨h₁, _, h⟩
    rw [hbits h₁] at h
    exact (Bool.or_eq_true_iff.mp h).imp_right fun h => ⟨h₁, h⟩
  · intro h
    -- a set position of either mask lies in the words of the union
    have hposition : 0 ≤ position
        ∧ position < 32 * (max first.size (movedSize offset second) : Nat) := by
      rcases h with h | ⟨h₁, h⟩
      · have hbounds := Mask.test_bounds h
        exact ⟨hbounds.1, by omega⟩
      · have hbounds := Mask.test_bounds h
        have hmoved : position < 32 * movedSize offset second := by
          unfold movedSize Mask.wordsFor Mask.wordBits
          rw [if_neg (by omega)]
          omega
        exact ⟨h₁, by omega⟩
    refine ⟨hposition.1, hposition.2, ?_⟩
    rw [hbits hposition.1]
    exact Bool.or_eq_true_iff.mpr (h.imp_right And.right)

end Concordance.Merge
