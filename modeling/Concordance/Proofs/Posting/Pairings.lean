import Concordance.Posting.Anchored
import Concordance.Proofs.Posting.Holds
import Concordance.Proofs.Posting.Merge

/-!
# Intersections and unions of anchored lists

Two anchored lists combine to the same members in each of the four pairings of forms. The members of
an intersection are the candidates that the filter has at their offset (`intersect_decodes`); those
of a union are the candidates and the moved filter members (`unite_decodes`).

Each pairing runs a different kernel, so there is one lemma for each. A dense filter is described by
its look-ups alone (`intersect_dense`), because a smeared filter may have positions that no 32-bit
number says.
-/

namespace Concordance.Anchored

variable {candidates filter : Anchored} {c f : List UInt32}

/-! ## Results -/

/-- A combination succeeds with a list at the given position that stands for `members`, in the given
form. -/
def Yields (result : Except ContractViolation Anchored) (position : UInt32)
    (members : List UInt32) (isDense : Bool) : Prop :=
  ∃ anchored, result = .ok anchored ∧ anchored.position = position
    ∧ anchored.posting.Holds members ∧ anchored.posting.isDense = isDense

/-- Ascending members make a sparse result, if 32 bits say how many they are. -/
theorem yields_sparse (candidates : Anchored) {members : List UInt32}
    (hasc : members.Pairwise (· < ·)) (hlength : members.length < UInt32.size) :
    Yields (do
      let posting ← Posting.ofMembersSparse members
      return candidates.withPosting posting) candidates.position members false := by
  obtain ⟨posting, hposting, hholds, hform⟩ := Posting.exists_ofMembersSparse hasc hlength
  refine ⟨candidates.withPosting posting, ?_, rfl, hholds, hform⟩
  rw [hposting]
  rfl

/-- A mask that holds ascending members makes a dense result. -/
theorem yields_dense (candidates : Anchored) {mask : Mask} {members : List UInt32}
    (h : members.Pairwise (· < ·)) (hmask : mask.Holds members) :
    Yields (.ok (candidates.withPosting (.dense mask))) candidates.position members true :=
  ⟨_, rfl, rfl, ⟨h, hmask⟩, rfl⟩

/-! ## Intersections -/

/-- The members of the first list that the second has at their offset. -/
def meeting (offset : Int) (first second : List UInt32) : List UInt32 :=
  first.filter fun member => ∃ other ∈ second, (other.toNat : Int) = member.toNat - offset

theorem mem_meeting (offset : Int) (first second : List UInt32) (value : UInt32) :
    value ∈ meeting offset first second
      ↔ value ∈ first ∧ ∃ other ∈ second, (other.toNat : Int) = value.toNat - offset := by
  rw [meeting, List.mem_filter, decide_eq_true_eq]

theorem meeting_ascending {offset : Int} {first second : List UInt32}
    (h : first.Pairwise (· < ·)) : (meeting offset first second).Pairwise (· < ·) :=
  h.filter _

/-- A dense filter keeps the candidates whose positions it has, whatever else it has. -/
theorem intersect_dense (hc : candidates.posting.Holds c) (mask : Mask) :
    Yields (candidates.intersect (filter.withPosting (.dense mask))) candidates.position
      (c.filter fun member => mask.test (member.toNat - candidates.offset filter))
      candidates.posting.isDense := by
  have hoffset : candidates.offset (filter.withPosting (.dense mask))
      = candidates.offset filter := rfl
  unfold intersect
  rw [hoffset]
  cases hform : candidates.posting with
  | sparse list =>
    rw [hform] at hc
    have hmembers : list.members = .ok c := hc.members_eq
    -- the candidates are moved into the frame of the mask and back
    simp only [withPosting, hmembers]
    show Yields (do
      let posting ← Posting.ofMembersSparse ((Merge.maskedMembers (-_) mask c).map _)
      return candidates.withPosting posting) _ _ _
    rw [Merge.map_maskedMembers]
    exact yields_sparse candidates (hc.ascending.filter _)
      (Nat.lt_of_le_of_lt (List.length_filter_le _ _) hc.length_lt)
  | dense own =>
    rw [hform] at hc
    refine yields_dense candidates (hc.ascending.filter _) fun position => ?_
    rw [Merge.test_intersectMasks, hc.2 position]
    simp only [List.mem_filter]
    constructor
    · rintro ⟨⟨member, hmember, rfl⟩, htest⟩
      exact ⟨member, ⟨hmember, htest⟩, rfl⟩
    · rintro ⟨member, ⟨hmember, htest⟩, rfl⟩
      exact ⟨⟨member, hmember, rfl⟩, htest⟩

/-- Among candidates, looking them up in a mask that holds the filter's members is matching them
against these members. -/
theorem filter_test_eq_meeting {mask : Mask} (hmask : mask.Holds f) (offset : Int) :
    (c.filter fun member => mask.test (member.toNat - offset)) = meeting offset c f := by
  refine List.filter_congr fun member _ => ?_
  rw [Bool.eq_iff_iff, hmask, decide_eq_true_eq]

/-- The intersection in each pairing of forms. -/
theorem intersect_yields (hc : candidates.posting.Holds c) (hf : filter.posting.Holds f) :
    Yields (candidates.intersect filter) candidates.position
      (meeting (candidates.offset filter) c f)
      (candidates.posting.isDense && filter.posting.isDense) := by
  cases hfilter : filter.posting with
  | dense mask =>
    rw [hfilter] at hf
    have hsame : filter = filter.withPosting (.dense mask) := by
      rw [← hfilter]
      rfl
    rw [← filter_test_eq_meeting hf.2, hsame, Posting.isDense, Bool.and_true]
    exact intersect_dense hc mask
  | sparse list =>
    rw [hfilter] at hf
    have hmembers : list.members = .ok f := hf.members_eq
    unfold intersect
    rw [Posting.isDense, Bool.and_false]
    cases hform : candidates.posting with
    | sparse own =>
      rw [hform] at hc
      have hown : own.members = .ok c := hc.members_eq
      simp only [hfilter, hmembers, hown]
      show Yields (do
        let posting ← Posting.ofMembersSparse (Merge.streamLists _ c f)
        return candidates.withPosting posting) _ _ _
      rw [Merge.streamLists_eq _ _ _ hc.ascending hf.ascending]
      exact yields_sparse candidates (meeting_ascending hc.ascending)
        (Nat.lt_of_le_of_lt (List.length_filter_le _ _) hc.length_lt)
    | dense own =>
      rw [hform] at hc
      have hown : own.Holds c := hc.2
      -- the positions come in the order of the filter, which is that of the candidates
      have heq : Merge.maskedMembers (candidates.offset filter) own f
          = meeting (candidates.offset filter) c f :=
        List.Pairwise.eq_of_mem_iff (Merge.maskedMembers_ascending hown hf.ascending)
          (meeting_ascending hc.ascending) fun value => by
            rw [Merge.mem_maskedMembers hown, mem_meeting]
      simp only [hfilter, hmembers]
      show Yields (do
        let posting ← Posting.ofMembersSparse (Merge.maskedMembers _ own f)
        return candidates.withPosting posting) _ _ _
      have hlength := Merge.length_maskedMembers_le (candidates.offset filter) own f
      rw [heq] at hlength ⊢
      exact yields_sparse candidates (meeting_ascending hc.ascending)
        (Nat.lt_of_le_of_lt hlength hf.length_lt)

/-- Intersecting succeeds and decodes to the candidates that the filter has at their offset,
whatever the forms of the two lists and the lengths of their masks. The result stays at the position
of the candidates and is dense if both lists are. -/
theorem intersect_decodes (candidates filter : Anchored) (c f : List UInt32)
    (hc : candidates.posting.Holds c) (hf : filter.posting.Holds f) :
    let members := c.filter fun member =>
      ∃ other ∈ f, (other.toNat : Int) = member.toNat - candidates.offset filter
    ∃ result, candidates.intersect filter = .ok result
      ∧ result.position = candidates.position
      ∧ result.posting.members = .ok members ∧ members.Pairwise (· < ·)
      ∧ result.posting.isDense = (candidates.posting.isDense && filter.posting.isDense) := by
  obtain ⟨result, hok, hposition, hholds, hform⟩ := intersect_yields hc hf
  exact ⟨result, hok, hposition, hholds.members_eq, hholds.ascending, hform⟩

/-- A sparse list of 3 and 9 meets a mask of 1 and 8 that stands two positions before it. -/
theorem intersect_decodes_sparse_dense :
    let candidates : Anchored := ⟨.sparse ⟨2, #[3], #[0], #[6], some 9⟩, 3⟩
    let filter : Anchored := ⟨.dense ⟨#[258]⟩, 1⟩
    candidates.posting.Holds [3, 9] ∧ filter.posting.Holds [1, 8]
      ∧ ∃ result, candidates.intersect filter = .ok result ∧ result.position = 3
        ∧ result.posting.members = .ok [3] ∧ [(3 : UInt32)].Pairwise (· < ·)
        ∧ result.posting.isDense = false := by
  intro candidates filter
  have hc : candidates.posting.Holds [3, 9] := ⟨by decide, by cbv⟩
  have hmask : Mask.ofMembers [1, 8] 9 = .ok ⟨#[258]⟩ := by decide
  have hf : filter.posting.Holds [1, 8] := ⟨by decide, (Mask.holds_of_ofMembers hmask).1⟩
  exact ⟨hc, hf, intersect_decodes candidates filter [3, 9] [1, 8] hc hf⟩

/-! ## Unions -/

/-- The numbers that 32 bits say. -/
theorem exists_toNat_eq {position : Int} (hpos : 0 ≤ position) (hlt : position < UInt32.size) :
    ∃ value : UInt32, (value.toNat : Int) = position := by
  refine ⟨UInt32.ofNat position.toNat, ?_⟩
  rw [UInt32.toNat_ofNat_of_lt' (by omega), Int.toNat_of_nonneg hpos]

/-- The moved positions of a mask as members, if none of them is too great for 32 bits. -/
theorem moved_test_iff {mask : Mask} (hmask : mask.Holds f) {offset : Int}
    (hfits : ∀ other ∈ f, (other.toNat : Int) + offset < UInt32.size) (position : Int) :
    (0 ≤ position ∧ mask.test (position - offset) = true)
      ↔ ∃ value : UInt32, (∃ other ∈ f, (value.toNat : Int) = other.toNat + offset)
        ∧ (value.toNat : Int) = position := by
  rw [hmask]
  constructor
  · rintro ⟨hpos, other, hother, heq⟩
    have hlt := hfits other hother
    obtain ⟨value, hvalue⟩ := exists_toNat_eq hpos (by omega)
    exact ⟨value, ⟨other, hother, by omega⟩, hvalue⟩
  · rintro ⟨value, ⟨other, hother, heq⟩, rfl⟩
    exact ⟨Int.natCast_nonneg _, other, hother, by omega⟩

/-- The members of a union are those of the first list and the moved ones of the second. -/
theorem exists_mem_uniteLists (offset : Int) (first second : List UInt32) (position : Int) :
    (∃ value ∈ Merge.uniteLists offset first second, (value.toNat : Int) = position)
      ↔ (∃ value ∈ first, (value.toNat : Int) = position)
        ∨ ∃ value : UInt32, (∃ other ∈ second, (value.toNat : Int) = other.toNat + offset)
          ∧ (value.toNat : Int) = position := by
  simp only [Merge.mem_uniteLists, or_and_right, exists_or]

/-- Two sparse lists unite to a sparse list, if there is one of all these members. -/
theorem unite_sparse {own list : GapList} (hc : (Posting.sparse own).Holds c)
    (hf : (Posting.sparse list).Holds f) (position other : UInt32) :
    unite ⟨.sparse own, position⟩ ⟨.sparse list, other⟩ = (do
      let posting ← Posting.ofMembersSparse
        (Merge.uniteLists (offset ⟨.sparse own, position⟩ ⟨.sparse list, other⟩) c f)
      return withPosting ⟨.sparse own, position⟩ posting) := by
  have hown : own.members = .ok c := hc.members_eq
  have hmembers : list.members = .ok f := hf.members_eq
  unfold unite
  simp only [hown, hmembers]
  rfl

/-- The union in each pairing of forms. A union of two sparse lists must not be too long for one. -/
theorem unite_yields (hc : candidates.posting.Holds c) (hf : filter.posting.Holds f)
    (hfits : ∀ other ∈ f, (other.toNat : Int) + candidates.offset filter < UInt32.size)
    (hroom : (candidates.posting.isDense || filter.posting.isDense) = false →
      (Merge.uniteLists (candidates.offset filter) c f).length < UInt32.size) :
    Yields (candidates.unite filter) candidates.position
      (Merge.uniteLists (candidates.offset filter) c f)
      (candidates.posting.isDense || filter.posting.isDense) := by
  have hasc := Merge.uniteLists_ascending (candidates.offset filter) hc.ascending hf.ascending
  unfold unite
  cases hform : candidates.posting with
  | sparse own =>
    rw [hform] at hc hroom
    have hown : own.members = .ok c := hc.members_eq
    cases hfilter : filter.posting with
    | sparse list =>
      rw [hfilter] at hf hroom
      have hmembers : list.members = .ok f := hf.members_eq
      simp only [hmembers, hown]
      exact yields_sparse candidates hasc (hroom rfl)
    | dense mask =>
      rw [hfilter] at hf
      -- the moved filter is the mask, and the candidates are added to it
      simp only [hown]
      refine yields_dense candidates hasc fun position => ?_
      rw [Merge.test_addMembers, Merge.test_uniteMasks, Mask.test_zeros,
        moved_test_iff hf.2 hfits, exists_mem_uniteLists]
      simp only [Bool.false_eq_true, false_or, Merge.mem_filterMap_moved, add_zero,
        Int.natCast_inj, UInt32.toNat_inj, exists_eq_right', or_comm]
  | dense own =>
    rw [hform] at hc
    cases hfilter : filter.posting with
    | sparse list =>
      rw [hfilter] at hf
      have hmembers : list.members = .ok f := hf.members_eq
      -- the candidates are the mask, and the moved filter members are added to it
      simp only [hmembers]
      refine yields_dense candidates hasc fun position => ?_
      rw [Merge.test_addMembers, hc.2 position, exists_mem_uniteLists]
      simp only [Merge.mem_filterMap_moved]
    | dense mask =>
      rw [hfilter] at hf
      refine yields_dense candidates hasc fun position => ?_
      rw [Merge.test_uniteMasks, hc.2 position, moved_test_iff hf.2 hfits, exists_mem_uniteLists]

/-- A 32-bit number that neither the candidates nor the moved filter members have is not in their
union. -/
theorem notMem_uniteLists {offset : Int} {value : UInt32} (hc : value ∉ c)
    (hf : ∀ other ∈ f, (other.toNat : Int) + offset ≠ value.toNat) :
    value ∉ Merge.uniteLists offset c f := by
  rw [Merge.mem_uniteLists]
  rintro (hmem | ⟨other, hother, heq⟩)
  · exact hc hmem
  · exact hf other hother heq.symm

/-- Uniting succeeds and decodes to one ascending list of the candidates and the filter members
moved by the offset, whatever the forms of the two lists and the lengths of their masks, as long as
no filter member moves beyond the 32-bit numbers and, of two sparse lists, some 32-bit number is in
neither. Members moved below zero are dropped. The result stays at the position of the candidates
and is sparse if both lists are. -/
theorem unite_decodes (candidates filter : Anchored) (c f : List UInt32)
    (hc : candidates.posting.Holds c) (hf : filter.posting.Holds f)
    (hfits : ∀ other ∈ f, (other.toNat : Int) + candidates.offset filter ≤ 2 ^ 32 - 1)
    (hroom : candidates.posting.isDense = false → filter.posting.isDense = false →
      ∃ value : UInt32, value ∉ c
        ∧ ∀ other ∈ f, (other.toNat : Int) + candidates.offset filter ≠ value.toNat) :
    ∃ result members, candidates.unite filter = .ok result
      ∧ result.position = candidates.position
      ∧ result.posting.members = .ok members ∧ members.Pairwise (· < ·)
      ∧ (∀ position : Int, (∃ member ∈ members, (member.toNat : Int) = position)
        ↔ (∃ member ∈ c, (member.toNat : Int) = position)
          ∨ (0 ≤ position ∧ ∃ other ∈ f, (other.toNat : Int) + candidates.offset filter = position))
      ∧ result.posting.isDense = (candidates.posting.isDense || filter.posting.isDense) := by
  have hfits' : ∀ other ∈ f, (other.toNat : Int) + candidates.offset filter < UInt32.size := by
    intro other hother
    have hle := hfits other hother
    have hsize : UInt32.size = 2 ^ 32 := rfl
    omega
  have hroom' : (candidates.posting.isDense || filter.posting.isDense) = false →
      (Merge.uniteLists (candidates.offset filter) c f).length < UInt32.size := by
    intro hsparse
    obtain ⟨hcandidates, hfilter⟩ := Bool.or_eq_false_iff.mp hsparse
    obtain ⟨value, hvalue, hmoved⟩ := hroom hcandidates hfilter
    exact length_lt_of_notMem (Merge.uniteLists_ascending _ hc.ascending hf.ascending)
      (notMem_uniteLists hvalue hmoved)
  obtain ⟨result, hok, hposition, hholds, hform⟩ := unite_yields hc hf hfits' hroom'
  refine ⟨result, _, hok, hposition, hholds.members_eq, hholds.ascending, fun position => ?_,
    hform⟩
  rw [exists_mem_uniteLists]
  refine or_congr Iff.rfl ⟨?_, ?_⟩
  · rintro ⟨value, ⟨other, hother, heq⟩, rfl⟩
    exact ⟨Int.natCast_nonneg _, other, hother, heq.symm⟩
  · rintro ⟨hpos, other, hother, heq⟩
    have hlt := hfits' other hother
    obtain ⟨value, hvalue⟩ := exists_toNat_eq hpos (by omega)
    exact ⟨value, ⟨other, hother, by omega⟩, hvalue⟩

/-- A mask of 3 and 9 unites with a sparse list of 1 and 8 that moves two positions down: one of its
members falls below zero. Two sparse lists unite as well, for 0 is in neither. -/
theorem unite_decodes_dense_sparse :
    let candidates : Anchored := ⟨.dense ⟨#[520]⟩, 1⟩
    let sparser : Anchored := ⟨.sparse ⟨2, #[3], #[0], #[6], some 9⟩, 1⟩
    let filter : Anchored := ⟨.sparse ⟨2, #[1], #[0], #[7], some 8⟩, 3⟩
    let united : List UInt32 → Prop := fun members =>
      ∀ position : Int, (∃ member ∈ members, (member.toNat : Int) = position)
        ↔ (∃ member ∈ [(3 : UInt32), 9], (member.toNat : Int) = position)
          ∨ (0 ≤ position
            ∧ ∃ other ∈ [(1 : UInt32), 8], (other.toNat : Int) + -2 = position)
    candidates.posting.Holds [3, 9] ∧ sparser.posting.Holds [3, 9] ∧ filter.posting.Holds [1, 8]
      ∧ (∀ other ∈ [(1 : UInt32), 8], (other.toNat : Int) + -2 ≤ 2 ^ 32 - 1)
      ∧ (∃ result members, candidates.unite filter = .ok result ∧ result.position = 1
        ∧ result.posting.members = .ok members ∧ members.Pairwise (· < ·) ∧ united members
        ∧ result.posting.isDense = true)
      ∧ ∃ result members, sparser.unite filter = .ok result ∧ result.position = 1
        ∧ result.posting.members = .ok members ∧ members.Pairwise (· < ·) ∧ united members
        ∧ result.posting.isDense = false := by
  intro candidates sparser filter united
  have hmask : Mask.ofMembers [3, 9] 10 = .ok ⟨#[520]⟩ := by decide
  have hc : candidates.posting.Holds [3, 9] := ⟨by decide, (Mask.holds_of_ofMembers hmask).1⟩
  have hs : sparser.posting.Holds [3, 9] := ⟨by decide, by cbv⟩
  have hf : filter.posting.Holds [1, 8] := ⟨by decide, by cbv⟩
  have hfits : ∀ other ∈ [(1 : UInt32), 8], (other.toNat : Int) + -2 ≤ 2 ^ 32 - 1 := by
    rw [List.forall_mem_cons, List.forall_mem_singleton]
    decide
  have hzero : (0 : UInt32) ∉ [(3 : UInt32), 9]
      ∧ ∀ other ∈ [(1 : UInt32), 8], (other.toNat : Int) + -2 ≠ (0 : UInt32).toNat := by
    rw [List.forall_mem_cons, List.forall_mem_singleton]
    decide
  have hdense : candidates.posting.isDense ≠ false := by decide
  exact ⟨hc, hs, hf, hfits,
    unite_decodes candidates filter [3, 9] [1, 8] hc hf hfits fun hsparse => absurd hsparse hdense,
    unite_decodes sparser filter [3, 9] [1, 8] hs hf hfits fun _ _ => ⟨0, hzero⟩⟩

/-! ## Unions of all 32-bit numbers -/

/-- A union of two sparse lists that is all 32-bit numbers has no sparse list, and uniting fails. -/
theorem unite_eq_lengthOverflow {own list : GapList} {position other : UInt32}
    (hc : (Posting.sparse own).Holds c) (hf : (Posting.sparse list).Holds f)
    (hall : ∀ value : UInt32, value ∈ c ∨ ∃ member ∈ f,
      (value.toNat : Int) = member.toNat + offset ⟨.sparse own, position⟩ ⟨.sparse list, other⟩) :
    unite ⟨.sparse own, position⟩ ⟨.sparse list, other⟩ = .error .lengthOverflow := by
  have hfull := size_le_length_of_forall_mem fun value =>
    (Merge.mem_uniteLists _ c f value).mpr (hall value)
  have hmade := GapList.ofMembers_eq_lengthOverflow
    (Merge.uniteLists_ascending _ hc.ascending hf.ascending) hfull
  rw [unite_sparse hc hf, Posting.ofMembersSparse, hmade]
  rfl

/-- Every second 32-bit number, from the first or the second on. -/
def everyOther (first : Nat) : List UInt32 :=
  (List.range (2 ^ 31)).map fun index => UInt32.ofNat (2 * index + first)

theorem mem_everyOther {first : Nat} (hfirst : first < 2) (value : UInt32) :
    value ∈ everyOther first ↔ value.toNat % 2 = first := by
  have hlt := value.toNat_lt
  rw [everyOther, List.mem_map]
  constructor
  · rintro ⟨index, hindex, rfl⟩
    have hsmall := List.mem_range.mp hindex
    rw [UInt32.toNat_ofNat']
    omega
  · intro hrest
    refine ⟨value.toNat / 2, List.mem_range.mpr (by omega), ?_⟩
    rw [show 2 * (value.toNat / 2) + first = value.toNat by omega, UInt32.ofNat_toNat]

theorem everyOther_ascending {first : Nat} (hfirst : first < 2) :
    (everyOther first).Pairwise (· < ·) := by
  refine List.pairwise_map.mpr (List.pairwise_lt_range.imp_of_mem fun {a b} _ hb hlt => ?_)
  have hsmall := List.mem_range.mp hb
  rw [UInt32.lt_iff_toNat_lt, UInt32.toNat_ofNat', UInt32.toNat_ofNat']
  omega

theorem exists_holds_everyOther {first : Nat} (hfirst : first < 2) :
    ∃ list : GapList, (Posting.sparse list).Holds (everyOther first) := by
  have hlength : (everyOther first).length < UInt32.size := by
    rw [everyOther, List.length_map, List.length_range]
    decide
  obtain ⟨list, hlist⟩ := GapList.exists_ofMembers (everyOther_ascending hfirst) hlength
  exact ⟨list, everyOther_ascending hfirst, hlist⟩

/-- The even and the odd 32-bit numbers each make a sparse list. Where they stand no member moves
beyond the 32-bit numbers, and still they cannot be united. -/
theorem unite_everyOther :
    ∃ evens odds : GapList, (Posting.sparse evens).Holds (everyOther 0)
      ∧ (Posting.sparse odds).Holds (everyOther 1)
      ∧ (∀ other ∈ everyOther 1,
        (other.toNat : Int) + offset ⟨.sparse evens, 0⟩ ⟨.sparse odds, 0⟩ ≤ 2 ^ 32 - 1)
      ∧ unite ⟨.sparse evens, 0⟩ ⟨.sparse odds, 0⟩ = .error .lengthOverflow := by
  obtain ⟨evens, hevens⟩ := exists_holds_everyOther (show 0 < 2 by decide)
  obtain ⟨odds, hodds⟩ := exists_holds_everyOther (show 1 < 2 by decide)
  have hoffset : offset ⟨.sparse evens, 0⟩ ⟨.sparse odds, 0⟩ = 0 := rfl
  refine ⟨evens, odds, hevens, hodds, fun other _ => ?_, unite_eq_lengthOverflow hevens hodds ?_⟩
  · have hlt := other.toNat_lt
    rw [hoffset]
    omega
  · intro value
    rw [hoffset, mem_everyOther (by decide)]
    rcases Nat.mod_two_eq_zero_or_one value.toNat with heven | hodd
    · exact .inl heven
    · exact .inr ⟨value, (mem_everyOther (by decide) value).mpr hodd, (add_zero _).symm⟩

end Concordance.Anchored
