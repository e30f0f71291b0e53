import Concordance.Proofs.Mask.Reading
import Concordance.Proofs.Posting.Holds

/-!
# The two forms of a posting list

A list that holds members reads as them and counts them, in whichever form it is stored
(`Holds.shows`). Ascending members below the number of tokens make a list in either form, and a mask
is told back by the members that it reads as: each form represents its set exactly
(`forms_represent_members`).
-/

namespace Concordance.Posting

/-- A posting list reads as `members`, and tells how many they are and whether there are any. -/
structure Shows (posting : Posting) (members : List UInt32) : Prop where
  members_eq : posting.members = .ok members
  length_eq : posting.length = members.length
  isEmpty_eq : posting.isEmpty = members.isEmpty

/-- A list that holds members shows them. -/
theorem Holds.shows {posting : Posting} {members : List UInt32} (h : posting.Holds members) :
    posting.Shows members where
  members_eq := h.members_eq
  length_eq := by
    cases posting with
    | sparse list => exact (GapList.laidOut_of_ofMembers h.2).length
    | dense mask =>
      have hmask : mask.Holds members := h.2
      rw [← hmask.members_eq h.1]
      exact mask.length_members.symm
  isEmpty_eq := by
    cases posting with
    | sparse list =>
      have hlength := (GapList.laidOut_of_ofMembers h.2).length
      have hempty : list.length = 0 ↔ members = [] := by
        rw [← UInt32.toNat_inj, hlength]
        exact List.length_eq_zero_iff
      show (list.length == 0) = _
      rw [Bool.eq_iff_iff, beq_iff_eq, hempty, List.isEmpty_iff]
    | dense mask =>
      have hmask : mask.Holds members := h.2
      rw [← hmask.members_eq h.1]
      exact mask.isEmpty_eq

/-- Both forms represent their set exactly. Ascending members, fewer than `2 ^ 32`, make a sparse
list, whose cursor yields them one after the other; for any number of tokens above them they make a
dense list, and a packed one for any ratio; and each of these lists shows the members. The other way
round, a mask whose positions 32 bits can number reads as an ascending list, bit by bit or at once,
of as many members as it has set bits, and making a mask of these over all its positions gives it
back. -/
theorem forms_represent_members :
    (∀ members : List UInt32, members.Pairwise (· < ·) → members.length < 2 ^ 32 →
      (∃ list, ofMembersSparse members = .ok (.sparse list) ∧ Shows (.sparse list) members
        ∧ list.cursor.Streams members)
      ∧ ∀ tokens : UInt32, (∀ member ∈ members, member < tokens) →
        (∃ mask, ofMembersDense members tokens = .ok (.dense mask) ∧ Shows (.dense mask) members)
        ∧ ∀ ratio, ∃ posting, pack members tokens ratio = .ok posting ∧ posting.Shows members)
    ∧ ∀ mask : Mask, mask.size < 2 ^ 27 →
      mask.members.Pairwise (· < ·) ∧ mask.members.length = mask.count
      ∧ (∀ count, (mask.cursor.take count).1 = mask.members.take count)
      ∧ Mask.ofMembers mask.members (UInt32.ofNat (Mask.wordBits * mask.size)) = .ok mask := by
  constructor
  · intro members hasc hlength
    refine ⟨?_, fun tokens hlt => ⟨?_, fun ratio => ?_⟩⟩
    · obtain ⟨list, hlist⟩ := GapList.exists_ofMembers hasc hlength
      have hholds : Holds (.sparse list) members := ⟨hasc, hlist⟩
      exact ⟨list, map_eq_ok.mpr ⟨list, hlist, rfl⟩, hholds.shows,
        (GapList.laidOut_of_ofMembers hlist).streams_cursor⟩
    · obtain ⟨mask, hmask⟩ := Mask.exists_ofMembers hlt
      have hholds : Holds (.dense mask) members := ⟨hasc, (Mask.holds_of_ofMembers hmask).1⟩
      exact ⟨mask, map_eq_ok.mpr ⟨mask, hmask, rfl⟩, hholds.shows⟩
    · obtain ⟨posting, hposting⟩ := exists_pack hasc hlt ratio
      exact ⟨posting, hposting, (holds_of_pack hasc hposting).shows⟩
  · intro mask hsize
    exact ⟨Mask.members_ascending (Nat.le_of_lt hsize), mask.length_members, mask.take_cursor,
      Mask.ofMembers_members hsize⟩

/-- Members on both sides of the end of a word, and their mask. -/
theorem forms_represent_members_over_words :
    (∃ mask, ofMembersDense [3, 31, 32] 33 = .ok (.dense mask) ∧ Shows (.dense mask) [3, 31, 32])
      ∧ Mask.ofMembers [3, 31, 32] 64 = .ok ⟨#[0x80000008, 1]⟩ := by
  obtain ⟨hmembers, hmasks⟩ := forms_represent_members
  refine ⟨((hmembers [3, 31, 32] (by decide) (by decide)).2 33 (by simp)).1, ?_⟩
  have hread : Mask.members ⟨#[0x80000008, 1]⟩ = [3, 31, 32] := by decide
  obtain ⟨-, -, -, hback⟩ := hmasks ⟨#[0x80000008, 1]⟩ (show 2 < 2 ^ 27 by decide)
  rw [hread] at hback
  exact hback

end Concordance.Posting
