import Concordance.Posting.Basic
import Concordance.Proofs.Except
import Concordance.Proofs.GapList.Reading
import Concordance.Proofs.Mask.Positions

/-!
# What a posting list holds

`Holds posting members` relates a posting list in either form to the ascending list that it stands
for: a sparse list is what packing the members gives, a dense one is any mask with exactly their
positions set, however many words it has.

Both forms read back as the members (`Holds.members_eq`), and packing makes a list that holds
them (`exists_ofMembersSparse`, `holds_of_pack`).
-/

namespace Concordance.Posting

/-- A posting list stands for an ascending list of members. -/
def Holds (posting : Posting) (members : List UInt32) : Prop :=
  members.Pairwise (· < ·) ∧
    match posting with
    | .sparse list => GapList.ofMembers members = .ok list
    | .dense mask => mask.Holds members

namespace Holds

variable {posting : Posting} {members : List UInt32}

theorem ascending (h : posting.Holds members) : members.Pairwise (· < ·) := h.1

/-- A posting list reads back as its members. -/
theorem members_eq (h : posting.Holds members) : posting.members = .ok members := by
  cases posting with
  | sparse list => exact GapList.members_ofMembers h.2
  | dense mask =>
    have hmask : mask.Holds members := h.2
    exact congrArg Except.ok (hmask.members_eq h.1)

/-- A sparse list stands for fewer members than there are 32-bit numbers. -/
theorem length_lt {list : GapList} (h : (sparse list).Holds members) :
    members.length < UInt32.size :=
  (GapList.laidOut_of_ofMembers h.2).length_lt

end Holds

theorem empty_holds : empty.Holds [] := ⟨List.Pairwise.nil, rfl⟩

/-- Ascending members make a sparse list that holds them, if 32 bits say how many they are. -/
theorem exists_ofMembersSparse {members : List UInt32} (hasc : members.Pairwise (· < ·))
    (hlength : members.length < UInt32.size) :
    ∃ posting, ofMembersSparse members = .ok posting ∧ posting.Holds members
      ∧ posting.isDense = false := by
  obtain ⟨list, hlist⟩ := GapList.exists_ofMembers hasc hlength
  refine ⟨.sparse list, ?_, ⟨hasc, hlist⟩, rfl⟩
  rw [ofMembersSparse, hlist]
  rfl

/-- Members below a number of tokens make a dense list. -/
theorem exists_ofMembersDense {members : List UInt32} {tokens : UInt32}
    (h : ∀ member ∈ members, member < tokens) :
    ∃ posting, ofMembersDense members tokens = .ok posting := by
  obtain ⟨mask, hmask⟩ := Mask.exists_ofMembers h
  exact ⟨.dense mask, map_eq_ok.mpr ⟨mask, hmask, rfl⟩⟩

/-- What sparse packing made holds the members. -/
theorem holds_of_ofMembersSparse {members : List UInt32} {posting : Posting}
    (hasc : members.Pairwise (· < ·)) (h : ofMembersSparse members = .ok posting) :
    posting.Holds members := by
  obtain ⟨list, hlist, rfl⟩ := map_eq_ok.mp h
  exact ⟨hasc, hlist⟩

/-- What dense packing made holds the members. -/
theorem holds_of_ofMembersDense {members : List UInt32} {tokens : UInt32} {posting : Posting}
    (hasc : members.Pairwise (· < ·)) (h : ofMembersDense members tokens = .ok posting) :
    posting.Holds members := by
  obtain ⟨mask, hmask, rfl⟩ := map_eq_ok.mp h
  exact ⟨hasc, (Mask.holds_of_ofMembers hmask).1⟩

/-- Ascending members below a number of tokens are packed, in the form that their density asks
for. -/
theorem exists_pack {members : List UInt32} {tokens : UInt32} (hasc : members.Pairwise (· < ·))
    (hlt : ∀ member ∈ members, member < tokens) (ratio : UInt32) :
    ∃ posting, pack members tokens ratio = .ok posting := by
  unfold pack
  split
  case isTrue => exact exists_ofMembersDense hlt
  case isFalse =>
    obtain ⟨posting, hposting, -, -⟩ :=
      exists_ofMembersSparse hasc (length_lt_of_forall_lt hasc hlt)
    exact ⟨posting, hposting⟩

/-- What packing made holds the members, in either form. -/
theorem holds_of_pack {members : List UInt32} {tokens ratio : UInt32} {posting : Posting}
    (hasc : members.Pairwise (· < ·)) (h : pack members tokens ratio = .ok posting) :
    posting.Holds members := by
  unfold pack at h
  split at h
  case isTrue => exact holds_of_ofMembersDense hasc h
  case isFalse => exact holds_of_ofMembersSparse hasc h

end Concordance.Posting
