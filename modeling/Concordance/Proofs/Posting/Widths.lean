import Concordance.Proofs.Posting.Nearness

/-!
# How long masks grow

The words of a result are bounded by those of its operands, so that a chain of combinations stays
within the lengths for which its steps are right.

- An intersection and a search for near candidates have no more words than the candidates
  (`Anchored.words_intersect_le`, `Anchored.words_near_le`).
- A union has words for its members and for the moved words of the filter, and no more
  (`Anchored.words_unite_le`).
-/

namespace Concordance

namespace Posting

/-- The number of words of a dense list; a sparse list has none. -/
def words : Posting → Nat
  | .sparse _ => 0
  | .dense mask => mask.size

theorem words_of_ofMembersSparse {members : List UInt32} {posting : Posting}
    (h : ofMembersSparse members = .ok posting) : posting.words = 0 := by
  obtain ⟨list, -, rfl⟩ := map_eq_ok.mp h
  rfl

/-- A packed list has at most the words that the tokens need. -/
theorem words_le_of_ofMembersDense {members : List UInt32} {tokens : UInt32} {posting : Posting}
    (h : ofMembersDense members tokens = .ok posting) :
    posting.words ≤ Mask.wordsFor tokens.toNat := by
  obtain ⟨mask, hmask, rfl⟩ := map_eq_ok.mp h
  exact Nat.le_of_eq (Mask.holds_of_ofMembers hmask).2

theorem words_le_of_pack {members : List UInt32} {tokens ratio : UInt32} {posting : Posting}
    (h : pack members tokens ratio = .ok posting) :
    posting.words ≤ Mask.wordsFor tokens.toNat := by
  unfold pack at h
  split at h
  case isTrue => exact words_le_of_ofMembersDense h
  case isFalse =>
    rw [words_of_ofMembersSparse h]
    exact Nat.zero_le _

end Posting

/-! ## Adding members to a mask -/

namespace Merge

/-- A mask that members are added to has words for them, or as many as before. -/
theorem size_addMembers_le {offset : Int} {mask : Mask} {list : List UInt32} {limit : Nat}
    (hmask : mask.size ≤ limit)
    (hlist : ∀ value ∈ list.filterMap (moved offset), value.toNat < 32 * limit) :
    (addMembers offset mask list).size ≤ limit := by
  unfold addMembers
  generalize list.filterMap (moved offset) = values at hlist
  induction values generalizing mask with
  | nil => exact hmask
  | cons value values ih =>
    rw [List.forall_mem_cons] at hlist
    refine ih ?_ hlist.2
    have hvalue := hlist.1
    rw [addMember, Mask.size_insert, Mask.size_extend]
    unfold Mask.wordBits
    omega

/-- A union of masks has words for the words of both. -/
theorem size_uniteMasks_le {offset : Int} {first second : Mask} {limit : Nat}
    (hfirst : first.size ≤ limit) (hsecond : 32 * (second.size : Int) + offset ≤ 32 * limit) :
    (uniteMasks offset first second).size ≤ limit := by
  have hmoved : movedSize offset second ≤ limit := by
    unfold movedSize Mask.wordsFor Mask.wordBits
    split
    · exact Nat.zero_le _
    · omega
  rw [uniteMasks, Mask.size_mk_range]
  exact Nat.max_le.mpr ⟨hfirst, hmoved⟩

end Merge

/-! ## Combinations -/

namespace Anchored

variable {candidates filter result : Anchored} {c f : List UInt32}

/-- A result that is put together from members has no words. -/
theorem words_of_sparse {members : List UInt32}
    (h : (do
      let posting ← Posting.ofMembersSparse members
      return candidates.withPosting posting) = Except.ok result) : result.posting.words = 0 := by
  obtain ⟨posting, hposting, h⟩ := bind_eq_ok.mp h
  cases h
  exact Posting.words_of_ofMembersSparse hposting

/-- An intersection has no more words than the candidates. -/
theorem words_intersect_le (h : candidates.intersect filter = .ok result) :
    result.posting.words ≤ candidates.posting.words := by
  unfold intersect at h
  cases hform : candidates.posting with
  | sparse own =>
    cases hfilter : filter.posting with
    | sparse list =>
      simp only [hform, hfilter] at h
      obtain ⟨_, -, h⟩ := bind_eq_ok.mp h
      obtain ⟨_, -, h⟩ := bind_eq_ok.mp h
      exact Nat.le_of_eq (words_of_sparse h)
    | dense mask =>
      simp only [hform, hfilter] at h
      obtain ⟨_, -, h⟩ := bind_eq_ok.mp h
      exact Nat.le_of_eq (words_of_sparse h)
  | dense own =>
    cases hfilter : filter.posting with
    | sparse list =>
      simp only [hform, hfilter] at h
      obtain ⟨_, -, h⟩ := bind_eq_ok.mp h
      rw [words_of_sparse h]
      exact Nat.zero_le _
    | dense mask =>
      simp only [hform, hfilter] at h
      cases h
      exact Nat.le_of_eq (Merge.size_intersectMasks _ _ _)

/-- A search for near candidates has no more words than the candidates. -/
theorem words_near_le {radius : UInt32} {direction : Direction}
    (h : candidates.near filter radius direction = .ok result) :
    result.posting.words ≤ candidates.posting.words := by
  unfold near at h
  by_cases hzero : radius = 0
  · rw [if_pos hzero] at h
    exact words_intersect_le h
  rw [if_neg hzero] at h
  cases hfilter : filter.posting with
  | dense mask =>
    simp only [hfilter] at h
    exact words_intersect_le h
  | sparse list =>
    simp only [hfilter] at h
    obtain ⟨_, -, h⟩ := bind_eq_ok.mp h
    obtain ⟨_, -, h⟩ := bind_eq_ok.mp h
    rw [words_of_sparse h]
    exact Nat.zero_le _

/-- A union stays within a limit that its members, the candidates' words and the moved words of the
filter keep. -/
theorem words_unite_le {limit : Nat} (hc : candidates.posting.Holds c)
    (hf : filter.posting.Holds f) (hcandidates : candidates.posting.words ≤ limit)
    (hfilter : 32 * (filter.posting.words : Int) + candidates.offset filter ≤ 32 * limit)
    (hmembers : ∀ value ∈ Merge.uniteLists (candidates.offset filter) c f,
      value.toNat < 32 * limit)
    (h : candidates.unite filter = .ok result) : result.posting.words ≤ limit := by
  unfold unite at h
  cases hform : candidates.posting with
  | sparse own =>
    rw [hform] at hc
    have hown : own.members = .ok c := hc.members_eq
    cases hpartner : filter.posting with
    | sparse list =>
      simp only [hform, hpartner] at h
      obtain ⟨_, -, h⟩ := bind_eq_ok.mp h
      obtain ⟨_, -, h⟩ := bind_eq_ok.mp h
      rw [words_of_sparse h]
      exact Nat.zero_le _
    | dense mask =>
      simp only [hform, hpartner, hown] at h
      cases h
      rw [hpartner] at hfilter
      refine Merge.size_addMembers_le (Merge.size_uniteMasks_le (Nat.zero_le _) hfilter) ?_
      -- the candidates are added where they are
      intro value hvalue
      obtain ⟨other, hother, hsame⟩ := (Merge.mem_filterMap_moved 0 c value).mp hvalue
      rw [add_zero, Int.natCast_inj, UInt32.toNat_inj] at hsame
      rw [hsame]
      exact hmembers other ((Merge.mem_uniteLists ..).mpr (.inl hother))
  | dense own =>
    rw [hform] at hcandidates
    cases hpartner : filter.posting with
    | sparse list =>
      rw [hpartner] at hf
      have hlist : list.members = .ok f := hf.members_eq
      simp only [hform, hpartner, hlist] at h
      cases h
      refine Merge.size_addMembers_le hcandidates ?_
      intro value hvalue
      exact hmembers value ((Merge.mem_uniteLists ..).mpr
        (.inr ((Merge.mem_filterMap_moved ..).mp hvalue)))
    | dense mask =>
      simp only [hform, hpartner] at h
      cases h
      rw [hpartner] at hfilter
      exact Merge.size_uniteMasks_le hcandidates hfilter

end Anchored

end Concordance
