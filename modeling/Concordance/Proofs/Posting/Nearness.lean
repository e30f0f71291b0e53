import Concordance.Proofs.Mask.Smearing
import Concordance.Proofs.Posting.Pairings

/-!
# Nearness of anchored lists

A candidate is near a filter when its offset is a position from zero on that a filter member reaches
in the direction and within the radius (`nearby`). Both ways to compute this agree with it
(`near_decodes`):

- a sparse filter is merged with the candidates through a window that only moves forward, because
  what is too small for one candidate is too small for all later ones (`nearLists_eq`);
- a dense filter is smeared, on a mask that grows as far as a run can reach and a candidate can
  land, and no further (`test_reachable`).
-/

namespace Concordance.Anchored

variable {candidates filter : Anchored} {c f : List UInt32}

/-- The candidates with an offset from zero on that some filter member reaches. -/
def nearby (offset : Int) (radius : Nat) (direction : Direction) (c f : List UInt32) :
    List UInt32 :=
  c.filter fun member => 0 ≤ (member.toNat : Int) - offset
    ∧ ∃ other ∈ f, direction.Reaches radius ((member.toNat : Int) - offset - other.toNat)

/-! ## Sparse filters -/

/-- A candidate matches when its target is not negative and a filter member lies in the window
around the target. -/
def Matches (offset : Int) (behind ahead : Nat) (f : List UInt32) (candidate : UInt32) : Prop :=
  0 ≤ (candidate.toNat : Int) - offset ∧ ∃ member ∈ f,
    (candidate.toNat : Int) - offset - behind ≤ member.toNat
      ∧ (member.toNat : Int) ≤ candidate.toNat - offset + ahead

instance (offset : Int) (behind ahead : Nat) (f : List UInt32) (candidate : UInt32) :
    Decidable (Matches offset behind ahead f candidate) :=
  inferInstanceAs (Decidable (_ ∧ _))

/-- Dropping what lies below a candidate's window changes no match of it or of a later candidate. -/
theorem matches_dropWhile_iff {offset : Int} {behind ahead : Nat} (hf : f.Pairwise (· < ·))
    {low : Int} {candidate : UInt32} (h : low ≤ (candidate.toNat : Int) - offset - behind) :
    Matches offset behind ahead
        (f.dropWhile fun member => decide ((member.toNat : Int) < low)) candidate
      ↔ Matches offset behind ahead f candidate := by
  refine and_congr_right fun _ => exists_congr fun member => ?_
  rw [Merge.mem_dropWhile_lt low hf]
  constructor
  · rintro ⟨⟨hmem, _⟩, hwindow⟩
    exact ⟨hmem, hwindow⟩
  · rintro ⟨hmem, hwindow⟩
    exact ⟨⟨hmem, by omega⟩, hwindow⟩

/-- In a window that starts with a member not below the candidate's, that member decides. -/
theorem matches_cons_iff {offset : Int} {behind : Nat} (ahead : Nat) {member : UInt32}
    {later : List UInt32} (hasc : (member :: later).Pairwise (· < ·)) {candidate : UInt32}
    (hpos : 0 ≤ (candidate.toNat : Int) - offset)
    (hlow : (candidate.toNat : Int) - offset - behind ≤ member.toNat) :
    Matches offset behind ahead (member :: later) candidate
      ↔ (member.toNat : Int) ≤ candidate.toNat - offset + ahead := by
  constructor
  · rintro ⟨_, other, hother, _, hupper⟩
    rcases List.mem_cons.mp hother with rfl | hmem
    · exact hupper
    · have hlt : member.toNat < other.toNat := (List.pairwise_cons.mp hasc).1 other hmem
      omega
  · intro hupper
    exact ⟨hpos, member, List.mem_cons_self, hlow, hupper⟩

/-- For a candidate and the later ones, only the filter members from its window on count. -/
theorem filter_matches_dropWhile {offset : Int} {behind ahead : Nat} {candidate : UInt32}
    (hc : (candidate :: c).Pairwise (· < ·)) (hf : f.Pairwise (· < ·)) :
    ((candidate :: c).filter fun x => Matches offset behind ahead f x)
      = (candidate :: c).filter fun x => Matches offset behind ahead
        (f.dropWhile fun member =>
          decide ((member.toNat : Int) < (candidate.toNat : Int) - offset - behind)) x := by
  refine List.filter_congr fun x hx => decide_eq_decide.mpr (matches_dropWhile_iff hf ?_).symm
  rcases List.mem_cons.mp hx with rfl | hmem
  · exact Int.le_refl _
  · have hlt : candidate.toNat < x.toNat := (List.pairwise_cons.mp hc).1 x hmem
    omega

/-- The forward merge keeps the matching candidates. -/
theorem nearLists_eq (offset : Int) (behind ahead : Nat) (hc : c.Pairwise (· < ·))
    (hf : f.Pairwise (· < ·)) :
    nearLists offset behind ahead c f = c.filter fun x => Matches offset behind ahead f x := by
  -- the window loses only members that are too small for all candidates still to come
  induction c generalizing f with
  | nil => rfl
  | cons candidate c ih =>
    have hrest := (List.pairwise_cons.mp hc).2
    rw [nearLists]
    by_cases hneg : (candidate.toNat : Int) - offset < 0
    · have hno : ¬ Matches offset behind ahead f candidate := fun hmatch => by
        have hpos := hmatch.1
        omega
      rw [if_pos hneg, ih hrest hf, List.filter_cons, if_neg (by simpa using hno)]
    · have hwindow := hf.sublist (List.dropWhile_sublist fun member : UInt32 =>
        decide ((member.toNat : Int) < (candidate.toNat : Int) - offset - behind))
      have hlow := fun member hmember => ((Merge.mem_dropWhile_lt
        ((candidate.toNat : Int) - offset - behind) hf member).mp hmember).2
      rw [if_neg hneg, filter_matches_dropWhile hc hf]
      generalize (f.dropWhile fun member =>
        decide ((member.toNat : Int) < (candidate.toNat : Int) - offset - behind)) = window
        at hwindow hlow
      cases window with
      | nil =>
        refine (List.filter_eq_nil_iff.mpr fun x _ => ?_).symm
        simp [Matches]
      | cons member later =>
        have hiff := matches_cons_iff ahead hwindow (by omega)
          (hlow member List.mem_cons_self)
        show (if (member.toNat : Int) ≤ (candidate.toNat : Int) - offset + ahead then _ else _) = _
        rw [List.filter_cons, ih hrest hwindow]
        by_cases hle : (member.toNat : Int) ≤ (candidate.toNat : Int) - offset + ahead
        · rw [if_pos hle, if_pos (decide_eq_true (hiff.mpr hle))]
        · rw [if_neg hle, if_neg (by simpa using mt hiff.mp hle)]

/-- The window of a direction holds the members that reach a target. -/
theorem filter_matches_eq_nearby (offset : Int) (radius : UInt32) (direction : Direction) :
    (c.filter fun x => Matches offset (window radius direction).1 (window radius direction).2 f x)
      = nearby offset radius.toNat direction c f := by
  refine List.filter_congr fun x _ => decide_eq_decide.mpr (and_congr_right fun _ =>
    exists_congr fun member => and_congr_right fun _ => ?_)
  cases direction with
  | left =>
    simp only [window, Direction.Reaches]
    omega
  | right =>
    simp only [window, Direction.Reaches]
    omega
  | both =>
    simp only [window, Direction.Reaches]
    omega

/-! ## Dense filters -/

/-- A bound is above all members, if they lie in fewer than 2^27 words: the width of a longer mask
is cut to 32 bits. -/
theorem lt_bound {posting : Posting} (h : posting.Holds c)
    (hwords : ∀ mask, posting = .dense mask → mask.size < 2 ^ 27) {member : UInt32}
    (hmember : member ∈ c) : member.toNat < bound posting := by
  cases posting with
  | sparse list =>
    have hlast : list.last = c.getLast? := (GapList.laidOut_of_ofMembers h.2).last
    unfold bound
    simp only [hlast]
    cases hc : c.getLast? with
    | none =>
      rw [List.getLast?_eq_none_iff.mp hc] at hmember
      cases hmember
    | some last =>
      have hle : member.toNat ≤ last.toNat := le_last_of_mem h.ascending hc hmember
      show member.toNat < last.toNat + 1
      omega
  | dense mask =>
    have hmask : mask.Holds c := h.2
    have hlt := hmask.lt_of_mem hmember
    have hsize := hwords mask rfl
    show member.toNat < mask.width
    unfold Mask.width Mask.wordBits UInt32.size
    omega

/-- Members in fewer than 2^27 words are fewer than the 32-bit numbers. -/
theorem length_lt_of_words {posting : Posting} (h : posting.Holds c)
    (hwords : ∀ mask, posting = .dense mask → mask.size < 2 ^ 27) : c.length < UInt32.size := by
  cases posting with
  | sparse list => exact h.length_lt
  | dense mask =>
    have hmask : mask.Holds c := h.2
    have hsize := hwords mask rfl
    refine length_lt_of_notMem h.ascending (fun hmem => ?_ : (0xFFFFFFFF : UInt32) ∉ c)
    have hlt : 2 ^ 32 - 1 < 32 * mask.size := hmask.lt_of_mem hmem
    omega

/-- The mask that is smeared has grown by as many words as the target of a candidate below `limit`
needs, when a member of the mask reaches that target. -/
theorem exists_reachable_eq (mask : Mask) (limit : Nat) (offset : Int) (radius : UInt32)
    (direction : Direction) : ∃ words,
      reachable mask limit offset radius direction = (mask.extend words).smear radius direction
        ∧ ∀ target member : Int, target < limit - offset → mask.test member = true →
          direction.Reaches radius.toNat (target - member) →
          target < 32 * (mask.extend words).size := by
  have hreach (words : Nat)
      (hwords : min (mask.size + Mask.wordsFor radius.toNat)
        (max mask.size (Mask.wordsFor ((limit : Int) - offset).toNat)) ≤ words) :
      ∀ target member : Int, target < limit - offset → mask.test member = true →
        target - member ≤ radius.toNat → target < 32 * (mask.extend words).size := by
    intro target member htarget hmember hle
    have hbounds := Mask.test_bounds hmember
    rw [Mask.size_extend]
    unfold Mask.wordsFor Mask.wordBits at hwords
    omega
  -- a smear to the left reaches no position above the members, so the mask need not grow
  cases direction with
  | left =>
    have hsame : mask.extend 0 = mask := by
      rw [Mask.extend, Nat.zero_sub, Array.replicate_zero, Array.append_empty]
    refine ⟨0, by rw [reachable, hsame], fun target member _ hmember hrun => ?_⟩
    have hbounds := Mask.test_bounds hmember
    have hle : target - member ≤ 0 := hrun.2
    rw [Mask.size_extend]
    omega
  | right => exact ⟨_, rfl, fun target member htarget hmember hrun =>
      hreach _ (Nat.le_refl _) target member htarget hmember hrun.2⟩
  | both => exact ⟨_, rfl, fun target member htarget hmember hrun =>
      hreach _ (Nat.le_refl _) target member htarget hmember hrun.2⟩

/-- On the grown and smeared mask, the target of a candidate is set exactly if a filter member
reaches it. -/
theorem test_reachable {mask : Mask} (hmask : mask.Holds f) {limit : Nat} {offset : Int}
    (radius : UInt32) (direction : Direction) {member : UInt32} (hlimit : member.toNat < limit) :
    (reachable mask limit offset radius direction).test (member.toNat - offset) = true
      ↔ 0 ≤ (member.toNat : Int) - offset ∧ ∃ other ∈ f,
        direction.Reaches radius.toNat ((member.toNat : Int) - offset - other.toNat) := by
  obtain ⟨words, hgrown, hinside⟩ := exists_reachable_eq mask limit offset radius direction
  rw [hgrown, Mask.test_smear]
  refine and_congr_right fun hpos => ?_
  constructor
  · rintro ⟨_, other, hother, hreach⟩
    rw [Mask.test_extend] at hother
    obtain ⟨found, hfound, rfl⟩ := (hmask other).mp hother
    exact ⟨found, hfound, hreach⟩
  · rintro ⟨found, hfound, hreach⟩
    have htest : mask.test found.toNat = true := (hmask _).mpr ⟨found, hfound, rfl⟩
    refine ⟨hinside _ _ (by omega) htest hreach, found.toNat, ?_, hreach⟩
    rw [Mask.test_extend]
    exact htest

/-! ## Both forms -/

/-- Within a radius of zero only the candidates count that the filter has at their offset. -/
theorem meeting_eq_nearby (offset : Int) (direction : Direction) :
    meeting offset c f = nearby offset 0 direction c f := by
  refine List.filter_congr fun member _ => decide_eq_decide.mpr ?_
  constructor
  · rintro ⟨other, hother, heq⟩
    refine ⟨by omega, other, hother, ?_⟩
    cases direction with
    | left => simp only [Direction.Reaches]; omega
    | right => simp only [Direction.Reaches]; omega
    | both => simp only [Direction.Reaches]; omega
  · rintro ⟨hpos, other, hother, hreach⟩
    refine ⟨other, hother, ?_⟩
    cases direction with
    | left => simp only [Direction.Reaches] at hreach; omega
    | right => simp only [Direction.Reaches] at hreach; omega
    | both => simp only [Direction.Reaches] at hreach; omega

/-- The near candidates in each pairing of forms. -/
theorem near_yields (hc : candidates.posting.Holds c) (hf : filter.posting.Holds f)
    (hwords : ∀ mask, candidates.posting = .dense mask → mask.size < 2 ^ 27) (radius : UInt32)
    (direction : Direction) :
    Yields (candidates.near filter radius direction) candidates.position
      (nearby (candidates.offset filter) radius.toNat direction c f)
      (candidates.posting.isDense && filter.posting.isDense) := by
  unfold near
  by_cases hzero : radius = 0
  · rw [if_pos hzero, hzero, UInt32.toNat_zero, ← meeting_eq_nearby]
    exact intersect_yields hc hf
  rw [if_neg hzero]
  cases hfilter : filter.posting with
  | dense mask =>
    rw [hfilter] at hf
    have heq : (c.filter fun member => (reachable mask (bound candidates.posting)
          (candidates.offset filter) radius direction).test
            (member.toNat - candidates.offset filter))
        = nearby (candidates.offset filter) radius.toNat direction c f := by
      refine List.filter_congr fun member hmember => ?_
      rw [Bool.eq_iff_iff, test_reachable hf.2 radius direction (lt_bound hc hwords hmember),
        decide_eq_true_eq]
    rw [← heq, Posting.isDense, Bool.and_true]
    exact intersect_dense hc _
  | sparse list =>
    rw [hfilter] at hf
    have hmembers : list.members = .ok f := hf.members_eq
    rw [Posting.isDense, Bool.and_false, ← filter_matches_eq_nearby,
      ← nearLists_eq _ _ _ hc.ascending hf.ascending]
    simp only [hmembers, hc.members_eq]
    refine yields_sparse candidates ?_ ?_
    · rw [nearLists_eq _ _ _ hc.ascending hf.ascending]
      exact hc.ascending.filter _
    · rw [nearLists_eq _ _ _ hc.ascending hf.ascending]
      exact Nat.lt_of_le_of_lt (List.length_filter_le _ _) (length_lt_of_words hc hwords)

/-- Looking for near candidates succeeds and decodes to the candidates whose offset is a position
from zero on that some filter member reaches within the radius, whatever the forms of the two
lists, for masks of fewer than 2^27 words. The result stays at the position of the candidates. -/
theorem near_decodes (candidates filter : Anchored) (c f : List UInt32) (radius : UInt32)
    (direction : Direction) (hc : candidates.posting.Holds c) (hf : filter.posting.Holds f)
    (hwords : ∀ mask, candidates.posting = .dense mask → mask.size < 2 ^ 27) :
    let members := c.filter fun member =>
      0 ≤ (member.toNat : Int) - candidates.offset filter ∧ ∃ other ∈ f,
        direction.Reaches radius.toNat
          ((member.toNat : Int) - candidates.offset filter - other.toNat)
    ∃ result, candidates.near filter radius direction = .ok result
      ∧ result.position = candidates.position
      ∧ result.posting.members = .ok members ∧ members.Pairwise (· < ·) := by
  obtain ⟨result, hok, hposition, hholds, _⟩ := near_yields hc hf hwords radius direction
  exact ⟨result, hok, hposition, hholds.members_eq, hholds.ascending⟩

/-- Of a mask of 3 and 9, only 3 is at most one position behind a member of a sparse list of 1 and 5
that moves one position up. -/
theorem near_decodes_dense_sparse :
    let candidates : Anchored := ⟨.dense ⟨#[520]⟩, 2⟩
    let filter : Anchored := ⟨.sparse ⟨2, #[1], #[0], #[4], some 5⟩, 1⟩
    candidates.posting.Holds [3, 9] ∧ filter.posting.Holds [1, 5]
      ∧ (∀ mask, candidates.posting = .dense mask → mask.size < 2 ^ 27)
      ∧ ∃ result, candidates.near filter 1 .right = .ok result ∧ result.position = 2
        ∧ result.posting.members = .ok [3] ∧ [(3 : UInt32)].Pairwise (· < ·) := by
  intro candidates filter
  have hmask : Mask.ofMembers [3, 9] 10 = .ok ⟨#[520]⟩ := by decide
  have hc : candidates.posting.Holds [3, 9] := ⟨by decide, (Mask.holds_of_ofMembers hmask).1⟩
  have hf : filter.posting.Holds [1, 5] := ⟨by decide, by cbv⟩
  have hwords : ∀ mask, candidates.posting = .dense mask → mask.size < 2 ^ 27 := by
    intro mask heq
    cases heq
    decide
  exact ⟨hc, hf, hwords, near_decodes candidates filter [3, 9] [1, 5] 1 .right hc hf hwords⟩

end Concordance.Anchored
