import Concordance.Proofs.GapList.Reading
import Concordance.Proofs.Search

/-!
# Looking for a range in a gap list

The heads of a laid out list ascend, so that searching them finds the last block that starts within
the range's end (`LaidOut.head_le_iff`). The members of the blocks before it are smaller than its
head, and those of the blocks behind it are beyond the range, so that this block alone decides
(`LaidOut.meetsRange_eq`).
-/

namespace Concordance.GapList.LaidOut

variable {list : GapList} {members : List UInt32} {code : Nat → List UInt8}

/-- A list has as many heads as its members have blocks. -/
theorem size_heads (h : LaidOut list members code) :
    list.heads.size = blocksFor members.length := by
  rw [← Array.length_toList, h.heads, List.length_map, length_blockFirsts]

/-- The blocks with a head are those with a member. -/
theorem lt_size_heads_iff (h : LaidOut list members code) (block : Nat) :
    block < list.heads.size ↔ block * blockLength < members.length := by
  rw [h.size_heads]
  exact lt_blocksFor_iff

theorem heads_getElem (h : LaidOut list members code) {block : Nat}
    (hblock : block < list.heads.size) :
    list.heads[block] = members.getD (block * blockLength) 0 := by
  have hhead := h.heads_getElem? ((h.lt_size_heads_iff block).mp hblock)
  rw [Array.getElem?_eq_getElem hblock] at hhead
  exact Option.some.inj hhead

theorem head_eq (h : LaidOut list members code) {block : Nat}
    (hblock : block < list.heads.size) :
    list.head block = members.getD (block * blockLength) 0 := by
  rw [head, Array.getD_eq_getD_getElem?, h.heads_getElem? ((h.lt_size_heads_iff block).mp hblock),
    Option.getD_some]

/-- Searching the heads tells the blocks that start within a bound from those that do not. -/
theorem partitionPoint_heads (h : LaidOut list members code) (final : UInt32) :
    partitionPoint list.heads (· ≤ final) ≤ list.heads.size
      ∧ ∀ block, block * blockLength < members.length →
        (members.getD (block * blockLength) 0 ≤ final
          ↔ block < partitionPoint list.heads (· ≤ final)) := by
  have hsearch := getElem_iff_lt_partitionPoint list.heads (· ≤ final) ?_
  · refine ⟨hsearch.1, fun block hblock => ?_⟩
    have hsize := (h.lt_size_heads_iff block).mpr hblock
    rw [← hsearch.2 block hsize, h.heads_getElem hsize, decide_eq_true_iff]
  · -- heads ascend, since members do
    intro first second hfirst hsecond hle hfinal
    rw [decide_eq_true_iff] at hfinal ⊢
    rcases Nat.lt_or_eq_of_le hle with hlt | rfl
    · have hhead : list.heads[first] < list.heads[second] := by
        rw [h.heads_getElem hfirst, h.heads_getElem hsecond]
        exact getD_lt_getD h.ascending (Nat.mul_lt_mul_of_pos_right hlt (by decide))
          ((h.lt_size_heads_iff second).mp hsecond)
      exact UInt32.le_trans (UInt32.le_of_lt hhead) hfinal
    · exact hfinal

/-- Reading a block gives its members. -/
theorem blockCursor_rest (h : LaidOut list members code) (block : Nat) :
    (list.blockCursor block).rest
      = .ok ((members.take (min ((block + 1) * blockLength) members.length)).drop
        (block * blockLength)) := by
  have hat : (list.blockCursor block).At list members code (block * blockLength) := {
    list_eq := rfl
    index_eq := rfl
    current := fun hinside => absurd (Nat.mul_mod_left _ _) hinside
    position := fun hinside => absurd (Nat.mul_mod_left _ _) hinside }
  have hstop : (list.blockCursor block).stop = min ((block + 1) * blockLength) members.length := by
    rw [← h.length]
    rfl
  rw [hat.rest h (by rw [hstop]; exact Nat.min_le_right _ _), hstop]

/-- If the last block that starts within a range's end starts before the range, then a member in
the range is a member of this block. -/
theorem mem_block_of_mem (h : LaidOut list members code) {first final : UInt32} {block : Nat}
    (hinside : block * blockLength < members.length)
    (hhead : members.getD (block * blockLength) 0 < first)
    (hbehind : (block + 1) * blockLength < members.length →
      final < members.getD ((block + 1) * blockLength) 0)
    {member : UInt32} (hmember : member ∈ members) (hfirst : first ≤ member)
    (hfinal : member ≤ final) :
    member ∈ (members.take (min ((block + 1) * blockLength) members.length)).drop
      (block * blockLength) := by
  obtain ⟨index, hindex, rfl⟩ := List.mem_iff_getElem.mp hmember
  rw [← List.getD_eq_getElem _ 0 hindex] at hfirst hfinal
  have hstart : block * blockLength ≤ index := by
    -- a member before the block is smaller than its head
    refine Nat.le_of_not_lt fun hlt => ?_
    have hbelow := UInt32.lt_trans (getD_lt_getD h.ascending hlt hinside) hhead
    exact absurd hfirst (UInt32.not_le.mpr hbelow)
  have hstop : index < (block + 1) * blockLength := by
    -- a member behind the block is not smaller than the next head
    refine Nat.lt_of_not_le fun hle => ?_
    have hnext := hbehind (by omega)
    rcases Nat.lt_or_eq_of_le hle with hlt | heq
    · have habove := UInt32.lt_trans hnext (getD_lt_getD h.ascending hlt hindex)
      exact absurd hfinal (UInt32.not_le.mpr habove)
    · rw [heq] at hnext
      exact absurd hfinal (UInt32.not_le.mpr hnext)
  refine List.mem_iff_getElem.mpr ⟨index - block * blockLength, ?_, ?_⟩
  · rw [List.length_drop, List.length_take]
    omega
  · simp only [List.getElem_drop, List.getElem_take, Nat.add_sub_cancel' hstart]

/-- The members of this block in the range are all members in the range. -/
theorem exists_mem_block_iff (h : LaidOut list members code) {first final : UInt32} {block : Nat}
    (hinside : block * blockLength < members.length)
    (hhead : members.getD (block * blockLength) 0 < first)
    (hbehind : (block + 1) * blockLength < members.length →
      final < members.getD ((block + 1) * blockLength) 0) :
    (∃ member ∈ (members.take (min ((block + 1) * blockLength) members.length)).drop
        (block * blockLength), first ≤ member ∧ member ≤ final)
      ↔ ∃ member ∈ members, first ≤ member ∧ member ≤ final := by
  constructor
  · rintro ⟨member, hmember, hrange⟩
    exact ⟨member, List.mem_of_mem_take (List.mem_of_mem_drop hmember), hrange⟩
  · rintro ⟨member, hmember, hrange⟩
    exact ⟨member, h.mem_block_of_mem hinside hhead hbehind hmember hrange.1 hrange.2, hrange⟩

/-- If no block starts within a bound, all members are beyond it. -/
theorem lt_of_partitionPoint_eq_zero (h : LaidOut list members code) {final : UInt32}
    (hpoint : partitionPoint list.heads (· ≤ final) = 0) : ∀ member ∈ members, final < member := by
  intro member hmember
  refine UInt32.not_le.mp fun hle => ?_
  have hsome : 0 * blockLength < members.length := by
    rw [Nat.zero_mul]
    exact List.length_pos_of_mem hmember
  have hhead : members.getD (0 * blockLength) 0 ≤ final := by
    rw [Nat.zero_mul]
    exact UInt32.le_trans (getD_zero_le_of_mem h.ascending hmember) hle
  have hlt := ((h.partitionPoint_heads final).2 0 hsome).mp hhead
  rw [hpoint] at hlt
  exact Nat.lt_irrefl 0 hlt

/-- A range query finds out whether some member lies in the range. -/
theorem meetsRange_eq (h : LaidOut list members code) (first final : UInt32) :
    list.meetsRange first final
      = .ok (decide (∃ member ∈ members, first ≤ member ∧ member ≤ final)) := by
  unfold meetsRange
  by_cases hnone : final < first || list.isEmpty
  · rw [if_pos hnone, decide_eq_false]
    rintro ⟨member, hmember, hfirst, hfinal⟩
    rcases Bool.or_eq_true_iff.mp hnone with hrange | hempty
    · have hlt := decide_eq_true_iff.mp hrange
      exact absurd (UInt32.le_trans hfirst hfinal) (UInt32.not_le.mpr hlt)
    · have hlength : list.length = 0 := by simpa [isEmpty] using hempty
      rw [← UInt32.toNat_inj, h.length, UInt32.toNat_zero, List.length_eq_zero_iff] at hlength
      rw [hlength] at hmember
      cases hmember
  rw [if_neg hnone]
  obtain ⟨hle, hheads⟩ := h.partitionPoint_heads final
  cases hpoint : partitionPoint list.heads (· ≤ final) with
  | zero =>
    show Except.ok false = _
    rw [decide_eq_false]
    rintro ⟨member, hmember, -, hfinal⟩
    exact absurd hfinal (UInt32.not_le.mpr (h.lt_of_partitionPoint_eq_zero hpoint member hmember))
  | succ block =>
    rw [hpoint] at hle hheads
    have hinside := (h.lt_size_heads_iff block).mp hle
    have hwithin := (hheads block hinside).mpr (Nat.lt_succ_self block)
    show (if first ≤ list.head block then _ else _) = _
    rw [h.head_eq hle]
    by_cases hfirst : first ≤ members.getD (block * blockLength) 0
    · rw [if_pos hfirst, decide_eq_true]
      rw [List.getD_eq_getElem _ _ hinside] at hfirst hwithin
      exact ⟨_, List.getElem_mem hinside, hfirst, hwithin⟩
    · have hbehind : (block + 1) * blockLength < members.length →
          final < members.getD ((block + 1) * blockLength) 0 := by
        intro hnext
        exact UInt32.not_le.mp fun hle =>
          absurd ((hheads (block + 1) hnext).mp hle) (Nat.lt_irrefl _)
      rw [if_neg hfirst, h.blockCursor_rest]
      show Except.ok _ = _
      rw [find?_any_of_ascending
        ((h.ascending.sublist (List.take_sublist _ _)).sublist (List.drop_sublist _ _)),
        decide_eq_decide.mpr (h.exists_mem_block_iff hinside (UInt32.not_le.mp hfirst) hbehind)]

end Concordance.GapList.LaidOut
