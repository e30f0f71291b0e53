import Concordance.Proofs.GapList.Checking
import Concordance.Proofs.GapList.Pushing

/-!
# Byte offsets of gap lists

Block starts are kept in 32 bits, and pushing cuts the number of gap bytes to these without a check.
Nothing is lost: the varint of a gap takes at most as many bytes as the gap says, heads take none, and
the gaps add up to at most the last member (`LaidOut.size_gaps_le_last`). So every start is the place
where the gaps of its block are, and what lies between the start and the stop of a block are its gaps
(`LaidOut.extract_block`).

- `OffsetsExact`: what is so of the offsets of a list.
- `offsets_never_truncate`: it is so after every push.
-/

namespace Concordance.GapList

/-! ## Offsets of a layout -/

/-- More members have no fewer gap bytes. -/
theorem gapBytes_mono (code : Nat → List UInt8) {count more : Nat} (h : count ≤ more) :
    gapBytes code count ≤ gapBytes code more := by
  obtain ⟨further, rfl⟩ := Nat.exists_eq_add_of_le h
  rw [gapBytes_add]
  exact Nat.le_add_right _ _

/-- The gap bytes of the members of a block. -/
def blockGaps (code : Nat → List UInt8) (length block : Nat) : List UInt8 :=
  gapsFrom code (block * blockLength) (min (length - block * blockLength) blockLength)

namespace LaidOut

variable {list : GapList} {members : List UInt32} {code : Nat → List UInt8}

/-- Shortest codes take at most as many bytes as the last member says. -/
theorem size_gaps_le_last (h : LaidOut list members (shortest members)) :
    list.gaps.size ≤ (list.last.getD 0).toNat := by
  rw [h.size_gaps, h.last]
  cases hlast : members.getLast? with
  | none =>
    rw [List.getLast?_eq_none_iff] at hlast
    subst hlast
    exact Nat.zero_le _
  | some last =>
    have hpos : 0 < members.length := List.length_pos_of_mem (List.mem_of_getLast? hlast)
    have hle := gapBytes_le h.ascending (Nat.sub_one_lt_of_lt hpos)
    rw [Nat.sub_one_add_one_eq_of_pos hpos, getD_pred_length hlast] at hle
    exact hle

/-- A list has as many block starts as its members have blocks. -/
theorem size_blockStarts (h : LaidOut list members code) :
    list.blockStarts.size = blocksFor members.length := by
  rw [← Array.length_toList, h.blockStarts, List.length_map, length_blockFirsts]

/-- The blocks with a start are those with a member. -/
theorem lt_size_blockStarts_iff (h : LaidOut list members code) (block : Nat) :
    block < list.blockStarts.size ↔ block * blockLength < members.length := by
  rw [h.size_blockStarts]
  exact lt_blocksFor_iff

/-- A block start is where the gap bytes of the members before the block end. -/
theorem toNat_getElem_blockStarts (h : LaidOut list members code) {block : Nat}
    (hblock : block < list.blockStarts.size) :
    list.blockStarts[block].toNat = gapBytes code (block * blockLength) := by
  obtain ⟨start, hstart, hoffset⟩ :=
    h.blockStarts_getElem? ((h.lt_size_blockStarts_iff block).mp hblock)
  rw [Array.getElem?_eq_getElem hblock] at hstart
  cases hstart
  exact hoffset

/-- No block starts behind one that comes later. -/
theorem blockStarts_ascend (h : LaidOut list members code) :
    list.blockStarts.toList.Pairwise (· ≤ ·) := by
  refine List.pairwise_iff_getElem.mpr fun block later hblock hlater hlt => ?_
  rw [Array.length_toList] at hblock hlater
  rw [Array.getElem_toList, Array.getElem_toList, UInt32.le_iff_toNat_le,
    h.toNat_getElem_blockStarts hblock, h.toNat_getElem_blockStarts hlater]
  exact gapBytes_mono code (Nat.mul_le_mul_right _ (Nat.le_of_lt hlt))

/-- No block starts behind the last gap byte. -/
theorem blockStart_le_size (h : LaidOut list members code) {start : UInt32}
    (hstart : start ∈ list.blockStarts) : start.toNat ≤ list.gaps.size := by
  obtain ⟨block, hblock, rfl⟩ := Array.mem_iff_getElem.mp hstart
  have hmember := (h.lt_size_blockStarts_iff block).mp hblock
  rw [h.toNat_getElem_blockStarts hblock, h.size_gaps]
  exact gapBytes_mono code (Nat.le_of_lt hmember)

/-- A block stops as many bytes behind its start as it has gap bytes. -/
theorem toNat_blockStop_eq (h : LaidOut list members code) (hfit : list.gaps.size < UInt32.size)
    {block : Nat} (hblock : block < list.heads.size) :
    (list.blockStop block).toNat
      = (list.blockStart block).toNat + (blockGaps code members.length block).length := by
  have hmember := (h.lt_size_heads_iff block).mp hblock
  rw [h.toNat_blockStop hfit, h.toNat_blockStart hmember, block_end hmember, gapBytes_add]
  rfl

/-- What lies between the start and the stop of a block are the gap bytes of its members. -/
theorem extract_block (h : LaidOut list members code) (hfit : list.gaps.size < UInt32.size)
    {block : Nat} (hblock : block < list.heads.size) :
    (list.gaps.extract (list.blockStart block).toNat (list.blockStop block).toNat).toList
      = blockGaps code members.length block := by
  have hmember := (h.lt_size_heads_iff block).mp hblock
  have hbehind : list.gaps.toList.drop (list.blockStart block).toNat
      = gapsFrom code (block * blockLength) (members.length - block * blockLength) := by
    rw [h.gaps, h.toNat_blockStart hmember, gapsFrom_split code (Nat.le_of_lt hmember), gapBytes,
      List.drop_left]
  rw [Array.toList_extract, List.extract_eq_take_drop, h.toNat_blockStop_eq hfit hblock,
    Nat.add_sub_cancel_left, hbehind, gapsFrom_block]
  exact List.take_left

end LaidOut

/-! ## Offsets while pushing -/

/-- The byte offsets of a list that holds `members` are what they stand for: 32 bits have been enough
for each of them. -/
structure OffsetsExact (list : GapList) (members : List UInt32) : Prop where
  /-- The list knows its last member. -/
  last_eq : list.last = members.getLast?
  /-- The gap bytes are at most as many as the last member says. -/
  size_le_last : list.gaps.size ≤ (list.last.getD 0).toNat
  /-- 32 bits hold the number of gap bytes. -/
  size_fits : list.gaps.size ≤ 2 ^ 32 - 1
  /-- The gap bytes are the varints of the members' distances, in order. -/
  gaps_eq : list.gaps.toList = gapsFrom (shortest members) 0 members.length
  /-- Every block has a head. -/
  size_heads : list.heads.size = blocksFor members.length
  /-- Every block has a start. -/
  size_starts : list.blockStarts.size = blocksFor members.length
  /-- A block starts behind the gap bytes of the members before it. -/
  start_eq : ∀ block (h : block < list.blockStarts.size),
    list.blockStarts[block].toNat = gapBytes (shortest members) (block * blockLength)
  /-- No block starts behind a later one. -/
  starts_ascend : list.blockStarts.toList.Pairwise (· ≤ ·)
  /-- No block starts behind the last gap byte. -/
  start_le_size : ∀ start ∈ list.blockStarts, start.toNat ≤ list.gaps.size
  /-- No block stops before its start. -/
  start_le_stop : ∀ block < list.heads.size, list.blockStart block ≤ list.blockStop block
  /-- Between the start and the stop of a block are the gap bytes of its members. -/
  between : ∀ block < list.heads.size,
    (list.gaps.extract (list.blockStart block).toNat (list.blockStop block).toNat).toList
      = blockGaps (shortest members) members.length block
  /-- The number of gap bytes that is written for a block is the number of those between. -/
  blockBytes_eq : ∀ block < list.heads.size,
    (list.blockBytes block).toNat = (blockGaps (shortest members) members.length block).length

variable {list : GapList} {members : List UInt32}

/-- The offsets of a list in shortest codes are exact. -/
theorem LaidOut.offsetsExact (h : LaidOut list members (shortest members)) :
    OffsetsExact list members := by
  have hle := h.size_gaps_le_last
  have hlast : (list.last.getD 0).toNat < 2 ^ 32 := (list.last.getD 0).toNat_lt
  have hfit : list.gaps.size < UInt32.size := Nat.lt_of_le_of_lt hle hlast
  exact {
    last_eq := h.last
    size_le_last := hle
    size_fits := Nat.le_sub_one_of_lt hfit
    gaps_eq := h.gaps
    size_heads := h.size_heads
    size_starts := h.size_blockStarts
    start_eq := fun _ => h.toNat_getElem_blockStarts
    starts_ascend := h.blockStarts_ascend
    start_le_size := fun _ => h.blockStart_le_size
    start_le_stop := fun block hblock => by
      rw [UInt32.le_iff_toNat_le, h.toNat_blockStop_eq hfit hblock]
      exact Nat.le_add_right _ _
    between := fun _ => h.extract_block hfit
    blockBytes_eq := fun block hblock =>
      h.toNat_blockBytes hfit ((h.lt_size_heads_iff block).mp hblock) }

/-- A loop of pushes in place takes ascending members behind smaller ones, if there is room for
them. -/
theorem LaidOut.run_forM_of_ascending (h : LaidOut list members (shortest members))
    {values : List UInt32} (hasc : (members ++ values).Pairwise (· < ·))
    (hroom : (members ++ values).length < UInt32.size) :
    ∃ grown, (values.forM pushInPlace).run list = .ok () grown
      ∧ LaidOut grown (members ++ values) (shortest (members ++ values)) := by
  obtain ⟨grown, hgrown⟩ := h.pushAll_of_ascending values hasc hroom
  rw [List.length_append] at hroom
  refine ⟨grown, ?_, h.pushAll values hgrown⟩
  rw [h.run_forM_pushInPlace values hroom, hgrown]

/-- While ascending members, fewer than `2 ^ 32`, are pushed, all byte offsets stay exact. Wherever
the pushes are cut into those done and those to come, the list has at most as many gap bytes as its
last member says, thus at most `2 ^ 32 - 1`; every block start is the true offset of its block, the
starts never fall and do not lie behind the gap bytes; and no block that would be written stops
before it starts. -/
theorem offsets_never_truncate (hasc : members.Pairwise (· < ·))
    (hlength : members.length < 2 ^ 32) :
    ∃ whole, (members.forM pushInPlace).run empty = .ok () whole
      ∧ ∀ before later, before ++ later = members →
        ∃ list, (before.forM pushInPlace).run empty = .ok () list
          ∧ (later.forM pushInPlace).run list = .ok () whole
          ∧ OffsetsExact list before := by
  have hempty := laidOut_empty (shortest [])
  obtain ⟨whole, hwhole, -⟩ := hempty.run_forM_of_ascending hasc hlength
  refine ⟨whole, hwhole, ?_⟩
  rintro before later rfl
  have hbefore : before.length < UInt32.size :=
    Nat.lt_of_le_of_lt (List.length_append.symm ▸ Nat.le_add_right _ _) hlength
  obtain ⟨list, hlist, hlaid⟩ :=
    hempty.run_forM_of_ascending (List.pairwise_append.mp hasc).1 hbefore
  refine ⟨list, hlist, ?_, hlaid.offsetsExact⟩
  -- the pushes to come start from what those before them have left
  have hsplit : (before ++ later).forM pushInPlace
      = before.forM pushInPlace >>= fun _ => later.forM pushInPlace := List.forM_append
  rw [hsplit, EStateM.run_bind, hlist] at hwhole
  exact hwhole

/-- Sixty-five members at distances of two bytes: the second block starts behind sixty-three gaps. -/
theorem offsets_never_truncate_second_block :
    let members := (List.range 65).map fun index => UInt32.ofNat (200 * index)
    members.Pairwise (· < ·) ∧ members.length < 2 ^ 32
      ∧ ∃ whole, (members.forM pushInPlace).run empty = .ok () whole
      ∧ OffsetsExact whole members ∧ ∃ h : 1 < whole.blockStarts.size,
        whole.blockStarts[1].toNat = 126 := by
  intro members
  have hasc : members.Pairwise (· < ·) := by decide +kernel
  have hlength : members.length < 2 ^ 32 := by decide
  obtain ⟨whole, hwhole, hcuts⟩ := offsets_never_truncate hasc hlength
  obtain ⟨list, hlist, hnone, hexact⟩ := hcuts members [] (List.append_nil members)
  -- nothing is left to be pushed
  cases hnone
  have hsecond : 1 < whole.blockStarts.size := by
    rw [hexact.size_starts]
    decide
  refine ⟨hasc, hlength, whole, hwhole, hexact, hsecond, ?_⟩
  rw [hexact.start_eq 1 hsecond]
  decide +kernel

end Concordance.GapList
