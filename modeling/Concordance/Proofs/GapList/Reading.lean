import Concordance.GapList.Cursor
import Concordance.Proofs.GapList.Layout

/-!
# Reading laid out gap lists

A cursor `At` an index of a laid out list has the member before it at hand and is at the place where
the gap bytes of the member at the index start. One step yields the member at the index and leaves
the cursor at the next one (`At.next`), so that a run of steps yields a run of members (`At.take`)
and reading a list from its beginning gives all of them (`LaidOut.members_eq`).

The gap bytes behind those of a block belong to the next one. Reading does not look where they
end: a code tells its gap whatever follows.
-/

namespace Concordance.GapList

/-- The first index of a block among those of all blocks. -/
theorem blockFirsts_getElem? {length block : Nat} (h : block * blockLength < length) :
    (blockFirsts length)[block]? = some (block * blockLength) := by
  rw [blockFirsts, List.getElem?_map, List.getElem?_range (lt_blocksFor_iff.mpr h)]
  rfl

namespace LaidOut

variable {list : GapList} {members : List UInt32} {code : Nat → List UInt8}

/-- The head of a block is its first member. -/
theorem heads_getElem? (h : LaidOut list members code) {block : Nat}
    (hblock : block * blockLength < members.length) :
    list.heads[block]? = some (members.getD (block * blockLength) 0) := by
  rw [← Array.getElem?_toList, h.heads, List.getElem?_map, blockFirsts_getElem? hblock]
  rfl

/-- A block's gaps start behind those of the members before it. -/
theorem blockStarts_getElem? (h : LaidOut list members code) {block : Nat}
    (hblock : block * blockLength < members.length) :
    ∃ start, list.blockStarts[block]? = some start
      ∧ start.toNat = gapBytes code (block * blockLength) := by
  refine ⟨UInt32.ofNat (gapBytes code (block * blockLength)), ?_, ?_⟩
  · rw [← Array.getElem?_toList, h.blockStarts, List.getElem?_map, blockFirsts_getElem? hblock]
    rfl
  · exact UInt32.toNat_ofNat_of_lt' (h.starts_fit _ hblock (Nat.mul_mod_left _ _))

/-- Where the gap bytes of a member start, its distance from the member before is read. -/
theorem gapAt_eq (h : LaidOut list members code) {index : Nat} (hindex : index < members.length)
    (hinside : index % blockLength ≠ 0) :
    list.gapAt (gapBytes code index)
      = .ok (members.getD index 0 - members.getD (index - 1) 0, (code index).length) := by
  have hgaps : list.gaps.toList.drop (gapBytes code index)
      = code index ++ gapsFrom code (index + 1) (members.length - (index + 1)) := by
    rw [h.gaps, gapsFrom_split code (Nat.le_of_lt hindex), gapBytes, List.drop_left,
      show members.length - index = members.length - (index + 1) + 1 by omega, gapsFrom_succ]
  rw [gapAt, Array.toList_extract, List.extract_eq_take_drop, Nat.add_sub_cancel_left, hgaps,
    Varint.decode32_take]
  exact h.code_gap index hindex hinside _

end LaidOut

/-! ## Steps of a cursor -/

/-- A cursor of a list that stands before the member at `index`. Before a head it needs nothing;
inside a block it has the member before at hand and is where the gap bytes of the next one start. -/
structure Cursor.At (cursor : Cursor) (list : GapList) (members : List UInt32)
    (code : Nat → List UInt8) (index : Nat) : Prop where
  list_eq : cursor.list = list
  index_eq : cursor.index = index
  current : index % blockLength ≠ 0 → cursor.current = members.getD (index - 1) 0
  position : index % blockLength ≠ 0 → cursor.position = gapBytes code index

namespace Cursor.At

variable {cursor : Cursor} {list : GapList} {members : List UInt32} {code : Nat → List UInt8}
  {index : Nat}

/-- At a head, one step yields the head and goes to the first gap of its block. -/
theorem next_head (h : cursor.At list members code index) (hlaid : LaidOut list members code)
    (hindex : index < members.length) (hstop : index < cursor.stop)
    (hhead : index % blockLength = 0) :
    ∃ behind, cursor.next = .ok (some (members.getD index 0, behind))
      ∧ behind.At list members code (index + 1) ∧ behind.stop = cursor.stop := by
  have hfirst : index / blockLength * blockLength = index := by
    unfold blockLength at hhead ⊢
    omega
  have hinside : index / blockLength * blockLength < members.length := by omega
  have hvalue := hlaid.heads_getElem? hinside
  obtain ⟨start, hstart, hposition⟩ := hlaid.blockStarts_getElem? hinside
  rw [hfirst] at hvalue hposition
  refine ⟨{ cursor with
    index := cursor.index + 1, position := start.toNat, current := members.getD index 0 }, ?_,
    ⟨h.list_eq, congrArg (· + 1) h.index_eq, ?_, ?_⟩, rfl⟩
  · unfold Cursor.next
    rw [h.list_eq, h.index_eq, if_neg (Nat.not_le_of_lt hstop), if_pos hhead]
    simp only [hstart, hvalue]
  · intro _
    rw [Nat.add_sub_cancel]
  · intro _
    -- the head itself has no gap bytes
    rw [gapBytes_succ, hlaid.code_head index hindex hhead]
    exact hposition

/-- Inside a block, one step reads the gap at the cursor's place, which leads to the member at its
index and stays within 32 bits. -/
theorem next_gap (h : cursor.At list members code index) (hlaid : LaidOut list members code)
    (hindex : index < members.length) (hstop : index < cursor.stop)
    (hhead : index % blockLength ≠ 0) :
    ∃ behind, cursor.next = .ok (some (members.getD index 0, behind))
      ∧ behind.At list members code (index + 1) ∧ behind.stop = cursor.stop := by
  have hpos : index - 1 + 1 = index := by
    rcases index with _ | index
    · exact absurd rfl hhead
    · rfl
  obtain ⟨hlt, hgap⟩ := toNat_gap hlaid.ascending (index - 1) (by omega)
  rw [hpos] at hlt hgap
  have hfits : ¬ UInt32.size ≤ cursor.current.toNat
      + (members.getD index 0 - members.getD (index - 1) 0).toNat := by
    have := (members.getD index 0).toNat_lt_size
    rw [h.current hhead, hgap]
    omega
  have hvalue : cursor.current + (members.getD index 0 - members.getD (index - 1) 0)
      = members.getD index 0 := by
    rw [h.current hhead, UInt32.add_comm, UInt32.sub_add_cancel]
  refine ⟨{ cursor with
    index := cursor.index + 1
    position := cursor.position + (code index).length
    current := members.getD index 0 }, ?_, ⟨h.list_eq, congrArg (· + 1) h.index_eq, ?_, ?_⟩, rfl⟩
  · unfold Cursor.next
    rw [h.list_eq, h.index_eq, if_neg (Nat.not_le_of_lt hstop), if_neg hhead, h.position hhead,
      hlaid.gapAt_eq hindex hhead]
    simp only [if_neg hfits, hvalue]
  · intro _
    rw [Nat.add_sub_cancel]
  · intro _
    show cursor.position + (code index).length = _
    rw [h.position hhead, gapBytes_succ]

/-- One step yields the member at the cursor's index. -/
theorem next (h : cursor.At list members code index) (hlaid : LaidOut list members code)
    (hindex : index < members.length) (hstop : index < cursor.stop) :
    ∃ behind, cursor.next = .ok (some (members.getD index 0, behind))
      ∧ behind.At list members code (index + 1) ∧ behind.stop = cursor.stop := by
  by_cases hhead : index % blockLength = 0
  · exact h.next_head hlaid hindex hstop hhead
  · exact h.next_gap hlaid hindex hstop hhead

/-- A cursor at its stop yields nothing. -/
theorem next_at_stop (h : cursor.At list members code index) (hstop : cursor.stop ≤ index) :
    cursor.next = .ok none := by
  unfold Cursor.next
  rw [h.index_eq, if_pos hstop]

/-- A run of steps yields a run of members, as far as the stop. -/
theorem take (h : cursor.At list members code index) (hlaid : LaidOut list members code)
    (hstop : cursor.stop ≤ members.length) (count : Nat) :
    ∃ behind, cursor.take count
        = .ok (((members.take cursor.stop).drop index).take count, behind)
      ∧ behind.stop = cursor.stop
      ∧ (index ≤ cursor.stop → behind.At list members code (min (index + count) cursor.stop)) := by
  -- each step moves the invariant on by one index, until the stop
  induction count generalizing cursor index with
  | zero =>
    refine ⟨cursor, rfl, rfl, fun hindex => ?_⟩
    rw [Nat.add_zero, Nat.min_eq_left hindex]
    exact h
  | succ count ih =>
    by_cases hindex : index < cursor.stop
    · obtain ⟨middle, hnext, hmiddle, hsame⟩ := h.next hlaid (by omega) hindex
      obtain ⟨behind, htake, hbehind, hat⟩ := ih hmiddle (by rw [hsame]; exact hstop)
      have hlt : index < (members.take cursor.stop).length := by
        rw [List.length_take]
        omega
      have hfirst : members.getD index 0 = (members.take cursor.stop)[index] := by
        rw [List.getElem_take, List.getD_eq_getElem _ _ (by omega)]
      refine ⟨behind, ?_, hbehind.trans hsame, fun _ => ?_⟩
      · rw [Cursor.take, hnext]
        show (middle.take count >>= _) = _
        rw [htake, hsame, List.drop_eq_getElem_cons hlt, List.take_succ_cons, ← hfirst]
        rfl
      · rw [hsame] at hat
        rw [← Nat.add_assoc, Nat.add_right_comm]
        exact hat hindex
    · have hnone : ((members.take cursor.stop).drop index).take (count + 1) = [] := by
        rw [List.drop_eq_nil_of_le (by rw [List.length_take]; omega), List.take_nil]
      refine ⟨cursor, ?_, rfl, fun hle => ?_⟩
      · rw [Cursor.take, h.next_at_stop (Nat.le_of_not_lt hindex), hnone]
        rfl
      · rw [show min (index + (count + 1)) cursor.stop = index by omega]
        exact h

/-- Reading on to the stop yields all members before it. -/
theorem rest (h : cursor.At list members code index) (hlaid : LaidOut list members code)
    (hstop : cursor.stop ≤ members.length) :
    cursor.rest = .ok ((members.take cursor.stop).drop index) := by
  obtain ⟨behind, htake, -, -⟩ := h.take hlaid hstop cursor.remaining
  have hall : ((members.take cursor.stop).drop index).length ≤ cursor.remaining := by
    rw [List.length_drop, List.length_take, remaining, h.index_eq]
    omega
  rw [Cursor.rest, htake, List.take_of_length_le hall]
  rfl

end Cursor.At

/-! ## All members -/

namespace LaidOut

variable {list : GapList} {members : List UInt32} {code : Nat → List UInt8}

/-- The cursor before the first member. -/
theorem cursor_at (list : GapList) (members : List UInt32) (code : Nat → List UInt8) :
    list.cursor.At list members code 0 where
  list_eq := rfl
  index_eq := rfl
  current := fun hinside => absurd rfl hinside
  position := fun hinside => absurd rfl hinside

/-- A laid out list reads back as its members. -/
theorem members_eq (h : LaidOut list members code) : list.members = .ok members := by
  have hstop : list.cursor.stop = members.length := h.length
  rw [GapList.members, (cursor_at list members code).rest h (Nat.le_of_eq hstop), hstop,
    List.take_length, List.drop_zero]

end LaidOut

/-- After any number of steps a cursor has yielded as many of the members, knows how many are left,
and goes on with these. -/
def Cursor.Streams (cursor : Cursor) (members : List UInt32) : Prop :=
  ∀ count, ∃ behind, cursor.take count = .ok (members.take count, behind)
    ∧ behind.remaining = members.length - count
    ∧ ∀ more, ∃ last, behind.take more = .ok ((members.drop count).take more, last)

/-- The cursor before the first member of a laid out list yields its members one after the other. -/
theorem LaidOut.streams_cursor {list : GapList} {members : List UInt32} {code : Nat → List UInt8}
    (h : LaidOut list members code) : list.cursor.Streams members := by
  intro count
  have hstop : list.cursor.stop = members.length := h.length
  obtain ⟨behind, htake, hsame, hat⟩ :=
    (LaidOut.cursor_at list members code).take h (Nat.le_of_eq hstop) count
  rw [hstop] at htake hsame hat
  rw [List.take_length, List.drop_zero] at htake
  have hbehind := hat (Nat.zero_le _)
  rw [Nat.zero_add] at hbehind
  refine ⟨behind, htake, ?_, fun more => ?_⟩
  · rw [Cursor.remaining, hsame, hbehind.index_eq]
    omega
  · obtain ⟨last, hmore, -, -⟩ := hbehind.take h (Nat.le_of_eq hsame) more
    refine ⟨last, ?_⟩
    rw [hmore, hsame, List.take_length, ← List.drop_eq_drop_min]

/-- What was made from members reads back as them. -/
theorem members_ofMembers {members : List UInt32} {list : GapList}
    (h : ofMembers members = .ok list) : list.members = .ok members :=
  (laidOut_of_ofMembers h).members_eq

end Concordance.GapList
