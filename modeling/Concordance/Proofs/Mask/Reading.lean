import Concordance.Mask.Cursor
import Concordance.Proofs.Mask.Members

/-!
# Reading a mask bit by bit

A cursor `At` a position of a mask has read the positions below it and no others. It yields the
first set position from there on and stands behind it (`At.next`): clearing the lowest bit of a word
takes away that bit and no other (`testBit_clearLowest`), and a word that is passed over has no set
position left (`At.advance`). A run of steps therefore yields a run of the members (`At.take`,
`take_cursor`).
-/

namespace Concordance.Mask

/-! ## The lowest bit of a word -/

section

variable {word : UInt32}

theorem lowestBit_lt (h : word ≠ 0) : lowestBit word < 32 := by
  have hne : word.toBitVec ≠ 0#32 := fun hzero => h (UInt32.toBitVec_inj.mp hzero)
  exact BitVec.ctz_lt_iff_ne_zero.mpr hne

theorem testBit_lowestBit (h : word ≠ 0) : word.toNat.testBit (lowestBit word) = true := by
  have hne : word.toBitVec ≠ 0#32 := fun hzero => h (UInt32.toBitVec_inj.mp hzero)
  exact BitVec.getLsbD_true_ctz_of_ne_zero hne

/-- No bit below the lowest one is set. -/
theorem testBit_of_lt_lowestBit {bit : Nat} (h : bit < lowestBit word) :
    word.toNat.testBit bit = false :=
  BitVec.getLsbD_false_of_lt_ctz h

/-- A word is its lowest bit and the bits above it. -/
theorem toNat_eq_lowestBit (h : word ≠ 0) :
    word.toNat = 2 ^ (lowestBit word + 1) * (word.toNat / 2 ^ (lowestBit word + 1))
      + 2 ^ lowestBit word := by
  have hlow : word.toNat % 2 ^ (lowestBit word + 1) = 2 ^ lowestBit word := by
    refine Nat.eq_of_testBit_eq fun bit => ?_
    rw [Nat.testBit_mod_two_pow, Nat.testBit_two_pow]
    rcases Nat.lt_trichotomy bit (lowestBit word) with hlt | heq | hgt
    · rw [testBit_of_lt_lowestBit hlt, Bool.and_false, decide_eq_false (Nat.ne_of_gt hlt)]
    · rw [heq, testBit_lowestBit h, decide_eq_true rfl, decide_eq_true (Nat.lt_succ_self _)]
      rfl
    · rw [decide_eq_false (by omega), Bool.false_and, decide_eq_false (Nat.ne_of_lt hgt)]
  rw [← hlow, Nat.div_add_mod]

/-- Clearing the lowest bit clears it and leaves all others. -/
theorem testBit_clearLowest (h : word ≠ 0) (bit : Nat) :
    (clearLowest word).toNat.testBit bit = true
      ↔ bit ≠ lowestBit word ∧ word.toNat.testBit bit = true := by
  generalize hlow : lowestBit word = low
  obtain ⟨high, hword⟩ : ∃ high, word.toNat = 2 ^ (low + 1) * high + 2 ^ low :=
    ⟨_, hlow ▸ toNat_eq_lowestBit h⟩
  have hpos : 1 ≤ 2 ^ low := Nat.one_le_two_pow
  have hlt : 2 ^ low < 2 ^ (low + 1) := Nat.pow_lt_pow_right (by decide) (Nat.lt_succ_self low)
  have hone : (1 : UInt32) ≤ word := by
    rw [UInt32.le_iff_toNat_le, UInt32.toNat_one, hword]
    omega
  have hbelow : (word - 1).toNat = 2 ^ (low + 1) * high + (2 ^ low - 1) := by
    rw [UInt32.toNat_sub_of_le _ _ hone, UInt32.toNat_one, hword]
    omega
  -- above the lowest bit the word and the one less agree, below it the word has no bits
  rw [clearLowest, UInt32.toNat_and, Nat.testBit_and, hbelow, hword,
    Nat.testBit_two_pow_mul_add _ hlt, Nat.testBit_two_pow_mul_add _ (by omega)]
  by_cases hinside : bit < low + 1
  · rw [if_pos hinside, if_pos hinside, Nat.testBit_two_pow, Nat.testBit_two_pow_sub_one]
    simp only [Bool.and_eq_true, decide_eq_true_eq]
    omega
  · rw [if_neg hinside, if_neg hinside, Bool.and_self]
    exact (and_iff_right (by omega)).symm

end

/-! ## Positions from a place on -/

/-- The set positions from `start` on, in ascending order. -/
def positionsFrom (mask : Mask) (start : Nat) : List Nat :=
  mask.positions.filter (start ≤ ·)

theorem mem_positionsFrom (mask : Mask) (start position : Nat) :
    position ∈ mask.positionsFrom start ↔ start ≤ position ∧ mask.test position = true := by
  rw [positionsFrom, List.mem_filter, mem_positions, decide_eq_true_iff, and_comm]

theorem positionsFrom_zero (mask : Mask) : mask.positionsFrom 0 = mask.positions :=
  List.filter_eq_self.mpr fun _ _ => decide_eq_true (Nat.zero_le _)

theorem positionsFrom_ascending (mask : Mask) (start : Nat) :
    (mask.positionsFrom start).Pairwise (· < ·) :=
  mask.positions_ascending.filter _

/-- There are no positions behind the words. -/
theorem positionsFrom_eq_nil {mask : Mask} {start : Nat} (h : wordBits * mask.size ≤ start) :
    mask.positionsFrom start = [] := by
  refine List.eq_nil_iff_forall_not_mem.mpr fun position hposition => ?_
  obtain ⟨hle, hset⟩ := (mask.mem_positionsFrom _ _).mp hposition
  have hbounds := (test_bounds hset).2
  unfold wordBits at h
  omega

/-- Places with no set position between them have the same positions from them on. -/
theorem positionsFrom_congr {mask : Mask} {start later : Nat} (hle : start ≤ later)
    (hnone : ∀ position, start ≤ position → position < later → ¬ mask.test position = true) :
    mask.positionsFrom start = mask.positionsFrom later := by
  refine List.filter_congr fun position hposition => ?_
  refine decide_eq_decide.mpr ⟨fun hstart => Nat.le_of_not_lt fun hlt => ?_, hle.trans⟩
  exact hnone position hstart hlt ((mask.mem_positions position).mp hposition)

/-- A set position comes before those behind it. -/
theorem positionsFrom_self {mask : Mask} {position : Nat} (h : mask.test position = true) :
    mask.positionsFrom position = position :: mask.positionsFrom (position + 1) := by
  have hasc : (position :: mask.positionsFrom (position + 1)).Pairwise (· < ·) := by
    refine List.pairwise_cons.mpr ⟨fun later hlater => ?_, mask.positionsFrom_ascending _⟩
    exact ((mask.mem_positionsFrom _ _).mp hlater).1
  refine List.Pairwise.eq_of_mem_iff (mask.positionsFrom_ascending position) hasc fun other => ?_
  rw [List.mem_cons, mem_positionsFrom, mem_positionsFrom]
  constructor
  · rintro ⟨hother, hset⟩
    rcases Nat.eq_or_lt_of_le hother with heq | hlt
    · exact .inl heq.symm
    · exact .inr ⟨hlt, hset⟩
  · rintro (rfl | ⟨hbehind, hset⟩)
    · exact ⟨Nat.le_refl _, h⟩
    · exact ⟨Nat.le_of_succ_le hbehind, hset⟩

/-! ## Steps of a cursor -/

namespace Cursor

/-- A cursor of a mask that has read the positions below `start`: what it has not read of its word
are the set positions of the word from there on. -/
structure At (cursor : Cursor) (mask : Mask) (start : Nat) : Prop where
  mask_eq : cursor.mask = mask
  le_start : wordBits * cursor.index ≤ start
  start_le : start ≤ wordBits * (cursor.index + 1)
  unread_iff : ∀ bit < 32, cursor.unread.toNat.testBit bit = true
    ↔ start ≤ wordBits * cursor.index + bit ∧ mask.test (wordBits * cursor.index + bit : Nat) = true

/-- A whole word is unread at its first position. -/
theorem at_word (mask : Mask) (index : Nat) :
    At ⟨mask, index, mask.words.getD index 0⟩ mask (wordBits * index) where
  mask_eq := rfl
  le_start := Nat.le_refl _
  start_le := Nat.mul_le_mul_left _ (Nat.le_succ index)
  unread_iff bit hbit := by
    rw [← word_natCast, ← mask.test_mul_add index hbit]
    push_cast
    exact (and_iff_right (Nat.le_add_right _ _)).symm

namespace At

variable {cursor : Cursor} {mask : Mask} {start : Nat}

/-- A cursor that has read all bits of its word has read as much as one before the next word. -/
theorem positionsFrom_of_read (h : cursor.At mask start) (hread : cursor.unread = 0) :
    mask.positionsFrom start = mask.positionsFrom (wordBits * (cursor.index + 1)) := by
  refine positionsFrom_congr h.start_le fun position hle hlt hset => ?_
  have hstart := h.le_start
  have hsplit : wordBits * cursor.index + position % 32 = position := by
    unfold wordBits at hstart hlt ⊢
    omega
  have hunread := (h.unread_iff (position % 32) (Nat.mod_lt _ (by decide))).mpr
    (by rw [hsplit]; exact ⟨hle, hset⟩)
  rw [hread] at hunread
  simp at hunread

/-- Going on passes no set position: either there is none left, or the cursor comes to stand in a
word with some. -/
theorem advance (h : cursor.At mask start) :
    (cursor.advance = none ∧ mask.positionsFrom start = [])
      ∨ ∃ ahead first, cursor.advance = some ahead ∧ ahead.unread ≠ 0 ∧ ahead.At mask first
        ∧ mask.positionsFrom start = mask.positionsFrom first := by
  -- the induction follows the words that are passed over, each of which has been read
  induction cursor using Cursor.advance.induct generalizing start with
  | case1 cursor hunread =>
    rw [Cursor.advance, if_pos hunread]
    exact .inr ⟨cursor, start, rfl, hunread, h, rfl⟩
  | case2 cursor hread hlt ih =>
    obtain rfl := h.mask_eq
    have hword : cursor.mask.words.getD (cursor.index + 1) 0
        = cursor.mask.words[cursor.index + 1] := by
      rw [Array.getD_eq_getD_getElem?, Array.getElem?_eq_getElem hlt, Option.getD_some]
    have hnext := at_word cursor.mask (cursor.index + 1)
    rw [hword] at hnext
    rw [Cursor.advance, if_neg hread, dif_pos hlt, h.positionsFrom_of_read (not_ne_iff.mp hread)]
    exact ih hnext
  | case3 cursor hread hend =>
    rw [Cursor.advance, if_neg hread, dif_neg hend, h.positionsFrom_of_read (not_ne_iff.mp hread)]
    rw [h.mask_eq] at hend
    exact .inl ⟨rfl, positionsFrom_eq_nil (Nat.mul_le_mul_left _ (Nat.le_of_not_lt hend))⟩

/-- With its lowest unread bit cleared, the cursor stands behind the position of this bit. -/
theorem behind (h : cursor.At mask start) (hunread : cursor.unread ≠ 0) :
    At { cursor with unread := clearLowest cursor.unread } mask
      (wordBits * cursor.index + lowestBit cursor.unread + 1) where
  mask_eq := h.mask_eq
  le_start := Nat.le_succ_of_le (Nat.le_add_right _ _)
  start_le := by
    have hbit := lowestBit_lt hunread
    show _ ≤ wordBits * (cursor.index + 1)
    unfold wordBits
    omega
  unread_iff bit hbit := by
    show (clearLowest cursor.unread).toNat.testBit bit = true
      ↔ _ ≤ wordBits * cursor.index + bit ∧ _
    rw [testBit_clearLowest hunread, h.unread_iff bit hbit]
    constructor
    · rintro ⟨hne, hstart, hset⟩
      refine ⟨?_, hset⟩
      -- an unread bit is not below the lowest one
      rcases Nat.lt_or_ge bit (lowestBit cursor.unread) with hlt | hge
      · have hunset := testBit_of_lt_lowestBit hlt
        rw [(h.unread_iff bit hbit).mpr ⟨hstart, hset⟩] at hunset
        cases hunset
      · omega
    · rintro ⟨hgt, hset⟩
      have hlowest := (h.unread_iff _ (lowestBit_lt hunread)).mp (testBit_lowestBit hunread)
      exact ⟨by omega, by omega, hset⟩

/-- One step yields the first set position from the cursor's on, and the cursor comes to stand
behind it; there is no step when there is no such position. -/
theorem next (h : cursor.At mask start) :
    (cursor.next = none ∧ mask.positionsFrom start = [])
      ∨ ∃ position behind, cursor.next = some (UInt32.ofNat position, behind)
        ∧ mask.positionsFrom start = position :: mask.positionsFrom (position + 1)
        ∧ behind.At mask (position + 1) := by
  rcases h.advance with ⟨hnone, hend⟩ | ⟨ahead, first, hahead, hunread, hat, hsame⟩
  · refine .inl ⟨?_, hend⟩
    rw [Cursor.next, hnone]
  · have hbit := lowestBit_lt hunread
    obtain ⟨hle, hset⟩ := (hat.unread_iff _ hbit).mp (testBit_lowestBit hunread)
    refine .inr ⟨wordBits * ahead.index + lowestBit ahead.unread,
      { ahead with unread := clearLowest ahead.unread }, ?_, ?_, hat.behind hunread⟩
    · rw [Cursor.next, hahead]
    · rw [hsame, ← positionsFrom_self hset]
      refine positionsFrom_congr hle fun earlier hfirst hlt hearlier => ?_
      -- an earlier position would be a lower bit of the word
      have hsplit : wordBits * ahead.index + (earlier - wordBits * ahead.index) = earlier :=
        Nat.add_sub_cancel' (hat.le_start.trans hfirst)
      have hlower : earlier - wordBits * ahead.index < lowestBit ahead.unread := by omega
      have hunset := testBit_of_lt_lowestBit hlower
      rw [(hat.unread_iff _ (hlower.trans hbit)).mpr (by rw [hsplit]; exact ⟨hfirst, hearlier⟩)]
        at hunset
      cases hunset

/-- A run of steps yields the set positions in order, as many as there are steps. -/
theorem take (h : cursor.At mask start) (count : Nat) :
    (cursor.take count).1 = ((mask.positionsFrom start).take count).map UInt32.ofNat := by
  induction count generalizing cursor start with
  | zero => rfl
  | succ count ih =>
    rcases h.next with ⟨hnone, hend⟩ | ⟨position, behind, hnext, hpositions, hbehind⟩
    · rw [Cursor.take, hnone, hend]
      rfl
    · rw [Cursor.take, hnext, hpositions, List.take_succ_cons, List.map_cons, ← ih hbehind]

end At

end Cursor

/-- Reading bit by bit yields the members of a mask in order. -/
theorem take_cursor (mask : Mask) (count : Nat) :
    (mask.cursor.take count).1 = mask.members.take count := by
  have hstart : mask.cursor.At mask (wordBits * 0) := Cursor.at_word mask 0
  rw [hstart.take, Nat.mul_zero, positionsFrom_zero, List.map_take, members_eq_map_positions]

end Concordance.Mask
