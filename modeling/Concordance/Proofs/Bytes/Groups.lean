import Mathlib.Algebra.BigOperators.Intervals
import Concordance.Bytes.Accumulator
import Concordance.Proofs.Varint

/-!
# What the bytes of a varint say

Read byte by byte or from the back, a varint gives the same value and the same failures
(`read_eq_decode`).

`Closes bytes count` says that the first `count` bytes are those of one varint, and `groupSum` adds
up their groups as natural numbers. Reading succeeds exactly on at most ten bytes that close, and
the value is the sum of their groups in its last 64 bits (`read_loses_top_bits`). Nine groups have 63
bits, so that only a tenth group can say more than the value does; a tenth byte above 1 is read
without its upper bits (`read_of_overfull`).
-/

namespace Concordance.Varint

/-! ## Two ways of reading -/

/-- Shifting by one more group. -/
theorem shiftLeft_group (value : UInt64) {index : Nat} (h : index ≤ 8) :
    (value <<< 7) <<< UInt64.ofNat (7 * index) = value <<< UInt64.ofNat (7 * (index + 1)) := by
  have h7 : (7 : UInt64).toNat = 7 := rfl
  have hplace : (UInt64.ofNat (7 * index)).toNat = 7 * index :=
    UInt64.toNat_ofNat_of_lt' (by unfold UInt64.size; omega)
  rw [← UInt64.shiftLeft_add_of_toNat_lt (by omega), Nat.mul_succ, Nat.add_comm, UInt64.ofNat_add]
  rfl

/-- What is gathered from a place on is what is read there, moved to its place and joined to the
value that is there before. -/
theorem gather_eq {room index : Nat} (hroom : index + room = maxBytes) (value : UInt64)
    (bytes : List UInt8) : gather value index (bytes.take room)
      = ((decodeWithin room bytes).toOption.map fun read =>
        (value ||| (read.1 <<< UInt64.ofNat (7 * index)), index + read.2)) := by
  -- the groups that are read move one by one into the value
  induction room generalizing index value bytes with
  | zero => rfl
  | succ room ih =>
    cases bytes with
    | nil => rfl
    | cons byte bytes =>
      rw [List.take_succ_cons, gather, decodeWithin]
      by_cases hlast : byte &&& 0x80 = 0
      · rw [if_pos hlast, if_pos hlast]
        rfl
      · rw [if_neg hlast, if_neg hlast, ih (by omega)]
        cases hrest : decodeWithin room bytes with
        | error => rfl
        | ok result =>
          -- another group follows, so that this one is not the tenth
          have hindex : index ≤ 8 := by
            cases room with
            | zero => cases hrest
            | succ room => unfold maxBytes at hroom; omega
          show some (_, _) = some (_, _)
          rw [UInt64.shiftLeft_or, shiftLeft_group _ hindex, UInt64.or_assoc]
          congr 2
          omega

/-- Reading with room for some bytes fails exactly if none of these ends a varint: because there are
too many bytes, or because there are too few. -/
theorem decodeWithin_eq_error_iff {room : Nat} {bytes : List UInt8} {failure : DecodeError} :
    decodeWithin room bytes = .error failure ↔ (∀ byte ∈ bytes.take room, byte &&& 0x80 ≠ 0)
      ∧ failure = if room ≤ bytes.length then .varintTooLong else .varintIncomplete := by
  induction room generalizing bytes with
  | zero =>
    rw [decodeWithin, List.take_zero, if_pos (Nat.zero_le _), Except.error.injEq, eq_comm]
    exact (and_iff_right (List.forall_mem_nil _)).symm
  | succ room ih =>
    cases bytes with
    | nil =>
      rw [decodeWithin, List.take_nil, List.length_nil, if_neg (Nat.not_succ_le_zero room),
        Except.error.injEq, eq_comm]
      exact (and_iff_right (List.forall_mem_nil _)).symm
    | cons byte bytes =>
      rw [decodeWithin, List.take_succ_cons, List.forall_mem_cons, List.length_cons, and_assoc]
      simp only [Nat.add_le_add_iff_right]
      rw [← ih]
      by_cases hlast : byte &&& 0x80 = 0
      · rw [if_pos hlast]
        refine iff_of_false ?_ fun h => h.1 hlast
        intro h
        cases h
      · rw [if_neg hlast]
        constructor
        · intro h
          rcases bind_eq_error.mp h with hrest | ⟨result, -, hend⟩
          · exact ⟨hlast, hrest⟩
          · cases hend
        · rintro ⟨-, hrest⟩
          exact bind_eq_error.mpr (.inl hrest)

/-- Reading byte by byte is reading. -/
theorem read_eq_decode (bytes : List UInt8) : read bytes = decode bytes := by
  have hgather := gather_eq (Nat.zero_add maxBytes) 0 bytes
  unfold read decode
  cases hdecode : decodeWithin maxBytes bytes with
  | error failure =>
    rw [hdecode] at hgather
    rw [hgather, (decodeWithin_eq_error_iff.mp hdecode).2]
    show (if maxBytes ≤ bytes.length then _ else _) = _
    split
    · rfl
    · rfl
  | ok result =>
    rw [hdecode] at hgather
    rw [hgather]
    show Except.ok ((0 : UInt64) ||| (result.1 <<< (0 : UInt64)), 0 + result.2) = _
    rw [UInt64.shiftLeft_zero, UInt64.zero_or, Nat.zero_add]

theorem read32_eq_decode32 (bytes : List UInt8) : read32 bytes = decode32 bytes := by
  rw [read32, read_eq_decode, decode32]

/-! ## Groups -/

/-- The first `count` bytes are those of one varint: every byte before the last says that another
one follows, and the last says that none does. -/
structure Closes (bytes : List UInt8) (count : Nat) : Prop where
  pos : 1 ≤ count
  continues : ∀ index, index + 1 < count → ∃ byte, bytes[index]? = some byte ∧ byte &&& 0x80 ≠ 0
  ends : ∃ byte, bytes[count - 1]? = some byte ∧ byte &&& 0x80 = 0

/-- What the groups of the first `count` bytes say together. -/
def groupSum (bytes : List UInt8) (count : Nat) : Nat :=
  ∑ index ∈ Finset.range count, (bytes.getD index 0).toNat % 128 * 128 ^ index

/-- A first byte says one group, and all others 128 times what they say on their own. -/
theorem groupSum_cons (byte : UInt8) (bytes : List UInt8) (count : Nat) :
    groupSum (byte :: bytes) (count + 1) = byte.toNat % 128 + 128 * groupSum bytes count := by
  unfold groupSum
  rw [Finset.sum_range_succ', Finset.mul_sum, Nat.add_comm]
  refine congrArg₂ _ (Nat.mul_one _) (Finset.sum_congr rfl fun index _ => ?_)
  rw [List.getD_cons_succ, pow_succ]
  ring

theorem not_closes_nil (count : Nat) : ¬ Closes [] count := by
  rintro ⟨-, -, byte, hbyte, -⟩
  cases hbyte

/-- A varint that ends is not shorter than another one at the start of the same bytes. -/
theorem Closes.le {bytes : List UInt8} {count other : Nat} (h : Closes bytes count)
    (hother : Closes bytes other) : other ≤ count := by
  by_contra hlt
  obtain ⟨last, hlast, hend⟩ := h.ends
  obtain ⟨byte, hbyte, hmore⟩ := hother.continues (count - 1) (by have := h.pos; omega)
  rw [hlast] at hbyte
  cases hbyte
  exact hmore hend

/-- A varint is its last byte, or a byte that says that another one follows, and a varint. -/
theorem closes_cons_iff {byte : UInt8} {bytes : List UInt8} {count : Nat} :
    Closes (byte :: bytes) count ↔ (byte &&& 0x80 = 0 ∧ count = 1)
      ∨ (byte &&& 0x80 ≠ 0 ∧ ∃ rest, Closes bytes rest ∧ count = rest + 1) := by
  constructor
  · rintro ⟨hpos, hcontinues, last, hlast, hend⟩
    by_cases hone : count = 1
    · subst hone
      cases hlast
      exact .inl ⟨hend, rfl⟩
    · obtain ⟨rest, rfl⟩ : ∃ rest, count = rest + 2 := ⟨count - 2, by omega⟩
      obtain ⟨first, hfirst, hmore⟩ := hcontinues 0 (by omega)
      cases hfirst
      exact .inr ⟨hmore, rest + 1, ⟨Nat.le_add_left 1 rest, fun index hindex =>
        hcontinues (index + 1) (by omega), last, hlast, hend⟩, rfl⟩
  · rintro (⟨hend, rfl⟩ | ⟨hmore, rest, ⟨hpos, hcontinues, last, hlast, hend⟩, rfl⟩)
    · exact ⟨Nat.le_refl 1, fun index hindex => absurd hindex (by omega), byte, rfl, hend⟩
    · obtain ⟨rest, rfl⟩ := Nat.exists_eq_add_one.mpr hpos
      refine ⟨Nat.le_add_left 1 _, fun index hindex => ?_, last, hlast, hend⟩
      cases index with
      | zero => exact ⟨byte, rfl, hmore⟩
      | succ index => exact hcontinues index (by omega)

/-- Reading takes a last byte on its own, or a byte and what is read behind it. -/
theorem decodeWithin_cons_eq_ok {room used : Nat} {byte : UInt8} {bytes : List UInt8}
    {value : UInt64} : decodeWithin (room + 1) (byte :: bytes) = .ok (value, used)
      ↔ (byte &&& 0x80 = 0 ∧ used = 1 ∧ (byte &&& 0x7F).toUInt64 = value)
        ∨ (byte &&& 0x80 ≠ 0 ∧ ∃ higher rest, decodeWithin room bytes = .ok (higher, rest)
          ∧ used = rest + 1 ∧ (byte &&& 0x7F).toUInt64 ||| (higher <<< 7) = value) := by
  rw [decodeWithin]
  by_cases hlast : byte &&& 0x80 = 0
  · rw [if_pos hlast]
    constructor
    · intro h
      cases h
      exact .inl ⟨hlast, rfl, rfl⟩
    · rintro (⟨-, rfl, rfl⟩ | ⟨hmore, -⟩)
      · rfl
      · exact absurd hlast hmore
  · rw [if_neg hlast, bind_eq_ok]
    constructor
    · rintro ⟨⟨higher, rest⟩, hrest, hvalue⟩
      cases hvalue
      exact .inr ⟨hlast, higher, rest, hrest, rfl, rfl⟩
    · rintro (⟨hend, -⟩ | ⟨-, higher, rest, hrest, rfl, rfl⟩)
      · exact absurd hend hlast
      · exact ⟨(higher, rest), hrest, rfl⟩

/-- Joining the group of a byte to what is read behind it keeps the last 64 bits of their sum. -/
theorem toNat_join (byte : UInt8) (higher : UInt64) :
    ((byte &&& 0x7F).toUInt64 ||| (higher <<< 7)).toNat
      = (byte.toNat % 128 + 128 * higher.toNat) % 2 ^ 64 := by
  have hgroup := toNat_group byte
  rw [toNat_or_shiftLeft (by omega), hgroup]

/-- Reading with room for some bytes succeeds exactly on bytes that close within them, with the
last 64 bits of what their groups say. -/
theorem decodeWithin_eq_ok_iff {room used : Nat} {bytes : List UInt8} {value : UInt64} :
    decodeWithin room bytes = .ok (value, used)
      ↔ (used ≤ room ∧ Closes bytes used) ∧ value.toNat = groupSum bytes used % 2 ^ 64 := by
  induction room generalizing bytes value used with
  | zero =>
    constructor
    · intro h
      cases h
    · rintro ⟨⟨hle, hcloses⟩, -⟩
      exact absurd hcloses.pos (by omega)
  | succ room ih =>
    cases bytes with
    | nil =>
      constructor
      · intro h
        cases h
      · rintro ⟨⟨-, hcloses⟩, -⟩
        exact absurd hcloses (not_closes_nil used)
    | cons byte bytes =>
      rw [decodeWithin_cons_eq_ok, closes_cons_iff]
      constructor
      · rintro (⟨hend, rfl, rfl⟩ | ⟨hmore, higher, rest, hrest, rfl, rfl⟩)
        · refine ⟨⟨by omega, .inl ⟨hend, rfl⟩⟩, ?_⟩
          rw [toNat_group, groupSum_cons]
          show _ = (_ + 128 * 0) % _
          omega
        · obtain ⟨⟨hle, hcloses⟩, hhigher⟩ := ih.mp hrest
          refine ⟨⟨by omega, .inr ⟨hmore, rest, hcloses, rfl⟩⟩, ?_⟩
          rw [toNat_join, hhigher, groupSum_cons]
          omega
      · rintro ⟨⟨hle, ⟨hend, rfl⟩ | ⟨hmore, rest, hcloses, rfl⟩⟩, hvalue⟩
        · refine .inl ⟨hend, rfl, UInt64.toNat_inj.mp ?_⟩
          rw [hvalue, toNat_group, groupSum_cons]
          show _ = (_ + 128 * 0) % _
          omega
        · refine .inr ⟨hmore, UInt64.ofNat (groupSum bytes rest), rest,
            ih.mpr ⟨⟨by omega, hcloses⟩, UInt64.toNat_ofNat'⟩, rfl, UInt64.toNat_inj.mp ?_⟩
          rw [hvalue, toNat_join, UInt64.toNat_ofNat', groupSum_cons]
          omega

/-! ## Reading -/

/-- Reading succeeds exactly on at most ten bytes that close, with the last 64 bits of what their
groups say. -/
theorem read_eq_ok_iff {used : Nat} {bytes : List UInt8} {value : UInt64} :
    read bytes = .ok (value, used)
      ↔ (used ≤ maxBytes ∧ Closes bytes used) ∧ value.toNat = groupSum bytes used % 2 ^ 64 := by
  rw [read_eq_decode, decode, decodeWithin_eq_ok_iff]

/-- The same of values of 32 bits, where what is left of the sum has to fit. -/
theorem read32_eq_ok_iff {used : Nat} {bytes : List UInt8} {value : UInt32} :
    read32 bytes = .ok (value, used)
      ↔ (used ≤ maxBytes ∧ Closes bytes used) ∧ value.toNat = groupSum bytes used % 2 ^ 64 := by
  rw [read32_eq_decode32, decode32_eq_ok]
  constructor
  · rintro ⟨wide, hdecode, hfits, rfl⟩
    obtain ⟨hcloses, hwide⟩ := decodeWithin_eq_ok_iff.mp hdecode
    refine ⟨hcloses, ?_⟩
    rw [UInt64.toNat_toUInt32, Nat.mod_eq_of_lt hfits, hwide]
  · rintro ⟨hcloses, hvalue⟩
    have hlt := value.toNat_lt
    have hwide : value.toUInt64.toNat = value.toNat := UInt32.toNat_toUInt64 value
    refine ⟨value.toUInt64, decodeWithin_eq_ok_iff.mpr ⟨hcloses, ?_⟩, ?_, ?_⟩
    · rw [hwide, hvalue]
    · rw [hwide]
      exact hlt
    · rw [UInt32.toUInt32_toUInt64]

/-- Fewer groups say less than the next power of 128. -/
theorem groupSum_lt (bytes : List UInt8) (count : Nat) : groupSum bytes count < 128 ^ count := by
  induction count generalizing bytes with
  | zero => exact Nat.one_pos
  | succ count ih =>
    unfold groupSum at ih ⊢
    rw [Finset.sum_range_succ, pow_succ]
    have hbelow := ih bytes
    have hgroup : (bytes.getD count 0).toNat % 128 * 128 ^ count ≤ 127 * 128 ^ count :=
      Nat.mul_le_mul_right _ (by omega)
    omega

/-- Groups fit 64 bits if they are fewer than ten or if the tenth has only its lowest bit. -/
theorem groupSum_lt_iff {bytes : List UInt8} {used : Nat} (hle : used ≤ maxBytes)
    (hcloses : Closes bytes used) :
    groupSum bytes used < 2 ^ 64 ↔ used < maxBytes ∨ bytes.getD (maxBytes - 1) 0 ≤ 1 := by
  by_cases hten : used = maxBytes
  · subst hten
    obtain ⟨last, hlast, hend⟩ := hcloses.ends
    have hgetD : bytes.getD (maxBytes - 1) 0 = last := by
      rw [List.getD_eq_getElem?_getD, hlast, Option.getD_some]
    have hlow : last.toNat < 128 := (and_high_eq_zero_iff last).mp hend
    have hnine : groupSum bytes 9 < 128 ^ 9 := groupSum_lt bytes 9
    have hsum : groupSum bytes maxBytes = groupSum bytes 9 + last.toNat * 128 ^ 9 := by
      show ∑ index ∈ Finset.range (9 + 1), _ = _
      rw [Finset.sum_range_succ, show bytes.getD 9 0 = last from hgetD, Nat.mod_eq_of_lt hlow]
      rfl
    rw [hgetD, hsum, UInt8.le_iff_toNat_le]
    show _ ↔ _ ∨ last.toNat ≤ 1
    omega
  · have hlt : used < maxBytes := Nat.lt_of_le_of_ne hle hten
    refine iff_of_true ?_ (.inl hlt)
    calc groupSum bytes used < 128 ^ used := groupSum_lt bytes used
      _ ≤ 128 ^ 9 := Nat.pow_le_pow_right (by decide) (Nat.le_of_lt_succ hlt)
      _ < 2 ^ 64 := by decide

/-- Reading succeeds exactly on at most ten bytes of which all but the last say that another one
follows, and gives the last 64 bits of the sum of their groups; for values of 32 bits, these bits
have to fit. Nothing of the sum is lost unless there are ten bytes and the tenth is above 1. -/
theorem read_loses_top_bits (bytes : List UInt8) :
    (∀ value used, read bytes = .ok (value, used)
      ↔ (used ≤ maxBytes ∧ Closes bytes used) ∧ value.toNat = groupSum bytes used % 2 ^ 64)
    ∧ ((∃ value used, read32 bytes = .ok (value, used))
      ↔ ∃ used, (used ≤ maxBytes ∧ Closes bytes used)
        ∧ groupSum bytes used % 2 ^ 64 ≤ 2 ^ 32 - 1)
    ∧ (∀ used, used ≤ maxBytes → Closes bytes used →
      (groupSum bytes used % 2 ^ 64 = groupSum bytes used
        ↔ used < maxBytes ∨ bytes.getD (maxBytes - 1) 0 ≤ 1)) := by
  refine ⟨fun value used => read_eq_ok_iff, ?_, fun used hle hcloses => ?_⟩
  · constructor
    · rintro ⟨value, used, hread⟩
      obtain ⟨hcloses, hvalue⟩ := read32_eq_ok_iff.mp hread
      have hlt := value.toNat_lt
      exact ⟨used, hcloses, by omega⟩
    · rintro ⟨used, hcloses, hfits⟩
      refine ⟨UInt32.ofNat (groupSum bytes used % 2 ^ 64), used, read32_eq_ok_iff.mpr ⟨hcloses, ?_⟩⟩
      exact UInt32.toNat_ofNat_of_lt' (by unfold UInt32.size; omega)
  · rw [← groupSum_lt_iff hle hcloses, Nat.mod_eq_iff_lt (by decide)]

/-- Two bytes for 300 lose nothing. -/
theorem read_loses_top_bits_of_two :
    Closes [0xAC, 0x02] 2 ∧ read [0xAC, 0x02] = .ok (300, 2)
      ∧ groupSum [0xAC, 0x02] 2 % 2 ^ 64 = groupSum [0xAC, 0x02] 2 := by
  obtain ⟨hread, -, hwhole⟩ := read_loses_top_bits [0xAC, 0x02]
  have hcloses : Closes [0xAC, 0x02] 2 := ⟨by decide, fun index hindex => by
    obtain rfl : index = 0 := by omega
    exact ⟨0xAC, rfl, by decide⟩, 0x02, rfl, by decide⟩
  exact ⟨hcloses, (hread 300 2).mpr ⟨⟨by decide, hcloses⟩, by decide⟩,
    (hwhole 2 (by decide) hcloses).mpr (.inl (by decide))⟩

/-- The bit of a tenth group that stands for `2 ^ 64` is lost: what is read of it is zero, also where
32 bits are asked for. So reading does not always give the sum of the groups, and a sum that does
not fit is not always refused. -/
theorem read_of_overfull :
    let bytes : List UInt8 := List.replicate 9 0x80 ++ [0x02]
    Closes bytes 10 ∧ groupSum bytes 10 = 2 ^ 64
      ∧ read bytes = .ok (0, 10) ∧ read32 bytes = .ok (0, 10)
      ∧ (¬ ∀ value used, read bytes = .ok (value, used) → value.toNat = groupSum bytes used)
      ∧ ¬ ((∃ value used, read32 bytes = .ok (value, used))
        ↔ ∃ used, (used ≤ maxBytes ∧ Closes bytes used) ∧ groupSum bytes used ≤ 2 ^ 32 - 1) := by
  intro bytes
  have hread : read bytes = .ok (0, 10) := by decide
  have hread32 : read32 bytes = .ok (0, 10) := by decide
  have hsum : groupSum bytes 10 = 2 ^ 64 := by decide
  have hcloses : Closes bytes 10 := (read_eq_ok_iff.mp hread).1.2
  refine ⟨hcloses, hsum, hread, hread32, fun hall => ?_, fun hiff => ?_⟩
  · have hzero := hall 0 10 hread
    rw [hsum] at hzero
    exact absurd hzero (by decide)
  · obtain ⟨used, ⟨-, hused⟩, hfits⟩ := hiff.mp ⟨0, 10, hread32⟩
    have hsame : used = 10 := Nat.le_antisymm (hcloses.le hused) (hused.le hcloses)
    rw [hsame, hsum] at hfits
    exact absurd hfits (by decide)

end Concordance.Varint
