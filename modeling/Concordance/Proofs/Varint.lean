import Mathlib.Data.Nat.Bitwise
import Mathlib.Tactic
import Concordance.Bytes.Varint
import Concordance.Proofs.Except

/-!
# Varints read back

Reading what `Varint.encode` wrote gives the value again and the number of its bytes, whatever
bytes follow (`decode_encode`, `decode32_encode`). Both directions go group by group: `encode`
splits a value into its lowest seven bits and the rest, `decodeWithin` joins them.

The bytes of a positive value are at most as many as the value says (`length_encode_le`), because
every further byte multiplies what can be said by 128.

Bytes that were not written by `encode` may tell a value in more bytes than it needs. `Tells` says
which value bytes tell; reading succeeds exactly on bytes that start with such a code
(`exists_tells_of_decode32`), and no code is shorter than what `encode` writes
(`Tells.length_encode_le`).
-/

namespace Concordance.Varint

/-! ## One group -/

/-- The low seven bits of a byte. -/
theorem toNat_and_low (byte : UInt8) : (byte &&& 0x7F).toNat = byte.toNat % 128 := by
  rw [UInt8.toNat_and, show (0x7F : UInt8).toNat = 2 ^ 7 - 1 from rfl,
    Nat.and_two_pow_sub_one_eq_mod]

/-- The top bit of a byte is clear exactly in the bytes that end a varint. -/
theorem and_high_eq_zero_iff (byte : UInt8) : byte &&& 0x80 = 0 ↔ byte.toNat < 128 := by
  rw [← UInt8.toNat_inj, UInt8.toNat_and, show (0x80 : UInt8).toNat = 2 ^ 7 from rfl,
    Nat.and_two_pow, show (0 : UInt8).toNat = 0 from rfl, Nat.testBit_eq_decide_div_mod_eq]
  have hlt := byte.toNat_lt
  by_cases h : byte.toNat < 128
  · rw [show byte.toNat / 2 ^ 7 = 0 by omega]
    simpa using h
  · rw [show byte.toNat / 2 ^ 7 = 1 by omega]
    simpa using h

/-- Setting the top bit of a byte that has it clear. -/
theorem toNat_or_high {byte : UInt8} (h : byte.toNat < 128) :
    (byte ||| 0x80).toNat = byte.toNat + 128 := by
  rw [UInt8.toNat_or, show (0x80 : UInt8).toNat = 2 ^ 7 * 1 from rfl, Nat.or_comm,
    ← Nat.two_pow_add_eq_or_of_lt h]
  omega

/-- The byte that `encode` writes for a group with more groups to follow. -/
theorem toNat_leading (value : UInt64) :
    ((value.toUInt8 &&& 0x7F) ||| 0x80).toNat = value.toNat % 128 + 128 := by
  have hlow : (value.toUInt8 &&& 0x7F).toNat = value.toNat % 128 := by
    rw [toNat_and_low, UInt64.toNat_toUInt8]
    omega
  rw [toNat_or_high (by rw [hlow]; omega), hlow]

/-- Shifting out a group divides by 128. -/
theorem toNat_shiftRight (value : UInt64) : (value >>> 7).toNat = value.toNat / 128 := by
  rw [UInt64.toNat_shiftRight]
  simp [Nat.shiftRight_eq_div_pow]

/-- The group of a byte. -/
theorem toNat_group (byte : UInt8) : (byte &&& 0x7F).toUInt64.toNat = byte.toNat % 128 := by
  rw [UInt8.toNat_toUInt64, toNat_and_low]

/-- Joining a group to what is above it keeps the last 64 bits of their sum. -/
theorem toNat_or_shiftLeft {group : UInt64} (h : group.toNat < 128) (higher : UInt64) :
    (group ||| (higher <<< 7)).toNat = (group.toNat + 128 * higher.toNat) % 2 ^ 64 := by
  have hshift : (higher <<< 7).toNat = higher.toNat * 128 % 2 ^ 64 := by
    rw [UInt64.toNat_shiftLeft, Nat.shiftLeft_eq]
    rfl
  have hmul : (higher <<< 7).toNat = 2 ^ 7 * ((higher <<< 7).toNat / 2 ^ 7) := by
    rw [hshift]
    omega
  rw [UInt64.toNat_or, Nat.or_comm, hmul, ← Nat.two_pow_add_eq_or_of_lt h, hshift]
  omega

/-- Joining a group and what is above it, as `decodeWithin` does, gives the value that `encode` has
split. -/
theorem join_group (value : UInt64) (group : UInt8) (h : group.toNat = value.toNat % 128) :
    group.toUInt64 ||| ((value >>> 7) <<< 7) = value := by
  have hlt := value.toNat_lt
  refine UInt64.toNat_inj.mp ?_
  rw [toNat_or_shiftLeft (by rw [UInt8.toNat_toUInt64]; omega), UInt8.toNat_toUInt64, h,
    toNat_shiftRight]
  omega

/-! ## Round trip -/

theorem encode_of_lt {value : UInt64} (h : value < 0x80) : encode value = [value.toUInt8] := by
  rw [encode, if_pos h]

theorem encode_of_not_lt {value : UInt64} (h : ¬ value < 0x80) :
    encode value = ((value.toUInt8 &&& 0x7F) ||| 0x80) :: encode (value >>> 7) := by
  rw [encode, if_neg h]

/-- Reading with room for as many groups as the value has gives it back. -/
theorem decodeWithin_encode (value : UInt64) (rest : List UInt8) (room : Nat)
    (h : value.toNat < 128 ^ room) (hroom : 0 < room) :
    decodeWithin room (encode value ++ rest) = .ok (value, (encode value).length) := by
  -- the induction follows the groups of the encoding; each of them takes one byte of the room
  induction value using encode.induct generalizing room with
  | case1 value hlt =>
    obtain ⟨room, rfl⟩ := Nat.exists_eq_add_one.mpr hroom
    have hsmall : value.toNat < 128 := by simpa [UInt64.lt_iff_toNat_lt] using hlt
    have hbyte : value.toUInt8.toNat = value.toNat := by
      rw [UInt64.toNat_toUInt8]
      omega
    have hgroup : (value.toUInt8 &&& 0x7F).toUInt64 = value := by
      refine UInt64.toNat_inj.mp ?_
      rw [UInt8.toNat_toUInt64, toNat_and_low, hbyte, Nat.mod_eq_of_lt hsmall]
    rw [encode_of_lt hlt, List.singleton_append, decodeWithin,
      if_pos ((and_high_eq_zero_iff _).mpr (by omega)), hgroup]
    rfl
  | case2 value hlt ih =>
    obtain ⟨room, rfl⟩ := Nat.exists_eq_add_one.mpr hroom
    have hlarge : 128 ≤ value.toNat := by simpa [UInt64.lt_iff_toNat_lt] using hlt
    have hroom' : 0 < room := by
      rcases room with _ | room
      · omega
      · omega
    have hrest := ih room (by rw [toNat_shiftRight]; rw [pow_succ] at h; omega) hroom'
    have hlead := toNat_leading value
    have hcontinue : ¬ ((value.toUInt8 &&& 0x7F) ||| 0x80) &&& 0x80 = 0 := by
      rw [and_high_eq_zero_iff]
      omega
    have hgroup := join_group value (((value.toUInt8 &&& 0x7F) ||| 0x80) &&& 0x7F)
      (by rw [toNat_and_low]; omega)
    rw [encode_of_not_lt hlt, List.cons_append, decodeWithin, if_neg hcontinue, hrest]
    show Except.ok (_ ||| (value >>> 7) <<< 7, _) = _
    rw [hgroup]
    rfl

/-- A varint reads back, and reading stops behind its last byte. -/
theorem decode_encode (value : UInt64) (rest : List UInt8) :
    decode (encode value ++ rest) = .ok (value, (encode value).length) := by
  refine decodeWithin_encode value rest maxBytes ?_ (by decide)
  calc value.toNat < 2 ^ 64 := value.toNat_lt
    _ ≤ 128 ^ maxBytes := by decide

/-- The varint of a 32-bit value reads back as one. -/
theorem decode32_encode (value : UInt32) (rest : List UInt8) :
    decode32 (encode value.toUInt64 ++ rest)
      = .ok (value, (encode value.toUInt64).length) := by
  have hfits : value.toUInt64.toNat < UInt32.size := by
    rw [UInt32.toNat_toUInt64]
    exact value.toNat_lt
  unfold decode32
  rw [decode_encode]
  show (if value.toUInt64.toNat < UInt32.size then _ else _) = _
  rw [if_pos hfits, UInt32.toUInt32_toUInt64]
  rfl

/-! ## Number of bytes -/

/-- A positive value takes at most as many bytes as it says. -/
theorem length_encode_le (value : UInt64) (h : 0 < value.toNat) :
    (encode value).length ≤ value.toNat := by
  induction value using encode.induct with
  | case1 value hlt =>
    rw [encode_of_lt hlt]
    exact h
  | case2 value hlt ih =>
    have hlarge : 128 ≤ value.toNat := by simpa [UInt64.lt_iff_toNat_lt] using hlt
    -- the groups above the first say at most a 128th of the value, so a byte for the first fits
    have hrest := ih (by rw [toNat_shiftRight]; omega)
    rw [toNat_shiftRight] at hrest
    rw [encode_of_not_lt hlt, List.length_cons]
    omega

/-- A value takes at most as many bytes as it has groups. -/
theorem length_encode_le_of_lt (value : UInt64) {count : Nat} (h : value.toNat < 128 ^ count)
    (hcount : 0 < count) : (encode value).length ≤ count := by
  induction value using encode.induct generalizing count with
  | case1 value hlt =>
    rw [encode_of_lt hlt]
    exact hcount
  | case2 value hlt ih =>
    have hlarge : 128 ≤ value.toNat := by simpa [UInt64.lt_iff_toNat_lt] using hlt
    obtain ⟨count, rfl⟩ := Nat.exists_eq_add_one.mpr hcount
    have hcount' : 0 < count := by
      rcases count with _ | count
      · omega
      · omega
    have hrest := ih (by rw [toNat_shiftRight]; rw [pow_succ] at h; omega) hcount'
    rw [encode_of_not_lt hlt, List.length_cons]
    omega

/-! ## Codes -/

/-- Bytes tell a 32-bit value if reading gives the value and stops behind them, whatever follows. A
value has one shortest code, and longer ones that end in empty groups. -/
def Tells (code : List UInt8) (value : UInt32) : Prop :=
  ∀ rest, decode32 (code ++ rest) = .ok (value, code.length)

theorem tells_encode (value : UInt32) : Tells (encode value.toUInt64) value :=
  decode32_encode value

/-- Reading depends on no byte behind those it takes, and every one of these adds a group. -/
theorem exists_code_of_decodeWithin {room used : Nat} {bytes : List UInt8} {value : UInt64}
    (h : decodeWithin room bytes = .ok (value, used)) :
    ∃ code rest, bytes = code ++ rest ∧ used = code.length ∧ 0 < code.length
      ∧ value.toNat < 128 ^ code.length
      ∧ ∀ other, decodeWithin room (code ++ other) = .ok (value, code.length) := by
  induction room generalizing bytes value used with
  | zero => cases h
  | succ room ih =>
    cases bytes with
    | nil => cases h
    | cons byte bytes =>
      have hgroup : (byte &&& 0x7F).toUInt64.toNat < 2 ^ 7 := by
        rw [UInt8.toNat_toUInt64, toNat_and_low]
        omega
      rw [decodeWithin] at h
      by_cases hlast : byte &&& 0x80 = 0
      · rw [if_pos hlast] at h
        cases h
        refine ⟨[byte], bytes, rfl, rfl, Nat.one_pos, hgroup, fun other => ?_⟩
        rw [List.singleton_append, decodeWithin, if_pos hlast]
        rfl
      · rw [if_neg hlast] at h
        obtain ⟨⟨higher, count⟩, hhigher, h⟩ := bind_eq_ok.mp h
        cases h
        obtain ⟨code, rest, rfl, rfl, _, hlt, hcode⟩ := ih hhigher
        refine ⟨byte :: code, rest, rfl, rfl, Nat.succ_pos _, ?_, fun other => ?_⟩
        · -- shifting may lose bits at the top, so the joined value is at most what the groups say
          have hle := Nat.mod_le ((byte &&& 0x7F).toUInt64.toNat + 128 * higher.toNat) (2 ^ 64)
          rw [toNat_or_shiftLeft hgroup, List.length_cons, pow_succ]
          omega
        · rw [List.cons_append, decodeWithin, if_neg hlast, hcode other]
          rfl

/-- Reading a 32-bit value succeeds if reading does and the value fits. -/
theorem decode32_eq_ok {bytes : List UInt8} {value : UInt32} {used : Nat} :
    decode32 bytes = .ok (value, used)
      ↔ ∃ wide : UInt64, decode bytes = .ok (wide, used) ∧ wide.toNat < UInt32.size
        ∧ wide.toUInt32 = value := by
  unfold decode32
  rw [bind_eq_ok]
  constructor
  · rintro ⟨⟨wide, count⟩, hdecode, h⟩
    by_cases hfits : wide.toNat < UInt32.size
    · simp only [if_pos hfits] at h
      cases h
      exact ⟨wide, hdecode, hfits, rfl⟩
    · simp only [if_neg hfits] at h
      cases h
  · rintro ⟨wide, hdecode, hfits, rfl⟩
    refine ⟨(wide, used), hdecode, ?_⟩
    simp only [if_pos hfits]
    rfl

/-- Whatever is read starts with a code of the value, and reading stops behind the code. -/
theorem exists_tells_of_decode32 {bytes : List UInt8} {value : UInt32} {used : Nat}
    (h : decode32 bytes = .ok (value, used)) :
    ∃ code rest, bytes = code ++ rest ∧ used = code.length ∧ Tells code value := by
  obtain ⟨wide, hdecode, hfits, hvalue⟩ := decode32_eq_ok.mp h
  obtain ⟨code, rest, hbytes, hused, _, _, hcode⟩ := exists_code_of_decodeWithin hdecode
  exact ⟨code, rest, hbytes, hused, fun other =>
    decode32_eq_ok.mpr ⟨wide, hcode other, hfits, hvalue⟩⟩

/-- A varint takes no more bytes than there are. -/
theorem used_le {bytes : List UInt8} {value : UInt32} {used : Nat}
    (h : decode32 bytes = .ok (value, used)) : used ≤ bytes.length := by
  obtain ⟨code, rest, rfl, rfl, -⟩ := exists_tells_of_decode32 h
  rw [List.length_append]
  exact Nat.le_add_right _ _

namespace Tells

variable {code : List UInt8} {value : UInt32}

/-- No code of a value is shorter than what `encode` writes. -/
theorem length_encode_le (h : Tells code value) :
    (encode value.toUInt64).length ≤ code.length := by
  obtain ⟨wide, hdecode, hfits, rfl⟩ := decode32_eq_ok.mp (h [])
  obtain ⟨own, rest, _, hlength, hpos, hlt, _⟩ := exists_code_of_decodeWithin hdecode
  rw [hlength]
  refine length_encode_le_of_lt _ ?_ hpos
  rw [UInt32.toNat_toUInt64, UInt64.toNat_toUInt32]
  exact Nat.lt_of_le_of_lt (Nat.mod_le _ _) hlt

theorem length_pos (h : Tells code value) : 0 < code.length := by
  obtain ⟨wide, hdecode, _, _⟩ := decode32_eq_ok.mp (h [])
  obtain ⟨own, rest, _, hlength, hpos, _, _⟩ := exists_code_of_decodeWithin hdecode
  rw [hlength]
  exact hpos

end Tells

/-- Reading looks at no more bytes than there is room for. -/
theorem decodeWithin_take (room : Nat) (bytes : List UInt8) :
    decodeWithin room (bytes.take room) = decodeWithin room bytes := by
  induction room generalizing bytes with
  | zero => rfl
  | succ room ih =>
    cases bytes with
    | nil => rfl
    | cons byte bytes => rw [List.take_succ_cons, decodeWithin, decodeWithin, ih]

/-- The first bytes are enough to read a value. -/
theorem decode32_take (bytes : List UInt8) :
    decode32 (bytes.take maxBytes) = decode32 bytes := by
  rw [decode32, decode, decodeWithin_take, ← decode, ← decode32]

end Concordance.Varint
