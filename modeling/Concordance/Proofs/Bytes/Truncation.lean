import Mathlib.Order.Bounds.Defs
import Concordance.Proofs.Bytes.Groups

/-!
# Whole varints and cut ones

What is written of a value is read back, whatever follows it, and takes as few bytes as hold the
groups of the value (`read_encode`, `isLeast_length_encode`).

Reading fails exactly on bytes that all say that another one follows, as far as it looks at them
(`read_eq_error_iff`). Fewer than ten such bytes are a varint that was cut off: one more byte can end
it. Ten of them are no varint, whatever follows. The kind of a failure tells the two apart
(`fails_unexpectedEnd_iff`, `fails_invalidData_iff`).

- `round_trip_and_truncation`: what is written and read back, and when reading fails as which kind.
-/

namespace Concordance.Varint

/-! ## Writing -/

/-- Writing leaves what is in the buffer and puts the varint behind it. -/
theorem write_eq (buffer : Array UInt8) (value : UInt64) :
    write buffer value = buffer ++ encode value := by
  -- a byte that is pushed belongs to the buffer that the bytes after it are written into
  induction value using encode.induct generalizing buffer with
  | case1 value hlt =>
    rw [write, if_pos hlt, encode_of_lt hlt]
    refine Array.toList_inj.mp ?_
    rw [Array.toList_push, Array.toList_appendList]
  | case2 value hlt ih =>
    rw [write, if_neg hlt, ih, encode_of_not_lt hlt]
    refine Array.toList_inj.mp ?_
    rw [Array.toList_appendList, Array.toList_appendList, Array.toList_push, List.append_assoc,
      List.singleton_append]

/-- What is written is read back, and reading stops behind it. -/
theorem read_encode (value : UInt64) (rest : List UInt8) :
    read (encode value ++ rest) = .ok (value, (encode value).length) := by
  rw [read_eq_decode, decode_encode]

/-- What is written closes within the bytes that reading looks at, and its groups hold the value. -/
theorem closes_encode (value : UInt64) :
    ((encode value).length ≤ maxBytes ∧ Closes (encode value) (encode value).length)
      ∧ value.toNat = groupSum (encode value) (encode value).length % 2 ^ 64 := by
  have hread := read_encode value []
  rw [List.append_nil] at hread
  exact read_eq_ok_iff.mp hread

/-- A value takes the fewest bytes whose groups hold it, but one at least. -/
theorem isLeast_length_encode (value : UInt64) :
    IsLeast {count | 1 ≤ count ∧ value.toNat < 2 ^ (7 * count)} (encode value).length := by
  obtain ⟨⟨-, hcloses⟩, hsum⟩ := closes_encode value
  constructor
  · refine ⟨hcloses.pos, ?_⟩
    calc value.toNat = groupSum (encode value) (encode value).length % 2 ^ 64 := hsum
      _ ≤ groupSum (encode value) (encode value).length := Nat.mod_le _ _
      _ < 128 ^ (encode value).length := groupSum_lt _ _
      _ = 2 ^ (7 * (encode value).length) := (Nat.pow_mul 2 7 _).symm
  · rintro count ⟨hpos, hlt⟩
    rw [Nat.pow_mul] at hlt
    exact length_encode_le_of_lt value hlt hpos

/-! ## Failing -/

/-- Reading bytes fails as a kind of failure. -/
def Fails (bytes : List UInt8) (kind : DecodeError.Kind) : Prop :=
  ∃ failure, read bytes = .error failure ∧ failure.kind = kind

/-- Reading fails exactly if none of the first ten bytes ends a varint, and why depends on whether
there are ten. -/
theorem read_eq_error_iff {bytes : List UInt8} {failure : DecodeError} :
    read bytes = .error failure ↔ (∀ byte ∈ bytes.take maxBytes, byte &&& 0x80 ≠ 0)
      ∧ failure = if maxBytes ≤ bytes.length then .varintTooLong else .varintIncomplete := by
  rw [read_eq_decode, decode, decodeWithin_eq_error_iff]

/-- The kind of a failure tells whether there are ten bytes. -/
theorem fails_iff {bytes : List UInt8} {kind : DecodeError.Kind} :
    Fails bytes kind ↔ (∀ byte ∈ bytes.take maxBytes, byte &&& 0x80 ≠ 0)
      ∧ kind = if maxBytes ≤ bytes.length then .invalidData else .unexpectedEnd := by
  have hkind : (if maxBytes ≤ bytes.length then DecodeError.varintTooLong
      else .varintIncomplete).kind
        = if maxBytes ≤ bytes.length then .invalidData else .unexpectedEnd := by
    split
    · rfl
    · rfl
  unfold Fails
  simp only [read_eq_error_iff]
  constructor
  · rintro ⟨failure, ⟨hall, rfl⟩, rfl⟩
    exact ⟨hall, hkind⟩
  · rintro ⟨hall, rfl⟩
    exact ⟨_, ⟨hall, rfl⟩, hkind⟩

/-- Bytes end too early exactly if they are fewer than ten and none of them ends a varint. -/
theorem fails_unexpectedEnd_iff {bytes : List UInt8} :
    Fails bytes .unexpectedEnd
      ↔ bytes.length < maxBytes ∧ ∀ byte ∈ bytes, byte &&& 0x80 ≠ 0 := by
  rw [fails_iff]
  by_cases hlong : maxBytes ≤ bytes.length
  · rw [if_pos hlong]
    refine iff_of_false ?_ fun h => Nat.not_lt_of_le hlong h.1
    rintro ⟨-, hkind⟩
    cases hkind
  · have hlt := Nat.lt_of_not_le hlong
    rw [if_neg hlong, List.take_of_length_le (Nat.le_of_lt hlt)]
    exact ⟨fun h => ⟨hlt, h.1⟩, fun h => ⟨h.2, rfl⟩⟩

/-- Bytes are no varint exactly if there are ten and none of these ends one. -/
theorem fails_invalidData_iff {bytes : List UInt8} :
    Fails bytes .invalidData
      ↔ maxBytes ≤ bytes.length ∧ ∀ byte ∈ bytes.take maxBytes, byte &&& 0x80 ≠ 0 := by
  rw [fails_iff]
  by_cases hlong : maxBytes ≤ bytes.length
  · rw [if_pos hlong]
    exact ⟨fun h => ⟨hlong, h.1⟩, fun h => ⟨h.2, rfl⟩⟩
  · rw [if_neg hlong]
    refine iff_of_false ?_ fun h => hlong h.1
    rintro ⟨-, hkind⟩
    cases hkind

/-! ## More bytes -/

/-- Bytes can be read if one of the first ten ends a varint. -/
theorem exists_read_of_ends {bytes : List UInt8} {byte : UInt8}
    (hmem : byte ∈ bytes.take maxBytes) (hend : byte &&& 0x80 = 0) :
    ∃ value used, read bytes = .ok (value, used) := by
  cases hread : read bytes with
  | ok result => exact ⟨result.1, result.2, rfl⟩
  | error failure => exact absurd hend ((read_eq_error_iff.mp hread).1 byte hmem)

/-- Bytes that end too early can be read when one empty group follows. -/
theorem Fails.exists_read_append {bytes : List UInt8} (h : Fails bytes .unexpectedEnd) :
    ∃ more value used, read (bytes ++ more) = .ok (value, used) := by
  have hlt := (fails_unexpectedEnd_iff.mp h).1
  have hmem : 0 ∈ (bytes ++ [0]).take maxBytes := by
    rw [List.take_of_length_le (by rw [List.length_append, List.length_singleton]; omega)]
    exact List.mem_append_right _ (List.mem_singleton_self 0)
  exact ⟨[0], exists_read_of_ends hmem rfl⟩

/-- Bytes that are no varint cannot be read whatever follows: reading looks at the first ten alone. -/
theorem Fails.exists_error_append {bytes : List UInt8} (h : Fails bytes .invalidData)
    (more : List UInt8) : ∃ failure, read (bytes ++ more) = .error failure := by
  obtain ⟨hlong, hall⟩ := fails_invalidData_iff.mp h
  have hsame : (bytes ++ more).take maxBytes = bytes.take maxBytes :=
    List.take_append_of_le_length hlong
  rw [← hsame] at hall
  exact ⟨_, read_eq_error_iff.mpr ⟨hall, rfl⟩⟩

/-- Bytes end too early exactly if they cannot be read, but can when more bytes follow. -/
theorem fails_unexpectedEnd_iff_extends {bytes : List UInt8} :
    Fails bytes .unexpectedEnd ↔ (∃ failure, read bytes = .error failure)
      ∧ ∃ more value used, read (bytes ++ more) = .ok (value, used) := by
  constructor
  · intro hfails
    refine ⟨?_, hfails.exists_read_append⟩
    obtain ⟨failure, hfailure, -⟩ := hfails
    exact ⟨failure, hfailure⟩
  · rintro ⟨⟨failure, hfailure⟩, more, value, used, hread⟩
    refine ⟨failure, hfailure, ?_⟩
    cases hkind : failure.kind with
    | unexpectedEnd => rfl
    | invalidData =>
      have hfails : Fails bytes .invalidData := ⟨failure, hfailure, hkind⟩
      obtain ⟨other, hother⟩ := hfails.exists_error_append more
      rw [hread] at hother
      cases hother

/-- Bytes are no varint exactly if they cannot be read whatever follows. -/
theorem fails_invalidData_iff_never {bytes : List UInt8} :
    Fails bytes .invalidData ↔ ∀ more, ∃ failure, read (bytes ++ more) = .error failure := by
  constructor
  · intro hfails
    exact hfails.exists_error_append
  · intro hnever
    obtain ⟨failure, hfailure⟩ := hnever []
    rw [List.append_nil] at hfailure
    refine ⟨failure, hfailure, ?_⟩
    cases hkind : failure.kind with
    | invalidData => rfl
    | unexpectedEnd =>
      have hfails : Fails bytes .unexpectedEnd := ⟨failure, hfailure, hkind⟩
      obtain ⟨more, value, used, hread⟩ := hfails.exists_read_append
      obtain ⟨other, hother⟩ := hnever more
      rw [hread] at hother
      cases hother

/-! ## Main result -/

/-- A value is written behind whatever is in the buffer, in one to ten bytes, as few as its groups of
seven bits need, and is read back from these whatever follows. Reading fails for want of bytes exactly
if there are fewer than ten and each says that another one follows, that is, if more bytes would let
it succeed. It fails on invalid data exactly if there are ten that say so, that is, if it would fail
whatever follows. -/
theorem round_trip_and_truncation :
    (∀ value : UInt64, ∃ bytes : List UInt8,
      (∀ buffer, write buffer value = buffer ++ bytes)
      ∧ (1 ≤ bytes.length ∧ bytes.length ≤ 10)
      ∧ IsLeast {count | 1 ≤ count ∧ value.toNat < 2 ^ (7 * count)} bytes.length
      ∧ ∀ suffix, read (bytes ++ suffix) = .ok (value, bytes.length))
    ∧ ∀ bytes : List UInt8,
      (Fails bytes .unexpectedEnd ↔ bytes.length < 10 ∧ ∀ byte ∈ bytes, byte &&& 0x80 ≠ 0)
      ∧ (Fails bytes .unexpectedEnd ↔ (∃ failure, read bytes = .error failure)
        ∧ ∃ more value used, read (bytes ++ more) = .ok (value, used))
      ∧ (Fails bytes .invalidData
        ↔ 10 ≤ bytes.length ∧ ∀ byte ∈ bytes.take 10, byte &&& 0x80 ≠ 0)
      ∧ (Fails bytes .invalidData ↔ ∀ more, ∃ failure, read (bytes ++ more) = .error failure) := by
  refine ⟨fun value => ?_, fun bytes => ⟨fails_unexpectedEnd_iff, fails_unexpectedEnd_iff_extends,
    fails_invalidData_iff, fails_invalidData_iff_never⟩⟩
  have hleast := isLeast_length_encode value
  exact ⟨encode value, fun buffer => write_eq buffer value,
    ⟨hleast.1.1, (closes_encode value).1.1⟩, hleast, read_encode value⟩

end Concordance.Varint
