import Concordance.Bytes.DecodeError

/-!
# Varints

A varint is a number in base 128, least significant group first, one group of seven bits a byte. The
top bit of a byte says that another byte follows.

- `Varint.encode`: the shortest varint of a 64-bit value, one to ten bytes.
- `Varint.decode`: the value at the start of a stream and the number of bytes it took. At most ten
  bytes are read; of the tenth group only the lowest bit fits a 64-bit value.
- `Varint.decode32`: the same for values of at most 32 bits.
-/

namespace Concordance.Varint

/-- The most bytes a varint may take: ten groups of seven bits cover 64 bits. -/
def maxBytes : Nat := 10

/-- Shifting out a group makes a value of more than one group smaller. -/
theorem toNat_shiftRight_lt {value : UInt64} (h : ¬ value < 0x80) :
    (value >>> 7).toNat < value.toNat := by
  have h128 : 128 ≤ value.toNat := by
    simpa [UInt64.lt_iff_toNat_lt] using h
  rw [UInt64.toNat_shiftRight]
  simp only [UInt64.reduceToNat, Nat.reduceMod, Nat.shiftRight_eq_div_pow]
  omega

/-- The shortest varint of `value`. -/
def encode (value : UInt64) : List UInt8 :=
  if value < 0x80 then [value.toUInt8]
  else ((value.toUInt8 &&& 0x7F) ||| 0x80) :: encode (value >>> 7)
termination_by value.toNat
decreasing_by exact toNat_shiftRight_lt (by assumption)

/-- The varint at the start of a stream, if it takes at most `room` bytes. -/
def decodeWithin : Nat → List UInt8 → Except DecodeError (UInt64 × Nat)
  | 0, _ => .error .varintTooLong
  | _ + 1, [] => .error .varintIncomplete
  | room + 1, byte :: rest =>
    let group := (byte &&& 0x7F).toUInt64
    if byte &&& 0x80 = 0 then .ok (group, 1)
    else do
      let (higher, used) ← decodeWithin room rest
      return (group ||| (higher <<< 7), used + 1)

/-- The value at the start of a stream and the number of bytes it took. -/
def decode (bytes : List UInt8) : Except DecodeError (UInt64 × Nat) :=
  decodeWithin maxBytes bytes

/-- The 32-bit value at the start of a stream and the number of bytes it took. -/
def decode32 (bytes : List UInt8) : Except DecodeError (UInt32 × Nat) := do
  let (value, used) ← decode bytes
  if value.toNat < UInt32.size then return (value.toUInt32, used)
  else throw (.varintTooWide value)

end Concordance.Varint
