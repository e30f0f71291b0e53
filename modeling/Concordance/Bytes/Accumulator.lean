import Concordance.Bytes.Varint

/-!
# Varints byte by byte

A varint is written and read from its lowest group of seven bits on. Writing pushes a byte for each
group into a buffer. Reading moves each group to its place in a 64-bit value and joins it to the
groups before it; what a shift moves beyond the 64 bits is lost.

- `Varint.write`: the bytes of a value, behind those of a buffer.
- `Varint.gather`: the groups up to the last byte, joined to a value.
- `Varint.read`: the value at the start of a stream and the number of bytes it took.
- `Varint.read32`: the same for values of at most 32 bits.
-/

namespace Concordance.Varint

/-- Pushes the bytes of `value` into a buffer, the lowest group first. -/
def write (buffer : Array UInt8) (value : UInt64) : Array UInt8 :=
  if value < 0x80 then buffer.push value.toUInt8
  else write (buffer.push ((value.toUInt8 &&& 0x7F) ||| 0x80)) (value >>> 7)
termination_by value.toNat
decreasing_by exact toNat_shiftRight_lt (by assumption)

/-- Joins groups to `value`, of which the first has `index` groups before it. Gives the value and the
number of all groups, unless the bytes end before a last one. -/
def gather (value : UInt64) (index : Nat) : List UInt8 → Option (UInt64 × Nat)
  | [] => none
  | byte :: rest =>
    let joined := value ||| ((byte &&& 0x7F).toUInt64 <<< UInt64.ofNat (7 * index))
    if byte &&& 0x80 = 0 then some (joined, index + 1) else gather joined (index + 1) rest

/-- The value at the start of a stream and the number of bytes it took. -/
def read (bytes : List UInt8) : Except DecodeError (UInt64 × Nat) :=
  match gather 0 0 (bytes.take maxBytes) with
  | some result => .ok result
  | none => if maxBytes ≤ bytes.length then .error .varintTooLong else .error .varintIncomplete

/-- The 32-bit value at the start of a stream and the number of bytes it took. -/
def read32 (bytes : List UInt8) : Except DecodeError (UInt32 × Nat) := do
  let (value, used) ← read bytes
  if value.toNat < UInt32.size then return (value.toUInt32, used)
  else throw (.varintTooWide value)

end Concordance.Varint
