/-!
# The CRC-32 checksum

The cyclic redundancy check of IEEE 802.3: the remainder of the bytes, least significant bit first,
by the reversed polynomial `0xEDB88320`, started from all ones and inverted at the end.
-/

namespace Concordance.Checksum

/-- One bit: shift right and, if a one fell out, add the polynomial. -/
def bitStep (crc : UInt32) : UInt32 :=
  if crc &&& 1 = 0 then crc >>> 1 else (crc >>> 1) ^^^ 0xEDB88320

/-- One byte: mix it into the low bits and take eight bit steps. -/
def byteStep (crc : UInt32) (byte : UInt8) : UInt32 :=
  (List.range 8).foldl (fun state _ => bitStep state) (crc ^^^ byte.toUInt32)

/-- The CRC-32 checksum of a sequence of bytes. -/
def crc32 (bytes : List UInt8) : UInt32 :=
  bytes.foldl byteStep 0xFFFFFFFF ^^^ 0xFFFFFFFF

end Concordance.Checksum
