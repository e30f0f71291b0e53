import Concordance.Bytes.DecodeError

/-!
# Word streams

A word stream is a sequence of 32-bit words, each as four bytes with the least significant first. A
stream of any other length than a multiple of four is refused as a whole.
-/

namespace Concordance.WordStream

/-- The four bytes of a word, least significant first. -/
def wordBytes (word : UInt32) : List UInt8 :=
  [word.toUInt8, (word >>> 8).toUInt8, (word >>> 16).toUInt8, (word >>> 24).toUInt8]

/-- The word of four bytes, least significant first. -/
def wordOfBytes (b0 b1 b2 b3 : UInt8) : UInt32 :=
  b0.toUInt32 ||| (b1.toUInt32 <<< 8) ||| (b2.toUInt32 <<< 16) ||| (b3.toUInt32 <<< 24)

/-- The bytes of a sequence of words. -/
def encode (words : List UInt32) : List UInt8 :=
  words.flatMap wordBytes

/-- The words of as many whole groups of four bytes as there are. -/
def wholeWords : List UInt8 → List UInt32
  | b0 :: b1 :: b2 :: b3 :: rest => wordOfBytes b0 b1 b2 b3 :: wholeWords rest
  | _ => []

/-- The words of a stream of bytes. -/
def decode (bytes : List UInt8) : Except DecodeError (List UInt32) :=
  if bytes.length % 4 = 0 then .ok (wholeWords bytes)
  else .error (.raggedWords bytes.length)

end Concordance.WordStream
