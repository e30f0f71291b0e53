import Concordance.Bytes.WordStream
import Concordance.Proofs.Grammar.Record

/-!
# Word streams read back

A word is the sum of its four bytes at their places, so the stream of words decodes to the words
(`WordStream.decode_encode`).
-/

namespace Concordance.WordStream

/-- A byte of a word as a number. -/
theorem toNat_byte (word : UInt32) {place : Nat} (hplace : place < 32) :
    ((word >>> UInt32.ofNat place).toUInt8.toUInt32).toNat = word.toNat / 2 ^ place % 2 ^ 8 := by
  have hshift : (UInt32.ofNat place).toNat = place :=
    UInt32.toNat_ofNat_of_lt' (Nat.lt_trans hplace (by decide))
  rw [UInt8.toNat_toUInt32, UInt32.toNat_toUInt8, UInt32.toNat_shiftRight, hshift,
    Nat.mod_eq_of_lt hplace, Nat.shiftRight_eq_div_pow]

/-- The bytes of a word make up the word. -/
theorem wordOfBytes_wordBytes (word : UInt32) :
    wordOfBytes word.toUInt8 (word >>> 8).toUInt8 (word >>> 16).toUInt8 (word >>> 24).toUInt8
      = word := by
  have hlt : ∀ byte : UInt8, byte.toUInt32.toNat < 2 ^ 8 := by
    intro byte
    rw [UInt8.toNat_toUInt32]
    exact byte.toNat_lt
  have hbyte0 : word.toUInt8.toUInt32.toNat = word.toNat % 2 ^ 8 := by
    rw [UInt8.toNat_toUInt32, UInt32.toNat_toUInt8]
  have hbyte8 : (word >>> 8).toUInt8.toUInt32.toNat = word.toNat / 2 ^ 8 % 2 ^ 8 :=
    toNat_byte word (by decide)
  have hbyte16 : (word >>> 16).toUInt8.toUInt32.toNat = word.toNat / 2 ^ 16 % 2 ^ 8 :=
    toNat_byte word (by decide)
  have hbyte24 : (word >>> 24).toUInt8.toUInt32.toNat = word.toNat / 2 ^ 24 % 2 ^ 8 :=
    toNat_byte word (by decide)
  -- each byte is put on above all bits so far
  have h8 := Record.toNat_or_shiftLeft 8 8 hbyte0 (by omega) (hlt (word >>> 8).toUInt8)
    (by decide) (by decide)
  have h16 := Record.toNat_or_shiftLeft 16 8 h8 (by omega) (hlt (word >>> 16).toUInt8)
    (by decide) (by decide)
  have h24 := Record.toNat_or_shiftLeft 24 8 h16 (by omega) (hlt (word >>> 24).toUInt8)
    (by decide) (by decide)
  have hword := word.toNat_lt
  rw [← UInt32.toNat_inj]
  refine h24.trans ?_
  omega

theorem length_encode (words : List UInt32) : (encode words).length = 4 * words.length := by
  induction words with
  | nil => rfl
  | cons word words ih =>
    rw [encode, List.flatMap_cons, List.length_append, ← encode, ih, List.length_cons]
    show 4 + 4 * words.length = _
    omega

theorem wholeWords_encode (words : List UInt32) : wholeWords (encode words) = words := by
  induction words with
  | nil => rfl
  | cons word words ih =>
    rw [encode, List.flatMap_cons, ← encode]
    show wordOfBytes _ _ _ _ :: wholeWords (encode words) = _
    rw [wordOfBytes_wordBytes, ih]

/-- The stream of words decodes to the words. -/
theorem decode_encode (words : List UInt32) : decode (encode words) = .ok words := by
  rw [decode, if_pos (by rw [length_encode, Nat.mul_mod_right]), wholeWords_encode]

end Concordance.WordStream
