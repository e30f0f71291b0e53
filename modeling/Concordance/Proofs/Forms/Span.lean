import Concordance.Forms.Span
import Concordance.Proofs.Grammar.Record

/-!
# Written spans

A span is written as one word, its length in the low 8 bits and its offset above them. The word of a
span that fits reads back as the span (`RecordSpan.exists_pack`).
-/

namespace Concordance.RecordSpan

variable {offset length : UInt32}

/-- The word of a span as a number. -/
theorem toNat_word (hoffset : offset.toNat < offsetLimit) (hlength : length.toNat < lengthLimit) :
    ((offset <<< 8) ||| length).toNat = length.toNat + 2 ^ 8 * offset.toNat := by
  rw [UInt32.or_comm]
  exact Record.toNat_or_shiftLeft 8 24 rfl hlength hoffset (by decide) (by decide)

/-- Both parts of a span are read back from its word. -/
theorem unpack_word (hoffset : offset.toNat < offsetLimit) (hlength : length.toNat < lengthLimit) :
    unpack ((offset <<< 8) ||| length) = ⟨offset, length⟩ := by
  have hword := toNat_word hoffset hlength
  have hlow : length.toNat < 2 ^ 8 := hlength
  rw [unpack, RecordSpan.mk.injEq, ← UInt32.toNat_inj, ← UInt32.toNat_inj]
  constructor
  · rw [UInt32.toNat_shiftRight, hword, show (8 : UInt32).toNat % 32 = 8 from rfl,
      Nat.shiftRight_eq_div_pow]
    omega
  · rw [UInt32.toNat_and, hword, show (0xFF : UInt32).toNat = 2 ^ 8 - 1 from rfl,
      Nat.and_two_pow_sub_one_eq_mod]
    omega

/-- A span that fits is written, and its word reads back as the span. -/
theorem exists_pack {span : RecordSpan} (hoffset : span.offset.toNat < offsetLimit)
    (hlength : span.length.toNat < lengthLimit) :
    ∃ word, span.pack = .ok word ∧ unpack word = span := by
  refine ⟨(span.offset <<< 8) ||| span.length, ?_, unpack_word hoffset hlength⟩
  rw [pack, if_neg (Nat.not_le.mpr hoffset), if_neg (Nat.not_le.mpr hlength)]

end Concordance.RecordSpan
