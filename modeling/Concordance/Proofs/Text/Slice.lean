import Concordance.Text.Slice

/-!
# Parts of a text at their own boundaries

A text that is put together from parts gives each of them back (`sliceBytes?_append`): the places of
a part are the sizes of what stands before it and of itself.
-/

namespace Concordance

/-- A part of a text is cut out at the sizes of what stands before it and of itself. -/
theorem sliceBytes?_append (before middle after : String) :
    sliceBytes? (before ++ middle ++ after) before.utf8ByteSize
      (before.utf8ByteSize + middle.utf8ByteSize) = some middle := by
  have hextract : (before ++ middle ++ after).toUTF8.extract before.utf8ByteSize
      (before.utf8ByteSize + middle.utf8ByteSize) = middle.toByteArray := by
    rw [String.append_assoc, String.toUTF8_eq_toByteArray, String.toByteArray_append,
      String.toByteArray_append, ← String.size_toByteArray, ← String.size_toByteArray]
    have hskip := @ByteArray.extract_append_size_add before.toByteArray
      (middle.toByteArray ++ after.toByteArray) 0 middle.toByteArray.size
    rw [Nat.add_zero] at hskip
    rw [hskip, ByteArray.extract_append_eq_left rfl]
  have hinside : before.utf8ByteSize ≤ before.utf8ByteSize + middle.utf8ByteSize
      ∧ before.utf8ByteSize + middle.utf8ByteSize ≤ (before ++ middle ++ after).utf8ByteSize := by
    rw [String.utf8ByteSize_append, String.utf8ByteSize_append]
    omega
  rw [sliceBytes?, if_pos hinside, hextract, String.fromUTF8?, dif_pos middle.isValidUTF8]
  rfl

end Concordance
