/-!
# Parts of a text

`sliceBytes?` cuts a part out of a text between two places that are counted in bytes. A character
may take several bytes, and a place inside a character gives nothing.
-/

namespace Concordance

/-- The part of a text between two places, if both lie between its characters. -/
def sliceBytes? (text : String) (first stop : Nat) : Option String :=
  if first ≤ stop ∧ stop ≤ text.utf8ByteSize then
    String.fromUTF8? (text.toUTF8.extract first stop)
  else none

end Concordance
