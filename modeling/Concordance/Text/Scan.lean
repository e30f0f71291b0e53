import Concordance.Ascending
import Concordance.Search
import Concordance.Text.Chunk
import Concordance.Text.Slice

/-!
# Chunks in one pass

A text can be cut into chunks while it is read once, character by character. What has to be kept in
mind are the byte at which the chunk at hand starts and whether it is a word: where the next
character is of the other kind, the chunk is cut out of the text. The last chunk is left over when
the text ends.

```text
text:   G a l l i a ,   e s t       characters of several bytes count as many
                    ↑   ↑   ↑
                start   place (next character)
```

- `findsIn`: looks for a character among characters in ascending order.
- `Scan`: where a scan stands; `Scan.read` goes on by a character, `Scan.finish` ends it.
- `BreakSet.scan`: the chunks of a text, if every one of them can be cut out.
-/

namespace Concordance

/-- Whether a character is among others, which are in ascending order. -/
def findsIn (ordered : Array Char) (c : Char) : Bool :=
  ordered[partitionPoint ordered (· < c)]? == some c

/-- Where the scan of a text stands. -/
structure Scan where
  /-- The chunks that are cut out. -/
  chunks : Array Chunk
  /-- The byte at which the chunk at hand starts. -/
  start : Nat
  /-- The byte at which the next character starts. -/
  place : Nat
  /-- Whether the chunk at hand is a word. -/
  inWord : Bool

namespace Scan

/-- Cuts the chunk at hand, which stops at a byte, out of the text. -/
def cut (text : String) (scan : Scan) (stop : Nat) : Option (Array Chunk) :=
  (sliceBytes? text scan.start stop).map fun piece => scan.chunks.push ⟨piece, scan.inWord⟩

/-- Reads the next character. If it is of the other kind, a new chunk starts with it. -/
def read (isWord : Char → Bool) (text : String) (scan : Scan) (c : Char) : Option Scan :=
  let next := scan.place + c.utf8Size
  if isWord c = scan.inWord then some { scan with place := next }
  else (scan.cut text scan.place).map fun chunks => ⟨chunks, scan.place, next, isWord c⟩

/-- The chunks at the end of the text. -/
def finish (text : String) (scan : Scan) : Option (Array Chunk) :=
  if scan.start < text.utf8ByteSize then scan.cut text text.utf8ByteSize else some scan.chunks

end Scan

namespace BreakSet

/-- The characters in ascending order, each once. -/
def ordered (breaks : BreakSet) : Array Char := (ascending breaks.chars).toArray

/-- The chunks of a text in one pass. -/
def scan (breaks : BreakSet) (text : String) : Option (List Chunk) := do
  let ordered := breaks.ordered
  let isWord (c : Char) : Bool := !findsIn ordered c
  match text.toList with
  | [] => return []
  | first :: later =>
    let scan ← (first :: later).foldlM (Scan.read isWord text) ⟨#[], 0, 0, isWord first⟩
    return (← scan.finish text).toList

end BreakSet

end Concordance
