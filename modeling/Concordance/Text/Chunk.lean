/-!
# Words and the text between them

A tokenizer cuts a text into chunks, which are words and what stands between words. Chunks keep
their text as it is, so that they join to the text they came from.

The usual tokenizer cuts by characters: the longest runs of break characters and of other characters
are chunks, and a run of other characters is a word.
-/

namespace Concordance

/-- A word or the text between two words. -/
structure Chunk where
  /-- The text of the chunk. -/
  text : String
  /-- Whether the chunk is a word. -/
  isWord : Bool
  deriving DecidableEq, Repr

/-- A way to cut texts into chunks. -/
structure Tokenizer where
  /-- The chunks of a text. -/
  chunks : String → List Chunk

/-- The characters that separate words. -/
structure BreakSet where
  /-- The characters, in any order. -/
  chars : List Char
  deriving Repr

namespace BreakSet

/-- The set of the characters of a text. -/
def ofText (text : String) : BreakSet := ⟨text.toList⟩

/-- Blanks, brackets, quotation marks and the usual marks of punctuation. -/
def default : BreakSet := ofText " ()[];:.,?!'\n\t—\"†‘“”’<>"

/-- Whether a character separates words. -/
def isBreak (breaks : BreakSet) (c : Char) : Bool := breaks.chars.contains c

/-- The chunk of a run of characters of one kind. -/
def chunkOfRun (breaks : BreakSet) (run : List Char) : Chunk :=
  ⟨String.ofList run, !run.any breaks.isBreak⟩

/-- The chunks of a text. -/
def chunks (breaks : BreakSet) (text : String) : List Chunk :=
  (text.toList.splitBy fun a b => breaks.isBreak a == breaks.isBreak b).map breaks.chunkOfRun

/-- The tokenizer that cuts by these characters. -/
def tokenizer (breaks : BreakSet) : Tokenizer := ⟨breaks.chunks⟩

end BreakSet

end Concordance
