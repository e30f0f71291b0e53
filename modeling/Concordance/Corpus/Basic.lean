import Std.Data.TreeMap
import Concordance.Corpus.Dimension
import Concordance.Corpus.Spans
import Concordance.Forms.Table
import Concordance.Posting.Basic
import Concordance.Text.Slice

/-!
# Corpora

A corpus is what a build makes of its works, and does not change any more: the index, the spans of
works and authors, the text with the place of every token in it, and the records of the tokens.

```text
text:    token₀ break₀ token₁ break₁ …
starts:  of each token and of the break behind it, in bytes
```

A token is looked up by its number; every look-up of a number that no token has gives nothing.
-/

namespace Concordance

/-- The text of a corpus with the places of its tokens. -/
structure CorpusText where
  /-- The text. -/
  text : String
  /-- Where every token starts, in bytes. -/
  tokenStarts : Array UInt32
  /-- Where the break behind every token starts, in bytes. -/
  breakStarts : Array UInt32

namespace CorpusText

/-- The text of a token. -/
def token? (text : CorpusText) (token : Nat) : Option String := do
  let start ← text.tokenStarts[token]?
  let stop ← text.breakStarts[token]?
  sliceBytes? text.text start.toNat stop.toNat

/-- The text between a token and the next. -/
def break? (text : CorpusText) (token : Nat) : Option String := do
  let start ← text.breakStarts[token]?
  let stop := match text.tokenStarts[token + 1]? with
    | some next => next.toNat
    | none => text.text.utf8ByteSize
  sliceBytes? text.text start.toNat stop

end CorpusText

/-- The numbers of words in a corpus, as 32 bits say them. -/
structure CorpusStats where
  /-- The number of tokens. -/
  totalWords : UInt32
  /-- The number of works. -/
  totalWorks : UInt32
  /-- The number of distinct search keys. -/
  uniqueWords : UInt32
  /-- The number of distinct headwords. -/
  uniqueLemmata : UInt32
  deriving DecidableEq, Repr

/-- An indexed corpus. -/
structure Corpus where
  /-- The number of tokens. -/
  tokenCount : Nat
  /-- The posting list of every value that occurs. -/
  index : Std.TreeMap IndexKey Posting IndexKey.compare
  /-- The works in order. -/
  works : Array WorkSpan
  /-- The authors by the names by which they are cited. -/
  authors : Std.TreeMap String AuthorSpan
  /-- The text. -/
  text : CorpusText
  /-- The records of tokens. -/
  forms : FormTable
  /-- The numbers of words. -/
  stats : CorpusStats

/-- Where a token stands. -/
structure TokenPlace where
  /-- The number of the work. -/
  workIndex : Nat
  /-- The work. -/
  work : WorkSpan
  /-- The row. -/
  row : RowSpan
  /-- The number of tokens before it in the row. -/
  offset : Nat
  deriving DecidableEq, Repr

namespace Corpus

/-- The posting list of a value; a value that does not occur has none. -/
def posting? (corpus : Corpus) (key : IndexKey) : Option Posting := corpus.index[key]?

/-- The values of a dimension in ascending order with their posting lists. -/
def dimension (corpus : Corpus) (dimension : Dimension) : List (String × Posting) :=
  corpus.index.toList.filterMap fun (key, posting) =>
    if key.dimension = dimension then some (key.value, posting) else none

/-- The work that is cited by a name. -/
def work? (corpus : Corpus) (id : String) : Option WorkSpan := corpus.works.find? (·.id == id)

/-- The author who is cited by a name. -/
def author? (corpus : Corpus) (code : String) : Option AuthorSpan := corpus.authors[code]?

/-- The text of a token. -/
def tokenText? (corpus : Corpus) (token : Nat) : Option String := corpus.text.token? token

/-- The text between a token and the next. -/
def breakText? (corpus : Corpus) (token : Nat) : Option String := corpus.text.break? token

/-- The records of a token. -/
def tokenRecords? (corpus : Corpus) (token : Nat) : Option (List Record) :=
  corpus.forms.tokenRecords? token

/-- Where a token stands. Spans are searched for the first that stops behind the token. -/
def place? (corpus : Corpus) (token : Nat) : Option TokenPlace := do
  let workIndex := partitionPoint corpus.works (·.stop ≤ token)
  let work ← corpus.works[workIndex]?
  if token < work.start then none
  let row ← work.rows[partitionPoint work.rows (·.stop ≤ token)]?
  if token < row.start then none
  return ⟨workIndex, work, row, token - row.start⟩

end Corpus

end Concordance
