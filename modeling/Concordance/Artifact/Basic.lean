import Concordance.Bytes.WordStream
import Concordance.Corpus.Summary
import Concordance.Json.Printer

/-!
# Artifacts

A corpus is stored as five files, its artifacts: the text, the places of tokens and breaks in it,
the records of all forms, the span of every token's records, and the summary. The three in the
middle are word streams.
-/

namespace Concordance

/-- A file of a stored corpus. -/
inductive Artifact where
  /-- The text. -/
  | text
  /-- Where each token and the break behind it start, by turns. -/
  | tokenStarts
  /-- The records of all forms. -/
  | records
  /-- The span of each token's records. -/
  | recordSpans
  /-- The summary. -/
  | summary
  deriving DecidableEq, Repr

namespace Artifact

/-- All artifacts in the order in which they are written and read. -/
def all : List Artifact := [.text, .tokenStarts, .records, .recordSpans, .summary]

/-- The name of an artifact's file. -/
def fileName : Artifact → String
  | .text => "corpus_raw.txt"
  | .tokenStarts => "corpus_token_starts.bin"
  | .records => "corpus_inflections_raw.bin"
  | .recordSpans => "corpus_inflection_offsets.bin"
  | .summary => "corpus_stats.json"

/-- A word stream as the bytes of a file. -/
def ofWords (words : List UInt32) : ByteArray := ⟨(WordStream.encode words).toArray⟩

end Artifact

/-- The places of tokens and breaks by turns. -/
def CorpusText.starts (text : CorpusText) : List UInt32 :=
  (text.tokenStarts.toList.zip text.breakStarts.toList).flatMap fun (token, gap) =>
    [token, gap]

/-- The bytes of an artifact of a corpus. -/
def Corpus.artifact (corpus : Corpus) : Artifact → Except BuildError ByteArray
  | .text => .ok corpus.text.text.toUTF8
  | .tokenStarts => .ok (Artifact.ofWords corpus.text.starts)
  | .records => .ok (Artifact.ofWords corpus.forms.records.toList)
  | .recordSpans => corpus.forms.spanTable.map Artifact.ofWords
  | .summary => .ok corpus.summary.pretty.toUTF8

end Concordance
