import Concordance.Corpus.Basic
import Concordance.Json.Basic

/-!
# Summaries

A summary says in JSON what a corpus holds: the numbers of its words, the spans of works and
authors, and for every dimension how many lists there are, how many of them are dense, and how
many bytes they take.
-/

namespace Concordance

/-- The fields of a row's span. -/
def RowSpan.toJson (row : RowSpan) : Json :=
  .record [("sectionId", .text row.sectionId), ("start", .nat row.start), ("end", .nat row.stop)]

/-- The fields of a work's span. -/
def WorkSpan.toJson (work : WorkSpan) : Json :=
  .record [
    ("id", .text work.id),
    ("name", .text work.name),
    ("author", .text work.author),
    ("authorCode", .text work.authorCode),
    ("start", .nat work.start),
    ("end", .nat work.stop),
    ("rows", .array (work.rows.toList.map RowSpan.toJson))]

/-- The fields of an author's span. -/
def AuthorSpan.toJson (author : AuthorSpan) : Json :=
  .record [
    ("name", .text author.name),
    ("firstWork", .nat author.firstWork),
    ("lastWork", .nat author.lastWork),
    ("start", .nat author.start),
    ("end", .nat author.stop)]

/-- The numbers of words. -/
def CorpusStats.toJson (stats : CorpusStats) : Json :=
  .record [
    ("totalWords", .nat stats.totalWords.toNat),
    ("totalWorks", .nat stats.totalWorks.toNat),
    ("uniqueWords", .nat stats.uniqueWords.toNat),
    ("uniqueLemmata", .nat stats.uniqueLemmata.toNat)]

/-- How the lists of a dimension are stored, in machine words. -/
structure DimensionSummary where
  /-- The number of lists. -/
  keys : UInt64
  /-- The number of dense lists. -/
  dense : UInt64
  /-- The number of bytes that the members of all lists take. -/
  bytes : UInt64
  deriving DecidableEq, Repr

namespace DimensionSummary

/-- The summary of posting lists. -/
def ofLists (lists : List Posting) : DimensionSummary where
  keys := UInt64.ofNat lists.length
  dense := UInt64.ofNat (lists.countP (·.isDense))
  bytes := lists.foldl (fun bytes list => bytes + UInt64.ofNat list.byteLength) 0

/-- The fields of a dimension's summary. -/
def toJson (summary : DimensionSummary) : Json :=
  .record [
    ("keys", .nat summary.keys.toNat),
    ("dense", .nat summary.dense.toNat),
    ("bytes", .nat summary.bytes.toNat)]

end DimensionSummary

namespace Corpus

/-- How the lists of a dimension are stored. -/
def dimensionSummary (corpus : Corpus) (dimension : Dimension) : DimensionSummary :=
  .ofLists ((corpus.dimension dimension).map (·.2))

/-- The summary of a corpus. -/
def summary (corpus : Corpus) : Json :=
  .record [
    ("numTokens", .nat corpus.tokenCount),
    ("stats", corpus.stats.toJson),
    ("works", .array (corpus.works.toList.map WorkSpan.toJson)),
    ("authors", .record (corpus.authors.toList.map fun (code, author) => (code, author.toJson))),
    ("dimensions", .record (Dimension.all.map fun dimension =>
      (dimension.name, (corpus.dimensionSummary dimension).toJson)))]

end Corpus

end Concordance
