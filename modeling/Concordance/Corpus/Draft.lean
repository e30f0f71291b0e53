import Concordance.Corpus.Basic
import Concordance.Corpus.DraftIndex
import Concordance.Text.Chunk
import Concordance.Text.Fold
import Concordance.Work.Basic

/-!
# Building a corpus

A `Draft` takes works one after the other. Every word of a row becomes the next token, and its
number is appended to the posting list of each value it has; as numbers ascend, so do the lists.
What stands between two words becomes the break of the token before.

```text
work → row → chunk ─┬─ break: appended to the break of the token before;
                    │         a full stop in it makes a hard break
                    └─ word:  search key → form table → index
```

- `Draft.addWord`, `Draft.addBreak`: take a chunk.
- `Draft.addWork`: takes a work, or refuses it at its first fault.
- `Draft.finish`: packs the lists and puts the text together.
- `Corpus.ofWorks`: the corpus of a list of works.

A failure ends the build: there is no draft with half a work in it.
-/

namespace Concordance

/-- A token of the text. -/
structure Token where
  /-- The word as it is spelled. -/
  spelling : String
  /-- The text between the word and the next. -/
  trailing : String
  deriving DecidableEq, Repr, Inhabited

/-- How words are found and what is known about them. -/
structure Reader where
  /-- How words are found in a text. -/
  tokenizer : Tokenizer
  /-- The analyses of a search key. -/
  analyze : String → List Analysis

/-- A corpus in the making. -/
structure Draft where
  /-- The tokens so far. -/
  tokens : Array Token
  /-- The forms of the tokens. -/
  forms : FormTable
  /-- The tokens of each value. -/
  index : DraftIndex
  /-- The works so far. -/
  works : Array WorkSpan
  /-- The authors so far by the names by which they are cited. -/
  authors : Std.TreeMap String AuthorSpan

namespace Draft

/-- The draft without works. -/
def empty : Draft := ⟨#[], .empty, .empty, #[], ∅⟩

/-- The number of tokens that there can be. -/
def maxTokens : Nat := UInt32.size - 1

/-- Marks the last token as standing before a hard boundary. -/
def markHardBreak (draft : Draft) : Draft :=
  if draft.tokens.size = 0 then draft
  else { draft with index := draft.index.addHardBreak (UInt32.ofNat (draft.tokens.size - 1)) }

/-- Appends a text to the break of the last token. Before the first token there is none. -/
def appendBreak (draft : Draft) (text : String) : Draft :=
  { draft with tokens := draft.tokens.modify (draft.tokens.size - 1) fun token =>
      { token with trailing := token.trailing ++ text } }

/-- Takes a word as the next token. -/
def addWord (analyze : String → List Analysis) (draft : Draft) (spelling : String) :
    Except BuildError Draft := do
  if maxTokens ≤ draft.tokens.size then throw (.tokenOverflow maxTokens)
  let word := Fold.searchKey spelling
  let (forms, entry) ← draft.forms.add analyze word
  let records := (forms.recordsAt? entry.span).getD []
  let token := UInt32.ofNat draft.tokens.size
  return { draft with
    tokens := draft.tokens.push ⟨spelling, ""⟩
    forms
    index := draft.index.addWord word entry.headwords records token }

/-- Takes the text between two words. -/
def addBreak (draft : Draft) (text : String) : Draft :=
  let draft := draft.appendBreak text
  if text.toList.contains '.' then draft.markHardBreak else draft

/-- Takes a chunk of a row. -/
def addChunk (analyze : String → List Analysis) (draft : Draft) (chunk : Chunk) :
    Except BuildError Draft :=
  if chunk.isWord then draft.addWord analyze chunk.text else .ok (draft.addBreak chunk.text)

/-- The boundary before a row: none before the first one of a work. -/
def boundaryBefore (previous : Option SectionId) (id : SectionId) :
    Except SectionProblem (Option Boundary) :=
  match previous with
  | none => id.check.map fun _ => none
  | some previous => (SectionId.boundary previous id).map some

/-- Crosses the boundary before a row. A boundary before the first word of a work leaves no
trace. -/
def cross (draft : Draft) (workStart : Nat) (boundary : Option Boundary) : Draft :=
  if workStart < draft.tokens.size then
    match boundary with
    | none => draft
    | some .soft => draft.appendBreak "\n"
    | some .hard => draft.markHardBreak
  else draft

/-- Takes a row behind the row with the section id `previous`. -/
def addRow (reader : Reader) (workId : String) (workStart : Nat) (draft : Draft)
    (previous : Option SectionId) (row : String) (id : SectionId) :
    Except BuildError (Draft × RowSpan) := do
  let boundary ← (boundaryBefore previous id).mapError fun _ =>
    .malformedSectionId workId (SectionId.label (previous.getD [])) id.label
  let draft := draft.cross workStart boundary
  let start := draft.tokens.size
  let draft ← (reader.tokenizer.chunks row).foldlM (addChunk reader.analyze) draft
  return (draft, ⟨id.label, start, draft.tokens.size⟩)

/-- Takes rows with their section ids. -/
def addRows (reader : Reader) (workId : String) (workStart : Nat) : Draft → Option SectionId →
    List (String × SectionId) → Except BuildError (Draft × List RowSpan)
  | draft, _, [] => .ok (draft, [])
  | draft, previous, (row, id) :: rows => do
    let (draft, span) ← draft.addRow reader workId workStart previous row id
    let (draft, spans) ← addRows reader workId workStart draft (some id) rows
    return (draft, span :: spans)

/-- The span of an author who has one more work. The works of an author come one after the other. -/
def authorWith (draft : Draft) (work : Work) : Except BuildError AuthorSpan :=
  let workIndex := draft.works.size
  let start := draft.tokens.size
  match draft.authors[work.authorCode]? with
  | none => .ok ⟨work.author, workIndex, workIndex, start, start⟩
  | some author =>
    if author.lastWork + 1 = workIndex then .ok { author with lastWork := workIndex }
    else .error (.nonContiguousAuthor work.authorCode work.id)

/-- Takes a work. Its last token stands before a hard boundary. -/
def addWork (reader : Reader) (draft : Draft) (work : Work) : Except BuildError Draft := do
  if work.rows.length ≠ work.rowIds.length then
    throw (.rowIdMismatch work.id work.rows.length work.rowIds.length)
  if work.rows.isEmpty then throw (.emptyWork work.id)
  let author ← draft.authorWith work
  let start := draft.tokens.size
  let (draft, rows) ← draft.addRows reader work.id start none (work.rows.zip work.rowIds)
  let stop := draft.tokens.size
  if stop = start then throw (.emptyWork work.id)
  let draft := draft.markHardBreak
  return { draft with
    works := draft.works.push
      { id := work.id, name := work.name, author := work.author, authorCode := work.authorCode
        start, stop, rows := rows.toArray }
    authors := draft.authors.insert work.authorCode { author with stop } }

/-- An offset into the text, if 32 bits can say it. -/
def textOffset (text : String) : Except BuildError UInt32 :=
  if text.utf8ByteSize < UInt32.size then .ok (UInt32.ofNat text.utf8ByteSize)
  else .error (.textOverflow text.utf8ByteSize)

/-- Appends a token and the break behind it to the text. -/
def appendText (text : CorpusText) (token : Token) : Except BuildError CorpusText := do
  let tokenStart ← textOffset text.text
  let spelled := text.text ++ token.spelling
  let breakStart ← textOffset spelled
  return {
    text := spelled ++ token.trailing
    tokenStarts := text.tokenStarts.push tokenStart
    breakStarts := text.breakStarts.push breakStart }

/-- The text of tokens with the places of all of them. -/
def textOf (tokens : List Token) : Except BuildError CorpusText := do
  let text ← tokens.foldlM appendText ⟨"", #[], #[]⟩
  let _ ← textOffset text.text
  return text

/-- The posting list of a key. The tokens before hard boundaries are stored densely at any rate. -/
def pack (tokens ratio : UInt32) (key : IndexKey) (list : Array UInt32) :
    Except BuildError Posting :=
  (if key = .hardBreak then Posting.ofMembersDense list.toList tokens
    else Posting.pack list.toList tokens ratio).mapError .contract

/-- The posting lists of all keys. -/
def packIndex (index : DraftIndex) (tokens ratio : UInt32) :
    Except BuildError (Std.TreeMap IndexKey Posting IndexKey.compare) :=
  index.entries.foldlM
    (fun packed (key, list) => return packed.insert key (← pack tokens ratio key list)) ∅

/-- The corpus of a draft whose lists are stored by a ratio. -/
def finish (draft : Draft) (ratio : UInt32) : Except BuildError Corpus := do
  let tokenCount := draft.tokens.size
  let text ← textOf draft.tokens.toList
  let index ← packIndex draft.index (UInt32.ofNat tokenCount) ratio
  return {
    tokenCount
    index
    works := draft.works
    authors := draft.authors
    text
    forms := draft.forms
    stats := {
      totalWords := UInt32.ofNat tokenCount
      totalWorks := UInt32.ofNat draft.works.size
      uniqueWords := UInt32.ofNat draft.index.words.size
      uniqueLemmata := UInt32.ofNat draft.index.headwords.size } }

end Draft

/-- The corpus of works that are read one after the other. -/
def Corpus.ofWorks (reader : Reader) (ratio : UInt32) (works : List Work) :
    Except BuildError Corpus := do
  let draft ← works.foldlM (Draft.addWork reader) .empty
  draft.finish ratio

end Concordance
