import Std.Data.TreeMap
import Concordance.Corpus.Dimension
import Concordance.Grammar.Record

/-!
# The index of a corpus in the making

While tokens are taken, the index is kept in the form that is easy to add to. Words and headwords
have a list of tokens each, and so have the hard boundaries. The values of a grammatical category
are few and known beforehand, and their lists stand at the places of their codes:

```text
code:    0    1            2            …   greatest code
lists:   ─    nominative   accusative   …   locative
```

A code beyond the greatest one has no list, and a token that is added there is lost without notice.
At the end the lists get keys, those of codes the keys of the values that the codes stand for; a
list whose code stands for nothing is lost as well.

- `CodeLists`: the lists of one category.
- `GrammarLists`: the lists of the seven categories that are indexed.
- `DraftIndex.addWord`: adds a token to the lists of its word, its headwords and its records.
- `DraftIndex.entries`: the lists by their keys.
-/

namespace Concordance

/-- Appends a token to a list, unless it is the last one already. -/
def appendToken (token : UInt32) (list : Array UInt32) : Array UInt32 :=
  if list.back? = some token then list else list.push token

/-- Lists of tokens for the values of a category, each at the place of a code. -/
structure CodeLists (α : Type) [Category α] where
  /-- The lists of the codes from zero to the greatest one. -/
  lists : Vector (Array UInt32) (Category.maxCode α + 1)

namespace CodeLists

variable {α : Type} [Category α]

/-- Lists without tokens. -/
def empty : CodeLists α := ⟨Vector.replicate _ #[]⟩

/-- Adds a token to the list of a code. A code that has no list is ignored. -/
def add (codes : CodeLists α) (code token : UInt32) : CodeLists α :=
  if h : code.toNat < Category.maxCode α + 1 then
    ⟨codes.lists.set code.toNat (appendToken token codes.lists[code.toNat])⟩
  else codes

/-- Adds a token to the lists of several values. -/
def addValues (codes : CodeLists α) (values : List α) (token : UInt32) : CodeLists α :=
  values.foldl (fun codes value => codes.add (Category.code value) token) codes

/-- The lists by the keys of the values that their codes stand for. Lists without tokens are left
out, and so are lists of codes that stand for no value. -/
def keyed (codes : CodeLists α) : List (String × Array UInt32) :=
  (codes.lists.toList.zipIdx.filter fun (list, _) => !list.isEmpty).filterMap fun (list, code) =>
    (Category.ofCode? (UInt32.ofNat code) : Option α).map fun value => (Category.key value, list)

end CodeLists

/-- Lists of tokens for the values of the grammatical categories that are indexed. -/
structure GrammarLists where
  /-- The lists of the cases. -/
  case : CodeLists Case
  /-- The lists of the numbers. -/
  number : CodeLists Number
  /-- The lists of the genders. -/
  gender : CodeLists Gender
  /-- The lists of the tenses. -/
  tense : CodeLists Tense
  /-- The lists of the persons. -/
  person : CodeLists Person
  /-- The lists of the moods. -/
  mood : CodeLists Mood
  /-- The lists of the voices. -/
  voice : CodeLists Voice

namespace GrammarLists

/-- Lists without tokens. -/
def empty : GrammarLists := ⟨.empty, .empty, .empty, .empty, .empty, .empty, .empty⟩

/-- Adds a token to the lists of the values of a record. The degree is not indexed. -/
def add (grammar : GrammarLists) (record : Record) (token : UInt32) : GrammarLists :=
  let features := record.features
  { case := grammar.case.addValues features.cases token
    gender := grammar.gender.addValues features.genders token
    number := grammar.number.addValues features.number.toList token
    tense := grammar.tense.addValues features.tense.toList token
    person := grammar.person.addValues features.person.toList token
    mood := grammar.mood.addValues features.mood.toList token
    voice := grammar.voice.addValues features.voice.toList token }

/-- Adds a token to the lists of the values of several records. -/
def addAll (grammar : GrammarLists) (records : List Record) (token : UInt32) : GrammarLists :=
  records.foldl (fun grammar record => grammar.add record token) grammar

end GrammarLists

/-- Lists of tokens for words. -/
abbrev WordLists : Type := Std.TreeMap String (Array UInt32)

/-- Adds a token to the lists of several words, once to each. -/
def WordLists.addAll (lists : WordLists) (words : List String) (token : UInt32) : WordLists :=
  words.foldl (fun lists word =>
    lists.alter word fun list => some (appendToken token (list.getD #[]))) lists

/-- Lists of tokens for the values of all dimensions. -/
structure DraftIndex where
  /-- The tokens of each search key. -/
  words : WordLists
  /-- The tokens of each headword. -/
  headwords : WordLists
  /-- The tokens before hard boundaries. -/
  hardBreaks : Array UInt32
  /-- The tokens of grammatical values. -/
  grammar : GrammarLists

namespace DraftIndex

/-- The index without tokens. -/
def empty : DraftIndex := ⟨∅, ∅, #[], .empty⟩

/-- Adds a token that stands before a hard boundary. -/
def addHardBreak (index : DraftIndex) (token : UInt32) : DraftIndex :=
  { index with hardBreaks := appendToken token index.hardBreaks }

/-- Adds the next token to the lists of its search key, its headwords and its records. The token is
new, so the list of its search key does not end with it. -/
def addWord (index : DraftIndex) (word : String) (headwords : List String) (records : List Record)
    (token : UInt32) : DraftIndex :=
  { index with
    headwords := index.headwords.addAll headwords token
    grammar := index.grammar.addAll records token
    words := index.words.alter word fun list => some ((list.getD #[]).push token) }

/-- The lists of a dimension by their values. The tokens before hard boundaries have a list even if
there are none. -/
def listsIn (index : DraftIndex) : Dimension → List (String × Array UInt32)
  | .word => index.words.toList
  | .headword => index.headwords.toList
  | .breaks => [(IndexKey.hardBreak.value, index.hardBreaks)]
  | .case => index.grammar.case.keyed
  | .number => index.grammar.number.keyed
  | .gender => index.grammar.gender.keyed
  | .tense => index.grammar.tense.keyed
  | .person => index.grammar.person.keyed
  | .mood => index.grammar.mood.keyed
  | .voice => index.grammar.voice.keyed

/-- The lists of all dimensions by their keys. -/
def entries (index : DraftIndex) : List (IndexKey × Array UInt32) :=
  Dimension.all.flatMap fun dimension =>
    (index.listsIn dimension).map fun (value, list) => (⟨dimension, value⟩, list)

end DraftIndex

end Concordance
