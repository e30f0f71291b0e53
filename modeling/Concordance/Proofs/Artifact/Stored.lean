import Concordance.Proofs.Artifact.Audit
import Concordance.Proofs.Artifact.Directory
import Concordance.Proofs.Artifact.Starts
import Concordance.Proofs.Bytes.WordStream
import Concordance.Proofs.Corpus.Forms
import Concordance.Proofs.Corpus.Summary

/-!
# Stored corpora

What is stored of a corpus passes its audit, and says about every token what the corpus says
(`Corpus.stored_faithfully`). This ties together what is counted in different places: the tokens,
their places in the text, and the spans of their records.

- `Corpus.Agrees`: the tokens, places and spans of a corpus agree.
- `Corpus.contents`: the bytes of the artifacts of a corpus.
- `Artifact.token?`: what artifacts alone say about a token.
-/

namespace Concordance

/-! ## The artifacts of a corpus -/

/-- Bytes are those of a text exactly if they are read as the text. -/
theorem fromUTF8?_eq_some_iff {bytes : ByteArray} {text : String} :
    String.fromUTF8? bytes = some text ↔ bytes = text.toUTF8 := by
  constructor
  · intro h
    rw [String.fromUTF8?] at h
    split at h
    case isTrue =>
      rw [← Option.some.inj h]
      rfl
    case isFalse => cases h
  · rintro rfl
    exact dif_pos text.isValidUTF8

/-- Words that were written are read. -/
theorem Audit.wordsOf_ofWords (words : List UInt32) :
    wordsOf (Artifact.ofWords words) = .ok words := by
  unfold wordsOf
  rw [show (Artifact.ofWords words).data.toList = WordStream.encode words from rfl,
    WordStream.decode_encode]
  rfl

/-- A value that was written is read, if it is not nested too deeply. -/
theorem Audit.jsonOf_pretty {value : Json} (h : Json.SimpleWithin Json.maxDepth value) :
    jsonOf value.pretty.toUTF8 = .ok value := by
  have hparse : Json.parseBytes value.pretty.toUTF8 = some value := by
    unfold Json.parseBytes
    rw [fromUTF8?_eq_some_iff.mpr rfl]
    exact Json.parse_pretty h.simple
  unfold jsonOf
  simp only [hparse, h.isPlain, if_true]

/-- The bytes of the artifacts of a corpus, given the words of the spans. -/
def Corpus.contents (corpus : Corpus) (spans : List UInt32) : Artifact → ByteArray
  | .text => corpus.text.text.toUTF8
  | .tokenStarts => Artifact.ofWords corpus.text.starts
  | .records => Artifact.ofWords corpus.forms.records.toList
  | .recordSpans => Artifact.ofWords spans
  | .summary => corpus.summary.pretty.toUTF8

theorem Corpus.artifact_eq_contents {corpus : Corpus} {spans : List UInt32}
    (h : corpus.forms.spanTable = .ok spans) (artifact : Artifact) :
    corpus.artifact artifact = .ok (corpus.contents spans artifact) := by
  cases artifact with
  | recordSpans =>
    unfold Corpus.artifact
    rw [h]
    rfl
  | text => rfl
  | tokenStarts => rfl
  | records => rfl
  | summary => rfl

namespace Corpus

/-- What is kept of a corpus in different places agrees: the tokens, their places in the text, and
the words of their spans. -/
structure Agrees (corpus : Corpus) (tokens : List Token) (spans : List UInt32) : Prop where
  /-- The text has the places of the tokens. -/
  spells : corpus.text.Spells tokens
  /-- All tokens are counted. -/
  length_tokens : tokens.length = corpus.tokenCount
  /-- 64 bits can say how many there are. -/
  tokenCount_lt : corpus.tokenCount < UInt64.size
  /-- The words are those of the spans. -/
  spanTable_eq : corpus.forms.spanTable = .ok spans
  /-- They are read back as the spans. -/
  unpack_spans : spans.map RecordSpan.unpack = corpus.forms.tokenSpans.toList
  /-- There is a span for each token. -/
  length_spans : spans.length = corpus.tokenCount
  /-- The records of a span are there. -/
  stop_le : ∀ word ∈ spans, (RecordSpan.unpack word).offset.toNat
    + (RecordSpan.unpack word).length.toNat ≤ corpus.forms.records.size
  /-- The first record is the reserved one. -/
  reserved : corpus.forms.records[0]? = some 0

/-- Whatever is built agrees. -/
theorem exists_agrees {reader : Reader} {ratio : UInt32} {works : List Work} {corpus : Corpus}
    (h : ofWorks reader ratio works = .ok corpus) : ∃ tokens spans, corpus.Agrees tokens spans := by
  obtain ⟨draft, htaken, hdraft, -⟩ := exists_worksTaken h
  obtain ⟨forms, haccounts, hforms⟩ := exists_accounts h
  obtain ⟨spans, hspanTable, hunpack⟩ := haccounts.exists_spanTable
  refine ⟨draft.tokens.toList, spans, hdraft.spells, ?_, ?_, hspanTable, hunpack, ?_, ?_,
    haccounts.reserved⟩
  · rw [Array.length_toList, hdraft.tokenCount_eq]
  · rw [hdraft.tokenCount_eq]
    exact Nat.lt_of_le_of_lt htaken.tells.size_le (by decide)
  · rw [← hforms, ← haccounts.size_tokenSpans, ← Array.length_toList, ← hunpack, List.length_map]
  · intro word hword
    refine haccounts.stop_le ?_
    rw [← hunpack]
    exact List.mem_map_of_mem hword

end Corpus

variable {corpus : Corpus} {tokens : List Token} {spans : List UInt32}

/-! ## The audit -/

/-- What the artifacts of a corpus are read as, given the words of the spans. -/
def Corpus.readings (corpus : Corpus) (spans : List UInt32) : Readings where
  text := corpus.text.text
  starts := corpus.text.starts
  records := corpus.forms.records.toList
  spans
  summary := corpus.summary

/-- The artifacts of a corpus are read as what they were made of. -/
theorem Corpus.readings_of_contents (h : Json.SimpleWithin Json.maxDepth corpus.summary) :
    (corpus.readings spans).Of (corpus.contents spans) where
  text := fromUTF8?_eq_some_iff.mpr rfl
  starts := Audit.wordsOf_ofWords _
  records := Audit.wordsOf_ofWords _
  spans := Audit.wordsOf_ofWords _
  summary := Audit.jsonOf_pretty h

namespace Corpus.Agrees

theorem length_starts (h : corpus.Agrees tokens spans) :
    corpus.text.starts.length = 2 * corpus.tokenCount := by
  rw [h.spells.length_starts, h.length_tokens]

/-- The artifacts of a corpus that agrees fit together. -/
theorem coherent (h : corpus.Agrees tokens spans) :
    (corpus.readings spans).Coherent corpus.tokenCount where
  length_starts := h.length_starts
  ascending := (Audit.neverFalls_iff_pairwise _).mp h.spells.neverFalls_starts
  within _ hplace := h.spells.le_of_mem_starts hplace
  length_spans := h.length_spans
  reserved := by
    show corpus.forms.records.toList.head? = some 0
    rw [List.head?_eq_getElem?, Array.getElem?_toList, h.reserved]
  stop_le := h.stop_le
  -- the first number of a summary is that of the tokens
  counted := Json.natural?_ofNat h.tokenCount_lt

end Corpus.Agrees

/-! ## Tokens in artifacts -/

/-- The bytes between two places of a file, if both are places of it. -/
def bytesBetween? (bytes : ByteArray) (first stop : Nat) : Option ByteArray :=
  if first ≤ stop ∧ stop ≤ bytes.size then some (bytes.extract first stop) else none

/-- The bytes between two places of a text are those of the part between them. -/
theorem bytesBetween?_toUTF8 {text part : String} {first stop : Nat}
    (h : sliceBytes? text first stop = some part) :
    bytesBetween? text.toUTF8 first stop = some part.toUTF8 := by
  unfold sliceBytes? at h
  split at h
  case isTrue hinside =>
    rw [← fromUTF8?_eq_some_iff.mp h]
    exact if_pos hinside
  case isFalse => cases h

/-- What artifacts say about a token. -/
structure StoredToken where
  /-- The bytes of the token in the text. -/
  spelling : ByteArray
  /-- The bytes of the break behind it. -/
  trailing : ByteArray
  /-- The records. -/
  records : List Record

namespace Artifact

/-- The records of a written span, if there are so many. -/
def recordsOf? (records : List Record) (word : UInt32) : Option (List Record) :=
  let span := RecordSpan.unpack word
  if span.offset.toNat + span.length.toNat ≤ records.length then
    some ((records.drop span.offset.toNat).take span.length.toNat)
  else none

/-- What artifacts alone say about a token. The words at twice its number in the places are where
it starts and where its break starts, and the break stops where the next token starts, or at the
end of the text. -/
def token? (files : Artifact → ByteArray) (token : Nat) : Option StoredToken := do
  let starts ← (Audit.wordsOf (files .tokenStarts)).toOption
  let records ← (Audit.wordsOf (files .records)).toOption
  let spans ← (Audit.wordsOf (files .recordSpans)).toOption
  let start ← starts[2 * token]?
  let stop ← starts[2 * token + 1]?
  let next := match starts[2 * (token + 1)]? with
    | some next => next.toNat
    | none => (files .text).size
  let word ← spans[token]?
  let spelling ← bytesBetween? (files .text) start.toNat stop.toNat
  let trailing ← bytesBetween? (files .text) stop.toNat next
  let found ← recordsOf? records word
  return ⟨spelling, trailing, found⟩

theorem recordsOf?_eq (table : FormTable) (word : UInt32) :
    recordsOf? table.records.toList word = table.recordsAt? (RecordSpan.unpack word) := by
  unfold recordsOf? FormTable.recordsAt?
  simp only [Array.length_toList, Array.toList_extract, List.extract_eq_take_drop,
    Nat.add_sub_cancel_left]

end Artifact

namespace Corpus.Agrees

variable {index : Nat}

/-- A token that has a word has records. -/
theorem exists_records (h : corpus.Agrees tokens spans) {word : UInt32}
    (hword : spans[index]? = some word) :
    ∃ found, corpus.forms.recordsAt? (RecordSpan.unpack word) = some found
      ∧ corpus.tokenRecords? index = some found := by
  have hspan : corpus.forms.tokenSpans[index]? = some (RecordSpan.unpack word) := by
    rw [← Array.getElem?_toList, ← h.unpack_spans, List.getElem?_map, hword, Option.map_some]
  obtain ⟨found, hfound⟩ :
      ∃ found, corpus.forms.recordsAt? (RecordSpan.unpack word) = some found :=
    ⟨_, if_pos (h.stop_le word (List.mem_of_getElem? hword))⟩
  refine ⟨found, hfound, ?_⟩
  unfold tokenRecords? FormTable.tokenRecords?
  rw [hspan]
  exact hfound

/-- The artifacts say about a token what the corpus says. -/
theorem token?_contents (h : corpus.Agrees tokens spans) (hindex : index < corpus.tokenCount) :
    ∃ spelling trailing found, corpus.tokenText? index = some spelling
      ∧ corpus.breakText? index = some trailing ∧ corpus.tokenRecords? index = some found
      ∧ Artifact.token? (corpus.contents spans) index
        = some ⟨spelling.toUTF8, trailing.toUTF8, found⟩ := by
  obtain ⟨token, htoken⟩ : ∃ token, tokens[index]? = some token :=
    ⟨_, List.getElem?_eq_getElem (h.length_tokens ▸ hindex)⟩
  obtain ⟨word, hword⟩ : ∃ word, spans[index]? = some word :=
    ⟨_, List.getElem?_eq_getElem (h.length_spans ▸ hindex)⟩
  obtain ⟨found, hrecords, hfound⟩ := h.exists_records hword
  refine ⟨token.spelling, token.trailing, found, h.spells.token?_eq htoken,
    h.spells.break?_eq htoken, hfound, ?_⟩
  -- the places are read from the file, and the bytes between them are those of the look-ups
  obtain ⟨start, stop, hstart, hstop, -⟩ := h.spells.places index token htoken
  have hspelling := h.spells.token?_eq htoken
  have htrailing := h.spells.break?_eq htoken
  rw [CorpusText.token?, hstart, hstop] at hspelling
  rw [CorpusText.break?, hstop] at htrailing
  have hfirst := bytesBetween?_toUTF8 hspelling
  have hsecond : bytesBetween? corpus.text.text.toUTF8 stop.toNat
      (match corpus.text.tokenStarts[index + 1]? with
        | some next => next.toNat
        | none => corpus.text.text.toUTF8.size) = some token.trailing.toUTF8 :=
    bytesBetween?_toUTF8 htrailing
  unfold Artifact.token? contents
  simp only [Audit.wordsOf_ofWords, Except.toOption, h.spells.getElem?_starts_even,
    h.spells.getElem?_starts_odd, hstart, hstop, hword, hfirst, hsecond,
    Artifact.recordsOf?_eq, hrecords, Option.bind_eq_bind, Option.bind_some]
  rfl

/-- The artifacts say nothing about what is no token. -/
theorem token?_contents_eq_none (h : corpus.Agrees tokens spans)
    (hindex : corpus.tokenCount ≤ index) :
    Artifact.token? (corpus.contents spans) index = none := by
  have hnone : corpus.text.starts[2 * index]? = none := by
    rw [List.getElem?_eq_none_iff, h.length_starts]
    omega
  unfold Artifact.token? contents
  simp only [Audit.wordsOf_ofWords, Except.toOption, hnone, Option.bind_eq_bind, Option.bind_some,
    Option.bind_none]

end Corpus.Agrees

namespace Corpus

/-- When the artifacts of a corpus were stored, their audit succeeds: all six checks hold, and the
number of tokens is that of the corpus. What is read from the files fits together. The stored files
alone say about every token what the corpus says, its text, the text behind it, and its records, and
they say nothing about other tokens. The file system has to return what was written. -/
theorem stored_faithfully {reader : Reader} {ratio : UInt32} {works : List Work} {corpus : Corpus}
    (h : ofWorks reader ratio works = .ok corpus)
    {World : Type} {files : FileSystem (StateM World)} {directory : String}
    (hfiles : files.Returns directory) {before after : World}
    (hstore : (Build.store files directory corpus).run before = (.ok (), after)) :
    ∃ contents : Artifact → ByteArray,
      (∀ artifact, files.Holds directory artifact (contents artifact) after)
      ∧ (∃ audit, ((Audit.ofDirectory files directory).run after).1 = .ok audit
        ∧ audit.checks.length = 6 ∧ audit.isConsistent = true
        ∧ audit.tokenCount = corpus.tokenCount)
      ∧ (∃ reading : Readings, reading.Of contents ∧ reading.Coherent corpus.tokenCount)
      ∧ (∀ index < corpus.tokenCount, ∃ spelling trailing found,
        corpus.tokenText? index = some spelling ∧ corpus.breakText? index = some trailing
        ∧ corpus.tokenRecords? index = some found
        ∧ Artifact.token? contents index = some ⟨spelling.toUTF8, trailing.toUTF8, found⟩)
      ∧ ∀ index, corpus.tokenCount ≤ index → Artifact.token? contents index = none := by
  obtain ⟨tokens, spans, hagrees⟩ := exists_agrees h
  have hholds :
      ∀ artifact, files.Holds directory artifact (corpus.contents spans artifact) after := by
    intro artifact
    exact Build.holds_store hfiles hstore (artifact_eq_contents hagrees.spanTable_eq artifact)
  have hreadings : (corpus.readings spans).Of (corpus.contents spans) :=
    readings_of_contents (simpleWithin_summary h)
  refine ⟨corpus.contents spans, hholds, ?_, ⟨_, hreadings, hagrees.coherent⟩, ?_, ?_⟩
  · rw [Audit.run_ofDirectory hfiles hholds]
    obtain ⟨audit, haudit, hconsistent, htokens⟩ :=
      Audit.passes_iff.mpr ⟨_, hreadings, hagrees.coherent⟩
    exact ⟨audit, haudit, Audit.length_checks haudit, hconsistent, htokens⟩
  · intro index hindex
    exact hagrees.token?_contents hindex
  · intro index hindex
    exact hagrees.token?_contents_eq_none hindex

/-- The four rows are stored in an empty tree, and their first token is read from its files. -/
theorem stored_faithfully_gallic : ∃ corpus after contents,
    ofWorks gallicReader 32 [gallicRows] = .ok corpus
      ∧ (Build.store FileTree.fileSystem "out" corpus).run (.empty []) = (.ok (), after)
      ∧ (∀ artifact, FileTree.fileSystem.Holds "out" artifact (contents artifact) after)
      ∧ (∃ audit, ((Audit.ofDirectory FileTree.fileSystem "out").run after).1 = .ok audit
        ∧ audit.isConsistent = true)
      ∧ ∃ stored, Artifact.token? contents 0 = some stored ∧ stored.trailing = "\n) ".toUTF8 := by
  obtain ⟨corpus, hcorpus, hworks, hbreak⟩ := exists_ofWorks_gallicRows
  obtain ⟨tokens, spans, hagrees⟩ := exists_agrees hcorpus
  obtain ⟨after, hstore⟩ := FileTree.exists_store fun artifact =>
    ⟨_, artifact_eq_contents hagrees.spanTable_eq artifact⟩
  obtain ⟨contents, hholds, ⟨audit, haudit, -, hconsistent, -⟩, -, htokens, -⟩ :=
    stored_faithfully hcorpus (FileTree.returns "out") hstore
  have hcount : 0 < corpus.tokenCount := by
    rw [← hagrees.length_tokens]
    refine List.length_pos_of_ne_nil ?_
    rintro rfl
    cases hbreak.symm.trans (hagrees.spells.lookups_eq 0).2
  obtain ⟨spelling, trailing, found, -, htrailing, -, hstored⟩ := htokens 0 hcount
  rw [hbreak] at htrailing
  cases htrailing
  exact ⟨corpus, after, contents, hcorpus, hstore, hholds, ⟨audit, haudit, hconsistent⟩,
    _, hstored, rfl⟩

end Corpus

end Concordance
