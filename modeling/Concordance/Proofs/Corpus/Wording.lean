import Concordance.Corpus.Summary
import Concordance.Proofs.Corpus.Rows

/-!
# The wording of a corpus

The text of a corpus is that of its works, row after row, and nothing of it is lost, added or moved
but what stands before the first word (`Corpus.text_of_rows`). Some rows start on a new line: the
line feed before them is the only text that does not come from the rows.
-/

namespace Concordance

/-- The lines of works have the words of their rows, and the same text before the first one. -/
theorem alike_flatMap_chunks (tokenizer : Tokenizer) (works : List Work) :
    Chunk.Alike (works.flatMap (Work.chunks tokenizer))
      (works.flatMap fun work => work.rows.flatMap tokenizer.chunks) := by
  induction works with
  | nil => exact .refl []
  | cons work works ih =>
    rw [List.flatMap_cons, List.flatMap_cons]
    exact (work.alike_chunks tokenizer).append ih

/-- The lines of works join to their texts. -/
theorem join_flatMap_chunks (tokenizer : Tokenizer) [LawfulTokenizer tokenizer]
    (works : List Work) :
    Chunk.join (works.flatMap (Work.chunks tokenizer))
      = String.join (works.map (Work.laidOut tokenizer)) := by
  induction works with
  | nil => rfl
  | cons work works ih =>
    rw [List.flatMap_cons, Chunk.join_append, Work.join_chunks tokenizer work, ih, List.map_cons,
      String.join_cons]

namespace Corpus

/-- When chunks keep the text, as those between break characters do, the text of a corpus is that of
its works, one after the other, without what stands before the first word. Its tokens are the words
of all rows in order, and between a token and the next stands what the rows and the line feeds
between them have there. Look-ups find just this, and nothing beyond the last token. -/
theorem text_of_rows {reader : Reader} [LawfulTokenizer reader.tokenizer] {ratio : UInt32}
    {works : List Work} {corpus : Corpus} (h : ofWorks reader ratio works = .ok corpus) :
    let chunks := works.flatMap fun work => work.rows.flatMap reader.tokenizer.chunks
    let tokens := Token.ofChunks (works.flatMap (Work.chunks reader.tokenizer))
    String.join (works.map (Work.laidOut reader.tokenizer))
        = Chunk.join (Chunk.opening chunks) ++ corpus.text.text
      ∧ corpus.text.text = runningText tokens
      ∧ tokens.map (·.spelling) = (chunks.filter (·.isWord)).map (·.text)
      ∧ tokens.length = corpus.tokenCount
      ∧ ∀ index, corpus.tokenText? index = tokens[index]?.map (·.spelling)
        ∧ corpus.breakText? index = tokens[index]?.map (·.trailing) := by
  intro chunks tokens
  obtain ⟨draft, htaken, hdraft, -⟩ := exists_worksTaken h
  have halike := alike_flatMap_chunks reader.tokenizer works
  have htokens : draft.tokens.toList = tokens := htaken.tells.tokens_eq
  have hspells := hdraft.spells
  rw [htokens] at hspells
  refine ⟨?_, hspells.text_eq, ?_, ?_, hspells.lookups_eq⟩
  · rw [← join_flatMap_chunks, Token.join_eq, halike.opening, hspells.text_eq]
  · rw [Token.spellings_ofChunks, halike.words]
  · rw [hdraft.tokenCount_eq, ← htokens, Array.length_toList]

/-! ### A corpus of four rows -/

instance : LawfulTokenizer gallicReader.tokenizer :=
  inferInstanceAs (LawfulTokenizer BreakSet.default.tokenizer)

/-- The first word of the Gallic War in rows of two chapters. The third row has no word. -/
def gallicRows : Work where
  id := "gallic"
  name := "Gallic War"
  author := "Caesar"
  authorCode := "caesar"
  rows := ["(Gallia", ") Gallia", "—", "Gallia."]
  rowIds := [["1", "1"], ["1", "2"], ["1", "3"], ["2", "1"]]

/-- The spans of the work and of its rows. -/
def gallicSpan : WorkSpan where
  id := "gallic"
  name := "Gallic War"
  author := "Caesar"
  authorCode := "caesar"
  start := 0
  stop := 3
  rows := #[⟨"1.1", 0, 1⟩, ⟨"1.2", 1, 2⟩, ⟨"1.3", 2, 2⟩, ⟨"2.1", 2, 3⟩]

/-- The draft with the word once more. -/
def withGallia (draft : Draft) : Draft :=
  { draft with
    tokens := draft.tokens.push ⟨"Gallia", ""⟩
    forms := draft.forms.addToken gallicEntry
    index := draft.index.addWord "gallia" ["Gallia"] [0x04220001]
      (UInt32.ofNat draft.tokens.size) }

/-- When the form of the word has its entry, the word is taken without its analyses. -/
theorem addWord_withGallia {draft : Draft} (hroom : draft.tokens.size < Draft.maxTokens)
    (hknown : draft.forms.entries["gallia"]? = some gallicEntry)
    (hrecords : draft.forms.records = gallicForms.records) :
    draft.addWord gallicReader.analyze "Gallia" = .ok (withGallia draft) := by
  have hkey : Fold.searchKey "Gallia" = "gallia" := by decide +kernel
  have hforms : draft.forms.add gallicReader.analyze "gallia"
      = .ok (draft.forms.addToken gallicEntry, gallicEntry) := by
    rw [FormTable.add_eq, hknown]
  have hspan : (draft.forms.addToken gallicEntry).recordsAt? gallicEntry.span
      = some [0x04220001] := by
    unfold FormTable.recordsAt? FormTable.addToken
    rw [hrecords]
    decide +kernel
  unfold Draft.addWord
  rw [hkey, if_neg (Nat.not_le_of_lt hroom)]
  refine bind_eq_ok.mpr ⟨_, hforms, ?_⟩
  simp only [hspan]
  rfl

/-- The draft with the first two rows of the work. -/
def gallicSecond : Draft := withGallia ((gallicDraft.appendBreak "\n").addBreak ") ")

/-- The draft with three rows. -/
def gallicThird : Draft := (gallicSecond.appendBreak "\n").addBreak "—"

/-- The draft with all rows. -/
def gallicFourth : Draft := (withGallia gallicThird.markHardBreak).addBreak "."

/-- The rows of the work are taken one after the other. -/
theorem addRows_gallicRows : Draft.empty.addRows gallicReader gallicRows.id 0 none
    (gallicRows.rows.zip gallicRows.rowIds) = .ok (gallicFourth, gallicSpan.rows.toList) := by
  have hknown : gallicForms.entries["gallia"]? = some gallicEntry :=
    Std.HashMap.getElem?_insert_self
  -- the bracket at the start belongs to no token
  have hfirst : Draft.empty.addRow gallicReader "gallic" 0 none "(Gallia" ["1", "1"]
      = .ok (gallicDraft, ⟨"1.1", 0, 1⟩) := by
    have hchunks : gallicReader.tokenizer.chunks "(Gallia" = [⟨"(", false⟩, ⟨"Gallia", true⟩] := by
      decide +kernel
    have hlabel : SectionId.label ["1", "1"] = "1.1" := by decide +kernel
    unfold Draft.addRow
    rw [hchunks, hlabel]
    exact bind_eq_ok.mpr ⟨none, rfl, bind_eq_ok.mpr ⟨gallicDraft, bind_eq_ok.mpr
      ⟨Draft.empty, rfl, bind_eq_ok.mpr ⟨gallicDraft, addWord_gallicDraft, rfl⟩⟩, rfl⟩⟩
  have hsecond : gallicDraft.addRow gallicReader "gallic" 0 (some ["1", "1"]) ") Gallia" ["1", "2"]
      = .ok (gallicSecond, ⟨"1.2", 1, 2⟩) := by
    have hchunks : gallicReader.tokenizer.chunks ") Gallia" = [⟨") ", false⟩, ⟨"Gallia", true⟩] := by
      decide +kernel
    have hlabel : SectionId.label ["1", "2"] = "1.2" := by decide +kernel
    have hword : ((gallicDraft.appendBreak "\n").addBreak ") ").addWord gallicReader.analyze
        "Gallia" = .ok gallicSecond :=
      addWord_withGallia (by decide +kernel) hknown rfl
    unfold Draft.addRow
    rw [hchunks, hlabel]
    exact bind_eq_ok.mpr ⟨some .soft, by decide, bind_eq_ok.mpr ⟨gallicSecond, bind_eq_ok.mpr
      ⟨_, rfl, bind_eq_ok.mpr ⟨_, hword, rfl⟩⟩, rfl⟩⟩
  have hthird : gallicSecond.addRow gallicReader "gallic" 0 (some ["1", "2"]) "—" ["1", "3"]
      = .ok (gallicThird, ⟨"1.3", 2, 2⟩) := by
    have hchunks : gallicReader.tokenizer.chunks "—" = [⟨"—", false⟩] := by decide +kernel
    have hlabel : SectionId.label ["1", "3"] = "1.3" := by decide +kernel
    unfold Draft.addRow
    rw [hchunks, hlabel]
    exact bind_eq_ok.mpr ⟨some .soft, by decide, bind_eq_ok.mpr ⟨gallicThird, rfl, rfl⟩⟩
  have hfourth : gallicThird.addRow gallicReader "gallic" 0 (some ["1", "3"]) "Gallia." ["2", "1"]
      = .ok (gallicFourth, ⟨"2.1", 2, 3⟩) := by
    have hchunks : gallicReader.tokenizer.chunks "Gallia." = [⟨"Gallia", true⟩, ⟨".", false⟩] := by
      decide +kernel
    have hlabel : SectionId.label ["2", "1"] = "2.1" := by decide +kernel
    have hword : gallicThird.markHardBreak.addWord gallicReader.analyze "Gallia"
        = .ok (withGallia gallicThird.markHardBreak) :=
      addWord_withGallia (by decide +kernel) hknown rfl
    unfold Draft.addRow
    rw [hchunks, hlabel]
    exact bind_eq_ok.mpr ⟨some .hard, by decide, bind_eq_ok.mpr ⟨gallicFourth, bind_eq_ok.mpr
      ⟨_, hword, rfl⟩, rfl⟩⟩
  exact bind_eq_ok.mpr ⟨_, hfirst, bind_eq_ok.mpr ⟨_, bind_eq_ok.mpr ⟨_, hsecond, bind_eq_ok.mpr
    ⟨_, bind_eq_ok.mpr ⟨_, hthird, bind_eq_ok.mpr ⟨_, bind_eq_ok.mpr ⟨_, hfourth, rfl⟩, rfl⟩⟩,
      rfl⟩⟩, rfl⟩⟩

/-- The draft with the work. -/
def gallicNoted : Draft :=
  { gallicFourth.markHardBreak with
    works := #[gallicSpan]
    authors := (∅ : Std.TreeMap String AuthorSpan).insert "caesar" ⟨"Caesar", 0, 0, 0, 3⟩ }

theorem addWork_gallicRows : Draft.empty.addWork gallicReader gallicRows = .ok gallicNoted := by
  unfold Draft.addWork
  simp only [guard_eq_ok]
  refine ⟨by decide, by decide, bind_eq_ok.mpr ⟨⟨"Caesar", 0, 0, 0, 0⟩, ?_, bind_eq_ok.mpr
    ⟨(gallicFourth, gallicSpan.rows.toList), addRows_gallicRows, ?_⟩⟩⟩
  · decide +kernel
  · exact guard_eq_ok.mpr ⟨by decide +kernel, rfl⟩

/-- The corpus of the work is that of the draft with it. -/
theorem ofWorks_gallicRows {ratio : UInt32} {corpus : Corpus}
    (h : gallicNoted.finish ratio = .ok corpus) :
    ofWorks gallicReader ratio [gallicRows] = .ok corpus :=
  ofWorks_eq_ok.mpr ⟨gallicNoted, bind_eq_ok.mpr ⟨gallicNoted, addWork_gallicRows, rfl⟩, h⟩

/-- The work of four rows is built. -/
theorem exists_ofWorks_gallicRows : ∃ corpus, ofWorks gallicReader 32 [gallicRows] = .ok corpus
    ∧ corpus.works = #[gallicSpan] ∧ corpus.breakText? 0 = some "\n) " := by
  have hfinish : (gallicNoted.finish 32).map (fun corpus => (corpus.works, corpus.breakText? 0))
      = .ok (#[gallicSpan], some "\n) ") := by
    decide +kernel
  obtain ⟨corpus, hcorpus, hdata⟩ := map_eq_ok.mp hfinish
  obtain ⟨hworks, hbreak⟩ := Prod.mk.inj hdata
  exact ⟨corpus, ofWorks_gallicRows hcorpus, hworks, hbreak⟩

/-- The text of the four rows lacks the bracket before its first word, and has two line feeds. -/
theorem text_of_rows_gallic : ∃ corpus, ofWorks gallicReader 32 [gallicRows] = .ok corpus
    ∧ corpus.text.text = "Gallia\n) Gallia\n—Gallia." ∧ corpus.tokenText? 2 = some "Gallia"
    ∧ corpus.breakText? 0 = some "\n) " ∧ corpus.breakText? 1 = some "\n—"
    ∧ corpus.breakText? 2 = some "." ∧ corpus.breakText? 3 = none := by
  obtain ⟨corpus, hcorpus, -, -⟩ := exists_ofWorks_gallicRows
  obtain ⟨-, htext, -, -, hlookups⟩ := text_of_rows hcorpus
  have htokens : Token.ofChunks ([gallicRows].flatMap (Work.chunks gallicReader.tokenizer))
      = [⟨"Gallia", "\n) "⟩, ⟨"Gallia", "\n—"⟩, ⟨"Gallia", "."⟩] := by
    decide +kernel
  rw [htokens] at htext hlookups
  exact ⟨corpus, hcorpus, htext.trans (by decide +kernel), (hlookups 2).1, (hlookups 0).2,
    (hlookups 1).2, (hlookups 2).2, (hlookups 3).2⟩

end Corpus

end Concordance
