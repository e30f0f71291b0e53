import Concordance.Proofs.Corpus.Faults
import Concordance.Proofs.Corpus.Places
import Concordance.Proofs.Corpus.Wording

/-!
# Works that fit

A build hits a capacity only when there is a lot to build. With at most 2^16 words, a text that 32
bits can measure, and fewer than 256 records for a form, no capacity is hit
(`Corpus.isCapacity_eq_false`): every word brings fewer than 256 records, so that the buffer of the
form table stays below its 2^24 records.

- `Draft.Slim`: the buffer is small for the number of tokens. Every step of a build keeps this
  (`Draft.Slim.step`).
- `Draft.lt_of_addChunks`, `Draft.lt_of_addRows`, `Draft.lt_of_addWork`: what a build hits a
  capacity at has too many words.
-/

namespace Concordance

/-- No form has too many records for a span. -/
def FewRecords (analyze : String → List Analysis) : Prop :=
  ∀ form, (FormTable.keptRecords (analyze form)).length < RecordSpan.lengthLimit

/-- The number of words in rows. -/
def Tokenizer.wordCount (tokenizer : Tokenizer) (rows : List String) : Nat :=
  (rows.flatMap tokenizer.chunks).countP (·.isWord)

theorem Tokenizer.wordCount_cons (tokenizer : Tokenizer) (row : String) (rows : List String) :
    tokenizer.wordCount (row :: rows)
      = (tokenizer.chunks row).countP (·.isWord) + tokenizer.wordCount rows := by
  rw [wordCount, List.flatMap_cons, List.countP_append, wordCount]

/-- The number of words in works. -/
def Work.wordCount (tokenizer : Tokenizer) (works : List Work) : Nat :=
  tokenizer.wordCount (works.flatMap (·.rows))

theorem Work.wordCount_cons (tokenizer : Tokenizer) (work : Work) (works : List Work) :
    Work.wordCount tokenizer (work :: works)
      = tokenizer.wordCount work.rows + Work.wordCount tokenizer works := by
  rw [wordCount, wordCount, Tokenizer.wordCount, Tokenizer.wordCount, Tokenizer.wordCount,
    List.flatMap_cons, List.flatMap_append, List.countP_append]

namespace Draft

variable {analyze : String → List Analysis} {reader : Reader} {draft grown : Draft}
  {failure : BuildError}

/-- There are fewer than 256 records in the buffer for each token, besides the reserved one. -/
def Slim (draft : Draft) : Prop := draft.forms.records.size ≤ 1 + 255 * draft.tokens.size

namespace Slim

theorem empty : Slim empty := Nat.le_refl 1

/-- A word brings the records of its form, or none if the form has come before. -/
theorem addWord (hfew : FewRecords analyze) (h : draft.Slim) {spelling : String}
    (hword : draft.addWord analyze spelling = .ok grown) : grown.Slim := by
  obtain ⟨-, forms, entry, hadd, rfl⟩ := addWord_eq_ok hword
  unfold Slim at h ⊢
  rw [Array.size_push]
  show forms.records.size ≤ _
  rcases FormTable.add_eq_ok hadd with ⟨-, rfl⟩ | ⟨-, made, hallot, rfl⟩
  · show draft.forms.records.size ≤ _
    omega
  · show made.records.size ≤ _
    have hcount := hfew (Fold.searchKey spelling)
    unfold RecordSpan.lengthLimit at hcount
    rcases FormTable.span_of_allot hallot with ⟨-, -, hsame⟩ | ⟨-, -, -, -, -, hsize⟩
    · rw [hsame]
      omega
    · rw [hsize]
      omega

/-- Every step of a build keeps a draft slim. -/
theorem step (hfew : FewRecords analyze) (hstep : Step analyze draft grown) (h : draft.Slim) :
    grown.Slim := by
  cases hstep with
  | reading hread =>
    cases hread with
    | word hword => exact h.addWord hfew hword
    | text text =>
      unfold Slim appendBreak
      rw [Array.size_modify]
      exact h
    | boundary =>
      unfold Slim
      rw [tokens_markHardBreak, forms_markHardBreak]
      exact h
  | spans works authors => exact h

/-- A slim draft with fewer than 2^16 tokens has room for one more word. -/
theorem exists_addWord (hfew : FewRecords analyze) (h : draft.Slim)
    (hsize : draft.tokens.size < 2 ^ 16) (spelling : String) :
    ∃ grown, draft.addWord analyze spelling = .ok grown := by
  have hfits : draft.forms.Fits (analyze (Fold.searchKey spelling)) := by
    refine .inr ⟨?_, hfew _⟩
    unfold Slim at h
    unfold RecordSpan.offsetLimit
    omega
  cases hword : draft.addWord analyze spelling with
  | ok grown => exact ⟨grown, rfl⟩
  | error failure =>
    unfold Draft.addWord at hword
    rcases guard_eq_error.mp hword with ⟨hfull, -⟩ | ⟨-, hword⟩
    · unfold maxTokens UInt32.size at hfull
      omega
    · rcases bind_eq_error.mp hword with hforms | ⟨_, _, hword⟩
      · exact absurd hfits (FormTable.add_eq_error hforms).2
      · cases hword

end Slim

/-! ## Builds that hit a capacity -/

/-- The chunks of a row are refused only behind 2^16 tokens. -/
theorem lt_of_addChunks (hfew : FewRecords analyze) (h : draft.Slim) {chunks : List Chunk}
    (hfailed : chunks.foldlM (addChunk analyze) draft = .error failure) :
    2 ^ 16 < draft.tokens.size + chunks.countP (·.isWord) := by
  obtain ⟨before, chunk, later, rfl, between, hbetween, hchunk⟩ := foldlM_eq_error hfailed
  have hslim : between.Slim :=
    (Reaches.foldlM reaches_addChunk hbetween).reading.keeps (Slim.step hfew) h
  have hsize := size_addChunks hbetween
  rw [List.countP_append, List.countP_cons]
  unfold addChunk at hchunk
  by_cases hword : chunk.isWord = true
  · -- the word that is refused is one more than there are tokens
    rw [if_pos hword] at hchunk ⊢
    by_contra hlt
    obtain ⟨next, hnext⟩ := hslim.exists_addWord hfew (by omega) chunk.text
    rw [hchunk] at hnext
    cases hnext
  · rw [if_neg hword] at hchunk
    cases hchunk

/-- There is one more token for each word of a row. -/
theorem size_addRow {workId : String} {workStart : Nat} {previous : Option SectionId} {row : String}
    {id : SectionId} {span : RowSpan}
    (h : draft.addRow reader workId workStart previous row id = .ok (grown, span)) :
    grown.tokens.size = draft.tokens.size + (reader.tokenizer.chunks row).countP (·.isWord) := by
  obtain ⟨boundary, -, hchunks, -⟩ := addRow_eq_ok h
  rw [size_addChunks hchunks, size_cross]

theorem size_addRows {workId : String} {workStart : Nat} {previous : Option SectionId}
    {rows : List (String × SectionId)} {spans : List RowSpan}
    (h : draft.addRows reader workId workStart previous rows = .ok (grown, spans)) :
    grown.tokens.size = draft.tokens.size + reader.tokenizer.wordCount (rows.map Prod.fst) := by
  induction rows generalizing draft previous spans with
  | nil =>
    cases h
    rfl
  | cons first rows ih =>
    obtain ⟨row, id⟩ := first
    unfold addRows at h
    obtain ⟨⟨next, span⟩, hnext, h⟩ := bind_eq_ok.mp h
    obtain ⟨⟨last, later⟩, hlast, h⟩ := bind_eq_ok.mp h
    cases h
    rw [ih hlast, size_addRow hnext, List.map_cons, Tokenizer.wordCount_cons, Nat.add_assoc]

/-- Rows hit a capacity only behind 2^16 tokens. -/
theorem lt_of_addRows (hfew : FewRecords reader.analyze) (h : draft.Slim) {workId : String}
    {workStart : Nat} {previous : Option SectionId} {rows : List (String × SectionId)}
    (hfailed : draft.addRows reader workId workStart previous rows = .error failure)
    (hcapacity : failure.isCapacity = true) :
    2 ^ 16 < draft.tokens.size + reader.tokenizer.wordCount (rows.map Prod.fst) := by
  induction rows generalizing draft previous with
  | nil => cases hfailed
  | cons first rows ih =>
    obtain ⟨row, id⟩ := first
    rw [List.map_cons, Tokenizer.wordCount_cons]
    show _ < _ + ((reader.tokenizer.chunks row).countP (·.isWord) + _)
    unfold addRows at hfailed
    rcases bind_eq_error.mp hfailed with hfirst | ⟨⟨next, span⟩, hnext, hfailed⟩
    · unfold addRow at hfirst
      rcases bind_eq_error.mp hfirst with hboundary | ⟨boundary, -, hfirst⟩
      · -- a bad section id is no capacity
        obtain ⟨-, -, rfl⟩ := mapError_eq_error.mp hboundary
        cases hcapacity
      · rcases bind_eq_error.mp hfirst with hchunks | ⟨_, _, hfirst⟩
        · have hcrossed : (draft.cross workStart boundary).Slim :=
            (reaches_cross draft workStart boundary).reading.keeps (Slim.step hfew) h
          have hlt := lt_of_addChunks hfew hcrossed hchunks
          rw [size_cross] at hlt
          omega
        · cases hfirst
    · rcases bind_eq_error.mp hfailed with hrest | ⟨_, _, hfailed⟩
      · have hslim : next.Slim := (reaches_addRow hnext).reading.keeps (Slim.step hfew) h
        have hlt := ih hslim hrest
        rw [size_addRow hnext] at hlt
        omega
      · cases hfailed

/-- A work hits a capacity only behind 2^16 tokens. -/
theorem lt_of_addWork (hfew : FewRecords reader.analyze) (h : draft.Slim) {work : Work}
    (hfailed : draft.addWork reader work = .error failure) (hcapacity : failure.isCapacity = true) :
    2 ^ 16 < draft.tokens.size + reader.tokenizer.wordCount work.rows := by
  unfold addWork at hfailed
  rcases guard_eq_error.mp hfailed with ⟨-, rfl⟩ | ⟨hlength, hfailed⟩
  · cases hcapacity
  rcases guard_eq_error.mp hfailed with ⟨-, rfl⟩ | ⟨-, hfailed⟩
  · cases hcapacity
  rcases bind_eq_error.mp hfailed with hauthor | ⟨author, -, hfailed⟩
  · rw [authorWith_eq_error hauthor] at hcapacity
    cases hcapacity
  rcases bind_eq_error.mp hfailed with hrows | ⟨⟨next, spans⟩, -, hfailed⟩
  · have hlt := lt_of_addRows hfew h hrows hcapacity
    rwa [List.map_fst_zip (Nat.le_of_eq (Decidable.not_not.mp hlength))] at hlt
  rcases guard_eq_error.mp hfailed with ⟨-, rfl⟩ | ⟨-, hfailed⟩
  · cases hcapacity
  · cases hfailed

/-- There is one more token for each word of a work. -/
theorem size_addWork {work : Work} (h : draft.addWork reader work = .ok grown) :
    grown.tokens.size = draft.tokens.size + reader.tokenizer.wordCount work.rows := by
  obtain ⟨hlength, author, next, spans, -, hrows, -, rfl⟩ := addWork_eq_ok h
  have hsize := size_addRows hrows
  rw [List.map_fst_zip (Nat.le_of_eq hlength)] at hsize
  rw [← hsize]
  exact congrArg Array.size (tokens_markHardBreak next)

/-- Works hit a capacity only behind 2^16 tokens. -/
theorem lt_of_foldlM_addWork (hfew : FewRecords reader.analyze) (h : draft.Slim)
    {works : List Work} (hfailed : works.foldlM (addWork reader) draft = .error failure)
    (hcapacity : failure.isCapacity = true) :
    2 ^ 16 < draft.tokens.size + Work.wordCount reader.tokenizer works := by
  induction works generalizing draft with
  | nil => cases hfailed
  | cons work works ih =>
    rw [Work.wordCount_cons]
    rw [List.foldlM_cons] at hfailed
    rcases bind_eq_error.mp hfailed with hwork | ⟨next, hnext, hfailed⟩
    · have hlt := lt_of_addWork hfew h hwork hcapacity
      omega
    · have hlt := ih ((reaches_addWork hnext).keeps (Slim.step hfew) h) hfailed
      rw [size_addWork hnext] at hlt
      omega

end Draft

namespace Corpus

/-- Works of at most 2^16 words with a text that 32 bits can measure hit no capacity, when forms
have few records. -/
theorem isCapacity_eq_false {reader : Reader} [LawfulTokenizer reader.tokenizer]
    (hfew : FewRecords reader.analyze) {works : List Work}
    (hwords : Work.wordCount reader.tokenizer works ≤ 2 ^ 16)
    (htext : (String.join (works.map (Work.laidOut reader.tokenizer))).utf8ByteSize < 2 ^ 32)
    (ratio : UInt32) (failure : BuildError) (hfailed : ofWorks reader ratio works = .error failure) :
    failure.isCapacity = false := by
  unfold ofWorks at hfailed
  rcases bind_eq_error.mp hfailed with hworks | ⟨draft, hdraft, hfinish⟩
  · by_contra hcapacity
    have hlt := Draft.lt_of_foldlM_addWork hfew .empty hworks (Bool.not_eq_false _ ▸ hcapacity)
    have hnone : Draft.empty.tokens.size = 0 := rfl
    omega
  · -- the text of the tokens is a part of that of the works
    have htokens := (worksTaken_of_foldlM_addWork hdraft).tells.tokens_eq
    rw [← join_flatMap_chunks, Token.join_eq, ← htokens, String.utf8ByteSize_append] at htext
    obtain ⟨text, hmade⟩ := Draft.exists_textOf_iff.mpr
      (show (runningText draft.tokens.toList).utf8ByteSize < UInt32.size by
        unfold UInt32.size
        omega)
    rw [(sound_of_foldlM_addWork hdraft).finish_eq_error_iff ratio failure, hmade] at hfinish
    cases hfinish

end Corpus

end Concordance
